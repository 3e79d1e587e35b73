import Retry.Proofs.Audience

/-!
# Hooks of a simulation, step by step

Whatever the rules of a simulated listener are, its hooks are put together from a few steps on the
world: it makes listeners, looks them up, lets them join a group, replaces parts of the template,
asks the execution, counts and writes down. A relation between worlds that each of these steps
keeps is `Orderly`, and then every action, every hook and every event keeps it.

Main statements: `Orderly.act` (actions on the world), `Orderly.hook` (leaves), `Orderly.told`
(listeners, however deep).
-/

namespace Retry.Simulation

open Retry Act

/-- A relation between worlds that the steps of listeners keep: in related worlds they go alike. -/
structure Orderly (R : World → World → Prop) : Prop where
  named : ∀ v w, R v w → v.listenerNamed = w.listenerNamed
  template : ∀ v w, R v w → v.template? = w.template?
  members : ∀ v w, R v w → v.members = w.members
  leaf : ∀ id leaf, Exact R (World.buildLeaf id leaf) (World.buildLeaf id leaf)
  group : ∀ id ls, Exact R (World.buildGroup id ls) (World.buildGroup id ls)
  joins : ∀ id l v w, R v w → R (v.addTo id l) (w.addTo id l)
  sets : ∀ t v w, R v w → R { v with template? := some t } { w with template? := some t }
  cancels : Exact R (World.act .cancel) (World.act .cancel)
  correlates : ∀ id v w, R v w → R { v with correlation := id } { w with correlation := id }
  counts : ∀ key hook,
    Exact R (sure (World.countTold · key hook)) (sure (World.countTold · key hook))
  writes : ∀ (row : EventRow) (v w : World), R v w →
    R { v with trace := { v.trace with events := v.trace.events ++ [row] } }
      { w with trace := { w.trace with events := w.trace.events ++ [row] } }
  consults : ∀ f, Exact (Beside Execution R) (Scene.consult f) (Scene.consult f)

namespace Orderly

variable {R : World → World → Prop}

/-! ## Actions on the world -/

mutual

theorem build (h : Orderly R) : ∀ s : ListenerScript, Exact R (World.build s) (World.build s)
  | .missing => by
    rw [World.build]
    exact exact_pure _
  | .silent id => by
    rw [World.build]
    exact h.leaf id _
  | .recorder id rules => by
    rw [World.build]
    exact h.leaf (some id) _
  | .callback id hooks rules => by
    rw [World.build]
    exact h.leaf (some id) _
  | .group id members => by
    rw [World.build]
    exact exact_bind (h.buildAll members) fun _ => h.group id _
  | .known id => by
    rw [World.build]
    exact exact_bind (exact_look h.named) fun _ => exact_result _

theorem buildAll (h : Orderly R) :
    ∀ ss : List ListenerScript, Exact R (World.buildAll ss) (World.buildAll ss)
  | [] => by
    rw [World.buildAll]
    exact exact_pure _
  | s :: ss => by
    rw [World.buildAll]
    exact exact_bind (h.build s) fun _ => exact_bind (h.buildAll ss) fun _ => exact_pure _

end

theorem listenerSetter (h : Orderly R) (script : Option ListenerScript) :
    Exact R (World.listenerSetter script) (World.listenerSetter script) := by
  refine exact_bind ?_ fun _ => exact_pure _
  cases script with
  | none => exact exact_pure _
  | some s => exact exact_map some (h.build s)

theorem partOption {γ : Type} (part : Option (Except Failure γ)) :
    Exact R (World.partOption part) (World.partOption part) := by
  cases part with
  | none => exact exact_pure _
  | some r => exact exact_map some (exact_result r)

theorem setPart (h : Orderly R) (set : World.Setter) :
    Exact R (World.setPart set) (World.setPart set) := by
  have same (v w : World) (hs : R v w) : v.template = w.template :=
    congrArg (Option.getD · _) (h.template v w hs)
  exact exact_bind (exact_look same) fun _ => exact_bind (exact_result _) fun t =>
    exact_change (h.sets t)

theorem callSetter (h : Orderly R) (name : String) {setter : Act World World.Setter}
    (made : Exact R setter setter) :
    Exact R (World.callSetter name setter) (World.callSetter name setter) := by
  refine exact_bind (exact_look h.template) fun template => ?_
  split
  · exact exact_bind (exact_result (.error _)) fun _ => exact_bind made h.setPart
  · exact exact_bind made h.setPart

/-- **Actions on the world** go alike. -/
theorem act (h : Orderly R) (a : Action) : Exact R (World.act a) (World.act a) := by
  cases a with
  | cancel => exact h.cancels
  | addListener group script =>
    exact exact_bind (exact_look h.named) fun _ => exact_bind (exact_result _) fun id =>
      exact_bind (h.build script) fun l => exact_change (h.joins id l)
  | setListener script => exact h.callSetter _ (h.listenerSetter script)
  | setPolicy policy => exact h.callSetter _ (exact_bind (partOption policy) fun _ => exact_pure _)
  | setBackoff backoff =>
    exact h.callSetter _ (exact_bind (partOption backoff) fun _ => exact_pure _)
  | setCorrelation id => exact exact_change (h.correlates id)
  | _ => exact exact_result (.error _)

/-! ## Hooks -/

section

variable {γ : Type}

theorem inWorld {act : Act World γ} (h : Exact R act act) :
    Exact (Beside (Notice Execution Datum) R) (Scene.inWorld act) (Scene.inWorld act) := by
  rintro ⟨n, v⟩ ⟨_, w⟩ ⟨rfl, hw⟩
  obtain ⟨ends, left⟩ := (h v w hw).same
  rw [Scene.inWorld, perform_zoom, perform_zoom, ends]
  exact matched_of_same _ ⟨rfl, left⟩

theorem inExecution {act : Act (Execution × World) γ} (h : Exact (Beside Execution R) act act) :
    Exact (Beside (Notice Execution Datum) R) (Scene.inExecution act) (Scene.inExecution act) := by
  rintro ⟨n, v⟩ ⟨_, w⟩ ⟨rfl, hw⟩
  obtain ⟨ends, same, left⟩ := (h (n.state.execution, v) (n.state.execution, w) ⟨rfl, hw⟩).same
  rw [Scene.inExecution, perform_zoom, perform_zoom, ends, same]
  exact matched_of_same _ ⟨rfl, left⟩

theorem ofNotice (f : Notice Execution Datum → γ) :
    Exact (Beside (Notice Execution Datum) R) (look fun s => f s.1) (look fun s => f s.1) :=
  exact_look fun _ _ h => congrArg f h.1

theorem changeNotice (f : Notice Execution Datum → Except Failure (Notice Execution Datum)) :
    Exact (Beside (Notice Execution Datum) R) (Scene.changeNotice f) (Scene.changeNotice f) :=
  exact_bind (ofNotice fun n => n) fun n => exact_bind (exact_result (f n)) fun _ =>
    exact_change fun _ _ h => ⟨rfl, h.2⟩

end

theorem actOnEvent (h : Orderly R) (a : Action) :
    Exact (Beside (Notice Execution Datum) R) (Scene.actOnEvent a) (Scene.actOnEvent a) := by
  cases a with
  | addSuppressed f => exact changeNotice _
  | _ => exact inWorld (h.act _)

theorem actOnState (h : Orderly R) (a : Action) :
    Exact (Beside (Notice Execution Datum) R) (Scene.act a) (Scene.act a) := by
  unfold Scene.act
  split
  · exact changeNotice _
  · exact changeNotice _
  · exact exact_map (fun _ => ()) (inExecution (h.consults _))
  · exact h.actOnEvent _

theorem follow {act : Action → Act Scene Unit}
    (acts : ∀ a, Exact (Beside (Notice Execution Datum) R) (act a) (act a)) (r : Rule) :
    Exact (Beside (Notice Execution Datum) R) (Scene.follow act r) (Scene.follow act r) := by
  obtain ⟨hook, nth, actions, raises⟩ := r
  refine exact_bind (exact_forM fun a _ => acts a) fun _ => ?_
  cases raises with
  | none => exact exact_pure ()
  | some f => exact exact_result (.error f)

theorem followRules (h : Orderly R) {act : Action → Act Scene Unit}
    (acts : ∀ a, Exact (Beside (Notice Execution Datum) R) (act a) (act a)) (key : Nat)
    (rules : List Rule) :
    Exact (Beside (Notice Execution Datum) R) (Scene.followRules act key rules)
      (Scene.followRules act key rules) :=
  exact_bind (ofNotice (·.event.hook)) fun hook => exact_bind (inWorld (h.counts key hook)) fun _ =>
    exact_forM fun r _ => follow acts r

theorem note (h : Orderly R) (row : Notice Execution Datum → EventRow) :
    Exact (Beside (Notice Execution Datum) R) (Scene.note row) (Scene.note row) := by
  refine exact_change ?_
  rintro ⟨n, v⟩ ⟨_, w⟩ ⟨rfl, hw⟩
  exact ⟨rfl, h.writes (row n) v w hw⟩

/-- **Hooks** go alike, whatever their rules are. -/
theorem hook (h : Orderly R) (leaf : Leaf) :
    Exact (Beside (Notice Execution Datum) R) (Scene.hook leaf) (Scene.hook leaf) := by
  cases leaf with
  | missing => exact exact_bind (ofNotice (·.event.hook)) fun _ => exact_result (.error _)
  | silent key => exact exact_pure ()
  | recorder key id rules =>
    exact exact_bind (h.note _) fun _ => h.followRules h.actOnState key rules
  | callback key id hooks rules =>
    refine exact_bind (ofNotice (·.event.hook)) fun told => ?_
    split
    · exact exact_bind (h.note _) fun _ => h.followRules h.actOnEvent key rules
    · exact exact_pure ()

/-- **Listeners** go alike, however deep events are passed on. -/
theorem told (h : Orderly R) (fuel : Nat) (l : Listener Leaf) :
    Exact (Beside (Notice Execution Datum) R)
      (Listener.tell (fun x => x.2.members) Scene.hook fuel l)
      (Listener.tell (fun x => x.2.members) Scene.hook fuel l) :=
  (Listener.exact_passed (P := fun _ => True) (fun x y hs => h.members x.2 y.2 hs.2)
    (fun _ _ _ _ _ _ => trivial) (fun leaf _ => h.hook leaf) fuel).1 l trivial

end Orderly

end Retry.Simulation
