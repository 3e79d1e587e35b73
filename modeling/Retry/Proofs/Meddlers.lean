import Retry.Proofs.Allowance
import Retry.Proofs.Hooks

/-!
# What listeners can do to an execution

A listener of a simulation may do much on the side: fail, cancel, change the state of the call,
replace the parts of the template, join groups that are being told. To the execution that the
state shows it can do one thing only, to ask it. This holds of every listener, group or leaf,
whatever its rules are (`Scene.asks_tell`).

A listener without rules does not even ask: it writes down what it is told (`Leaf.Observing`).

A simulated call asks the policy and the backoff of its template as the library does. The
template is what the opening relies on (`Manner.Offers`).

Main statements: `consulting_setting`, `observed_setting`, `uses_setting`.
-/

namespace Retry.Simulation

open Retry Act

namespace Execution

/-- What an execution heeds is its own predicate, if it has one. -/
theorem heeding_self (e : Execution) : ∃ accepts, e.heeding accepts = e := by
  cases e with
  | count e => exact ⟨fun _ => .ok true, rfl⟩
  | selective e =>
    obtain ⟨⟨maxAttempts, retryOn, ignored, _ | accepts⟩, attempts, exhausted⟩ := e
    · exact ⟨fun _ => .ok true, rfl⟩
    · exact ⟨accepts, rfl⟩
  | scripted answers calls => exact ⟨fun _ => .ok true, rfl⟩

theorem asked_self (e : Execution) (f : Failure) :
    e.Asked f (e.shouldRetry f).answer (e.shouldRetry f).next := by
  obtain ⟨accepts, h⟩ := e.heeding_self
  exact ⟨accepts, by rw [h], by rw [h]⟩

end Execution

namespace Scene

/-! ## Listeners ask -/

/-- A step that does no more to the execution of a scene than to ask it, also if it fails. -/
def Asks {α : Type} (act : Act Scene α) : Prop :=
  ∀ x : Scene, x.1.state.execution.Consults (act.perform x).2.1.state.execution

section

variable {α β γ : Type}

theorem asks_of_kept {act : Act Scene α}
    (h : ∀ x, (act.perform x).2.1.state.execution = x.1.state.execution) : Asks act := by
  intro x
  rw [h x]
  exact .refl

theorem asks_bind {act : Act Scene α} {k : α → Act Scene β} (h : Asks act)
    (hk : ∀ a, Asks (k a)) : Asks (act >>= k) := by
  intro x
  have hx := h x
  rw [perform_bind]
  rcases hy : act.perform x with ⟨f | a, y⟩ <;> rw [hy] at hx
  · exact hx
  · exact hx.trans (hk a y)

theorem asks_pure (a : α) : Asks (pure a) := asks_of_kept fun _ => rfl

theorem asks_throw (f : Failure) : Asks (throw f : Act Scene α) := asks_of_kept fun _ => rfl

theorem asks_look (f : Scene → α) : Asks (look f) := asks_of_kept fun _ => rfl

theorem asks_inWorld (act : Act World α) : Asks (inWorld act) := asks_of_kept fun _ => rfl

theorem asks_forM {act : γ → Act Scene Unit} (h : ∀ c, Asks (act c)) (items : List γ) :
    Asks (items.forM act) := by
  induction items with
  | nil => exact asks_pure ()
  | cons c items ih => exact asks_bind (h c) fun _ => ih

end

theorem asks_changeNotice {f : Notice Execution Datum → Except Failure (Notice Execution Datum)}
    (h : ∀ n m, f n = .ok m → m.state.execution = n.state.execution) : Asks (changeNotice f) := by
  refine asks_of_kept fun x => ?_
  simp only [changeNotice, perform_bind, perform_look, perform_result]
  rcases changed : f x.1 with e | m
  · rfl
  · exact h x.1 m changed

theorem asks_consult (f : Failure) : Asks (discard (inExecution (consult f))) := by
  intro x
  rw [show discard (inExecution (consult f)) = (fun _ => ()) <$> inExecution (consult f) from rfl,
    perform_map]
  exact .single ⟨f, _, x.1.state.execution.asked_self f⟩

theorem addSuppressed_execution {n m : Notice Execution Datum} {f : Failure}
    (h : n.addSuppressed f = .ok m) : m.state.execution = n.state.execution := by
  obtain ⟨e, -, h⟩ := Except.of_bind_ok h
  rw [← Except.ok.inj h]

theorem asks_actOnEvent (a : Action) : Asks (actOnEvent a) := by
  cases a with
  | addSuppressed f => exact asks_changeNotice fun _ _ => addSuppressed_execution
  | _ => exact asks_inWorld _

theorem asks_act (a : Action) : Asks (act a) := by
  unfold act
  split
  · refine asks_changeNotice fun n m h => ?_
    rw [← Except.ok.inj h]
  · refine asks_changeNotice fun n m h => ?_
    rw [← Except.ok.inj h]
  · exact asks_consult _
  · exact asks_actOnEvent _

theorem asks_follow {act : Action → Act Scene Unit} (h : ∀ a, Asks (act a)) (r : Rule) :
    Asks (follow act r) := by
  obtain ⟨hook, nth, actions, raises⟩ := r
  refine asks_bind (asks_forM h actions) fun _ => ?_
  cases raises with
  | none => exact asks_pure ()
  | some f => exact asks_throw f

theorem asks_followRules {act : Action → Act Scene Unit} (h : ∀ a, Asks (act a)) (key : Nat)
    (rules : List Rule) : Asks (followRules act key rules) :=
  asks_bind (asks_look _) fun _ => asks_bind (asks_inWorld _) fun _ =>
    asks_forM (asks_follow h) _

theorem asks_note (row : Notice Execution Datum → EventRow) : Asks (note row) :=
  asks_of_kept fun _ => rfl

theorem asks_hook (leaf : Leaf) : Asks (hook leaf) := by
  cases leaf with
  | missing => exact asks_bind (asks_look _) fun _ => asks_throw _
  | silent key => exact asks_pure ()
  | recorder key id rules =>
    exact asks_bind (asks_note _) fun _ => asks_followRules asks_act key rules
  | callback key id hooks rules =>
    refine asks_bind (asks_look _) fun told => ?_
    split
    · exact asks_bind (asks_note _) fun _ => asks_followRules asks_actOnEvent key rules
    · exact asks_pure ()

/-- Groups pass on and do nothing else, so they ask as their leaves do. The induction is on how
deep events are passed on, for listeners and positions in groups at once. -/
theorem asks_passed (members : Scene → Nat → List (Listener Leaf)) (fuel : Nat) :
    (∀ l, Asks (Listener.tell members hook fuel l)) ∧
      ∀ id i, Asks (Listener.tellFrom members hook fuel id i) := by
  induction fuel with
  | zero => exact ⟨fun _ => asks_throw _, fun _ _ => asks_throw _⟩
  | succ fuel ih =>
    obtain ⟨told, passed⟩ := ih
    refine ⟨fun l => ?_, fun id i => ?_⟩
    · cases l with
      | leaf leaf => exact asks_hook leaf
      | group id => exact passed id 0
    · unfold Listener.tellFrom
      refine asks_bind (asks_look _) fun found => ?_
      cases found[i]? with
      | none => exact asks_pure ()
      | some member => exact asks_bind (told member) fun _ => passed id (i + 1)

/-- **Listeners ask, at most.** -/
theorem asks_tell (l : Listener Leaf) : Asks (tell l) := (asks_passed _ depth).1 l

end Scene

/-! ## Listeners that observe -/

/-- A leaf that only writes down what it is told, if anything. -/
inductive Leaf.Observing : Leaf → Prop where
  | silent (key : Nat) : Observing (.silent key)
  | recorder (key : Nat) (id : String) : Observing (.recorder key id [])
  | callback (key : Nat) (id : String) (hooks : List String) : Observing (.callback key id hooks [])

theorem Scene.perform_followRules_nil (act : Action → Act Scene Unit) (key : Nat)
    (n : Notice Execution Datum) (w : World) :
    (followRules act key []).perform (n, w) = (.ok (), n, (w.countTold key n.event.hook).2) := rfl

theorem Scene.observed_hook {leaf : Leaf} (h : leaf.Observing) (n : Notice Execution Datum)
    (w : World) : ∃ u, (hook leaf).perform (n, w) = (.ok (), n, u) ∧ u.rest = w.rest ∧
      u.template? = w.template? := by
  cases h with
  | silent key => exact ⟨w, rfl, rfl, rfl⟩
  | recorder key id => exact ⟨_, perform_followRules_nil act key n _, rfl, rfl⟩
  | callback key id hooks =>
    simp only [hook, perform_bind, perform_look]
    split
    · exact ⟨_, perform_followRules_nil actOnEvent key n _, rfl, rfl⟩
    · exact ⟨w, rfl, rfl, rfl⟩

namespace Manner

section

variable {m : Manner} {template : Template Policy Pacing (Listener Leaf)} {leaf : Leaf}
  (hm : m.source = .own template) (hl : template.listener = .leaf leaf) (h : leaf.Observing)

include hm hl h

theorem perform_notify_observing (invoke : Act Stage Datum) (n : Notice Execution Datum)
    (s : Stage) : ∃ u, (m.setting invoke).notify.perform (n, s) = (.ok (), n, s.1, u) ∧
      u.rest = s.2.rest ∧ u.template? = s.2.template? := by
  obtain ⟨u, hu, kept⟩ := Scene.observed_hook h n s.2
  refine ⟨u, ?_, kept⟩
  simp only [setting, hm, Source.template, hl, Scene.tell_leaf, besideWorld, perform_zoom,
    perform_bind, perform_look, hu]

/-- The listener of a call is one that observes, whatever happens in the world. -/
theorem observed_setting (invoke : Act Stage Datum) : (m.setting invoke).Observed := by
  intro n s
  obtain ⟨u, hu, -⟩ := perform_notify_observing hm hl h invoke n s
  exact ⟨_, hu⟩

end


theorem consulting_setting (m : Manner) (invoke : Act Stage Datum) :
    Consulting (m.setting invoke) := by
  rintro n ⟨invocations, v⟩ k t h
  have asked := Scene.asks_bind (Scene.asks_look (·.2)) (fun w =>
    Scene.asks_tell (m.source.template w).listener) (n, v)
  simp only [setting, besideWorld, perform_zoom] at h
  obtain ⟨-, h⟩ := Prod.mk.inj h
  obtain ⟨rfl, -⟩ := Prod.mk.inj h
  exact asked

/-- The template of a call holds this policy and this backoff. -/
def Offers (m : Manner) (policy : Policy) (backoff : Backoff) (s : Stage) : Prop :=
  (m.source.template s.2).policy = policy ∧ (m.source.template s.2).backoff = .limited backoff

theorem Offers.of_template {m : Manner} {policy : Policy} {backoff : Backoff} {s t : Stage}
    (h : m.Offers policy backoff s) (same : t.2.template? = s.2.template?) :
    m.Offers policy backoff t := by
  have template : m.source.template t.2 = m.source.template s.2 :=
    World.template_of_same m.source same
  exact ⟨template ▸ h.1, template ▸ h.2⟩

/-- **A simulated call uses what its template offers**, if its first invocation does not change
that. -/
theorem uses_setting (m : Manner) {policy : Policy} {backoff : Backoff} {invoke : Act Stage Datum}
    (h : ∀ s, m.Offers policy backoff s → m.Offers policy backoff (invoke.perform s).2) :
    Uses (m.setting invoke) policy backoff (m.Offers policy backoff) where
  emit := fun r s hs => hs.of_template (s.2.keep_template r)
  invoke := h
  openPolicy := by
    intro s e t hs opened
    obtain ⟨he, rfl⟩ := Prod.mk.inj opened
    exact ⟨(Except.ok.inj he).symm.trans (congrArg Policy.start hs.1), hs⟩
  openBackoff := by
    intro s b t hs opened
    obtain ⟨hb, -⟩ := Prod.mk.inj opened
    exact (Except.ok.inj hb).symm.trans (congrArg Pacing.start hs.2)
  shouldRetry := by
    intro f e s r e' t asked
    obtain ⟨rfl, hs⟩ := Prod.mk.inj asked
    obtain ⟨rfl, -⟩ := Prod.mk.inj hs
    exact e.asked_self f
  nextDelay := by
    intro run s r b t drawn
    obtain ⟨rfl, hs⟩ := Prod.mk.inj drawn
    obtain ⟨rfl, -⟩ := Prod.mk.inj hs
    exact ⟨_, ⟨backoff.calculate, s.2.draws, rfl, rfl⟩, rfl⟩

end Manner

end Retry.Simulation
