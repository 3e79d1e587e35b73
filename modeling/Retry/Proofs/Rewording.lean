import Retry.Proofs.Meddlers

/-!
# Failures in other words

What a failure says is not meant to decide how a call goes: the policies of the library look
at its kind alone. Two failures are interchangeable under a policy (`Policy.Interchanges`) if
its rules say the same of both, and either both have a text or making it ends in the same failure.

A call whose operation fails with interchangeable failures instead makes as many invocations,
waits alike, tells its listener of the same attempts, and returns the same value or fails with
the same kind of failure (`rewording_unnoticed`). Collaborators must not look at the failures
themselves (`Heedless`): that is all that is asked of backoff, waits and listener. Simulated
calls are like that where the listener only observes (`heedless_setting`).

The texts are made nevertheless, of the failure before a wait and of one that is refused, and
a failure whose text cannot be made ends the call there (`wording_decides`).
-/

namespace Retry

theorem Mode.kind_leaving (mode : Mode) {f g : Failure} (h : f.kind = g.kind) :
    (mode.leaving f).kind = (mode.leaving g).kind := by
  cases mode with
  | blocking => exact h
  | task =>
    cases hstop : g.kind.descends "StopIteration" with
    | true =>
      simp only [leaving, Failure.leavingTask, Failure.isA, h, hstop, if_true]
      rfl
    | false => simp [leaving, Failure.leavingTask, Failure.isA, h, hstop]

def Setting.invoking {σ ε β α : Type} (S : Setting σ ε β α) (other : Act σ α) :
    Setting σ ε β α :=
  { S with invoke := other }

namespace Simulation

/-! ## What a policy makes of a failure -/

namespace Policy

/-- The rules of a policy say the same of two failures. Only those of a selective one look at
the failure. -/
def SaysSame (f g : Failure) : Policy → Prop
  | .selective p => p.isRetryable f = p.isRetryable g
  | _ => True

/-- Two failures that may stand for each other. -/
structure Interchanges (p : Policy) (f g : Failure) : Prop where
  ordinary : f.ordinary = g.ordinary
  extra : f.ordinary = false → f = g
  rules : p.SaysSame f g
  worded : Ends (fun _ _ => True) Eq f.text g.text

theorem Interchanges.refl (p : Policy) (f : Failure) : p.Interchanges f f where
  ordinary := rfl
  extra := fun _ => rfl
  rules := by cases p <;> first | exact rfl | trivial
  worded := ends_self (fun _ => trivial) (fun _ => rfl) f.text

end Policy

namespace Execution

def Of (p : Policy) : Execution → Prop
  | .count e => p = .count e.policy
  | .selective e => p = .selective e.policy
  | .scripted answers _ => p = .scripted answers

variable {p : Policy} {e : Execution} {f g : Failure}

theorem of_start (p : Policy) : p.start.Of p := by cases p <;> rfl

theorem Of.next (h : e.Of p) (f : Failure) : (e.shouldRetry f).next.Of p := by
  cases e with
  | count e => exact h
  | selective e =>
    have kept := (e.shouldRetry_counts f).1
    exact h.trans (congrArg Policy.selective kept.symm)
  | scripted answers calls => exact h

/-- Consultations that end the same, with as many records. -/
structure Matching (c d : Consultation Execution) : Prop where
  answer : c.answer = d.answer
  next : c.next = d.next
  notes : List.Forall₂ (fun _ _ => True) c.notes d.notes

/-- An execution cannot tell interchangeable failures apart. -/
theorem Of.interchanged (h : e.Of p) (hp : p.Interchanges f g) :
    Matching (e.shouldRetry f) (e.shouldRetry g) := by
  cases e with
  | count e => exact ⟨rfl, rfl, .nil⟩
  | scripted answers calls => exact ⟨rfl, rfl, .nil⟩
  | selective e =>
    obtain rfl := h
    have rules : e.policy.isRetryable f = e.policy.isRetryable g := hp.rules
    simp only [shouldRetry, SelectivePolicy.Execution.shouldRetry, rules]
    cases e.exhausted with
    | true => exact ⟨rfl, rfl, .nil⟩
    | false =>
      simp only [Bool.false_eq_true, if_false]
      rcases e.policy.isRetryable g with x | _ | _
      · exact ⟨rfl, rfl, .nil⟩
      · have words := hp.worded
        generalize f.text = t at words
        generalize g.text = u at words
        cases words with
        | ok => exact ⟨rfl, rfl, .cons trivial .nil⟩
        | error same =>
          subst same
          exact ⟨rfl, rfl, .nil⟩
      · dsimp only
        split <;> exact ⟨rfl, rfl, .nil⟩

/-- Asks an execution in surroundings that keep records. -/
def asking {σ : Type} (emit : Record → σ → σ) (f : Failure) : Act (Execution × σ) Bool :=
  .of fun (e, s) =>
    let c := e.shouldRetry f
    (c.answer, c.next, c.notes.foldl (fun s r => emit r s) s)

end Execution

/-! ## The kinship -/

/-- Calls under a policy whose operations fail with interchangeable failures. -/
def rewording (p : Policy) : Kinship Execution where
  early _ _ := True
  record _ _ := True
  operation := Eq
  execution e e' := e = e' ∧ e.Of p
  attempt := Eq
  failure := p.Interchanges
  exhaustion f g := f.kind = g.kind

theorem words_rewording {p : Policy} (name : String) (a : Attempt) {phase phase' : Phase}
    (h : Phase.Akin p.Interchanges phase phase') :
    Ends (fun _ _ => True) Eq (phase.record name a) (phase'.record name a) := by
  cases h with
  | same => exact ends_self (fun _ => trivial) (fun _ => rfl) _
  | failed => exact .ok trivial
  | retryFailed => exact .ok trivial
  | @waiting f g d h =>
    simp only [Phase.record, Phase.message]
    have words := h.worded
    generalize f.text = t at words
    generalize g.text = u at words
    cases words with
    | error same =>
      subst same
      exact .error rfl
    | ok =>
      rcases d.seconds with x | seconds
      · exact .error rfl
      · exact .ok trivial

theorem rewording_lawful (p : Policy) : (rewording p).Lawful where
  named := fun _ => rfl
  first := rfl
  next := by
    rintro a _ rfl
    exact ends_self (fun _ => rfl) (fun _ => rfl) _
  ordinary := fun _ _ h => h.ordinary
  extra := fun _ _ h => h.extra
  exhausted := fun _ _ _ _ _ _ _ => rfl
  firstWords := fun name _ _ h => words_rewording name 1 h
  words := by
    rintro name a _ phase phase' rfl h
    exact words_rewording name a h

/-! ## Calls -/

section

open Act

variable {σ β α : Type}

/-- Collaborators that do not look at failures: between surroundings related by `R` they make
no difference, whatever failures their records and notices hold. The policy does as the library
does. -/
structure Heedless (p : Policy) (R : σ → σ → Prop) (S : Setting σ Execution β α)
    (w : Waiting σ) : Prop where
  accept : ∀ r q s t, R s t → S.accept r s = S.accept q t
  emit : ∀ r q s t, R s t → R (S.emit r s) (S.emit q t)
  openPolicy : Akin R R (fun e e' => e = p.start ∧ e' = p.start) Eq S.openPolicy S.openPolicy
  openBackoff : Exact R S.openBackoff S.openBackoff
  shouldRetry : ∀ f, S.shouldRetry f = Execution.asking S.emit f
  nextDelay : Exact (Beside β R) S.nextDelay S.nextDelay
  waits : Waiting.Alike R w w
  notify : ∀ n m, (rewording p).Notified n m →
    Akin (Both (fun x y => x = n ∧ y = m) R) (Both ((rewording p).Left n m) R) Eq Eq
      S.notify S.notify

variable {p : Policy} {R : σ → σ → Prop} {S : Setting σ Execution β α} {w : Waiting σ}

theorem akin_asking {emit : Record → σ → σ} (hemit : ∀ r q s t, R s t → R (emit r s) (emit q t))
    {f g : Failure} (h : p.Interchanges f g) :
    Akin (Both (rewording p).execution R) (Both (rewording p).execution R) Eq Eq
      (Execution.asking emit f) (Execution.asking emit g) := by
  rintro ⟨e, s⟩ ⟨_, t⟩ ⟨⟨rfl, he⟩, hs⟩
  have same := he.interchanged h
  have kept := List.rel_foldl (P := R) (R := fun _ _ => True)
    (fun s t hs r q _ => hemit r q s t hs) hs same.notes
  refine ⟨?_, ⟨same.next, he.next f⟩, kept⟩
  show Ends Eq Eq (e.shouldRetry f).answer (e.shouldRetry g).answer
  rw [same.answer]
  exact ends_self (fun _ => rfl) (fun _ => rfl) _

theorem Heedless.kin (h : Heedless p R S w) {other : Act σ α}
    (hother : Akin R R Eq p.Interchanges S.invoke other) :
    (rewording p).Kin R R S (S.invoking other) where
  opened := fun _ _ => id
  acceptBefore := fun r q s t _ => h.accept r q s t
  emitBefore := fun r q s t _ => h.emit r q s t
  accept := fun r q s t _ => h.accept r q s t
  emit := fun r q s t _ => h.emit r q s t
  invokeBefore := hother
  invoke := hother
  openPolicy := by
    intro s t hs
    obtain ⟨hends, hr⟩ := h.openPolicy s t hs
    refine ⟨hends.mono ?_ fun _ _ => id, hr⟩
    rintro _ _ ⟨rfl, rfl⟩
    exact ⟨rfl, Execution.of_start p⟩
  openBackoff := exact_iff_akin.mp h.openBackoff
  shouldRetry := by
    intro f g hf
    show Akin _ _ _ _ (S.shouldRetry f) (S.shouldRetry g)
    rw [h.shouldRetry, h.shouldRetry]
    exact akin_asking h.emit hf
  nextDelay := exact_iff_akin.mp h.nextDelay
  notify := h.notify

/-- **Other words change nothing.** If the operation of a call fails with interchangeable
failures instead, the call makes as many invocations and waits alike, its listener is told of
the same attempts, and it ends the same, up to a failure of the same kind. -/
theorem rewording_unnoticed (p : Policy) (R : σ → σ → Prop) (S : Setting σ Execution β α)
    (w : Waiting σ) (other : Act σ α) (hS : Heedless p R S w)
    (hother : Akin R R Eq p.Interchanges S.invoke other)
    (operation : Operation) (fuel : Nat) (s t : σ) (hs : R s t) :
    let x := (w.mode.call (S.kept w) operation fuel).perform ([], s)
    let y := (w.mode.call ((S.invoking other).kept w) operation fuel).perform ([], t)
    (Journal.endings x.2.1).length = (Journal.endings y.2.1).length ∧
    Journal.slept x.2.1 = Journal.slept y.2.1 ∧ Journal.waits x.2.1 = Journal.waits y.2.1 ∧
    (Journal.events x.2.1).map (fun (a, event) => (a, event.hook)) =
      (Journal.events y.2.1).map (fun (a, event) => (a, event.hook)) ∧
    Ends Eq (fun f g => f.kind = g.kind) x.1 y.1 := by
  intro x y
  obtain ⟨hends, parallel, -⟩ := Kinship.parallel_call (rewording_lawful p) (fun _ => trivial)
    hS.waits (hS.kin hother) (G := fun f g => f.kind = g.kind) (fun _ => rfl)
    (fun _ _ => w.mode.kind_leaving) operation fuel ([], s) ([], t) ⟨.nil, hs⟩
  have told := parallel.mapped (f := fun (a, event) => (a, event.hook))
    (g := fun (a, event) => (a, event.hook))
    fun x y h => Prod.ext (show x.1 = y.1 from h.1) h.2.hook
  exact ⟨parallel.endings.length_eq, parallel.slept, parallel.waits, told, hends⟩

end

namespace Manner

theorem asking_setting (m : Manner) (invoke : Act Stage Datum) (f : Failure) :
    (m.setting invoke).shouldRetry f = Execution.asking (m.setting invoke).emit f := by
  have kept (notes : List Record) (s : Stage) :
      notes.foldl (fun s r => (m.setting invoke).emit r s) s =
        (s.1, notes.foldl World.keep s.2) := by
    induction notes generalizing s with
    | nil => rfl
    | cons r notes ih => exact ih _
  refine Act.ext_perform fun x => ?_
  simp only [Execution.asking, Act.perform_of, kept]
  rfl

/-- A simulated call is heedless, if its listener only observes. -/
theorem heedless_setting {m : Manner} {template : Template Policy Pacing (Listener Leaf)}
    {leaf : Leaf} (hm : m.source = .own template) (hl : template.listener = .leaf leaf)
    (h : leaf.Observing) (invoke : Act Stage Datum) :
    Heedless template.policy Apart (m.setting invoke) m.waiting where
  accept := fun r q _ _ hs => m.accept_apart invoke r q hs
  emit := fun r q _ _ hs => m.emit_apart invoke r q hs
  openPolicy := by
    intro s t hs
    rw [setting, hm]
    exact ⟨.ok ⟨rfl, rfl⟩, hs⟩
  openBackoff := by
    intro s t hs
    rw [setting, hm]
    exact .ok hs
  shouldRetry := m.asking_setting invoke
  nextDelay := exact_besideWorld exact_nextDelay
  waits := m.alike_waiting
  notify := by
    rintro _ _ ⟨state, told⟩ ⟨n, s⟩ ⟨k, t⟩ ⟨⟨rfl, rfl⟩, same, rest, held⟩
    obtain ⟨u, hu, urest, utemplate⟩ := perform_notify_observing hm hl h invoke n s
    obtain ⟨v, hv, vrest, -⟩ := perform_notify_observing hm hl h invoke k t
    rw [hu, hv]
    exact ⟨.ok rfl, ⟨state, id, id⟩, same, urest.trans (rest.trans vrest.symm),
      held.of_template (World.refuse_of_rest urest) utemplate⟩

end Manner

/-- The steps of an operation that fails with the given failures in turn, and then succeeds. -/
def faltering (failures : List Failure) : List (Act World Datum) :=
  failures.map throw ++ [pure 42]

/-- A template that nobody listens to, with delays of no time. -/
def quiet (p : Policy) : Template Policy Pacing (Listener Leaf) :=
  ⟨p, .scripted [.ok (some (.whole 0))], .leaf (.silent 1)⟩

def quietly (p : Policy) : Manner :=
  { mode := .blocking, source := .own (quiet p), token := none, arguments := {} }

def quietWorld (p : Policy) : World := { template? := some (quiet p) }

/-- The setting of a call whose operation falters. -/
def quietSetting (p : Policy) (failures : List Failure) : Setting Stage Execution Pace Datum :=
  (quietly p).setting ((quietly p).invoke (faltering failures))

def falteringCall (p : Policy) (failures : List Failure) :
    Except Failure (Option Datum) × Journal Execution Pace Datum × Stage :=
  ((quietly p).waiting.mode.call ((quietSetting p failures).kept (quietly p).waiting)
    (.function "fetch") 3).perform ([], [], quietWorld p)

theorem heedless_quiet (p : Policy) (failures : List Failure) :
    Heedless p Apart (quietSetting p failures) (quietly p).waiting := by
  change Heedless (quiet p).policy Apart ((quietly p).setting _) (quietly p).waiting
  exact Manner.heedless_setting rfl rfl (.silent 1) _

theorem akin_faltering {F : Failure → Failure → Prop} {fs gs : List Failure}
    (h : List.Forall₂ F fs gs) :
    List.Forall₂ (Act.Akin World.Unseen World.Unseen Eq F) (faltering fs) (faltering gs) := by
  refine List.rel_append (List.rel_map (fun f g hfg => ?_) h) (.cons (Act.akin_pure rfl) .nil)
  exact fun _ _ hw => ⟨.error hfg, hw⟩

theorem invoking_faltering (p : Policy) (fs gs : List Failure) :
    (quietSetting p fs).invoking (quietSetting p gs).invoke = quietSetting p gs := by
  simp only [Setting.invoking, quietSetting, Manner.setting]

/-- A policy that retries arithmetic failures. -/
def arithmetic : Policy := .selective ⟨3, ["ArithmeticError"], [], none⟩

/-- An overflow is retried like any other arithmetic failure. -/
theorem rewording_unnoticed_arithmetic :
    (Journal.endings (falteringCall arithmetic [.of .overflowError "too much"]).2.1).length =
      (Journal.endings (falteringCall arithmetic [.of .arithmeticError "so what"]).2.1).length ∧
    (Journal.endings (falteringCall arithmetic [.of .arithmeticError "so what"]).2.1).length = 2 ∧
    Ends Eq (fun f g => f.kind = g.kind)
      (falteringCall arithmetic [.of .overflowError "too much"]).1
      (falteringCall arithmetic [.of .arithmeticError "so what"]).1 := by
  have same : arithmetic.Interchanges (.of .overflowError "too much")
      (.of .arithmeticError "so what") :=
    ⟨by decide, fun h => absurd h (by decide), rfl, .ok trivial⟩
  have operations : Act.Akin Apart Apart Eq arithmetic.Interchanges
      (quietSetting arithmetic [.of .overflowError "too much"]).invoke
      (quietSetting arithmetic [.of .arithmeticError "so what"]).invoke :=
    Manner.akin_invoke _ (Policy.Interchanges.refl _) (akin_faltering (.cons same .nil))
  have apart : Apart ([], quietWorld arithmetic) ([], quietWorld arithmetic) :=
    ⟨rfl, rfl, fun _ => rfl, _, _, rfl, rfl, .silent 1⟩
  obtain ⟨invoked, -, -, -, ended⟩ := rewording_unnoticed arithmetic Apart
    (quietSetting arithmetic [.of .overflowError "too much"]) (quietly arithmetic).waiting
    (quietSetting arithmetic [.of .arithmeticError "so what"]).invoke
    (heedless_quiet arithmetic _) operations (.function "fetch") 3 ([], quietWorld arithmetic)
    ([], quietWorld arithmetic) apart
  rw [invoking_faltering] at invoked ended
  unfold falteringCall
  exact ⟨invoked, by decide +kernel, ended⟩

/-- A kind of failure whose text cannot be made. -/
def wordless : Kind := (Kind.below "WordlessError" [Kind.exception]).worded
  (.failing (Kind.runtimeError.raising "bad str"))

/-- How a call ended: the literal of what it returned, or the kind of its failure. -/
def gist (r : Except Failure (Option Datum)) : Except Kind (Option String) :=
  (r.map fun result => result.map Datum.literal).mapError Failure.kind

/-- **Words decide after all.** A policy that counts attempts says the same of both failures.
One of them is retried; the other ends the call, with what making its text ends in. -/
theorem wording_decides :
    let p : Policy := .count ⟨3⟩
    let f := Failure.of .valueError "boom"
    let g := Failure.of wordless "boom"
    let x := falteringCall p [f]
    let y := falteringCall p [g]
    p.SaysSame f g ∧ f.ordinary = true ∧ g.ordinary = true ∧
    (Journal.endings x.2.1).length = 2 ∧ (Journal.endings y.2.1).length = 1 ∧
    gist x.1 = .ok (some "42") ∧ gist y.1 = .error .runtimeError := by
  refine ⟨trivial, by decide, by decide, by decide +kernel, by decide +kernel, ?_, ?_⟩
  · decide +kernel
  · decide +kernel

end Simulation

end Retry
