import Retry.Proofs.Counters
import Retry.Proofs.Growing

/-!
# An answer that no delay reads like

A walk that has stopped answers minus one, a number like any other delay. The loop compares what
it is given with that number; it does not look at the walk. So a delay of minus one, calculated
by a backoff that goes on, would be taken for a stop.

No delay of a fixed backoff is below zero, and none of an exponential one: a NaN is not equal to
minus one, and neither is what is not below zero (`isStop_of_not_lt`). For these the comparison
tells exactly whether the walk has stopped (`next_stops`), call after call, whatever limits they
have, and the loop is left for a stop exactly when the walk has stopped (`stop_unmistakable`).

`Regulated` is the hypothesis on a call: it opens a walk through such a backoff, and asks it as
the library does.
-/

namespace Retry

/-! ## Walks -/

namespace Backoff

/-- A number that is not below zero is not the answer of a backoff that has stopped. -/
theorem isStop_of_not_lt {v : Number} (h : v.lt 0 = false) : isStop (some v) = false := by
  have stopped : stop.position? = some (.finite (-Binary64.one)) := by decide +kernel
  have zero : (0 : Number).position? = some (.finite (0 * Binary64.one)) := rfl
  show v.same stop = false
  unfold Number.lt at h
  unfold Number.same
  rw [stopped]
  rw [zero] at h
  cases hv : v.position? with
  | none => rfl
  | some p =>
    rw [hv] at h
    refine decide_eq_false ?_
    rintro rfl
    have one : (0 : Int) < Binary64.one := Int.natCast_pos.mpr Binary64.one_pos
    have above : ¬ (-Binary64.one : Int) < 0 * (Binary64.one : Int) := by
      refine of_decide_eq_false ?_
      exact h
    rw [Int.zero_mul] at above
    exact above (Int.neg_neg_of_pos one)

/-- A fixed backoff that was accepted, or an exponential one without jitter. -/
inductive Regular : Backoff → Prop where
  | fixed {interval : Number} {count time : Option Number} {b : Backoff}
      (made : fixed interval count time = .ok b) : Regular b
  | exponential {g : Growth} {count time : Option Number} {b : Backoff}
      (made : exponential g count time = .ok b) (still : g.jitter.IsZero) : Regular b

section

variable {b : Backoff} {run : Run} {draws : Draws} {d : Delay}

/-- What is calculated does not read like a stop, whatever is drawn. -/
theorem Regular.calculated (regular : b.Regular) {index : Int}
    (h : (b.calculate index draws).1 = .ok d) : isStop d = false := by
  cases regular with
  | @fixed interval _ _ _ made =>
    obtain ⟨⟨⟩, accepted, made⟩ := Except.of_bind_ok made
    obtain ⟨⟨⟩, -, made⟩ := Except.of_bind_ok made
    obtain rfl := Except.ok.inj made
    obtain rfl : some interval = d := Except.ok.inj h
    exact isStop_of_not_lt (Limits.atLeast_ok.mp accepted)
  | @exponential g _ _ _ made still =>
    obtain ⟨accepted, -, -, calculate⟩ := exponential_ok made
    rw [calculate, Growth.delay_of_still still] at h
    obtain rfl : some (g.interval index) = d := Except.ok.inj h
    exact isStop_of_not_lt (Number.nonneg_iff.mp (accepted.interval index))

/-- If no delay reads like a stop, an answer does exactly when the walk has stopped. -/
theorem next_stops
    (calculated : ∀ d, (b.calculate run.attempts draws).1 = .ok d → isStop d = false)
    (h : (b.next run draws).delay = .ok d) :
    isStop d = true ↔ (b.next run draws).run.stopped = true := by
  have stops {latched : Bool} (h : Except.ok (some stop) = Except.ok (ε := Failure) d)
      (hl : latched = true) : isStop d = true ↔ latched = true := by
    obtain rfl := Except.ok.inj h
    exact ⟨fun _ => hl, fun _ => isStop_stop⟩
  revert h
  unfold next
  cases latched : run.stopped with
  | true => exact fun h => stops h latched
  | false =>
    cases b.countReached run with
    | true => exact fun h => stops h rfl
    | false =>
      simp only [Bool.false_eq_true, if_false]
      rcases hc : b.calculate run.attempts draws with ⟨x | d', draws'⟩
      · simp
      rw [hc] at calculated
      dsimp only
      rcases b.exceeds run d' with x | _ | _
      · simp
      · -- A walk that goes on gives what was calculated.
        simp only [grant]
        rcases d'.addedTo run.elapsed "+=" with x | t
        · simp
        · intro h
          obtain rfl : d' = d := Except.ok.inj h
          simp [calculated d' rfl, latched]
      · rcases b.elapsedNote run with x | note
        · simp
        · exact fun h => stops h rfl

end

end Backoff

/-! ## Calls -/

open Simulation

/-- The call opens a walk through a regular backoff, and asks it as the library does. `Held` is
what the opening relies on. -/
structure Regulated {σ ε α : Type} (S : Setting σ ε Pace α) (Held : σ → Prop) : Prop where
  emit : ∀ r s, Held s → Held (S.emit r s)
  invoke : ∀ s, Held s → Held (S.invoke.perform s).2
  openPolicy : ∀ s, Held s → Held (S.openPolicy.perform s).2
  openBackoff : ∀ s p t, Held s → S.openBackoff.perform s = (.ok p, t) →
    ∃ b, p = .limited b .start ∧ b.Regular
  nextDelay : ∀ b run s r p t, S.nextDelay.perform (.limited b run, s) = (r, p, t) →
    ∃ draws, r = (b.next run draws).delay ∧ p = .limited b (b.next run draws).run

namespace Simulation.Pace

def stopped : Pace → Bool
  | .limited _ run => run.stopped
  | .scripted _ _ => false

/-- A walk through a regular backoff, that has not stopped. -/
inductive Underway : Pace → Prop where
  | limited {b : Backoff} {run : Backoff.Run} (regular : b.Regular)
      (going : run.stopped = false) : Underway (.limited b run)

theorem Underway.going {p : Pace} (h : p.Underway) : p.stopped = false := by
  cases h with
  | limited regular going => exact going

end Simulation.Pace

namespace Setting

variable {σ ε β α : Type} {S : Setting σ ε β α} {name : String} {p : Progress ε β} {s t u : σ}
  {d : Delay} {e : ε} {b : β}

/-- A turn in which the policy approves leaves the loop exactly for an answer that reads like a
stop, if the logger keeps the record of that. -/
theorem turn_refused_iff
    (ask : (S.shouldRetry p.last).perform (p.state.execution, s) = (.ok true, e, t))
    (draw : S.nextDelay.perform (p.backoff, t) = (.ok d, b, u))
    (kept : ∀ f, ¬ S.Unkept name p.state.attempt .backoffStopped u f) :
    (∃ q v, (S.turn name p).perform s = (.ok (.refused q), v)) ↔ Backoff.isStop d = true := by
  constructor
  · rintro ⟨q, v, turn⟩
    have turned := S.turned name p s
    rw [turn] at turned
    cases turned with
    | refused consult =>
      cases consult with
      | refused ask' => exact absurd (ask.symm.trans ask') (by simp)
      | stopped ask' draw' stop =>
        obtain ⟨-, rfl, rfl⟩ := by simpa using ask.symm.trans ask'
        obtain ⟨rfl, -⟩ := by simpa using draw.symm.trans draw'
        exact stop
    | reattempted _ _ reattempt => cases reattempt
  · intro stop
    refine ⟨(p.asked e).drawn b, S.said name p.state.attempt .backoffStopped u, ?_⟩
    have consult : (S.consult name p).perform s = (.ok (none, (p.asked e).drawn b),
        S.said name p.state.attempt .backoffStopped u) := by
      obtain ⟨f, keep, -⟩ | said := S.say_cases name p.state.attempt .backoffStopped rfl u
      · exact absurd keep (kept f)
      · simp only [Setting.consult, Act.perform_bind, Act.perform_focus, ask, draw, stop, if_true,
          said]
        rfl
    rw [turn, Act.perform_bind_ok consult]
    rfl

end Setting

section

variable {σ ε α : Type} {S : Setting σ ε Pace α} {Held : σ → Prop} {name : String}
  {p q : Progress ε Pace} {s t : σ} {d : Delay}

/-- An answer reads like a stop exactly when the walk has stopped; otherwise it is underway. -/
theorem Regulated.drawn (h : Regulated S Held) {pace left : Pace} (underway : pace.Underway)
    (draw : S.nextDelay.perform (pace, s) = (.ok d, left, t)) :
    (Backoff.isStop d = true ↔ left.stopped = true) ∧
      (Backoff.isStop d = false → left.Underway) := by
  cases underway with
  | @limited b run regular going =>
    obtain ⟨draws, given, rfl⟩ := h.nextDelay b run s _ _ t draw
    have stops := Backoff.next_stops (fun _ => regular.calculated) given.symm
    refine ⟨stops, fun go => .limited regular ?_⟩
    rw [← Bool.not_eq_true, ← stops, go]
    simp

theorem Regulated.opened (h : Regulated S Held) {pace : Pace} (hs : Held s)
    (opened : S.openBackoff.perform s = (.ok pace, t)) : pace.Underway := by
  obtain ⟨b, rfl, regular⟩ := h.openBackoff s pace t hs opened
  exact .limited regular rfl

theorem Regulated.said (h : Regulated S Held) (name : String) (attempt : Attempt) (phase : Phase)
    (hs : Held s) : Held (S.said name attempt phase s) := by
  unfold Setting.said
  cases phase.record name attempt with
  | ok r => exact h.emit r s hs
  | error f => exact hs

theorem Regulated.turned (h : Regulated S Held) (underway : p.backoff.Underway)
    (turn : S.Turned name p s (.ok (.again q), t)) : q.backoff.Underway := by
  cases turn with
  | reattempted consult _ reattempt =>
    cases consult with
    | granted _ draw go =>
      cases reattempt with
      | failed => exact (h.drawn underway draw).2 go

theorem Regulated.atHead (h : Regulated S Held) (hs : Held s) {k : Nat}
    (head : S.AtHead name s k p t) : p.backoff.Underway := by
  induction head with
  | @first f e b t u v _ invoke _ _ rule pace =>
    have invoked : Held t := by
      have held := h.invoke _ (h.said name 1 .starting hs)
      rwa [invoke] at held
    have ruled : Held u := by
      have held := h.openPolicy _ (h.said name 1 (.failed f) invoked)
      rwa [rule] at held
    exact h.opened ruled pace
  | @again k p q t u head turn ih =>
    have turned := S.turned name p t
    rw [turn] at turned
    exact h.turned ih turned

end

/-- **No delay is taken for a stop.** Whatever calls a walk through a regular backoff had, one
that returns gives the answer of a stop exactly when the walk has stopped then. And a call that
goes through such a walk has not stopped it whenever its loop begins a turn; if the policy
approves then, the loop is left for what the backoff answers exactly when that stopped the
walk; unless the logger fails with the record of it. -/
theorem stop_unmistakable :
    (∀ b : Backoff, b.Regular → ∀ (asked : List Draws) (draws : Draws) (d : Delay),
      (b.next (b.after .start asked) draws).delay = .ok d →
        (Backoff.isStop d = true ↔ (b.next (b.after .start asked) draws).run.stopped = true)) ∧
    ∀ {σ ε α : Type} (S : Setting σ ε Pace α) (Held : σ → Prop), Regulated S Held →
      ∀ (name : String) (s : σ), Held s → ∀ k p t, S.AtHead name s k p t →
        p.backoff.stopped = false ∧ ∀ e u d walk v,
          (S.shouldRetry p.last).perform (p.state.execution, t) = (.ok true, e, u) →
          S.nextDelay.perform (p.backoff, u) = (.ok d, walk, v) →
            (Backoff.isStop d = true ↔ walk.stopped = true) ∧
            ((∀ f, ¬ S.Unkept name p.state.attempt .backoffStopped v f) →
              ((∃ q w, (S.turn name p).perform t = (.ok (.refused q), w)) ↔
                walk.stopped = true)) := by
  refine ⟨fun b regular asked draws d h => Backoff.next_stops (fun _ => regular.calculated) h,
    fun S Held h name s hs k p t head => ?_⟩
  have underway := h.atHead hs head
  refine ⟨underway.going, fun e u d walk v ask draw => ?_⟩
  have stops := (h.drawn underway draw).1
  exact ⟨stops, fun kept => (Setting.turn_refused_iff ask draw kept).trans stops⟩

namespace Simulation

/-- The template of a call holds a regular backoff. -/
def Manner.Regular (m : Manner) (s : Stage) : Prop :=
  ∃ b : Backoff, (m.source.template s.2).backoff = .limited b ∧ b.Regular

/-- A simulated call opens the backoff of its template, if its first invocation leaves a regular
one there. -/
theorem Manner.regulated_setting (m : Manner) {invoke : Act Stage Datum}
    (h : ∀ s, m.Regular s → m.Regular (invoke.perform s).2) :
    Regulated (m.setting invoke) m.Regular where
  emit := fun r s hs => by
    obtain ⟨b, held, regular⟩ := hs
    refine ⟨b, Eq.trans ?_ held, regular⟩
    exact congrArg _ (World.template_of_same m.source (s.2.keep_template r))
  invoke := h
  openPolicy := fun _ hs => hs
  openBackoff := by
    rintro s p t ⟨b, held, regular⟩ opened
    obtain ⟨hp, -⟩ := Prod.mk.inj opened
    exact ⟨b, (Except.ok.inj hp).symm.trans (congrArg Pacing.start held), regular⟩
  nextDelay := by
    intro b run s r p t drawn
    obtain ⟨rfl, hs⟩ := Prod.mk.inj drawn
    obtain ⟨rfl, -⟩ := Prod.mk.inj hs
    exact ⟨s.2.draws, rfl, rfl⟩

/-- A count that is not used up permits one more attempt of a simulated call. -/
theorem Manner.approved_setting (m : Manner) (invoke : Act Stage Datum) {f : Failure}
    {e : CountPolicy.Execution} (s : Stage)
    (more : (Number.whole (e.attempts + 1)).lt e.policy.maxAttempts = true) :
    ∃ t, ((m.setting invoke).shouldRetry f).perform (.count e, s) =
      (.ok true, .count { e with attempts := e.attempts + 1 }, t) ∧ t.2.refuse = s.2.refuse :=
  ⟨_, Prod.ext (congrArg Except.ok more) rfl, World.keepAll_refuse _ s.2⟩

theorem Manner.drawn_setting (m : Manner) (invoke : Act Stage Datum) {b : Backoff}
    {run : Backoff.Run} {s : Stage} {d : Delay} (given : (b.next run s.2.draws).delay = .ok d) :
    ∃ t, (m.setting invoke).nextDelay.perform (.limited b run, s) =
      (.ok d, .limited b (b.next run s.2.draws).run, t) ∧ t.2.refuse = s.2.refuse :=
  ⟨_, Prod.ext given rfl, World.keepAll_refuse _ _⟩

/-- A fixed backoff of one unit, for so many delays. -/
def unit (count : Number) : Backoff where
  calculate _ draws := (.ok (some 1), draws)
  maxAttempts := some count
  maxElapsed := none
  text := s!"FixedBackOff(interval={(1 : Number).text}, {Backoff.limitsText (some count) none})"

/-- A template with such a backoff, that nobody listens to. -/
def hasty (count : Number) : Source := .own ⟨.count ⟨3⟩, .limited (unit count), .leaf (.silent 1)⟩

theorem regulated_inOutage (source : Source) :
    Regulated source.inOutage (outage source).Regular :=
  Manner.regulated_setting _ fun s h => by
    rw [show (outage source).invoke broken = source.inOutage.invoke from rfl, perform_inOutage]
    exact h

/-- A walk for one unit gives it and stops then. A call that may have no unit is left at once. -/
theorem stop_unmistakable_hasty :
    ((unit 1).Regular ∧
      ((unit 1).next .start .zero).delay = .ok (some 1) ∧
      ((unit 1).next .start .zero).run.stopped = false ∧
      ((unit 1).next ((unit 1).after .start [.zero]) .zero).delay = .ok (some Backoff.stop) ∧
      ((unit 1).next ((unit 1).after .start [.zero]) .zero).run.stopped = true) ∧
    (Regulated (hasty 0).inOutage (outage (hasty 0)).Regular ∧
      (outage (hasty 0)).Regular ([], .blank)) ∧
    ∃ p t q u, (hasty 0).inOutage.AtHead "fetch" ([], .blank) 0 p t ∧
      p.backoff.stopped = false ∧
      ((hasty 0).inOutage.turn "fetch" p).perform t = (.ok (.refused q), u) := by
  have regular (n : Number) (h : (Limits.backoff 0 (some n) none).toOption = some ()) :
      (unit n).Regular := by
    have positive : (Limits.interval 1).toOption = some () := by decide +kernel
    have made : Backoff.fixed 1 (some n) none = .ok (unit n) := by
      unfold Backoff.fixed
      rw [Except.of_toOption positive, Except.of_toOption h]
      rfl
    exact .fixed made
  have one : (unit 1).Regular := regular 1 (by decide +kernel)
  have regulated := regulated_inOutage (hasty 0)
  have held : (outage (hasty 0)).Regular ([], .blank) :=
    ⟨_, rfl, regular 0 (by decide +kernel)⟩
  obtain ⟨walks, calls⟩ := stop_unmistakable
  have granted : ((unit 1).next .start .zero).delay = .ok (some 1) :=
    Except.of_toOption (by decide +kernel)
  have stopped : ((unit 1).next ((unit 1).after .start [.zero]) .zero).delay =
      .ok (some Backoff.stop) := Except.of_toOption (by decide +kernel)
  have refused (draws : Draws) : ((unit 0).next .start draws).delay = .ok (some Backoff.stop) := by
    have reached : (unit 0).countReached .start = true := by decide +kernel
    unfold Backoff.next
    rw [reached]
    rfl
  have different : ¬ Backoff.isStop (some 1) = true := by decide +kernel
  have goes := (walks (unit 1) one [] .zero _ granted).not.mp different
  rw [show (unit 1).after .start [] = .start from rfl, Bool.not_eq_true] at goes
  have stops := walks (unit 1) one [.zero] .zero _ stopped
  have head : (hasty 0).inOutage.AtHead "fetch" ([], .blank) 0 _ _ :=
    .first (f := .of .valueError "boom") rfl (perform_inOutage _ _) rfl rfl rfl rfl
  obtain ⟨going, left⟩ := calls (hasty 0).inOutage _ regulated "fetch" _ held 0 _ _ head
  obtain ⟨w, ask, asked⟩ := (outage (hasty 0)).approved_setting ((outage (hasty 0)).invoke broken)
    (f := .of .valueError "boom") (e := ⟨⟨3⟩, 0⟩) _ (by decide +kernel)
  obtain ⟨v, draw, drawn⟩ := (outage (hasty 0)).drawn_setting ((outage (hasty 0)).invoke broken)
    (refused _)
  obtain ⟨told, leaves⟩ := left _ _ _ _ _ ask draw
  have keeps (r : Record) : v.2.refuse r = none := congrFun (drawn.trans asked) r
  have leaves := leaves fun f ⟨r, _, unkept⟩ =>
    absurd ((World.accept_kept keeps r).symm.trans unkept) (by simp)
  obtain ⟨q, u, turn⟩ := leaves.mpr (told.mp Backoff.isStop_stop)
  exact ⟨⟨one, granted, goes, stopped, stops.mp Backoff.isStop_stop⟩, ⟨regulated, held⟩,
    _, _, q, u, head, going, turn⟩

end Simulation

end Retry
