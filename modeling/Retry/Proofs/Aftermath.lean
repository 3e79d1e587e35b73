import Retry.Proofs.Answers
import Retry.Proofs.Walks

/-!
# What a call that fails leaves behind

A walk is asked for a delay, or an execution about a failure, and the call itself fails: the
backoff cannot calculate, a sum is past the doubles, a failure cannot be put into words. Both
change their fields one by one, so what they are afterwards depends on how far they came.

**Walks.** With a limit on the time, the sum is taken once before anything changes; without
one, the delay is counted first (`Spills`). That is the only way in which a call that fails
changes a walk. The time of a walk is always a double, so a sum fails exactly where the delay
is no double.

**Executions.** A refusal is written down before it is final, so it is not final if the failure
that is refused cannot be put into words.

**Results.**
* `Backoff.ended`: what one call comes to (`Ended`), with no assumption on the backoff.
* `Backoff.ledger_after`: however often it was asked, a walk has counted the delays that it
  gave and those that it spilled, and added up those that it gave.
* `Backoff.failures_atomic`: a call that fails leaves the walk as it is, unless it spills.
* `SelectivePolicy.refusals_latch`: a refusal is final, unless its note cannot be written.
-/

namespace Retry

/-! ## Walks -/

namespace Backoff

/-- The next call counts a delay that it cannot give: nothing limits the time, and the delay
that is calculated is no double. -/
def spills (b : Backoff) (run : Run) (draws : Draws) : Bool :=
  !run.stopped && !b.countReached run && b.maxElapsed.isNone &&
    match (b.calculate run.attempts draws).1 with
    | .ok d => (d.bind Number.toDouble?).isNone
    | .error _ => false

def spilled (b : Backoff) : Run → List Draws → Nat
  | _, [] => 0
  | run, draws :: later => (b.spills run draws).toNat + spilled b (b.next run draws).run later

/-- What a call comes to, and whether it spills. -/
inductive Ended (run : Run) : Bool → Answer → Prop
  | stopped {draws : Draws} {notes : List Record} :
      Ended run false ⟨.ok (some stop), { run with stopped := true }, draws, notes⟩
  | given {d : Delay} {t : Binary64} {draws : Draws} (going : run.stopped = false)
      (added : d.addedTo run.elapsed "+=" = .ok (.double t)) :
      Ended run false ⟨.ok d, { run with attempts := run.attempts + 1, elapsed := .double t },
        draws, []⟩
  | failed {x : Failure} {draws : Draws} : Ended run false ⟨.error x, run, draws, []⟩
  | spilled {x : Failure} {draws : Draws} :
      Ended run true ⟨.error x, { run with attempts := run.attempts + 1 }, draws, []⟩

section

variable {b : Backoff} {run : Run} {draws draws' : Draws}

/-- A backoff that cannot calculate a delay fails, and nothing changes. -/
theorem next_of_error {x : Failure} (calculates : b.Calculates run)
    (calculated : b.calculate run.attempts draws = (.error x, draws')) :
    b.next run draws = ⟨.error x, run, draws', []⟩ := by
  simp [next, calculates.1, calculates.2, calculated]

end

section

variable (b : Backoff) {run : Run} {time : Binary64}

theorem ended (h : run.elapsed = .double time) (draws : Draws) :
    Ended run (b.spills run draws) (b.next run draws) := by
  cases latched : run.stopped with
  | true =>
    have same : run = { run with stopped := true } := by rw [← latched]
    rw [next_of_stopped b latched, show b.spills run draws = false by simp [spills, latched]]
    nth_rewrite 2 [same]
    exact .stopped
  | false =>
    cases reached : b.countReached run with
    | true =>
      rw [show b.spills run draws = false by simp [spills, reached],
        show b.next run draws = ⟨.ok (some stop), { run with stopped := true }, draws,
          [countNote run]⟩ by simp [next, latched, reached]]
      exact .stopped
    | false =>
      rcases calculated : b.calculate run.attempts draws with ⟨x | d, draws'⟩
      · rw [show b.spills run draws = false by simp [spills, calculated],
          next_of_error ⟨latched, reached⟩ calculated]
        exact .failed
      have counts (within : b.exceeds run d = .ok false) :
          b.next run draws = grant run d draws' := by
        simp [next, latched, reached, calculated, within]
      cases limited : b.maxElapsed with
      | none =>
        have decides : b.spills run draws = (d.bind Number.toDouble?).isNone := by
          simp [spills, latched, reached, limited, calculated]
        have sum := Delay.addedTo_double time "+=" d
        rw [← h] at sum
        rw [counts (by simp [exceeds, limited]), decides, grant]
        obtain ⟨none, x, sum⟩ | ⟨some, t, sum⟩ := sum
        · rw [none, sum]
          exact .spilled
        · rw [Option.isNone_eq_false_iff.mpr some, sum]
          exact .given latched sum
      | some limit =>
        -- the sum that is compared with the limit is the one that is kept
        have sum := Delay.addedTo_double time "+" d
        rw [← h] at sum
        rw [show b.spills run draws = false by simp [spills, limited]]
        obtain ⟨-, x, sum⟩ | ⟨-, t, sum⟩ := sum
        · rw [show b.next run draws = ⟨.error x, run, draws', []⟩ by
            simp [next, latched, reached, calculated, exceeds, limited, sum, Except.map]]
          exact .failed
        have compares : b.exceeds run d = .ok (limit.lt (.double t)) := by
          simp [exceeds, limited, sum, Except.map]
        cases above : limit.lt (.double t) with
        | true =>
          rcases noted : b.elapsedNote run with x | note
          · rw [show b.next run draws = ⟨.error x, run, draws', []⟩ by
              simp [next, latched, reached, calculated, compares, above, noted]]
            exact .failed
          · rw [show b.next run draws = ⟨.ok (some stop), { run with stopped := true }, draws',
              [note]⟩ by simp [next, latched, reached, calculated, compares, above, noted]]
            exact .stopped
        | false =>
          have kept := Delay.addedTo_ok sum "+="
          rw [counts (compares.trans (congrArg _ above)), grant, kept]
          exact .given latched kept

end

/-! ### Call after call -/

section

variable (b : Backoff)

theorem spilled_concat (run : Run) (asked : List Draws) (draws : Draws) :
    b.spilled run (asked ++ [draws]) =
      b.spilled run asked + (b.spills (b.after run asked) draws).toNat := by
  induction asked generalizing run with
  | nil => exact Nat.add_comm _ _
  | cons first later ih =>
    rw [List.cons_append, spilled, ih, spilled, Nat.add_assoc]
    rfl

/-- A walk has counted the delays that it gave and those that it spilled, and its time is that of
the delays that it gave. -/
theorem ledger_after (asked : List Draws) :
    (b.after .start asked).attempts = (b.given asked).length + b.spilled .start asked ∧
      total (b.given asked) = .ok (b.after .start asked).elapsed := by
  induction asked using List.reverseRecOn with
  | nil => exact ⟨rfl, rfl⟩
  | append_singleton asked draws ih =>
    obtain ⟨counted, summed⟩ := ih
    obtain ⟨x, hx⟩ := b.elapsed_double asked
    rw [given_concat, spilled_concat, after_concat, List.length_append]
    have ended := b.ended hx draws
    generalize b.spills _ draws = spills, b.next _ draws = a at ended
    cases ended with
    | stopped => simpa [Answer.given?] using ⟨counted, summed⟩
    | @given d t draws' going added =>
      have given : (Answer.given? ⟨.ok d, { b.after .start asked with
          attempts := (b.after .start asked).attempts + 1, elapsed := .double t }, draws', []⟩) =
          some d := by
        simp [Answer.given?, going, Except.toOption]
      rw [given]
      exact ⟨by simp [counted]; omega, (total_concat summed d).trans added⟩
    | failed => simpa [Answer.given?, Except.toOption] using ⟨counted, summed⟩
    | spilled => simpa [Answer.given?, Except.toOption, ← Nat.add_assoc] using ⟨counted, summed⟩

theorem next_of_spills {run : Run} {time : Binary64} {draws : Draws}
    (h : run.elapsed = .double time) (spills : b.spills run draws = true) :
    (∃ x, (b.next run draws).delay = .error x) ∧
      (b.next run draws).run = { run with attempts := run.attempts + 1 } := by
  have ended := b.ended h draws
  rw [spills] at ended
  generalize b.next run draws = a at ended
  cases ended
  exact ⟨⟨_, rfl⟩, rfl⟩

/-- A call that fails leaves a walk as it is. The only exception is a call that spills: it has
counted the delay that it did not give. -/
theorem failures_atomic (asked : List Draws) (draws : Draws) (x : Failure)
    (failed : (b.next (b.after .start asked) draws).delay = .error x) :
    (b.next (b.after .start asked) draws).run =
      if b.spills (b.after .start asked) draws then
        { b.after .start asked with attempts := (b.after .start asked).attempts + 1 }
      else b.after .start asked := by
  obtain ⟨time, h⟩ := b.elapsed_double asked
  have ended := b.ended h draws
  generalize b.spills _ draws = spills, b.next _ draws = a at ended failed
  cases ended with
  | stopped => exact absurd failed (by simp)
  | given => exact absurd failed (by simp)
  | failed => rfl
  | spilled => rfl

/-- The backoff of one and a half seconds and half seconds fails on its second call, and the walk
is as it was after the first. -/
theorem failures_atomic_uneven :
    (uneven.next (uneven.after .start [.zero]) ⟨[], 1⟩).delay =
        .error (.of .valueError "no delay") ∧
      (uneven.next (uneven.after .start [.zero]) ⟨[], 1⟩).run = uneven.after .start [.zero] ∧
      (uneven.after .start [.zero]).attempts = 1 := by
  have calculates : uneven.Calculates (uneven.after .start [.zero]) :=
    ⟨by decide +kernel, by decide +kernel⟩
  have calculated : uneven.calculate (uneven.after .start [.zero]).attempts ⟨[], 1⟩ =
      (.error (.of .valueError "no delay"), ⟨[], 1⟩) := rfl
  have failed := congrArg Answer.delay (next_of_error calculates calculated)
  have whole : uneven.spills (uneven.after .start [.zero]) ⟨[], 1⟩ = false := by decide +kernel
  have atomic := failures_atomic uneven [.zero] ⟨[], 1⟩ _ failed
  rw [whole] at atomic
  exact ⟨failed, atomic, by decide +kernel⟩

/-- A fixed interval past the doubles is accepted, and may be given once. The call that fails to
give it counts it, so the next one stops the walk, which gave nothing. -/
theorem oversized_counted :
    ∃ b, fixed (.whole (10 ^ 400)) (some 1) none = .ok b ∧
      (∃ x, (b.next .start .zero).delay = .error x) ∧
      (b.next .start .zero).run = { Run.start with attempts := 1 } ∧ Run.start.attempts = 0 ∧
      (b.after .start [.zero, .zero]).stopped = true ∧ b.given [.zero, .zero] = [] := by
  have interval : Limits.interval (.whole (10 ^ 400)) = .ok () :=
    Limits.atLeast_ok.mpr (by decide +kernel)
  have limits : Limits.backoff 0 (some 1) none = .ok () := Limits.backoff_ok.mpr
    ⟨Limits.atLeast_ok.mpr (by decide +kernel), Limits.atLeast_ok.mpr (by decide +kernel), rfl⟩
  unfold fixed
  rw [interval, limits]
  refine ⟨_, rfl, ?_⟩
  have spilled (b : Backoff) (h : b.spills .start .zero = true) :=
    next_of_spills b (show Run.start.elapsed = .double _ from rfl) h
  refine ⟨(spilled _ ?_).1, (spilled _ ?_).2, rfl, ?_, ?_⟩
  all_goals decide +kernel

end

end Backoff

/-! ## Executions -/

namespace SelectivePolicy

open Consultation

/-- Whatever an execution refuses a failure for, it is exhausted then. -/
theorem exhausted_of_refused {e : Execution} {f : Failure}
    (h : (e.shouldRetry f).answer = .ok false) : (e.shouldRetry f).next.exhausted = true := by
  revert h
  unfold Execution.shouldRetry
  cases exhausted : e.exhausted with
  | true => exact fun _ => exhausted
  | false =>
    simp only [Bool.false_eq_true, if_false]
    rcases e.policy.isRetryable f with x | _ | _
    · simp
    · cases f.text <;> simp
    · dsimp only
      split <;> simp

/-- An exhausted execution answers no to everything, and stays as it is. -/
theorem answers_of_exhausted {e : Execution} (h : e.exhausted = true) (later : List Failure) :
    answers Execution.shouldRetry e later = later.map fun _ => .ok false := by
  induction later with
  | nil => rfl
  | cons f later ih =>
    rw [answers, Execution.shouldRetry_of_exhausted h]
    exact congrArg (_ :: ·) ih

/-- An execution that is shown a failure its policy does not retry is exhausted from then on:
it refuses that failure and all later ones and counts none of these. The only exception is a
failure that cannot be put into words, shown to an execution that is not exhausted: the call
fails, and only the counter has moved. -/
theorem refusals_latch (e : Execution) (f : Failure)
    (refused : e.policy.isRetryable f = .ok false) :
    ((e.exhausted = true ∨ ∃ t, f.text = .ok t) →
      (e.shouldRetry f).answer = .ok false ∧ (e.shouldRetry f).next.exhausted = true ∧
        ∀ later, answers Execution.shouldRetry (e.shouldRetry f).next later =
            (later.map fun _ => .ok false) ∧
          after Execution.shouldRetry (e.shouldRetry f).next later = (e.shouldRetry f).next) ∧
      ∀ x, e.exhausted = false → f.text = .error x →
        (e.shouldRetry f).answer = .error x ∧
          (e.shouldRetry f).next = { e with attempts := e.attempts + 1 } := by
  constructor
  · intro final
    have answer : (e.shouldRetry f).answer = .ok false := by
      cases exhausted : e.exhausted with
      | true => rw [Execution.shouldRetry_of_exhausted exhausted]
      | false =>
        obtain ⟨t, worded⟩ := final.resolve_left (by simp [exhausted])
        simp [Execution.shouldRetry, exhausted, refused, worded]
    have exhausted := exhausted_of_refused answer
    exact ⟨answer, exhausted, fun later =>
      ⟨answers_of_exhausted exhausted later, after_of_exhausted exhausted later⟩⟩
  · intro x going unworded
    simp [Execution.shouldRetry, going, refused, unworded]

/-- A failure of a connection is ignored, so it ends the retries, and a failure that was retried
before it is refused after it. -/
theorem refusals_latch_cautious :
    let lost := Failure.of .connectionError "reset"
    let slow := Failure.of .timeoutError "slow"
    let e : Execution := ⟨cautious, 1, false⟩
    (e.policy.isRetryable lost = .ok false ∧ ∃ t, lost.text = .ok t) ∧
      (e.shouldRetry lost).next.exhausted = true ∧
      answers Execution.shouldRetry (e.shouldRetry lost).next [slow, lost] =
        [.ok false, .ok false] ∧
      (after Execution.shouldRetry (e.shouldRetry lost).next [slow, lost]).attempts = 2 := by
  intro lost slow e
  have refused : e.policy.isRetryable lost = .ok false := rfl
  obtain ⟨-, exhausted, later⟩ := (refusals_latch e lost refused).1 (.inr ⟨_, rfl⟩)
  obtain ⟨answers, same⟩ := later [slow, lost]
  refine ⟨⟨refused, _, rfl⟩, exhausted, answers, ?_⟩
  rw [same]
  rfl

/-- A failure of a kind that is not retried and cannot be put into words: the call that refuses
it fails, and the execution permits another attempt. -/
theorem unworded_not_latched :
    let p : SelectivePolicy := ⟨3, ["OSError"], [], none⟩
    let f := Failure.of ((Kind.below "BadStrError" [.exception]).worded
      (.failing (Kind.runtimeError.raising "bad str"))) "x"
    p.isRetryable f = .ok false ∧ (p.start.shouldRetry f).next.exhausted = false ∧
      ((p.start.shouldRetry f).next.shouldRetry (.of .osError "x")).answer.toOption = some true :=
  ⟨rfl, rfl, by decide +kernel⟩

end SelectivePolicy

end Retry
