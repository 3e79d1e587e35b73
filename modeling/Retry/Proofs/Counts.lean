import Mathlib.Logic.Relation
import Retry.Simulation.Parts

/-!
# What executions and walks count

An execution of a policy for `n` attempts lets fewer than `n` failures through, whoever
shows them to it: the call, or a listener that asks it on the way (`Execution.Consults`).
A walk through a backoff with a limit gives no more delays than that.

The predicate of a policy and the calculation of a backoff may depend on more than they are
given. Nothing here looks at what they say, so what is shown holds whatever they say this
time (`Execution.Asked`, `Backoff.Drawn`).

Main statements: `Shown.asked`, `Shown.consults` (an execution never counts back),
`Shown.granted` (it lets a failure through only below its limit), `Drawn.going` (so does a
walk), `At.approved` (an execution that only saw failures it lets through).
-/

namespace Retry

/-! ## Walks through a backoff -/

namespace Backoff

theorem isStop_stop : isStop (some stop) = true := by decide +kernel

/-- A delay that a walk can give: it is calculated, does not stop the walk, can be written and
added to the time. -/
structure Gives (b : Backoff) (run : Run) (draws : Draws) (d : Delay) : Prop where
  calculated : (b.calculate run.attempts draws).1 = .ok d
  going : isStop d = false
  seconds : ∃ t, d.seconds = .ok t
  added : ∃ t, d.addedTo run.elapsed "+=" = .ok t

section

variable (b : Backoff) {run : Run}

theorem countReached_of_limit {m : Nat} (h : b.maxAttempts = some (.whole m)) (run : Run) :
    b.countReached run = decide (m ≤ run.attempts) := by
  simp only [countReached, h, Number.le_whole, Int.ofNat_le]

/-- A walk fails or stops, unless it is below its limit and counts one delay more. -/
theorem next_ok {draws : Draws} {d : Delay} (h : (b.next run draws).delay = .ok d)
    (hd : isStop d = false) :
    b.countReached run = false ∧ (b.next run draws).run.attempts = run.attempts + 1 := by
  have going : d ≠ some stop := by
    rintro rfl
    rw [isStop_stop] at hd
    exact absurd hd (by simp)
  revert h
  unfold next
  cases run.stopped with
  | true => exact fun h => absurd (Except.ok.inj h).symm going
  | false =>
    cases b.countReached run with
    | true => exact fun h => absurd (Except.ok.inj h).symm going
    | false =>
      simp only [Bool.false_eq_true, if_false]
      rcases b.calculate run.attempts draws with ⟨x | d', draws'⟩
      · simp
      dsimp only
      rcases b.exceeds run d' with x | _ | _
      · simp
      · simp only [grant]
        rcases d'.addedTo run.elapsed "+=" with x | t <;> simp
      · rcases b.elapsedNote run with x | note
        · simp
        · exact fun h => absurd (Except.ok.inj h).symm going

theorem next_elapsed (run : Run) (draws : Draws) :
    (b.next run draws).run.elapsed = run.elapsed ∨
      ∃ d, (b.calculate run.attempts draws).1 = .ok d ∧
        d.addedTo run.elapsed "+=" = .ok (b.next run draws).run.elapsed := by
  unfold next
  cases run.stopped with
  | true => exact .inl rfl
  | false =>
    cases b.countReached run with
    | true => exact .inl rfl
    | false =>
      simp only [Bool.false_eq_true, if_false]
      rcases b.calculate run.attempts draws with ⟨x | d, draws'⟩
      · exact .inl rfl
      dsimp only
      rcases b.exceeds run d with x | _ | _
      · exact .inl rfl
      · simp only [grant]
        rcases added : d.addedTo run.elapsed "+=" with x | t
        · exact .inl rfl
        · exact .inr ⟨d, rfl, added⟩
      · rcases b.elapsedNote run with x | note <;> exact .inl rfl

theorem next_of_countReached (h : b.countReached run = true) (draws : Draws) :
    (b.next run draws).delay = .ok (some stop) := by
  unfold next
  cases run.stopped <;> simp [h]

/-- A walk below its limit that has no limit on its time gives what it can give. -/
theorem next_of_gives {draws : Draws} {d : Delay} (h : b.Gives run draws d)
    (untimed : b.maxElapsed = none) (going : run.stopped = false)
    (below : b.countReached run = false) :
    (b.next run draws).delay = .ok d ∧ (b.next run draws).run.stopped = false := by
  obtain ⟨t, added⟩ := h.added
  rcases hc : b.calculate run.attempts draws with ⟨x | d', draws'⟩
  · have calculated := h.calculated
    rw [hc] at calculated
    exact absurd calculated (by simp)
  · have calculated := h.calculated
    rw [hc] at calculated
    obtain rfl : d' = d := Except.ok.inj calculated
    simp [next, going, below, hc, exceeds, untimed, grant, added]

end

/-- A walk was asked for a delay, whatever the backoff calculates this time. -/
def Drawn (b : Backoff) (run : Run) (r : Except Failure Delay) (run' : Run) : Prop :=
  ∃ calculate draws, let a := ({ b with calculate } : Backoff).next run draws
    r = a.delay ∧ run' = a.run

/-- A walk was asked for a delay, and there was one to give. -/
def Provided (b : Backoff) (run : Run) (r : Except Failure Delay) (run' : Run) : Prop :=
  ∃ calculate draws d, ({ b with calculate } : Backoff).Gives run draws d ∧
    let a := ({ b with calculate } : Backoff).next run draws
    r = a.delay ∧ run' = a.run

section

variable {b : Backoff} {run run' : Run} {limit : Option Nat}
  (hb : b.maxAttempts = limit.map fun m => .whole m)

include hb

theorem below_iff (run : Run) :
    b.countReached run = false ↔ ∀ m, limit = some m → run.attempts < m := by
  cases limit with
  | none => simp [countReached, hb]
  | some m =>
    rw [countReached_of_limit b hb, decide_eq_false_iff_not]
    simp

/-- A walk gives a delay only below its limit, and counts it. -/
theorem Drawn.going {d : Delay} (h : b.Drawn run (.ok d) run') (hd : isStop d = false) :
    run'.attempts = run.attempts + 1 ∧ ∀ m, limit = some m → run.attempts < m := by
  obtain ⟨calculate, draws, hr, rfl⟩ := h
  obtain ⟨below, counted⟩ := next_ok _ hr.symm hd
  exact ⟨counted, (below_iff hb run).mp below⟩

/-- A walk without a limit on its time gives a delay below its limit. -/
theorem Provided.going {r : Except Failure Delay} (h : b.Provided run r run')
    (untimed : b.maxElapsed = none) (going : run.stopped = false)
    (below : ∀ m, limit = some m → run.attempts < m) :
    ∃ d, r = .ok d ∧ isStop d = false ∧ (∃ t, d.seconds = .ok t) ∧
      run'.attempts = run.attempts + 1 ∧ run'.stopped = false := by
  obtain ⟨calculate, draws, d, gives, rfl, rfl⟩ := h
  obtain ⟨hr, hs⟩ := next_of_gives _ gives untimed going ((below_iff hb run).mpr below)
  exact ⟨d, hr, gives.going, gives.seconds, (next_ok _ hr gives.going).2, hs⟩

theorem Provided.stops {r : Except Failure Delay} (h : b.Provided run r run') {m : Nat}
    (hm : limit = some m) (reached : m ≤ run.attempts) : r = .ok (some stop) := by
  subst hm
  obtain ⟨calculate, draws, d, -, rfl, -⟩ := h
  exact next_of_countReached { b with calculate }
    ((countReached_of_limit { b with calculate } hb run).trans (decide_eq_true reached)) draws

end

end Backoff

/-! ## Executions of a policy -/

section

variable {n : Nat}

theorem CountPolicy.Execution.answer_eq {e : CountPolicy.Execution}
    (h : e.policy.maxAttempts = .whole n) (f : Failure) :
    (e.shouldRetry f).answer = .ok (decide (e.attempts + 1 < n)) := by
  have below : Number.lt (.whole ((e.attempts + 1 : Nat) : Int)) (.whole (n : Int)) =
      decide (e.attempts + 1 < n) := by
    rw [Number.lt_whole, decide_eq_decide, Int.ofNat_lt]
  rw [← below, ← h]
  rfl

namespace SelectivePolicy.Execution

variable {e : SelectivePolicy.Execution} {f : Failure}

/-- An execution that lets failures through is exhausted by its limit only. -/
theorem shouldRetry_of_retryable (hn : e.policy.maxAttempts = .whole n)
    (hx : e.exhausted = false) (hr : e.policy.isRetryable f = .ok true) :
    e.shouldRetry f =
      { answer := .ok (decide (e.attempts + 1 < n))
        next := { e with attempts := e.attempts + 1, exhausted := decide (n ≤ e.attempts + 1) }
        notes := [] } := by
  have reached : e.policy.maxAttempts.le (.whole ((e.attempts + 1 : Nat) : Int)) =
      decide (n ≤ e.attempts + 1) := by
    rw [hn, Number.le_whole, decide_eq_decide, Int.ofNat_le]
  unfold shouldRetry
  simp only [hx, Bool.false_eq_true, if_false, hr, reached]
  by_cases hlt : e.attempts + 1 < n
  · simp [hlt, Nat.not_le.mpr hlt]
  · simp [hlt, Nat.not_lt.mp hlt]

theorem shouldRetry_counts (e : SelectivePolicy.Execution) (f : Failure) :
    (e.shouldRetry f).next.policy = e.policy ∧ e.attempts ≤ (e.shouldRetry f).next.attempts := by
  unfold shouldRetry
  cases e.exhausted with
  | true => exact ⟨rfl, Nat.le_refl _⟩
  | false =>
    simp only [Bool.false_eq_true, if_false]
    split
    · exact ⟨rfl, Nat.le_succ _⟩
    · split <;> exact ⟨rfl, Nat.le_succ _⟩
    · split <;> exact ⟨rfl, Nat.le_succ _⟩

/-- What is let through was retryable, and met an execution that was not exhausted. -/
theorem retryable_of_answer (h : (e.shouldRetry f).answer = .ok true) :
    e.exhausted = false ∧ e.policy.isRetryable f = .ok true := by
  revert h
  unfold shouldRetry
  cases e.exhausted with
  | true => simp
  | false =>
    simp only [Bool.false_eq_true, if_false]
    rcases e.policy.isRetryable f with x | _ | _
    · simp
    · rcases f.text with x | t <;> simp
    · simp

end SelectivePolicy.Execution

end

namespace Simulation

def Policy.Permits (n : Nat) : Policy → Prop
  | .count p => p.maxAttempts = .whole n
  | .selective p => p.maxAttempts = .whole n
  | .scripted _ => False

namespace Execution

/-- An execution whose predicate, if it has one, says this. -/
def heeding (accepts : Failure → Except Failure Bool) : Execution → Execution
  | .selective e => .selective { e with
      policy := { e.policy with predicate := e.policy.predicate.map fun _ => accepts } }
  | e => e

/-- An execution was asked about a failure, whatever a predicate says this time. -/
def Asked (e : Execution) (f : Failure) (r : Except Failure Bool) (e' : Execution) : Prop :=
  ∃ accepts, r = ((e.heeding accepts).shouldRetry f).answer ∧
    e' = ((e.heeding accepts).shouldRetry f).next

/-- What becomes of an execution that is asked any number of times. -/
def Consults : Execution → Execution → Prop :=
  Relation.ReflTransGen fun e e' => ∃ f r, e.Asked f r e'

/-- An execution for `n` attempts that was shown `k` failures or more. -/
def Shown (n k : Nat) : Execution → Prop
  | .count e => e.policy.maxAttempts = .whole n ∧ k ≤ e.attempts
  | .selective e => e.policy.maxAttempts = .whole n ∧ k ≤ e.attempts
  | .scripted _ _ => False

variable {n k : Nat} {e e' : Execution} {f : Failure} {r : Except Failure Bool}

theorem shown_start {p : Policy} (h : p.Permits n) : p.start.Shown n 0 := by
  cases p with
  | count p => exact ⟨h, Nat.zero_le _⟩
  | selective p => exact ⟨h, Nat.zero_le _⟩
  | scripted answers => exact h

theorem Shown.heeding (h : e.Shown n k) (accepts : Failure → Except Failure Bool) :
    (e.heeding accepts).Shown n k := by
  cases e with
  | count e => exact h
  | selective e => exact h
  | scripted answers calls => exact h

theorem Shown.next (h : e.Shown n k) (f : Failure) : (e.shouldRetry f).next.Shown n k := by
  cases e with
  | count e => exact ⟨h.1, Nat.le_succ_of_le h.2⟩
  | selective e =>
    obtain ⟨policy, counts⟩ := e.shouldRetry_counts f
    exact ⟨(congrArg SelectivePolicy.maxAttempts policy).trans h.1, Nat.le_trans h.2 counts⟩
  | scripted answers calls => exact h.elim

/-- An execution lets a failure through only below its limit, and counts it. -/
theorem Shown.next_of_answer (h : e.Shown n k) (ha : (e.shouldRetry f).answer = .ok true) :
    k + 1 < n ∧ (e.shouldRetry f).next.Shown n (k + 1) := by
  cases e with
  | count e =>
    obtain ⟨hn, hk⟩ := h
    have hlt : e.attempts + 1 < n := by
      simpa using (CountPolicy.Execution.answer_eq hn f).symm.trans ha
    exact ⟨by omega, hn, Nat.succ_le_succ hk⟩
  | selective e =>
    obtain ⟨hn, hk⟩ := h
    obtain ⟨hx, hr⟩ := SelectivePolicy.Execution.retryable_of_answer ha
    have hc := SelectivePolicy.Execution.shouldRetry_of_retryable hn hx hr
    have hlt : e.attempts + 1 < n := by
      simpa [hc] using (show (e.shouldRetry f).answer = .ok true from ha)
    refine ⟨by omega, ?_⟩
    show Shown n (k + 1) (.selective (e.shouldRetry f).next)
    rw [hc]
    exact ⟨hn, Nat.succ_le_succ hk⟩
  | scripted answers calls => exact h.elim

theorem Shown.asked (h : e.Shown n k) (ha : e.Asked f r e') : e'.Shown n k := by
  obtain ⟨accepts, -, rfl⟩ := ha
  exact (h.heeding accepts).next f

theorem Shown.granted (h : e.Shown n k) (ha : e.Asked f (.ok true) e') :
    k + 1 < n ∧ e'.Shown n (k + 1) := by
  obtain ⟨accepts, hr, rfl⟩ := ha
  exact (h.heeding accepts).next_of_answer hr.symm

/-- However often an execution is asked, it does not count back. -/
theorem Shown.consults (h : e.Shown n k) (hc : e.Consults e') : e'.Shown n k := by
  induction hc with
  | refl => exact h
  | tail _ ha ih =>
    obtain ⟨f, r, ha⟩ := ha
    exact ih.asked ha

/-! ## Executions that let every failure through -/

/-- An execution of a policy that was shown `k` failures and let all of them through. -/
def At (p : Policy) (k : Nat) : Execution → Prop
  | .count e => p = .count e.policy ∧ e.attempts = k
  | .selective e => (∃ predicate, p = .selective { e.policy with predicate }) ∧
      e.attempts = k ∧ e.exhausted = false
  | .scripted _ _ => False

/-- The rules of an execution let a failure through. -/
def Deems (f : Failure) : Execution → Prop
  | .count _ => True
  | .selective e => e.policy.isRetryable f = .ok true
  | .scripted _ _ => False

/-- An execution was asked about a failure that its rules let through. -/
def Approved (e : Execution) (f : Failure) (r : Except Failure Bool) (e' : Execution) : Prop :=
  ∃ accepts, (e.heeding accepts).Deems f ∧ r = ((e.heeding accepts).shouldRetry f).answer ∧
    e' = ((e.heeding accepts).shouldRetry f).next

theorem at_start {p : Policy} (h : p.Permits n) : p.start.At p 0 := by
  cases p with
  | count p => exact ⟨rfl, rfl⟩
  | selective p => exact ⟨⟨p.predicate, rfl⟩, rfl, rfl⟩
  | scripted answers => exact h

theorem At.heeding {p : Policy} (h : e.At p k) (accepts : Failure → Except Failure Bool) :
    (e.heeding accepts).At p k := by
  cases e with
  | count e => exact h
  | selective e => exact h
  | scripted answers calls => exact h

/-- A failure that the rules let through is let through below the limit, and only there. -/
theorem At.approved {p : Policy} (h : e.At p k) (hp : p.Permits n) (ha : e.Approved f r e') :
    r = .ok (decide (k + 1 < n)) ∧ (k + 1 < n → e'.At p (k + 1)) := by
  obtain ⟨accepts, hf, rfl, rfl⟩ := ha
  replace h := h.heeding accepts
  generalize e.heeding accepts = e at h hf
  cases e with
  | count e =>
    obtain ⟨rfl, rfl⟩ := h
    exact ⟨CountPolicy.Execution.answer_eq hp f, fun _ => ⟨rfl, rfl⟩⟩
  | selective e =>
    obtain ⟨⟨predicate, rfl⟩, rfl, hx⟩ := h
    have hc := SelectivePolicy.Execution.shouldRetry_of_retryable hp hx hf
    refine ⟨congrArg Consultation.answer hc, fun hlt => ?_⟩
    show At _ _ (.selective (e.shouldRetry f).next)
    rw [hc]
    exact ⟨⟨predicate, rfl⟩, rfl, decide_eq_false (Nat.not_le.mpr hlt)⟩
  | scripted answers calls => exact h.elim

end Execution

end Simulation

end Retry
