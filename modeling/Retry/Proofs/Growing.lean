import Retry.Proofs.Durations

/-!
# Growth, and its cap

**Whole settings.** With whole numbers for settings and no jitter nothing is ever rounded: the
interval at an index is the initial one times a power of the multiplier, up to the largest
(`Growth.step`), however large the numbers get (`interval_whole`). A walk that nothing limits is
asked for one index after the other, and gives each interval that has a double near it
(`whole_answer`); one that has none cannot be added to its time.

**Any settings.** A delay is never past the largest interval. There are four ways to one: an
initial interval that does not grow, a product, a growth past the doubles, and each of them with
jitter. Two end in the smaller of a number and the largest interval; that one is not past it,
also where a NaN takes part, for the smaller of two numbers is the first one only if the second
is not below it (`interval_capped`, `delay_capped`).

Main statements: `growth_exact`, `delays_capped`.
-/

namespace Retry

theorem Number.IsZero.nonneg {a : Number} (h : a.IsZero) : a.Nonneg := by
  cases h with
  | truth => exact .truth
  | whole => exact .whole (Int.le_refl 0)
  | double h =>
    cases h
    exact .double .zero

theorem Except.of_toOption {ε α : Type} {x : Except ε α} {a : α} (h : x.toOption = some a) :
    x = .ok a := by
  cases x with
  | error e => exact absurd h (by simp [Except.toOption])
  | ok b => exact congrArg Except.ok (Option.some.inj h)

namespace Growth

/-! ## Whole settings -/

/-- The interval at an index, for whole settings. -/
def step (initial multiplier largest : Int) (index : Nat) : Int :=
  min (initial * multiplier ^ index) largest

section

variable {initial multiplier largest : Int}

theorem step_zero (most : initial ≤ largest) : step initial multiplier largest 0 = initial := by
  rw [step, Int.pow_zero, Int.mul_one]
  exact Int.min_eq_left most

variable (low : 0 ≤ initial) (grows : 1 ≤ multiplier)

include low grows

theorem step_le_succ (index : Nat) :
    step initial multiplier largest index ≤ step initial multiplier largest (index + 1) := by
  have power : 0 ≤ multiplier ^ index := Int.pow_nonneg (by omega)
  have product : 0 ≤ initial * multiplier ^ index := Int.mul_nonneg low power
  have longer : initial * multiplier ^ index ≤ initial * multiplier ^ (index + 1) := by
    calc initial * multiplier ^ index
        = initial * multiplier ^ index * 1 := (Int.mul_one _).symm
      _ ≤ initial * multiplier ^ index * multiplier := Int.mul_le_mul_of_nonneg_left grows product
      _ = initial * multiplier ^ (index + 1) := by rw [Int.pow_succ, Int.mul_assoc]
  unfold step
  omega

theorem step_mono {i j : Nat} (h : i ≤ j) :
    step initial multiplier largest i ≤ step initial multiplier largest j := by
  induction h with
  | refl => exact Int.le_refl _
  | step _ ih => exact Int.le_trans ih (step_le_succ low grows _)

theorem step_within (most : initial ≤ largest) (index : Nat) :
    initial ≤ step initial multiplier largest index ∧
      step initial multiplier largest index ≤ largest := by
  refine ⟨?_, Int.min_le_right _ _⟩
  calc initial = step initial multiplier largest 0 := (step_zero most).symm
    _ ≤ step initial multiplier largest index := step_mono low grows (Nat.zero_le index)

/-- From the first index that reaches the largest interval on, every one does. -/
theorem step_of_reached {i j : Nat} (h : i ≤ j)
    (reached : step initial multiplier largest i = largest) :
    step initial multiplier largest j = largest := by
  have before : largest ≤ step initial multiplier largest j := by
    calc largest = step initial multiplier largest i := reached.symm
      _ ≤ step initial multiplier largest j := step_mono low grows h
  exact Int.le_antisymm (Int.min_le_right _ _) before

end

/-- The settings of a growth by whole numbers. -/
def ofWhole (initial multiplier largest : Int) (jitter : Number) : Growth :=
  ⟨.whole initial, .whole multiplier, .whole largest, jitter⟩

section

variable {initial multiplier largest : Int} {jitter : Number}

theorem accepted_ofWhole (low : 0 ≤ initial) (grows : 1 ≤ multiplier) (most : initial ≤ largest)
    (still : jitter.IsZero) : (ofWhole initial multiplier largest jitter).Accepted where
  initial := (Number.lt_whole initial 0).trans (decide_eq_false (Int.not_lt.mpr low))
  multiplier := (Number.lt_whole multiplier 1).trans (decide_eq_false (Int.not_lt.mpr grows))
  largest := (Number.lt_whole largest initial).trans (decide_eq_false (Int.not_lt.mpr most))
  jitter := Number.nonneg_iff.mp still.nonneg

theorem min_whole (m n : Int) : (Number.whole m).min (.whole n) = .whole (min m n) := by
  rw [Number.min, Number.lt_whole]
  by_cases h : n < m
  · rw [decide_eq_true h, if_pos rfl, Int.min_eq_right (Int.le_of_lt h)]
  · rw [decide_eq_false h, if_neg (by simp), Int.min_eq_left (Int.not_lt.mp h)]

theorem interval_whole (low : 0 ≤ initial) (most : initial ≤ largest) (index : Nat) :
    (ofWhole initial multiplier largest jitter).interval index =
      .whole (step initial multiplier largest index) := by
  have positive : Number.lt 0 (.whole initial) = decide (0 < initial) := Number.lt_whole 0 initial
  have grown : (ofWhole initial multiplier largest jitter).grown? index =
      some (.whole (initial * Number.wholePow multiplier index)) := rfl
  unfold interval
  rw [grown, show (ofWhole initial multiplier largest jitter).initial = .whole initial from rfl,
    positive]
  by_cases h : 0 < initial
  · rw [decide_eq_true h, if_pos rfl, Option.getD_some, Number.wholePow_eq]
    exact min_whole _ _
  · -- An interval of nothing does not grow, but neither would the product.
    obtain rfl : initial = 0 := by omega
    rw [decide_eq_false h, if_neg (by simp), step, Int.zero_mul, Int.min_eq_left most]

theorem delay_of_still {g : Growth} (still : g.jitter.IsZero) (index : Int) (draws : Draws) :
    g.delay index draws = (.ok (g.interval index), draws) := by
  rw [delay, still.not_pos, if_neg (by simp)]

end

end Growth

namespace Backoff

open Growth (step)

/-- What an exponential backoff that was accepted is made of. -/
theorem exponential_ok {g : Growth} {count time : Option Number} {b : Backoff}
    (made : exponential g count time = .ok b) :
    g.Accepted ∧ b.maxAttempts = count ∧ b.maxElapsed = time ∧
      ∀ index draws, b.calculate index draws =
        ((g.delay index draws).1.map some, (g.delay index draws).2) := by
  obtain ⟨⟨⟩, accepted, made⟩ := Except.of_bind_ok made
  obtain ⟨⟨⟩, -, made⟩ := Except.of_bind_ok made
  obtain rfl := Except.ok.inj made
  exact ⟨Growth.check_ok.mp accepted, rfl, rfl, fun _ _ => rfl⟩

section

variable {b : Backoff} {run : Run} {draws : Draws}

/-- A walk that nothing limits counts every number that is calculated, and gives it if it has a
double near it. -/
theorem next_unlimited {v : Number} {x : Binary64} (count : b.maxAttempts = none)
    (time : b.maxElapsed = none) (going : run.stopped = false) (elapsed : run.elapsed = .double x)
    (calculated : (b.calculate run.attempts draws).1 = .ok (some v)) :
    (b.next run draws).delay =
        (if v.toDouble?.isSome then .ok (some v) else .error .tooLarge) ∧
      (b.next run draws).run.attempts = run.attempts + 1 ∧
      (b.next run draws).run.stopped = false := by
  rcases hc : b.calculate run.attempts draws with ⟨r, draws'⟩
  rw [hc] at calculated
  obtain rfl : r = .ok (some v) := calculated
  have granted : b.next run draws = grant run (some v) draws' := by
    simp [next, going, countReached, count, hc, exceeds, time]
  have sum : Delay.addedTo run.elapsed "+=" (some v) =
      Number.orTooLarge (v.toDouble?.map fun y => .double (x.add y)) := by
    rw [elapsed, Delay.addedTo, Number.double_add?]
  rw [granted, grant, sum]
  cases v.toDouble? with
  | none => exact ⟨rfl, rfl, going⟩
  | some y => exact ⟨rfl, rfl, going⟩

end

section

variable {b : Backoff} {initial multiplier largest : Int} {jitter : Number}
  {count time : Option Number}

theorem calculate_whole (low : 0 ≤ initial) (most : initial ≤ largest) (still : jitter.IsZero)
    (made : exponential (.ofWhole initial multiplier largest jitter) count time = .ok b)
    (index : Nat) (draws : Draws) :
    b.calculate index draws =
      (.ok (some (.whole (step initial multiplier largest index))), draws) := by
  obtain ⟨-, -, -, calculate⟩ := exponential_ok made
  rw [calculate, Growth.delay_of_still still, Growth.interval_whole low most]
  rfl

/-- A walk that nothing limits is asked for one index after the other. -/
theorem after_unlimited (low : 0 ≤ initial) (most : initial ≤ largest) (still : jitter.IsZero)
    (made : exponential (.ofWhole initial multiplier largest jitter) none none = .ok b)
    (asked : List Draws) :
    (b.after .start asked).attempts = asked.length ∧ (b.after .start asked).stopped = false := by
  obtain ⟨-, count, time, -⟩ := exponential_ok made
  induction asked using List.reverseRecOn with
  | nil => exact ⟨rfl, rfl⟩
  | append_singleton asked draws ih =>
    obtain ⟨counted, going⟩ := ih
    obtain ⟨x, elapsed⟩ := b.elapsed_double asked
    obtain ⟨-, attempts, stopped⟩ := next_unlimited count time going elapsed
      (congrArg Prod.fst (calculate_whole low most still made _ draws))
    rw [after_concat, List.length_append]
    exact ⟨attempts.trans (congrArg (· + 1) counted), stopped⟩

theorem whole_answer (low : 0 ≤ initial) (most : initial ≤ largest) (still : jitter.IsZero)
    (made : exponential (.ofWhole initial multiplier largest jitter) none none = .ok b)
    (asked : List Draws) (draws : Draws) :
    (b.next (b.after .start asked) draws).delay =
      if (Number.whole (step initial multiplier largest asked.length)).toDouble?.isSome then
        .ok (some (.whole (step initial multiplier largest asked.length)))
      else .error .tooLarge := by
  obtain ⟨-, count, time, -⟩ := exponential_ok made
  obtain ⟨counted, going⟩ := after_unlimited low most still made asked
  obtain ⟨x, elapsed⟩ := b.elapsed_double asked
  have calculated := congrArg Prod.fst
    (calculate_whole low most still made (b.after .start asked).attempts draws)
  rw [(next_unlimited count time going elapsed calculated).1, counted]

end

/-- **Growth by whole numbers is exact**: at every index it is the product, up to the largest
interval. So it starts at the initial interval, never falls, stays between the two, and is
constant once it reached the largest. A walk that nothing limits gives these delays one after
the other, as long as there is a double near them. -/
theorem growth_exact (initial multiplier largest : Int) (jitter : Number) (low : 0 ≤ initial)
    (grows : 1 ≤ multiplier) (most : initial ≤ largest) (still : jitter.IsZero) :
    (∃ b, exponential (.ofWhole initial multiplier largest jitter) none none = .ok b) ∧
    (∀ count time b, exponential (.ofWhole initial multiplier largest jitter) count time = .ok b →
      ∀ (index : Nat) draws, b.calculate index draws =
        (.ok (some (.whole (min (initial * multiplier ^ index) largest))), draws)) ∧
    (step initial multiplier largest 0 = initial ∧
      (∀ i j, i ≤ j → step initial multiplier largest i ≤ step initial multiplier largest j) ∧
      (∀ i, initial ≤ step initial multiplier largest i ∧
        step initial multiplier largest i ≤ largest) ∧
      ∀ i j, i ≤ j → step initial multiplier largest i = largest →
        step initial multiplier largest j = largest) ∧
    ∀ b, exponential (.ofWhole initial multiplier largest jitter) none none = .ok b →
      ∀ asked draws, (b.next (b.after .start asked) draws).delay =
        if (Number.whole (step initial multiplier largest asked.length)).toDouble?.isSome then
          .ok (some (.whole (step initial multiplier largest asked.length)))
        else .error .tooLarge := by
  obtain ⟨b, made, -⟩ := exponential_unlimited (Growth.accepted_ofWhole low grows most still)
  refine ⟨⟨b, made⟩, fun _ _ _ made => calculate_whole low most still made,
    ⟨Growth.step_zero most, fun i j h => Growth.step_mono low grows h,
      Growth.step_within low grows most, fun i j h => Growth.step_of_reached low grows h⟩,
    fun b made => whole_answer low most still made⟩

/-- One, three and nine units, and then ten for ever. -/
theorem growth_exact_tripling :
    (0 ≤ (1 : Int) ∧ 1 ≤ (3 : Int) ∧ (1 : Int) ≤ 10 ∧ Number.IsZero 0) ∧
    ∃ b, exponential (.ofWhole 1 3 10 0) none none = .ok b ∧
      (b.calculate 2 .zero).1 = .ok (some 9) ∧
      (b.next (b.after .start [.zero, .zero, .zero]) .zero).delay = .ok (some 10) := by
  obtain ⟨⟨b, made⟩, calculate, -, answer⟩ :=
    growth_exact 1 3 10 0 (by decide) (by decide) (by decide) .whole
  refine ⟨⟨by decide, by decide, by decide, .whole⟩, b, made, ?_, ?_⟩
  · exact congrArg Prod.fst (calculate none none b made 2 .zero)
  · have near : (Number.whole (min (1 * 3 ^ 3) 10)).toDouble?.isSome = true := by decide +kernel
    exact (answer b made [.zero, .zero, .zero] .zero).trans (if_pos near)

end Backoff

/-! ## The cap -/

namespace Growth

variable {g : Growth} {n : Int} {v : Number} {draws : Draws}

theorem Accepted.interval_capped (h : g.Accepted) (n : Int) :
    g.largest.lt (g.interval n) = false := by
  unfold Growth.interval
  cases Number.lt 0 g.initial with
  | false => exact h.largest
  | true => exact Number.not_lt_min _ _

/-- No delay is past the largest interval, whatever is drawn. -/
theorem Accepted.delay_capped (h : g.Accepted) (given : (g.delay n draws).1 = .ok v) :
    g.largest.lt v = false := by
  unfold Growth.delay at given
  cases jitters : Number.lt 0 g.jitter with
  | false =>
    rw [jitters] at given
    obtain rfl : g.interval n = v := Except.ok.inj given
    exact h.interval_capped n
  | true =>
    rw [jitters] at given
    obtain ⟨r, -, share, more, longer, -, -, -, rfl⟩ := lengthened_ok given
    exact Number.not_lt_min _ _

end Growth

namespace Backoff

/-- **No delay is past the largest interval**: none that an exponential backoff calculates, for
whatever index and with whatever random numbers, and none that a walk gives, wherever it stands,
but the answer that it stops. -/
theorem delays_capped (g : Growth) (count time : Option Number) (b : Backoff)
    (made : exponential g count time = .ok b) :
    (∀ (index : Int) (draws : Draws) (d : Delay), (b.calculate index draws).1 = .ok d →
      ∃ v, d = some v ∧ g.largest.lt v = false) ∧
    ∀ (run : Run) (draws : Draws) (d : Delay), (b.next run draws).delay = .ok d →
      isStop d = false → ∃ v, d = some v ∧ g.largest.lt v = false := by
  obtain ⟨accepted, -, -, calculate⟩ := exponential_ok made
  have calculated (index : Int) (draws : Draws) (d : Delay)
      (h : (b.calculate index draws).1 = .ok d) : ∃ v, d = some v ∧ g.largest.lt v = false := by
    rw [calculate] at h
    rcases given : (g.delay index draws).1 with x | v
    · simp [given, Except.map] at h
    · obtain rfl : some v = d := by simpa [given, Except.map] using h
      exact ⟨v, rfl, accepted.delay_capped given⟩
  refine ⟨calculated, fun run draws d h going => ?_⟩
  rcases next_delay h with rfl | h
  · rw [isStop_stop] at going
    exact absurd going (by simp)
  · exact calculated run.attempts draws d h

/-- A jitter of one and a draw of one would double the fifth interval, which has reached the
largest already. -/
theorem delays_capped_doubled :
    let g : Growth := ⟨1, 2, 10, 1⟩
    let draws : Draws := ⟨[some 1], 0⟩
    ∃ b, exponential g none none = .ok b ∧
      ((b.calculate 4 draws).1 = .ok (some 10) ∧ ∃ v, some 10 = some v ∧ g.largest.lt v = false) ∧
      ((b.next .start draws).delay = .ok (some 2) ∧ isStop (some 2) = false ∧
        ∃ v, some 2 = some v ∧ g.largest.lt v = false) := by
  intro g draws
  have accepted : g.Accepted :=
    ⟨by decide +kernel, by decide +kernel, by decide +kernel, by decide +kernel⟩
  obtain ⟨b, made, count, time, calculate⟩ := exponential_unlimited accepted
  obtain ⟨calculated, given⟩ := delays_capped g none none b made
  have delay (index : Int) (v : Number) (h : (g.delay index draws).1.toOption = some v) :
      (b.calculate index draws).1 = .ok (some v) := by
    rw [calculate, Except.of_toOption h]
    rfl
  have fifth := delay 4 10 (by decide +kernel)
  have first : (b.calculate Run.start.attempts draws).1 = .ok (some 2) :=
    delay 0 2 (by decide +kernel)
  have first := (next_unlimited count time rfl rfl first).1
  rw [if_pos (by decide +kernel)] at first
  have going : isStop (some 2) = false := by decide +kernel
  exact ⟨b, made, ⟨fifth, calculated 4 draws _ fifth⟩, first, going,
    given .start draws _ first going⟩

end Backoff

end Retry
