import Mathlib.Algebra.Order.Ring.Pow
import Retry.Proofs.Exponentials
import Retry.Proofs.Growing

/-!
# Growth past the doubles

An interval grows to its initial value times a power of the multiplier. Where that has no result,
because one of the numbers that it is made of has no double near it, the largest interval is taken
in its place, as if the growth had passed it. Here the exact growth is compared to the largest
interval, for every mix of whole numbers and doubles.

What is past the doubles is past the last power of two: a whole number that has no double
(`past_of_ofInt?`), and the exact power where the rounded one is an infinity (`past_of_doublePow?`).
So the power of the multiplier is, and the product has passed a largest interval that is no more
than that many initial ones.

Not all growth past the doubles has (`overflow_early`). The power may be past the doubles, but not
its product with an initial interval of far less than one; and there may be no double near the
initial interval or the index, though nothing has grown.

Hypotheses: the settings are finite, and `Growth.Spanned`. Main result: `overflow_capped`.
-/

namespace Retry

namespace Binary64

variable {x y : Binary64} {n : ℕ}

theorem representable_last : Representable (2 ^ 1023 * one) := by decide +kernel

theorem Finite.finite? (h : x.Finite) : x.finite? = some x := by
  cases h
  rfl

/-- What is no larger than some double does not round to an infinity. -/
theorem finite_ofRatio_of_le {s : Bool} {m k : ℕ} (hk : Representable (k * one)) (h : m ≤ k) :
    (ofRatio s m 1).Finite := by
  have units : roundUnits (m * one) 1 ≤ k * one :=
    roundUnits_le Nat.one_pos hk (le_of_le_of_eq (Nat.mul_le_mul_right one h) (Nat.mul_one _).symm)
  exact finite_ofUnits (representable_roundUnits (Nat.lt_of_le_of_lt units hk.1))

/-- A whole number with no double near it is past the last power of two. -/
theorem past_of_ofInt? {n : Int} (h : ofInt? n = none) : 2 ^ 1023 < n.natAbs := by
  by_contra within
  have finite : (ofRatio (decide (n < 0)) n.natAbs 1).Finite :=
    finite_ofRatio_of_le representable_last (not_lt.mp within)
  rw [ofInt?, finite.finite?] at h
  exact absurd h (by simp)

theorem exists_units (hx : x.Finite) (one_le : 1 ≤ x.value) :
    ∃ u h, x = finite false u h ∧ one ≤ u ∧ x.value = u / one := by
  have ho : (0 : ℚ) < one := Nat.cast_pos.mpr one_pos
  cases hx with
  | @intro s u h =>
    rw [value, le_div_iff₀ ho, one_mul] at one_le
    cases s with
    | true =>
      have negative : ((signedUnits true u : ℤ) : ℚ) ≤ 0 := by simp [signedUnits]
      linarith
    | false =>
      have units : signedUnits false u = u := rfl
      rw [units, Int.cast_natCast] at one_le
      refine ⟨u, h, rfl, by exact_mod_cast one_le, ?_⟩
      rw [value, units, Int.cast_natCast]

/-- Powers of a double, past the doubles, are past the last power of two. -/
theorem past_of_doublePow? (hx : x.Finite) (one_le : 1 ≤ x.value) (hy : ofInt? n = some y)
    (h : Number.doublePow? x y = none) : 2 ^ 1023 ≤ x.value ^ n := by
  by_contra within
  obtain ⟨u, hu, rfl, units, value⟩ := exists_units hx one_le
  have small : ((u : ℝ) / one) ^ n < 2 ^ 1023 := by
    rw [value, not_le] at within
    have := Rat.cast_lt (K := ℝ).mpr within
    rwa [Rat.cast_pow, Rat.cast_pow, Rat.cast_div, Rat.cast_natCast, Rat.cast_natCast,
      Rat.cast_ofNat] at this
  have finite := finite_pow hu units hy small
  unfold Number.doublePow? at h
  generalize (Binary64.finite false u hu).pow y = z at finite h
  cases finite
  exact absurd h (by simp)

/-- What is past one by a part of it doubles in as many steps. -/
theorem two_pow_le_pow {q : ℚ} {k e n : ℕ} (hk : 0 < k) (hq : 1 + 1 / k ≤ q) (h : k * e ≤ n) :
    2 ^ e ≤ q ^ n := by
  have part : (0 : ℚ) < 1 / k := one_div_pos.mpr (Nat.cast_pos.mpr hk)
  have one_le : 1 ≤ q := by linarith
  have twice : 2 ≤ q ^ k := by
    calc (2 : ℚ) = 1 + k * (1 / k) := by
          rw [mul_one_div_cancel (Nat.cast_pos.mpr hk).ne']
          norm_num
      _ ≤ (1 + 1 / k) ^ k := one_add_mul_le_pow (by linarith) k
      _ ≤ q ^ k := pow_le_pow_left₀ (by linarith) hq k
  calc (2 : ℚ) ^ e ≤ (q ^ k) ^ e := pow_le_pow_left₀ (by norm_num) twice e
    _ = q ^ (k * e) := (pow_mul q k e).symm
    _ ≤ q ^ n := pow_le_pow_right₀ one_le h

theorem past_of_index (hx : x.Finite) (past : 1 < x.value) (h : ofInt? n = none) :
    2 ^ 1023 ≤ x.value ^ n := by
  obtain ⟨u, hu, rfl, units, value⟩ := exists_units hx past.le
  have ho : (0 : ℚ) < one := Nat.cast_pos.mpr one_pos
  rw [value] at past ⊢
  have past : one < u := by
    rw [lt_div_iff₀ ho, one_mul] at past
    exact_mod_cast past
  have next : 1 + 1 / ((2 ^ 52 : ℕ) : ℝ) ≤ (u : ℝ) / one := by
    rw [Nat.cast_pow, Nat.cast_ofNat]
    exact Power.next_le_of_one_lt hu past
  have large := past_of_ofInt? h
  rw [Int.natAbs_natCast] at large
  have steps : 2 ^ 52 * 1023 ≤ n := by
    calc 2 ^ 52 * 1023 ≤ 2 ^ 52 * 2 ^ 10 := by decide
      _ = 2 ^ 62 := by decide
      _ ≤ 2 ^ 1023 := Nat.pow_le_pow_right (by decide) (by decide)
      _ ≤ n := large.le
  have positive : 0 < 2 ^ 52 := by decide
  generalize 2 ^ 52 = k at next steps positive
  refine two_pow_le_pow positive ((Rat.cast_le (K := ℝ)).mp ?_) steps
  push_cast
  exact next

end Binary64

namespace Number

open Binary64.Power (dyadic)

variable {a b : Number} {n : ℕ}

def value : Number → ℚ
  | .truth b => if b then 1 else 0
  | .whole n => n
  | .double x => x.value

theorem finite_zero : (0 : Number).Finite := .whole

theorem finite_one : (1 : Number).Finite := .whole

theorem value_zero : (0 : Number).value = 0 := Int.cast_zero

theorem value_one : (1 : Number).value = 1 := Int.cast_one

theorem Finite.position (h : a.Finite) :
    ∃ p : ℤ, a.position? = some (.finite p) ∧ a.value = p / Binary64.one := by
  have ho : (Binary64.one : ℚ) ≠ 0 := Nat.cast_ne_zero.mpr Binary64.one_pos.ne'
  cases h with
  | @truth b =>
    refine ⟨_, rfl, ?_⟩
    rw [Int.cast_mul, Int.cast_natCast, mul_div_cancel_right₀ _ ho]
    cases b <;> simp [value]
  | whole =>
    refine ⟨_, rfl, ?_⟩
    rw [Int.cast_mul, Int.cast_natCast, mul_div_cancel_right₀ _ ho]
    rfl
  | double h =>
    cases h
    exact ⟨_, rfl, rfl⟩

theorem Finite.lt_iff (ha : a.Finite) (hb : b.Finite) : a.lt b = true ↔ a.value < b.value := by
  obtain ⟨p, hp, value⟩ := ha.position
  obtain ⟨q, hq, value'⟩ := hb.position
  have ho : (0 : ℚ) < Binary64.one := Nat.cast_pos.mpr Binary64.one_pos
  unfold Number.lt
  rw [hp, hq, value, value', div_lt_div_iff_of_pos_right ho, Int.cast_lt]
  exact decide_eq_true_iff

theorem value_of_whole? {m : ℤ} (h : a.whole? = some m) : a.value = m := by
  cases a with
  | truth b =>
    obtain rfl := Option.some.inj h
    cases b <;> simp [value]
  | whole n =>
    obtain rfl := Option.some.inj h
    rfl
  | double x => exact absurd h (by simp [whole?])

/-- A step that has no result needed a double that there is none of. -/
theorem combine_none {onWhole : Int → Int → Int} {onDouble : Binary64 → Binary64 → Binary64}
    (h : combine onWhole onDouble a b = none) : a.toDouble? = none ∨ b.toDouble? = none := by
  cases ha : a.toDouble? with
  | none => exact .inl rfl
  | some x =>
    cases hb : b.toDouble? with
    | none => exact .inr rfl
    | some y =>
      unfold combine at h
      split at h <;> simp [ha, hb] at h

section

variable {m : ℤ} {e : ℕ} (hm : m.natAbs ≤ 2 ^ 53) (he : e ≤ 1074)

include hm he

theorem finite_dyadic : (double (dyadic m e)).Finite :=
  .double (Binary64.Power.dyadic_exact hm he).finite

theorem value_dyadic : (double (dyadic m e)).value = m / 2 ^ e := by
  have near := (Binary64.Power.dyadic_exact hm he).eq
  rw [Binary64.real] at near
  exact_mod_cast near

end

theorem past_of_pow? (ha : a.Finite) (one_le : 1 ≤ a.value)
    (index : 1 < a.value ∨ (Binary64.ofInt? n).isSome) (h : a.pow? n = none) :
    2 ^ 1023 ≤ a.value ^ n := by
  cases ha with
  | truth => simp [pow?, whole?] at h
  | whole => simp [pow?, whole?] at h
  | @double x hx =>
    cases hy : Binary64.ofInt? n with
    | none => exact Binary64.past_of_index hx (index.resolve_right (by simp [hy])) hy
    | some y =>
      refine Binary64.past_of_doublePow? hx one_le hy (Option.eq_none_iff_forall_ne_some.mpr ?_)
      simpa [pow?, whole?, toDouble?, hy] using h

/-- A power that has no double near it is past the doubles. -/
theorem past_of_toDouble? (one_le : 1 ≤ a.value) (h : a.pow? n = some b)
    (none : b.toDouble? = none) : 2 ^ 1023 ≤ a.value ^ n := by
  rcases pow?_cases h with ⟨m, hm, rfl⟩ | ⟨x, y, -, rfl⟩
  · have past := Binary64.past_of_ofInt? none
    rw [value_of_whole? hm] at one_le ⊢
    have base : ((m.natAbs : ℕ) : ℚ) = m := by
      have : (1 : ℤ) ≤ m := by exact_mod_cast one_le
      rw [Nat.cast_natAbs, Int.cast_abs, abs_of_nonneg (by exact_mod_cast (by omega : 0 ≤ m))]
    rw [wholePow_eq, Int.toNat_natCast, Int.natAbs_pow] at past
    generalize 1023 = e at past ⊢
    rw [← base]
    exact_mod_cast past.le
  · exact absurd none (by simp [toDouble?])

end Number

namespace Growth

variable {g : Growth} {n : ℕ}

/-- Settings that have a value: all but the jitter are finite. -/
structure Valued (g : Growth) : Prop where
  initial : g.initial.Finite
  multiplier : g.multiplier.Finite
  largest : g.largest.Finite

/-- Settings and an index of which the doubles hold enough: the initial interval, the index if it
counts, and 1023 doublings of the initial interval up to the largest. -/
structure Spanned (g : Growth) (n : ℕ) : Prop where
  initial : g.initial.toDouble?.isSome
  index : 1 < g.multiplier.value ∨ (Binary64.ofInt? n).isSome
  largest : g.largest.value ≤ g.initial.value * 2 ^ 1023

theorem Spanned.past (h : g.Spanned n) (finite : g.multiplier.Finite)
    (one_le : 1 ≤ g.multiplier.value) (overflow : g.grown? n = none) :
    2 ^ 1023 ≤ g.multiplier.value ^ n := by
  cases hp : g.multiplier.pow? n with
  | none => exact Number.past_of_pow? finite one_le h.index hp
  | some p =>
    have product : g.initial.mul? p = none := by simpa [grown?, hp] using overflow
    have none := (Number.combine_none product).resolve_left (fun none => by
      have initial := h.initial
      rw [none] at initial
      exact absurd initial (by simp))
    exact Number.past_of_toDouble? one_le hp none

/-- In the place of growth that has no result, the largest interval is taken. -/
theorem interval_of_overflow (positive : Number.lt 0 g.initial = true)
    (overflow : g.grown? n = none) : g.interval n = g.largest := by
  have capped : Number.min g.largest g.largest = g.largest :=
    (Number.min_cases _ _).elim id And.left
  rw [interval, positive, if_pos rfl, overflow, Option.getD_none, capped]

end Growth

namespace Backoff

open Binary64.Power (dyadic)
open Number (finite_dyadic value_dyadic)

theorem calculate_of_overflow {g : Growth} {count time : Option Number} {b : Backoff} {n : ℕ}
    (made : exponential g count time = .ok b) (positive : Number.lt 0 g.initial = true)
    (still : g.jitter.IsZero) (overflow : g.grown? n = none) (draws : Draws) :
    b.calculate n draws = (.ok (some g.largest), draws) := by
  obtain ⟨-, -, -, calculate⟩ := exponential_ok made
  rw [calculate, Growth.delay_of_still still, Growth.interval_of_overflow positive overflow]
  rfl

/-- **Growth past the doubles is growth past the largest interval**: where there is no double for
it, the largest interval is given, and the exact growth is at least that. -/
theorem overflow_capped (g : Growth) (count time : Option Number) (b : Backoff) (n : ℕ)
    (made : exponential g count time = .ok b) (valued : g.Valued)
    (positive : Number.lt 0 g.initial = true) (still : g.jitter.IsZero)
    (overflow : g.grown? n = none) (spanned : g.Spanned n) :
    (∀ draws, b.calculate n draws = (.ok (some g.largest), draws)) ∧
      g.largest.value ≤ g.initial.value * g.multiplier.value ^ n := by
  refine ⟨calculate_of_overflow made positive still overflow, ?_⟩
  obtain ⟨accepted, -⟩ := exponential_ok made
  have initial : 0 ≤ g.initial.value := by
    have := (Number.finite_zero.lt_iff valued.initial).mp positive
    rw [Number.value_zero] at this
    exact this.le
  have one_le : 1 ≤ g.multiplier.value := by
    have := accepted.multiplier
    rw [← Bool.not_eq_true, valued.multiplier.lt_iff Number.finite_one, not_lt,
      Number.value_one] at this
    exact this
  have past := spanned.past valued.multiplier one_le overflow
  calc g.largest.value ≤ g.initial.value * 2 ^ 1023 := spanned.largest
    _ ≤ g.initial.value * g.multiplier.value ^ n := mul_le_mul_of_nonneg_left past initial

/-- From one second, by two, up to thirty: at the index 1024 there is no double for the growth,
which is far past thirty. -/
theorem overflow_capped_doubling :
    let g : Growth := ⟨.double (dyadic 1 0), .double (dyadic 2 0), .double (dyadic 30 0), 0⟩
    (∃ b, exponential g none none = .ok b ∧
        b.calculate 1024 .zero = (.ok (some g.largest), .zero)) ∧
      (g.Valued ∧ Number.lt 0 g.initial = true ∧ g.jitter.IsZero ∧ g.grown? 1024 = none ∧
        g.Spanned 1024) ∧
      g.largest.value ≤ g.initial.value * g.multiplier.value ^ 1024 := by
  intro g
  have accepted : g.Accepted :=
    ⟨by decide +kernel, by decide +kernel, by decide +kernel, by decide +kernel⟩
  obtain ⟨b, made, -⟩ := exponential_unlimited accepted
  have valued : g.Valued :=
    ⟨finite_dyadic (by decide) (by decide), finite_dyadic (by decide) (by decide),
      finite_dyadic (by decide) (by decide)⟩
  have positive : Number.lt 0 g.initial = true := by decide +kernel
  have overflow : g.grown? (1024 : ℕ) = none := by decide +kernel
  have spanned : g.Spanned 1024 := {
    initial := rfl
    index := .inr (by decide +kernel)
    largest := by
      have far : (2 : ℚ) ^ 5 ≤ 2 ^ 1023 := pow_le_pow_right₀ (by norm_num) (by norm_num)
      rw [value_dyadic (by decide) (by decide), value_dyadic (by decide) (by decide)]
      generalize (2 : ℚ) ^ 1023 = p at far ⊢
      norm_num at far ⊢
      linarith }
  obtain ⟨calculated, reached⟩ :=
    overflow_capped g none none b 1024 made valued positive .whole overflow spanned
  exact ⟨⟨b, made, calculated .zero⟩, ⟨valued, positive, .whole, overflow, spanned⟩, reached⟩

/-- The largest interval is given though the exact growth falls short of it. -/
structure CutShort (g : Growth) (n : ℕ) : Prop where
  valued : g.Valued
  positive : Number.lt 0 g.initial = true
  still : g.jitter.IsZero
  overflow : g.grown? n = none
  given : ∃ b, exponential g none none = .ok b ∧
    ∀ draws, b.calculate n draws = (.ok (some g.largest), draws)
  short : g.initial.value * g.multiplier.value ^ n < g.largest.value

theorem CutShort.of_accepted {g : Growth} {n : ℕ} (accepted : g.Accepted) (valued : g.Valued)
    (positive : Number.lt 0 g.initial = true) (still : g.jitter.IsZero)
    (overflow : g.grown? n = none)
    (short : g.initial.value * g.multiplier.value ^ n < g.largest.value) : CutShort g n := by
  obtain ⟨b, made, -⟩ := exponential_unlimited accepted
  exact ⟨valued, positive, still, overflow,
    ⟨b, made, calculate_of_overflow made positive still overflow⟩, short⟩

/-- Growth past the doubles need not be past the largest interval. A tiny interval, doubled 1024
times, is sixteen seconds: the power is past the doubles, the product is not. Nor is it where a
multiplier of one does nothing, or nothing has grown yet, and the number that there is no double
for is the index or the initial interval. -/
theorem overflow_early :
    CutShort ⟨.double (dyadic 1 1020), .double (dyadic 2 0), .double (dyadic 30 0), 0⟩ 1024 ∧
      CutShort ⟨.double (dyadic 1 0), .double (dyadic 1 0), .double (dyadic 30 0), 0⟩ (2 ^ 1024) ∧
      CutShort ⟨.whole (2 ^ 1024), .double (dyadic 3 1), .whole (2 ^ 1025), 0⟩ 0 := by
  have none : (2 : ℚ) ^ 0 = 1 := by norm_num
  refine
    ⟨.of_accepted ⟨by decide +kernel, by decide +kernel, by decide +kernel, by decide +kernel⟩
      ⟨finite_dyadic (by decide) (by decide), finite_dyadic (by decide) (by decide),
        finite_dyadic (by decide) (by decide)⟩ (by decide +kernel) .whole (by decide +kernel)
      ?tiny,
    .of_accepted ⟨by decide +kernel, by decide +kernel, by decide +kernel, by decide +kernel⟩
      ⟨finite_dyadic (by decide) (by decide), finite_dyadic (by decide) (by decide),
        finite_dyadic (by decide) (by decide)⟩ (by decide +kernel) .whole (by decide +kernel)
      ?level,
    .of_accepted ⟨by decide +kernel, by decide +kernel, by decide +kernel, by decide +kernel⟩
      ⟨.whole, finite_dyadic (by decide) (by decide), .whole⟩ (by decide +kernel) .whole
      (by decide +kernel) ?huge⟩
  case tiny =>
    have split : (2 : ℚ) ^ 1024 = 2 ^ 1020 * 2 ^ 4 := pow_add 2 1020 4
    have positive : (0 : ℚ) < 2 ^ 1020 := by positivity
    rw [value_dyadic (by decide) (by decide), value_dyadic (by decide) (by decide),
      value_dyadic (by decide) (by decide), none, Int.cast_one, Int.cast_ofNat,
      Int.cast_ofNat, div_one, div_one, split]
    generalize (2 : ℚ) ^ 1020 = p at positive ⊢
    field_simp
    norm_num
  case level =>
    rw [value_dyadic (by decide) (by decide), value_dyadic (by decide) (by decide), none,
      Int.cast_one, div_one, one_pow]
    norm_num
  case huge =>
    show ((2 ^ 1024 : ℤ) : ℚ) * _ < ((2 ^ 1025 : ℤ) : ℚ)
    rw [pow_zero, mul_one, Int.cast_lt]
    exact pow_lt_pow_right₀ (by decide) (by decide)

end Backoff

end Retry
