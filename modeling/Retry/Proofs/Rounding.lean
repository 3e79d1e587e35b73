import Mathlib.Data.Nat.Cast.Order.Field
import Mathlib.Data.Real.Basic
import Mathlib.Tactic.Linarith
import Mathlib.Tactic.NormNum
import Mathlib.Tactic.Positivity
import Mathlib.Tactic.Ring
import Mathlib.Tactic.FieldSimp
import Retry.Proofs.Doubles

/-!
# How far roundings go

A finite double has a value, and an operation on doubles is one rounding of an exact one. At a
scale `M`, which lies well inside the range of the doubles (`Scale`), the rounding of a value that
is no larger is finite and misses it by no more than `M / 2 ^ 52` (`near_ofUnits`). That holds of
a value of any size below `M`, so it need not be known how small a value is.

`Near` is what one knows of a result: it is finite, and so close to a value. There is one lemma for
each operation; those on pairs say that the second part is of the size of an error.
-/

namespace Retry.Binary64

def value : Binary64 → ℚ
  | .finite s u _ => (signedUnits s u : ℚ) / one
  | _ => 0

noncomputable def real (x : Binary64) : ℝ := (x.value : ℝ)

theorem real_finite {s : Bool} {u : Nat} (h : Representable u) :
    (finite s u h).real = (signedUnits s u : ℝ) / one := by
  rw [real, value, Rat.cast_div, Rat.cast_intCast, Rat.cast_natCast]

theorem one_real_pos : (0 : ℝ) < one := Nat.cast_pos.mpr one_pos

theorem one_real : (one : ℝ) = 2 ^ 1074 := by
  simp only [one, Nat.cast_pow, Nat.cast_ofNat]

theorem limit_real : (limit : ℝ) = 2 ^ 2098 := by
  simp only [limit, Nat.cast_pow, Nat.cast_ofNat]

/-! ## Signs -/

theorem signedUnits_not (s : Bool) (u : Nat) : signedUnits (!s) u = -signedUnits s u := by
  cases s <;> simp [signedUnits]

theorem signedUnits_mul (s t : Bool) (u v : Nat) :
    signedUnits s u * signedUnits t v = signedUnits (s != t) (u * v) := by
  cases s <;> cases t <;> simp [signedUnits]

theorem signedUnits_mul_natCast (s : Bool) (u k : Nat) :
    signedUnits s (u * k) = signedUnits s u * k := by
  cases s <;> simp [signedUnits]

theorem abs_signedUnits (s : Bool) (u : Nat) : |((signedUnits s u : ℤ) : ℝ)| = u := by
  cases s <;> simp [signedUnits]

/-- Of two numbers with one sign, the distance does not depend on it. -/
theorem abs_signedUnits_sub (s : Bool) (u v : Nat) (c d : ℝ) :
    |((signedUnits s u : ℤ) : ℝ) / c - ((signedUnits s v : ℤ) : ℝ) / d| =
      |(u : ℝ) / c - v / d| := by
  cases s with
  | true =>
    simp only [signedUnits, if_true, Int.cast_neg, Int.cast_natCast, neg_div]
    rw [← neg_sub', abs_neg]
  | false => simp [signedUnits]

theorem signedUnits_natAbs (n : ℤ) : signedUnits (decide (n < 0)) n.natAbs = n := by
  unfold signedUnits
  by_cases negative : n < 0
  · rw [if_pos (decide_eq_true negative)]
    omega
  · rw [if_neg (by simpa using negative)]
    omega

theorem sign_signedUnits {s : Bool} {u : Nat} (nonzero : signedUnits s u ≠ 0) :
    s = decide (signedUnits s u < 0) := by
  unfold signedUnits at nonzero ⊢
  cases s with
  | true =>
    simp only [if_true] at nonzero ⊢
    exact (decide_eq_true (by omega)).symm
  | false =>
    exact (decide_eq_false (by simp)).symm

/-! ## One rounding -/

theorem roundHalfEven_near (num : Nat) {den : Nat} (hden : 0 < den) :
    |(roundHalfEven num den : ℝ) - num / den| ≤ 1 / 2 := by
  have hd : (0 : ℝ) < den := Nat.cast_pos.mpr hden
  have parts : (den : ℝ) * (num / den : Nat) + (num % den : Nat) = num := by
    exact_mod_cast Nat.div_add_mod num den
  have rest : ((num % den : Nat) : ℝ) < den := by exact_mod_cast Nat.mod_lt num hden
  have exact_ : (num : ℝ) / den = (num / den : Nat) + (num % den : Nat) / den := by
    field_simp
    linarith
  unfold roundHalfEven
  dsimp only
  split
  · rename_i h
    have low : 2 * ((num % den : Nat) : ℝ) ≤ den := by
      exact_mod_cast (show 2 * (num % den) ≤ den by omega)
    have part : ((num % den : Nat) : ℝ) / den ≤ 1 / 2 := by
      rw [div_le_div_iff₀ hd two_pos]
      linarith
    have nonneg : (0 : ℝ) ≤ ((num % den : Nat) : ℝ) / den := by positivity
    rw [exact_, abs_le]
    constructor <;> linarith
  · rename_i h
    have high : (den : ℝ) ≤ 2 * ((num % den : Nat) : ℝ) := by
      exact_mod_cast (show den ≤ 2 * (num % den) by omega)
    have part : 1 / 2 ≤ ((num % den : Nat) : ℝ) / den := by
      rw [div_le_div_iff₀ two_pos hd]
      linarith
    have less : ((num % den : Nat) : ℝ) / den ≤ 1 := (div_le_one hd).mpr rest.le
    rw [exact_, abs_le]
    push_cast
    constructor <;> linarith

/-- A rounding to doubles goes half a grid step at most, which is one part in `2 ^ 53` of the
value, or half a unit where the doubles are densest. -/
theorem roundUnits_near (num : Nat) {den : Nat} (hden : 0 < den) :
    |(roundUnits num den : ℝ) - num / den| ≤ (num / den : ℝ) / 2 ^ 53 + 1 / 2 := by
  have hd : (0 : ℝ) < den := Nat.cast_pos.mpr hden
  have quotient : ((num / den : Nat) : ℝ) ≤ num / den := Nat.cast_div_le
  have nonneg : (0 : ℝ) ≤ num / den := by positivity
  -- The grid is one unit, or at most one part in `2 ^ 52` of the units.
  have step : ((2 ^ gridExponent (num / den) : Nat) : ℝ) ≤ (num / den : ℝ) / 2 ^ 52 + 1 := by
    rcases Nat.lt_or_ge (num / den).log2 52 with small | large
    · have unit : gridExponent (num / den) = 0 := by unfold gridExponent; omega
      rw [unit]
      have : (0 : ℝ) ≤ (num / den : ℝ) / 2 ^ 52 := by positivity
      norm_num
      linarith
    · have units : num / den ≠ 0 := by
        intro h
        rw [h] at large
        exact absurd large (by decide)
      have bound : 2 ^ gridExponent (num / den) * 2 ^ 52 ≤ num / den := by
        rw [← Nat.pow_add]
        exact Nat.le_trans (Nat.pow_le_pow_right (by decide) (by unfold gridExponent; omega))
          (Nat.log2_self_le units)
      have bound : ((2 ^ gridExponent (num / den) : Nat) : ℝ) * 2 ^ 52 ≤ num / den :=
        le_trans (by exact_mod_cast bound) quotient
      have := (le_div_iff₀ (by positivity)).mpr bound
      linarith
  have hgrid : (0 : ℝ) < (2 ^ gridExponent (num / den) : Nat) :=
    Nat.cast_pos.mpr (Nat.two_pow_pos _)
  have near := roundHalfEven_near num
    (Nat.mul_pos hden (Nat.two_pow_pos (gridExponent (num / den))))
  unfold roundUnits
  dsimp only
  generalize 2 ^ gridExponent (num / den) = grid at step hgrid near ⊢
  push_cast at near ⊢
  calc |(roundHalfEven num (den * grid) : ℝ) * grid - num / den|
      = |((roundHalfEven num (den * grid) : ℝ) - num / (den * grid)) * grid| := by
        congr 1
        field_simp
    _ = |(roundHalfEven num (den * grid) : ℝ) - num / (den * grid)| * grid := by
        rw [abs_mul, abs_of_pos hgrid]
    _ ≤ 1 / 2 * ((num / den : ℝ) / 2 ^ 52 + 1) :=
        mul_le_mul near step hgrid.le (by norm_num)
    _ = (num / den : ℝ) / 2 ^ 53 + 1 / 2 := by ring

theorem roundUnits_mul {n den : Nat} (h : Representable n) (hden : 0 < den) :
    roundUnits (n * den) den = n := by
  obtain ⟨k, hk⟩ := Nat.dvd_of_mod_eq_zero h.2
  have grid : 0 < den * 2 ^ gridExponent n := Nat.mul_pos hden (Nat.two_pow_pos _)
  have steps : n * den = k * (den * 2 ^ gridExponent n) := by
    conv_lhs => rw [hk]
    ring
  simp only [roundUnits, Nat.mul_div_cancel n hden]
  rw [steps, roundHalfEven_mul k grid, Nat.mul_comm]
  exact hk.symm

theorem ofRatio_dyadic {m e : Nat} (hm : m ≤ 2 ^ 53) (he : e ≤ 1074) (s : Bool) :
    ∃ h : Representable (m * 2 ^ (1074 - e)), ofRatio s m (2 ^ e) = .finite s _ h := by
  have parts : one = 2 ^ (1074 - e) * 2 ^ e := by
    rw [Nat.pow_sub_mul_pow 2 he, one]
  have representable : Representable (m * 2 ^ (1074 - e)) := by
    refine ⟨?_, mul_grid_mod hm⟩
    have power : 2 ^ (1074 - e) ≤ one := by
      rw [parts]
      exact Nat.le_mul_of_pos_right _ (Nat.two_pow_pos e)
    calc m * 2 ^ (1074 - e) ≤ 2 ^ 53 * one := Nat.mul_le_mul hm power
      _ < limit := by decide +kernel
  have units : m * one = m * 2 ^ (1074 - e) * 2 ^ e := by rw [parts, Nat.mul_assoc]
  refine ⟨representable, ?_⟩
  have rounded := roundUnits_mul representable (Nat.two_pow_pos e)
  simp only [ofRatio, ofUnits, units, rounded, representable, dite_true]

/-- The largest double below `2 ^ 1024` that has few digits, in units. -/
def wide : Nat := 15 * 2 ^ 2094

theorem representable_wide : Representable wide := by decide +kernel

/-- A magnitude well inside the range of the doubles. -/
structure Scale (M : ℝ) : Prop where
  low : 2 ^ 52 ≤ M * one
  high : M * one ≤ wide

/-- Finite, and no further from a value than an error. -/
structure Near (x : Binary64) (v e : ℝ) : Prop where
  finite : x.Finite
  close : |x.real - v| ≤ e

section

variable {M : ℝ}

theorem Scale.of_le (low : 1 / 2 ^ 200 ≤ M) (high : M ≤ 2 ^ 200) : Scale M := by
  have pos : (0 : ℝ) < 2 ^ 1074 := by positivity
  refine ⟨?_, ?_⟩
  · rw [one_real]
    calc (2 : ℝ) ^ 52 ≤ 2 ^ 874 := pow_le_pow_right₀ (by norm_num) (by norm_num)
      _ = 1 / 2 ^ 200 * 2 ^ 1074 := by
        rw [one_div, inv_mul_eq_div, eq_div_iff (by positivity), ← pow_add]
      _ ≤ M * 2 ^ 1074 := mul_le_mul_of_nonneg_right low pos.le
  · rw [one_real]
    calc M * 2 ^ 1074 ≤ 2 ^ 200 * 2 ^ 1074 := mul_le_mul_of_nonneg_right high pos.le
      _ = 2 ^ 1274 := by rw [← pow_add]
      _ ≤ 2 ^ 2094 := pow_le_pow_right₀ (by norm_num) (by norm_num)
      _ ≤ 15 * 2 ^ 2094 := le_mul_of_one_le_left (by positivity) (by norm_num)
      _ = (wide : ℝ) := by simp only [wide, Nat.cast_mul, Nat.cast_pow, Nat.cast_ofNat]

theorem Scale.of_two_pow {c : ℝ} {e : ℕ} (one_le : 1 ≤ c) (high : c ≤ 15 * 2 ^ 11)
    (he : e ≤ 1009) : Scale (c * 2 ^ e) := by
  have ho := one_real_pos
  have power : (1 : ℝ) ≤ 2 ^ e := one_le_pow₀ (by norm_num)
  refine ⟨?_, ?_⟩
  · calc (2 : ℝ) ^ 52 ≤ 2 ^ 1074 := pow_le_pow_right₀ (by norm_num) (by norm_num)
      _ = one := one_real.symm
      _ ≤ c * 2 ^ e * one :=
        le_mul_of_one_le_left ho.le (one_le_mul_of_one_le_of_one_le one_le power)
  · calc c * 2 ^ e * one ≤ 15 * 2 ^ 11 * 2 ^ e * one :=
          mul_le_mul_of_nonneg_right (mul_le_mul_of_nonneg_right high (by linarith)) ho.le
      _ = 15 * 2 ^ (11 + e + 1074) := by
        rw [one_real, pow_add, pow_add]
        generalize (2 : ℝ) ^ 1074 = p
        ring
      _ ≤ 15 * 2 ^ 2094 :=
        mul_le_mul_of_nonneg_left (pow_le_pow_right₀ (by norm_num) (by omega)) (by norm_num)
      _ = (wide : ℝ) := by simp only [wide, Nat.cast_mul, Nat.cast_pow, Nat.cast_ofNat]

theorem Scale.nonneg (hM : Scale M) : 0 ≤ M := by
  have := one_real_pos
  by_contra h
  have := mul_neg_of_neg_of_pos (not_le.mp h) this
  have := hM.low
  have : (0 : ℝ) ≤ 2 ^ 52 := by positivity
  linarith

theorem near_ofUnits (hM : Scale M) {n : ℤ} {den : Nat} (hden : 0 < den) {s : Bool}
    (sign : n ≠ 0 → s = decide (n < 0)) (h : |(n : ℝ) / den / one| ≤ M) :
    (ofUnits s n.natAbs den).Near (n / den / one) (M / 2 ^ 52) := by
  have ho := one_real_pos
  have hd : (0 : ℝ) < den := Nat.cast_pos.mpr hden
  have size : ((n.natAbs : ℝ) / den) / one = |(n : ℝ) / den / one| := by
    rw [abs_div, abs_div, abs_of_pos hd, abs_of_pos ho, Nat.cast_natAbs, Int.cast_abs]
  have units : (n.natAbs : ℝ) / den ≤ M * one := by
    rw [← size] at h
    exact (div_le_iff₀ ho).mp h
  have within : roundUnits n.natAbs den ≤ wide := by
    refine roundUnits_le hden representable_wide ?_
    have := (div_le_iff₀ hd).mp (units.trans hM.high)
    exact_mod_cast this
  have representable := representable_roundUnits
    (Nat.lt_of_le_of_lt within representable_wide.1)
  have near := roundUnits_near n.natAbs hden
  have error : |(roundUnits n.natAbs den : ℝ) / one - (n.natAbs : ℝ) / den / one| ≤ M / 2 ^ 52 := by
    rw [← sub_div, abs_div, abs_of_pos ho, div_le_iff₀ ho]
    have := hM.low
    calc |(roundUnits n.natAbs den : ℝ) - n.natAbs / den|
        ≤ (n.natAbs / den : ℝ) / 2 ^ 53 + 1 / 2 := near
      _ ≤ M / 2 ^ 52 * one := by linarith
  obtain ⟨hu, rounded⟩ : ∃ hu, ofUnits s n.natAbs den = .finite s (roundUnits n.natAbs den) hu :=
    ⟨representable, by simp only [ofUnits, representable, dite_true]⟩
  -- A zero has no sign to lose, whatever that of the double is.
  have signed : signedUnits s n.natAbs = n := by
    by_cases zero : n = 0
    · rw [zero]
      cases s <;> rfl
    · rw [sign zero, signedUnits_natAbs]
  rw [div_div, ← abs_signedUnits_sub s, signed] at error
  rw [rounded, div_div]
  refine ⟨.intro, ?_⟩
  rw [real_finite]
  exact error

/-! ## The operations -/

variable {x y z : Binary64}

theorem Near.bound {v e : ℝ} (h : x.Near v e) : |x.real| ≤ |v| + e := by
  calc |x.real| = |v + (x.real - v)| := by ring_nf
    _ ≤ |v| + |x.real - v| := abs_add_le _ _
    _ ≤ |v| + e := by linarith [h.close]

theorem Near.eq {v : ℝ} (h : x.Near v 0) : x.real = v :=
  sub_eq_zero.mp (abs_nonpos_iff.mp h.close)

theorem Near.mono {v d e : ℝ} (h : x.Near v d) (hde : d ≤ e) : x.Near v e :=
  ⟨h.finite, h.close.trans hde⟩

theorem Near.trans {v w d e : ℝ} (h : x.Near v e) (hvw : |v - w| ≤ d) :
    x.Near w (e + d) := by
  refine ⟨h.finite, ?_⟩
  calc |x.real - w| = |(x.real - v) + (v - w)| := by ring_nf
    _ ≤ |x.real - v| + |v - w| := abs_add_le _ _
    _ ≤ e + d := add_le_add h.close hvw

theorem near_zero (s : Bool) {e : ℝ} (he : 0 ≤ e) : (zero s).Near 0 e := by
  have none : signedUnits s 0 = 0 := by cases s <;> rfl
  rw [zero]
  refine ⟨.intro, ?_⟩
  rw [real_finite, none, Int.cast_zero, zero_div, sub_zero, abs_zero]
  exact he

theorem Near.size {v e a : ℝ} (h : x.Near v e) (hv : |v| + e ≤ a) : x.Near 0 a := by
  refine ⟨h.finite, ?_⟩
  rw [sub_zero]
  exact h.bound.trans hv

theorem real_neg (x : Binary64) : (-x).real = -x.real := by
  cases x with
  | finite s u h =>
    show (finite (!s) u h).real = _
    rw [real_finite, real_finite, signedUnits_not, Int.cast_neg, neg_div]
  | nan => simp [show -nan = nan from rfl, real, value]
  | infinite s => simp [show -infinite s = infinite (!s) from rfl, real, value]

theorem Finite.neg (h : x.Finite) : (-x).Finite := by
  cases h
  exact .intro

theorem near_add (hM : Scale M) (hx : x.Finite) (hy : y.Finite) (h : |x.real + y.real| ≤ M) :
    (x + y).Near (x.real + y.real) (M / 2 ^ 52) := by
  cases hx with
  | @intro s u hu =>
    cases hy with
    | @intro t v hv =>
      have sum : (finite s u hu).real + (finite t v hv).real =
          ((signedUnits s u + signedUnits t v : ℤ) : ℝ) / (1 : Nat) / one := by
        rw [real_finite, real_finite]
        push_cast
        ring
      rw [sum] at h ⊢
      rw [show finite s u hu + finite t v hv = _ from add_finite hu hv s t, ofSignedUnits]
      exact near_ofUnits hM Nat.one_pos (fun nonzero => if_neg nonzero) h

theorem near_sub (hM : Scale M) (hx : x.Finite) (hy : y.Finite) (h : |x.real - y.real| ≤ M) :
    (x - y).Near (x.real - y.real) (M / 2 ^ 52) := by
  have := near_add hM hx hy.neg (by rwa [real_neg, ← sub_eq_add_neg])
  rwa [real_neg, ← sub_eq_add_neg] at this

theorem near_fma (hM : Scale M) (hx : x.Finite) (hy : y.Finite) (hz : z.Finite)
    (h : |x.real * y.real + z.real| ≤ M) :
    (fma x y z).Near (x.real * y.real + z.real) (M / 2 ^ 52) := by
  cases hx with
  | @intro s u hu =>
    cases hy with
    | @intro t v hv =>
      cases hz with
      | @intro r w hw =>
        have total : (finite s u hu).real * (finite t v hv).real + (finite r w hw).real =
            ((signedUnits (s != t) (u * v) + signedUnits r (w * one) : ℤ) : ℝ) / one / one := by
          have := one_real_pos
          rw [real_finite, real_finite, real_finite, ← signedUnits_mul, signedUnits_mul_natCast]
          push_cast
          generalize (one : ℝ) = o at this ⊢
          field_simp
        rw [total] at h ⊢
        unfold fma
        dsimp only
        exact near_ofUnits hM one_pos (fun nonzero => if_neg nonzero) h

theorem near_mul (hM : Scale M) (hx : x.Finite) (hy : y.Finite) (h : |x.real * y.real| ≤ M) :
    (x * y).Near (x.real * y.real) (M / 2 ^ 52) := by
  cases hx with
  | @intro s u hu =>
    cases hy with
    | @intro t v hv =>
      have product : (finite s u hu).real * (finite t v hv).real =
          ((signedUnits (s != t) (u * v) : ℤ) : ℝ) / one / one := by
        have := one_real_pos
        rw [real_finite, real_finite, ← signedUnits_mul]
        push_cast
        field_simp
      rw [product] at h ⊢
      have size : (signedUnits (s != t) (u * v)).natAbs = u * v := by
        unfold signedUnits
        split <;> simp [Int.natAbs_mul]
      have near := near_ofUnits hM one_pos sign_signedUnits h
      rw [size] at near
      rw [show finite s u hu * finite t v hv = _ from mul_finite hu hv s t]
      exact near

/-! ### Sizes -/

theorem Near.add {a b : ℝ} (hM : Scale M) (hx : x.Near 0 a) (hy : y.Near 0 b)
    (h : a + b ≤ M) : (x + y).Near 0 (a + b + M / 2 ^ 52) := by
  have ha := hx.close
  have hb := hy.close
  rw [sub_zero] at ha hb
  have size : |x.real + y.real| ≤ a + b := (abs_add_le _ _).trans (add_le_add ha hb)
  have near := near_add hM hx.finite hy.finite (size.trans h)
  exact near.size (by linarith)

theorem Near.mul {a b : ℝ} (hM : Scale M) (hx : x.Near 0 a) (hy : y.Near 0 b)
    (h : a * b ≤ M) : (x * y).Near 0 (a * b + M / 2 ^ 52) := by
  have ha := hx.close
  have hb := hy.close
  rw [sub_zero] at ha hb
  have size : |x.real * y.real| ≤ a * b := by
    rw [abs_mul]
    exact mul_le_mul ha hb (abs_nonneg _) ((abs_nonneg _).trans ha)
  have near := near_mul hM hx.finite hy.finite (size.trans h)
  exact near.size (by linarith)

/-- A fused product and sum of numbers of which only the size is known. -/
theorem Near.fma {a b c : ℝ} (hM : Scale M) (hx : x.Near 0 a) (hy : y.Near 0 b)
    (hz : z.Near 0 c) (h : a * b + c ≤ M) :
    (Binary64.fma x y z).Near 0 (a * b + c + M / 2 ^ 52) := by
  have ha := hx.close
  have hb := hy.close
  have hc := hz.close
  rw [sub_zero] at ha hb hc
  have product : |x.real * y.real| ≤ a * b := by
    rw [abs_mul]
    exact mul_le_mul ha hb (abs_nonneg _) ((abs_nonneg _).trans ha)
  have size : |x.real * y.real + z.real| ≤ a * b + c :=
    (abs_add_le _ _).trans (add_le_add product hc)
  have near := near_fma hM hx.finite hy.finite hz.finite (size.trans h)
  exact near.size (by linarith)

theorem near_ofRatio (hM : Scale M) (n : ℤ) {den : Nat} (hden : 0 < den)
    (h : |(n : ℝ) / den| ≤ M) :
    (ofRatio (decide (n < 0)) n.natAbs den).Near (n / den) (M / 2 ^ 52) := by
  have := one_real_pos
  have units : (n : ℝ) / den = ((n * one : ℤ) : ℝ) / den / one := by
    push_cast
    field_simp
  have size : n.natAbs * one = (n * one).natAbs := by rw [Int.natAbs_mul, Int.natAbs_natCast]
  rw [units] at h ⊢
  rw [ofRatio, size]
  refine near_ofUnits hM hden (fun _ => ?_) h
  have : (0 : ℤ) < one := Int.natCast_pos.mpr one_pos
  rw [decide_eq_decide, Int.mul_neg_iff]
  omega

theorem near_ofRatio_nat (hM : Scale M) {num den : Nat} (hden : 0 < den)
    (h : (num : ℝ) / den ≤ M) : (ofRatio false num den).Near (num / den) (M / 2 ^ 52) := by
  have near := near_ofRatio hM num hden (by
    rw [Int.cast_natCast, abs_of_nonneg (by positivity)]
    exact h)
  rw [Int.cast_natCast, decide_eq_false (by omega), Int.natAbs_natCast] at near
  exact near

namespace Power

theorem dyadic_exact {m : ℤ} {e : Nat} (hm : m.natAbs ≤ 2 ^ 53) (he : e ≤ 1074) :
    (dyadic m e).Near (m / 2 ^ e) 0 := by
  obtain ⟨h, exact_⟩ := ofRatio_dyadic hm he (decide (m < 0))
  rw [dyadic, exact_]
  refine ⟨.intro, ?_⟩
  have value : (signedUnits (decide (m < 0)) (m.natAbs * 2 ^ (1074 - e)) : ℤ) =
      m * 2 ^ (1074 - e) := by
    rw [signedUnits_mul_natCast, signedUnits_natAbs, Nat.cast_pow, Nat.cast_ofNat]
  have power : (2 : ℝ) ^ (1074 - e) * 2 ^ e = 2 ^ 1074 := by
    rw [← pow_add, Nat.sub_add_cancel he]
  rw [real_finite, value, one_real, ← power]
  push_cast
  rw [mul_comm (m : ℝ), mul_div_mul_left _ _ (by positivity), sub_self, abs_zero]

theorem near_constant {m : ℤ} {e : ℕ} {a : ℝ} (hm : m.natAbs ≤ 2 ^ 53) (he : e ≤ 1074)
    (ha : |(m : ℝ) / 2 ^ e| ≤ a) : (dyadic m e).Near 0 a := by
  exact (dyadic_exact hm he).size (by rwa [add_zero])

theorem roundSigned_near (num : ℤ) {den : Nat} (hden : 0 < den) :
    |(roundSigned num den : ℝ) - num / den| ≤ 1 / 2 := by
  have signed : roundSigned num den =
      signedUnits (decide (num < 0)) (roundHalfEven num.natAbs den) := by
    unfold roundSigned signedUnits
    by_cases negative : num < 0 <;> simp [negative]
  have near := roundHalfEven_near num.natAbs hden
  rw [← div_one (roundHalfEven num.natAbs den : ℝ),
    ← abs_signedUnits_sub (decide (num < 0)), signedUnits_natAbs, ← signed, div_one] at near
  exact near

theorem fixedPoint_one : (FixedPoint.one.natAbs : ℝ) = 2 ^ 160 := by
  rw [show FixedPoint.one.natAbs = 2 ^ 160 from rfl]
  norm_num

/-- A fixed-point value that is cut to so few digits that a double holds them. -/
theorem roundSigned_fixedPoint {v : ℤ} {k e : ℕ} (digits : e + k = 160) (few : e ≤ 52)
    (hv : |(v : ℝ) / 2 ^ 160| ≤ 1) : (roundSigned v (2 ^ k)).natAbs ≤ 2 ^ 53 ∧
      |(roundSigned v (2 ^ k) : ℝ) / 2 ^ e - v / 2 ^ 160| ≤ 1 / 2 / 2 ^ e := by
  have cut := roundSigned_near v (Nat.two_pow_pos k)
  have scaled : (v : ℝ) / ((2 ^ k : ℕ) : ℝ) = v / 2 ^ 160 * 2 ^ e := by
    rw [← digits, pow_add, Nat.cast_pow, Nat.cast_ofNat]
    field_simp
  rw [scaled] at cut
  generalize (v : ℝ) / 2 ^ 160 = t at cut hv ⊢
  generalize roundSigned v (2 ^ k) = coarse at cut ⊢
  have he : (0 : ℝ) < 2 ^ e := by positivity
  have few : (2 : ℝ) ^ e ≤ 2 ^ 52 := pow_le_pow_right₀ (by norm_num) few
  constructor
  · have size : |(coarse : ℝ)| ≤ 2 ^ 53 := by
      have product : |t * 2 ^ e| ≤ 2 ^ e := by
        rw [abs_mul, abs_of_pos he]
        exact mul_le_of_le_one_left he.le hv
      calc |(coarse : ℝ)| = |t * 2 ^ e + (coarse - t * 2 ^ e)| := by ring_nf
        _ ≤ 2 ^ 53 := (abs_add_le _ _).trans (by linarith)
    rw [← Int.cast_abs, ← Nat.cast_natAbs] at size
    exact_mod_cast size
  · have quotient : (coarse : ℝ) / 2 ^ e - t = (coarse - t * 2 ^ e) / 2 ^ e := by field_simp
    rw [quotient, abs_div, abs_of_pos he]
    exact div_le_div_of_nonneg_right cut he.le

/-- A pair from a fixed-point value holds nearly all of it in its first part. -/
theorem near_split {v : ℤ} (hv : |(v : ℝ) / 2 ^ 160| ≤ 1) :
    (split v).high.Near (v / 2 ^ 160) (1 / 2 ^ 44) ∧ (split v).low.Near 0 (1 / 2 ^ 43) := by
  obtain ⟨few, small⟩ := roundSigned_fixedPoint (show 43 + 117 = 160 by rfl) (by norm_num) hv
  rw [show (1 : ℝ) / 2 / 2 ^ 43 = 1 / 2 ^ 44 by norm_num] at small
  unfold split
  dsimp only
  generalize roundSigned v (2 ^ 117) = coarse at few small ⊢
  have rest : ((v - coarse * 2 ^ 117 : ℤ) : ℝ) / (FixedPoint.one.natAbs * 1 : ℕ) =
      -(coarse / 2 ^ 43 - v / 2 ^ 160) := by
    push_cast
    rw [fixedPoint_one]
    ring
  have low := near_ofRatio (.of_le (by norm_num) (by norm_num) : Scale (1 / 2 ^ 44))
    (v - coarse * 2 ^ 117) (by decide) (rest ▸ (abs_neg _).trans_le small)
  rw [rest] at low
  refine ⟨((dyadic_exact few (by norm_num)).trans small).mono (by norm_num), low.size ?_⟩
  rw [abs_neg]
  linarith

/-! ### Pairs -/

theorem near_twoSum (hM : Scale M) (hx : x.Finite) (hy : y.Finite)
    (h : 2 * (|x.real| + |y.real|) ≤ M) :
    (twoSum x y).high.Near (x.real + y.real) (M / 2 ^ 52) ∧
      (twoSum x y).low.Near 0 (M / 2 ^ 50) := by
  have hM' := hM.nonneg
  have small : M / 2 ^ 52 ≤ M / 8 := by
    exact div_le_div_of_nonneg_left hM' (by norm_num) (by norm_num)
  have sum := near_add hM hx hy (by
    linarith [abs_add_le x.real y.real, abs_nonneg x.real, abs_nonneg y.real])
  refine ⟨sum, ?_⟩
  have hs := abs_le.mp sum.close
  have ha := abs_le.mp (le_refl |x.real|)
  have hb := abs_le.mp (le_refl |y.real|)
  have hxn := abs_nonneg x.real
  have rest := near_sub hM hx sum.finite (by rw [abs_le]; constructor <;> linarith)
  have hr := abs_le.mp rest.close
  have low := near_add hM rest.finite hy (by rw [abs_le]; constructor <;> linarith)
  refine ⟨low.finite, ?_⟩
  have hl := abs_le.mp low.close
  show |(x - (x + y) + y).real - 0| ≤ _
  rw [abs_le]
  have : M / 2 ^ 50 = 4 * (M / 2 ^ 52) := by ring
  constructor <;> linarith

theorem near_twoProduct (hM : Scale M) (hx : x.Finite) (hy : y.Finite)
    (h : |x.real * y.real| ≤ M) :
    (twoProduct x y).high.Near (x.real * y.real) (M / 2 ^ 52) ∧
      (twoProduct x y).low.Near 0 (M / 2 ^ 51) := by
  have hM' := hM.nonneg
  have small : M / 2 ^ 52 ≤ M := div_le_self hM' (by norm_num)
  have product := near_mul hM hx hy h
  refine ⟨product, ?_⟩
  have hp := abs_le.mp product.close
  have rest := near_fma hM hx hy product.finite.neg (by
    rw [real_neg, abs_le]
    constructor <;> linarith)
  refine ⟨rest.finite, ?_⟩
  have hr := abs_le.mp rest.close
  rw [real_neg] at hr
  show |(fma x y (-(x * y))).real - 0| ≤ _
  rw [abs_le]
  have : M / 2 ^ 51 = 2 * (M / 2 ^ 52) := by ring
  constructor <;> linarith

end Power

end

end Retry.Binary64
