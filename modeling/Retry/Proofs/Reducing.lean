import Mathlib.Analysis.SpecialFunctions.Log.Deriv
import Mathlib.Analysis.Complex.ExponentialBounds
import Retry.Proofs.Rounding

/-!
# The parts of a logarithm

A double is a power of two times a fraction around one, and the fraction is a simple one times
what is left. The logarithms of the simple fractions are in fixed point, from a series that
converges fast (`FixedPoint.ln_near`). There are 128 intervals of fractions, and what a single one
says is read off the table of them (`reciprocal_table`); the rest holds of every double.

Hypothesis: the double is one or more. Below one, the parts may cancel.

Main results: `exists_splits`, `Splits.reduced`.
-/

namespace Retry

namespace FixedPoint

open Real Finset

theorem ediv_near (n : ℤ) {d : ℤ} (hd : 0 < d) : |((n / d : ℤ) : ℝ) - n / d| ≤ 1 := by
  have hd' : (0 : ℝ) < d := Int.cast_pos.mpr hd
  have parts : (d : ℝ) * (n / d : ℤ) + (n % d : ℤ) = n := by
    exact_mod_cast Int.mul_ediv_add_emod n d
  have low : (0 : ℝ) ≤ (n % d : ℤ) := by exact_mod_cast Int.emod_nonneg n hd.ne'
  have high : ((n % d : ℤ) : ℝ) ≤ d := by exact_mod_cast (Int.emod_lt_of_pos n hd).le
  have rest : ((n / d : ℤ) : ℝ) - n / d = -((n % d : ℤ) / d) := by
    field_simp
    linarith
  rw [rest, abs_neg, abs_of_nonneg (div_nonneg low hd'.le), div_le_one hd']
  exact high

/-- Each term of the series misses its own by no more than three units: its power misses by two,
and shrinks before it is cut again. -/
theorem artanhTerms_near {num den : ℤ} {t : ℝ} (hden : 0 < den) (ht : t = num / den)
    (small : t ^ 2 ≤ 1 / 2) (terms : ℕ) (odd power : ℤ) (p : ℝ) (ho : 1 ≤ odd)
    (hp : |power - p| ≤ 2) :
    |(artanhTerms num den terms odd power : ℝ) -
      ∑ k ∈ range terms, p * t ^ (2 * k) / (odd + 2 * k)| ≤ 3 * terms := by
  induction terms generalizing odd power p with
  | zero => simp [artanhTerms]
  | succ terms ih =>
    have hd : (0 : ℝ) < den := Int.cast_pos.mpr hden
    have hodd : (1 : ℝ) ≤ odd := by exact_mod_cast ho
    have next : |((power * (num * num) / (den * den) : ℤ) : ℝ) - p * t ^ 2| ≤ 2 := by
      have cut := ediv_near (power * (num * num)) (Int.mul_pos hden hden)
      have value : ((power * (num * num) : ℤ) : ℝ) / (den * den : ℤ) = power * t ^ 2 := by
        rw [ht]
        push_cast
        field_simp
      have shrunk : |(power - p) * t ^ 2| ≤ 1 := by
        rw [abs_mul, abs_of_nonneg (sq_nonneg t)]
        nlinarith [abs_nonneg ((power : ℝ) - p), sq_nonneg t]
      rw [value] at cut
      calc |((power * (num * num) / (den * den) : ℤ) : ℝ) - p * t ^ 2|
          = |(((power * (num * num) / (den * den) : ℤ) : ℝ) - power * t ^ 2) +
              (power - p) * t ^ 2| := by ring_nf
        _ ≤ 2 := (abs_add_le _ _).trans (by linarith)
    have first : |((power / odd : ℤ) : ℝ) - p / odd| ≤ 3 := by
      have cut := ediv_near power (by omega : 0 < odd)
      have shrunk : |((power : ℝ) - p) / odd| ≤ 2 := by
        rw [abs_div, abs_of_pos (by linarith : (0 : ℝ) < odd), div_le_iff₀ (by linarith)]
        linarith
      calc |((power / odd : ℤ) : ℝ) - p / odd|
          = |(((power / odd : ℤ) : ℝ) - power / odd) + (power - p) / odd| := by ring_nf
        _ ≤ 3 := (abs_add_le _ _).trans (by linarith)
    have rest := ih (odd + 2) _ _ (by omega) next
    have shifted : ∑ k ∈ range terms, p * t ^ (2 * (k + 1)) / (odd + 2 * (k + 1 : ℕ)) =
        ∑ k ∈ range terms, p * t ^ 2 * t ^ (2 * k) / ((odd + 2 : ℤ) + 2 * k) := by
      refine sum_congr rfl fun k _ => ?_
      push_cast
      ring
    rw [artanhTerms, sum_range_succ', shifted]
    have sum := (abs_add_le _ _).trans (add_le_add first rest)
    push_cast at sum ⊢
    calc _ = _ := congrArg _ (by ring)
      _ ≤ 3 + 3 * (terms : ℝ) := sum
      _ = 3 * (terms + 1) := by ring

/-- The logarithm in fixed point is that of the fraction, to many more digits than a double has. -/
theorem ln_near {a b : ℕ} (hb : 0 < b) (low : b ≤ 2 * a) (high : a ≤ 2 * b) :
    |(ln a b : ℝ) / 2 ^ 160 - log (a / b)| ≤ 1 / 2 ^ 100 := by
  have hA : (0 : ℝ) < a := Nat.cast_pos.mpr (by omega)
  have hB : (0 : ℝ) < b := Nat.cast_pos.mpr hb
  have hden : (0 : ℤ) < a + b := by omega
  obtain ⟨t, ht⟩ : ∃ t : ℝ, t = ((a - b : ℤ) : ℝ) / ((a + b : ℤ) : ℝ) := ⟨_, rfl⟩
  have third : |t| ≤ 1 / 3 := by
    have : (b : ℝ) ≤ 2 * a := by exact_mod_cast low
    have : (a : ℝ) ≤ 2 * b := by exact_mod_cast high
    rw [ht]
    push_cast
    rw [abs_div, abs_of_pos (by linarith : (0 : ℝ) < a + b), div_le_iff₀ (by linarith), abs_le]
    constructor <;> linarith
  have square : t ^ 2 ≤ 1 / 9 := by
    rw [← sq_abs]
    nlinarith [abs_nonneg t]
  have ratio : (a : ℝ) / b = (1 + t) / (1 - t) := by
    have up : 1 + t = 2 * a / (a + b) := by rw [ht]; push_cast; field_simp; ring
    have down : 1 - t = 2 * b / (a + b) := by rw [ht]; push_cast; field_simp; ring
    rw [up, down]
    field_simp
  -- What is left of the series after sixty terms.
  have series := sum_range_sub_log_div_le (show |t| < 1 by linarith) 60
  rw [← ratio] at series
  have tail : |t| ^ (2 * 60 + 1) / (1 - t ^ 2) ≤ 1 / 2 ^ 110 := by
    have power : |t| ^ (2 * 60 + 1) ≤ (1 / 3) ^ (2 * 60 + 1) :=
      pow_le_pow_left₀ (abs_nonneg t) third _
    calc |t| ^ (2 * 60 + 1) / (1 - t ^ 2) ≤ (1 / 3) ^ (2 * 60 + 1) / (8 / 9) :=
          div_le_div₀ (by positivity) power (by norm_num) (by linarith)
      _ ≤ 1 / 2 ^ 110 := by norm_num
  -- The sixty terms in fixed point.
  have start : |((((a : ℤ) - b) * one / (a + b) : ℤ) : ℝ) - t * 2 ^ 160| ≤ 2 := by
    have cut := ediv_near (((a : ℤ) - b) * one) hden
    have value : ((((a : ℤ) - b) * one : ℤ) : ℝ) / ((a + b : ℤ) : ℝ) = t * 2 ^ 160 := by
      rw [ht, one]
      push_cast
      ring
    rw [value] at cut
    linarith
  have terms := artanhTerms_near hden ht (by linarith) 60 1 _ _ le_rfl start
  have same : ∑ k ∈ range 60, t * 2 ^ 160 * t ^ (2 * k) / (((1 : ℤ) : ℝ) + 2 * k) =
      2 ^ 160 * ∑ i ∈ range 60, t ^ (2 * i + 1) / (2 * i + 1) := by
    rw [mul_sum]
    refine sum_congr rfl fun k _ => ?_
    push_cast
    ring
  rw [same] at terms
  have twice : (ln a b : ℝ) =
      2 * artanhTerms (a - b) (a + b) 60 1 (((a : ℤ) - b) * one / (a + b)) := by
    unfold ln
    push_cast
    rfl
  rw [twice]
  generalize (artanhTerms (a - b) (a + b) 60 1 (((a : ℤ) - b) * one / (a + b)) : ℝ) = s at terms
  generalize ∑ i ∈ range 60, t ^ (2 * i + 1) / (2 * (i : ℝ) + 1) = exact_ at terms series
  have terms := abs_le.mp terms
  have series := abs_le.mp (series.trans tail)
  rw [abs_le]
  norm_num at terms series ⊢
  constructor <;> linarith

end FixedPoint

namespace Binary64.Power

/-! ## The reduced argument -/

def middle (i : ℕ) : ℤ := wrap - 2 ^ 53 + i * 2 ^ 45 + 2 ^ 44

/-- The reciprocals that stand for the intervals: of fractions around one, so near that no
interval reaches further from its own than one part in 128. Above one, all intervals but the
first stay away from one. -/
theorem reciprocal_table : ∀ i < 128,
    (128 ≤ reciprocal (middle i) ∧ reciprocal (middle i) ≤ 512) ∧
    (middle i - 2 ^ 44 < 0 →
      254 * 2 ^ 53 ≤ (2 ^ 53 + (middle i - 2 ^ 44)) * reciprocal (middle i) ∧
      (2 ^ 53 + (middle i + 2 ^ 44)) * reciprocal (middle i) ≤ 258 * 2 ^ 53) ∧
    (0 < middle i + 2 ^ 44 →
      254 * 2 ^ 52 ≤ (2 ^ 52 + (middle i - 2 ^ 44)) * reciprocal (middle i) ∧
      (2 ^ 52 + (middle i + 2 ^ 44)) * reciprocal (middle i) ≤ 258 * 2 ^ 52) ∧
    (reciprocal (middle i) = 256 ∨ middle i + 2 ^ 44 ≤ 0 ∨ 5 * 2 ^ 42 ≤ middle i - 2 ^ 44) := by
  decide +kernel

theorem exists_middle {offset : ℤ} (low : wrap - 2 ^ 53 ≤ offset) (high : offset < wrap - 2 ^ 52) :
    ∃ i < 128, centre offset = middle i ∧ middle i - 2 ^ 44 ≤ offset ∧
      offset < middle i + 2 ^ 44 := by
  have hw : wrap = 0x16955500000000 := rfl
  rw [hw] at low high
  refine ⟨((offset - (wrap - 2 ^ 53)) / 2 ^ 45).toNat, ?_, ?_, ?_, ?_⟩
  · rw [hw]; omega
  · unfold centre middle
    dsimp only
    rw [hw]
    omega
  · unfold middle; rw [hw]; omega
  · unfold middle; rw [hw]; omega

theorem exists_significand {units : ℕ} (h : Representable units) (hx : one ≤ units) :
    ∃ significand g : ℕ, units = significand * 2 ^ g ∧ 2 ^ 52 ≤ significand ∧
      significand < 2 ^ 53 ∧ units.log2 = g + 52 ∧ 1022 ≤ g := by
  have low : 1074 ≤ units.log2 := by
    have ones : one.log2 = 1074 := by simp only [one, Nat.log2_two_pow]
    exact ones ▸ log2_le_log2 hx
  have positive : units ≠ 0 := Nat.ne_of_gt (Nat.lt_of_lt_of_le one_pos hx)
  have grid : gridExponent units = units.log2 - 52 := rfl
  obtain ⟨k, hk⟩ := Nat.dvd_of_mod_eq_zero h.2
  have power : 2 ^ units.log2 = 2 ^ 52 * 2 ^ gridExponent units := by
    rw [← Nat.pow_add]
    congr 1
    omega
  have hg : 0 < 2 ^ gridExponent units := Nat.two_pow_pos _
  refine ⟨k, gridExponent units, by rw [Nat.mul_comm]; exact hk, ?_, ?_, by omega, by omega⟩
  · have := Nat.log2_self_le positive
    rw [power] at this
    refine Nat.le_of_mul_le_mul_right ?_ hg
    rwa [Nat.mul_comm k, ← hk]
  · have := div_grid_lt units
    rwa [Nat.div_eq_of_eq_mul_right hg hk] at this

/-- A magnitude from one on as a fraction around one, times a power of two. -/
structure Splits (units num e k : ℕ) : Prop where
  exponent : (normal units).exponent = k
  fraction : fraction (normal units).offset = (num, 2 ^ e)
  value : (units : ℝ) / one = num / 2 ^ e * 2 ^ k
  offset : (num : ℤ) = 2 ^ e + (normal units).offset
  low : wrap - 2 ^ 53 ≤ (normal units).offset
  high : (normal units).offset < wrap - 2 ^ 52
  side : (e = 52 ∧ 0 ≤ (normal units).offset) ∨
    (e = 53 ∧ (normal units).offset < 0 ∧ 1 ≤ k)

theorem exists_splits {units : ℕ} (h : Representable units) (hx : one ≤ units) :
    ∃ num e k, Splits units num e k := by
  obtain ⟨significand, g, hu, low, high, hlog, hg⟩ := exists_significand h hx
  have hw : wrap = 0x16955500000000 := rfl
  have hpow : 0 < 2 ^ g := Nat.two_pow_pos g
  have same : (units : ℤ) * 2 ^ (52 - units.log2) / 2 ^ (units.log2 - 52) = significand := by
    rw [show 52 - units.log2 = 0 by omega, show units.log2 - 52 = g by omega, hu]
    push_cast
    rw [mul_one]
    exact Int.mul_ediv_cancel _ (by positivity)
  have value {e k : ℕ} (hk : k + 1074 = e + g) :
      (units : ℝ) / one = significand / 2 ^ e * 2 ^ k := by
    rw [hu, one_real, div_mul_eq_mul_div, div_eq_div_iff (by positivity) (by positivity)]
    push_cast
    rw [mul_assoc, mul_assoc, ← pow_add, ← pow_add, hk, Nat.add_comm e g]
  by_cases small : (significand : ℤ) < wrap
  · have form : normal units = ⟨significand - 2 ^ 52, units.log2 - 1074⟩ := by
      simp only [normal, same, if_pos small]
    have offset : (normal units).offset = significand - 2 ^ 52 := by rw [form]
    exact ⟨significand, 52, g - 1022, {
      exponent := by rw [form]; dsimp only; omega
      fraction := by
        rw [offset, fraction, if_neg (by omega),
          show Int.toNat (2 ^ 52 + (significand - 2 ^ 52)) = significand by omega]
      value := value (by omega)
      offset := by rw [offset]; omega
      low := by rw [offset]; omega
      high := by rw [offset]; omega
      side := .inl ⟨rfl, by rw [offset]; omega⟩ }⟩
  · have form : normal units = ⟨significand - 2 ^ 53, units.log2 - 1073⟩ := by
      simp only [normal, same, if_neg small]
    have offset : (normal units).offset = significand - 2 ^ 53 := by rw [form]
    exact ⟨significand, 53, g - 1021, {
      exponent := by rw [form]; dsimp only; omega
      fraction := by
        rw [offset, fraction, if_pos (by omega),
          show Int.toNat (2 ^ 53 + (significand - 2 ^ 53)) = significand by omega]
      value := value (by omega)
      offset := by rw [offset]; omega
      low := by rw [offset]; omega
      high := by rw [offset]; omega
      side := .inr ⟨rfl, by rw [offset]; omega, by omega⟩ }⟩

/-- A logarithm `L` as those of a power of two, of a simple fraction and of what is left; each of
them is small where `L` is. -/
structure Reduced (L : ℝ) (k inverse : ℕ) (ρ : ℝ) : Prop where
  sum : L = k * Real.log 2 + Real.log (256 / inverse) + Real.log (1 + ρ)
  rest : |ρ| ≤ 1 / 128
  fraction : 128 ≤ inverse ∧ inverse ≤ 512
  exponent_le : k ≤ 4 * L
  rest_le : |ρ| ≤ 2 * L
  apart : inverse = 256 ∨ 1 / 256 ≤ L

/-- A fraction around one that is below one only before a power of two, and that is close to one
only where its reciprocal is that of one. -/
theorem reduced_of_apart {z : ℝ} {k inverse : ℕ} (fraction : 128 ≤ inverse ∧ inverse ≤ 512)
    (rest : |z * (inverse / 256) - 1| ≤ 1 / 128) (low : 7 / 10 ≤ z)
    (apart : 1 ≤ k ∨ (k = 0 ∧ 1 ≤ z ∧ (inverse = 256 ∨ 1 + 5 / 1024 ≤ z))) :
    Reduced (Real.log (z * 2 ^ k)) k inverse (z * (inverse / 256) - 1) := by
  have hinv : (128 : ℝ) ≤ inverse := by exact_mod_cast fraction.1
  have hz : 0 < z := by linarith
  have hρ : 0 < 1 + (z * (inverse / 256) - 1) := by linarith [abs_le.mp rest]
  have parts : Real.log (z * 2 ^ k) = k * Real.log 2 + Real.log z := by
    rw [Real.log_mul hz.ne' (by positivity), Real.log_pow, add_comm]
  have product : 256 / inverse * (1 + (z * (inverse / 256) - 1)) = z := by
    field_simp
    ring
  have sum : Real.log (z * 2 ^ k) = k * Real.log 2 + Real.log (256 / inverse) +
      Real.log (1 + (z * (inverse / 256) - 1)) := by
    rw [parts, add_assoc, ← Real.log_mul (by positivity) hρ.ne', product]
  have two := Real.log_two_gt_d9
  have bound := Real.one_sub_inv_le_log_of_pos hz
  rcases apart with hk | ⟨rfl, one_le, apart⟩
  · have hk' : (1 : ℝ) ≤ k := by exact_mod_cast hk
    have : z⁻¹ ≤ 10 / 7 := by
      rw [inv_le_comm₀ hz (by norm_num)]
      linarith
    have large : k ≤ 4 * Real.log (z * 2 ^ k) := by
      rw [parts]
      nlinarith
    exact ⟨sum, rest, fraction, large, by linarith, .inr (by linarith)⟩
  · have log_eq : Real.log (z * 2 ^ 0) = Real.log z := by norm_num
    have nonneg : 0 ≤ Real.log z := Real.log_nonneg one_le
    rcases apart with rfl | away
    · have near : |z * (((256 : ℕ) : ℝ) / 256) - 1| = z - 1 := by
        norm_num
        exact one_le
      have offset : (z - 1) / 2 ≤ 1 - z⁻¹ := by
        rw [near] at rest
        rw [show 1 - z⁻¹ = (z - 1) / z by field_simp]
        exact div_le_div_of_nonneg_left (by linarith) hz (by linarith)
      refine ⟨sum, rest, fraction, ?_, ?_, .inl rfl⟩
      · rw [log_eq, Nat.cast_zero]
        linarith
      · rw [near, log_eq]
        linarith
    · have : z⁻¹ ≤ 1024 / 1029 := by
        rw [inv_le_comm₀ hz (by norm_num)]
        linarith
      refine ⟨sum, rest, fraction, ?_, ?_, .inr ?_⟩ <;> rw [log_eq]
      · rw [Nat.cast_zero]
        linarith
      · linarith
      · linarith

theorem Splits.reduced {units num e k : ℕ} (h : Splits units num e k) :
    Reduced (Real.log ((units : ℝ) / one)) k (reciprocal (centre (normal units).offset))
      (num / 2 ^ e * (reciprocal (centre (normal units).offset) / 256) - 1) := by
  obtain ⟨i, hi, hc, lower, upper⟩ := exists_middle h.low h.high
  obtain ⟨fraction, below, above, apart⟩ := reciprocal_table i hi
  rw [hc, h.value]
  generalize middle i = c at *
  generalize reciprocal c = inverse at *
  have he : (0 : ℝ) < 2 ^ e := by positivity
  have hnum : (num : ℝ) = 2 ^ e + (normal units).offset := by exact_mod_cast h.offset
  have hlow := h.low
  rw [show wrap = 0x16955500000000 from rfl] at hlow
  have hoff := h.offset
  have mono {a b : ℤ} (hab : a ≤ b) : a * inverse ≤ b * inverse :=
    Int.mul_le_mul_of_nonneg_right hab (Int.natCast_nonneg _)
  refine reduced_of_apart fraction ?_ ?_ ?_
  · -- The product with the reciprocal, in whole numbers.
    have bounds : 254 * 2 ^ e ≤ (num : ℤ) * inverse ∧ (num : ℤ) * inverse ≤ 258 * 2 ^ e := by
      rcases h.side with ⟨rfl, side⟩ | ⟨rfl, side, -⟩
      · obtain ⟨hl, hu⟩ := above (by omega)
        exact ⟨hl.trans (mono (by omega)), (mono (by omega)).trans hu⟩
      · obtain ⟨hl, hu⟩ := below (by omega)
        exact ⟨hl.trans (mono (by omega)), (mono (by omega)).trans hu⟩
    have hl : (254 : ℝ) * 2 ^ e ≤ num * inverse := by exact_mod_cast bounds.1
    have hu : (num : ℝ) * inverse ≤ 258 * 2 ^ e := by exact_mod_cast bounds.2
    have quotient : (num : ℝ) / 2 ^ e * (inverse / 256) = num * inverse / (256 * 2 ^ e) := by
      field_simp
    rw [quotient, abs_le]
    constructor
    · rw [neg_le_sub_iff_le_add, div_add' _ _ _ (by positivity), le_div_iff₀ (by positivity)]
      linarith
    · rw [sub_le_iff_le_add, div_le_iff₀ (by positivity)]
      linarith
  · have : 7 * 2 ^ e ≤ 10 * num := by
      rcases h.side with ⟨rfl, side⟩ | ⟨rfl, side, -⟩ <;> omega
    rw [div_le_div_iff₀ (by norm_num) he]
    exact_mod_cast (show 7 * 2 ^ e ≤ num * 10 by omega)
  · rcases h.side with ⟨rfl, side⟩ | ⟨-, -, hk⟩
    · refine (Nat.eq_zero_or_pos k).symm.imp_right fun hk =>
        ⟨hk, ?_, apart.imp_right fun away => ?_⟩
      · rw [le_div_iff₀ he, one_mul]
        exact_mod_cast (show (2 : ℤ) ^ 52 ≤ num by omega)
      · rw [le_div_iff₀ he]
        have : ((5 * 2 ^ 42 : ℤ) : ℝ) ≤ (normal units).offset := by
          exact_mod_cast (show (5 * 2 ^ 42 : ℤ) ≤ _ by omega)
        rw [hnum]
        push_cast at this
        linarith
    · exact .inl hk

end Binary64.Power

end Retry
