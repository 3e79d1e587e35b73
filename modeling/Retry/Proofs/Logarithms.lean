import Retry.Proofs.Reducing

/-!
# How far a logarithm is from the exact one

The logarithm of a double past one is the sum of those of a power of two, of a simple fraction and
of what is left. All three are small where the sum is (`Reduced`), so each rounding on the way is
one at the scale of the result, `Parts`, and the errors together are a small part of it.

The polynomial that the sum ends with is bounded and not compared to the series it was made from:
that it is so short that the result is off by less than one part in five thousand is enough to
say when a power is finite.

Main result: `near_log`.
-/

namespace Retry.Binary64.Power

open Real (log_two_lt_d9 log_two_gt_d9)

/-! ## The steps -/

theorem near_logCorrection {r s : Binary64} (hr : r.Near 0 (1 / 64)) (hs : s.Near 0 (1 / 64)) :
    (logCorrection r s).Near 0 1 := by
  have scale : Scale 4 := .of_le (by norm_num) (by norm_num)
  have a := Near.fma scale hr
    (near_constant (by decide) (by decide) (by norm_num [abs_le]) :
      (dyadic 0x10000000000006 53).Near 0 1)
    (near_constant (by decide) (by decide) (by norm_num [abs_le]) :
      (dyadic (-0x15555555555560) 53).Near 0 (7 / 10)) (by norm_num)
  have b := Near.fma scale hr
    (near_constant (by decide) (by decide) (by norm_num [abs_le]) :
      (dyadic (-0x1555555529a47a) 53).Near 0 1)
    (near_constant (by decide) (by decide) (by norm_num [abs_le]) :
      (dyadic 0x1999999959554e 53).Near 0 1) (by norm_num)
  have c := Near.fma scale hr
    (near_constant (by decide) (by decide) (by norm_num [abs_le]) :
      (dyadic 0x10002b8b263fc3 52).Near 0 2)
    (near_constant (by decide) (by decide) (by norm_num [abs_le]) :
      (dyadic (-0x12495b9b4845e9) 52).Near 0 2) (by norm_num)
  have inner := Near.fma scale hs c b (by norm_num)
  exact (Near.fma scale hs inner a (by norm_num)).mono (by norm_num)

theorem lnTwo_near : |(lnTwo : ℝ) / 2 ^ 160 - Real.log 2| ≤ 1 / 2 ^ 100 := by
  have near := FixedPoint.ln_near (show 0 < 1 by norm_num) (show 1 ≤ 2 * 2 by norm_num)
    (show 2 ≤ 2 * 1 by norm_num)
  rwa [show ((2 : ℕ) : ℝ) / ((1 : ℕ) : ℝ) = 2 by norm_num] at near

theorem lnTwo_size : |(lnTwo : ℝ) / 2 ^ 160| ≤ 1 := by
  have := abs_le.mp lnTwo_near
  rw [abs_le]
  norm_num at this ⊢
  constructor <;> linarith [log_two_lt_d9, log_two_gt_d9]

theorem near_lnTwo : (split lnTwo).high.Near (Real.log 2) (1 / 2 ^ 43) ∧
    (split lnTwo).low.Near 0 (1 / 2 ^ 43) := by
  obtain ⟨high, low⟩ := near_split lnTwo_size
  exact ⟨(high.trans lnTwo_near).mono (by norm_num), low⟩

theorem near_fraction {L : ℝ} {k inverse : ℕ} {ρ : ℝ} (h : Reduced L k inverse ρ) :
    (split (FixedPoint.ln 256 inverse)).high.Near (Real.log (256 / inverse)) (L / 2 ^ 30) ∧
      (split (FixedPoint.ln 256 inverse)).low.Near 0 (L / 2 ^ 30) := by
  have hL : 0 ≤ L := by linarith [h.rest_le, abs_nonneg ρ]
  rcases h.apart with rfl | large
  · have none : (split (FixedPoint.ln 256 256)).high = zero false ∧
        (split (FixedPoint.ln 256 256)).low = zero false := by decide +kernel
    have nothing : (zero false).Near 0 (L / 2 ^ 30) := near_zero false (by positivity)
    rw [none.1, none.2, show Real.log (256 / ((256 : ℕ) : ℝ)) = 0 by norm_num]
    exact ⟨nothing, nothing⟩
  · obtain ⟨hlow, hhigh⟩ := h.fraction
    have near := FixedPoint.ln_near (a := 256) (by omega : 0 < inverse) (by omega) (by omega)
    have hi : (128 : ℝ) ≤ inverse := by exact_mod_cast hlow
    have hi' : (inverse : ℝ) ≤ 512 := by exact_mod_cast hhigh
    have size : |((FixedPoint.ln 256 inverse : ℤ) : ℝ) / 2 ^ 160| ≤ 1 := by
      have up : Real.log (256 / inverse) ≤ Real.log 2 := by
        refine Real.log_le_log (by positivity) ?_
        rw [div_le_iff₀ (by linarith)]
        linarith
      have down : Real.log (1 / 2) ≤ Real.log (256 / inverse) := by
        refine Real.log_le_log (by positivity) ?_
        rw [div_le_div_iff₀ (by norm_num) (by linarith)]
        linarith
      rw [one_div, Real.log_inv] at down
      have := abs_le.mp near
      rw [abs_le]
      norm_num at this ⊢
      constructor <;> linarith [log_two_lt_d9]
    obtain ⟨high, low⟩ := near_split size
    norm_num at near high low ⊢
    exact ⟨(high.trans near).mono (by norm_num; linarith), low.mono (by linarith)⟩

theorem near_rest {units num e k inverse : ℕ} {L ρ : ℝ} (hs : Splits units num e k)
    (hρ : ρ = num / 2 ^ e * (inverse / 256) - 1) (h : Reduced L k inverse ρ)
    (low : 1 / 2 ^ 60 ≤ L) (high : L ≤ 2 ^ 10) :
    (fma (ofRatio false num (2 ^ e)) (dyadic inverse 8) (dyadic (-1) 0)).Near ρ (L / 2 ^ 44) := by
  have hM : Scale (64 * L) :=
    .of_le (by norm_num at low ⊢; linarith) (by norm_num at high ⊢; linarith)
  have few : (num : ℤ).natAbs ≤ 2 ^ 53 ∧ e ≤ 1074 := by
    have := hs.offset
    have := hs.high
    rw [show wrap = 0x16955500000000 from rfl] at this
    rcases hs.side with ⟨rfl, -⟩ | ⟨rfl, side, -⟩ <;> omega
  have z := dyadic_exact few.1 few.2
  have i := @dyadic_exact inverse 8 (by have := h.fraction; omega) (by decide)
  have one := @dyadic_exact (-1) 0 (by decide) (by decide)
  have value : (dyadic num e).real * (dyadic inverse 8).real + (dyadic (-1) 0).real = ρ := by
    rw [z.eq, i.eq, one.eq, hρ]
    norm_num
    ring
  have near := near_fma hM z.finite i.finite one.finite (by
    rw [value]
    linarith [h.rest_le, abs_nonneg ρ])
  rw [value] at near
  exact near.mono (by linarith [h.rest_le, abs_nonneg ρ])

/-- What is known of the parts of an argument, at the scale of its logarithm `L`. -/
structure Parts (L N ρ : ℝ) (k : ℕ) (exponent : Binary64) (near : Pair) (r : Binary64) : Prop where
  low : 1 / 2 ^ 60 ≤ L
  high : L ≤ 2 ^ 10
  power : exponent.Near k 0
  power_le : k ≤ 4 * L
  table : near.high.Near N (L / 2 ^ 30)
  table_low : near.low.Near 0 (L / 2 ^ 30)
  table_le : |N| ≤ 8 * L
  rest : r.Near ρ (L / 2 ^ 44)
  rest_le : |ρ| ≤ 2 * L
  rest_small : |ρ| ≤ 1 / 128

section

variable {L N ρ : ℝ} {k : ℕ} {exponent r : Binary64} {near : Pair}

theorem Parts.nonneg (h : Parts L N ρ k exponent near r) : 0 ≤ L :=
  le_trans (by positivity) h.low

theorem Parts.scale (h : Parts L N ρ k exponent near r) : Scale (64 * L) := by
  have low := h.low
  have high := h.high
  norm_num at low high
  exact .of_le (by norm_num; linarith) (by norm_num; linarith)

/-- The logarithms of the power of two and of the fraction. -/
theorem Parts.top (h : Parts L N ρ k exponent near r) :
    |k * Real.log 2 + N| ≤ 12 * L ∧
      (fma exponent (split lnTwo).high near.high).Near (k * Real.log 2 + N) (L / 2 ^ 28) := by
  have hL := h.nonneg
  have hk : (0 : ℝ) ≤ k := Nat.cast_nonneg k
  have hkr : exponent.real = k := h.power.eq
  obtain ⟨two, -⟩ := near_lnTwo
  have shift : |exponent.real * (split lnTwo).high.real + near.high.real - (k * Real.log 2 + N)| ≤
      L / 2 ^ 29 := by
    have product : |k * ((split lnTwo).high.real - Real.log 2)| ≤ 4 * L * (1 / 2 ^ 43) := by
      rw [abs_mul, abs_of_nonneg hk]
      exact mul_le_mul h.power_le two.close (abs_nonneg _) (by linarith)
    calc |exponent.real * (split lnTwo).high.real + near.high.real - (k * Real.log 2 + N)|
        = |k * ((split lnTwo).high.real - Real.log 2) + (near.high.real - N)| := by
          rw [hkr]
          ring_nf
      _ ≤ 4 * L * (1 / 2 ^ 43) + L / 2 ^ 30 :=
          (abs_add_le _ _).trans (add_le_add product h.table.close)
      _ ≤ L / 2 ^ 29 := by linarith
  have power : |k * Real.log 2| ≤ 4 * L := by
    rw [abs_mul, abs_of_nonneg hk, abs_of_nonneg (Real.log_nonneg one_le_two)]
    calc k * Real.log 2 ≤ 4 * L * 1 :=
          mul_le_mul h.power_le (by linarith [log_two_lt_d9]) (Real.log_nonneg one_le_two)
            (by linarith)
      _ = 4 * L := mul_one _
  have sum : |k * Real.log 2 + N| ≤ 12 * L := by
    linarith [abs_add_le (k * Real.log 2) N, h.table_le]
  refine ⟨sum, ?_⟩
  have hs := abs_le.mp shift
  have hb := abs_le.mp sum
  have rounded := near_fma h.scale h.power.finite two.finite h.table.finite (by
    rw [abs_le]
    constructor <;> linarith)
  exact (rounded.trans shift).mono (by linarith)

theorem Parts.square (h : Parts L N ρ k exponent near r) :
    (twoProduct r (dyadic (-1) 1 * r)).high.Near (-(ρ ^ 2 / 2)) (L / 2 ^ 42) ∧
      (twoProduct r (dyadic (-1) 1 * r)).low.Near 0 (L / 2 ^ 45) := by
  have hL := h.nonneg
  have high := h.high
  have small := h.rest_small
  have hr := h.rest
  have hR : |r.real| ≤ 1 / 64 := hr.bound.trans (by norm_num at high ⊢; linarith)
  have hRL : |r.real| ≤ 3 * L := hr.bound.trans (by linarith [h.rest_le])
  have minus := @dyadic_exact (-1) 1 (by decide) (by decide)
  have hminus : (dyadic (-1) 1).real = -1 / 2 := by
    rw [minus.eq]
    norm_num
  have half := near_mul h.scale minus.finite hr.finite (by
    rw [hminus, abs_mul, show |(-1 / 2 : ℝ)| = 1 / 2 by norm_num [abs_of_neg]]
    linarith)
  rw [hminus] at half
  generalize dyadic (-1) 1 * r = x at half ⊢
  have hX : |x.real| ≤ 1 := by
    have := half.bound
    rw [abs_mul, show |(-1 / 2 : ℝ)| = 1 / 2 by norm_num [abs_of_neg]] at this
    norm_num at high
    linarith
  have product : |r.real * x.real| ≤ 64 * L := by
    rw [abs_mul]
    calc |r.real| * |x.real| ≤ 3 * L * 1 := mul_le_mul hRL hX (abs_nonneg _) (by linarith)
      _ ≤ 64 * L := by linarith
  obtain ⟨squared, squared'⟩ := near_twoProduct h.scale hr.finite half.finite product
  refine ⟨⟨squared.finite, ?_⟩, squared'.mono (by linarith)⟩
  have one : |r.real * (x.real - -1 / 2 * r.real)| ≤ L / 2 ^ 46 := by
    rw [abs_mul]
    calc |r.real| * |x.real - -1 / 2 * r.real| ≤ 1 * (64 * L / 2 ^ 52) :=
          mul_le_mul (by linarith) half.close (abs_nonneg _) (by norm_num)
      _ = L / 2 ^ 46 := by ring
  have two : |(r.real - ρ) * (r.real + ρ)| ≤ L / 2 ^ 44 := by
    rw [abs_mul]
    calc |r.real - ρ| * |r.real + ρ| ≤ L / 2 ^ 44 * 1 :=
          mul_le_mul hr.close (by linarith [abs_add_le r.real ρ]) (abs_nonneg _) (by positivity)
      _ = L / 2 ^ 44 := mul_one _
  have hs := abs_le.mp squared.close
  have one := abs_le.mp one
  have two := abs_le.mp two
  have parts : r.real * (x.real - -1 / 2 * r.real) = r.real * x.real + r.real ^ 2 / 2 := by ring
  have squares : (r.real - ρ) * (r.real + ρ) = r.real ^ 2 - ρ ^ 2 := by ring
  rw [parts] at one
  rw [squares] at two
  rw [abs_le]
  constructor <;> linarith

/-- The logarithm but for the polynomial after its first two terms, and what the second parts
hold. -/
theorem Parts.logOf (h : Parts L N ρ k exponent near r) :
    (logOf exponent near r).high.Near (k * Real.log 2 + N + ρ - ρ ^ 2 / 2) (L / 14000) ∧
      (logOf exponent near r).low.Near 0 (L / 2 ^ 44) := by
  have hL := h.nonneg
  have hM := h.scale
  have high := h.high
  have small := h.rest_small
  obtain ⟨sum, top⟩ := h.top
  obtain ⟨-, two⟩ := near_lnTwo
  obtain ⟨squared, squared'⟩ := h.square
  have hsq : |(-(ρ ^ 2 / 2))| ≤ 1 / 2 ^ 15 ∧ |(-(ρ ^ 2 / 2))| ≤ L / 128 := by
    rw [abs_neg, abs_of_nonneg (by positivity), ← sq_abs, pow_two]
    have := mul_le_mul small small (abs_nonneg ρ) (by norm_num)
    have := mul_le_mul small h.rest_le (abs_nonneg ρ) (by norm_num)
    constructor <;> linarith
  have tiny : L / 2 ^ 42 ≤ 1 / 2 ^ 30 := by
    norm_num at high ⊢
    linarith
  unfold Power.logOf
  dsimp only
  generalize twoProduct r (dyadic (-1) 1 * r) = square at squared squared' ⊢
  have hr : |r.real| ≤ 2 * L + L / 2 ^ 44 := h.rest.bound.trans (by linarith [h.rest_le])
  obtain ⟨based, based'⟩ := near_twoSum hM top.finite h.rest.finite (by linarith [top.bound])
  have hB : |(twoSum (fma exponent (split lnTwo).high near.high) r).high.real| ≤ 15 * L := by
    linarith [based.bound, top.bound,
      abs_add_le (fma exponent (split lnTwo).high near.high).real r.real]
  generalize twoSum (fma exponent (split lnTwo).high near.high) r = base at based based' hB ⊢
  obtain ⟨summed, summed'⟩ := near_twoSum hM based.finite squared.finite (by
    linarith [squared.bound])
  generalize twoSum base.high square.high = high at summed summed' ⊢
  -- The polynomial, and what the second parts hold.
  have cube := Near.mul hM (h.rest.size (by linarith [h.rest_le]) : r.Near 0 (2001 / 1000 * L))
    (squared.size (by linarith) : square.high.Near 0 (1 / 32000)) (by linarith)
  have poly := near_logCorrection (h.rest.size (by linarith)) (squared.size (by linarith))
  have seconds := Near.fma hM (h.power.size (by
    rw [abs_of_nonneg (Nat.cast_nonneg k)]
    linarith [h.power_le]) : exponent.Near 0 (4 * L)) two h.table_low (by linarith)
  have seconds := Near.add hM seconds based' (by linarith)
  have seconds := Near.add hM seconds squared' (by linarith)
  have seconds := Near.add hM seconds summed' (by linarith)
  have rest := (Near.fma hM cube poly seconds (by linarith)).mono
    (show _ ≤ L / 15000 by linarith)
  generalize fma (r * square.high) (logCorrection r square.high) _ = c at rest ⊢
  have hC := rest.close
  rw [sub_zero] at hC
  have hH := summed.bound
  obtain ⟨log, log'⟩ := near_twoSum hM summed.finite rest.finite (by
    linarith [abs_add_le base.high.real square.high.real, squared.bound])
  refine ⟨⟨log.finite, ?_⟩, log'.mono (by linarith)⟩
  have h1 := abs_le.mp log.close
  have h2 := abs_le.mp hC
  have h3 := abs_le.mp summed.close
  have h4 := abs_le.mp based.close
  have h5 := abs_le.mp top.close
  have h6 := abs_le.mp h.rest.close
  have h7 := abs_le.mp squared.close
  rw [abs_le]
  constructor <;> linarith

end

theorem log_near_square {ρ L : ℝ} (hρ : |ρ| ≤ 1 / 128) (hL : |ρ| ≤ 2 * L) :
    |ρ - ρ ^ 2 / 2 - Real.log (1 + ρ)| ≤ L / 8100 := by
  have series := Real.abs_log_sub_add_sum_range_le (x := -ρ) (by rw [abs_neg]; linarith) 2
  norm_num [Finset.sum_range_succ] at series
  have bound : |ρ| ^ 3 / (1 - |ρ|) ≤ L / 8100 := by
    have h0 := abs_nonneg ρ
    rw [div_le_iff₀ (by linarith)]
    have square : |ρ| ^ 2 ≤ (1 / 128) ^ 2 := pow_le_pow_left₀ h0 hρ 2
    nlinarith
  rw [← abs_neg]
  refine le_trans (le_of_eq ?_) (series.trans bound)
  congr 1
  ring

/-- A double past one is past it by its distance to the next. -/
theorem next_le_of_one_lt {units : ℕ} (h : Representable units) (hx : one < units) :
    1 + 1 / 2 ^ 52 ≤ (units : ℝ) / one := by
  obtain ⟨significand, g, hu, -, -, -, hg⟩ := exists_significand h hx.le
  obtain ⟨c, hc⟩ : ∃ c, units = c * 2 ^ 1022 :=
    ⟨significand * 2 ^ (g - 1022), by rw [hu, Nat.mul_assoc, Nat.pow_sub_mul_pow 2 hg]⟩
  have ones : one = 2 ^ 52 * 2 ^ 1022 := by decide +kernel
  have positive : 0 < 2 ^ 1022 := Nat.two_pow_pos 1022
  generalize 2 ^ 1022 = spacing at hc ones positive
  have more : 2 ^ 52 + 1 ≤ c := by
    rw [ones, hc] at hx
    exact Nat.lt_of_mul_lt_mul_right hx
  have more : (2 : ℝ) ^ 52 + 1 ≤ c := by exact_mod_cast more
  have quotient : (units : ℝ) / one = c / 2 ^ 52 := by
    rw [hc, ones, Nat.cast_mul, Nat.cast_mul,
      mul_div_mul_right _ _ (Nat.cast_ne_zero.mpr positive.ne'), Nat.cast_pow, Nat.cast_ofNat]
  rw [quotient, le_div_iff₀ (by norm_num)]
  norm_num at more ⊢
  linarith

/-- The logarithm of a double past one is neither tiny nor huge. -/
theorem log_bounds {units : ℕ} (h : Representable units) (hx : one < units) :
    1 / 2 ^ 60 ≤ Real.log ((units : ℝ) / one) ∧ Real.log ((units : ℝ) / one) ≤ 2 ^ 10 := by
  have next := next_le_of_one_lt h hx
  have below : (units : ℝ) / one ≤ 2 ^ 1024 := by
    rw [div_le_iff₀ one_real_pos, one_real, ← pow_add]
    have finite : (units : ℝ) ≤ limit := Nat.cast_le.mpr h.1.le
    rwa [limit_real] at finite
  generalize (units : ℝ) / one = x at next below ⊢
  have hx : 0 < x := by
    norm_num at next
    linarith
  constructor
  · have inverse : x⁻¹ ≤ 1 - 1 / 2 ^ 60 := by
      rw [inv_le_comm₀ hx (by norm_num)]
      norm_num at next ⊢
      linarith
    linarith [Real.one_sub_inv_le_log_of_pos hx]
  · calc Real.log x ≤ Real.log (2 ^ 1024) := Real.log_le_log hx below
      _ = 1024 * Real.log 2 := by
        rw [Real.log_pow]
        norm_num
      _ ≤ 2 ^ 10 := by
        norm_num
        linarith [log_two_lt_d9]

/-- **The logarithm of a double past one** misses its own by less than one part in five
thousand. -/
theorem near_log {units : ℕ} (h : Representable units) (hx : one < units) :
    (log units).high.Near (Real.log ((units : ℝ) / one)) (Real.log ((units : ℝ) / one) / 5000) ∧
      (log units).low.Near 0 (Real.log ((units : ℝ) / one) / 2 ^ 44) := by
  obtain ⟨low, high⟩ := log_bounds h hx
  obtain ⟨num, e, k, hs⟩ := exists_splits h hx.le
  have reduced := hs.reduced
  generalize Real.log ((units : ℝ) / one) = L at *
  have unfolded : log units = logOf (dyadic (normal units).exponent 0)
      (split (FixedPoint.ln 256 (reciprocal (centre (normal units).offset))))
      (fma (ofRatio false (fraction (normal units).offset).1 (fraction (normal units).offset).2)
        (dyadic (reciprocal (centre (normal units).offset)) 8) (dyadic (-1) 0)) := by
    unfold log
    rfl
  rw [unfolded, hs.fraction, hs.exponent]
  generalize reciprocal (centre (normal units).offset) = inverse at reduced ⊢
  generalize hρ : (num : ℝ) / 2 ^ e * (inverse / 256) - 1 = ρ at reduced
  obtain ⟨table, table'⟩ := near_fraction reduced
  have few : (k : ℤ).natAbs ≤ 2 ^ 53 := by
    have : (k : ℝ) ≤ 2 ^ 53 := by
      calc (k : ℝ) ≤ 4 * L := reduced.exponent_le
        _ ≤ 4 * 2 ^ 10 := by linarith
        _ ≤ 2 ^ 53 := by norm_num
    exact_mod_cast this
  have power := dyadic_exact few (show 0 ≤ 1074 by norm_num)
  rw [show ((k : ℤ) : ℝ) / 2 ^ 0 = k by norm_num] at power
  have square := log_near_square reduced.rest reduced.rest_le
  have table_le : |Real.log (256 / inverse)| ≤ 8 * L := by
    have sum := reduced.sum
    have size : |ρ ^ 2| ≤ 2 * L * (1 / 128) := by
      rw [pow_two, abs_mul]
      exact mul_le_mul reduced.rest_le reduced.rest (abs_nonneg ρ) (by linarith)
    have powers : k * Real.log 2 ≤ 4 * L * 1 :=
      mul_le_mul reduced.exponent_le (by linarith [log_two_lt_d9]) (Real.log_nonneg one_le_two)
        (by linarith)
    have powers' : 0 ≤ k * Real.log 2 := mul_nonneg (Nat.cast_nonneg k) (Real.log_nonneg one_le_two)
    have h1 := abs_le.mp square
    have h2 := abs_le.mp size
    have h3 := abs_le.mp reduced.rest_le
    rw [abs_le]
    constructor <;> linarith
  have parts : Parts L (Real.log (256 / inverse)) ρ k _ _ _ := {
    low, high, power, table, table_low := table', table_le
    power_le := reduced.exponent_le
    rest := near_rest hs hρ.symm reduced low high
    rest_le := reduced.rest_le
    rest_small := reduced.rest }
  obtain ⟨steps, steps'⟩ := parts.logOf
  refine ⟨(steps.trans (w := L) (d := L / 8100) ?_).mono (by linarith [parts.nonneg]), steps'⟩
  rwa [show k * Real.log 2 + Real.log (256 / inverse) + ρ - ρ ^ 2 / 2 - L =
    ρ - ρ ^ 2 / 2 - Real.log (1 + ρ) by linarith [reduced.sum]]

end Retry.Binary64.Power
