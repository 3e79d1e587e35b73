import Retry.Proofs.Logarithms

/-!
# When a power is finite

An exponential looks up a root of two for the nearest number of steps, and what is left of its
argument is so small that the polynomial for it moves the result by one part in a hundred at most.
So the result is finite up to the last power of two, though it is built from intermediate results
that may not exceed it either: close to the end they are found at a smaller scale.

With the logarithm, that says when a power of a double is finite, for every double that is one or
more and every whole exponent.

Main result: `finite_pow`.
-/

namespace Retry.Binary64

namespace Power

open Real (log_two_lt_d9 log_two_gt_d9)

theorem within_iff {n : ℕ} {x : Binary64} (hx : x.Finite) : within n x = true ↔ |x.real| < n := by
  cases hx with
  | @intro s u hu =>
    have units : |(finite s u hu).real| = u / one := by
      rw [real_finite, abs_div, abs_of_pos one_real_pos, abs_signedUnits]
    rw [units, div_lt_iff₀ one_real_pos]
    show decide (u < n * one) = true ↔ _
    rw [decide_eq_true_iff]
    norm_cast

/-! ## How many steps -/

theorem near_stepsInOne :
    (ofRatio false (128 * FixedPoint.one.natAbs) lnTwo.natAbs).Near (128 / Real.log 2)
      (1 / 2 ^ 40) := by
  have hl := abs_le.mp lnTwo_near
  have low := log_two_gt_d9
  have high := log_two_lt_d9
  have scale : Scale 256 := .of_le (by norm_num) (by norm_num)
  have positive : 0 < lnTwo.natAbs := by decide +kernel
  have size : ((lnTwo.natAbs : ℕ) : ℝ) = lnTwo := by
    rw [Nat.cast_natAbs, Int.cast_abs, abs_of_pos]
    exact Int.cast_pos.mpr (by decide +kernel)
  obtain ⟨t, ht⟩ : ∃ t : ℝ, t = lnTwo / 2 ^ 160 := ⟨_, rfl⟩
  have value : ((128 * FixedPoint.one.natAbs : ℕ) : ℝ) / (lnTwo.natAbs : ℕ) = 128 / t := by
    push_cast
    rw [fixedPoint_one, size, ht]
    field_simp
  rw [← ht] at hl
  norm_num at hl
  have htpos : 69 / 100 < t := by linarith
  have near := near_ofRatio_nat scale positive (by
    rw [value, div_le_iff₀ (by linarith)]
    linarith)
  rw [value] at near
  refine (near.trans (w := 128 / Real.log 2) (d := 1 / 2 ^ 41) ?_).mono (by norm_num)
  rw [div_sub_div _ _ (by linarith) (by linarith), abs_div, div_le_iff₀ (by positivity)]
  rw [abs_of_pos (by positivity : (0 : ℝ) < t * Real.log 2), abs_le]
  norm_num
  constructor <;> nlinarith

theorem steps_near {x : Binary64} (hx : x.Finite) :
    |(steps x : ℝ) - x.real * (ofRatio false (128 * FixedPoint.one.natAbs) lnTwo.natAbs).real| ≤
      1 / 2 := by
  have near := near_stepsInOne
  have positive : 0 < (ofRatio false (128 * FixedPoint.one.natAbs) lnTwo.natAbs).real := by
    have := (abs_le.mp near.close).1
    have : (128 : ℝ) ≤ 128 / Real.log 2 := by
      rw [le_div_iff₀ (by linarith [log_two_gt_d9])]
      linarith [log_two_lt_d9]
    norm_num at *
    linarith
  unfold steps
  generalize ofRatio false (128 * FixedPoint.one.natAbs) lnTwo.natAbs = y at near positive ⊢
  obtain ⟨finite, -⟩ := near
  cases hx with
  | @intro s u hu =>
    cases finite with
    | @intro t v hv =>
      dsimp only
      cases t with
      | true =>
        have negative : (finite true v hv).real ≤ 0 := by
          rw [real_finite, signedUnits, if_pos rfl, Int.cast_neg, neg_div, neg_nonpos]
          positivity
        exact absurd positive negative.not_gt
      | false =>
        have rounded := roundSigned_near (signedUnits s (u * v)) (Nat.mul_pos one_pos one_pos)
        have product : ((signedUnits s (u * v) : ℤ) : ℝ) / ((one * one : ℕ) : ℝ) =
            (finite s u hu).real * (finite false v hv).real := by
          rw [real_finite, real_finite, ← mul_div_mul_comm, ← Nat.cast_mul, ← Int.cast_mul,
            signedUnits_mul, Bool.bne_false]
        rwa [product] at rounded

/-! ## The remainder -/

/-- A double in range, and a second part that is tiny. -/
structure Ranged (x : Pair) : Prop where
  finite : x.high.Finite
  low : -1 ≤ x.high.real
  high : x.high.real ≤ 7095 / 10
  second : x.low.Near 0 (1 / 2 ^ 12)

theorem steps_between {x : Binary64} (hx : x.Finite) :
    ∃ r : ℝ, 184 ≤ r ∧ r ≤ 184666 / 1000 ∧ |(steps x : ℝ) - x.real * r| ≤ 1 / 2 := by
  have ratio := abs_le.mp near_stepsInOne.close
  have h1 := log_two_gt_d9
  have h2 := log_two_lt_d9
  have up : 128 / Real.log 2 ≤ 184665 / 1000 := by
    rw [div_le_iff₀ (by linarith)]
    linarith
  have down : 1845 / 10 ≤ 128 / Real.log 2 := by
    rw [le_div_iff₀ (by linarith)]
    linarith
  norm_num at ratio
  exact ⟨_, by linarith, by linarith, steps_near hx⟩

/-- The steps of a double in range, and of one in the lower or in the upper part of it. -/
theorem Ranged.steps {x : Pair} (h : Ranged x) :
    -200 ≤ Power.steps x.high ∧ Power.steps x.high ≤ 131024 ∧
      (x.high.real < 512 → Power.steps x.high ≤ 94719) ∧
      (512 ≤ x.high.real → 0 ≤ Power.steps x.high) := by
  obtain ⟨r, low, high, near⟩ := steps_between h.finite
  have near := abs_le.mp near
  have lowest := h.low
  have highest := h.high
  generalize Power.steps x.high = k at near ⊢
  have lower : (-200 : ℝ) ≤ k := by nlinarith
  have upper : (k : ℝ) ≤ 131024 := by nlinarith
  refine ⟨by exact_mod_cast lower, by exact_mod_cast upper, fun below => ?_, fun above => ?_⟩
  · have : (k : ℝ) ≤ 94719 := by nlinarith
    exact_mod_cast this
  · have : (0 : ℝ) ≤ k := by nlinarith
    exact_mod_cast this

/-- A step in a coarse double, and the rest of it in another. -/
theorem near_step :
    (dyadic (-roundSigned lnTwo (2 ^ 124)) 43).Near (-(Real.log 2 / 128)) (1 / 2 ^ 43) ∧
      (ofFixedPoint (roundSigned lnTwo (2 ^ 124) * 2 ^ 124 - lnTwo) 128).Near 0 (1 / 2 ^ 43) := by
  have near := lnTwo_near
  obtain ⟨few, small⟩ := roundSigned_fixedPoint (show 36 + 124 = 160 by rfl) (by norm_num)
    lnTwo_size
  generalize roundSigned lnTwo (2 ^ 124) = coarse at few small ⊢
  have step := dyadic_exact (m := -coarse) (e := 43) (by rwa [Int.natAbs_neg]) (by norm_num)
  have rest : ((coarse * 2 ^ 124 - lnTwo : ℤ) : ℝ) / (FixedPoint.one.natAbs * 128 : ℕ) =
      (coarse / 2 ^ 36 - lnTwo / 2 ^ 160) / 128 := by
    push_cast
    rw [fixedPoint_one]
    ring
  generalize (lnTwo : ℝ) / 2 ^ 160 = t at near small rest
  have fine_small : |(coarse / 2 ^ 36 - t) / 128| ≤ 1 / 2 ^ 44 := by
    rw [abs_div, abs_of_pos (by norm_num : (0 : ℝ) < 128)]
    linarith
  have fine := near_ofRatio (.of_le (by norm_num) (by norm_num) : Scale (1 / 2 ^ 44))
    (coarse * 2 ^ 124 - lnTwo) (by decide) (rest ▸ fine_small)
  rw [rest] at fine
  refine ⟨(step.trans (w := -(Real.log 2 / 128)) (d := 1 / 2 ^ 43) ?_).mono (by norm_num),
    fine.size (by linarith)⟩
  have near := abs_le.mp near
  have small := abs_le.mp small
  rw [abs_le]
  push_cast
  constructor <;> linarith

/-- Steps to the nearest, taken one by one, leave about half a step. -/
theorem left_le {H k r c : ℝ} (low : -1 ≤ H) (high : H ≤ 7095 / 10) (nearest : |k - H * r| ≤ 1 / 2)
    (ratio : |r - 128 / Real.log 2| ≤ 1 / 2 ^ 40) (step : |c - -(Real.log 2 / 128)| ≤ 1 / 2 ^ 43) :
    |k * c + H| ≤ 28 / 10000 := by
  have h1 := log_two_gt_d9
  have h2 := log_two_lt_d9
  have hl : Real.log 2 ≠ 0 := by linarith
  have up : |128 / Real.log 2| ≤ 185 := by
    rw [abs_of_pos (by positivity), div_le_iff₀ (by linarith)]
    linarith
  have hc : |c| ≤ 542 / 100000 := by
    have := abs_le.mp step
    rw [abs_le]
    norm_num at this ⊢
    constructor <;> linarith
  have both : |r * c + 1| ≤ 1 / 2 ^ 34 := by
    calc |r * c + 1|
        = |(r - 128 / Real.log 2) * c + 128 / Real.log 2 * (c - -(Real.log 2 / 128))| := by
          congr 1
          field_simp
          ring
      _ ≤ |r - 128 / Real.log 2| * |c| + |128 / Real.log 2| * |c - -(Real.log 2 / 128)| := by
          rw [← abs_mul, ← abs_mul]
          exact abs_add_le _ _
      _ ≤ 1 / 2 ^ 40 * (542 / 100000) + 185 * (1 / 2 ^ 43) :=
          add_le_add (mul_le_mul ratio hc (abs_nonneg c) (by positivity))
            (mul_le_mul up step (abs_nonneg _) (by positivity))
      _ ≤ 1 / 2 ^ 34 := by norm_num
  calc |k * c + H| = |(k - H * r) * c + H * (r * c + 1)| := by ring_nf
    _ ≤ |k - H * r| * |c| + |H| * |r * c + 1| := by
        rw [← abs_mul, ← abs_mul]
        exact abs_add_le _ _
    _ ≤ 1 / 2 * (542 / 100000) + 7095 / 10 * (1 / 2 ^ 34) :=
        add_le_add (mul_le_mul nearest hc (abs_nonneg c) (by norm_num))
          (mul_le_mul (abs_le.mpr ⟨by linarith, high⟩) both (abs_nonneg _) (by norm_num))
    _ ≤ 28 / 10000 := by norm_num

/-- What is left after the nearest number of steps is about half a step at most. -/
theorem Ranged.remainder {x : Pair} (h : Ranged x) :
    (remainder x (Power.steps x.high)).Near 0 (1 / 256) := by
  obtain ⟨few, many, -, -⟩ := h.steps
  obtain ⟨step, fine⟩ := near_step
  have nearest := steps_near h.finite
  have ratio := near_stepsInOne.close
  generalize (ofRatio false (128 * FixedPoint.one.natAbs) lnTwo.natAbs).real = r at nearest ratio
  generalize Power.steps x.high = k at few many nearest ⊢
  have count := @dyadic_exact k 0 (by omega) (by decide)
  rw [show (k : ℝ) / 2 ^ 0 = k by norm_num] at count
  have hk : (dyadic k 0).real = k := count.eq
  unfold Power.remainder
  generalize roundSigned lnTwo (2 ^ 124) = coarse at step fine ⊢
  have left := left_le h.low h.high nearest ratio step.close
  have scale : Scale 1 := .of_le (by norm_num) (by norm_num)
  have inner := near_fma scale count.finite step.finite h.finite (by
    rw [hk]
    linarith)
  rw [hk] at inner
  have outer := Near.fma scale (count.size (a := 2 ^ 17) (by
    have : |(k : ℝ)| ≤ 131024 := by
      rw [abs_le]
      constructor
      · exact_mod_cast (by omega : (-131024 : ℤ) ≤ k)
      · exact_mod_cast many
    norm_num
    linarith)) fine (inner.size (a := 29 / 10000) (by norm_num at left ⊢; linarith)) (by norm_num)
  exact (Near.add scale h.second outer (by norm_num)).mono (by norm_num)

/-! ## The result -/

theorem root_table : ∀ j < 128, 0 ≤ root j ∧ 2 ^ 52 ≤ rootSignificand j ∧
    rootSignificand j ≤ 2 ^ 53 ∧ (j ≤ 100 → rootSignificand j ≤ 7 * 2 ^ 50) := by
  decide +kernel

theorem near_rootTail {j : ℕ} (hj : j < 128) : (rootTail j).Near 0 (1 / 2 ^ 50) := by
  obtain ⟨nonneg, low, -, -⟩ := root_table j hj
  have cut := roundHalfEven_near (root j).natAbs (Nat.two_pow_pos 108)
  rw [show roundHalfEven (root j).natAbs (2 ^ 108) = rootSignificand j from rfl] at cut
  unfold rootTail
  have size : (((root j).natAbs : ℕ) : ℝ) = root j := by
    rw [Nat.cast_natAbs, Int.cast_abs, abs_of_nonneg (by exact_mod_cast nonneg)]
  rw [size] at cut
  generalize root j = v at cut ⊢
  generalize rootSignificand j = m at cut low ⊢
  have hm : (2 : ℝ) ^ 52 ≤ m := by exact_mod_cast low
  have value : ((v * 2 ^ 52 - m * FixedPoint.one : ℤ) : ℝ) / (FixedPoint.one.natAbs * m : ℕ) =
      -((m - v / 2 ^ 108) / m) := by
    have : (0 : ℝ) < m := lt_of_lt_of_le (by norm_num) hm
    push_cast
    rw [fixedPoint_one, show ((FixedPoint.one : ℤ) : ℝ) = 2 ^ 160 by norm_num [FixedPoint.one]]
    field_simp
    ring
  have small : |-(((m : ℝ) - v / 2 ^ 108) / m)| ≤ 1 / 2 ^ 52 := by
    rw [abs_neg, abs_div, abs_of_pos (by linarith : (0 : ℝ) < m), div_le_iff₀ (by linarith)]
    push_cast at cut
    linarith
  have near := near_ofRatio (.of_le (by norm_num) (by norm_num) : Scale (1 / 2 ^ 52))
    (v * 2 ^ 52 - m * FixedPoint.one)
    (Nat.mul_pos (by decide) (Nat.lt_of_lt_of_le (Nat.two_pow_pos 52) low)) (value ▸ small)
  rw [value] at near
  exact near.size (by norm_num at small ⊢; linarith)

theorem near_expCorrection {r tail : Binary64} (hr : r.Near 0 (1 / 256))
    (ht : tail.Near 0 (1 / 2 ^ 50)) : (expCorrection r tail).Near 0 (1 / 100) := by
  have scale : Scale 1 := .of_le (by norm_num) (by norm_num)
  have square := Near.mul scale hr hr (by norm_num)
  have a := Near.fma scale
    (near_constant (by decide) (by decide) (by norm_num [abs_le]) :
      (dyadic 0x1555555555543c 55).Near 0 (1 / 4)) hr
    (near_constant (by decide) (by decide) (by norm_num [abs_le]) :
      (dyadic 0x1ffffffffffdbd 54).Near 0 (6 / 10)) (by norm_num)
  have b := Near.fma scale hr
    (near_constant (by decide) (by decide) (by norm_num [abs_le]) :
      (dyadic 0x11111167a4d017 59).Near 0 (1 / 4))
    (near_constant (by decide) (by decide) (by norm_num [abs_le]) :
      (dyadic 0x155555cf172b91 57).Near 0 (1 / 4)) (by norm_num)
  have fourth := Near.mul scale square square (by norm_num)
  have inner := Near.fma scale a square (Near.add scale hr ht (by norm_num)) (by norm_num)
  exact (Near.fma scale b fourth inner (by norm_num)).mono (by norm_num)

theorem near_scale {k shift : ℤ} {m e : ℕ} {M : ℝ} (hM : Scale M)
    (bound : (m : ℝ) * 2 ^ e ≤ M * 2 ^ 52) (root : rootSignificand (k % 128).toNat ≤ m)
    (power : k / 128 + shift ≤ e) : (scale k shift).Near 0 (M + M / 2 ^ 52) := by
  have quotient : ((rootSignificand (k % 128).toNat * 2 ^ (k / 128 + shift).toNat : ℕ) : ℝ) /
      ((2 ^ 52 * 2 ^ (-(k / 128 + shift)).toNat : ℕ) : ℝ) ≤ M := by
    have top : rootSignificand (k % 128).toNat * 2 ^ (k / 128 + shift).toNat ≤ m * 2 ^ e :=
      Nat.mul_le_mul root (Nat.pow_le_pow_right (by decide) (by omega))
    have bottom : 2 ^ 52 ≤ 2 ^ 52 * 2 ^ (-(k / 128 + shift)).toNat :=
      Nat.le_mul_of_pos_right _ (Nat.two_pow_pos _)
    calc _ ≤ (m : ℝ) * 2 ^ e / 2 ^ 52 :=
          div_le_div₀ (by positivity) (by exact_mod_cast top) (by positivity)
            (by exact_mod_cast bottom)
      _ ≤ M := (div_le_iff₀ (by positivity)).mpr bound
  have near := near_ofRatio_nat hM (Nat.mul_pos (Nat.two_pow_pos 52) (Nat.two_pow_pos _)) quotient
  refine near.size ?_
  rw [abs_of_nonneg (div_nonneg (Nat.cast_nonneg _) (Nat.cast_nonneg _))]
  linarith

/-- Far below the last power of two, the result is found at once. -/
theorem finite_near {k : ℤ} {c : Binary64} (hc : c.Near 0 (1 / 100)) (high : k ≤ 94719)
    (root : rootSignificand (k % 128).toNat ≤ 2 ^ 53) :
    (fma c (scale k 0) (scale k 0)).Finite := by
  have scale₂ : Scale (2 * 2 ^ 740) := .of_two_pow (by norm_num) (by norm_num) (by norm_num)
  have scale₄ : Scale (4 * 2 ^ 740) := .of_two_pow (by norm_num) (by norm_num) (by norm_num)
  have bound : ((2 ^ 53 : ℕ) : ℝ) * 2 ^ 740 ≤ 2 * 2 ^ 740 * 2 ^ 52 := by
    push_cast
    generalize (2 : ℝ) ^ 740 = p
    linarith
  have positive : (0 : ℝ) < 2 ^ 740 := by positivity
  have near := near_scale scale₂ bound root (by omega : k / 128 + 0 ≤ (740 : ℕ))
  generalize (2 : ℝ) ^ 740 = p at positive near scale₄
  exact (Near.fma scale₄ hc near near (by linarith)).finite

/-- Close to it, the result is found at a smaller scale and brought back. -/
theorem finite_far {k : ℤ} {c : Binary64} (hc : c.Near 0 (1 / 100)) (high : k ≤ 131024)
    (root : rootSignificand (k % 128).toNat ≤ 2 ^ 53)
    (root' : (k % 128).toNat ≤ 100 → rootSignificand (k % 128).toNat ≤ 7 * 2 ^ 50) :
    (fma c (scale k (-1009)) (scale k (-1009)) * dyadic (2 ^ 1009) 0).Finite := by
  have near : (scale k (-1009)).Near 0 (28672 + 28672 / 2 ^ 52) := by
    have scale : Scale 28672 := .of_le (by norm_num) (by norm_num)
    by_cases last : k / 128 = 1023
    · exact near_scale scale (by norm_num) (root' (by omega))
        (by omega : k / 128 + -1009 ≤ (14 : ℕ))
    · exact near_scale scale (by norm_num) root (by omega : k / 128 + -1009 ≤ (13 : ℕ))
  have product := Near.fma (.of_le (by norm_num) (by norm_num) : Scale 65536) hc near near
    (by norm_num)
  have back : (dyadic (2 ^ 1009) 0).Near 0 (1001 / 1000 * 2 ^ 1009) := by
    have scale : Scale (1 * 2 ^ 1009) := .of_two_pow (by norm_num) (by norm_num) (by norm_num)
    have positive : (0 : ℝ) < 2 ^ 1009 := by positivity
    have value : ((2 ^ 1009 : ℤ) : ℝ) / ((2 ^ 0 : ℕ) : ℝ) = 2 ^ 1009 := by
      rw [Int.cast_pow, Int.cast_ofNat, Nat.pow_zero, Nat.cast_one, div_one]
    have near := near_ofRatio scale (2 ^ 1009) (Nat.two_pow_pos 0) (by
      rw [value, one_mul, abs_of_pos positive])
    rw [value, one_mul] at near
    refine near.size ?_
    rw [abs_of_pos positive]
    generalize (2 : ℝ) ^ 1009 = p at positive ⊢
    linarith
  have scale : Scale (30000 * 2 ^ 1009) := .of_two_pow (by norm_num) (by norm_num) (by norm_num)
  have positive : (0 : ℝ) < 2 ^ 1009 := by positivity
  generalize (2 : ℝ) ^ 1009 = p at back scale positive
  exact (Near.mul scale product back (by linarith)).finite

theorem Ranged.exp {x : Pair} (h : Ranged x) : (exp x).Finite := by
  obtain ⟨few, many, below, above⟩ := h.steps
  have remainder := h.remainder
  have inside : within 1024 x.high = true := by
    have lowest := h.low
    have highest := h.high
    rw [within_iff h.finite, abs_lt]
    constructor <;> push_cast <;> linarith
  unfold Power.exp
  rw [inside, Bool.not_true, if_neg Bool.false_ne_true]
  dsimp only
  generalize Power.steps x.high = k at few many below above remainder ⊢
  obtain ⟨-, -, top, flat⟩ := root_table (k % 128).toNat (by omega)
  have correction := near_expCorrection remainder (near_rootTail (j := (k % 128).toNat) (by omega))
  cases near : within 512 x.high with
  | true =>
    have near := (abs_lt.mp ((within_iff h.finite).mp near)).2
    rw [if_pos rfl]
    exact finite_near correction (below (by exact_mod_cast near)) top
  | false =>
    have far : 512 ≤ x.high.real := by
      have lowest := h.low
      have outside := mt (within_iff (n := 512) h.finite).mpr (by rw [near]; decide)
      rw [abs_lt, not_and, not_lt] at outside
      exact_mod_cast outside (by push_cast; linarith)
    rw [if_neg Bool.false_ne_true, if_pos (above far)]
    exact finite_far correction many top flat

/-- A multiple of a logarithm that is not too large is in range. -/
theorem ranged_timesLog {y : Binary64} {p : Pair} (hy : y.Finite) (high : p.high.Finite)
    (low : p.low.Finite) (nonneg : 0 ≤ y.real * p.high.real)
    (bound : y.real * p.high.real ≤ 7094 / 10) (rest : |y.real * p.low.real| ≤ 1 / 2 ^ 20) :
    Ranged (timesLog y p) := by
  obtain ⟨first, second⟩ := near_twoProduct (.of_le (by norm_num) (by norm_num) : Scale (2 ^ 10))
    hy high (by
      rw [abs_of_nonneg nonneg]
      linarith)
  have hfirst := abs_le.mp first.close
  have hsecond := second.close
  rw [sub_zero] at hsecond
  have whole : |y.real * p.low.real + (twoProduct y p.high).low.real| ≤ 1 / 2 ^ 14 :=
    (abs_add_le _ _).trans (by linarith)
  have fused := near_fma (.of_le (by norm_num) (by norm_num) : Scale (1 / 2 ^ 14)) hy
    low second.finite whole
  have parts : (timesLog y p).high = (twoProduct y p.high).high := rfl
  exact ⟨first.finite, by rw [parts]; linarith, by rw [parts]; linarith, fused.size (by linarith)⟩

theorem ranged_log_one {y : Binary64} (hy : y.Finite) : Ranged (timesLog y (log one)) := by
  obtain ⟨high, low⟩ : (log one).high = zero false ∧ (log one).low = zero false := by
    decide +kernel
  have none : (zero false).real = 0 := (near_zero false le_rfl).eq
  refine ranged_timesLog hy ?_ ?_ ?_ ?_ ?_
  all_goals simp only [high, low, none]
  · exact .intro
  · exact .intro
  all_goals norm_num

/-- A whole multiple of a logarithm, of which both are known nearly. -/
theorem ranged_of_near {y : Binary64} {p : Pair} {L n : ℝ} (hn : 0 ≤ n)
    (hy : y.Near n (n / 2 ^ 50)) (high : p.high.Near L (L / 5000))
    (low : p.low.Near 0 (L / 2 ^ 44)) (hL : 0 ≤ L) (bound : n * L ≤ 70918 / 100) :
    Ranged (timesLog y p) := by
  have hyn := abs_le.mp hy.close
  have hh := abs_le.mp high.close
  have hl := low.close
  rw [sub_zero] at hl
  have y_nonneg : 0 ≤ y.real := by linarith
  have y_le : y.real ≤ 100001 / 100000 * n := by linarith
  refine ranged_timesLog hy.finite high.finite low.finite (mul_nonneg y_nonneg (by linarith)) ?_ ?_
  · calc y.real * p.high.real ≤ 100001 / 100000 * n * (5001 / 5000 * L) :=
          mul_le_mul y_le (by linarith) (by linarith) (by linarith)
      _ = 100001 / 100000 * (5001 / 5000) * (n * L) := by ring
      _ ≤ 7094 / 10 := by linarith
  · calc |y.real * p.low.real| = y.real * |p.low.real| := by rw [abs_mul, abs_of_nonneg y_nonneg]
      _ ≤ 100001 / 100000 * n * (L / 2 ^ 44) := mul_le_mul y_le hl (abs_nonneg _) (by linarith)
      _ = 100001 / 100000 / 2 ^ 44 * (n * L) := by ring
      _ ≤ 1 / 2 ^ 20 := by linarith

end Power

theorem Finite.withSign {x : Binary64} (h : x.Finite) (s : Bool) : (x.withSign s).Finite := by
  cases h
  exact .intro

theorem near_ofInt? {n : ℕ} {y : Binary64} (hy : ofInt? n = some y) (pos : 0 < n)
    (high : (n : ℝ) ≤ 2 ^ 200) : y.Near n (n / 2 ^ 52) := by
  have one_le : (1 : ℝ) ≤ n := by exact_mod_cast pos
  have scale : Scale n := .of_le (le_trans (by norm_num) one_le) high
  have near := near_ofRatio_nat scale Nat.one_pos
    (show (n : ℝ) / (1 : ℕ) ≤ n by rw [Nat.cast_one, div_one])
  obtain ⟨rounded, -⟩ := finite?_eq_some hy
  rw [decide_eq_false (by omega), Int.natAbs_natCast] at rounded
  rw [rounded, Nat.cast_one, div_one] at near
  exact near

theorem ofInt?_zero : ofInt? 0 = some (zero false) := by decide +kernel

/-- **A power is finite** as long as the exact one is below the last power of two. -/
theorem finite_pow {u : ℕ} (h : Representable u) (hu : one ≤ u) {n : ℕ} {y : Binary64}
    (hy : ofInt? n = some y) (small : ((u : ℝ) / one) ^ n < 2 ^ 1023) :
    ((finite false u h).pow y).Finite := by
  unfold pow
  by_cases none : y = zero y.isNegative
  · rw [if_pos none]
    exact (near_ofRatio_nat (.of_le (by norm_num) (by norm_num) : Scale 1) Nat.one_pos
      (by norm_num)).finite
  · have pos := one_pos
    rw [if_neg none]
    dsimp only
    rw [if_neg (by omega)]
    refine Finite.withSign (Power.Ranged.exp ?_) _
    rcases Nat.eq_or_lt_of_le hu with rfl | past
    · exact Power.ranged_log_one (finite_ofInt? hy)
    · have n_pos : 0 < n := by
        refine Nat.pos_of_ne_zero fun zero => none ?_
        subst zero
        rw [← Option.some.inj (ofInt?_zero.symm.trans hy)]
        rfl
      obtain ⟨low, -⟩ := Power.log_bounds h past
      obtain ⟨first, second⟩ := Power.near_log h past
      have bound : n * Real.log ((u : ℝ) / one) ≤ 70918 / 100 := by
        have positive : 0 < (u : ℝ) / one :=
          div_pos (Nat.cast_pos.mpr (by omega)) one_real_pos
        have below := Real.log_lt_log (pow_pos positive n) small
        rw [Real.log_pow, Real.log_pow] at below
        have := Real.log_two_lt_d9
        push_cast at below
        linarith
      generalize Real.log ((u : ℝ) / one) = L at *
      have few : (n : ℝ) ≤ 2 ^ 70 := by
        have scaled : (n : ℝ) * (1 / 2 ^ 60) ≤ n * L :=
          mul_le_mul_of_nonneg_left low n.cast_nonneg
        linarith
      have near := near_ofInt? hy n_pos (few.trans (by norm_num))
      refine Power.ranged_of_near n.cast_nonneg (near.mono ?_) first second (by linarith) bound
      exact div_le_div_of_nonneg_left n.cast_nonneg (by norm_num) (by norm_num)

end Retry.Binary64
