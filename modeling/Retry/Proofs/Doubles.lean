import Retry.Number

/-!
# Doubles that are not negative

A NaN is not below zero, so `Nonneg` says of a double that it is a NaN, or lies at zero or
past it. The operations that delays are calculated with keep it: sums, products and powers.

They make a NaN out of other doubles only where an infinity meets a zero in a product
(`mul_ne_nan`). A finite double times one of at most one stays finite (`Finite.mul_share`), for
rounding does not pass a double (`roundUnits_le`).
-/

namespace Retry

namespace Binary64

/-! ## Rounding -/

theorem roundUnits_zero (den : Nat) : roundUnits 0 den = 0 := by
  rcases Nat.eq_zero_or_pos den with rfl | h
  · simp [roundUnits, roundHalfEven]
  · have rounded := roundHalfEven_mul 0 (Nat.mul_pos h (Nat.two_pow_pos (gridExponent (0 / den))))
    rw [Nat.zero_mul] at rounded
    simp only [roundUnits, rounded, Nat.zero_mul]

theorem log2_le_log2 {m n : Nat} (h : m ≤ n) : m.log2 ≤ n.log2 := by
  rcases Nat.eq_zero_or_pos m with rfl | hm
  · exact Nat.zero_le _
  · have hm' : m ≠ 0 := Nat.ne_of_gt hm
    have hn : n ≠ 0 := Nat.ne_of_gt (Nat.lt_of_lt_of_le hm h)
    exact (Nat.le_log2 hn).mpr (Nat.le_trans (Nat.log2_self_le hm') h)

/-- Rounding to a whole number does not pass a whole number. -/
theorem roundHalfEven_le {num den k : Nat} (hden : 0 < den) (h : num ≤ k * den) :
    roundHalfEven num den ≤ k := by
  have parts : den * (num / den) + num % den = num := Nat.div_add_mod num den
  rcases Nat.lt_or_ge (num / den) k with below | reached
  · exact Nat.le_trans (roundHalfEven_bounds num den).2 below
  · -- Nothing is left over at the number itself.
    have exact_ : num / den = k :=
      Nat.le_antisymm (Nat.div_le_of_le_mul (by rwa [Nat.mul_comm])) reached
    have rest : num % den = 0 := by
      rw [exact_, Nat.mul_comm] at parts
      omega
    simp [roundHalfEven, exact_, rest, hden]

theorem roundUnits_le {num den n : Nat} (hden : 0 < den) (hn : Representable n)
    (h : num ≤ n * den) : roundUnits num den ≤ n := by
  have below : num / den ≤ n := Nat.div_le_of_le_mul (by rwa [Nat.mul_comm])
  have coarser : gridExponent (num / den) ≤ gridExponent n :=
    Nat.sub_le_sub_right (log2_le_log2 below) 52
  obtain ⟨k, hk⟩ : 2 ^ gridExponent (num / den) ∣ n :=
    Nat.dvd_trans (Nat.pow_dvd_pow 2 coarser) (Nat.dvd_of_mod_eq_zero hn.2)
  have hgrid : 0 < 2 ^ gridExponent (num / den) := Nat.two_pow_pos _
  unfold roundUnits
  dsimp only
  generalize 2 ^ gridExponent (num / den) = grid at hk hgrid ⊢
  have within : num ≤ k * (den * grid) := by
    calc num ≤ n * den := h
      _ = k * (den * grid) := by rw [hk, Nat.mul_comm grid k, Nat.mul_assoc, Nat.mul_comm grid den]
  calc roundHalfEven num (den * grid) * grid
      ≤ k * grid := Nat.mul_le_mul_right grid (roundHalfEven_le (Nat.mul_pos hden hgrid) within)
    _ = n := by rw [hk, Nat.mul_comm]

theorem roundUnits_pos {num den : Nat} (hden : 0 < den) (h : den ≤ num) :
    0 < roundUnits num den := by
  have units : 1 ≤ num / den := (Nat.one_le_div_iff hden).mpr h
  have grid : 2 ^ gridExponent (num / den) ≤ num / den := by
    have hunits : num / den ≠ 0 := Nat.ne_of_gt units
    exact Nat.le_trans (Nat.pow_le_pow_right (by decide) (Nat.sub_le _ 52))
      (Nat.log2_self_le hunits)
  have hgrid : 0 < 2 ^ gridExponent (num / den) := Nat.two_pow_pos _
  have steps : 1 ≤ num / (den * 2 ^ gridExponent (num / den)) := by
    rw [← Nat.div_div_eq_div_mul]
    exact (Nat.one_le_div_iff hgrid).mpr grid
  have rounded := (roundHalfEven_bounds num (den * 2 ^ gridExponent (num / den))).1
  exact Nat.mul_pos (Nat.lt_of_lt_of_le steps rounded) hgrid

/-! ## Signs -/

/-- Not below zero; a NaN is not. -/
inductive Nonneg : Binary64 → Prop where
  | nan : Nonneg .nan
  | infinite : Nonneg (.infinite false)
  | zero {s : Bool} {h : Representable 0} : Nonneg (.finite s 0 h)
  | positive {u : Nat} {h : Representable u} : Nonneg (.finite false u h)

/-- Neither a NaN nor an infinity. -/
inductive Finite : Binary64 → Prop where
  | intro {s : Bool} {u : Nat} {h : Representable u} : Finite (.finite s u h)

/-- A zero of either sign. -/
inductive IsZero : Binary64 → Prop where
  | intro {s : Bool} {h : Representable 0} : IsZero (.finite s 0 h)

/-- A magnitude of at most one. -/
inductive AtMostOne : Binary64 → Prop where
  | intro {s : Bool} {u : Nat} {h : Representable u} (le : u ≤ one) : AtMostOne (.finite s u h)

variable {x y : Binary64} {s : Bool} {num den : Nat} {n : Int}

theorem Finite.ne_nan (h : x.Finite) : x ≠ .nan := by
  rintro rfl
  cases h

theorem ofUnits_cases (s : Bool) (num den : Nat) : ofUnits s num den = .infinite s ∨
    ∃ h, ofUnits s num den = .finite s (roundUnits num den) h := by
  by_cases h : Representable (roundUnits num den)
  · exact .inr ⟨h, by simp only [ofUnits, h, dite_true]⟩
  · exact .inl (by simp only [ofUnits, h, dite_false])

theorem ofUnits_zero (s : Bool) (den : Nat) : ofUnits s 0 den = .zero s := by
  simp only [ofUnits, roundUnits_zero, representable_zero, dite_true, Binary64.zero]

theorem ofUnits_ne_nan : ofUnits s num den ≠ .nan := by
  rcases ofUnits_cases s num den with e | ⟨h, e⟩
  · simp [e]
  · simp [e]

theorem nonneg_ofUnits (h : s = true → num = 0) : (ofUnits s num den).Nonneg := by
  cases s with
  | true =>
    rw [h rfl, ofUnits_zero]
    exact .zero
  | false =>
    rcases ofUnits_cases false num den with e | ⟨h, e⟩
    · rw [e]
      exact .infinite
    · rw [e]
      exact .positive

theorem nonneg_ofSignedUnits (h : 0 ≤ n) : (ofSignedUnits s n).Nonneg := by
  refine nonneg_ofUnits fun negative => ?_
  split at negative
  · simp_all
  · simp only [decide_eq_true_eq] at negative
    omega

theorem finite_ofUnits (h : Representable (roundUnits num den)) : (ofUnits s num den).Finite := by
  simp only [ofUnits, h, dite_true]
  exact .intro

theorem finite_ofSignedUnits {u : Nat} (h : Representable u) (t : Bool) :
    (ofSignedUnits s (signedUnits t u)).Finite := by
  have units : (signedUnits t u).natAbs = u := by
    unfold signedUnits
    split <;> simp
  rw [ofSignedUnits, units, ofUnits_units _ h]
  exact .intro

/-! ## Sums and products -/

theorem add_finite {u v : Nat} (hu : Representable u) (hv : Representable v) (s t : Bool) :
    (finite s u hu).add (.finite t v hv) =
      ofSignedUnits (s && t) (signedUnits s u + signedUnits t v) := rfl

theorem mul_finite {u v : Nat} (hu : Representable u) (hv : Representable v) (s t : Bool) :
    (finite s u hu).mul (.finite t v hv) = ofUnits (s != t) (u * v) one := rfl

theorem signedUnits_nonneg {u : Nat} {h : Representable u} (hx : (finite s u h).Nonneg) :
    0 ≤ signedUnits s u := by
  cases hx <;> simp [signedUnits]

theorem Nonneg.add (hx : x.Nonneg) (hy : y.Nonneg) : (x.add y).Nonneg := by
  cases x with
  | nan => exact .nan
  | infinite s =>
    cases hx with
    | infinite => cases hy <;> first | exact .nan | exact .infinite
  | finite s u hu =>
    cases y with
    | nan => exact .nan
    | infinite t => exact hy
    | finite t v hv =>
      rw [add_finite]
      exact nonneg_ofSignedUnits (Int.add_nonneg (signedUnits_nonneg hx) (signedUnits_nonneg hy))

theorem Nonneg.mul (hx : x.Nonneg) (hy : y.Nonneg) : (x.mul y).Nonneg := by
  cases x with
  | nan => exact .nan
  | infinite s =>
    cases hx with
    | infinite =>
      cases hy with
      | nan => exact .nan
      | infinite => exact .infinite
      | zero => exact .nan
      | @positive v hv =>
        by_cases units : v = 0
        · simp only [Binary64.mul, units, if_true]
          exact .nan
        · simp only [Binary64.mul, units, if_false]
          exact .infinite
  | finite s u hu =>
    cases y with
    | nan => exact .nan
    | infinite t =>
      cases hy with
      | infinite =>
        by_cases units : u = 0
        · simp only [Binary64.mul, units, if_true]
          exact .nan
        · simp only [Binary64.mul, units, if_false]
          cases hx with
          | zero => exact absurd rfl units
          | positive => exact .infinite
    | finite t v hv =>
      rw [mul_finite]
      refine nonneg_ofUnits fun differ => ?_
      cases hx with
      | zero => exact Nat.zero_mul v
      | positive =>
        cases hy with
        | zero => exact Nat.mul_zero u
        | positive => exact absurd differ (by simp)

theorem nonneg_pow (h : x.isNegative = false) (y : Binary64) : (x.pow y).Nonneg := by
  unfold pow
  by_cases hy : y = .zero y.isNegative
  · rw [if_pos hy, ofRatio]
    exact nonneg_ofUnits fun h => absurd h (by simp)
  rw [if_neg hy]
  cases x with
  | nan => exact .nan
  | infinite s =>
    obtain rfl : s = false := h
    cases y.isNegative with
    | true => exact .zero
    | false => exact .infinite
  | finite s u hu =>
    obtain rfl : s = false := h
    by_cases units : u = 0
    · simp only [units, if_true]
      cases y.isNegative with
      | true => exact .infinite
      | false => exact .zero
    · simp only [units, if_false]
      generalize Power.exp (Power.timesLog y (Power.log u)) = z
      cases z with
      | finite t v hv => exact .positive
      | _ => exact .infinite

theorem add_ne_nan (hx : x.Nonneg) (hy : y.Nonneg) (hx' : x ≠ .nan) (hy' : y ≠ .nan) :
    x.add y ≠ .nan := by
  cases x with
  | nan => exact absurd rfl hx'
  | infinite s =>
    cases hx with
    | infinite =>
      cases hy with
      | nan => exact absurd rfl hy'
      | _ => simp [add]
  | finite s u hu =>
    cases y with
    | nan => exact absurd rfl hy'
    | infinite t => simp [add]
    | finite t v hv =>
      rw [add_finite, ofSignedUnits]
      exact ofUnits_ne_nan

/-- A product of numbers is one, unless an infinity meets a zero. -/
theorem mul_ne_nan (hx : x ≠ .nan) (hy : y ≠ .nan) (hxy : x.Finite ∨ ¬ y.IsZero)
    (hyx : y.Finite ∨ ¬ x.IsZero) : x.mul y ≠ .nan := by
  cases x with
  | nan => exact absurd rfl hx
  | infinite s =>
    cases y with
    | nan => exact absurd rfl hy
    | infinite t => simp [mul]
    | finite t v hv =>
      rcases hxy with h | h
      · cases h
      · have units : v ≠ 0 := by
          rintro rfl
          exact h .intro
        simp [mul, units]
  | finite s u hu =>
    cases y with
    | nan => exact absurd rfl hy
    | infinite t =>
      rcases hyx with h | h
      · cases h
      · have units : u ≠ 0 := by
          rintro rfl
          exact h .intro
        simp [mul, units]
    | finite t v hv =>
      rw [mul_finite]
      exact ofUnits_ne_nan

theorem Finite.add_zero (h : x.Finite) (s : Bool) : (x.add (.zero s)).Finite := by
  cases h with
  | @intro t u hu =>
    have sum : signedUnits t u + signedUnits s 0 = signedUnits t u := by
      cases s <;> simp [signedUnits]
    rw [Binary64.zero, add_finite, sum]
    exact finite_ofSignedUnits hu t

theorem Finite.zero_add (h : x.Finite) (s : Bool) : ((Binary64.zero s).add x).Finite := by
  cases h with
  | @intro t u hu =>
    have sum : signedUnits s 0 + signedUnits t u = signedUnits t u := by
      cases s <;> simp [signedUnits]
    rw [Binary64.zero, add_finite, sum]
    exact finite_ofSignedUnits hu t

theorem Finite.mul_share (hx : x.Finite) (hy : y.AtMostOne) : (x.mul y).Finite := by
  cases hx with
  | @intro s u hu =>
    cases hy with
    | @intro t v hv le =>
      have within : roundUnits (u * v) one ≤ u :=
        roundUnits_le one_pos hu (Nat.mul_le_mul_left u le)
      rw [mul_finite]
      exact finite_ofUnits (representable_roundUnits (Nat.lt_of_le_of_lt within hu.1))

/-! ## Whole numbers as doubles -/

theorem finite?_eq_some (h : x.finite? = some y) : x = y ∧ y.Finite := by
  cases x with
  | finite s u hu =>
    obtain rfl := Option.some.inj h
    exact ⟨rfl, .intro⟩
  | _ => exact absurd h (by simp [finite?])

theorem ofInt?_eq_some (h : ofInt? n = some x) :
    ∃ hu, x = .finite (decide (n < 0)) (roundUnits (n.natAbs * one) 1) hu := by
  obtain ⟨e, finite⟩ := finite?_eq_some h
  rcases ofUnits_cases (decide (n < 0)) (n.natAbs * one) 1 with e' | ⟨hu, e'⟩
  · rw [show x = .infinite _ from e.symm.trans e'] at finite
    cases finite
  · exact ⟨hu, e.symm.trans e'⟩

theorem finite_ofInt? (h : ofInt? n = some x) : x.Finite := (finite?_eq_some h).2

theorem nonneg_ofInt? (h : ofInt? n = some x) (low : 0 ≤ n) : x.Nonneg := by
  obtain ⟨hu, rfl⟩ := ofInt?_eq_some h
  rw [decide_eq_false (Int.not_lt.mpr low)]
  exact .positive

theorem eq_zero_of_ofInt? (h : ofInt? n = some x) (zero : x.IsZero) : n = 0 := by
  obtain ⟨hu, rfl⟩ := ofInt?_eq_some h
  generalize units : roundUnits (n.natAbs * one) 1 = u at hu zero
  cases zero
  refine Decidable.byContradiction fun nonzero => ?_
  have pos : 0 < roundUnits (n.natAbs * one) 1 :=
    roundUnits_pos Nat.one_pos (Nat.mul_pos (Int.natAbs_pos.mpr nonzero) one_pos)
  exact Nat.ne_of_gt pos units

theorem representable_one : Representable one := by decide +kernel

theorem atMostOne_ofInt? (h : ofInt? n = some x) (high : n.natAbs ≤ 1) : x.AtMostOne := by
  obtain ⟨hu, rfl⟩ := ofInt?_eq_some h
  have within : n.natAbs * one ≤ one * 1 := by
    rw [Nat.mul_comm n.natAbs]
    exact Nat.mul_le_mul_left one high
  exact .intro (roundUnits_le Nat.one_pos representable_one within)

end Binary64

end Retry
