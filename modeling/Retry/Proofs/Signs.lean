import Retry.Proofs.Doubles

/-!
# Numbers that are not negative

A number is not below zero (`Nonneg`) if it is not less than zero, so a NaN is one too: the
checks on settings ask for no more (`nonneg_iff`). Whatever forms the operands have, sums,
products, differences from zero and powers of what is at least one keep it, for each of them
is an operation on whole numbers or one on doubles (`combine_cases`, `pow?_cases`).

Of two numbers that are no NaN, one lies below the other or they lie the other way round
(`le_of_not_lt`), so what is not below zero and no NaN lies at zero or past it (`Nonneg.le`).
-/

namespace Retry

namespace Number

/-- Not below zero; a NaN is not. -/
inductive Nonneg : Number → Prop where
  | truth {b : Bool} : Nonneg (.truth b)
  | whole {n : Int} (h : 0 ≤ n) : Nonneg (.whole n)
  | double {x : Binary64} (h : x.Nonneg) : Nonneg (.double x)

/-- Neither a NaN nor an infinity. -/
inductive Finite : Number → Prop where
  | truth {b : Bool} : Finite (.truth b)
  | whole {n : Int} : Finite (.whole n)
  | double {x : Binary64} (h : x.Finite) : Finite (.double x)

/-- A zero of any form. -/
inductive IsZero : Number → Prop where
  | truth : IsZero (.truth false)
  | whole : IsZero (.whole 0)
  | double {x : Binary64} (h : x.IsZero) : IsZero (.double x)

/-- A magnitude of at most one. -/
inductive AtMostOne : Number → Prop where
  | truth {b : Bool} : AtMostOne (.truth b)
  | whole {n : Int} (h : n.natAbs ≤ 1) : AtMostOne (.whole n)
  | double {x : Binary64} (h : x.AtMostOne) : AtMostOne (.double x)

abbrev nan : Number := .double .nan

variable {a b c : Number} {x y : Binary64} {n : Int}

/-! ## The order, where a NaN takes part or none does -/

theorem lt_nan (a : Number) : a.lt nan = false := by
  unfold lt
  cases a.position? <;> rfl

theorem position?_nan : position? nan = none := rfl

theorem nan_lt (a : Number) : nan.lt a = false := rfl

theorem exists_position (h : a ≠ nan) : ∃ p, a.position? = some p := by
  cases a with
  | truth b => exact ⟨_, rfl⟩
  | whole n => exact ⟨_, rfl⟩
  | double x =>
    cases x with
    | nan => exact absurd rfl h
    | infinite s => exact ⟨_, rfl⟩
    | finite s u hu => exact ⟨_, rfl⟩

theorem same_self (h : a ≠ nan) : a.same a = true := by
  obtain ⟨p, hp⟩ := exists_position h
  simp [same, hp]

theorem Position.lt_or_eq {p q : Binary64.Position} (h : p.lt q = false) :
    q.lt p = true ∨ q = p := by
  cases p <;> cases q <;> simp_all [Binary64.Position.lt] <;> omega

theorem Position.not_lt_trans {p q r : Binary64.Position} (h : p.lt q = false)
    (h' : q.lt r = false) : p.lt r = false := by
  cases p <;> cases q <;> cases r <;> simp_all [Binary64.Position.lt] <;> omega

/-- Two numbers that are not one below the other lie the other way round. -/
theorem le_of_not_lt (ha : a ≠ nan) (hb : b ≠ nan) (h : a.lt b = false) : b.le a = true := by
  obtain ⟨p, hp⟩ := exists_position ha
  obtain ⟨q, hq⟩ := exists_position hb
  simp only [lt, hp, hq] at h
  simpa [le, lt, same, hp, hq] using Position.lt_or_eq h

theorem not_lt_of_le (h : a.le b = true) : b.lt a = false := by
  unfold le lt same at *
  cases ha : a.position? <;> cases hb : b.position? <;> simp_all
  rcases h with h | rfl
  · exact Position.lt_asymm h
  · exact Binary64.Position.lt_irrefl _

theorem not_lt_trans (hb : b ≠ nan) (h : a.lt b = false) (h' : b.lt c = false) :
    a.lt c = false := by
  obtain ⟨q, hq⟩ := exists_position hb
  unfold lt at *
  cases ha : a.position? <;> cases hc : c.position? <;> simp_all
  exact Position.not_lt_trans h h'

theorem ne_nan_of_le (h : a.le b = true) : a ≠ nan ∧ b ≠ nan := by
  refine ⟨?_, ?_⟩ <;> rintro rfl
  · exact absurd h (by simp [le, lt, same, position?_nan])
  · unfold le lt same at h
    cases a.position? <;> simp [position?_nan] at h

/-! ## Signs -/

theorem lt_zero_finite (s : Bool) {u : Nat} (h : Binary64.Representable u) :
    (double (.finite s u h)).lt 0 = decide (Binary64.signedUnits s u < 0) := by
  show decide (_ < 0 * (Binary64.one : Int)) = _
  rw [Int.zero_mul]

theorem nonneg_iff : a.Nonneg ↔ a.lt 0 = false := by
  cases a with
  | truth b =>
    refine ⟨fun _ => ?_, fun _ => .truth⟩
    cases b <;> decide +kernel
  | whole n =>
    rw [show (0 : Number) = .whole 0 from rfl, lt_whole, decide_eq_false_iff_not, Int.not_lt]
    exact ⟨fun h => by cases h; assumption, .whole⟩
  | double x =>
    cases x with
    | nan => exact ⟨fun _ => nan_lt 0, fun _ => .double .nan⟩
    | infinite s =>
      cases s with
      | false => exact ⟨fun _ => rfl, fun _ => .double .infinite⟩
      | true =>
        refine ⟨fun h => ?_, fun h => absurd h Bool.noConfusion⟩
        cases h with | double h => cases h
    | finite s u hu =>
      rw [lt_zero_finite, decide_eq_false_iff_not]
      refine ⟨fun h => ?_, fun h => .double ?_⟩
      · cases h with | double h => exact Int.not_lt.mpr (Binary64.signedUnits_nonneg h)
      · cases s with
        | false => exact .positive
        | true =>
          obtain rfl : u = 0 := by
            simp only [Binary64.signedUnits, if_true] at h
            omega
          exact .zero

theorem Nonneg.of_not_lt (h : a.lt b = false) (hb : b.Nonneg) (hb' : b ≠ nan) : a.Nonneg :=
  nonneg_iff.mpr (not_lt_trans hb' h (nonneg_iff.mp hb))

theorem Nonneg.le (h : a.Nonneg) (ha : a ≠ nan) : Number.le 0 a = true :=
  le_of_not_lt ha (by decide) (nonneg_iff.mp h)

theorem Finite.ne_nan (h : a.Finite) : a ≠ nan := by
  rintro rfl
  cases h with | double h => cases h

theorem IsZero.not_pos (h : a.IsZero) : Number.lt 0 a = false := by
  cases h with
  | truth => decide +kernel
  | whole => decide +kernel
  | double h =>
    cases h with
    | @intro s hu =>
      show decide (0 * (Binary64.one : Int) < Binary64.signedUnits s 0) = false
      rw [Int.zero_mul, show Binary64.signedUnits s 0 = 0 by cases s <;> rfl]
      rfl

/-- What lies between zero and one has a magnitude of at most one. -/
theorem atMostOne_of_le (low : Number.le 0 a = true) (high : a.le 1 = true) : a.AtMostOne := by
  have nonneg : a.Nonneg := nonneg_iff.mpr (not_lt_of_le low)
  have below : Number.lt 1 a = false := not_lt_of_le high
  cases nonneg with
  | truth => exact .truth
  | @whole n h =>
    rw [show (1 : Number) = .whole 1 from rfl, lt_whole, decide_eq_false_iff_not] at below
    exact .whole (by omega)
  | double h =>
    refine .double ?_
    cases h with
    | nan => exact absurd rfl (ne_nan_of_le low).2
    | infinite => exact absurd below Bool.noConfusion
    | zero => exact .intro (Nat.zero_le _)
    | @positive u hu =>
      have units : ¬ 1 * (Binary64.one : Int) < u := by
        refine of_decide_eq_false ?_
        exact below
      rw [Int.one_mul] at units
      exact .intro (Int.ofNat_le.mp (Int.not_lt.mp units))

/-! ## The forms of a number -/

theorem Nonneg.whole? (h : a.Nonneg) (ha : a.whole? = some n) : 0 ≤ n := by
  cases h with
  | @truth b =>
    obtain rfl := Option.some.inj ha
    cases b <;> decide
  | whole h =>
    obtain rfl := Option.some.inj ha
    exact h
  | double => exact absurd ha (by simp [Number.whole?])

/-- A number that has a double near it is that double, or is rounded to it. -/
theorem toDouble?_cases (h : a.toDouble? = some x) :
    a = .double x ∨ ∃ n, a.whole? = some n ∧ Binary64.ofInt? n = some x := by
  cases a with
  | truth b => exact .inr ⟨_, rfl, h⟩
  | whole n => exact .inr ⟨n, rfl, h⟩
  | double y => exact .inl (congrArg _ (Option.some.inj h))

theorem Nonneg.toDouble? (h : a.Nonneg) (ha : a.toDouble? = some x) : x.Nonneg := by
  rcases toDouble?_cases ha with rfl | ⟨n, hn, hx⟩
  · cases h with | double h => exact h
  · exact Binary64.nonneg_ofInt? hx (h.whole? hn)

theorem Finite.toDouble? (h : a.Finite) (ha : a.toDouble? = some x) : x.Finite := by
  rcases toDouble?_cases ha with rfl | ⟨n, hn, hx⟩
  · cases h with | double h => exact h
  · exact Binary64.finite_ofInt? hx

theorem toDouble?_ne_nan (h : a ≠ nan) (ha : a.toDouble? = some x) : x ≠ .nan := by
  rcases toDouble?_cases ha with rfl | ⟨n, hn, hx⟩
  · exact fun e => h (congrArg _ e)
  · exact (Binary64.finite_ofInt? hx).ne_nan

theorem isZero_of_toDouble? (h : x.IsZero) (ha : a.toDouble? = some x) : a.IsZero := by
  rcases toDouble?_cases ha with rfl | ⟨n, hn, hx⟩
  · exact .double h
  · obtain rfl := Binary64.eq_zero_of_ofInt? hx h
    cases a with
    | truth b =>
      cases b with
      | false => exact .truth
      | true => exact absurd (Option.some.inj hn) (by decide)
    | whole n =>
      obtain rfl := Option.some.inj hn
      exact .whole
    | double y => exact absurd hn (by simp [Number.whole?])

theorem AtMostOne.toDouble? (h : a.AtMostOne) (ha : a.toDouble? = some x) : x.AtMostOne := by
  cases h with
  | @truth b =>
    refine Binary64.atMostOne_ofInt? ha ?_
    cases b <;> decide
  | whole h => exact Binary64.atMostOne_ofInt? ha h
  | double h =>
    obtain rfl := Option.some.inj ha
    exact h

theorem toDouble?_zero : (0 : Number).toDouble? = some (.zero false) := by decide +kernel

/-! ## What is calculated -/

theorem combine_cases {onWhole : Int → Int → Int} {onDouble : Binary64 → Binary64 → Binary64}
    (h : combine onWhole onDouble a b = some c) :
    (∃ m n, a.whole? = some m ∧ b.whole? = some n ∧ c = .whole (onWhole m n)) ∨
      ∃ x y, a.toDouble? = some x ∧ b.toDouble? = some y ∧ c = .double (onDouble x y) := by
  have doubled (h : (do return .double (onDouble (← a.toDouble?) (← b.toDouble?)) : Option Number) =
      some c) : ∃ x y, a.toDouble? = some x ∧ b.toDouble? = some y ∧
        c = .double (onDouble x y) := by
    cases hx : a.toDouble? with
    | none => exact absurd h (by simp [hx])
    | some x =>
      cases hy : b.toDouble? with
      | none => exact absurd h (by simp [hx, hy])
      | some y => exact ⟨x, y, rfl, rfl, by simpa [hx, hy, eq_comm] using h⟩
  unfold combine at h
  cases ha : a.whole? with
  | none => exact .inr (doubled (by simpa [ha] using h))
  | some m =>
    cases hb : b.whole? with
    | none => exact .inr (doubled (by simpa [ha, hb] using h))
    | some n => exact .inl ⟨m, n, rfl, rfl, by simpa [ha, hb, eq_comm] using h⟩

theorem Nonneg.add? (ha : a.Nonneg) (hb : b.Nonneg) (h : a.add? b = some c) : c.Nonneg := by
  rcases combine_cases h with ⟨m, n, hm, hn, rfl⟩ | ⟨x, y, hx, hy, rfl⟩
  · exact .whole (Int.add_nonneg (ha.whole? hm) (hb.whole? hn))
  · exact .double ((ha.toDouble? hx).add (hb.toDouble? hy))

theorem Nonneg.mul? (ha : a.Nonneg) (hb : b.Nonneg) (h : a.mul? b = some c) : c.Nonneg := by
  rcases combine_cases h with ⟨m, n, hm, hn, rfl⟩ | ⟨x, y, hx, hy, rfl⟩
  · exact .whole (Int.mul_nonneg (ha.whole? hm) (hb.whole? hn))
  · exact .double ((ha.toDouble? hx).mul (hb.toDouble? hy))

theorem Nonneg.sub_zero (ha : a.Nonneg) (h : a.sub? 0 = some c) : c.Nonneg := by
  rcases combine_cases h with ⟨m, n, hm, hn, rfl⟩ | ⟨x, y, hx, hy, rfl⟩
  · have low := ha.whole? hm
    obtain rfl : 0 = n := Option.some.inj hn
    exact .whole (by omega)
  · obtain rfl := Option.some.inj (toDouble?_zero.symm.trans hy)
    exact .double ((ha.toDouble? hx).add .zero)

theorem Finite.sub_zero (ha : a.Finite) (h : a.sub? 0 = some c) : c.Finite := by
  rcases combine_cases h with ⟨m, n, hm, hn, rfl⟩ | ⟨x, y, hx, hy, rfl⟩
  · exact .whole
  · obtain rfl := Option.some.inj (toDouble?_zero.symm.trans hy)
    exact .double ((ha.toDouble? hx).add_zero true)

theorem Finite.zero_add (ha : a.Finite) (h : Number.add? 0 a = some c) : c.Finite := by
  rcases combine_cases h with ⟨m, n, hm, hn, rfl⟩ | ⟨x, y, hx, hy, rfl⟩
  · exact .whole
  · obtain rfl := Option.some.inj (toDouble?_zero.symm.trans hx)
    exact .double ((ha.toDouble? hy).zero_add false)

theorem Finite.mul_share (ha : a.Finite) (hb : b.AtMostOne) (h : a.mul? b = some c) :
    c.Finite := by
  rcases combine_cases h with ⟨m, n, hm, hn, rfl⟩ | ⟨x, y, hx, hy, rfl⟩
  · exact .whole
  · exact .double ((ha.toDouble? hx).mul_share (hb.toDouble? hy))

theorem add?_ne_nan (ha : a.Nonneg) (hb : b.Nonneg) (ha' : a ≠ nan) (hb' : b ≠ nan)
    (h : a.add? b = some c) : c ≠ nan := by
  rcases combine_cases h with ⟨m, n, hm, hn, rfl⟩ | ⟨x, y, hx, hy, rfl⟩
  · simp
  · have sum := Binary64.add_ne_nan (ha.toDouble? hx) (hb.toDouble? hy) (toDouble?_ne_nan ha' hx)
      (toDouble?_ne_nan hb' hy)
    simpa using sum

/-- A product of numbers is one, unless an infinity meets a zero. -/
theorem mul?_ne_nan (ha : a ≠ nan) (hb : b ≠ nan) (hab : a.Finite ∨ ¬ b.IsZero)
    (hba : b.Finite ∨ ¬ a.IsZero) (h : a.mul? b = some c) : c ≠ nan := by
  rcases combine_cases h with ⟨m, n, hm, hn, rfl⟩ | ⟨x, y, hx, hy, rfl⟩
  · simp
  · have product := Binary64.mul_ne_nan (toDouble?_ne_nan ha hx) (toDouble?_ne_nan hb hy)
      (hab.imp (·.toDouble? hx) fun nonzero zero => nonzero (isZero_of_toDouble? zero hy))
      (hba.imp (·.toDouble? hy) fun nonzero zero => nonzero (isZero_of_toDouble? zero hx))
    simpa using product

theorem nan_add? (h : nan.add? b = some c) : c = nan := by
  rcases combine_cases h with ⟨m, n, hm, hn, rfl⟩ | ⟨x, y, hx, hy, rfl⟩
  · exact absurd hm (by simp [Number.whole?])
  · obtain rfl := Option.some.inj hx
    rfl

theorem min_cases (a b : Number) : a.min b = a ∨ (a.min b = b ∧ b.lt a = true) := by
  unfold min
  cases b.lt a <;> simp

theorem Finite.lt (ha : a.Finite) (hb : b.Nonneg) (hb' : b ≠ nan) (infinite : ¬ b.Finite) :
    a.lt b = true := by
  cases hb with
  | truth => exact absurd .truth infinite
  | whole => exact absurd .whole infinite
  | double h =>
    cases h with
    | nan => exact absurd rfl hb'
    | zero => exact absurd (.double .intro) infinite
    | positive => exact absurd (.double .intro) infinite
    | infinite =>
      cases ha with
      | truth => rfl
      | whole => rfl
      | double h => cases h; rfl

theorem Finite.min (hb : b.Finite) (ha : a.Nonneg) (ha' : a ≠ nan) : (a.min b).Finite := by
  by_cases finite : a.Finite
  · rcases min_cases a b with h | ⟨h, -⟩ <;> rw [h]
    · exact finite
    · exact hb
  · rw [Number.min, hb.lt ha ha' finite, if_pos rfl]
    exact hb

/-! ## Powers of what is at least one -/

theorem wholePow_nonneg {m : Int} (h : 0 ≤ m) (n : Nat) : 0 ≤ wholePow m n := by
  rw [wholePow_eq]
  exact Int.pow_nonneg h

theorem whole?_of_not_lt_one (h : a.lt 1 = false) {m : Int} (ha : a.whole? = some m) : 1 ≤ m := by
  cases a with
  | truth b =>
    cases b with
    | true =>
      obtain rfl := Option.some.inj ha
      decide
    | false => exact absurd h (by decide +kernel)
  | whole n =>
    obtain rfl := Option.some.inj ha
    rw [show (1 : Number) = .whole 1 from rfl, lt_whole, decide_eq_false_iff_not] at h
    exact Int.not_lt.mp h
  | double x => exact absurd ha (by simp [Number.whole?])

theorem isNegative_of_not_lt_one (h : a.lt 1 = false) (ha : a.toDouble? = some x) :
    x.isNegative = false := by
  rcases toDouble?_cases ha with rfl | ⟨n, hn, hx⟩
  · cases x with
    | nan => rfl
    | infinite s =>
      cases s with
      | false => rfl
      | true => exact absurd h Bool.noConfusion
    | finite s u hu =>
      cases s with
      | false => rfl
      | true =>
        have units : ¬ -(u : Int) < 1 * (Binary64.one : Int) := by
          refine of_decide_eq_false ?_
          exact h
        have one : (0 : Int) < Binary64.one := Int.natCast_pos.mpr Binary64.one_pos
        omega
  · obtain ⟨hu, rfl⟩ := Binary64.ofInt?_eq_some hx
    have := whole?_of_not_lt_one h hn
    exact decide_eq_false (by omega)

/-- What a power is: one of whole numbers, or one of doubles. -/
theorem pow?_cases (h : a.pow? n = some c) :
    (∃ m, a.whole? = some m ∧ c = .whole (wholePow m n.toNat)) ∨
      ∃ x y, a.toDouble? = some x ∧ c = .double (x.pow y) := by
  have doubled (h : (do return .double (← doublePow? (← a.toDouble?) (← Binary64.ofInt? n)) :
      Option Number) = some c) : ∃ x y, a.toDouble? = some x ∧ c = .double (x.pow y) := by
    cases hx : a.toDouble? with
    | none => exact absurd h (by simp [hx])
    | some x =>
      cases hy : Binary64.ofInt? n with
      | none => exact absurd h (by simp [hx, hy])
      | some y =>
        refine ⟨x, y, rfl, ?_⟩
        simp only [hx, hy, Option.bind_eq_bind, Option.bind_some, doublePow?] at h
        split at h
        · exact absurd h (by simp)
        · simpa [eq_comm] using h
  unfold pow? at h
  cases ha : a.whole? with
  | none => exact .inr (doubled (by simpa [ha] using h))
  | some m =>
    cases hn : decide (0 ≤ n) with
    | false => exact .inr (doubled (by simpa [ha, hn] using h))
    | true =>
      obtain rfl : .whole (wholePow m n.toNat) = c := by simpa [ha, hn] using h
      exact .inl ⟨m, rfl, rfl⟩

theorem nonneg_pow? (ha : a.lt 1 = false) (h : a.pow? n = some c) : c.Nonneg := by
  rcases pow?_cases h with ⟨m, hm, rfl⟩ | ⟨x, y, hx, rfl⟩
  · have low := whole?_of_not_lt_one ha hm
    exact .whole (wholePow_nonneg (by omega) _)
  · exact .double (Binary64.nonneg_pow (isNegative_of_not_lt_one ha hx) y)

theorem pow?_ne_nan (ha : a ≠ nan) (h : a.pow? n = some c) : c ≠ nan := by
  rcases pow?_cases h with ⟨m, hm, rfl⟩ | ⟨x, y, hx, rfl⟩
  · simp
  · simpa using Binary64.pow_ne_nan (toDouble?_ne_nan ha hx) y

end Number

end Retry
