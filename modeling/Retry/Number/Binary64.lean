/-!
# Binary64 numbers as counts of their smallest unit

A finite double is a whole number of units of `2^-1074`, so a magnitude is a
natural number here and the exact result of an operation on doubles is a
fraction of units. Comparing is comparing integers, adding is adding integers,
and every operation ends in one rounding, `roundUnits`, to the nearest double
with ties to the even significand.

All NaNs are one value. `representable_roundUnits` says that rounding lands on
a double (or past the last one), `roundUnits_of_representable` that a double is
its own rounding.
-/

-- Powers are those of the core library, whatever else is imported.
attribute [instance (2000), default_instance (20000)] instPowNat

namespace Retry

/-- The whole number nearest to `num / den`; a half goes to the even neighbour. -/
def roundHalfEven (num den : Nat) : Nat :=
  let below := num / den
  let rest := num % den
  if 2 * rest < den ∨ (2 * rest = den ∧ below % 2 = 0) then below else below + 1

namespace Binary64

def one : Nat := 2 ^ 1074

theorem one_pos : 0 < one := by
  unfold one
  exact Nat.two_pow_pos 1074

/-- The first magnitude past the doubles, `2^1024`, in units. -/
def limit : Nat := 2 ^ 2098

/-- The spacing of the doubles around `n` units is `2 ^ gridExponent n` units. -/
def gridExponent (n : Nat) : Nat := n.log2 - 52

/-- `n` units are a finite double: in range, and on the grid of its own binade. -/
def Representable (n : Nat) : Prop := n < limit ∧ n % 2 ^ gridExponent n = 0

instance (n : Nat) : Decidable (Representable n) := inferInstanceAs (Decidable (_ ∧ _))

/-- The grid point nearest to `num / den` units, ties to the even significand. -/
def roundUnits (num den : Nat) : Nat :=
  let grid := 2 ^ gridExponent (num / den)
  roundHalfEven num (den * grid) * grid

end Binary64

/-- A double: finite ones are a sign and a magnitude in units of `2^-1074`. -/
inductive Binary64 where
  | nan
  | infinite (negative : Bool)
  | finite (negative : Bool) (units : Nat) (representable : Binary64.Representable units)
  deriving DecidableEq

namespace Binary64

/-- The double of `num / den` units: the nearest one, an infinity past the range. -/
def ofUnits (negative : Bool) (num den : Nat) : Binary64 :=
  let units := roundUnits num den
  if h : Representable units then .finite negative units h else .infinite negative

/-- The double nearest to the fraction `num / den`. -/
def ofRatio (negative : Bool) (num den : Nat) : Binary64 := ofUnits negative (num * one) den

/-- The double nearest to a whole number of units; zero takes the sign `zeroNegative`. -/
def ofSignedUnits (zeroNegative : Bool) (units : Int) : Binary64 :=
  ofUnits (if units = 0 then zeroNegative else decide (units < 0)) units.natAbs 1

/-- A double, or nothing in the place of a NaN or an infinity. -/
def finite? : Binary64 → Option Binary64
  | .finite s u h => some (.finite s u h)
  | _ => none

/-- The double nearest to a whole number, or nothing when that is past the range. -/
def ofInt? (n : Int) : Option Binary64 := (ofRatio (decide (n < 0)) n.natAbs 1).finite?

theorem representable_zero : Representable 0 := by
  unfold Representable limit
  exact ⟨Nat.two_pow_pos 2098, Nat.zero_mod _⟩

def zero (negative : Bool) : Binary64 := .finite negative 0 representable_zero

/-- The value of a finite double as a signed count of units. -/
def signedUnits (negative : Bool) (units : Nat) : Int := if negative then -units else units

def isNegative : Binary64 → Bool
  | .nan => false
  | .infinite s => s
  | .finite s _ _ => s

def neg : Binary64 → Binary64
  | .nan => .nan
  | .infinite s => .infinite !s
  | .finite s u h => .finite (!s) u h

/-- The correctly rounded sum. Opposite infinities have none; a zero sum is
negative only if both terms are. -/
def add : Binary64 → Binary64 → Binary64
  | .nan, _ => .nan
  | _, .nan => .nan
  | .infinite s, .infinite t => if s = t then .infinite s else .nan
  | .infinite s, .finite _ _ _ => .infinite s
  | .finite _ _ _, .infinite t => .infinite t
  | .finite s u _, .finite t v _ => ofSignedUnits (s && t) (signedUnits s u + signedUnits t v)

def sub (x y : Binary64) : Binary64 := add x (neg y)

/-- The correctly rounded product. An infinity times zero has none. -/
def mul : Binary64 → Binary64 → Binary64
  | .nan, _ => .nan
  | _, .nan => .nan
  | .infinite s, .infinite t => .infinite (s != t)
  | .infinite s, .finite t v _ => if v = 0 then .nan else .infinite (s != t)
  | .finite s u _, .infinite t => if u = 0 then .nan else .infinite (s != t)
  | .finite s u _, .finite t v _ => ofUnits (s != t) (u * v) one

/-- The correctly rounded `x · y + z`, with a single rounding. A zero is negative only
if both terms are. -/
def fma (x y z : Binary64) : Binary64 :=
  match x, y, z with
  | .finite s u _, .finite t v _, .finite r w _ =>
    let sum := signedUnits (s != t) (u * v) + signedUnits r (w * one)
    ofUnits (if sum = 0 then (s != t) && r else decide (sum < 0)) sum.natAbs one
  | x, y, z => add (mul x y) z

instance : Neg Binary64 := ⟨neg⟩

instance : Add Binary64 := ⟨add⟩

instance : Sub Binary64 := ⟨sub⟩

instance : Mul Binary64 := ⟨mul⟩

/-- The magnitude of a double with a sign of its own; what is not finite becomes an
infinity. -/
def withSign (negative : Bool) : Binary64 → Binary64
  | .finite _ u h => .finite negative u h
  | _ => .infinite negative

/-- Where a double lies on the line, in units; the infinities lie past every
finite value. A NaN lies nowhere. -/
inductive Position where
  | below
  | finite (units : Int)
  | above
  deriving DecidableEq

def position? : Binary64 → Option Position
  | .nan => none
  | .infinite s => some (if s then .below else .above)
  | .finite s u _ => some (.finite (signedUnits s u))

def Position.lt : Position → Position → Bool
  | .below, .below => false
  | .below, _ => true
  | .finite m, .finite n => decide (m < n)
  | .finite _, .above => true
  | _, _ => false

/-! ## Laws of rounding -/

theorem roundHalfEven_mul (q : Nat) {den : Nat} (h : 0 < den) :
    roundHalfEven (q * den) den = q := by
  simp [roundHalfEven, Nat.mul_div_cancel _ h, h]

theorem roundHalfEven_bounds (num den : Nat) :
    num / den ≤ roundHalfEven num den ∧ roundHalfEven num den ≤ num / den + 1 := by
  unfold roundHalfEven; dsimp only; split <;> omega

theorem div_grid_lt (n : Nat) : n / 2 ^ gridExponent n < 2 ^ 53 := by
  rcases Nat.eq_zero_or_pos n with rfl | hn
  · simp
  · rw [Nat.div_lt_iff_lt_mul (Nat.two_pow_pos _), ← Nat.pow_add]
    exact Nat.lt_of_lt_of_le ((Nat.log2_lt (by omega)).1 (Nat.lt_succ_self _))
      (Nat.pow_le_pow_right (by decide) (by unfold gridExponent; omega))

/-- A multiple of the grid with at most 53 bits above it lies on its own grid. -/
theorem mul_grid_mod {k g : Nat} (hk : k ≤ 2 ^ 53) :
    k * 2 ^ g % 2 ^ gridExponent (k * 2 ^ g) = 0 := by
  rcases Nat.eq_zero_or_pos k with rfl | hpos
  · simp
  have hne : k * 2 ^ g ≠ 0 := Nat.mul_ne_zero (by omega) (Nat.ne_of_gt (Nat.two_pow_pos g))
  rcases Nat.lt_or_ge k (2 ^ 53) with hlt | hge
  · have : (k * 2 ^ g).log2 < 53 + g := by
      rw [Nat.log2_lt hne, Nat.pow_add]
      exact Nat.mul_lt_mul_of_pos_right hlt (Nat.two_pow_pos g)
    exact Nat.mod_eq_zero_of_dvd
      (Nat.dvd_trans (Nat.pow_dvd_pow 2 (by unfold gridExponent; omega)) (Nat.dvd_mul_left _ _))
  · have hk' : k = 2 ^ 53 := Nat.le_antisymm hk hge
    subst hk'
    rw [← Nat.pow_add]
    have : (2 ^ (53 + g)).log2 = 53 + g := Nat.log2_two_pow
    exact Nat.mod_eq_zero_of_dvd (Nat.pow_dvd_pow 2 (by unfold gridExponent; omega))

theorem representable_roundUnits {num den : Nat} (h : roundUnits num den < limit) :
    Representable (roundUnits num den) := by
  refine ⟨h, ?_⟩
  unfold roundUnits
  apply mul_grid_mod
  have hb := (roundHalfEven_bounds num (den * 2 ^ gridExponent (num / den))).2
  rw [← Nat.div_div_eq_div_mul] at hb
  have := div_grid_lt (num / den)
  omega

theorem roundUnits_of_representable {n : Nat} (h : Representable n) : roundUnits n 1 = n := by
  have hd : 2 ^ gridExponent n ∣ n := Nat.dvd_of_mod_eq_zero h.2
  obtain ⟨k, hk⟩ := hd
  have hp : 0 < 2 ^ gridExponent n := Nat.two_pow_pos _
  unfold roundUnits
  simp only [Nat.div_one, Nat.one_mul]
  have : n = k * 2 ^ gridExponent n := by rw [Nat.mul_comm]; exact hk
  rw [show roundHalfEven n (2 ^ gridExponent n) = k from by
    conv => lhs; arg 1; rw [this]
    exact roundHalfEven_mul k hp]
  exact this.symm

/-- Rounding a finite double's units gives that double back. -/
theorem ofUnits_units (s : Bool) {n : Nat} (h : Representable n) :
    ofUnits s n 1 = .finite s n h := by
  simp [ofUnits, roundUnits_of_representable h, h]

theorem Position.lt_irrefl (p : Position) : p.lt p = false := by
  cases p <;> simp [Position.lt]

end Binary64

end Retry
