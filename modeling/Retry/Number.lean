import Retry.Number.Decimal
import Retry.Number.Power

/-!
# Numbers of settings: truth values, whole numbers and doubles

A limit, an interval or a multiplier may be given as a truth value, a whole
number of any size or a double. They mix freely: comparison is exact across the
three (`Number.lt_irrefl`, `Number.lt_asymm`), whole-number arithmetic is exact,
and as soon as a double takes part the other operand is converted and the
result rounded. A whole number past the doubles cannot be converted; such a step
has no result.
-/

namespace Retry

/-- A number as a setting gives it. Truth values count as one and zero. -/
inductive Number where
  | truth (b : Bool)
  | whole (n : Int)
  | double (x : Binary64)
  deriving DecidableEq

namespace Number

instance : Inhabited Number := ⟨.whole 0⟩

instance (n : Nat) : OfNat Number n := ⟨.whole n⟩

/-- The whole number behind a truth value or a whole number. -/
def whole? : Number → Option Int
  | .truth b => some (if b then 1 else 0)
  | .whole n => some n
  | .double _ => none

/-- The whole number that a number equals, if it equals one. -/
def integer? : Number → Option Int
  | .double (.finite s u _) =>
    if u % Binary64.one = 0 then some (Binary64.signedUnits s (u / Binary64.one)) else none
  | n => n.whole?

/-- The double nearest to a number; a whole number past the range has none. -/
def toDouble? : Number → Option Binary64
  | .truth b => Binary64.ofInt? (if b then 1 else 0)
  | .whole n => Binary64.ofInt? n
  | .double x => some x

/-- Where a number lies on the line; a NaN lies nowhere. -/
def position? : Number → Option Binary64.Position
  | .truth b => some (.finite ((if b then 1 else 0) * Binary64.one))
  | .whole n => some (.finite (n * Binary64.one))
  | .double x => x.position?

/-- The exact order. A NaN is neither below nor above anything. -/
def lt (a b : Number) : Bool :=
  match a.position?, b.position? with
  | some p, some q => p.lt q
  | _, _ => false

/-- Equality of values: `1`, `1.0` and true are equal, the zeros are equal, and a
NaN equals nothing. -/
def same (a b : Number) : Bool :=
  match a.position?, b.position? with
  | some p, some q => decide (p = q)
  | _, _ => false

def le (a b : Number) : Bool := a.lt b || a.same b

/-- The smaller of two numbers, as it was given; the first unless the second is below it. -/
def min (a b : Number) : Number := if b.lt a then b else a

def successor : Number → Number
  | .truth b => .whole ((if b then 1 else 0) + 1)
  | .whole n => .whole (n + 1)
  | .double x => .double (x + .ofRatio false 1 1)

/-- Applies the whole-number operation if both operands are whole, and the
operation on doubles otherwise. -/
def combine (onWhole : Int → Int → Int) (onDouble : Binary64 → Binary64 → Binary64)
    (a b : Number) : Option Number :=
  match a.whole?, b.whole? with
  | some m, some n => some (.whole (onWhole m n))
  | _, _ => do return .double (onDouble (← a.toDouble?) (← b.toDouble?))

/-- The sum, if both operands have a common form. -/
def add? : Number → Number → Option Number := combine (· + ·) Binary64.add

/-- The difference, if both operands have a common form. -/
def sub? : Number → Number → Option Number := combine (· - ·) Binary64.sub

/-- The product, if both operands have a common form. -/
def mul? : Number → Number → Option Number := combine (· * ·) Binary64.mul

/-- A power of doubles; none when it leaves the range of the finite doubles. -/
def doublePow? (x y : Binary64) : Option Binary64 :=
  match x, x.pow y with
  | .finite _ _ _, .infinite _ => none
  | _, z => some z

/-- A power of whole numbers. Those of one are not multiplied out, however large the
exponent is. -/
def wholePow (m : Int) (n : Nat) : Int := if m = 1 then 1 else m ^ n

theorem wholePow_eq (m : Int) (n : Nat) : wholePow m n = m ^ n := by
  unfold wholePow
  split
  · subst m; exact Int.one_pow.symm
  · rfl

/-- The power with a whole exponent: exact for whole numbers and exponents from
zero up, a double otherwise. -/
def pow? (a : Number) (n : Int) : Option Number :=
  match a.whole?, decide (0 ≤ n) with
  | some m, true => some (.whole (wholePow m n.toNat))
  | _, _ => do return .double (← doublePow? (← a.toDouble?) (← Binary64.ofInt? n))

def wholeText (n : Int) : List Char :=
  Binary64.signText (decide (n < 0)) ++ Nat.toDigits 10 n.natAbs

/-- The text of a number: a word, digits, or the shortest digits that read back. -/
def chars : Number → List Char
  | .truth b => if b then ['T', 'r', 'u', 'e'] else ['F', 'a', 'l', 's', 'e']
  | .whole n => wholeText n
  | .double x => x.text

def text (a : Number) : String := String.ofList a.chars

def typeName : Number → String
  | .truth _ => "bool"
  | .whole _ => "int"
  | .double _ => "float"

/-- The text with two decimals, if the number has a double near it. -/
def seconds? (a : Number) : Option String := do
  return String.ofList ((← a.toDouble?).fixed 2)

def optionText : Option Number → String
  | none => "None"
  | some a => a.text

/-! ## Order -/

theorem lt_irrefl (a : Number) : a.lt a = false := by
  unfold lt; cases a.position? <;> simp [Binary64.Position.lt_irrefl]

theorem Position.lt_asymm {p q : Binary64.Position} (h : p.lt q = true) : q.lt p = false := by
  cases p <;> cases q <;> simp_all [Binary64.Position.lt] <;> omega

theorem lt_asymm {a b : Number} (h : a.lt b = true) : b.lt a = false := by
  unfold lt at *
  cases ha : a.position? <;> cases hb : b.position? <;> simp_all
  exact Position.lt_asymm h

theorem lt_whole (m n : Int) : (whole m).lt (.whole n) = decide (m < n) := by
  have h : (0 : Int) < Binary64.one := Int.natCast_pos.mpr Binary64.one_pos
  show decide (m * Binary64.one < n * Binary64.one) = decide (m < n)
  rw [decide_eq_decide]
  exact Int.mul_lt_mul_right h

theorem le_whole (m n : Int) : (whole m).le (.whole n) = decide (m ≤ n) := by
  have h : (Binary64.one : Int) ≠ 0 :=
    Int.ne_of_gt (Int.natCast_pos.mpr Binary64.one_pos)
  have same : (whole m).same (.whole n) = decide (m = n) := by
    show decide (Binary64.Position.finite (m * Binary64.one) = .finite (n * Binary64.one)) = _
    rw [decide_eq_decide, Binary64.Position.finite.injEq]
    exact Int.mul_eq_mul_right_iff h
  rw [le, lt_whole, same, ← Bool.decide_or, decide_eq_decide]
  exact Int.le_iff_lt_or_eq.symm

/-- The smaller of two numbers is not above the second one. -/
theorem not_lt_min (a b : Number) : b.lt (a.min b) = false := by
  unfold min; split
  · exact lt_irrefl b
  · simp_all

end Number

end Retry
