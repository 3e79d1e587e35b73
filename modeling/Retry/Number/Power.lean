import Retry.Number.Binary64
import Retry.Number.FixedPoint

/-!
# Powers of doubles

The power of a positive double is the exponential of a logarithm times the exponent.
The logarithm has more digits than a double can hold, so it is a *pair*: a double and a
small second one that holds the rest. Both functions look up a value nearby (the
logarithm of a simple fraction, a root of two) and correct it by a short polynomial, and
every step is one rounding of doubles. The result misses the exact power by little more
than half a unit in the last place, so it is nearly always the nearest double, but not
always: which of the two neighbours it is, is settled by the steps as they stand here.

Main statements: `pow_zero` (everything to the power zero is one), `pow_ne_nan` (only a
NaN has a power that is one).
-/

namespace Retry.Binary64

namespace Power

def dyadic (m : Int) (e : Nat) : Binary64 := ofRatio (decide (m < 0)) m.natAbs (2 ^ e)

/-- The double nearest to a fixed-point value over a divisor. -/
def ofFixedPoint (v : Int) (divisor : Nat) : Binary64 :=
  ofRatio (decide (v < 0)) v.natAbs (FixedPoint.one.natAbs * divisor)

/-- The whole number nearest to `num / den`, for a numerator with a sign. -/
def roundSigned (num : Int) (den : Nat) : Int :=
  if num < 0 then -roundHalfEven num.natAbs den else roundHalfEven num.natAbs den

/-! ## Pairs -/

/-- A number as the sum of a double and a much smaller one. -/
structure Pair where
  high : Binary64
  low : Binary64

/-- The rounded sum, and what the rounding took away; exact if the first term is the larger. -/
def twoSum (x y : Binary64) : Pair :=
  let sum := x + y
  ⟨sum, x - sum + y⟩

/-- The rounded product, and what the rounding took away. -/
def twoProduct (x y : Binary64) : Pair :=
  let product := x * y
  ⟨product, fma x y (-product)⟩

/-- A fixed-point value as a multiple of `2^-43` and the rest. -/
def split (v : Int) : Pair :=
  let coarse := roundSigned v (2 ^ 117)
  ⟨dyadic coarse 43, ofFixedPoint (v - coarse * 2 ^ 117) 1⟩

/-! ## Logarithms -/

/-- The natural logarithm of two in fixed point. -/
def lnTwo : Int := FixedPoint.ln 2 1

/-- The first significand, in units of `2^-52`, that counts as below one. -/
def wrap : Int := 0x16955500000000

/-- A positive double as `z · 2^exponent` with `z` around one. The offset of `z` from one
is counted in the spacing of the doubles there: `2^-52` above one and `2^-53` below. -/
structure Normal where
  offset : Int
  exponent : Int

def normal (units : Nat) : Normal :=
  let significand : Int := units * 2 ^ (52 - units.log2) / 2 ^ (units.log2 - 52)
  if significand < wrap then ⟨significand - 2 ^ 52, units.log2 - 1074⟩
  else ⟨significand - 2 ^ 53, units.log2 - 1073⟩

def fraction (offset : Int) : Nat × Nat :=
  if offset < 0 then ((2 ^ 53 + offset).toNat, 2 ^ 53) else ((2 ^ 52 + offset).toNat, 2 ^ 52)

/-- The middle of the interval of an offset. There are 128 intervals of `2^45` offsets. -/
def centre (offset : Int) : Int :=
  let lowest := wrap - 2 ^ 53
  lowest + (offset - lowest) / 2 ^ 45 * 2 ^ 45 + 2 ^ 44

/-- The reciprocal of a centre, in steps of `1/256`; above one the steps are twice as wide. -/
def reciprocal (centre : Int) : Nat :=
  let (num, den) := fraction centre
  if centre < 0 then 2 * roundHalfEven (128 * den) num else roundHalfEven (256 * den) num

/-- The polynomial that corrects a logarithm, after its first two terms: `r` is the
distance, `s` half its square with a minus sign. -/
def logCorrection (r s : Binary64) : Binary64 :=
  let a := fma r (dyadic 0x10000000000006 53) (dyadic (-0x15555555555560) 53)
  let b := fma r (dyadic (-0x1555555529a47a) 53) (dyadic 0x1999999959554e 53)
  let c := fma r (dyadic 0x10002b8b263fc3 52) (dyadic (-0x12495b9b4845e9) 52)
  fma s (fma s c b) a

/-- The logarithm of `2^exponent · (1 + r)` times a fraction whose logarithm is `near`. -/
def logOf (exponent : Binary64) (near : Pair) (r : Binary64) : Pair :=
  let two := split lnTwo
  let base := twoSum (fma exponent two.high near.high) r
  let half := dyadic (-1) 1 * r
  let square := twoProduct r half
  let high := twoSum base.high square.high
  let low := fma exponent two.low near.low + base.low + square.low + high.low
  twoSum high.high (fma (r * square.high) (logCorrection r square.high) low)

def log (units : Nat) : Pair :=
  let x := normal units
  let z := fraction x.offset
  let inverse := reciprocal (centre x.offset)
  logOf (dyadic x.exponent 0) (split (FixedPoint.ln 256 inverse))
    (fma (ofRatio false z.1 z.2) (dyadic inverse 8) (dyadic (-1) 0))

/-! ## Exponentials -/

/-- The root of two `2^(j/128)` in fixed point. -/
def root (j : Nat) : Int := FixedPoint.exp (lnTwo * j / 128)

/-- The significand of the double nearest to a root of two, in units of `2^-52`. -/
def rootSignificand (j : Nat) : Nat := roundHalfEven (root j).natAbs (2 ^ 108)

/-- By how much, relative to it, that double falls short of the root. -/
def rootTail (j : Nat) : Binary64 :=
  ofFixedPoint (root j * 2 ^ 52 - rootSignificand j * FixedPoint.one) (rootSignificand j)

/-- How many 128ths of the logarithm of two are nearest to a double. -/
def steps : Binary64 → Int
  | .finite s u _ =>
    match ofRatio false (128 * FixedPoint.one.natAbs) lnTwo.natAbs with
    | .finite _ v _ => roundSigned (signedUnits s (u * v)) (one * one)
    | _ => 0
  | _ => 0

/-- What is left of a number after `k` 128ths of the logarithm of two. -/
def remainder (x : Pair) (k : Int) : Binary64 :=
  let coarse := roundSigned lnTwo (2 ^ 124)
  let fine := ofFixedPoint (coarse * 2 ^ 124 - lnTwo) 128
  x.low + fma (dyadic k 0) fine (fma (dyadic k 0) (dyadic (-coarse) 43) x.high)

/-- The exponential of a small remainder times the tail of a root, less one. -/
def expCorrection (r tail : Binary64) : Binary64 :=
  let square := r * r
  let a := fma (dyadic 0x1555555555543c 55) r (dyadic 0x1ffffffffffdbd 54)
  let b := fma r (dyadic 0x11111167a4d017 59) (dyadic 0x155555cf172b91 57)
  fma b (square * square) (fma a square (r + tail))

/-- The double `2^(k/128)`, as far as a double can tell, times `2^shift`. -/
def scale (k shift : Int) : Binary64 :=
  let e := k / 128 + shift
  ofRatio false (rootSignificand (k % 128).toNat * 2 ^ e.toNat) (2 ^ 52 * 2 ^ (-e).toNat)

/-- Whether a double lies strictly between the whole numbers `-n` and `n`. -/
def within (n : Nat) : Binary64 → Bool
  | .finite _ u _ => decide (u < n * one)
  | _ => false

/-- A number below the normal doubles: `scale + product` is rounded as if one were added,
where the doubles have the spacing that the result needs. -/
def settle (scale product : Binary64) : Binary64 :=
  let sum := twoSum scale product
  if within 1 sum.high then
    let lifted := twoSum (dyadic 1 0) sum.high
    lifted.high + (lifted.low + sum.low) - dyadic 1 0
  else sum.high

/-- The exponential of a pair; past the doubles it is an infinity or zero. -/
def exp (x : Pair) : Binary64 :=
  if !within 1024 x.high then if x.high.isNegative then zero false else .infinite false
  else
    let k := steps x.high
    let correction := expCorrection (remainder x k) (rootTail (k % 128).toNat)
    if within 512 x.high then fma correction (scale k 0) (scale k 0)
    else if 0 ≤ k then
      fma correction (scale k (-1009)) (scale k (-1009)) * dyadic (2 ^ 1009) 0
    else settle (scale k 1022) (scale k 1022 * correction) * dyadic 1 1022

def timesLog (exponent : Binary64) (log : Pair) : Pair :=
  let product := twoProduct exponent log.high
  ⟨product.high, fma exponent log.low product.low⟩

end Power

def isOdd : Binary64 → Bool
  | .finite _ u _ => u % one = 0 && u / one % 2 = 1
  | _ => false

/-- The power with an exponent that is a whole number. Everything to the power zero is
one, also a NaN. -/
def pow (x y : Binary64) : Binary64 :=
  if y = zero y.isNegative then .ofRatio false 1 1
  else
    match x with
    | .nan => .nan
    | .infinite s => if y.isNegative then zero (s && y.isOdd) else .infinite (s && y.isOdd)
    | .finite s u _ =>
      if u = 0 then
        if y.isNegative then .infinite (s && y.isOdd) else zero (s && y.isOdd)
      else (Power.exp (Power.timesLog y (Power.log u))).withSign (s && y.isOdd)

theorem pow_zero (x : Binary64) (negative : Bool) : x.pow (zero negative) = ofRatio false 1 1 :=
  if_pos rfl

theorem ofRatio_ne_nan (negative : Bool) (num den : Nat) : ofRatio negative num den ≠ .nan := by
  unfold ofRatio ofUnits; dsimp only; split <;> simp

theorem withSign_ne_nan (negative : Bool) (x : Binary64) : x.withSign negative ≠ .nan := by
  cases x <;> simp [withSign]

theorem pow_ne_nan {x : Binary64} (h : x ≠ .nan) (y : Binary64) : x.pow y ≠ .nan := by
  unfold pow
  split
  · exact ofRatio_ne_nan _ _ _
  · cases x with
    | nan => exact absurd rfl h
    | infinite s => dsimp only; split <;> simp [zero]
    | finite s u hu =>
      dsimp only
      split
      · split <;> simp [zero]
      · exact withSign_ne_nan _ _

end Retry.Binary64
