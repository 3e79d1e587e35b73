/-!
# Logarithms and exponentials in fixed point

A value is a whole number of units of `2^-160` here. `FixedPoint.ln` sums the series
of the inverse hyperbolic tangent, `FixedPoint.exp` that of the exponential function;
sixty terms of either are exact to a few units for fractions between one half and two
and for arguments between zero and one. `artanhTerms_zero` says that the logarithm of
one is zero exactly.
-/

-- Powers are those of the core library, whatever else is imported.
attribute [instance (2000), default_instance (20000)] instPowNat

namespace Retry.FixedPoint

def one : Int := 2 ^ 160

/-- The sum of `terms` terms of `t + t^3/3 + t^5/5 + …` for the fraction `t = num / den`,
from the one with the divisor `odd` on; `power` is its power of `t`. -/
def artanhTerms (num den : Int) : Nat → Int → Int → Int
  | 0, _, _ => 0
  | terms + 1, odd, power =>
    power / odd + artanhTerms num den terms (odd + 2) (power * (num * num) / (den * den))

/-- The natural logarithm of `a / b`, which is twice the inverse hyperbolic tangent of
`(a - b) / (a + b)`. -/
def ln (a b : Nat) : Int :=
  let num : Int := a - b
  let den : Int := a + b
  2 * artanhTerms num den 60 1 (num * one / den)

/-- The sum of `terms` terms of `1 + x + x^2/2! + …`, from the `k`-th on, which is `term`. -/
def expTerms (x : Int) : Nat → Nat → Int → Int
  | 0, _, _ => 0
  | terms + 1, k, term => term + expTerms x terms (k + 1) (term * x / (one * (k + 1)))

def exp (x : Int) : Int := expTerms x 60 0 one

theorem artanhTerms_zero (num den : Int) (terms : Nat) (odd : Int) :
    artanhTerms num den terms odd 0 = 0 := by
  induction terms generalizing odd with
  | zero => rfl
  | succ terms ih => simp [artanhTerms, ih]

theorem ln_self (a : Nat) : ln a a = 0 := by
  simp [ln, artanhTerms_zero]

end Retry.FixedPoint
