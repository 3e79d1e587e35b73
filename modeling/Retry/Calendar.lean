/-!
# The Gregorian calendar

Days are counted from 1 January 1970, years run through zero into the negative.
`Date.ofDays` finds the year from an estimate that is off by at most one
(`daysBeforeYear_yearOf`) and then walks through the lengths of its months;
`Date.toDays` counts forward.
-/

namespace Retry

/-- A day of the Gregorian calendar. -/
structure Date where
  year : Int
  month : Nat
  day : Nat
  deriving DecidableEq, Repr

namespace Date

/-- Every fourth year is a leap year, but of the hundreds only every fourth. -/
def isLeap (year : Int) : Bool := year % 4 = 0 && (year % 100 != 0 || year % 400 = 0)

/-- The lengths of the twelve months of a year. -/
def monthLengths (year : Int) : List Nat :=
  [31, if isLeap year then 29 else 28, 31, 30, 31, 30, 31, 31, 30, 31, 30, 31]

/-- The days from 1 January 1970 to 1 January of a year: 365 for every year
between, and one for every leap year. -/
def daysBeforeYear (year : Int) : Int :=
  365 * (year - 1970) + (year - 1) / 4 - (year - 1) / 100 + (year - 1) / 400 - 477

/-- The year of a day, from the average length of a year and a correction. -/
def yearOf (days : Int) : Int :=
  let estimate := 1970 + days * 400 / 146097
  if days < daysBeforeYear estimate then estimate - 1
  else if daysBeforeYear (estimate + 1) ≤ days then estimate + 1
  else estimate

/-- Walks through months of the given lengths: the month and the day of the
month, both counted from `month` and one. -/
def walk (month : Nat) : List Nat → Nat → Nat × Nat
  | [], days => (month, days + 1)
  | length :: rest, days =>
    if days < length then (month, days + 1) else walk (month + 1) rest (days - length)

def ofDays (days : Int) : Date :=
  let year := yearOf days
  let (month, day) := walk 1 (monthLengths year) (days - daysBeforeYear year).toNat
  ⟨year, month, day⟩

def toDays (d : Date) : Int :=
  let months : Nat := ((monthLengths d.year).take (d.month - 1)).foldl (· + ·) 0
  daysBeforeYear d.year + months + (d.day - 1 : Nat)

/-- The days before a year stay close to the average length of a year. -/
theorem daysBeforeYear_bounds (year : Int) :
    146097 * (year - 1970) - 400 * 2 ≤ 400 * daysBeforeYear year ∧
      400 * daysBeforeYear year ≤ 146097 * (year - 1970) + 400 * 2 := by
  unfold daysBeforeYear; omega

theorem daysBeforeYear_yearOf (days : Int) :
    daysBeforeYear (yearOf days) ≤ days ∧ days < daysBeforeYear (yearOf days + 1) := by
  unfold yearOf
  dsimp only
  generalize hy : 1970 + days * 400 / 146097 = y
  have below := daysBeforeYear_bounds (y - 1)
  have above := daysBeforeYear_bounds (y + 1 + 1)
  split
  · rw [Int.sub_add_cancel]; omega
  · split <;> omega

end Date

end Retry
