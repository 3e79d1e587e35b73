import Mathlib.Algebra.Order.BigOperators.Group.List
import Mathlib.Algebra.Order.Ring.Nat
import Mathlib.Data.List.GetD
import Mathlib.Logic.Function.Iterate
import Retry.Calendar

/-!
# Days and dates

`Date.next` is the day after a date, by the rules of the calendar: a month has its days, a year its
twelve months, and a leap year a day more in February. `Date.ofDays` computes a date at once, from a
count of leap years and a walk through the months.

Within a year the days before a month grow with the month (`startOfMonth_add_le`), and over the
years the days before a year (`daysBeforeYear_mono`), each by the length of what is between. So
dates are ordered like their days (`toDays_lt_iff`), no two have the same day, and what holds of
counting days holds of computing them.

Main statements: `valid_ofDays` and `toDays_ofDays` (every day has a date of the calendar),
`ofDays_toDays` (and every date of the calendar is that of its day), `next_iterate` (the date of a
day is the one that is reached from the first of January 1970 in as many steps).
-/

namespace Retry

namespace Date

/-! ## Lengths -/

def yearLength (year : Int) : Nat := if isLeap year then 366 else 365

/-- The days of a month, if there is such a month. -/
def monthLength (year : Int) (month : Nat) : Nat := (monthLengths year).getD (month - 1) 0

def startOfMonth (year : Int) (month : Nat) : Nat := ((monthLengths year).take (month - 1)).sum

def Valid (d : Date) : Prop :=
  (1 ≤ d.month ∧ d.month ≤ 12) ∧ 1 ≤ d.day ∧ d.day ≤ monthLength d.year d.month

instance (d : Date) : Decidable d.Valid := inferInstanceAs (Decidable (_ ∧ _))

variable {d e : Date}

theorem length_monthLengths (year : Int) : (monthLengths year).length = 12 := rfl

theorem sum_monthLengths (year : Int) : (monthLengths year).sum = yearLength year := by
  unfold monthLengths yearLength
  cases isLeap year <;> rfl

theorem daysBeforeYear_succ (year : Int) :
    daysBeforeYear (year + 1) = daysBeforeYear year + yearLength year := by
  unfold daysBeforeYear yearLength isLeap
  by_cases fourth : year % 4 = 0
  · by_cases hundredth : year % 100 = 0
    · by_cases leap : year % 400 = 0 <;> simp [fourth, hundredth, leap] <;> omega
    · simp [fourth, hundredth]
      omega
  · simp [fourth]
    omega

theorem daysBeforeYear_mono {a b : Int} (h : a ≤ b) : daysBeforeYear a ≤ daysBeforeYear b := by
  unfold daysBeforeYear
  omega

theorem startOfMonth_succ (year : Int) {month : Nat} (h : 1 ≤ month) :
    startOfMonth year (month + 1) = startOfMonth year month + monthLength year month := by
  obtain ⟨m, rfl⟩ : ∃ m, month = m + 1 := ⟨month - 1, by omega⟩
  simp only [startOfMonth, monthLength, Nat.add_sub_cancel]
  rw [List.take_add_one, List.sum_append, List.getD_eq_getElem?_getD]
  cases (monthLengths year)[m]? <;> simp

theorem startOfMonth_add_le (year : Int) {month later : Nat} (h : 1 ≤ month) (hm : month < later) :
    startOfMonth year month + monthLength year month ≤ startOfMonth year later := by
  rw [← startOfMonth_succ year h]
  exact ((monthLengths year).take_sublist_take_left (by omega)).sum_le_sum fun _ _ => Nat.zero_le _

theorem startOfMonth_add_le_yearLength (year : Int) {month : Nat} (h : 1 ≤ month) :
    startOfMonth year month + monthLength year month ≤ yearLength year := by
  rw [← startOfMonth_succ year h, ← sum_monthLengths]
  exact ((monthLengths year).take_sublist _).sum_le_sum fun _ _ => Nat.zero_le _

theorem monthLength_within (year : Int) {month : Nat} (h : 1 ≤ month ∧ month ≤ 12) :
    28 ≤ monthLength year month ∧ monthLength year month ≤ 31 := by
  have within : ∀ length ∈ monthLengths year, 28 ≤ length ∧ length ≤ 31 := by
    unfold monthLengths
    cases isLeap year <;> decide
  have inside : month - 1 < (monthLengths year).length := by
    rw [length_monthLengths]
    omega
  rw [monthLength, List.getD_eq_getElem _ _ inside]
  exact within _ (List.getElem_mem inside)

/-! ## Days of dates -/

theorem toDays_eq (d : Date) :
    d.toDays = daysBeforeYear d.year + startOfMonth d.year d.month + (d.day - 1 : Nat) := by
  rw [toDays, startOfMonth, List.sum_eq_foldl]

theorem toDays_within (h : d.Valid) :
    daysBeforeYear d.year ≤ d.toDays ∧ d.toDays < daysBeforeYear (d.year + 1) := by
  obtain ⟨⟨first, -⟩, day, length⟩ := h
  have := startOfMonth_add_le_yearLength d.year first
  rw [toDays_eq, daysBeforeYear_succ]
  omega

def Before (d e : Date) : Prop :=
  d.year < e.year ∨ d.year = e.year ∧ (d.month < e.month ∨ d.month = e.month ∧ d.day < e.day)

theorem before_trichotomy (d e : Date) : d.Before e ∨ d = e ∨ e.Before d := by
  obtain ⟨y, m, n⟩ := d
  obtain ⟨y', m', n'⟩ := e
  simp only [Before, mk.injEq]
  omega

theorem toDays_lt (hd : d.Valid) (he : e.Valid) (h : d.Before e) : d.toDays < e.toDays := by
  obtain year | ⟨year, month | ⟨month, day⟩⟩ := h
  · have := (toDays_within hd).2
    have := (toDays_within he).1
    have := daysBeforeYear_mono (show d.year + 1 ≤ e.year by omega)
    omega
  · obtain ⟨⟨first, -⟩, day, length⟩ := hd
    have := startOfMonth_add_le d.year first month
    rw [toDays_eq, toDays_eq, ← year]
    omega
  · obtain ⟨-, started, -⟩ := hd
    rw [toDays_eq, toDays_eq, ← year, ← month]
    omega

/-- **Dates are ordered like their days.** -/
theorem toDays_lt_iff (hd : d.Valid) (he : e.Valid) : d.toDays < e.toDays ↔ d.Before e := by
  refine ⟨fun h => ?_, toDays_lt hd he⟩
  obtain before | rfl | after := before_trichotomy d e
  · exact before
  · exact absurd h (lt_irrefl _)
  · exact absurd h (not_lt.mpr (toDays_lt he hd after).le)

theorem eq_of_toDays (hd : d.Valid) (he : e.Valid) (h : d.toDays = e.toDays) : d = e := by
  obtain before | same | after := before_trichotomy d e
  · exact absurd h (toDays_lt hd he before).ne
  · exact same
  · exact absurd h (toDays_lt he hd after).ne'

/-! ## Dates of days -/

theorem exists_walk (month : Nat) {lengths : List Nat} {days : Nat} (h : days < lengths.sum) :
    ∃ k day, walk month lengths days = (month + k, day + 1) ∧ k < lengths.length ∧
      (lengths.take k).sum + day = days ∧ day < lengths.getD k 0 := by
  induction lengths generalizing month days with
  | nil => simp at h
  | cons length rest ih =>
    rw [List.sum_cons] at h
    by_cases here : days < length
    · exact ⟨0, days, by rw [walk, if_pos here]; rfl, by simp, by simp, by simpa using here⟩
    · obtain ⟨k, day, walked, within, sum, fits⟩ :=
        ih (month + 1) (show days - length < rest.sum by omega)
      refine ⟨k + 1, day, ?_, by simpa using within, ?_, by simpa using fits⟩
      · rw [walk, if_neg here, walked, Nat.add_assoc, Nat.add_comm 1]
      · rw [List.take_succ_cons, List.sum_cons]
        omega

theorem ofDays_spec (days : Int) : (ofDays days).Valid ∧ (ofDays days).toDays = days := by
  obtain ⟨starts, ends⟩ := daysBeforeYear_yearOf days
  rw [daysBeforeYear_succ] at ends
  have inside : (days - daysBeforeYear (yearOf days)).toNat < (monthLengths (yearOf days)).sum := by
    rw [sum_monthLengths]
    omega
  obtain ⟨k, day, walked, within, sum, fits⟩ := exists_walk 1 inside
  have date : ofDays days = ⟨yearOf days, 1 + k, day + 1⟩ := by
    simp only [ofDays, walked]
  rw [length_monthLengths] at within
  rw [date, toDays_eq, Valid]
  simp only [monthLength, startOfMonth, Nat.add_sub_cancel_left, Nat.add_sub_cancel]
  exact ⟨⟨⟨by omega, by omega⟩, by omega, by omega⟩, by omega⟩

theorem valid_ofDays (days : Int) : (ofDays days).Valid := (ofDays_spec days).1

theorem toDays_ofDays (days : Int) : (ofDays days).toDays = days := (ofDays_spec days).2

theorem ofDays_toDays (h : d.Valid) : ofDays d.toDays = d :=
  eq_of_toDays (valid_ofDays _) h (toDays_ofDays _)

/-! ## Counting days -/

def next (d : Date) : Date :=
  if d.day < monthLength d.year d.month then { d with day := d.day + 1 }
  else if d.month < 12 then ⟨d.year, d.month + 1, 1⟩
  else ⟨d.year + 1, 1, 1⟩

theorem valid_next (h : d.Valid) : d.next.Valid := by
  obtain ⟨⟨first, last⟩, day, length⟩ := h
  unfold next
  split
  · exact ⟨⟨first, last⟩, by simp, by simpa using ‹_›⟩
  · split
    · have month : 1 ≤ d.month + 1 ∧ d.month + 1 ≤ 12 := by omega
      have := monthLength_within d.year month
      exact ⟨month, le_refl 1, by dsimp only; omega⟩
    · have := monthLength_within (d.year + 1) (show 1 ≤ 1 ∧ 1 ≤ 12 by simp)
      exact ⟨by simp, le_refl 1, by dsimp only; omega⟩

theorem toDays_next (h : d.Valid) : d.next.toDays = d.toDays + 1 := by
  obtain ⟨⟨first, last⟩, day, length⟩ := h
  have month := startOfMonth_succ d.year first
  rw [toDays_eq d]
  unfold next
  split
  · rw [toDays_eq]
    dsimp only
    omega
  · split
    · rw [toDays_eq]
      dsimp only
      omega
    · have december : d.month = 12 := by omega
      have ended : startOfMonth d.year (d.month + 1) = yearLength d.year := by
        rw [december]
        exact sum_monthLengths d.year
      have begun : startOfMonth (d.year + 1) 1 = 0 := rfl
      rw [toDays_eq]
      dsimp only
      rw [daysBeforeYear_succ, begun]
      omega

theorem next_ofDays (days : Int) : (ofDays days).next = ofDays (days + 1) := by
  refine eq_of_toDays (valid_next (valid_ofDays _)) (valid_ofDays _) ?_
  rw [toDays_next (valid_ofDays _), toDays_ofDays, toDays_ofDays]

def epoch : Date := ⟨1970, 1, 1⟩

/-- **The calendar day by day.** The date of a day is reached from the first of January 1970 by
going on from each day to the one after it. -/
theorem next_iterate (days : Nat) : next^[days] epoch = ofDays days := by
  induction days with
  | zero => rfl
  | succ days ih =>
    rw [Function.iterate_succ_apply', ih, next_ofDays]
    rfl

theorem year_ofDays_within {days : Int} (h : 0 ≤ days) (h' : days < 2932897) :
    1970 ≤ (ofDays days).year ∧ (ofDays days).year ≤ 9999 := by
  obtain ⟨starts, ends⟩ := toDays_within (valid_ofDays days)
  rw [toDays_ofDays] at starts ends
  constructor
  · by_contra early
    have := daysBeforeYear_mono (show (ofDays days).year + 1 ≤ 1970 by omega)
    have : daysBeforeYear 1970 = 0 := rfl
    omega
  · by_contra late
    have := daysBeforeYear_mono (show 10000 ≤ (ofDays days).year by omega)
    have : daysBeforeYear 10000 = 2932897 := rfl
    omega

end Date

end Retry
