import Retry.Proofs.Dates
import Retry.Proofs.Lines

/-!
# Time stamps can be read and sorted

A time stamp is seven numbers in a layout: each has a fixed number of digits and is ended by a mark.
In such a layout texts are ordered like the lists of their numbers (`written_lt_iff`), since padded
digits of one length are ordered like their values (`digits_lt_iff`), and the numbers can be read
back without any doubt (`read_written`).

The numbers are the date of a day and the parts of its clock. Lists of them are ordered like the
moments (`fieldsOf_lt_iff`), since dates are ordered like days.

Main statement: `stamps_faithful` (from 1970 to the end of the year 9999: the form of a time stamp,
what a strict reader finds in it, and the order of all others against it).
-/

namespace Retry

/-! ## Decimal digits -/

namespace Text

abbrev value (cs : List Char) : Nat := Nat.ofDigitChars 10 cs 0

def Digits (cs : List Char) : Prop := ∀ c ∈ cs, c.isDigit = true

variable {a b c d : List Char}

theorem toNat_digit {c : Char} (h : c.isDigit = true) : 48 ≤ c.toNat ∧ c.toNat ≤ 57 := by
  simp only [Char.isDigit, Bool.and_eq_true, decide_eq_true_eq] at h
  exact h

theorem value_cons (c : Char) (cs : List Char) :
    value (c :: cs) = 10 ^ cs.length * (c.toNat - 48) + value cs := by
  rw [value, Nat.ofDigitChars_cons, Nat.ofDigitChars_eq_ofDigitChars_zero, Nat.mul_zero,
    Nat.zero_add]
  rfl

theorem value_lt (h : Digits a) : value a < 10 ^ a.length := by
  induction a with
  | nil => simp
  | cons c cs ih =>
    have digit := toNat_digit (h c List.mem_cons_self)
    have rest := ih fun c hc => h c (List.mem_cons_of_mem _ hc)
    rw [value_cons, List.length_cons, Nat.pow_succ]
    have first : 10 ^ cs.length * (c.toNat - 48) ≤ 10 ^ cs.length * 9 :=
      Nat.mul_le_mul_left _ (by omega)
    omega

/-- **Digits of one length are ordered like their values.** -/
theorem digits_lt_iff (ha : Digits a) (hb : Digits b) (h : a.length = b.length) :
    a < b ↔ value a < value b := by
  induction a generalizing b with
  | nil =>
    obtain rfl := List.length_eq_zero_iff.mp h.symm
    simp
  | cons x xs ih =>
    obtain ⟨y, ys, rfl⟩ := List.exists_cons_of_length_eq_add_one h.symm
    have hxs : Digits xs := fun c hc => ha c (List.mem_cons_of_mem _ hc)
    have hys : Digits ys := fun c hc => hb c (List.mem_cons_of_mem _ hc)
    have length : xs.length = ys.length := by simpa using h
    have digit := toNat_digit (ha x List.mem_cons_self)
    have digit' := toNat_digit (hb y List.mem_cons_self)
    have below := value_lt hxs
    have below' := value_lt hys
    rw [List.cons_lt_cons_iff, ih hxs hys length, value_cons, value_cons, length]
    rw [length] at below
    have chars : x < y ↔ x.toNat < y.toNat := Iff.rfl
    have same : x = y ↔ x.toNat = y.toNat := ⟨congrArg _, fun h => Char.toNat_inj.mp h⟩
    rw [chars, same]
    have grows {m n : Nat} (h : m < n) : 10 ^ ys.length * m + 10 ^ ys.length ≤ 10 ^ ys.length * n :=
      Nat.mul_le_mul_left _ h
    obtain less | equal | more := Nat.lt_trichotomy x.toNat y.toNat
    · have := grows (show x.toNat - 48 < y.toNat - 48 by omega)
      simp only [less, true_or, true_iff]
      omega
    · simp [equal]
    · have := grows (show y.toNat - 48 < x.toNat - 48 by omega)
      constructor
      · rintro (less | ⟨equal, -⟩) <;> omega
      · omega

/-- Texts that begin with parts of one length are ordered by these first. -/
theorem append_lt_iff (h : a.length = b.length) : a ++ c < b ++ d ↔ a < b ∨ a = b ∧ c < d := by
  induction a generalizing b with
  | nil =>
    obtain rfl := List.length_eq_zero_iff.mp h.symm
    simp
  | cons x xs ih =>
    obtain ⟨y, ys, rfl⟩ := List.exists_cons_of_length_eq_add_one h.symm
    have length : xs.length = ys.length := by simpa using h
    simp only [List.cons_append, List.cons_lt_cons_iff, ih length, List.cons.injEq]
    tauto

end Text

namespace Timestamp

open Text

/-! ## Padded numbers -/

variable {width m n : Nat}

theorem digits_padded (width n : Nat) : Digits (padded width n) := by
  intro c hc
  obtain zero | digit := List.mem_append.mp hc
  · rw [List.eq_of_mem_replicate zero]
    rfl
  · exact Nat.isDigit_of_mem_toDigits (by decide) (by decide) digit

theorem length_padded (positive : 0 < width) (h : n < 10 ^ width) :
    (padded width n).length = width := by
  have length := (Nat.length_toDigits_le_iff (by decide) positive).mpr h
  rw [padded, List.length_append, List.length_replicate]
  omega

theorem value_padded (width n : Nat) : value (padded width n) = n := by
  simp only [padded, value, Nat.ofDigitChars_append, Nat.ofDigitChars_replicate_zero, Nat.mul_zero]
  exact Nat.ofDigitChars_toDigits (by decide) (by decide)

theorem padded_lt_iff (positive : 0 < width) (hm : m < 10 ^ width) (hn : n < 10 ^ width) :
    padded width m < padded width n ↔ m < n := by
  have length := (length_padded positive hm).trans (length_padded positive hn).symm
  rw [digits_lt_iff (digits_padded _ _) (digits_padded _ _) length, value_padded, value_padded]

theorem padded_inj : padded width m = padded width n ↔ m = n := by
  refine ⟨fun h => ?_, fun h => by rw [h]⟩
  rw [← value_padded width m, h, value_padded]

theorem padded_of_le (h : 10 ^ width ≤ n) (positive : 0 < width) :
    padded (width + 1) n = Nat.toDigits 10 n := by
  have length : ¬ (Nat.toDigits 10 n).length ≤ width := by
    rw [Nat.length_toDigits_le_iff (by decide) positive]
    omega
  rw [padded, show width + 1 - (Nat.toDigits 10 n).length = 0 by omega]
  rfl

/-! ## Numbers in a layout -/

/-- The places of numbers: how many digits each of them has, and the mark behind it. -/
abbrev Layout := List (Nat × Char)

def written : Layout → List Nat → List Char
  | (width, mark) :: places, n :: ns => padded width n ++ mark :: written places ns
  | _, _ => []

/-- Reads numbers from their places. Every place has all of its digits and its mark, and nothing is
left over. -/
def readFields : Layout → List Char → Option (List Nat)
  | [], [] => some []
  | [], _ :: _ => none
  | (width, mark) :: places, cs =>
    if (cs.take width).length = width ∧ (cs.take width).all Char.isDigit ∧
        (cs.drop width).head? = some mark then
      (readFields places (cs.drop (width + 1))).map (value (cs.take width) :: ·)
    else none

/-- What stands where a text has the form of another one: a digit for a digit, and the same
character for any other. -/
def Stands (form c : Char) : Prop := if form.isDigit then c.isDigit = true else c = form

def form (places : Layout) : List Char :=
  places.flatMap fun place => List.replicate place.1 '0' ++ [place.2]

def Marked (places : Layout) : Prop := ∀ place ∈ places, place.2.isDigit = false

def Fits (places : Layout) (ns : List Nat) : Prop :=
  List.Forall₂ (fun place n => 0 < place.1 ∧ n < 10 ^ place.1) places ns

variable {places : Layout} {ms ns : List Nat}

theorem read_written (h : Fits places ns) : readFields places (written places ns) = some ns := by
  induction h with
  | nil => rfl
  | @cons place n places ns room _ ih =>
    obtain ⟨positive, small⟩ := room
    have length := length_padded positive small
    have digits : (padded place.1 n).all Char.isDigit = true :=
      List.all_eq_true.mpr (digits_padded place.1 n)
    have first : (padded place.1 n ++ place.2 :: written places ns).take place.1 =
        padded place.1 n := List.take_left' length
    have rest : (padded place.1 n ++ place.2 :: written places ns).drop place.1 =
        place.2 :: written places ns := List.drop_left' length
    rw [written, readFields, first, rest, List.drop_add_one_eq_tail_drop, rest, List.tail_cons, ih,
      value_padded, if_pos ⟨length, digits, rfl⟩]
    rfl

theorem stands_digits {cs : List Char} (h : Digits cs) :
    List.Forall₂ Stands (List.replicate cs.length '0') cs := by
  induction cs with
  | nil => exact .nil
  | cons c cs ih =>
    exact .cons (h c List.mem_cons_self) (ih fun c hc => h c (List.mem_cons_of_mem _ hc))

theorem form_written (marked : Marked places) (h : Fits places ns) :
    List.Forall₂ Stands (form places) (written places ns) := by
  induction h with
  | nil => exact .nil
  | @cons place n places ns room _ ih =>
    obtain ⟨positive, small⟩ := room
    rw [form, List.flatMap_cons, List.append_assoc]
    refine List.rel_append ?_ (.cons ?_ (ih fun p hp => marked p (List.mem_cons_of_mem _ hp)))
    · have digits := stands_digits (digits_padded place.1 n)
      rwa [length_padded positive small] at digits
    · rw [Stands, marked place List.mem_cons_self]
      rfl

/-- **Numbers in a layout are ordered like their lists.** -/
theorem written_lt_iff (hm : Fits places ms) (hn : Fits places ns) :
    written places ms < written places ns ↔ ms < ns := by
  induction hm generalizing ns with
  | nil =>
    cases hn
    simp [written]
  | @cons place m places ms room _ ih =>
    obtain _ | ⟨room', fits⟩ := hn
    rename_i n ns
    have length := (length_padded room.1 room.2).trans (length_padded room'.1 room'.2).symm
    rw [written, written, append_lt_iff length, List.cons_lt_cons_iff, List.cons_lt_cons_iff,
      ih fits, padded_lt_iff room.1 room.2 room'.2, padded_inj]
    simp

/-! ## Moments -/

def layout : Layout := [(4, '-'), (2, '-'), (2, 'T'), (2, ':'), (2, ':'), (2, '.'), (3, 'Z')]

/-- What a time stamp says: a date, the seconds of the day, and the milliseconds. -/
structure Reading where
  date : Date
  clock : Nat
  millis : Nat

def Reading.seconds (r : Reading) : Int := 86400 * r.date.toDays + r.clock

/-- What seven numbers say. They must be a date of the calendar and a time of the clock. -/
def ofFields : List Nat → Option Reading
  | [year, month, day, hour, minute, second, millis] =>
    let date : Date := ⟨year, month, day⟩
    if date.Valid ∧ hour < 24 ∧ minute < 60 ∧ second < 60 then
      some ⟨date, 3600 * hour + 60 * minute + second, millis⟩
    else none
  | _ => none

def read? (text : String) : Option Reading := (readFields layout text.toList).bind ofFields

def fieldsOf (seconds millis : Int) : List Nat :=
  let date := Date.ofDays (seconds / 86400)
  let clock := (seconds % 86400).toNat
  [date.year.toNat, date.month, date.day, clock / 3600, clock / 60 % 60, clock % 60, millis.toNat]

/-- A moment from 1970 on and before the year 10000. -/
structure Within (seconds millis : Int) : Prop where
  seconds : 0 ≤ seconds ∧ seconds < 253402300800
  millis : 0 ≤ millis ∧ millis < 1000

variable {s t a b : Int}

namespace Within

theorem year (h : Within s a) :
    1970 ≤ (Date.ofDays (s / 86400)).year ∧ (Date.ofDays (s / 86400)).year ≤ 9999 := by
  have := h.seconds
  exact Date.year_ofDays_within (by omega) (by omega)

theorem write_eq (h : Within s a) : write s a = written layout (fieldsOf s a) := by
  obtain ⟨early, late⟩ := h.year
  obtain ⟨positive, -⟩ := h.millis
  have year : Number.wholeText (Date.ofDays (s / 86400)).year =
      padded 4 (Date.ofDays (s / 86400)).year.toNat := by
    rw [padded_of_le (show 10 ^ 3 ≤ (Date.ofDays (s / 86400)).year.toNat by omega) (by decide),
      Number.wholeText, decide_eq_false (by omega),
      show (Date.ofDays (s / 86400)).year.natAbs = (Date.ofDays (s / 86400)).year.toNat by omega]
    rfl
  have millis : paddedSigned 3 a = padded 3 a.toNat := by
    rw [paddedSigned, if_neg (by omega), show a.natAbs = a.toNat by omega]
  simp only [write, secondsText, year, millis, layout, fieldsOf, written, List.append_assoc,
    List.cons_append]

theorem fits (h : Within s a) : Fits layout (fieldsOf s a) := by
  obtain ⟨early, late⟩ := h.year
  obtain ⟨positive, small⟩ := h.millis
  obtain ⟨⟨first, last⟩, day, length⟩ := Date.valid_ofDays (s / 86400)
  have := Date.monthLength_within (Date.ofDays (s / 86400)).year ⟨first, last⟩
  unfold layout fieldsOf
  refine .cons ?_ (.cons ?_ (.cons ?_ (.cons ?_ (.cons ?_ (.cons ?_ (.cons ?_ .nil)))))) <;>
    dsimp only <;> omega

theorem ofFields_eq (h : Within s a) : ofFields (fieldsOf s a) =
    some ⟨Date.ofDays (s / 86400), (s % 86400).toNat, a.toNat⟩ := by
  obtain ⟨early, -⟩ := h.year
  have year : ((Date.ofDays (s / 86400)).year.toNat : Int) = (Date.ofDays (s / 86400)).year := by
    omega
  have clock : (s % 86400).toNat < 86400 := by omega
  have parts : 3600 * ((s % 86400).toNat / 3600) + 60 * ((s % 86400).toNat / 60 % 60) +
      (s % 86400).toNat % 60 = (s % 86400).toNat := by omega
  simp only [fieldsOf, ofFields, year, parts]
  rw [if_pos ⟨Date.valid_ofDays _, by omega, by omega, by omega⟩]

theorem read (h : Within s a) : ∃ reading, read? (String.ofList (write s a)) = some reading ∧
    reading.seconds = s ∧ reading.millis = a ∧
    Date.next^[(s / 86400).toNat] Date.epoch = reading.date := by
  obtain ⟨start, -⟩ := h.seconds
  obtain ⟨positive, -⟩ := h.millis
  refine ⟨⟨Date.ofDays (s / 86400), (s % 86400).toNat, a.toNat⟩, ?_, ?_, ?_, ?_⟩
  · rw [read?, String.toList_ofList, h.write_eq, read_written h.fits]
    exact h.ofFields_eq
  · have clock : ((s % 86400).toNat : Int) = s % 86400 := by omega
    simp only [Reading.seconds, Date.toDays_ofDays, clock]
    omega
  · exact Int.toNat_of_nonneg positive
  · rw [Date.next_iterate, Int.toNat_of_nonneg (by omega)]

end Within

theorem clock_lt_iff (c c' m m' : Nat) :
    [c / 3600, c / 60 % 60, c % 60, m] < [c' / 3600, c' / 60 % 60, c' % 60, m'] ↔
      c < c' ∨ c = c' ∧ m < m' := by
  simp only [List.cons_lt_cons_iff, List.not_lt_nil, and_false, or_false]
  omega

theorem date_lt_iff {d e : Date} (hd : 0 ≤ d.year) (he : 0 ≤ e.year) (l l' : List Nat) :
    d.year.toNat :: d.month :: d.day :: l < e.year.toNat :: e.month :: e.day :: l' ↔
      d.Before e ∨ d = e ∧ l < l' := by
  have less : d.year.toNat < e.year.toNat ↔ d.year < e.year := by omega
  have equal : d.year.toNat = e.year.toNat ↔ d.year = e.year := by omega
  obtain ⟨y, m, n⟩ := d
  obtain ⟨y', m', n'⟩ := e
  simp only [List.cons_lt_cons_iff, less, equal, Date.Before, Date.mk.injEq]
  tauto

/-- **The numbers of moments are ordered like the moments.** -/
theorem fieldsOf_lt_iff (hs : Within s a) (ht : Within t b) :
    fieldsOf s a < fieldsOf t b ↔ s < t ∨ s = t ∧ a < b := by
  have before : (Date.ofDays (s / 86400)).Before (Date.ofDays (t / 86400)) ↔
      s / 86400 < t / 86400 := by
    rw [← Date.toDays_lt_iff (Date.valid_ofDays _) (Date.valid_ofDays _), Date.toDays_ofDays,
      Date.toDays_ofDays]
  have same : Date.ofDays (s / 86400) = Date.ofDays (t / 86400) ↔ s / 86400 = t / 86400 := by
    refine ⟨fun h => ?_, congrArg _⟩
    rw [← Date.toDays_ofDays (s / 86400), h, Date.toDays_ofDays]
  have year := hs.year.1
  have year' := ht.year.1
  have start := hs.millis.1
  have start' := ht.millis.1
  simp only [fieldsOf]
  rw [date_lt_iff (by omega) (by omega), before, same, clock_lt_iff]
  omega

/-! ## Order -/

/-- **Time stamps are ordered like their moments.** -/
theorem write_lt_iff (hs : Within s a) (ht : Within t b) :
    String.ofList (write s a) < String.ofList (write t b) ↔ s < t ∨ s = t ∧ a < b := by
  rw [String.lt_iff, String.toList_ofList, String.toList_ofList, hs.write_eq, ht.write_eq,
    written_lt_iff hs.fits ht.fits, fieldsOf_lt_iff hs ht]

theorem write_inj (hs : Within s a) (ht : Within t b) :
    String.ofList (write s a) = String.ofList (write t b) ↔ s = t ∧ a = b := by
  constructor
  · intro h
    have before := write_lt_iff hs ht
    have after := write_lt_iff ht hs
    rw [h] at before after
    have neither := String.lt_irrefl (String.ofList (write t b))
    simp only [neither, false_iff] at before after
    omega
  · rintro ⟨rfl, rfl⟩
    rfl

end Timestamp

/-! ## Whole numbers below a number -/

namespace Number

variable {n : Number} {p k l : Int}

/-- The whole number that a number is at or next above. From zero up that is also what is left of
it when it is cut. -/
structure Floor (n : Number) (k : Int) : Prop where
  le : (whole k).le n = true
  lt : n.lt (.whole (k + 1)) = true

theorem position?_whole (k : Int) :
    (whole k).position? = some (.finite (k * Binary64.one)) := rfl

theorem lt_whole_iff (h : n.position? = some (.finite p)) (k : Int) :
    n.lt (.whole k) = true ↔ p < k * Binary64.one := by
  simp only [lt, h, position?_whole, Binary64.Position.lt, decide_eq_true_eq]

theorem whole_le_iff (h : n.position? = some (.finite p)) (k : Int) :
    (whole k).le n = true ↔ k * Binary64.one ≤ p := by
  simp only [le, lt, same, h, position?_whole, Binary64.Position.lt, Bool.or_eq_true,
    decide_eq_true_eq, Binary64.Position.finite.injEq]
  exact Int.le_iff_lt_or_eq.symm

theorem exists_finite_position (above : (whole k).le n = true) (below : n.lt (.whole l) = true) :
    ∃ p, n.position? = some (.finite p) := by
  rcases h : n.position? with _ | _ | p | _
  · rw [lt, h] at below
    cases below
  · rw [le, lt, same, h] at above
    cases above
  · exact ⟨p, rfl⟩
  · rw [lt, h] at below
    cases below

theorem one_pos_int : (0 : Int) < Binary64.one := Int.natCast_pos.mpr Binary64.one_pos

theorem exists_floor (above : (whole k).le n = true) (below : n.lt (.whole l) = true) :
    ∃ m, n.Floor m ∧ k ≤ m ∧ m < l := by
  obtain ⟨p, h⟩ := exists_finite_position above below
  rw [whole_le_iff h] at above
  rw [lt_whole_iff h] at below
  refine ⟨p / Binary64.one, ⟨?_, ?_⟩, Int.le_ediv_of_mul_le one_pos_int above,
    Int.ediv_lt_of_lt_mul one_pos_int below⟩
  · rw [whole_le_iff h]
    exact Int.ediv_mul_le p one_pos_int.ne'
  · rw [lt_whole_iff h]
    exact Int.lt_ediv_add_one_mul_self p one_pos_int

theorem round?_of_position (h : n.position? = some (.finite p)) {rounding : Int → Int → Int}
    (keeps : ∀ m : Int, rounding (m * Binary64.one) Binary64.one = m) :
    n.round? rounding = some (rounding p Binary64.one) := by
  cases n with
  | truth b =>
    obtain rfl := Binary64.Position.finite.inj (Option.some.inj h)
    rw [keeps]
    rfl
  | whole m =>
    obtain rfl := Binary64.Position.finite.inj (Option.some.inj h)
    rw [keeps]
    rfl
  | double x =>
    cases x with
    | finite s u hu =>
      obtain rfl := Binary64.Position.finite.inj (Option.some.inj h)
      rfl
    | infinite s => cases s <;> cases h
    | nan => cases h

/-- The whole number at or next below a number is the only one, and it is what rounding down
gives. -/
theorem Floor.round?_ediv (h : n.Floor k) : n.round? (· / ·) = some k := by
  obtain ⟨p, hp⟩ := exists_finite_position h.le h.lt
  have above := (whole_le_iff hp k).mp h.le
  have below := (lt_whole_iff hp (k + 1)).mp h.lt
  rw [Int.add_mul, Int.one_mul] at below
  have floor : p / Binary64.one = k := (Int.ediv_eq_iff_of_pos one_pos_int).mpr ⟨above, below⟩
  exact (round?_of_position hp fun m => Int.mul_ediv_cancel m one_pos_int.ne').trans
    (congrArg some floor)

theorem Floor.round?_tdiv (h : n.Floor k) (start : 0 ≤ k) : n.round? Int.tdiv = some k := by
  obtain ⟨p, hp⟩ := exists_finite_position h.le h.lt
  have above := (whole_le_iff hp k).mp h.le
  have positive : 0 ≤ p := le_trans (Int.mul_nonneg start one_pos_int.le) above
  have down := (round?_of_position hp fun m => Int.mul_ediv_cancel m one_pos_int.ne').symm.trans
    h.round?_ediv
  rw [round?_of_position hp fun m => Int.mul_tdiv_cancel m one_pos_int.ne',
    Int.tdiv_eq_ediv_of_nonneg positive, down]

end Number

/-! ## Records -/

/-- A record from 1970 on and before the year 10000. -/
structure Timestamp.InRange (created msecs : Number) : Prop where
  created : (Number.whole 0).le created = true ∧ created.lt (.whole 253402300800) = true
  msecs : (Number.whole 0).le msecs = true ∧ msecs.lt (.whole 1000) = true

namespace Timestamp

/-- The text of a record is that of its moment in whole seconds and milliseconds. -/
theorem InRange.text_eq {created msecs : Number} (h : InRange created msecs) {s a : Int}
    (hs : created.Floor s) (ha : msecs.Floor a) :
    Within s a ∧ Timestamp.text created (some msecs) = .ok (String.ofList (write s a)) := by
  obtain ⟨s', floor, start, before⟩ := Number.exists_floor h.created.1 h.created.2
  obtain ⟨a', floor', start', before'⟩ := Number.exists_floor h.msecs.1 h.msecs.2
  obtain rfl : s' = s := Option.some.inj (floor.round?_ediv.symm.trans hs.round?_ediv)
  obtain rfl : a' = a := Option.some.inj (floor'.round?_ediv.symm.trans ha.round?_ediv)
  exact ⟨⟨⟨start, before⟩, ⟨start', before'⟩⟩,
    Timestamp.text_eq hs.round?_ediv ⟨by omega, by omega⟩ (ha.round?_tdiv start')⟩

/-- **Time stamps are faithful and sort by time.** From 1970 to the end of the year 9999, the time
stamp of a record has a fixed form. A strict reader finds in it the date and the time of day of the
record's moment: the seconds rounded down, and the milliseconds cut. The date is that of the
calendar, day by day from the first of January 1970. And against the time stamp of every other
record it is ordered like the moments are. -/
theorem stamps_faithful {created msecs : Number} (h : InRange created msecs) :
    ∃ seconds millis text, created.Floor seconds ∧ msecs.Floor millis ∧
      Timestamp.text created (some msecs) = .ok text ∧
      List.Forall₂ Stands "0000-00-00T00:00:00.000Z".toList text.toList ∧
      (∃ reading, read? text = some reading ∧ reading.seconds = seconds ∧
        reading.millis = millis ∧ Date.next^[(seconds / 86400).toNat] Date.epoch = reading.date) ∧
      ∀ created' msecs', InRange created' msecs' → ∀ seconds' millis' text',
        created'.Floor seconds' → msecs'.Floor millis' →
        Timestamp.text created' (some msecs') = .ok text' →
        (text < text' ↔ seconds < seconds' ∨ seconds = seconds' ∧ millis < millis') ∧
          (text = text' ↔ seconds = seconds' ∧ millis = millis') := by
  obtain ⟨s, hs, -⟩ := Number.exists_floor h.created.1 h.created.2
  obtain ⟨a, ha, -⟩ := Number.exists_floor h.msecs.1 h.msecs.2
  obtain ⟨within, text⟩ := h.text_eq hs ha
  refine ⟨s, a, _, hs, ha, text, ?_, within.read, ?_⟩
  · have marked : Marked layout := by
      unfold Marked layout
      decide
    have chars : (String.ofList (write s a)).toList = written layout (fieldsOf s a) := by
      rw [String.toList_ofList, within.write_eq]
    rw [chars]
    exact form_written marked within.fits
  · intro created' msecs' h' t b text' ht hb made
    obtain ⟨within', text''⟩ := h'.text_eq ht hb
    obtain rfl := Except.ok.inj (text''.symm.trans made)
    exact ⟨write_lt_iff within within', write_inj within within'⟩

def leapDay : Number × Number :=
  (.double (.ofRatio false 3807310787 4), .double (.ofRatio false 3157 4))

def marchDay : Number × Number := (.whole 951868800, .truth false)

theorem stamps_faithful_leap :
    Timestamp.text leapDay.1 (some leapDay.2) = .ok "2000-02-29T12:34:56.789Z" ∧
      (∃ reading, read? "2000-02-29T12:34:56.789Z" = some reading ∧
        reading.seconds = 951827696 ∧ (reading.millis : Int) = 789 ∧ reading.date = ⟨2000, 2, 29⟩) ∧
      Timestamp.text marchDay.1 (some marchDay.2) = .ok "2000-03-01T00:00:00.000Z" ∧
      "2000-02-29T12:34:56.789Z" < "2000-03-01T00:00:00.000Z" := by
  have february : InRange leapDay.1 leapDay.2 := ⟨by decide +kernel, by decide +kernel⟩
  have march : InRange marchDay.1 marchDay.2 := ⟨by decide +kernel, by decide +kernel⟩
  have second : leapDay.1.Floor 951827696 := ⟨by decide +kernel, by decide +kernel⟩
  have milli : leapDay.2.Floor 789 := ⟨by decide +kernel, by decide +kernel⟩
  have second' : marchDay.1.Floor 951868800 := ⟨by decide +kernel, by decide +kernel⟩
  have milli' : marchDay.2.Floor 0 := ⟨by decide +kernel, by decide +kernel⟩
  have text : Timestamp.text leapDay.1 (some leapDay.2) = .ok "2000-02-29T12:34:56.789Z" :=
    (february.text_eq second milli).2
  have text' : Timestamp.text marchDay.1 (some marchDay.2) = .ok "2000-03-01T00:00:00.000Z" :=
    (march.text_eq second' milli').2
  obtain ⟨s, a, made, floor, floor', hmade, -, ⟨reading, read, seconds, millis, date⟩, order⟩ :=
    stamps_faithful february
  obtain rfl := Except.ok.inj (text.symm.trans hmade)
  obtain rfl : 951827696 = s := Option.some.inj (second.round?_ediv.symm.trans floor.round?_ediv)
  obtain rfl : 789 = a := Option.some.inj (milli.round?_ediv.symm.trans floor'.round?_ediv)
  rw [Date.next_iterate] at date
  obtain ⟨less, -⟩ := order _ _ march _ _ _ second' milli' text'
  exact ⟨text, ⟨reading, read, seconds, millis, date.symm⟩, text', less.mpr (by decide)⟩

end Timestamp

end Retry
