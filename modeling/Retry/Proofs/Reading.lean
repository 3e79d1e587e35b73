import Mathlib.Data.List.DropRight
import Retry.Datum.Grammar
import Retry.Datum.Reader

/-!
# Reading every JSON text

The reader is complete for the grammar: whatever text the grammar derives for a value, with any
blanks, any digits of an escape and any escape of a character, the reader makes that value of it.

A token ends where no character of a number or a name follows (`Ends`). The reader recurses on
fuel, and no more than one unit for every character of the text is needed.

**Results.**
* `readText_of_quoted`: a text is read up to its closing quote.
* `readValue_of_value`: so is every value, with what follows it left over.
* `read?_of_element`: the whole text.
* `Json.Element.unique`: a text denotes one value.
-/

namespace Retry.Datum

open Json

/-! ## Texts -/

theorem hexValue?_of_hexDigit {c : Char} {n : Nat} (h : HexDigit c n) : hexValue? c = some n := by
  obtain ⟨below, either⟩ := h
  have both : ∀ n < 16, hexValue? (Nat.digitChar n) = some n ∧
      hexValue? (Nat.digitChar n).toUpper = some n := by decide
  rcases either with rfl | rfl
  · exact (both n below).1
  · exact (both n below).2

theorem readUnits_of_codeUnit {u : List Char} {n : Nat} (h : CodeUnit u n) {cs : List Char}
    {units : List Nat} {rest : List Char} (ih : readUnits cs = some (units, rest)) :
    readUnits ('\\' :: 'u' :: (u ++ cs)) = some (n :: units, rest) := by
  cases h with
  | digits ha hb hc hd =>
    simp [readUnits, unit?, hexValue?_of_hexDigit ha, hexValue?_of_hexDigit hb,
      hexValue?_of_hexDigit hc, hexValue?_of_hexDigit hd, ih]

/-- The unit of a character in the first plane, or the character itself, joins with nothing. -/
theorem joinUnits_char (c : Char) (units : List Nat) :
    joinUnits (c.toNat :: units) = c :: joinUnits units := by
  have valid : c.toNat < 0xD800 ∨ 0xDFFF < c.toNat ∧ c.toNat < 0x110000 := c.valid
  have noPair (low : Nat) :
      ¬ (0xD800 ≤ c.toNat ∧ c.toNat < 0xDC00 ∧ 0xDC00 ≤ low ∧ low < 0xE000) := by
    omega
  have alone : ¬ (0xD800 ≤ c.toNat ∧ c.toNat < 0xE000) := by omega
  cases units with
  | nil => simp only [joinUnits, if_neg alone, Char.ofNat_toNat]
  | cons low units => simp only [joinUnits, if_neg (noPair low), if_neg alone, Char.ofNat_toNat]

theorem joinUnits_pair {high low : Nat} {c : Char} (isHigh : 0xD800 ≤ high ∧ high < 0xDC00)
    (isLow : 0xDC00 ≤ low ∧ low < 0xE000)
    (astral : c.toNat = 0x10000 + (high - 0xD800) * 0x400 + (low - 0xDC00)) (units : List Nat) :
    joinUnits (high :: low :: units) = c :: joinUnits units := by
  rw [joinUnits, if_pos ⟨isHigh.1, isHigh.2, isLow.1, isLow.2⟩, ← astral, Char.ofNat_toNat]

theorem readUnits_of_inside {cs s : List Char} (h : Inside cs s) (rest : List Char) :
    ∃ units, readUnits (cs ++ '"' :: rest) = some (units, rest) ∧ joinUnits units = s := by
  induction h with
  | nil => exact ⟨[], by simp [readUnits], rfl⟩
  | @plain c cs s printable noQuote noEscape inside ih =>
    obtain ⟨units, read, joined⟩ := ih
    refine ⟨c.toNat :: units, ?_, by rw [joinUnits_char, joined]⟩
    rw [List.cons_append, readUnits, read]
    all_goals simp_all
  | @letter l c cs s letter inside ih =>
    obtain ⟨units, read, joined⟩ := ih
    refine ⟨c.toNat :: units, ?_, by rw [joinUnits_char, joined]⟩
    simp only [letters, List.mem_cons, Prod.mk.injEq, List.not_mem_nil, or_false] at letter
    rcases letter with ⟨rfl, rfl⟩ | ⟨rfl, rfl⟩ | ⟨rfl, rfl⟩ | ⟨rfl, rfl⟩ | ⟨rfl, rfl⟩ | ⟨rfl, rfl⟩ |
      ⟨rfl, rfl⟩ | ⟨rfl, rfl⟩
    all_goals simp [readUnits, letterEscape?, read]
  | unit unit inside ih =>
    obtain ⟨units, read, joined⟩ := ih
    refine ⟨_, ?_, by rw [joinUnits_char, joined]⟩
    simpa using readUnits_of_codeUnit unit read
  | pair first isHigh second isLow astral inside ih =>
    obtain ⟨units, read, joined⟩ := ih
    refine ⟨_, ?_, by rw [joinUnits_pair isHigh isLow astral, joined]⟩
    simpa using readUnits_of_codeUnit first (readUnits_of_codeUnit second read)

theorem readText_of_inside {cs : List Char} {s : String} (h : Inside cs s.toList)
    (rest : List Char) : readText (cs ++ '"' :: rest) = some (s, rest) := by
  obtain ⟨units, read, joined⟩ := readUnits_of_inside h rest
  simp [readText, read, joined]

/-! ## Words -/

/-- No character of a number or a name follows. -/
def Ends (rest : List Char) : Prop := ∀ c ∈ rest.head?, isWordChar c = false

theorem ends_cons {c : Char} (h : isWordChar c = false) (rest : List Char) : Ends (c :: rest) := by
  rintro _ ⟨⟩
  exact h

theorem isWordChar_of_isDigit {c : Char} (h : c.isDigit = true) : isWordChar c = true := by
  simp [isWordChar, Char.isAlphanum, h]

theorem isBlank_of_isWordChar {c : Char} (h : isWordChar c = true) : isBlank c = false := by
  refine Bool.eq_false_iff.mpr fun blank => ?_
  simp only [isBlank, Bool.or_eq_true, decide_eq_true_eq] at blank
  rcases blank with ((rfl | rfl) | rfl) | rfl <;> exact absurd h (by decide)

theorem readValue_word {w : List Char} {d : Datum} (hw : w ≠ [])
    (word : ∀ c ∈ w, isWordChar c = true)
    (value : ofWord? w = some d) (fuel : Nat) {rest : List Char} (ends : Ends rest) :
    readValue (fuel + 1) (w ++ rest) = some (d, rest) := by
  have taken : (w ++ rest).takeWhile isWordChar = w ∧ (w ++ rest).dropWhile isWordChar = rest := by
    rw [List.takeWhile_append_of_pos word, List.dropWhile_append_of_pos word]
    cases rest with
    | nil => simp
    | cons c rest => simp [ends c rfl]
  obtain ⟨c, w, rfl⟩ := List.exists_cons_of_ne_nil hw
  have first : isWordChar c = true := word c (by simp)
  have skipped : skipBlanks (c :: w ++ rest) = c :: w ++ rest := by
    simp [skipBlanks, isBlank_of_isWordChar first]
  rw [readValue, skipped]
  split
  · next opens => exact absurd ((List.cons.inj opens).1 ▸ first) (by decide)
  · next opens => exact absurd ((List.cons.inj opens).1 ▸ first) (by decide)
  · next opens => exact absurd ((List.cons.inj opens).1 ▸ first) (by decide)
  · rw [taken.1, taken.2, value]
    rfl

theorem isWordChar_of_natural {cs : List Char} {n : Nat} (h : Natural cs n) :
    ∀ c ∈ cs, isWordChar c = true := by
  cases h with
  | digits _ digits => exact fun c hc => isWordChar_of_isDigit (digits c hc)

/-- Digits are the word of the number that they denote, with a sign or without. -/
theorem ofWord?_of_natural {cs : List Char} {n : Nat} (h : Natural cs n) :
    ofWord? cs = some (.number (.whole n)) ∧ ofWord? ('-' :: cs) = some (.number (.whole (-n))) := by
  cases h with
  | digits nonempty digits =>
    have all : cs.all Char.isDigit = true := List.all_eq_true.mpr digits
    -- none of the names starts with a digit, nor has one after a sign
    have noName (c : Char) (name : List Char) (h : c.isDigit = false) : cs ≠ c :: name := by
      rintro rfl
      exact absurd (digits c (by simp)) (by simp [h])
    have unsigned : cs.head? ≠ some '-' := by
      intro h
      exact absurd (digits '-' (List.mem_of_head? h)) (by decide)
    have plain (c : Char) (name : List Char) (h : c ≠ '-') : '-' :: cs ≠ c :: name := by
      intro same
      exact h (List.cons.inj same).1.symm
    constructor
    · unfold ofWord?
      rw [if_neg (noName _ _ rfl), if_neg (noName _ _ rfl), if_neg (noName _ _ rfl),
        if_neg (noName _ _ rfl), if_neg (noName _ _ rfl)]
      simp [unsigned, noName, all, nonempty]
    · unfold ofWord?
      rw [if_neg (plain _ _ (by decide)), if_neg (plain _ _ (by decide)),
        if_neg (plain _ _ (by decide)), if_neg (plain _ _ (by decide)),
        if_neg (plain _ _ (by decide))]
      simp [noName, all, nonempty]

theorem readValue_whole {cs : List Char} {n : Int} (h : Whole cs n) (fuel : Nat)
    {rest : List Char} (ends : Ends rest) :
    readValue (fuel + 1) (cs ++ rest) = some (.number (.whole n), rest) := by
  cases h with
  | natural digits =>
    obtain ⟨value, -⟩ := ofWord?_of_natural digits
    refine readValue_word ?_ (isWordChar_of_natural digits) value fuel ends
    cases digits
    assumption
  | negative digits =>
    obtain ⟨-, value⟩ := ofWord?_of_natural digits
    refine readValue_word (by simp) (fun c hc => ?_) value fuel ends
    rcases List.mem_cons.mp hc with rfl | hc
    · decide
    · exact isWordChar_of_natural digits c hc

/-! ## Blanks -/

theorem isBlank_of_blanks {b : List Char} (h : Blanks b) : ∀ c ∈ b, isBlank c = true := by
  intro c hc
  rcases h c hc with rfl | rfl | rfl | rfl <;> decide

theorem skipBlanks_append {b : List Char} (h : Blanks b) (cs : List Char) :
    skipBlanks (b ++ cs) = skipBlanks cs := by
  rw [skipBlanks, List.dropWhile_append_of_pos (isBlank_of_blanks h)]
  rfl

theorem skipBlanks_cons {c : Char} (h : isBlank c = false) (cs : List Char) :
    skipBlanks (c :: cs) = c :: cs := by
  simp [skipBlanks, h]

theorem skipBlanks_token {b : List Char} (h : Blanks b) {c : Char} (hc : isBlank c = false)
    (cs : List Char) : skipBlanks (b ++ c :: cs) = c :: cs :=
  (skipBlanks_append h _).trans (skipBlanks_cons hc cs)

theorem skipBlanks_skipBlanks (cs : List Char) : skipBlanks (skipBlanks cs) = skipBlanks cs :=
  List.dropWhile_idempotent isBlank cs

theorem Ends.blanks {b rest : List Char} (ends : Ends rest) (h : Blanks b) : Ends (b ++ rest) := by
  cases b with
  | nil => exact ends
  | cons c b =>
    refine ends_cons ?_ _
    rcases h c (by simp) with rfl | rfl | rfl | rfl <;> decide

/-- Values, items and entries are read alike from texts that are alike behind their blanks. -/
theorem readValue_congr {cs cs' : List Char} (h : skipBlanks cs = skipBlanks cs') (fuel : Nat) :
    readValue fuel cs = readValue fuel cs' := by
  cases fuel with
  | zero => rfl
  | succ fuel => rw [readValue, readValue, h]

theorem readItems_congr {cs cs' : List Char} (h : skipBlanks cs = skipBlanks cs') (fuel : Nat) :
    readItems fuel cs = readItems fuel cs' := by
  cases fuel with
  | zero => rfl
  | succ fuel => rw [readItems, readItems, readValue_congr h]

theorem readEntries_congr {cs cs' : List Char} (h : skipBlanks cs = skipBlanks cs') (fuel : Nat) :
    readEntries fuel cs = readEntries fuel cs' := by
  cases fuel with
  | zero => rfl
  | succ fuel => rw [readEntries, readEntries, h]

/-! ## Values -/

/-- The first character of a value is no blank, and closes no list. -/
theorem opens_of_value {cs : List Char} {d : Datum} (h : Value cs d) :
    ∃ c tail, cs = c :: tail ∧ isBlank c = false ∧ c ≠ ']' := by
  have digit {c : Char} (h : c.isDigit = true) : isBlank c = false ∧ c ≠ ']' := by
    refine ⟨isBlank_of_isWordChar (isWordChar_of_isDigit h), ?_⟩
    rintro rfl
    exact absurd h (by decide)
  cases h with
  | null => exact ⟨_, _, rfl, by decide, by decide⟩
  | true => exact ⟨_, _, rfl, by decide, by decide⟩
  | false => exact ⟨_, _, rfl, by decide, by decide⟩
  | whole whole =>
    cases whole with
    | natural digits =>
      cases digits with
      | digits nonempty digits =>
        obtain ⟨c, tail, rfl⟩ := List.exists_cons_of_ne_nil nonempty
        exact ⟨c, tail, rfl, digit (digits c (by simp))⟩
    | negative => exact ⟨_, _, rfl, by decide, by decide⟩
  | text quoted =>
    cases quoted
    exact ⟨_, _, rfl, by decide, by decide⟩
  | emptyList => exact ⟨_, _, rfl, by decide, by decide⟩
  | list => exact ⟨_, _, rfl, by decide, by decide⟩
  | emptyObject => exact ⟨_, _, rfl, by decide, by decide⟩
  | object => exact ⟨_, _, rfl, by decide, by decide⟩

theorem skipBlanks_element {cs : List Char} {d : Datum} (h : Element cs d) (rest : List Char) :
    ∃ c tail, skipBlanks (cs ++ rest) = c :: tail ∧ c ≠ ']' := by
  cases h with
  | blanks before value after =>
    obtain ⟨c, tail, rfl, notBlank, noEnd⟩ := opens_of_value value
    rw [List.append_assoc, skipBlanks_append before]
    exact ⟨c, _, skipBlanks_cons notBlank _, noEnd⟩

theorem skipBlanks_items {cs : List Char} {ds : List Datum} (h : Items cs ds) (rest : List Char) :
    ∃ c tail, skipBlanks (cs ++ rest) = c :: tail ∧ c ≠ ']' := by
  cases h with
  | last item => exact skipBlanks_element item rest
  | more item items =>
    rw [List.append_assoc]
    exact skipBlanks_element item _

theorem skipBlanks_name {cs : List Char} {k : String} (h : Name cs k) (rest : List Char) :
    ∃ tail after, Blanks after ∧ skipBlanks (cs ++ rest) = '"' :: tail ∧
      readText tail = some (k, after ++ rest) := by
  cases h with
  | @blanks a quoted b _ before quoted after =>
    cases quoted with
    | quotes inside =>
      refine ⟨_, b, after, ?_, readText_of_inside inside (b ++ rest)⟩
      rw [List.append_assoc, skipBlanks_append before]
      simp [show isBlank '"' = false from rfl, skipBlanks]

theorem skipBlanks_entries {cs : List Char} {es : List (String × Datum)} (h : Entries cs es)
    (rest : List Char) : ∃ tail, skipBlanks (cs ++ rest) = '"' :: tail := by
  cases h with
  | last named =>
    obtain ⟨tail, -, -, opens, -⟩ := skipBlanks_name named _
    rw [List.append_assoc]
    exact ⟨tail, opens⟩
  | more named =>
    obtain ⟨tail, -, -, opens, -⟩ := skipBlanks_name named _
    rw [List.append_assoc]
    exact ⟨tail, opens⟩

/-! ### What a value is by its first character -/

section

variable (fuel : Nat) {cs : List Char}

theorem readValue_text {s : String} {rest : List Char} (h : readText cs = some (s, rest)) :
    readValue (fuel + 1) ('"' :: cs) = some (.text s, rest) := by
  rw [readValue, skipBlanks_cons rfl]
  simp [h]

theorem readValue_emptyList {rest : List Char} (h : skipBlanks cs = ']' :: rest) :
    readValue (fuel + 1) ('[' :: cs) = some (.list [], rest) := by
  rw [readValue, skipBlanks_cons rfl]
  simp [h]

theorem readValue_list {c : Char} {tail : List Char} (h : skipBlanks cs = c :: tail)
    (more : c ≠ ']') {items : List Datum} {rest : List Char}
    (read : readItems fuel cs = some (items, rest)) :
    readValue (fuel + 1) ('[' :: cs) = some (.list items, rest) := by
  rw [← readItems_congr (skipBlanks_skipBlanks cs), h] at read
  rw [readValue, skipBlanks_cons rfl]
  simp [h, more, read]

theorem readValue_emptyObject {rest : List Char} (h : skipBlanks cs = '\x7d' :: rest) :
    readValue (fuel + 1) ('\x7b' :: cs) = some (.object [], rest) := by
  rw [readValue, skipBlanks_cons rfl]
  simp [h]

theorem readValue_object {tail : List Char} (h : skipBlanks cs = '"' :: tail)
    {entries : List (String × Datum)} {rest : List Char}
    (read : readEntries fuel cs = some (entries, rest)) :
    readValue (fuel + 1) ('\x7b' :: cs) = some (.object entries, rest) := by
  rw [← readEntries_congr (skipBlanks_skipBlanks cs), h] at read
  rw [readValue, skipBlanks_cons rfl]
  simp [h, read]

end

/-! ### Values, items and entries, by recursion on the derivation -/

mutual

theorem readValue_of_value {cs : List Char} {d : Datum} (h : Value cs d) {fuel : Nat}
    (enough : cs.length ≤ fuel) {rest : List Char} (ends : Ends rest) :
    readValue fuel (cs ++ rest) = some (d, rest) := by
  obtain ⟨fuel, rfl⟩ : ∃ less, fuel = less + 1 := by
    obtain ⟨c, tail, rfl, -⟩ := opens_of_value h
    exact ⟨fuel - 1, by simp at enough; omega⟩
  cases h with
  | null => exact readValue_word (by simp) (List.all_eq_true.mp rfl) rfl fuel ends
  | true => exact readValue_word (by simp) (List.all_eq_true.mp rfl) rfl fuel ends
  | false => exact readValue_word (by simp) (List.all_eq_true.mp rfl) rfl fuel ends
  | whole whole => exact readValue_whole whole fuel ends
  | text quoted =>
    cases quoted with
    | quotes inside =>
      have read := readValue_text fuel (readText_of_inside inside rest)
      simpa using read
  | emptyList blanks =>
    have read := readValue_emptyList fuel (skipBlanks_token blanks rfl rest)
    simpa using read
  | @list cs ds items =>
    have within : cs.length < fuel := by simp at enough; omega
    obtain ⟨c, tail, opens, more⟩ := skipBlanks_items items (']' :: rest)
    have read := readValue_list fuel opens more (readItems_of_items items within rest)
    simpa using read
  | emptyObject blanks =>
    have read := readValue_emptyObject fuel (skipBlanks_token blanks rfl rest)
    simpa using read
  | @object cs es entries =>
    have within : cs.length < fuel := by simp at enough; omega
    obtain ⟨tail, opens⟩ := skipBlanks_entries entries ('\x7d' :: rest)
    have read := readValue_object fuel opens (readEntries_of_entries entries within rest)
    simpa using read

/-- So is one with blanks around it, up to the blanks behind it. -/
theorem readValue_of_element {cs : List Char} {d : Datum} (h : Element cs d) {fuel : Nat}
    (enough : cs.length ≤ fuel) {rest : List Char} (ends : Ends rest) :
    ∃ after, Blanks after ∧ readValue fuel (cs ++ rest) = some (d, after ++ rest) := by
  cases h with
  | @blanks a cs b d before value after =>
    have within : cs.length ≤ fuel := by simp at enough; omega
    refine ⟨b, after, ?_⟩
    rw [List.append_assoc, readValue_congr (skipBlanks_append before _), List.append_assoc,
      readValue_of_value value within (ends.blanks after)]

theorem readItems_of_items {cs : List Char} {ds : List Datum} (h : Items cs ds) {fuel : Nat}
    (enough : cs.length < fuel) (rest : List Char) :
    readItems fuel (cs ++ ']' :: rest) = some (ds, rest) := by
  obtain ⟨fuel, rfl⟩ : ∃ less, fuel = less + 1 := ⟨fuel - 1, by omega⟩
  cases h with
  | last item =>
    have within : cs.length ≤ fuel := by omega
    obtain ⟨b, blanks, read⟩ := readValue_of_element item within (ends_cons (c := ']') rfl rest)
    have closed := skipBlanks_token blanks (c := ']') rfl rest
    simp [readItems, read, closed]
  | @more cs cs' d ds item items =>
    have within : cs.length ≤ fuel ∧ cs'.length < fuel := by simp at enough; omega
    obtain ⟨b, blanks, read⟩ := readValue_of_element item within.1
      (ends_cons (c := ',') rfl (cs' ++ ']' :: rest))
    have comma := skipBlanks_token blanks (c := ',') rfl (cs' ++ ']' :: rest)
    have later := readItems_of_items items within.2 rest
    simp [readItems, read, comma, later]

theorem readEntries_of_entries {cs : List Char} {es : List (String × Datum)} (h : Entries cs es)
    {fuel : Nat} (enough : cs.length < fuel) (rest : List Char) :
    readEntries fuel (cs ++ '\x7d' :: rest) = some (es, rest) := by
  obtain ⟨fuel, rfl⟩ : ∃ less, fuel = less + 1 := ⟨fuel - 1, by omega⟩
  cases h with
  | @last name cs k d named value =>
    have within : cs.length ≤ fuel := by simp at enough; omega
    obtain ⟨tail, a, before, opens, key⟩ := skipBlanks_name named (':' :: (cs ++ '\x7d' :: rest))
    have colon := skipBlanks_token before (c := ':') rfl (cs ++ '\x7d' :: rest)
    obtain ⟨b, blanks, read⟩ := readValue_of_element value within (ends_cons (c := '\x7d') rfl rest)
    have closed := skipBlanks_token blanks (c := '\x7d') rfl rest
    simp [readEntries, opens, key, colon, read, closed]
  | @more name cs cs' k d es named value entries =>
    have within : cs.length ≤ fuel ∧ cs'.length < fuel := by simp at enough; omega
    obtain ⟨tail, a, before, opens, key⟩ :=
      skipBlanks_name named (':' :: (cs ++ ',' :: (cs' ++ '\x7d' :: rest)))
    have colon := skipBlanks_token before (c := ':') rfl (cs ++ ',' :: (cs' ++ '\x7d' :: rest))
    obtain ⟨b, blanks, read⟩ := readValue_of_element value within.1
      (ends_cons (c := ',') rfl (cs' ++ '\x7d' :: rest))
    have comma := skipBlanks_token blanks (c := ',') rfl (cs' ++ '\x7d' :: rest)
    have later := readEntries_of_entries entries within.2 rest
    simp [readEntries, opens, key, colon, read, comma, later]

end

theorem read?_of_element {cs : List Char} {d : Datum} (h : Element cs d) : read? cs = some d := by
  have ends : Ends [] := fun _ hc => nomatch hc
  obtain ⟨b, blanks, read⟩ := readValue_of_element h (Nat.le_succ _) ends
  have nothing : skipBlanks (b ++ []) = [] := skipBlanks_append blanks []
  simp only [List.append_nil] at read nothing
  simp [read?, read, nothing]

end Retry.Datum

namespace Retry.Json

open Datum

theorem Element.unique {cs : List Char} {d d' : Datum} (h : Element cs d) (h' : Element cs d') :
    d = d' :=
  Option.some.inj ((read?_of_element h).symm.trans (read?_of_element h'))

end Retry.Json
