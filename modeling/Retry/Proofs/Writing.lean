import Retry.Datum.Printer
import Retry.Proofs.Reading

/-!
# What is written is JSON

The text of plain data without doubles (`Exact`) is a JSON text for that data, whatever
characters its texts are made of, however large its numbers are and however deep it is nested.
So every reader of JSON gets the data back from it, and so does the one here.

**Results.**
* `quoted_writeText`: a text is written as a quoted text that denotes it.
* `whole_wholeText`: so is a whole number.
* `value_write`: so is all exact data.
* `ofJson?_toJson`: reading undoes writing.
-/

namespace Retry

open Json

/-! ## Texts -/

theorem Text.hex_succ (width n : Nat) :
    Text.hex (width + 2) n = Text.hex (width + 1) (n / 16) ++ [Nat.digitChar (n % 16)] := by
  unfold Text.hex
  rw [Nat.toDigits_eq_if (n := n) (by decide)]
  split
  · next small =>
    rw [Nat.div_eq_of_lt small, Nat.mod_eq_of_lt small]
    simp [Nat.toDigits_of_lt_base, List.replicate_succ']
  · simp

theorem Text.hex_one {n : Nat} (h : n < 16) : Text.hex 1 n = [Nat.digitChar n] := by
  simp [Text.hex, Nat.toDigits_of_lt_base h]

namespace Datum

theorem hexDigit_digitChar {n : Nat} (h : n < 16) : HexDigit (Nat.digitChar n) n := ⟨h, .inl rfl⟩

theorem codeUnit_hex {n : Nat} (h : n < 0x10000) : CodeUnit (Text.hex 4 n) n := by
  have digits : Text.hex 4 n = [Nat.digitChar (n / 16 / 16 / 16), Nat.digitChar (n / 16 / 16 % 16),
      Nat.digitChar (n / 16 % 16), Nat.digitChar (n % 16)] := by
    rw [Text.hex_succ, Text.hex_succ, Text.hex_succ, Text.hex_one (by omega)]
    rfl
  have value :
      n = ((n / 16 / 16 / 16 * 16 + n / 16 / 16 % 16) * 16 + n / 16 % 16) * 16 + n % 16 := by
    omega
  rw [digits]
  nth_rewrite 5 [value]
  exact .digits (hexDigit_digitChar (by omega)) (hexDigit_digitChar (by omega))
    (hexDigit_digitChar (by omega)) (hexDigit_digitChar (by omega))

/-- A character past the first plane is the one that its two surrogates stand for. -/
theorem inside_surrogates {c : Char} {q r : Nat} (hq : q < 0x400) (hr : r < 0x400)
    (sum : c.toNat = 0x10000 + q * 0x400 + r) {cs s : List Char} (rest : Inside cs s) :
    Inside (unitEscape (0xD800 + q) ++ unitEscape (0xDC00 + r) ++ cs) (c :: s) := by
  have high := codeUnit_hex (n := 0xD800 + q) (by omega)
  have low := codeUnit_hex (n := 0xDC00 + r) (by omega)
  have astral : c.toNat = 0x10000 + (0xD800 + q - 0xD800) * 0x400 + (0xDC00 + r - 0xDC00) := by
    rw [Nat.add_sub_cancel_left, Nat.add_sub_cancel_left, sum]
  simp only [unitEscape, List.cons_append, List.append_assoc]
  exact .pair high (by omega) low (by omega) astral rest

theorem inside_escapeChar (c : Char) {cs s : List Char} (rest : Inside cs s) :
    Inside (escapeChar c ++ cs) (c :: s) := by
  have valid : c.toNat < 0xD800 ∨ 0xDFFF < c.toNat ∧ c.toNat < 0x110000 := c.valid
  have named {n : Nat} (h : c.toNat = n) : c = Char.ofNat n := by rw [← h, Char.ofNat_toNat]
  unfold escapeChar
  split
  · next h => subst h; exact .letter (by decide) rest
  split
  · next h => subst h; exact .letter (by decide) rest
  split
  · next h => subst h; exact .letter (by decide) rest
  split
  · next h => subst h; exact .letter (by decide) rest
  split
  · next h => subst h; exact .letter (by decide) rest
  split
  · next h => rw [named h]; exact .letter (by decide) rest
  split
  · next h => rw [named h]; exact .letter (by decide) rest
  split
  · next noQuote noEscape _ _ _ _ _ h => exact .plain h.1 noQuote noEscape rest
  split
  · next h =>
    simpa [unitEscape] using Inside.unit (codeUnit_hex h) rest
  · next h => exact inside_surrogates (by omega) (by omega) (by omega) rest

theorem quoted_writeText (s : String) : Quoted (writeText s) s := by
  have inside (cs : List Char) : Inside (cs.flatMap escapeChar) cs := by
    induction cs with
    | nil => exact .nil
    | cons c cs ih => exact inside_escapeChar c ih
  exact .quotes (inside s.toList)

/-! ## Numbers -/

/-- The digits of a number other than zero do not start with a zero. -/
theorem head?_toDigits {n : Nat} (h : n ≠ 0) : (Nat.toDigits 10 n).head? ≠ some '0' := by
  induction n using Nat.strongRecOn with
  | ind n ih =>
    rw [Nat.toDigits_eq_if (by decide)]
    split
    · next small =>
      have all : ∀ n < 10, n ≠ 0 → Nat.digitChar n ≠ '0' := by decide
      simpa using all n small h
    · next large =>
      rw [List.head?_append_of_ne_nil _ Nat.toDigits_ne_nil]
      exact ih (n / 10) (by omega) (by omega)

theorem natural_toDigits (n : Nat) : Natural (Nat.toDigits 10 n) n := by
  have shortest : (Nat.toDigits 10 n).head? = some '0' → Nat.toDigits 10 n = ['0'] := by
    intro zero
    obtain rfl : n = 0 := by
      by_contra h
      exact head?_toDigits h zero
    rfl
  have digits := Natural.digits Nat.toDigits_ne_nil
    (fun c hc => Nat.isDigit_of_mem_toDigits (by decide) (by decide) hc) shortest
  rwa [Nat.ofDigitChars_toDigits (by decide) (by decide)] at digits

theorem whole_wholeText (n : Int) : Whole (Number.wholeText n) n := by
  unfold Number.wholeText
  cases n with
  | ofNat n => exact .natural (natural_toDigits n)
  | negSucc n =>
    rw [Int.natAbs_negSucc, Int.negSucc_eq, ← Int.natCast_succ, decide_eq_true (by omega)]
    exact .negative (natural_toDigits (n + 1))

/-! ## All exact data -/

/-- Plain data without doubles. -/
inductive Exact : Datum → Prop
  | null : Exact .null
  | truth (b : Bool) : Exact (.number (.truth b))
  | whole (n : Int) : Exact (.number (.whole n))
  | text (s : String) : Exact (.text s)
  | list {items : List Datum} (exact : ∀ d ∈ items, Exact d) : Exact (.list items)
  | object {entries : List (String × Datum)} (exact : ∀ e ∈ entries, Exact e.2) :
      Exact (.object entries)

/-- A blank stands in front of every item but the first, and of every value of an entry. -/
theorem element_write {d : Datum} (h : Value d.write d) :
    Element d.write d ∧ Element (' ' :: d.write) d := by
  constructor
  · simpa using Element.blanks blanks_nil h blanks_nil
  · simpa using Element.blanks blanks_space h blanks_nil

theorem name_writeText (k : String) : Name (writeText k) k ∧ Name (' ' :: writeText k) k := by
  constructor
  · simpa using Name.blanks blanks_nil (quoted_writeText k) blanks_nil
  · simpa using Name.blanks blanks_space (quoted_writeText k) blanks_nil

theorem items_writeItems {d : Datum} {ds : List Datum} (h : ∀ e ∈ d :: ds, Value e.write e) :
    Items (writeItems (d :: ds)) (d :: ds) ∧ Items (' ' :: writeItems (d :: ds)) (d :: ds) := by
  induction ds generalizing d with
  | nil =>
    obtain ⟨first, spaced⟩ := element_write (h d (by simp))
    exact ⟨.last first, .last spaced⟩
  | cons e ds ih =>
    obtain ⟨first, spaced⟩ := element_write (h d (by simp))
    obtain ⟨-, later⟩ := ih fun f hf => h f (List.mem_cons_of_mem _ hf)
    exact ⟨.more first later, .more spaced later⟩

theorem entries_writeEntries {k : String} {d : Datum} {es : List (String × Datum)}
    (h : ∀ e ∈ (k, d) :: es, Value e.2.write e.2) :
    Entries (writeEntries ((k, d) :: es)) ((k, d) :: es) ∧
      Entries (' ' :: writeEntries ((k, d) :: es)) ((k, d) :: es) := by
  induction es generalizing k d with
  | nil =>
    obtain ⟨-, value⟩ := element_write (h (k, d) (by simp))
    obtain ⟨first, spaced⟩ := name_writeText k
    exact ⟨.last first value, .last spaced value⟩
  | cons e es ih =>
    obtain ⟨-, value⟩ := element_write (h (k, d) (by simp))
    obtain ⟨first, spaced⟩ := name_writeText k
    obtain ⟨-, later⟩ := ih fun f hf => h f (List.mem_cons_of_mem _ hf)
    exact ⟨.more first value later, .more spaced value later⟩

theorem value_write {d : Datum} (h : d.Exact) : Value d.write d := by
  induction h with
  | null => exact .null
  | truth b =>
    cases b with
    | true => exact .true
    | false => exact .false
  | whole n => exact .whole (whole_wholeText n)
  | text s => exact .text (quoted_writeText s)
  | @list items _ ih =>
    cases items with
    | nil => exact .emptyList blanks_nil
    | cons d ds => exact .list (items_writeItems ih).1
  | @object entries _ ih =>
    cases entries with
    | nil => exact .emptyObject blanks_nil
    | cons e es => exact .object (entries_writeEntries ih).1

theorem ofJson?_toJson {d : Datum} (h : d.Exact) : ofJson? d.toJson = some d := by
  rw [ofJson?, toJson, String.toList_ofList]
  exact read?_of_element (element_write (value_write h)).1

end Datum

end Retry
