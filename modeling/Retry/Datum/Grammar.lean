import Retry.Datum

/-!
# The grammar of JSON

Which texts denote which plain data. Nothing here refers to how data is written or read: it is
what a writer has to keep to, and what any reader agrees on.

A character of a text stands for itself or is escaped, by a letter, as a UTF-16 unit, or, past
the first plane, as a pair of surrogates. A lone surrogate stands for no character. Numbers are
whole here: one with a fraction or an exponent denotes a double, and the grammar does not say
which.
-/

namespace Retry.Json

/-- Blanks, which may stand around every value and around the name of every entry. -/
def Blanks (cs : List Char) : Prop := ∀ c ∈ cs, c = ' ' ∨ c = '\t' ∨ c = '\n' ∨ c = '\r'

theorem blanks_nil : Blanks [] := fun _ hc => nomatch hc

theorem blanks_space : Blanks [' '] := fun _ hc => .inl (List.mem_singleton.mp hc)

def HexDigit (c : Char) (n : Nat) : Prop :=
  n < 16 ∧ (c = Nat.digitChar n ∨ c = (Nat.digitChar n).toUpper)

/-- A UTF-16 unit in four digits. -/
inductive CodeUnit : List Char → Nat → Prop
  | digits {a b c d : Char} {w x y z : Nat} (ha : HexDigit a w) (hb : HexDigit b x)
      (hc : HexDigit c y) (hd : HexDigit d z) :
      CodeUnit [a, b, c, d] (((w * 16 + x) * 16 + y) * 16 + z)

def letters : List (Char × Char) :=
  [('"', '"'), ('\\', '\\'), ('/', '/'), ('b', Char.ofNat 8), ('f', Char.ofNat 12), ('n', '\n'),
    ('r', '\r'), ('t', '\t')]

/-- What stands between the quotes of a text. -/
inductive Inside : List Char → List Char → Prop
  | nil : Inside [] []
  | plain {c : Char} {cs s : List Char} (printable : ' '.toNat ≤ c.toNat) (noQuote : c ≠ '"')
      (noEscape : c ≠ '\\') (rest : Inside cs s) : Inside (c :: cs) (c :: s)
  | letter {l c : Char} {cs s : List Char} (letter : (l, c) ∈ letters) (rest : Inside cs s) :
      Inside ('\\' :: l :: cs) (c :: s)
  | unit {u : List Char} {c : Char} {cs s : List Char} (unit : CodeUnit u c.toNat)
      (rest : Inside cs s) : Inside ('\\' :: 'u' :: (u ++ cs)) (c :: s)
  | pair {u v : List Char} {high low : Nat} {c : Char} {cs s : List Char} (first : CodeUnit u high)
      (isHigh : 0xD800 ≤ high ∧ high < 0xDC00) (second : CodeUnit v low)
      (isLow : 0xDC00 ≤ low ∧ low < 0xE000)
      (astral : c.toNat = 0x10000 + (high - 0xD800) * 0x400 + (low - 0xDC00))
      (rest : Inside cs s) :
      Inside ('\\' :: 'u' :: (u ++ '\\' :: 'u' :: (v ++ cs))) (c :: s)

/-- A text in its quotes. -/
inductive Quoted : List Char → String → Prop
  | quotes {cs : List Char} {s : String} (inside : Inside cs s.toList) :
      Quoted ('"' :: (cs ++ ['"'])) s

/-- Decimal digits, without zeros in front. -/
inductive Natural : List Char → Nat → Prop
  | digits {cs : List Char} (nonempty : cs ≠ []) (digits : ∀ c ∈ cs, c.isDigit = true)
      (shortest : cs.head? = some '0' → cs = ['0']) : Natural cs (Nat.ofDigitChars 10 cs 0)

/-- A whole number. -/
inductive Whole : List Char → Int → Prop
  | natural {cs : List Char} {n : Nat} (digits : Natural cs n) : Whole cs n
  | negative {cs : List Char} {n : Nat} (digits : Natural cs n) : Whole ('-' :: cs) (-n)

/-- The name of an entry, with blanks around it. -/
inductive Name : List Char → String → Prop
  | blanks {a cs b : List Char} {s : String} (before : Blanks a) (quoted : Quoted cs s)
      (after : Blanks b) : Name (a ++ (cs ++ b)) s

mutual

/-- A value. -/
inductive Value : List Char → Datum → Prop
  | null : Value ['n', 'u', 'l', 'l'] .null
  | true : Value ['t', 'r', 'u', 'e'] (.number (.truth true))
  | false : Value ['f', 'a', 'l', 's', 'e'] (.number (.truth false))
  | whole {cs : List Char} {n : Int} (whole : Whole cs n) : Value cs (.number (.whole n))
  | text {cs : List Char} {s : String} (quoted : Quoted cs s) : Value cs (.text s)
  | emptyList {b : List Char} (blanks : Blanks b) : Value ('[' :: (b ++ [']'])) (.list [])
  | list {cs : List Char} {ds : List Datum} (items : Items cs ds) :
      Value ('[' :: (cs ++ [']'])) (.list ds)
  | emptyObject {b : List Char} (blanks : Blanks b) : Value ('\x7b' :: (b ++ ['\x7d'])) (.object [])
  | object {cs : List Char} {es : List (String × Datum)} (entries : Entries cs es) :
      Value ('\x7b' :: (cs ++ ['\x7d'])) (.object es)

/-- A value with blanks around it. A JSON text is one of these. -/
inductive Element : List Char → Datum → Prop
  | blanks {a cs b : List Char} {d : Datum} (before : Blanks a) (value : Value cs d)
      (after : Blanks b) : Element (a ++ (cs ++ b)) d

/-- One or more items, with commas between them. -/
inductive Items : List Char → List Datum → Prop
  | last {cs : List Char} {d : Datum} (item : Element cs d) : Items cs [d]
  | more {cs cs' : List Char} {d : Datum} {ds : List Datum} (item : Element cs d)
      (rest : Items cs' ds) : Items (cs ++ ',' :: cs') (d :: ds)

/-- One or more entries, with commas between them. -/
inductive Entries : List Char → List (String × Datum) → Prop
  | last {name cs : List Char} {k : String} {d : Datum} (named : Name name k)
      (value : Element cs d) : Entries (name ++ ':' :: cs) [(k, d)]
  | more {name cs cs' : List Char} {k : String} {d : Datum} {es : List (String × Datum)}
      (named : Name name k) (value : Element cs d) (rest : Entries cs' es) :
      Entries (name ++ ':' :: (cs ++ ',' :: cs')) ((k, d) :: es)

end

end Retry.Json
