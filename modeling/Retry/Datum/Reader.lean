import Retry.Datum

/-!
# Reading JSON

Reads a JSON text into plain data, the entries of objects in the order of the
text. Blanks may stand around every token. A number with neither fraction nor
exponent is whole, any other the double nearest to it; the three doubles without
a JSON form have names. A pair of escaped surrogates is one character, a lone
surrogate is replaced.
-/

namespace Retry.Datum

def isBlank (c : Char) : Bool := c = ' ' || c = '\n' || c = '\t' || c = '\r'

def skipBlanks (cs : List Char) : List Char := cs.dropWhile isBlank

def hexValue? (c : Char) : Option Nat :=
  if '0' ≤ c ∧ c ≤ '9' then some (c.toNat - '0'.toNat)
  else if 'a' ≤ c ∧ c ≤ 'f' then some (c.toNat - 'a'.toNat + 10)
  else if 'A' ≤ c ∧ c ≤ 'F' then some (c.toNat - 'A'.toNat + 10)
  else none

/-- The unit of an escape with four hexadecimal digits. -/
def unit? (a b c d : Char) : Option Nat := do
  return (((← hexValue? a) * 16 + (← hexValue? b)) * 16 + (← hexValue? c)) * 16 + (← hexValue? d)

/-- The character of an escape with one letter. -/
def letterEscape? (c : Char) : Option Nat :=
  if c = 'n' then some 10
  else if c = 'r' then some 13
  else if c = 't' then some 9
  else if c = 'b' then some 8
  else if c = 'f' then some 12
  else if c = '"' ∨ c = '\\' ∨ c = '/' then some c.toNat
  else none

/-- Reads the inside of a text up to its closing quote, as code units. -/
def readUnits : List Char → Option (List Nat × List Char)
  | [] => none
  | '"' :: rest => some ([], rest)
  | '\\' :: 'u' :: a :: b :: c :: d :: rest => do
    let unit ← unit? a b c d
    let (units, rest) ← readUnits rest
    return (unit :: units, rest)
  | '\\' :: c :: rest => do
    let unit ← letterEscape? c
    let (units, rest) ← readUnits rest
    return (unit :: units, rest)
  | c :: rest => do
    let (units, rest) ← readUnits rest
    return (c.toNat :: units, rest)

/-- Joins pairs of surrogates; a lone one becomes the replacement character. -/
def joinUnits : List Nat → List Char
  | [] => []
  | high :: low :: rest =>
    if 0xD800 ≤ high ∧ high < 0xDC00 ∧ 0xDC00 ≤ low ∧ low < 0xE000 then
      Char.ofNat (0x10000 + (high - 0xD800) * 0x400 + (low - 0xDC00)) :: joinUnits rest
    else if 0xD800 ≤ high ∧ high < 0xE000 then Char.ofNat 0xFFFD :: joinUnits (low :: rest)
    else Char.ofNat high :: joinUnits (low :: rest)
  | [unit] => [Char.ofNat (if 0xD800 ≤ unit ∧ unit < 0xE000 then 0xFFFD else unit)]

def readText (cs : List Char) : Option (String × List Char) :=
  (readUnits cs).map fun (units, rest) => (String.ofList (joinUnits units), rest)

/-- The characters that numbers and names of values consist of. -/
def isWordChar (c : Char) : Bool := c.isAlphanum || c = '-' || c = '+' || c = '.'

def ofWord? (word : List Char) : Option Datum :=
  if word = ['n', 'u', 'l', 'l'] then some .null
  else if word = ['t', 'r', 'u', 'e'] then some (.number (.truth true))
  else if word = ['f', 'a', 'l', 's', 'e'] then some (.number (.truth false))
  else if word = ['N', 'a', 'N'] then some (.number (.double .nan))
  else if word = ['I', 'n', 'f', 'i', 'n', 'i', 't', 'y'] then
    some (.number (.double (.infinite false)))
  else
    let negative := word.head? = some '-'
    let body := if negative then word.drop 1 else word
    if body = ['I', 'n', 'f', 'i', 'n', 'i', 't', 'y'] then
      some (.number (.double (.infinite negative)))
    else if body ≠ [] ∧ body.all Char.isDigit then
      let n : Int := Nat.ofDigitChars 10 body 0
      some (.number (.whole (if negative then -n else n)))
    else (Binary64.readUnsigned? negative body).map fun x => .number (.double x)

mutual

/-- Reads one value, nested at most `fuel` deep. -/
def readValue : Nat → List Char → Option (Datum × List Char)
  | 0, _ => none
  | fuel + 1, cs =>
    match skipBlanks cs with
    | '"' :: rest => (readText rest).map fun (s, rest) => (.text s, rest)
    | '[' :: rest =>
      match skipBlanks rest with
      | ']' :: rest => some (.list [], rest)
      | rest => (readItems fuel rest).map fun (items, rest) => (.list items, rest)
    | '\x7b' :: rest =>
      match skipBlanks rest with
      | '\x7d' :: rest => some (.object [], rest)
      | rest => (readEntries fuel rest).map fun (entries, rest) => (.object entries, rest)
    | cs => (ofWord? (cs.takeWhile isWordChar)).map fun d => (d, cs.dropWhile isWordChar)

def readItems : Nat → List Char → Option (List Datum × List Char)
  | 0, _ => none
  | fuel + 1, cs => do
    let (d, rest) ← readValue fuel cs
    match skipBlanks rest with
    | ',' :: rest =>
      let (ds, rest) ← readItems fuel rest
      return (d :: ds, rest)
    | ']' :: rest => return ([d], rest)
    | _ => none

def readEntries : Nat → List Char → Option (List (String × Datum) × List Char)
  | 0, _ => none
  | fuel + 1, cs => do
    let '"' :: rest := skipBlanks cs | none
    let (k, rest) ← readText rest
    let ':' :: rest := skipBlanks rest | none
    let (d, rest) ← readValue fuel rest
    match skipBlanks rest with
    | ',' :: rest =>
      let (es, rest) ← readEntries fuel rest
      return ((k, d) :: es, rest)
    | '\x7d' :: rest => return ([(k, d)], rest)
    | _ => none

end

def read? (cs : List Char) : Option Datum :=
  match readValue (cs.length + 1) cs with
  | some (d, rest) => if skipBlanks rest = [] then some d else none
  | none => none

def ofJson? (s : String) : Option Datum := read? s.toList

end Retry.Datum
