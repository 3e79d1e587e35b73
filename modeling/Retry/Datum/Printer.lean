import Retry.Datum

/-!
# The JSON text of plain data

One line of printable ASCII: separators are a comma and a blank, and a colon and
a blank; every character outside the range from space to tilde is escaped, those
past the first plane as a pair of surrogates. Doubles have the shortest digits
that read back; the three that JSON lacks have names.

Every value has a text here. Which values are too long or too deep to be written is said by
`Datum.encodable`.
-/

namespace Retry.Datum

def unitEscape (unit : Nat) : List Char := '\\' :: 'u' :: Text.hex 4 unit

def escapeChar (c : Char) : List Char :=
  if c = '"' then ['\\', '"']
  else if c = '\\' then ['\\', '\\']
  else if c = '\n' then ['\\', 'n']
  else if c = '\r' then ['\\', 'r']
  else if c = '\t' then ['\\', 't']
  else if c.toNat = 8 then ['\\', 'b']
  else if c.toNat = 12 then ['\\', 'f']
  else if 32 ≤ c.toNat ∧ c.toNat < 127 then [c]
  else if c.toNat < 0x10000 then unitEscape c.toNat
  else
    unitEscape (0xD800 + (c.toNat - 0x10000) / 0x400) ++
      unitEscape (0xDC00 + (c.toNat - 0x10000) % 0x400)

def writeText (s : String) : List Char := '"' :: (s.toList.flatMap escapeChar ++ ['"'])

def writeNumber : Number → List Char
  | .truth b => if b then ['t', 'r', 'u', 'e'] else ['f', 'a', 'l', 's', 'e']
  | .whole n => Number.wholeText n
  | .double .nan => ['N', 'a', 'N']
  | .double (.infinite negative) =>
    Binary64.signText negative ++ ['I', 'n', 'f', 'i', 'n', 'i', 't', 'y']
  | .double x => x.text

mutual

def write : Datum → List Char
  | .null => ['n', 'u', 'l', 'l']
  | .number n => writeNumber n
  | .text s => writeText s
  | .list items => '[' :: (writeItems items ++ [']'])
  | .object entries => '\x7b' :: (writeEntries entries ++ ['\x7d'])

def writeItems : List Datum → List Char
  | [] => []
  | [d] => write d
  | d :: ds => write d ++ ',' :: ' ' :: writeItems ds

def writeEntries : List (String × Datum) → List Char
  | [] => []
  | [(k, d)] => writeText k ++ ':' :: ' ' :: write d
  | (k, d) :: es => writeText k ++ ':' :: ' ' :: (write d ++ ',' :: ' ' :: writeEntries es)

end

def toJson (d : Datum) : String := String.ofList d.write

end Retry.Datum
