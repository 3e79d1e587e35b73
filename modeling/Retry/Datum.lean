import Retry.Number
import Retry.Text.Quoted

/-!
# Plain data

Results of operations, arguments and the fields of log records are plain data:
nothing, numbers, texts, lists, and objects whose entries keep their order.
-/

namespace Retry

/-- A plain value. The entries of an object keep the order in which they were set. -/
inductive Datum where
  | null
  | number (n : Number)
  | text (s : String)
  | list (items : List Datum)
  | object (entries : List (String × Datum))

namespace Datum

instance : Inhabited Datum := ⟨.null⟩

instance (n : Nat) : OfNat Datum n := ⟨.number (.whole n)⟩

instance : Coe String Datum := ⟨.text⟩

/-- The value of a number that may be missing. -/
def ofNumber : Option Number → Datum
  | some n => .number n
  | none => .null

/-- Whether a value counts as true: everything does except nothing, zero and
what is empty. A NaN counts as true. -/
def isTrue : Datum → Bool
  | .null => false
  | .number n => !n.same 0
  | .text s => s != ""
  | .list items => !items.isEmpty
  | .object entries => !entries.isEmpty

/-- Texts with a comma and a blank between them. -/
def joined (texts : List String) : String := ", ".intercalate texts

mutual

def literal : Datum → String
  | .null => "None"
  | .number n => n.text
  | .text s => Text.quoted s
  | .list items => "[" ++ joined (literals items) ++ "]"
  | .object entries => "\x7b" ++ joined (entryLiterals entries) ++ "\x7d"

def literals : List Datum → List String
  | [] => []
  | d :: ds => literal d :: literals ds

def entryLiterals : List (String × Datum) → List String
  | [] => []
  | (k, d) :: es => (Text.quoted k ++ ": " ++ literal d) :: entryLiterals es

end

/-- The text that shows a value: a text as it is, anything else by its literal. -/
def shown : Datum → String
  | .text s => s
  | d => d.literal

def typeName : Datum → String
  | .null => "NoneType"
  | .number n => n.typeName
  | .text _ => "str"
  | .list _ => "list"
  | .object _ => "dict"

mutual

/-- Equality of values: numbers by value, objects as unordered maps. -/
def same : Datum → Datum → Bool
  | .null, .null => true
  | .number m, .number n => m.same n
  | .text s, .text t => s == t
  | .list xs, .list ys => sameItems xs ys
  | .object xs, .object ys => xs.length == ys.length && sameEntries xs ys
  | _, _ => false

def sameItems : List Datum → List Datum → Bool
  | [], [] => true
  | x :: xs, y :: ys => same x y && sameItems xs ys
  | _, _ => false

/-- Every entry has an equal one of the same name in the other object. -/
def sameEntries : List (String × Datum) → List (String × Datum) → Bool
  | [], _ => true
  | (k, x) :: xs, ys =>
    (match ys.lookup k with
      | some y => same x y
      | none => false) && sameEntries xs ys

end

/-- Sets an entry: in place if the name is there already, at the end otherwise. -/
def setEntry {α : Type} (entries : List (String × α)) (name : String) (value : α) :
    List (String × α) :=
  if entries.any (·.1 == name) then
    entries.map fun e => if e.1 == name then (name, value) else e
  else entries ++ [(name, value)]

/-- Setting entries one after the other: each name once, in the order in which
it was first set, with the value that was set last. -/
def setEntries {α : Type} (entries added : List (String × α)) : List (String × α) :=
  added.foldl (fun acc e => setEntry acc e.1 e.2) entries

end Datum

end Retry
