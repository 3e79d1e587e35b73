import Retry.Datum.Printer
import Retry.Limits

/-!
# What JSON is written of

`Datum.toJson` is the JSON text of any plain data. `json.dumps` does not write all of it: it
fails at a whole number of more digits than are written, and where lists and objects lie deeper
in each other than the stack has room for. Data is written from the left, so the failure is that
of the first place at which there is one.

How much room there is depends on the call that writes, so it is a parameter, counted in lists
and objects.
-/

namespace Retry

/-- The failure of data that is nested deeper than there is room for. -/
def Failure.tooDeep : Failure :=
  .of .recursionError "maximum recursion depth exceeded while encoding a JSON object"

namespace Datum

/-- Goes one level deeper, if there is room for it. -/
def nested {α : Type} (room : Nat) (within : Nat → Except Failure α) : Except Failure α :=
  match room with
  | 0 => .error .tooDeep
  | room + 1 => within room

mutual

/-- Whether a value is written in the room that there is; if not, the failure. -/
def encodable (room : Nat) : Datum → Except Failure Unit
  | .null => .ok ()
  | .text _ => .ok ()
  | .number n => if n.writable then .ok () else .error (.tooManyDigits "")
  | .list items => nested room fun room => itemsEncodable room items
  | .object entries => nested room fun room => entriesEncodable room entries

def itemsEncodable (room : Nat) : List Datum → Except Failure Unit
  | [] => .ok ()
  | d :: ds => do
    encodable room d
    itemsEncodable room ds

/-- Whether the entries of an object are written. -/
def entriesEncodable (room : Nat) : List (String × Datum) → Except Failure Unit
  | [] => .ok ()
  | (_, d) :: es => do
    encodable room d
    entriesEncodable room es

end

/-- The JSON text of a value that is written in the room that there is, as `json.dumps` gives
it. -/
def dumps (room : Nat) (d : Datum) : Except Failure String := do
  encodable room d
  return d.toJson

end Datum

end Retry
