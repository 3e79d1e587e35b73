import Retry.Datum
import Retry.Failure

/-!
# Positions in lists

Items of a list are asked for by an index that counts from the start, or from the end
if it is negative. `place?_eq_some` says which place an index means.
-/

namespace Retry.Index

/-- The place that an index means among `length` items. -/
def place? (length : Nat) (index : Int) : Option Nat :=
  let i := if index < 0 then index + length else index
  if 0 ≤ i ∧ i < length then some i.toNat else none

def outOfRange : Failure := .of .indexError "list index out of range"

def item {α : Type} (items : List α) (index : Int) : Except Failure α :=
  match (place? items.length index).bind (items[·]?) with
  | some a => .ok a
  | none => .error outOfRange

/-- An index given as plain data; the standard one where nothing is said. -/
def given (standard : Int) : Option Datum → Except Failure Int
  | none => .ok standard
  | some (.number n) =>
    match n.whole? with
    | some i => .ok i
    | none => .error (notAnIndex n.typeName)
  | some d => .error (notAnIndex d.typeName)
where
  /-- An index that is no whole number. -/
  notAnIndex (typeName : String) : Failure :=
    .of .typeError s!"list indices must be integers or slices, not {typeName}"

theorem place?_eq_some {length i : Nat} {index : Int} :
    place? length index = some i ↔
      i < length ∧ (index = i ∨ index = (i : Int) - (length : Int)) := by
  unfold place?
  dsimp only
  split <;> split <;> simp <;> omega

end Retry.Index
