import Retry.Index
import Retry.Origins
import Retry.Simulation.World

/-!
# Records kept in a session

A session makes configurations or events, some of them from others, and keeps them all
in order. They are asked for by an index, merged with what is given, and compared with
regard to what they share.
-/

namespace Retry.Simulation

/-- A record with the origins of its fields. -/
structure Kept (α : Type) where
  value : α
  origins : Origins

abbrev Archive (α : Type) := List (Kept α)

namespace Archive

variable {α : Type}

def ofList (fields : List String) (values : List α) : Archive α :=
  values.zipIdx.map fun (value, number) => ⟨value, .first fields number⟩

/-- Keeps a record that was made from another one by giving some fields anew. -/
def derive (a : Archive α) (base : Kept α) (given : String → Bool) (value : α) : Archive α :=
  a ++ [⟨value, base.origins.renew given a.length⟩]

/-- Merges what is given into a configuration that is kept, and keeps the result too. A
merge that is refused keeps nothing. -/
def merge {κ : Type} (a : Archive (Config κ)) (base : Kept (Config κ)) (g : Config.Given κ) :
    Except Failure (Config κ) × Archive (Config κ) :=
  match base.value.merge g.overrides with
  | .ok merged => (.ok merged, a.derive base g.has merged)
  | .error f => (.error f, a)

def compare (a : Archive α) (same : (String → Bool) → α → α → Bool) (i j : Int) :
    Except Failure Bool := do
  let x ← Index.item a i
  let y ← Index.item a j
  return same (x.origins.shared y.origins) x.value y.value

end Archive

end Retry.Simulation
