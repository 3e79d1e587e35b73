import Retry.Failure

/-!
# Numbers of attempts

The attempts of a call are numbered from one on. A listener may set the number to any
plain value, so counting on from it can fail. `next_whole` says that whole numbers count
as usual.
-/

namespace Retry

/-- The number of an attempt, as a plain value. -/
abbrev Attempt := Datum

namespace Attempt

def uncountable (message : String) : Failure := .of .typeError message

/-- The number of the attempt after this one: `state.attempt += 1` in the loop. -/
def next : Attempt → Except Failure Attempt
  | .number n => .ok (.number n.successor)
  | .text _ => .error (uncountable "can only concatenate str (not \"int\") to str")
  | .list _ => .error (uncountable "'int' object is not iterable")
  | d => .error (uncountable s!"unsupported operand type(s) for +=: '{d.typeName}' and 'int'")

theorem next_whole (n : Int) : next (.number (.whole n)) = .ok (.number (.whole (n + 1))) := rfl

end Attempt

end Retry
