import Retry.Limits

/-!
# Delays

A delay is how long to wait before the next attempt, in seconds. A backoff may also
give nothing where a delay is due; a wait takes that for no limit, and every step that
needs the number fails: adding it to a time, and writing it.
-/

namespace Retry

/-- A number of seconds, or nothing in its place. -/
abbrev Delay := Option Number

namespace Delay

def is (d : Delay) (n : Number) : Bool := d.any (·.same n)

def seconds : Delay → Except Failure String
  | some n => Number.orTooLarge n.seconds?
  | none => .error (.of .typeError "unsupported format string passed to NoneType.__format__")

/-- A delay that is to be written. Whole numbers of too many digits are refused. -/
def written : Delay → Except Failure Delay
  | some (.whole n) =>
    if n.natAbs < 10 ^ Number.digitLimit then .ok (some (.whole n))
    else .error (.tooManyDigits "")
  | d => .ok d

/-- The sum of a time and a delay; `sign` is how the step is written. -/
def addedTo (time : Number) (sign : String) : Delay → Except Failure Number
  | some n => Number.orTooLarge (time.add? n)
  | none => .error (.of .typeError
      s!"unsupported operand type(s) for {sign}: '{time.typeName}' and 'NoneType'")

end Delay

end Retry
