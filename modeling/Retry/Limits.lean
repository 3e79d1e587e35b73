import Retry.Failure
import Retry.Number

/-!
# Checks on settings

A count of attempts starts at one, an interval and the limits of a backoff at
zero. A check fails only if the number lies *below* its bound, so a NaN passes
every check. Nothing at all cannot be compared with a bound (`Limits.given`).
Policies, backoffs and configurations share these checks.
-/

namespace Retry

/-- The failure of a step that would need a double near a whole number past their range. -/
def Failure.tooLarge : Failure := .of .overflowError "int too large to convert to float"

/-- The result of an arithmetic step, or its failure. -/
def Number.orTooLarge {α : Type} (result : Option α) : Except Failure α :=
  match result with
  | some a => .ok a
  | none => .error .tooLarge

/-- The most digits of a whole number that is read or written. -/
def Number.digitLimit : Nat := 4300

/-- The failure of reading or writing a whole number of more digits; `found` tells how many
there are, if that is known. -/
def Failure.tooManyDigits (found : String) : Failure :=
  .of .valueError (s!"Exceeds the limit ({Number.digitLimit} digits) for integer string " ++
    s!"conversion{found}; use sys.set_int_max_str_digits() to increase the limit")

/-- Whether a number can be written; whole numbers of too many digits cannot. -/
def Number.writable : Number → Bool
  | .whole n => n.natAbs < 10 ^ digitLimit
  | _ => true

/-- Whether the text of a whole number can be read. -/
def Number.readable (text : String) : Except Failure Unit :=
  let digits := (text.toList.filter Char.isDigit).length
  if digits ≤ digitLimit then .ok ()
  else .error (.tooManyDigits s!": value has {digits} digits")

theorem Except.both_ok {ε : Type} {x y : Except ε Unit} :
    (x >>= fun _ => y) = .ok () ↔ x = .ok () ∧ y = .ok () := by
  rcases x with e | ⟨⟩ <;> simp [bind, Except.bind]

namespace Limits

/-- A value that is to be compared with a bound. -/
def given (bound : Number) : Option Number → Except Failure Number
  | some value => .ok value
  | none => .error (.of .typeError
      s!"'<' not supported between instances of 'NoneType' and '{bound.typeName}'")

theorem given_ok {bound : Number} {given? : Option Number} {value : Number} :
    given bound given? = .ok value ↔ given? = some value := by
  cases given? <;> simp [given]

/-- The failure of a number below a bound. The message may show both, so it cannot be written if
one of them cannot. -/
def below (bound value : Number) (message : String) : Failure :=
  if bound.writable && value.writable then .of .valueError message else .tooManyDigits ""

/-- Fails with `message` if a number lies below a bound. -/
def atLeast (bound value : Number) (message : String) : Except Failure Unit :=
  if value.lt bound then .error (below bound value message) else .ok ()

theorem atLeast_ok {bound value : Number} {message : String} :
    atLeast bound value message = .ok () ↔ value.lt bound = false := by
  unfold atLeast
  cases value.lt bound <;> simp

/-- A count of attempts starts at one: `validate_max_attempts`. -/
def maxAttempts (value : Number) : Except Failure Unit :=
  atLeast 1 value s!"max_attempts must be >= 1, got {value.text}"

def interval (value : Number) : Except Failure Unit :=
  atLeast 0 value s!"interval must be >= 0, got {value.text}"

/-- A limit on the number of delays, if there is one, starts at zero. -/
def delayCount : Option Number → Except Failure Unit
  | none => .ok ()
  | some value => atLeast 0 value s!"max_attempts must be >= 0, got {value.text}"

/-- A limit on the time spent waiting, if there is one, starts at zero. -/
def elapsed : Option Number → Except Failure Unit
  | none => .ok ()
  | some value => atLeast 0 value s!"max_elapsed_time must be >= 0, got {value.text}"

/-- The checks on a backoff, in the order of `validate_backoff_params`. -/
def backoff (intervalValue : Number) (count time : Option Number) : Except Failure Unit := do
  interval intervalValue
  delayCount count
  elapsed time

theorem backoff_ok {intervalValue : Number} {count time : Option Number} :
    backoff intervalValue count time = .ok () ↔
      interval intervalValue = .ok () ∧ delayCount count = .ok () ∧ elapsed time = .ok () := by
  rw [backoff, Except.both_ok, Except.both_ok]

end Limits

end Retry
