import Retry.Calendar
import Retry.Failure
import Retry.Number

/-!
# Timestamps

The moment of a record is given in seconds since 1970 and, apart, in
milliseconds; both are written in Coordinated Universal Time as
`year-month-dayThours:minutes:seconds.millisecondsZ`. The seconds are rounded
down, the milliseconds toward zero. A moment that no calendar year of the system
can hold is refused.
-/

namespace Retry

namespace Number

/-- The whole number that a rounding makes of a number; a NaN and the infinities
have none. -/
def round? (rounding : Int → Int → Int) : Number → Option Int
  | .truth b => some (if b then 1 else 0)
  | .whole n => some n
  | .double (.finite negative units _) =>
    some (rounding (Binary64.signedUnits negative units) Binary64.one)
  | .double _ => none

def isNaN : Number → Bool
  | .double .nan => true
  | _ => false

end Number

namespace Timestamp

def padded (width n : Nat) : List Char :=
  let digits := Nat.toDigits 10 n
  List.replicate (width - digits.length) '0' ++ digits

/-- At least `width` characters, a minus sign in front of the padding. -/
def paddedSigned (width : Nat) (n : Int) : List Char :=
  if n < 0 then '-' :: padded (width - 1) n.natAbs else padded width n.natAbs

/-- The day and the time of day of a moment in seconds. -/
def secondsText (seconds : Int) : List Char :=
  let date := Date.ofDays (seconds / 86400)
  let clock := (seconds % 86400).toNat
  Number.wholeText date.year ++ '-' :: (padded 2 date.month ++ '-' :: (padded 2 date.day ++
    'T' :: (padded 2 (clock / 3600) ++ ':' :: (padded 2 (clock / 60 % 60) ++
      ':' :: padded 2 (clock % 60)))))

/-- The text of a moment in whole seconds and milliseconds. -/
def write (seconds millis : Int) : List Char :=
  secondsText seconds ++ '.' :: (paddedSigned 3 millis ++ ['Z'])

/-- The clock ends before `2^63` seconds; a double that far is told apart only by the
calendar. -/
def slack : Number → Int
  | .double _ => 1
  | _ => 0

/-- The whole seconds of a moment, if the system's clock can hold them. -/
def wholeSeconds (created : Number) : Except Failure Int :=
  if created.isNaN then .error (.of .valueError "Invalid value NaN (not a number)")
  else
    match created.round? (· / ·) with
    | some seconds =>
      let year := (Date.ofDays (seconds / 86400)).year
      if seconds < -2 ^ 63 ∨ 2 ^ 63 + slack created ≤ seconds then
        .error (.of .overflowError "timestamp out of range for platform time_t")
      else if year < 1900 - 2 ^ 31 ∨ 1900 + 2 ^ 31 ≤ year then
        .error (.of .osError "[Errno 75] Value too large for defined data type")
      else if 2 ^ 31 ≤ year then
        .error (.of .overflowError "signed integer is greater than maximum")
      else .ok seconds
    | none => .error (.of .overflowError "timestamp out of range for platform time_t")

/-- The whole milliseconds, rounded toward zero. -/
def wholeMillis : Option Number → Except Failure Int
  | none => .error (.of .typeError
      ("int() argument must be a string, a bytes-like object or a real number, " ++
        "not 'NoneType'"))
  | some msecs =>
    match msecs.round? Int.tdiv with
    | some millis => .ok millis
    | none =>
      if msecs.isNaN then .error (.of .valueError "cannot convert float NaN to integer")
      else .error (.of .overflowError "cannot convert float infinity to integer")

/-- The text of a moment, or the failure where there is none: `StructuredFormatter.formatTime`. -/
def text (created : Number) (msecs : Option Number) : Except Failure String := do
  let seconds ← wholeSeconds created
  let millis ← wholeMillis msecs
  return String.ofList (write seconds millis)

end Timestamp

end Retry
