import Retry.Datum
import Retry.Limits

/-!
# Severity levels

A level is a whole number; six of them have names. A logger has a threshold, and
a record is kept if its level is positive and reaches that threshold. A record may also
be made at a truth value: that counts as one or zero, and is written as it was given.
-/

namespace Retry.Level

def debug : Int := 10

/-- The level that holds where no threshold is set. -/
def unset : Int := 30

def titles : List (Int × String) :=
  [(0, "NOTSET"), (10, "DEBUG"), (20, "INFO"), (30, "WARNING"), (40, "ERROR"), (50, "CRITICAL")]

/-- The text of a level. Numbers of equal value have one title, but those without a title
are written as they were given. -/
def text (level : Number) : String :=
  let title : Option String := match level with
    | .whole n => titles.lookup n
    | level => (titles.find? fun entry => level.same (.whole entry.1)).map (·.2)
  title.getD ("Level " ++ level.text)

/-- A number of too many digits has no name as a level. -/
def nameable (level : Number) : Except Failure Unit :=
  if level.writable then .ok () else .error (.tooManyDigits "")

def names : List (String × Int) :=
  [("NOTSET", 0), ("DEBUG", 10), ("INFO", 20), ("WARN", 30), ("WARNING", 30), ("ERROR", 40),
    ("CRITICAL", 50), ("FATAL", 50)]

def named (name : String) : Except Failure Int :=
  match names.lookup name with
  | some level => .ok level
  | none => .error (.of .valueError s!"Unknown level: {Text.quoted name}")

/-- How a level is written that any plain data gives: a number by its name, if it has one,
a name by its number, and anything else as it is shown. -/
def label : Datum → Except Failure Datum
  | .number n => do
    nameable n
    return .text (text n)
  | .text name => .ok (match names.lookup name with
    | some level => .number (.whole level)
    | none => .text ("Level " ++ name))
  | .null => .ok (.text ("Level " ++ Datum.null.literal))
  | d => .error (.unhashable d)

/-- The level that plain data gives: a whole number, or a name. -/
def given : Datum → Except Failure Int
  | .text name => named name
  | d =>
    match d with
    | .number n => (n.whole?.map .ok).getD (invalid d)
    | d => invalid d
where
  /-- A level that is neither. -/
  invalid (d : Datum) : Except Failure Int :=
    .error (.of .typeError s!"Level not an integer or a valid string: {d.literal}")

/-- Whether a record of a level is kept under a threshold. -/
def enabled (threshold : Int) (level : Number) : Bool :=
  match level.whole? with
  | some n => 0 < n && (if threshold = 0 then unset else threshold) ≤ n
  | none => false

/-- The level that plain data asks a record to be made at: none where no record would be
kept, a failure where it cannot be compared with a threshold. Records are made at whole
levels only. -/
def asked (threshold : Int) : Datum → Except Failure (Option Number)
  | .number n =>
    match n.whole? with
    | some _ => .ok (some n)
    | none =>
      if Number.lt 0 n && Number.le (.whole (if threshold = 0 then unset else threshold)) n then
        .error (.of .typeError "level must be an integer")
      else .ok none
  | .list items => .error (.unhashable (.list items))
  | .object entries => .error (.unhashable (.object entries))
  | d => .error (.of .typeError
      s!"'>=' not supported between instances of 'int' and '{d.typeName}'")

end Retry.Level
