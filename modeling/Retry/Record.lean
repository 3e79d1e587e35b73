import Retry.Datum.Encoder
import Retry.Record.Level
import Retry.Record.Timestamp

/-!
# Log records and their lines

A record has a logger, a level, a message, named fields in order, and possibly a
failure. `Record.line` writes it as one JSON object on one line: the standard
entries first, then the fields. A field that is named like a standard entry takes
its place; the names that loggers keep for themselves are skipped. What the standard
entries say is the `Header` of the line. There is no line of values that `json.dumps` does not
write in the room that the stack has for them (`Datum.dumps`).

`Record.structured` is the record of the loop: its field names get the mark
`retry_`, so they can neither collide with a standard entry nor be skipped. `Record.emitted` is
what a logger makes of them, which would refuse a field that is named like its own attributes.
-/

namespace Retry

/-- The value of a field: plain data, or something that is written by its text. -/
inductive Extra where
  | datum (d : Datum)
  | failure (f : Failure)
  | shown (text : String)
  | list (items : List Extra)
  | table (entries : List (Datum × Extra))

namespace Extra

instance : Inhabited Extra := ⟨.datum .null⟩

def keyText : Datum → Except Failure String
  | .text s => .ok s
  | d => d.dumps 0

/-- The key of a table that plain data gives. Lists and objects can be none. -/
def key : Datum → Except Failure Datum
  | .list items => .error (.unhashable (.list items))
  | .object entries => .error (.unhashable (.object entries))
  | d => .ok d

/-- Entries as a table keeps them: equal keys count once, in the form and the place
of the first and with the value of the last. -/
def merged (entries : List (Datum × Extra)) : List (Datum × Extra) :=
  entries.foldl (fun table (k, v) =>
    if table.any (·.1.same k) then table.map fun e => if e.1.same k then (e.1, v) else e
    else table ++ [(k, v)]) []

mutual

/-- The plain data that is written for a value, in the room that there is. A text that stands for
a value takes a level of its own. -/
def toDatum (room : Nat) : Extra → Except Failure Datum
  | .datum d => do
    d.encodable room
    return d
  | .failure f => if f.isMissing then .ok .null else do
    let text ← f.text
    Datum.nested room fun _ => .ok (.text text)
  | .shown s => Datum.nested room fun _ => .ok (.text s)
  | .list items => Datum.nested room fun room => (itemsToData room items).map .list
  | .table entries => Datum.nested room fun room => (entriesToData room entries).map .object

def itemsToData (room : Nat) : List Extra → Except Failure (List Datum)
  | [] => .ok []
  | e :: es => do
    let d ← toDatum room e
    let ds ← itemsToData room es
    return d :: ds

def entriesToData (room : Nat) : List (Datum × Extra) → Except Failure (List (String × Datum))
  | [] => .ok []
  | (k, e) :: es => do
    let name ← keyText k
    let d ← toDatum room e
    let ds ← entriesToData room es
    return (name, d) :: ds

end

end Extra

/-- A log record. -/
structure Record where
  logger : String
  level : Number
  message : String
  fields : List (String × Extra)
  failure : Option Failure

namespace Record

/-- Names that every record uses for itself; fields of these names are not written. -/
def reserved : List String :=
  ["name", "msg", "args", "levelname", "levelno", "pathname", "filename", "module", "exc_info",
    "exc_text", "stack_info", "lineno", "funcName", "created", "msecs", "relativeCreated", "thread",
    "threadName", "processName", "process", "message", "asctime"]

/-- What a line says of a record in its standard entries. -/
structure Header where
  timestamp : String
  level : String
  logger : String
  message : String
  correlation : Option Datum
  report : Option String

namespace Header

def standard (h : Header) : List (String × Datum) :=
  [("timestamp", .text h.timestamp), ("level", .text h.level), ("logger", .text h.logger),
    ("message", .text h.message)] ++
  (h.correlation.map fun id => ("correlation_id", id)).toList ++
  (h.report.map fun report => ("exception", .text report)).toList

def entries (h : Header) (fields : List (String × Extra)) : List (String × Extra) :=
  Datum.setEntries (h.standard.map fun entry => (entry.1, .datum entry.2))
    (fields.filter fun field => !reserved.contains field.1)

/-- The line of a header and of fields, in the room that there is: `StructuredFormatter.format`. -/
def line (room : Nat) (h : Header) (fields : List (String × Extra)) : Except Failure String :=
  Datum.nested room fun room => do
    let entries ← (h.entries fields).mapM fun (name, value) => do
      return (name, ← value.toDatum room)
    return (Datum.object entries).toJson

end Header

/-- The header of a record made at a moment, under a correlation id. -/
def header (r : Record) (timestamp : String) (correlation : Option Datum) : Header :=
  { timestamp, correlation, level := Level.text r.level, logger := r.logger
    message := r.message, report := r.failure.map Failure.report }

/-- The line of a record made at a moment, under a correlation id. -/
def line (room : Nat) (r : Record) (created : Number) (msecs : Option Number)
    (correlation : Option Datum) : Except Failure String := do
  let timestamp ← Timestamp.text created msecs
  (r.header timestamp correlation).line room r.fields

/-- The room that a stack of a thousand frames leaves for a line, give or take the calls on the way
to it. -/
def usualRoom : Nat := 900

def mark : String := "retry_"

def marked (fields : List (String × Extra)) : List (String × Extra) :=
  Datum.setEntries [] (fields.map fun field => (mark ++ field.1, field.2))

/-- A record whose fields carry the mark, as `log_structured` asks for it. -/
def structured (logger : String) (level : Number) (message : String)
    (fields : List (String × Extra)) (failure : Option Failure) : Record :=
  { logger, level, message, failure, fields := marked fields }

/-- A record with fields, as a logger makes it: its level must have a name, and it refuses field
names that it keeps for itself. -/
def make (logger : String) (level : Number) (message : String) (fields : List (String × Extra))
    (failure : Option Failure) : Except Failure Record := do
  Level.nameable level
  match fields.find? fun field => reserved.contains field.1 with
  | some field => .error (.of .keyError
      s!"Attempt to overwrite {Text.quoted field.1} in LogRecord")
  | none => .ok { logger, level, message, fields, failure }

/-- What `log_structured` emits if a logger with a threshold is asked for a record with marked
fields: this record, or none if its level is not enabled. -/
def emitted (threshold : Int) (logger : String) (level : Datum) (message : String)
    (fields : List (String × Extra)) (failure : Option Failure) : Except Failure (List Record) := do
  match ← Level.asked threshold level with
  | some level =>
    if Level.enabled threshold level then
      return [← make logger level message (marked fields) failure]
    else return []
  | none => return []

def note (logger message : String) : Record :=
  { logger, level := .whole Level.debug, message, fields := [], failure := none }

end Record

end Retry
