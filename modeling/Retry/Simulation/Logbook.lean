import Retry.Loop.Phase

/-!
# Logging sessions

A session makes records through one logger. The correlation id belongs to the
context: a step that runs in a copy of the context, or in a thread (which starts
without an id), leaves it as it was. The threshold belongs to the logger and stays
changed. Only the records of a logger within the captured one are seen.
-/

namespace Retry.Simulation

/-- One step of a session. -/
inductive LogStep where
  | log (level : Datum) (message : String) (fields : List (String × Extra))
      (failure : Option Failure)
  | phase (message : String) (operation : Datum) (attempt : Attempt)
      (fields : List (String × Extra))
      (failure : Option Failure)
  | level (value : Datum)
  | setId (id : Option Datum)
  | clearId
  | getId
  | context (steps : List LogStep)
  | thread (steps : List LogStep)
  | fails (f : Failure)

instance : Inhabited LogStep := ⟨.getId⟩

/-- What a step answers. -/
inductive LogAnswer where
  | lines (texts : List String)
  | done
  | id (correlation : Option Datum)
  | inner (answers : List LogAnswer)
  | failed (f : Failure)

/-- Where a session stands. -/
structure Logbook where
  threshold : Int
  correlation : Option Datum

namespace Logbook

/-- The logger whose records are captured, and those of the loggers within it. -/
def captured : String := "aretry"

/-- Whether a logger is the captured one, or lies within it. -/
def isCaptured (logger : String) : Bool :=
  logger == captured || (captured ++ ".").toList.isPrefixOf logger.toList

/-- The threshold of a logger: the one of the session, if its records are captured. -/
def thresholdOf (b : Logbook) (logger : String) : Int :=
  if isCaptured logger then b.threshold else 0

/-- What is seen of records that were emitted: the lines at the moment zero of those that are
captured. -/
def shown (b : Logbook) (emitted : Except Failure (List Record)) : LogAnswer :=
  let lines : Except Failure (List String) := do
    let seen := (← emitted).filter fun r => isCaptured r.logger
    seen.mapM fun r => r.line Record.usualRoom 0 (some 0) b.correlation
  match lines with
  | .ok lines => .lines lines
  | .error f => .failed f

mutual

def step (logger : String) (b : Logbook) : LogStep → LogAnswer × Logbook
  | .log level message fields failure =>
    (b.shown (Record.emitted (b.thresholdOf logger) logger level message fields failure), b)
  | .phase message operation attempt fields failure =>
    (b.shown (Record.emitted (b.thresholdOf Phase.logger) Phase.logger
      (.number (.whole Level.debug)) message (Phase.fields operation attempt fields) failure), b)
  | .level value =>
    match Level.given value with
    | .ok threshold => (.done, { b with threshold })
    | .error f => (.failed f, b)
  | .setId id => (.id id, { b with correlation := id })
  | .clearId => (.id none, { b with correlation := none })
  | .getId => (.id b.correlation, b)
  | .fails f => (.failed f, b)
  | .context steps =>
    let (answers, after) := run logger b steps
    (.inner answers, { after with correlation := b.correlation })
  | .thread steps =>
    let (answers, after) := run logger { b with correlation := none } steps
    (.inner answers, { after with correlation := b.correlation })

def run (logger : String) (b : Logbook) : List LogStep → List LogAnswer × Logbook
  | [] => ([], b)
  | s :: ss =>
    let (answer, b) := step logger b s
    let (answers, b) := run logger b ss
    (answer :: answers, b)

end

end Logbook

end Retry.Simulation
