import Retry.Attempt
import Retry.Backoff
import Retry.Record

/-!
# The phases of a call

Every phase of a call is recorded at debug level, with the operation's name and
the number of the attempt as fields; the phase before a wait also has the delay.
The text of that phase holds the text of the failure and the delay with two
decimals, and either may fail; all other phases can always be recorded.
-/

namespace Retry

/-- A phase of a call. -/
inductive Phase where
  | starting
  | succeeded
  | failed (error : Failure)
  | backoffStopped
  | waiting (error : Failure) (delay : Delay)
  | waitCancelled
  | retrying
  | retryFailed (error : Failure)
  | retrySucceeded
  | exhausted

namespace Phase

def logger : String := "aretry.template.core"

/-- The failure attached to the record of a phase. -/
def error? : Phase → Option Failure
  | .failed f => some f
  | .retryFailed f => some f
  | _ => none

def delay? : Phase → Option Delay
  | .waiting _ delay => some delay
  | _ => none

/-- The message of a phase of a named operation at an attempt. -/
def message (name : String) (attempt : Attempt) : Phase → Except Failure String
  | .starting => .ok s!"Preparing to execute operation '{name}'"
  | .succeeded => .ok s!"Operation '{name}' completed successfully"
  | .failed _ => .ok s!"Execution of operation '{name}' failed; initiating the retry process"
  | .backoffStopped => .ok s!"Backoff policy for operation '{name}' exhausted"
  | .waiting error delay => do
    let reason ← error.text
    let seconds ← delay.seconds
    return s!"Operation '{name}' failed due to '{reason}'; backing off for {seconds}s"
  | .waitCancelled => .ok s!"Backoff for operation '{name}' cancelled; aborting retries"
  | .retrying => .ok s!"Preparing to retry operation '{name}'"
  | .retryFailed _ => .ok s!"Retry of operation '{name}' failed"
  | .retrySucceeded => .ok s!"Operation '{name}' completed successfully after retry"
  | .exhausted =>
    .ok s!"Retry policy for operation '{name}' exhausted after {attempt.shown} attempts"

def fields (name : Datum) (attempt : Attempt) (more : List (String × Extra)) :
    List (String × Extra) :=
  [("operation", .datum name), ("attempt", .datum attempt)] ++ more

/-- The record of a phase, as `log_phase` asks for it. -/
def record (name : String) (attempt : Attempt) (phase : Phase) : Except Failure Record := do
  let message ← phase.message name attempt
  let delay := phase.delay?.map fun delay => ("delay", Extra.datum (.ofNumber delay))
  return .structured logger (.whole Level.debug) message
    (fields (.text name) attempt delay.toList) phase.error?

theorem message_isOk (name : String) (attempt : Attempt) {phase : Phase}
    (h : phase.delay? = none) : ∃ m, phase.message name attempt = .ok m := by
  cases phase <;> simp_all [delay?, message]

end Phase

end Retry
