import Retry.Limits
import Retry.Record

/-!
# Retry policies

A policy decides after each failure whether the operation is tried again. It is
asked through an *execution*, which lives as long as one call and counts the
failures it was shown.

* `CountPolicy` permits a fixed number of attempts, whatever the failures.
* `SelectivePolicy` also looks at the failure: it must be of a kind to retry on,
  of no kind to ignore, and accepted by a predicate. The first refusal is final.

An answer to a consultation has the next execution and the log records made on
the way; the execution moves on also when the consultation itself fails.
-/

namespace Retry

/-- What comes of asking an execution about a failure. -/
structure Consultation (ε : Type) where
  answer : Except Failure Bool
  next : ε
  notes : List Record

/-! ## Counting attempts -/

/-- Permits `maxAttempts` attempts in all. -/
structure CountPolicy where
  maxAttempts : Number

namespace CountPolicy

/-- The attempts permitted where nothing else is said. -/
def defaultMaxAttempts : Number := 3

/-- `MaxAttemptsRetryPolicy.__init__`. -/
def make (maxAttempts : Number) : Except Failure CountPolicy := do
  Limits.maxAttempts maxAttempts
  return ⟨maxAttempts⟩

def text (p : CountPolicy) : String :=
  s!"MaxAttemptsRetryPolicy(max_attempts={p.maxAttempts.text})"

/-- A call under the policy: the failures shown so far. -/
structure Execution where
  policy : CountPolicy
  attempts : Nat

def start (p : CountPolicy) : Execution := ⟨p, 0⟩

namespace Execution

/-- One more failure; permitted while fewer than the maximum were shown:
`MaxAttemptsRetryExecution.should_retry`. -/
def shouldRetry (e : Execution) (_ : Failure) : Consultation Execution :=
  let next := { e with attempts := e.attempts + 1 }
  { answer := .ok (Number.lt (.whole next.attempts) e.policy.maxAttempts), next, notes := [] }

def text (e : Execution) : String :=
  s!"MaxAttemptsRetryExecution(attempts={e.attempts}, max_attempts={e.policy.maxAttempts.text})"

end Execution

end CountPolicy

/-! ## Looking at the failure -/

/-- Permits `maxAttempts` attempts, as long as every failure is retryable. The
kinds are given by name. -/
structure SelectivePolicy where
  maxAttempts : Number
  retryOn : List String
  ignore : List String
  predicate : Option (Failure → Except Failure Bool)

namespace SelectivePolicy

/-- The kinds retried on where nothing else is said: all ordinary failures. -/
def defaultRetryOn : List String := ["Exception"]

def make (maxAttempts : Number) (retryOn ignore : List String)
    (predicate : Option (Failure → Except Failure Bool)) : Except Failure SelectivePolicy := do
  Limits.maxAttempts maxAttempts
  return ⟨maxAttempts, retryOn, ignore, predicate⟩

/-- Whether a failure may be retried: `ExceptionRetryPolicy.is_retryable`. Ignored kinds come first,
then the kinds to retry on, and only then is the predicate asked. -/
def isRetryable (p : SelectivePolicy) (f : Failure) : Except Failure Bool :=
  if p.ignore.any f.isA then .ok false
  else if !p.retryOn.any f.isA then .ok false
  else match p.predicate with
    | none => .ok true
    | some accepts => accepts f

def text (p : SelectivePolicy) : String :=
  s!"ExceptionRetryPolicy(max_attempts={p.maxAttempts.text}, " ++
    s!"retry_on=({Datum.joined p.retryOn}))"

def logger : String := "aretry.policy.exception"

/-- A call under the policy: the failures shown until it was exhausted. -/
structure Execution where
  policy : SelectivePolicy
  attempts : Nat
  exhausted : Bool

def start (p : SelectivePolicy) : Execution := ⟨p, 0, false⟩

namespace Execution

/-- One more failure: `ExceptionRetryExecution.should_retry`. An exhausted execution refuses and
counts no further. A failure that is not retryable is noted by its text; only then is the
execution exhausted. -/
def shouldRetry (e : Execution) (f : Failure) : Consultation Execution :=
  if e.exhausted then { answer := .ok false, next := e, notes := [] }
  else
    let next := { e with attempts := e.attempts + 1 }
    match e.policy.isRetryable f with
    | .error x => { answer := .error x, next, notes := [] }
    | .ok false =>
      match f.text with
      | .error x => { answer := .error x, next, notes := [] }
      | .ok t =>
        { answer := .ok false
          next := { next with exhausted := true }
          notes := [.note logger s!"{f.kind.name} is not retryable: {t}"] }
    | .ok true =>
      if e.policy.maxAttempts.le (.whole next.attempts) then
        { answer := .ok false, next := { next with exhausted := true }, notes := [] }
      else { answer := .ok true, next, notes := [] }

def text (e : Execution) : String :=
  s!"ExceptionRetryExecution(attempts={e.attempts}, " ++
    s!"exhausted={(Number.truth e.exhausted).text})"

theorem shouldRetry_of_exhausted {e : Execution} (h : e.exhausted = true) (f : Failure) :
    e.shouldRetry f = { answer := .ok false, next := e, notes := [] } := by
  simp [shouldRetry, h]

end Execution

end SelectivePolicy

end Retry
