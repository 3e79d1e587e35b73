import Retry.Backoff.Schedule
import Retry.Index
import Retry.Policy

/-!
# Policies and backoffs of a simulation

A simulated call uses the library's policies and backoffs, or ones that follow a
script: a policy with given answers, a backoff with given delays (limited like any
other, or not limited at all). The last entry of a script repeats; an empty script has
no entry to give.
-/

namespace Retry.Simulation

/-- The entry of a script at a position; the last one repeats. -/
def entryOf {α : Type} (script : List α) (position : Int) : Except Failure α :=
  Index.item script (min position (script.length - 1))

def contains (needle : List Char) : List Char → Bool
  | [] => needle.isEmpty
  | c :: rest => needle.isPrefixOf (c :: rest) || contains needle rest

/-- A condition on failures. -/
inductive Predicate where
  | contains (needle : String)
  | returns (value : Datum)
  | raises (f : Failure)

def Predicate.accepts : Predicate → Failure → Except Failure Bool
  | .contains needle, f => f.text.map fun t => Simulation.contains needle.toList t.toList
  | .returns value, _ => .ok value.isTrue
  | .raises x, _ => .error x

/-- A policy of a simulation. -/
inductive Policy where
  | count (p : CountPolicy)
  | selective (p : SelectivePolicy)
  | scripted (answers : List Datum)

/-- A call under a policy of a simulation. -/
inductive Execution where
  | count (e : CountPolicy.Execution)
  | selective (e : SelectivePolicy.Execution)
  | scripted (answers : List Datum) (calls : Nat)

namespace Policy

def standard : Policy := .count ⟨CountPolicy.defaultMaxAttempts⟩

def text : Policy → String
  | .count p => p.text
  | .selective p => p.text
  | .scripted _ => "ScriptedPolicy()"

def start : Policy → Execution
  | .count p => .count p.start
  | .selective p => .selective p.start
  | .scripted answers => .scripted answers 0

def typeName : Policy → String
  | .count _ => "MaxAttemptsRetryPolicy"
  | .selective _ => "ExceptionRetryPolicy"
  | .scripted _ => "ScriptedPolicy"

/-- Whether a policy regards a failure as retryable; only a selective one can be asked. -/
def isRetryable (p : Policy) (f : Failure) : Except Failure Bool :=
  match p with
  | .selective p => p.isRetryable f
  | p => .error (.of .attributeError s!"'{p.typeName}' object has no attribute 'is_retryable'")

end Policy

namespace Execution

def text : Execution → String
  | .count e => e.text
  | .selective e => e.text
  | .scripted _ calls => s!"ScriptedExecution(calls={calls})"

def shouldRetry (e : Execution) (f : Failure) : Consultation Execution :=
  match e with
  | .count e => let c := e.shouldRetry f; ⟨c.answer, .count c.next, c.notes⟩
  | .selective e => let c := e.shouldRetry f; ⟨c.answer, .selective c.next, c.notes⟩
  | .scripted answers calls =>
    ⟨(entryOf answers calls).map Datum.isTrue, .scripted answers (calls + 1), []⟩

/-- The answer of an execution in the words of its script, if it has one. -/
def wording? : Execution → Option Datum
  | .scripted answers calls => (entryOf answers calls).toOption
  | _ => none

end Execution

/-- A backoff of a simulation. -/
inductive Pacing where
  | limited (b : Backoff)
  | scripted (delays : List (Except Failure Delay))

/-- A walk through the delays of a backoff of a simulation. -/
inductive Pace where
  | limited (b : Backoff) (run : Backoff.Run)
  | scripted (delays : List (Except Failure Delay)) (given : Nat)

def scriptedDelay (delays : List (Except Failure Delay)) (position : Int) :
    Except Failure Delay :=
  entryOf delays position >>= id

/-- A limited backoff whose delays follow a script. -/
def planned (delays : List (Except Failure Delay)) (maxAttempts maxElapsed : Option Number) :
    Except Failure Backoff := do
  Limits.backoff 0 maxAttempts maxElapsed
  return {
    calculate := fun index draws => (scriptedDelay delays index, draws)
    maxAttempts, maxElapsed
    text := "CalcBackOff()" }

namespace Pacing

def standard : Except Failure Pacing :=
  (Backoff.fixed Backoff.defaultInterval none none).map .limited

def text : Pacing → String
  | .limited b => b.text
  | .scripted _ => "ScriptedBackOff()"

/-- The delay that a backoff calculates for an index. -/
def calculate : Pacing → Int → Draws → Except Failure Delay × Draws
  | .limited b, index, draws => b.calculate index draws
  | .scripted delays, index, draws => (scriptedDelay delays index, draws)

def start : Pacing → Pace
  | .limited b => .limited b .start
  | .scripted delays => .scripted delays 0

end Pacing

/-- The next delay of a walk: the delay, the walk and the draws after it, and the
records made on the way. -/
def Pace.next (p : Pace) (draws : Draws) : Except Failure Delay × Pace × Draws × List Record :=
  match p with
  | .limited b run =>
    let a := b.next run draws
    (a.delay, .limited b a.run, a.draws, a.notes)
  | .scripted delays given =>
    (scriptedDelay delays given, .scripted delays (given + 1), draws, [])

end Retry.Simulation
