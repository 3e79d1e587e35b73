import Retry.Act
import Retry.Attempt

/-!
# Listeners

A listener is told of the life of a call: before each retry, after it succeeded or
failed, and when the retries ran out. It is shown the state of the call, which it
may change, and the event; on a failed call it may add suppressed failures to the
failure that the event carries.

Listeners are leaves, or *groups* that pass every event on to their members in
order. A group is known by a number and its members are looked up as the event
goes through, so a member that joins meanwhile is told as well.
-/

namespace Retry

/-- What a listener sees of a call: the operation's name, the policy's execution,
and the number of the attempt. It may set name and number to any plain value. -/
structure CallState (ε : Type) where
  operation : Datum
  execution : ε
  attempt : Attempt

/-- The literal of a state, from the text of its execution. -/
def CallState.literal {ε : Type} (executionText : ε → String) (s : CallState ε) : String :=
  s!"RetryState(operation_name={s.operation.literal}, " ++
    s!"execution={executionText s.execution}, attempt={s.attempt.literal})"

/-- What a listener is told. -/
inductive Event (α : Type) where
  | beforeRetry
  | success (result : α)
  | failure (error : Failure)
  | exhaustion (error : Failure)

namespace Event

variable {α : Type}

def hook : Event α → String
  | .beforeRetry => "before_retry"
  | .success _ => "on_retry_success"
  | .failure _ => "on_retry_failure"
  | .exhaustion _ => "on_retry_policy_exhaustion"

/-- The failure that an event carries; the absent one if it carries none. -/
def error : Event α → Failure
  | .failure f => f
  | .exhaustion f => f
  | _ => .missing

def withError (e : Event α) (f : Failure) : Event α :=
  match e with
  | .failure _ => .failure f
  | .exhaustion _ => .exhaustion f
  | e => e

end Event

/-- An event together with the state of the call that it belongs to. -/
structure Notice (ε α : Type) where
  state : CallState ε
  event : Event α

namespace Notice

variable {ε α : Type}

/-- Adds a suppressed failure to the one that the event carries:
`RetryExhaustedError.add_suppressed`. -/
def addSuppressed (n : Notice ε α) (added : Failure) : Except Failure (Notice ε α) := do
  return { n with event := n.event.withError (← n.event.error.addSuppressed added) }

end Notice

/-- A listener: a leaf, or the group of a number. -/
inductive Listener (κ : Type) where
  | leaf (l : κ)
  | group (id : Nat)

namespace Listener

variable {σ κ : Type}

/-- The failure of an event that is passed on without end. -/
def endless : Failure := .of .recursionError "maximum recursion depth exceeded"

mutual

/-- Tells a listener: a leaf by its hook, a group by telling its members, as the hooks of
`CompositeRetryListener` do. -/
def tell (members : σ → Nat → List (Listener κ)) (hook : κ → Act σ Unit) :
    Nat → Listener κ → Act σ Unit
  | 0, _ => throw endless
  | _ + 1, .leaf l => hook l
  | fuel + 1, .group id => tellFrom members hook fuel id 0

/-- Tells the members of a group from a position on, as long as there are any. -/
def tellFrom (members : σ → Nat → List (Listener κ)) (hook : κ → Act σ Unit) :
    Nat → Nat → Nat → Act σ Unit
  | 0, _, _ => throw endless
  | fuel + 1, id, i => do
    match (← Act.look fun s => members s id)[i]? with
    | none => pure ()
    | some member =>
      tell members hook fuel member
      tellFrom members hook fuel id (i + 1)

end

end Listener

/-! ## Events as callbacks see them -/

/-- The event that a callback is given: a frozen value. -/
structure CallEvent where
  operation : Datum
  attempt : Attempt
  result : Datum
  error : Failure

namespace CallEvent

def ofNotice {ε : Type} (n : Notice ε Datum) : CallEvent :=
  { operation := n.state.operation
    attempt := n.state.attempt
    result := match n.event with
      | .success result => result
      | _ => .null
    error := n.event.error }

def literal (e : CallEvent) : String :=
  s!"RetryEvent(operation_name={e.operation.literal}, attempt={e.attempt.literal}, " ++
    s!"result={e.result.literal}, error={e.error.literal})"

def fields : List String := ["operation_name", "attempt", "result", "error"]

/-- The failure of giving a name that no field has; the first such name counts. -/
def unexpected? (names : List String) : Option Failure :=
  (names.find? fun name => !fields.contains name).map fun name =>
    .of .typeError s!"RetryEvent.__init__() got an unexpected keyword argument '{name}'"

/-- Equality of events. A value that both share, handed on from one to the other, is
equal to itself; failures have no other equality. -/
def same (shared : String → Bool) (a b : CallEvent) : Bool :=
  (shared "operation_name" || a.operation.same b.operation) &&
    (shared "attempt" || a.attempt.same b.attempt) &&
    (shared "result" || a.result.same b.result) &&
    (shared "error" || (a.error.isMissing && b.error.isMissing))

/-- An assignment to a field of a frozen value. -/
def frozen (field : String) : Failure :=
  .of .frozenInstanceError s!"cannot assign to field {Text.quoted field}"

end CallEvent

end Retry
