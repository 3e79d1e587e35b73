import Retry.Listener
import Retry.Loop.Phase

/-!
# The retry loop

A call invokes an operation. If that fails with an ordinary failure, the policy
and the backoff are started, and the loop turns: the policy is asked about the
last failure, the backoff for a delay, the delay is waited for, and the operation
is invoked again. The loop ends when the operation succeeds, when the policy
refuses or the backoff stops (the call fails with all failures of its attempts),
or when a wait is cancelled (the call is aborted). Whatever else fails on the way
ends the call as it is, and so does an interruption of the operation.

Everything that the loop does not decide itself is a `Setting`: what the operation
does, how policy and backoff answer, how a wait passes, what listeners do, and
where records go. A setting works on surroundings of any type, so one loop serves
blocking calls and tasks alike.

`Setting.turn` is one turn of the loop, `Setting.run` a whole call: how the loop ends it
(`Ending`), or a failure that the loop did not make itself. Turns are bounded by fuel; a
call that is still going when it runs out has no end.
-/

namespace Retry

/-- What the loop needs from its surroundings `σ`: executions `ε` of a policy,
walks `β` through a backoff, and results `α`. -/
structure Setting (σ ε β α : Type) where
  /-- What the logger makes of the record of a phase. If its level is enabled, that can fail. -/
  accept : Record → σ → Except Failure Unit
  /-- Keeps a record, if its level is enabled. -/
  emit : Record → σ → σ
  /-- Runs the operation once. -/
  invoke : Act σ α
  /-- Starts the policy. -/
  openPolicy : Act σ ε
  /-- Starts the backoff. -/
  openBackoff : Act σ β
  /-- Asks the policy about a failure. -/
  shouldRetry : Failure → Act (ε × σ) Bool
  /-- Asks the backoff for a delay. -/
  nextDelay : Act (β × σ) Delay
  /-- Waits for a delay on behalf of a named operation; the cause if that was cancelled. -/
  pause : String → Delay → Act σ (Option Failure)
  /-- Tells the listener. -/
  notify : Act (Notice ε α × σ) Unit

/-- Where a call stands between two turns. -/
structure Progress (ε β : Type) where
  state : CallState ε
  backoff : β
  first : Failure
  later : List Failure
  last : Failure

/-- How the loop ends a call. A failure of a collaborator, and an interruption of the
operation, is no ending of the loop. -/
inductive Ending (α : Type) where
  | returned (result : α)
  | exhausted (error : Failure)
  | aborted (error : Failure)

def Ending.outcome {α : Type} : Ending α → Except Failure α
  | .returned result => .ok result
  | .exhausted error => .error error
  | .aborted error => .error error

/-- How a turn of the loop ends. -/
inductive Turn (ε β α : Type) where
  | again (p : Progress ε β)
  | refused (p : Progress ε β)
  | ended (ending : Ending α)

namespace Setting

variable {σ ε β α : Type}

/-- Hands a record to the logger, and fails if the logger does: `log_structured`. -/
def log (S : Setting σ ε β α) (record : Record) : Act σ Unit := do
  Act.result (← Act.look (S.accept record))
  Act.change (S.emit record)

/-- Records a phase: `log_phase`. -/
def say (S : Setting σ ε β α) (name : String) (attempt : Attempt) (phase : Phase) : Act σ Unit := do
  S.log (← Act.result (phase.record name attempt))

/-- Tells the listener of an event; the state and the event as it leaves them. -/
def announce (S : Setting σ ε β α) (state : CallState ε) (event : Event α) :
    Act σ (Notice ε α) := do
  let (_, notice) ← Act.focus ⟨state, event⟩ S.notify
  return notice

/-- Asks policy and backoff: the delay before the next attempt, if both grant one. The head of the
loop of `RetryTemplate._retry`. -/
def consult (S : Setting σ ε β α) (name : String) (p : Progress ε β) :
    Act σ (Option Delay × Progress ε β) := do
  let (granted, execution) ← Act.focus p.state.execution (S.shouldRetry p.last)
  let p := { p with state := { p.state with execution } }
  if granted then
    let (delay, backoff) ← Act.focus p.backoff S.nextDelay
    let p := { p with backoff }
    if Backoff.isStop delay then
      S.say name p.state.attempt .backoffStopped
      return (none, p)
    else return (some delay, p)
  else return (none, p)

/-- Aborts a call whose wait was cancelled: `RetryTemplate._abort` behind the token. -/
def abort (S : Setting σ ε β α) (name : String) (attempt : Attempt) (cause : Failure) :
    Act σ Failure := do
  S.say name attempt .waitCancelled
  return .abortedFor (.text name) cause

/-- Waits for a granted delay; the failure of the call if the wait was cancelled. -/
def await (S : Setting σ ε β α) (name : String) (p : Progress ε β) (delay : Delay) :
    Act σ (Option Failure) := do
  S.say name p.state.attempt (.waiting p.last delay)
  match ← S.pause name delay with
  | none => return none
  | some cause => return some (← S.abort name p.state.attempt cause)

/-- Invokes the operation once more, between the events of a retry. The rest of the loop of
`RetryTemplate._retry`. -/
def reattempt (S : Setting σ ε β α) (name : String) (p : Progress ε β) :
    Act σ (Turn ε β α) := do
  let attempt ← Act.result (Attempt.next p.state.attempt)
  let state := { p.state with attempt }
  S.say name state.attempt .retrying
  let notice ← S.announce state .beforeRetry
  match ← Act.trial S.invoke with
  | .ok result =>
    let notice ← S.announce notice.state (.success result)
    S.say name notice.state.attempt .retrySucceeded
    return .ended (.returned result)
  | .error failure =>
    let notice ← S.announce notice.state (.failure failure)
    let failure := notice.event.error
    S.say name notice.state.attempt (.retryFailed failure)
    return .again
      { p with state := notice.state, later := p.later ++ [failure], last := failure }

def turn (S : Setting σ ε β α) (name : String) (p : Progress ε β) : Act σ (Turn ε β α) := do
  match ← S.consult name p with
  | (none, p) => return .refused p
  | (some delay, p) =>
    match ← S.await name p delay with
    | some error => return .ended (.aborted error)
    | none => S.reattempt name p

/-- The failure of a call whose retries ran out, behind the loop of `RetryTemplate._retry`. -/
def giveUp (S : Setting σ ε β α) (name : String) (p : Progress ε β) : Act σ Failure := do
  S.say name p.state.attempt .exhausted
  let notice ← S.announce p.state (.exhaustion (.exhaustedFor (.text name) p.first p.later))
  return notice.event.error

/-- Turns until the call ends, at most `fuel` times. -/
def turns (S : Setting σ ε β α) (name : String) :
    Nat → Progress ε β → Act σ (Option (Ending α))
  | 0, _ => return none
  | fuel + 1, p => do
    match ← S.turn name p with
    | .again p => S.turns name fuel p
    | .refused p => return some (.exhausted (← S.giveUp name p))
    | .ended ending => return some ending

/-- Where a call stands after its first failure: the beginning of `RetryTemplate._retry`. -/
def begin (S : Setting σ ε β α) (name : String) (failure : Failure) :
    Act σ (Progress ε β) := do
  let execution ← S.openPolicy
  let backoff ← S.openBackoff
  return {
    state := { operation := .text name, execution, attempt := 1 }
    backoff, first := failure, later := [], last := failure }

/-- A whole call of a named operation, up to how the loop ends it: `RetryTemplate.execute` behind
the name. -/
def run (S : Setting σ ε β α) (name : String) (fuel : Nat) : Act σ (Option (Ending α)) := do
  S.say name 1 .starting
  match ← Act.trial S.invoke with
  | .ok result =>
    S.say name 1 .succeeded
    return some (.returned result)
  | .error failure =>
    S.say name 1 (.failed failure)
    S.turns name fuel (← S.begin name failure)

end Setting

end Retry
