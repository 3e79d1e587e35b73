import Retry.Loop

/-!
# The loop of a task

A task retries by a loop of its own, written out here in one piece. It mirrors
`AsyncRetryTemplate.execute`, as `Setting.run` and its parts mirror `RetryTemplate.execute`.
The two differ in how a wait is cancelled: here the sleep is interrupted, and what
interrupted it is the cause of the abortion. `S.pause` stands for the sleep, with the
interruption as its result.

That both loops do the same is a theorem, not part of the definition.
-/

namespace Retry.Setting

variable {σ ε β α : Type}

/-- The end of a task whose retries ran out: what `AsyncRetryTemplate._retry` does behind its
loop. -/
def taskExhausted (S : Setting σ ε β α) (name : String) (p : Progress ε β) :
    Act σ (Option (Ending α)) := do
  let error := Failure.exhaustedFor (.text name) p.first p.later
  S.say name p.state.attempt .exhausted
  let notice ← S.announce p.state (.exhaustion error)
  return some (.exhausted notice.event.error)

/-- The loop of `AsyncRetryTemplate._retry`, at most `fuel` times. -/
def taskTurns (S : Setting σ ε β α) (name : String) :
    Nat → Progress ε β → Act σ (Option (Ending α))
  | 0, _ => return none
  | fuel + 1, p => do
    let (granted, execution) ← Act.focus p.state.execution (S.shouldRetry p.last)
    let state := { p.state with execution }
    if granted then
      let (delay, backoff) ← Act.focus p.backoff S.nextDelay
      if Backoff.isStop delay then
        S.say name state.attempt .backoffStopped
        S.taskExhausted name { p with state, backoff }
      else
        S.say name state.attempt (.waiting p.last delay)
        match ← S.pause name delay with
        | some interruption =>
          S.say name state.attempt .waitCancelled
          return some (.aborted (.abortedFor (.text name) interruption))
        | none =>
          let attempt ← Act.result (Attempt.next state.attempt)
          S.say name attempt .retrying
          let notice ← S.announce { state with attempt } .beforeRetry
          match ← Act.trial S.invoke with
          | .error failure =>
            let notice ← S.announce notice.state (.failure failure)
            let failure := notice.event.error
            S.say name notice.state.attempt (.retryFailed failure)
            S.taskTurns name fuel
              { p with
                state := notice.state, backoff
                later := p.later ++ [failure], last := failure }
          | .ok result =>
            let notice ← S.announce notice.state (.success result)
            S.say name notice.state.attempt .retrySucceeded
            return some (.returned result)
    else S.taskExhausted name { p with state }

/-- A whole call of a named operation as a task: `AsyncRetryTemplate.execute` behind the name. -/
def taskRun (S : Setting σ ε β α) (name : String) (fuel : Nat) :
    Act σ (Option (Ending α)) := do
  S.say name 1 .starting
  match ← Act.trial S.invoke with
  | .ok result =>
    S.say name 1 .succeeded
    return some (.returned result)
  | .error failure =>
    S.say name 1 (.failed failure)
    let execution ← S.openPolicy
    let backoff ← S.openBackoff
    S.taskTurns name fuel {
      state := { operation := .text name, execution, attempt := 1 }
      backoff, first := failure, later := [], last := failure }

end Retry.Setting
