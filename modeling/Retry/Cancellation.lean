import Retry.Loop

/-!
# Waits that can be cancelled

A blocking call waits with a token that others may cancel: a token that is
cancelled already is not waited for, and one that is cancelled meanwhile ends the
wait. A task waits by sleeping, and its cancellation arrives as an interruption of
the sleep. Either way a cancelled wait aborts the call.

Not every delay can be waited for. The sleep of a thread, the wait for a token and the
sleep of a task are three primitives of the system, and each refuses delays of its own
(`Clock`): the sleep of a thread fails with a negative delay or with one that is no
number, for which the other two return at once; the wait for a token fails with a delay
that is too long for its clock.
-/

namespace Retry

def tokenText (cancelled : Bool) : String :=
  s!"CancellationToken(cancelled={(Number.truth cancelled).text})"

/-- A cancellation token in surroundings `σ`. -/
structure Token (σ : Type) where
  /-- Whether it is cancelled. -/
  isCancelled : Act σ Bool
  /-- Cancels it, for good. -/
  cancel : Act σ Unit
  /-- Waits for it to be cancelled, at most that long; whether it is. -/
  await : Delay → Act σ Bool

/-- With what the three primitives that wait refuse a delay, before any time passes:
`time.sleep`, the wait of the event of a token, and `asyncio.sleep`. `none` is a delay that is
taken. -/
structure Refusals where
  sleep : Delay → Option Failure
  token : Delay → Option Failure
  task : Delay → Option Failure
  /-- A refusal is no cancellation. -/
  uncancelled : ∀ d f, sleep d = some f ∨ token d = some f ∨ task d = some f →
    f.isA "CancelledError" = false

def Refusals.none : Refusals := ⟨fun _ => .none, fun _ => .none, fun _ => .none, by simp⟩

/-- What comes of a delay that may be refused. -/
def Refusals.against {α : Type} (refusal : Option Failure) (taken : Except Failure α) :
    Except Failure α :=
  match refusal with
  | some f => .error f
  | .none => taken

/-- How waits go in surroundings `σ`: `rest` is what a wait leaves when its time is over, `wake`
when it was woken early. -/
structure Clock (σ : Type) extends Refusals where
  rest : Delay → σ → σ
  wake : Delay → σ → σ

/-- The clock that takes every delay, and on which no time passes. -/
def Clock.patient (σ : Type) : Clock σ := ⟨.none, fun _ s => s, fun _ s => s⟩

namespace Wait

variable {σ : Type}

def logger : String := "aretry.utils.sleep"

def note (delay : Delay) : Except Failure Record := do
  let seconds ← delay.seconds
  return .note logger s!"Wait of {seconds}s cancelled"

/-- Waits for a delay, with a token if there is one; whether that was cancelled. This is `wait`. -/
def blocking (emit : Record → σ → σ) (sleep : Delay → Act σ Unit)
    (token : Option (Token σ)) (delay : Delay) : Act σ Bool := do
  match token with
  | none =>
    sleep delay
    return false
  | some token =>
    let cancelled ← if ← token.isCancelled then pure true else token.await delay
    if cancelled then
      let record ← Act.result (note delay)
      Act.change (emit record)
    return cancelled

/-- Cancels the token of an aborted call; the cause of the abortion. The beginning of
`RetryTemplate._abort`. -/
def blockingCause (token : Option (Token σ)) (name : String) : Act σ Failure := do
  if let some token := token then token.cancel
  return .waitCancelled (.text name)

def ofToken (emit : Record → σ → σ) (sleep : Delay → Act σ Unit)
    (token : Option (Token σ)) (name : String) (delay : Delay) : Act σ (Option Failure) := do
  if ← blocking emit sleep token delay then return some (← blockingCause token name)
  else return none

/-- The wait of a task: a sleep that may be interrupted by the task's cancellation. -/
def ofTask (sleep : Delay → Act σ Unit) (_ : String) (delay : Delay) :
    Act σ (Option Failure) :=
  Act.of fun s => match (sleep delay).perform s with
    | (.ok (), s) => (.ok none, s)
    | (.error f, s) => if f.isA "CancelledError" then (.ok (some f), s) else (.error f, s)

end Wait

end Retry
