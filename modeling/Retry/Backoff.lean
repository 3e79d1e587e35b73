import Retry.Delay
import Retry.Record

/-!
# Backoffs

A backoff says how long to wait before the next attempt. It calculates a delay
from the number of delays given so far, and it may be limited in the number of
delays and in the time that they add up to. A `Backoff.Run` is one call's walk
through the delays: it counts them, adds them up, and once it has stopped it
answers `stop` for ever, a value that no duration equals.

Delays may depend on chance; `Draws` is the source of the random numbers.
-/

namespace Retry

/-- A source of random numbers from zero up to one: the values in turn, over and
over. It may also give nothing. -/
structure Draws where
  values : List (Option Number)
  taken : Nat

namespace Draws

def zero : Draws := ⟨[some (.double (.zero false))], 0⟩

def next (d : Draws) : Option Number × Draws :=
  ((d.values[d.taken % d.values.length]?).getD (some (.double (.zero false))),
    { d with taken := d.taken + 1 })

end Draws

/-- A way to calculate delays, with its limits. -/
structure Backoff where
  calculate : Int → Draws → Except Failure Delay × Draws
  maxAttempts : Option Number
  maxElapsed : Option Number
  text : String

namespace Backoff

/-- The answer of a backoff that has stopped: minus one, which is no duration. -/
def stop : Number := .double (.ofRatio true 1 1)

/-- Whether a delay says that the backoff has stopped. -/
def isStop (delay : Delay) : Bool := delay.is stop

def logger : String := "aretry.backoff.base"

/-- One call's walk through the delays of a backoff. -/
structure Run where
  attempts : Nat
  elapsed : Number
  stopped : Bool

namespace Run

/-- The beginning of a walk: `LimitedBackOffExecution.__init__`. -/
def start : Run := ⟨0, .double (.zero false), false⟩

def text (r : Run) : String :=
  s!"LimitedBackOffExecution(attempts={r.attempts}, elapsed_time={r.elapsed.text}, " ++
    s!"stopped={(Number.truth r.stopped).text})"

end Run

/-- What comes of asking for a delay. -/
structure Answer where
  delay : Except Failure Delay
  run : Run
  draws : Draws
  notes : List Record

/-- Whether a limit on the number of delays is reached. -/
def countReached (b : Backoff) (r : Run) : Bool :=
  match b.maxAttempts with
  | none => false
  | some limit => limit.le (.whole r.attempts)

/-- Whether a delay would exceed the limit on the time. -/
def exceeds (b : Backoff) (r : Run) (delay : Delay) : Except Failure Bool :=
  match b.maxElapsed with
  | none => .ok false
  | some limit => (delay.addedTo r.elapsed "+").map limit.lt

/-- The note of a walk that stops for its number of delays. -/
def countNote (r : Run) : Record :=
  .note logger s!"Backoff stopped after {r.attempts} delays (max_attempts)"

/-- The note of a walk that stops for its time. -/
def elapsedNote (b : Backoff) (r : Run) : Except Failure Record := do
  let elapsed ← Number.orTooLarge r.elapsed.seconds?
  let limit ← Number.orTooLarge ((b.maxElapsed.getD 0).seconds?)
  return .note logger s!"Backoff stopped after {elapsed}s (max_elapsed_time={limit}s)"

/-- Gives a calculated delay: it is counted, and then added to the time. -/
def grant (r : Run) (delay : Delay) (draws : Draws) : Answer :=
  let counted := { r with attempts := r.attempts + 1 }
  match delay.addedTo r.elapsed "+=" with
  | .ok elapsed => ⟨.ok delay, { counted with elapsed }, draws, []⟩
  | .error x => ⟨.error x, counted, draws, []⟩

/-- The next delay: `LimitedBackOffExecution.next_backoff`. The limit on the number is tested before
a delay is calculated, the limit on the time after. -/
def next (b : Backoff) (r : Run) (draws : Draws) : Answer :=
  if r.stopped then ⟨.ok (some stop), r, draws, []⟩
  else if b.countReached r then
    ⟨.ok (some stop), { r with stopped := true }, draws, [countNote r]⟩
  else
    match b.calculate r.attempts draws with
    | (.error x, draws) => ⟨.error x, r, draws, []⟩
    | (.ok delay, draws) =>
      match b.exceeds r delay with
      | .error x => ⟨.error x, r, draws, []⟩
      | .ok true =>
        match b.elapsedNote r with
        | .error x => ⟨.error x, r, draws, []⟩
        | .ok note => ⟨.ok (some stop), { r with stopped := true }, draws, [note]⟩
      | .ok false => grant r delay draws

/-- A walk that has stopped answers `stop`, draws nothing and stays as it is. -/
theorem next_of_stopped (b : Backoff) {r : Run} (h : r.stopped = true) (draws : Draws) :
    b.next r draws = ⟨.ok (some stop), r, draws, []⟩ := by
  simp [next, h]

end Backoff

end Retry
