import Retry.Backoff

/-!
# Fixed and exponential delays

A fixed backoff always waits the same interval. An exponential one starts with an
initial interval and multiplies it by a constant factor for every delay, up to a
largest interval; a growth past the doubles counts as reaching it. A *jitter*
lengthens each delay by a random share of it, again up to the largest interval.
-/

namespace Retry

namespace Backoff

def defaultInterval : Number := .double (.ofRatio false 1 1)

def limitsText (maxAttempts maxElapsed : Option Number) : String :=
  s!"max_attempts={Number.optionText maxAttempts}, " ++
    s!"max_elapsed_time={Number.optionText maxElapsed}"

/-- Waits the same interval before every attempt: `FixedBackOff.calculate`. -/
def fixed (interval : Number) (maxAttempts maxElapsed : Option Number) :
    Except Failure Backoff := do
  Limits.interval interval
  Limits.backoff 0 maxAttempts maxElapsed
  return {
    calculate := fun _ draws => (.ok (some interval), draws)
    maxAttempts, maxElapsed
    text := s!"FixedBackOff(interval={interval.text}, {limitsText maxAttempts maxElapsed})" }

end Backoff

/-- The settings of exponential growth. -/
structure Growth where
  initial : Number
  multiplier : Number
  largest : Number
  jitter : Number

namespace Growth

/-- The settings where nothing else is said: from two seconds by half up to thirty. -/
def standard : Growth :=
  { initial := .double (.ofRatio false 2 1)
    multiplier := .double (.ofRatio false 3 2)
    largest := .double (.ofRatio false 30 1)
    jitter := .double (.zero false) }

def checkInitial (initial : Number) : Except Failure Unit :=
  Limits.atLeast 0 initial s!"initial_interval must be non-negative, got {initial.text}"

def checkMultiplier (multiplier : Number) : Except Failure Unit :=
  Limits.atLeast 1 multiplier s!"multiplier must be >= 1, got {multiplier.text}"

/-- The largest interval starts at the initial one. -/
def checkLargest (initial largest : Number) : Except Failure Unit :=
  Limits.atLeast initial largest
    (s!"max_interval must be >= initial_interval, got {largest.text} " ++
      s!"(initial_interval={initial.text})")

def checkJitter (jitter : Number) : Except Failure Unit :=
  Limits.atLeast 0 jitter s!"jitter must be non-negative, got {jitter.text}"

/-- The checks on the settings, in the order of `ExponentialBackOff.__init__`. -/
def check (g : Growth) : Except Failure Unit := do
  checkInitial g.initial
  checkMultiplier g.multiplier
  checkLargest g.initial g.largest
  checkJitter g.jitter

/-- The settings from values that may be missing. Each is asked for by its own
check, after the checks before it. -/
def ofGiven (initial multiplier largest jitter : Option Number) : Except Failure Growth := do
  let initial ← Limits.given 0 initial
  checkInitial initial
  let multiplier ← Limits.given 1 multiplier
  checkMultiplier multiplier
  let largest ← Limits.given initial largest
  checkLargest initial largest
  let jitter ← Limits.given 0 jitter
  return { initial, multiplier, largest, jitter }

/-- The grown interval before any cap, if it stays in range. -/
def grown? (g : Growth) (attempt : Int) : Option Number := do
  g.initial.mul? (← g.multiplier.pow? attempt)

/-- The interval without jitter. An initial interval of zero does not grow. -/
def interval (g : Growth) (attempt : Int) : Number :=
  if Number.lt 0 g.initial then ((g.grown? attempt).getD g.largest).min g.largest else g.initial

def share (g : Growth) (random : Option Number) : Except Failure Number := do
  let width ← Number.orTooLarge (g.jitter.sub? 0)
  match random with
  | some r => Number.orTooLarge do Number.add? 0 (← width.mul? r)
  | none => throw (.of .typeError
      s!"unsupported operand type(s) for *: '{width.typeName}' and 'NoneType'")

/-- An interval with a random share of it added, capped again. -/
def lengthened (g : Growth) (interval : Number) (random : Option Number) :
    Except Failure Number := do
  let share ← g.share random
  let longer ← Number.orTooLarge do interval.add? (← share.mul? interval)
  return longer.min g.largest

/-- The delay of an attempt: `ExponentialBackOff.calculate`. A random number is drawn only if there
is jitter. -/
def delay (g : Growth) (attempt : Int) (draws : Draws) : Except Failure Number × Draws :=
  if Number.lt 0 g.jitter then
    let (random, draws) := draws.next
    (g.lengthened (g.interval attempt) random, draws)
  else (.ok (g.interval attempt), draws)

end Growth

namespace Backoff

/-- Waits intervals that grow by a constant factor. -/
def exponential (g : Growth) (maxAttempts maxElapsed : Option Number) :
    Except Failure Backoff := do
  g.check
  Limits.backoff 0 maxAttempts maxElapsed
  return {
    calculate := fun attempt draws =>
      let (delay, draws) := g.delay attempt draws
      (delay.map some, draws)
    maxAttempts, maxElapsed
    text := s!"ExponentialBackOff(initial_interval={g.initial.text}, " ++
      s!"multiplier={g.multiplier.text}, max_interval={g.largest.text}, " ++
      s!"jitter={g.jitter.text}, {limitsText maxAttempts maxElapsed})" }

end Backoff

end Retry
