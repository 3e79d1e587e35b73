import Retry.Template

/-!
# Configurations

A configuration gives the maximum of attempts, the interval between them, the
limit on the time spent waiting, and listeners. It is checked when it is made, also
when it is made by merging overrides into another one; an override that is left
out, or given as nothing, keeps the value. `Config.toTemplate` turns it into the
settings of a template. `Config.Given` is what stands under the names of the fields when a
configuration is constructed or merged.
-/

namespace Retry

/-- A checked configuration. Make one with `Config.make`. -/
structure Config (κ : Type) where
  maxAttempts : Number
  interval : Number
  maxElapsed : Option Number
  listeners : List κ

/-- What is given by name for a configuration. A field is left out, given as nothing, or
given a value. `others` are the names given that no field has, in order, each with
whether a value is given for it. -/
structure Config.Given (κ : Type) where
  maxAttempts : Option (Option Number) := none
  interval : Option (Option Number) := none
  maxElapsed : Option (Option Number) := none
  listeners : Option (Option (List κ)) := none
  others : List (String × Bool) := []

/-- Overrides for a configuration. What is `none` keeps its value. `unknown` is the
first given name that no field has. -/
structure Overrides (κ : Type) where
  maxAttempts : Option Number := none
  interval : Option Number := none
  maxElapsed : Option Number := none
  listeners : Option (List κ) := none
  unknown : Option String := none

/-- The overrides that are given: what is given as nothing is dropped, also under a name
that no field has. -/
def Config.Given.overrides {κ : Type} (g : Config.Given κ) : Overrides κ where
  maxAttempts := g.maxAttempts.join
  interval := g.interval.join
  maxElapsed := g.maxElapsed.join
  listeners := g.listeners.join
  unknown := (g.others.find? (·.2)).map (·.1)

/-- Whether a value is given under the name of a field. -/
def Config.Given.has {κ : Type} (g : Config.Given κ) (field : String) : Bool :=
  if field = "max_attempts" then g.maxAttempts.join.isSome
  else if field = "interval" then g.interval.join.isSome
  else if field = "max_elapsed_time" then g.maxElapsed.join.isSome
  else field = "listeners" && g.listeners.join.isSome

namespace Config

variable {κ : Type}

def keys : List String := ["max_attempts", "interval", "max_elapsed_time", "listeners"]

/-- The checks on a configuration, in the order of `RetryConfig.__post_init__`. -/
def check (c : Config κ) : Except Failure Unit := do
  Limits.maxAttempts c.maxAttempts
  Limits.backoff c.interval none c.maxElapsed

def make (maxAttempts interval : Number) (maxElapsed : Option Number) (listeners : List κ) :
    Except Failure (Config κ) := do
  let c := { maxAttempts, interval, maxElapsed, listeners }
  check c
  return c

def unexpected (name : String) : Failure :=
  .of .typeError s!"RetryConfig.__init__() got an unexpected keyword argument '{name}'"

/-- A configuration from values that may be missing. An unknown name is refused first;
then each value is asked for by its own check, after the checks before it. -/
def ofGiven (unknown : Option String) (maxAttempts interval maxElapsed : Option Number)
    (listeners : Option (List κ)) : Except Failure (Config κ) := do
  if let some name := unknown then throw (unexpected name)
  let maxAttempts ← Limits.given 1 maxAttempts
  Limits.maxAttempts maxAttempts
  let interval ← Limits.given 0 interval
  let c : Config κ ← make maxAttempts interval maxElapsed []
  match listeners with
  | some listeners => return { c with listeners }
  | none => throw .notIterable

/-- The configuration where nothing else is said. -/
def standard : Config κ := ⟨CountPolicy.defaultMaxAttempts, Backoff.defaultInterval, none, []⟩

/-- A configuration from what is given for it; a field that is left out has its standard
value. -/
def construct (g : Given κ) : Except Failure (Config κ) :=
  ofGiven (g.others.head?.map (·.1)) (g.maxAttempts.getD (some (standard : Config κ).maxAttempts))
    (g.interval.getD (some (standard : Config κ).interval)) g.maxElapsed.join
    (g.listeners.getD (some standard.listeners))

/-- A configuration with some fields overridden: `RetryConfig.merge`. An unknown name is refused
before the values are checked. -/
def merge (c : Config κ) (o : Overrides κ) : Except Failure (Config κ) :=
  match o.unknown with
  | some name => .error (unexpected name)
  | none =>
    make (o.maxAttempts.getD c.maxAttempts) (o.interval.getD c.interval)
      (o.maxElapsed <|> c.maxElapsed) (o.listeners.getD c.listeners)

/-- What gives every field as a configuration has it. -/
def toGiven (c : Config κ) : Given κ :=
  { maxAttempts := some (some c.maxAttempts), interval := some (some c.interval)
    maxElapsed := some c.maxElapsed, listeners := some (some c.listeners) }

def sameOption {α : Type} (same : α → α → Bool) : Option α → Option α → Bool
  | none, none => true
  | some a, some b => same a b
  | _, _ => false

def sameList {α : Type} (same : α → α → Bool) : List α → List α → Bool
  | [], [] => true
  | a :: as, b :: bs => same a b && sameList same as bs
  | _, _ => false

/-- Equality of configurations: numbers by value, listeners as told. A value that both
share, handed on from one to the other, is equal to itself even if it is a NaN. -/
def same (sameListener : κ → κ → Bool) (shared : String → Bool) (a b : Config κ) : Bool :=
  (shared "max_attempts" || a.maxAttempts.same b.maxAttempts) &&
    (shared "interval" || a.interval.same b.interval) &&
    (shared "max_elapsed_time" || sameOption Number.same a.maxElapsed b.maxElapsed) &&
    sameList sameListener a.listeners b.listeners

/-- The literal of a tuple of texts: a single one has a comma behind it. -/
def tupleText : List String → String
  | [t] => s!"({t},)"
  | ts => s!"({Datum.joined ts})"

/-- The literal of a configuration, from the texts of its listeners. -/
def literal (listenerText : κ → String) (c : Config κ) : String :=
  s!"RetryConfig(max_attempts={c.maxAttempts.text}, interval={c.interval.text}, " ++
    s!"max_elapsed_time={Number.optionText c.maxElapsed}, " ++
    s!"listeners={tupleText (c.listeners.map listenerText)})"

/-- An assignment to a field of a frozen value. -/
def frozen (field : String) : Failure :=
  .of .frozenInstanceError s!"cannot assign to field {Text.quoted field}"

/-- The settings of a template, as `BaseRetryTemplate.from_config` makes them: a counting policy, a
fixed backoff, and the listeners in one group. -/
def toTemplate (c : Config κ) : Except Failure (Template CountPolicy Backoff (List κ)) := do
  return {
    policy := ← CountPolicy.make c.maxAttempts
    backoff := ← Backoff.fixed c.interval none c.maxElapsed
    listener := c.listeners }

end Config

end Retry
