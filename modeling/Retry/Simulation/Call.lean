import Retry.Simulation.World

/-!
# Simulated calls

A simulated call is the retry loop in the world of the simulation: the operation
plays its script, policy and backoff are those of a template, waits end as tokens
and tasks are scripted, and the listener is looked up in the template at every
event. An invocation may itself be a call, of another template.

`World.runCall` runs one call and gives its row; calls follow each other in one
world.
-/

namespace Retry.Simulation

/-- What an invocation of a function is given. -/
structure Arguments where
  positional : List Datum := []
  named : List (String × Datum) := []

/-- The template of a call: that of the world, or one of its own. -/
inductive Source where
  | shared
  | own (t : Template Policy Pacing (Listener Leaf))

def Source.template : Source → World → Template Policy Pacing (Listener Leaf)
  | .shared, w => w.template
  | .own t, _ => t

/-- The surroundings of a call: the arguments of its invocations so far, and the world. -/
abbrev Stage : Type := List Arguments × World

/-- How a call is made. -/
structure Manner where
  mode : Mode
  source : Source
  token : Option Nat
  arguments : Arguments

namespace Manner

def inWorld {α : Type} (act : Act World α) : Act Stage α :=
  Act.zoom (·.2) (fun w s => (s.1, w)) act

/-- A step on a value beside the world, where the world is that of a stage. -/
def besideWorld {τ α : Type} (act : Act (τ × World) α) : Act (τ × Stage) α :=
  Act.zoom (fun s => (s.1, s.2.2)) (fun x s => (x.1, s.2.1, x.2)) act

/-- One invocation of an operation that plays the given steps in turn, the last one
over and over. Where there is nothing to play, nothing is invoked. -/
def invoke (m : Manner) (plays : List (Act World Datum)) : Act Stage Datum :=
  Act.of fun (invocations, w) =>
    match entryOf plays invocations.length with
    | .ok play =>
      let (r, w) := play.perform w
      (r, invocations ++ [m.arguments], w)
    | .error f => (.error f, invocations, w)

/-- The next delay of a walk, with the draws of the world. -/
def nextDelay : Act (Pace × World) Delay :=
  Act.of fun (pace, w) =>
    let (delay, pace, draws, notes) := pace.next w.draws
    (delay, pace, notes.foldl World.keep { w with draws })

def pause (m : Manner) (name : String) (delay : Delay) : Act World (Option Failure) :=
  match m.mode with
  | .blocking =>
    Wait.ofToken World.emit World.sleep (m.token.map World.tokenOf) name delay
  | .task => Wait.ofTask World.taskSleep name delay

/-- Calls an operation: it plays the given steps, as a task of its own if the call is one,
unless calling it does something else. What fails before there is anything to wait for fails
as it is. -/
def callee (m : Manner) (operation : Operation) (plays : List (Act World Datum)) :
    Act Stage Datum :=
  match operation.given? with
  | none => m.mode.bounded (m.invoke plays)
  | some r => Act.result (m.mode.taken r)

def setting (m : Manner) (invoke : Act Stage Datum) :
    Setting Stage Execution Pace Datum where
  accept r := fun (_, w) => w.accept r
  emit r := fun (invocations, w) => (invocations, World.emit r w)
  invoke
  openPolicy := inWorld (Act.look fun w => (m.source.template w).policy.start)
  openBackoff := inWorld (Act.look fun w => (m.source.template w).backoff.start)
  shouldRetry f := besideWorld (Scene.consult f)
  nextDelay := besideWorld nextDelay
  pause name delay := inWorld (m.pause name delay)
  notify := besideWorld do
    let w ← Act.look (·.2)
    Scene.tell (m.source.template w).listener

/-- Aborts a call at an attempt, as if its wait had just been cancelled. -/
def abort (m : Manner) (name : String) (attempt : Attempt) : Act Stage Unit := do
  let cause ← inWorld (Wait.blockingCause (m.token.map World.tokenOf) name)
  throw (← (m.setting (m.invoke [])).abort name attempt cause)

def patience : Nat := 100000

def call (m : Manner) (operation : Operation) (plays : List (Act World Datum)) :
    Act Stage Datum := do
  match ← m.mode.call (m.setting (m.callee operation plays)) operation patience with
  | some d => return d
  | none => throw Listener.endless

/-- Calls an operation in the world; what its invocations were given is left behind. -/
def callInWorld (m : Manner) (operation : Operation) (plays : List (Act World Datum)) :
    Act World Datum :=
  Act.zoom (fun w => ([], w)) (fun s _ => s.2) (m.call operation plays)

end Manner

namespace Parts

def make (p : Parts) : Act World (Template Policy Pacing (Listener Leaf)) := do
  let policy ← Act.result (p.policy.getD (.ok .standard))
  let backoff ← Act.result (p.backoff.getD Pacing.standard)
  let listener ← World.build (p.listener.getD (.silent none))
  return { policy, backoff, listener }

end Parts

mutual

def Outcome.play (mode : Mode) : Outcome → Act World Datum
  | .mk actions ending => do
    actions.forM World.act
    ending.play mode

def Ending.play (mode : Mode) : Ending → Act World Datum
  | .value d => return d
  | .fails f => throw f
  | .nested operation outcomes parts withToken => do
    let operation ← Act.result operation
    let source := .own (← parts.make)
    let token ← Act.look (·.token)
    let m : Manner :=
      { mode, source, token := if withToken then token else none, arguments := {} }
    m.callInWorld operation (playAll mode outcomes)

def playAll (mode : Mode) : List Outcome → List (Act World Datum)
  | [] => []
  | o :: os => o.play mode :: playAll mode os

end

/-- The token of a call. -/
inductive TokenUse where
  | without
  | fresh (s : TokenScript)
  | same

/-- A call to be made. -/
structure CallScript where
  operation : Operation
  outcomes : List Outcome
  token : TokenUse
  waitsWithToken : Bool := true
  cancelOnWait : Option Nat
  arguments : Arguments

/-- The call of a function that was decorated. Its waits have no token. -/
def CallScript.decorated (qualifiedName : String) (c : CallScript) : CallScript :=
  { c with operation := .decorated qualifiedName c.operation, waitsWithToken := false }

/-- What came of a call. -/
structure CallRow where
  ending : Except Failure Datum
  invocations : List Arguments
  trace : Trace
  token : Option String
  cancelling : Nat

namespace World

def useToken (w : World) : TokenUse → World
  | .without => { w with token := none }
  | .fresh s => let (id, w) := w.makeToken s; { w with token := some id }
  | .same => w

/-- Runs a call. A task's changes of the correlation id end with it. -/
def runCall (mode : Mode) (w : World) (c : CallScript) : CallRow × World :=
  let w := { w.useToken c.token with
    cancelOnSleep := c.cancelOnWait, sleeps := 0, cancelling := 0, trace := {} }
  let m : Manner :=
    { mode, source := .shared, token := if c.waitsWithToken then w.token else none
      arguments := c.arguments }
  let (ending, invocations, after) :=
    (m.call c.operation (playAll mode c.outcomes)).perform ([], w)
  let row : CallRow :=
    { ending, invocations
      trace := after.trace
      token := after.token.map after.tokenText
      cancelling := after.cancelling }
  (row, match mode with
    | .blocking => after
    | .task => { after with correlation := w.correlation })

def runCalls (mode : Mode) (w : World) : List CallScript → List CallRow × World
  | [] => ([], w)
  | c :: cs =>
    let (row, w) := w.runCall mode c
    let (rows, w) := runCalls mode w cs
    (row :: rows, w)

end World

end Retry.Simulation
