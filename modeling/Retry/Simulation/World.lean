import Retry.Cancellation
import Retry.Config
import Retry.Mode
import Retry.Simulation.Script

/-!
# The world of a simulation

The world holds what calls share: the template, the groups of listeners, the
tokens, the source of random numbers, the correlation id and the threshold of the
logger. It writes down what happens: waits, events and records. No time passes in
it; a wait is cancelled if the script says so for its number, and fails if the world
refuses its delay.
-/

namespace Retry.Simulation

/-- A leaf among the listeners. Its key tells it apart, its id is shown. A leaf may also
be missing; such leaves are all the same, and cannot be told anything. -/
inductive Leaf where
  | missing
  | silent (key : Nat)
  | recorder (key : Nat) (id : String) (rules : List Rule)
  | callback (key : Nat) (id : String) (hooks : List String) (rules : List Rule)

def Leaf.key : Leaf → Nat
  | .missing => 0
  | .silent key => key
  | .recorder key _ _ => key
  | .callback key _ _ _ => key

/-- An event as a listener wrote it down. -/
structure EventRow where
  listener : String
  hook : String
  operation : Datum
  attempt : Attempt
  execution : Option String
  result : Option Datum
  error : Option Failure

/-- A record that was kept, with its line if lines are wanted. -/
structure LogRow where
  record : Record
  line : Option String

/-- A token: whether it is cancelled, and the number of the wait that cancels it. -/
structure TokenState where
  cancelled : Bool
  cancelOnWait : Option Nat
  waits : Nat

/-- What happened since the last look. -/
structure Trace where
  waits : List Delay := []
  events : List EventRow := []
  logs : List LogRow := []

/-- Everything that the calls of a simulation share. Listeners can also be told of events
where there is no template. -/
structure World where
  template? : Option (Template Policy Pacing (Listener Leaf)) := none
  groups : List (List (Listener Leaf)) := []
  known : List (String × Listener Leaf) := []
  keys : Nat := 1
  told : List ((Nat × String) × Nat) := []
  draws : Draws := .zero
  correlation : Option Datum := none
  threshold : Int := Level.debug
  lines : Bool := false
  tokens : List TokenState := []
  token : Option Nat := none
  cancelOnSleep : Option Nat := none
  sleeps : Nat := 0
  cancelling : Nat := 0
  refusals : Refusals := .none
  /-- What the logger fails with over the record of a phase that it should keep. -/
  refuse : Record → Option Failure := fun _ => none
  trace : Trace := {}

namespace World

/-- A world in which nothing has happened yet. -/
def blank : World := {}

/-- The template; one that does nothing where there is none. -/
def template (w : World) : Template Policy Pacing (Listener Leaf) :=
  w.template?.getD ⟨.standard, .scripted [], .leaf (.silent 0)⟩

/-! ## Listeners -/

def members (w : World) (id : Nat) : List (Listener Leaf) := (w.groups[id]?).getD []

def remember (w : World) (id : String) (l : Listener Leaf) : World :=
  { w with known := (id, l) :: w.known }

/-- The listener that is remembered under a name. -/
def listenerNamed (w : World) (id : String) : Except Failure (Listener Leaf) :=
  match w.known.lookup id with
  | some l => .ok l
  | none => .error (.of .keyError id)

def buildLeaf (id : Option String) (leaf : Nat → Leaf) : Act World (Listener Leaf) :=
  Act.sure fun w =>
    let l := .leaf (leaf w.keys)
    let w := { w with keys := w.keys + 1 }
    (l, match id with
      | some id => w.remember id l
      | none => w)

/-- Makes the group of some listeners, with the next number. -/
def buildGroup (id : Option String) (members : List (Listener Leaf)) : Act World (Listener Leaf) :=
  Act.sure fun w =>
    let l := .group w.groups.length
    let w := { w with groups := w.groups ++ [members] }
    (l, match id with
      | some id => w.remember id l
      | none => w)

mutual

/-- Makes a listener: leaves get keys of their own, groups numbers. -/
def build : ListenerScript → Act World (Listener Leaf)
  | .missing => return .leaf .missing
  | .silent id => buildLeaf id .silent
  | .recorder id rules => buildLeaf (some id) (.recorder · id rules)
  | .callback id hooks rules => buildLeaf (some id) (.callback · id hooks rules)
  | .group id members => do buildGroup id (← buildAll members)
  | .known id => do Act.result ((← Act.look listenerNamed) id)

def buildAll : List ListenerScript → Act World (List (Listener Leaf))
  | [] => return []
  | s :: ss => do
    let l ← build s
    return l :: (← buildAll ss)

end

def sameListener : Listener Leaf → Listener Leaf → Bool
  | .group a, .group b => a == b
  | .leaf a, .leaf b => a.key == b.key
  | _, _ => false

def addTo (w : World) (id : Nat) (l : Listener Leaf) : World :=
  { w with groups := w.groups.modify id (· ++ [l]) }

def listenerTypeName : Listener Leaf → String
  | .leaf .missing => Datum.null.typeName
  | .leaf (.silent _) => "RetryListener"
  | .leaf (.recorder _ _ _) => "Rec"
  | .leaf (.callback _ _ _ _) => "CallbackRetryListener"
  | .group _ => "CompositeRetryListener"

/-- The number of a group; any other listener takes no members. -/
def groupOf : Listener Leaf → Except Failure Nat
  | .group id => .ok id
  | l => .error (.of .attributeError
      s!"'{listenerTypeName l}' object has no attribute 'add_listener'")

def leafText : Leaf → String
  | .missing => Datum.null.literal
  | .silent _ => "<aretry.listener.RetryListener object>"
  | .recorder _ id _ => s!"Rec({id})"
  | .callback _ _ _ _ => "<aretry.listener.CallbackRetryListener object>"

/-- The text of a listener; a group within itself is not written out again. -/
def listenerText (w : World) : Nat → List Nat → Listener Leaf → String
  | _, _, .leaf l => leafText l
  | 0, _, .group _ => "..."
  | fuel + 1, outer, .group id =>
    if outer.contains id then "CompositeRetryListener(listeners=[...])"
    else
      let texts := (w.members id).map (w.listenerText fuel (id :: outer))
      s!"CompositeRetryListener(listeners=[{Datum.joined texts}])"

def textOf (w : World) (l : Listener Leaf) : String := w.listenerText (w.groups.length + 1) [] l

def templateText (w : World) (mode : Mode) : String :=
  Template.text mode.templateName w.template.policy.text w.template.backoff.text
    (w.textOf w.template.listener)

/-- Sets the template to that of a configuration. Listeners make a group, none a silent
one. -/
def useConfig (c : Config (Listener Leaf)) : Act World Unit := do
  let t ← Act.result c.toTemplate
  let listener ← if t.listener.isEmpty then build (.silent none) else buildGroup none t.listener
  Act.change ({ · with template? := some ⟨.count t.policy, .limited t.backoff, listener⟩ })

/-! ## Records, waits and tokens -/

/-- What the logger makes of the record of a phase. Only if its level is enabled does it take the
truth value of the failure that is attached, and hand the record to its handlers. -/
def accept (r : Record) (w : World) : Except Failure Unit :=
  if Level.enabled w.threshold r.level then Refusals.against (w.refuse r) (.ok ()) else .ok ()

/-- A logger with a handler that writes lines fails over a record that cannot be written. -/
def writing (r : Record) : Option Failure :=
  match r.line Record.usualRoom 0 (some 0) none with
  | .ok _ => none
  | .error f => some f

/-- Keeps a record if its level is enabled. Its line shows the moment zero and the
correlation id of now. -/
def keep (w : World) (r : Record) : World :=
  if Level.enabled w.threshold r.level then
    let line :=
      if w.lines then (r.line Record.usualRoom 0 (some 0) w.correlation).toOption else none
    { w with trace := { w.trace with logs := w.trace.logs ++ [⟨r, line⟩] } }
  else w

def emit (r : Record) (w : World) : World := w.keep r

def noteWait (w : World) (delay : Delay) : World :=
  { w with trace := { w.trace with waits := w.trace.waits ++ [delay] } }

/-- A sleep that nothing interrupts, unless its delay is refused. -/
def sleep (delay : Delay) : Act World Unit :=
  Act.of fun w => (Refusals.against (w.refusals.sleep delay) (.ok ()), w.noteWait delay)

def interruption : Failure := .plain .cancelledError none none

/-- The sleep of a task. The one of the given number is interrupted. -/
def taskSleep (delay : Delay) : Act World Unit :=
  Act.of fun w =>
    let w := { w.noteWait delay with sleeps := w.sleeps + 1 }
    match w.refusals.task delay with
    | some f => (.error f, w)
    | none =>
      if w.cancelOnSleep = some w.sleeps then
        (.error interruption, { w with cancelling := w.cancelling + 1 })
      else (.ok (), w)

def makeToken (w : World) (s : TokenScript) : Nat × World :=
  (w.tokens.length, { w with tokens := w.tokens ++ [⟨s.preCancelled, s.cancelOnWait, 0⟩] })

def isCancelled (w : World) (id : Nat) : Bool := ((w.tokens[id]?).map (·.cancelled)).getD false

def cancelToken (w : World) (id : Nat) : World :=
  { w with tokens := w.tokens.modify id ({ · with cancelled := true }) }

/-- The wait of a token. One that is cancelled takes every delay. -/
def awaitToken (id : Nat) (delay : Delay) : Act World Bool :=
  Act.of fun w =>
    let refusal := if w.isCancelled id then none else w.refusals.token delay
    let w := w.noteWait delay
    let w := { w with tokens := w.tokens.modify id fun t =>
      { t with
        waits := t.waits + 1
        cancelled := t.cancelled || t.cancelOnWait = some (t.waits + 1) } }
    (Refusals.against refusal (.ok (w.isCancelled id)), w)

/-- The number of a token; where there is none it has no attributes. -/
def tokenWith (name : String) : Option Nat → Except Failure Nat
  | some id => .ok id
  | none => .error (Failure.missing.noAttribute name)

def tokenOf (id : Nat) : Token World where
  isCancelled := Act.look (isCancelled · id)
  cancel := Act.change (cancelToken · id)
  await := awaitToken id

def tokenText (w : World) (id : Nat) : String := Retry.tokenText (w.isCancelled id)

/-! ## Actions and hooks -/

/-- Counts an event of a leaf: how often it was told of the hook, this time included. -/
def countTold (w : World) (key : Nat) (hook : String) : Nat × World :=
  let count := (w.told.lookup (key, hook)).getD 0 + 1
  (count, { w with told := ((key, hook), count) :: w.told })

def buildOption : Option ListenerScript → Act World (Option (Listener Leaf))
  | none => return none
  | some s => some <$> build s

/-- The value of a part that may be missing, or the failure of making it. -/
def partOption {α : Type} : Option (Except Failure α) → Act World (Option α)
  | none => return none
  | some part => some <$> Act.result part

abbrev Setter :=
  Template Policy Pacing (Listener Leaf) → Except Failure (Template Policy Pacing (Listener Leaf))

/-- The setter of a listener, which is made first. -/
def listenerSetter (script : Option ListenerScript) : Act World Setter := do
  let l ← buildOption script
  return (·.setListener l)

def policySetter (policy : Option (Except Failure Policy)) : Act World Setter := do
  let p ← partOption policy
  return (·.setPolicy p)

def backoffSetter (backoff : Option (Except Failure Pacing)) : Act World Setter := do
  let b ← partOption backoff
  return (·.setBackoff b)

def setPart (set : Setter) : Act World Unit := do
  let template ← Act.result (set (← Act.look (·.template)))
  Act.change ({ · with template? := some template })

/-- Calls a setter of the template by its name. Without a template there is no such
setter, whatever it would be given. -/
def callSetter (name : String) (setter : Act World Setter) : Act World Unit := do
  if (← Act.look (·.template?)).isNone then throw (Failure.missing.noAttribute name)
  setPart (← setter)

/-- An action on the world. There is no state of a call here, and no event. -/
def act : Action → Act World Unit
  | .cancel => Act.change fun w => match w.token with
    | some id => w.cancelToken id
    | none => w
  | .addListener group script => do
    let id ← Act.result ((← Act.look listenerNamed) group >>= groupOf)
    let l ← build script
    Act.change (·.addTo id l)
  | .setListener script => callSetter "set_listener" (listenerSetter script)
  | .setPolicy policy => callSetter "set_retry_policy" (policySetter policy)
  | .setBackoff backoff => callSetter "set_backoff_policy" (backoffSetter backoff)
  | .setCorrelation id => Act.change ({ · with correlation := id })
  | .setAttempt _ => throw (Failure.missing.noAttribute "attempt")
  | .setName _ => throw (Failure.missing.noAttribute "operation_name")
  | .consult _ => throw (Failure.missing.noAttribute "execution")
  | .addSuppressed _ => throw (Failure.missing.noAttribute "add_suppressed")

end World

/-- A notice within the world, as hooks see it. -/
abbrev Scene : Type := Notice Execution Datum × World

namespace Scene

def inWorld {α : Type} (act : Act World α) : Act Scene α :=
  Act.zoom (·.2) (fun w s => (s.1, w)) act

def changeNotice
    (f : Notice Execution Datum → Except Failure (Notice Execution Datum)) : Act Scene Unit := do
  let notice ← Act.result (f (← Act.look (·.1)))
  Act.change fun s => (notice, s.2)

/-- Asks an execution about a failure, and keeps the records made on the way. -/
def consult (f : Failure) : Act (Execution × World) Bool :=
  Act.of fun (e, w) =>
    let c := e.shouldRetry f
    (c.answer, c.next, c.notes.foldl World.keep w)

/-- A step on the execution of a scene. What the step changes stays also if it fails. -/
def inExecution {α : Type} (act : Act (Execution × World) α) : Act Scene α :=
  Act.zoom (fun s => (s.1.state.execution, s.2))
    (fun x s => ({ s.1 with state := { s.1.state with execution := x.1 } }, x.2)) act

/-- An action of a callback, which is given the event but not the state. -/
def actOnEvent : Action → Act Scene Unit
  | .addSuppressed f => changeNotice (·.addSuppressed f)
  | a => inWorld (World.act a)

def act : Action → Act Scene Unit
  | .setAttempt value =>
    changeNotice fun n => .ok { n with state := { n.state with attempt := value } }
  | .setName value =>
    changeNotice fun n => .ok { n with state := { n.state with operation := value } }
  | .consult f => discard (inExecution (consult f))
  | a => actOnEvent a

/-- Runs the actions of a rule, and then raises its failure. -/
def follow (act : Action → Act Scene Unit) : Rule → Act Scene Unit
  | .on _ _ actions raises => do
    actions.forM act
    if let some f := raises then throw f

/-- Whether a rule applies to the `n`-th event of a hook. -/
def applies (hook : String) (n : Nat) : Rule → Bool
  | .on h nth _ _ => h == hook && (nth.isNone || nth == some n)

/-- Runs the rules of a leaf that apply to the event. -/
def followRules (act : Action → Act Scene Unit) (key : Nat) (rules : List Rule) :
    Act Scene Unit := do
  let hook ← Act.look (·.1.event.hook)
  let n ← inWorld (Act.sure (·.countTold key hook))
  (rules.filter (applies hook n)).forM (follow act)

def note (row : Notice Execution Datum → EventRow) : Act Scene Unit :=
  Act.change fun (n, w) =>
    (n, { w with trace := { w.trace with events := w.trace.events ++ [row n] } })

def recorderRow (id : String) (n : Notice Execution Datum) : EventRow :=
  { listener := id
    hook := n.event.hook
    operation := n.state.operation
    attempt := n.state.attempt
    execution := some n.state.execution.text
    result := match n.event with
      | .success result => some result
      | _ => none
    error := match n.event with
      | .failure f | .exhaustion f => some f
      | _ => none }

def callbackRow (id : String) (n : Notice Execution Datum) : EventRow :=
  let e := CallEvent.ofNotice n
  { listener := id
    hook := n.event.hook
    operation := e.operation
    attempt := n.state.attempt
    execution := none
    result := some e.result
    error := some e.error }

def hook : Leaf → Act Scene Unit
  | .missing => do throw (Failure.missing.noAttribute (← Act.look (·.1.event.hook)))
  | .silent _ => return ()
  | .recorder key id rules => do
    note (recorderRow id)
    followRules act key rules
  | .callback key id hooks rules => do
    if hooks.contains (← Act.look (·.1.event.hook)) then
      note (callbackRow id)
      followRules actOnEvent key rules

def depth : Nat := 10000

def tell (l : Listener Leaf) : Act Scene Unit :=
  Listener.tell (fun s id => s.2.members id) hook depth l

end Scene

end Retry.Simulation
