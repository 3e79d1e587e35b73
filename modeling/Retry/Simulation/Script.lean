import Retry.Operation
import Retry.Simulation.Parts

/-!
# Scripts

What happens in a simulated call is written down beforehand: how every invocation
of the operation ends, what listeners there are, and at which events they act and
on what. A part that cannot be made is written down as the failure of making it;
that failure arises when the script comes to it.
-/

namespace Retry.Simulation

/-- A function of the base language, by its short name. Called without arguments, most
of them refuse. -/
def stockOperation (name : String) : Operation :=
  let base (qualifiedName typeName : String) (callee : Callee) : Operation :=
    .base .absent (.value (.text qualifiedName)) typeName callee
  let refusal (message : String) : Callee := .refusal (.of .typeError message)
  let function := "builtin_function_or_method"
  match name with
  | "int" => base "int" "type" (.gives (.datum 0))
  | "append" =>
    base "list.append" function (refusal "list.append() takes exactly one argument (0 given)")
  | "from_bytes" =>
    base "int.from_bytes" function
      (refusal "from_bytes() missing required argument 'bytes' (pos 1)")
  | name => base name function (refusal s!"{name}() takes exactly one argument (0 given)")

mutual

/-- A listener to be made. Those with a name can be referred to later. -/
inductive ListenerScript where
  | missing
  | silent (id : Option String)
  | recorder (id : String) (rules : List Rule)
  | callback (id : String) (hooks : List String) (rules : List Rule)
  | group (id : Option String) (members : List ListenerScript)
  | known (id : String)

/-- What a listener does at its `nth` event of a hook, or at every one: actions, and
then perhaps a failure. -/
inductive Rule where
  | on (hook : String) (nth : Option Nat) (actions : List Action) (raises : Option Failure)

/-- One thing that an operation or a listener can do on the side. -/
inductive Action where
  | cancel
  | setAttempt (value : Datum)
  | setName (value : Datum)
  | consult (error : Failure)
  | addSuppressed (error : Failure)
  | addListener (group : String) (listener : ListenerScript)
  | setListener (listener : Option ListenerScript)
  | setPolicy (policy : Option (Except Failure Policy))
  | setBackoff (backoff : Option (Except Failure Pacing))
  | setCorrelation (id : Option Datum)

end

instance : Inhabited ListenerScript := ⟨.silent none⟩

instance : Inhabited Rule := ⟨.on "" none [] none⟩

instance : Inhabited Action := ⟨.cancel⟩

/-- The parts of a template to be made; a missing one is the standard one. -/
structure Parts where
  policy : Option (Except Failure Policy)
  backoff : Option (Except Failure Pacing)
  listener : Option ListenerScript

mutual

/-- One invocation of an operation: actions, and then its ending. -/
inductive Outcome where
  | mk (actions : List Action) (ending : Ending)

/-- How an invocation ends: with a value, with a failure, or as another call ends. -/
inductive Ending where
  | value (d : Datum)
  | fails (f : Failure)
  | nested (operation : Except Failure Operation) (outcomes : List Outcome)
      (parts : Parts) (withToken : Bool)

end

instance : Inhabited Ending := ⟨.value .null⟩

instance : Inhabited Outcome := ⟨.mk [] default⟩

/-- A token to be made. -/
structure TokenScript where
  preCancelled : Bool
  cancelOnWait : Option Nat

end Retry.Simulation
