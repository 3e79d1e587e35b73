import Retry.Datum
import Retry.Failure

/-!
# Operations and their names

An operation is named by its `name` attribute if that is a text, else by its
qualified name, else by its type. A partial application is looked through, and a
named operation carries a name of its own. Reading a `name` attribute may fail;
only a missing attribute is passed over.

Calling an operation usually does the work of the call; some operations give a fixed
result instead, refuse to be called without arguments, or cannot be called at all.
-/

namespace Retry

/-- An attribute of an operation. -/
inductive Attribute where
  | absent
  | value (d : Datum)
  | failing (f : Failure)

namespace Attribute

def text? : Attribute → Except Failure (Option String)
  | .absent => .ok none
  | .value (.text s) => .ok (some s)
  | .value _ => .ok none
  | .failing f => if f.isA "AttributeError" then .ok none else .error f

end Attribute

/-- What an operation can give by itself: plain data, or an object of a type. -/
inductive Given where
  | datum (d : Datum)
  | object (typeName : String)

namespace Given

def typeName : Given → String
  | .datum d => d.typeName
  | .object typeName => typeName

/-- What is given, as plain data; an object is shown by its type. -/
def toDatum : Given → Datum
  | .datum d => d
  | .object typeName => .text s!"<{typeName} object>"

end Given

/-- What comes of calling an operation. -/
inductive Callee where
  | work
  | gives (g : Given)
  | refusal (f : Failure)
  | none

/-- What the loop can know of an operation. -/
inductive Operation where
  | base (name qualifiedName : Attribute) (typeName : String) (callee : Callee)
  | partly (name : Attribute) (inner : Operation)
  | labelled (label : Datum) (inner : Operation)

namespace Operation

/-- The name of an operation: `get_operation_name`. -/
def displayName : Operation → Except Failure String
  | .base name qualifiedName typeName _ => do
    if let some s ← name.text? then return s
    if let some s ← qualifiedName.text? then return s
    return typeName
  | .partly name inner => do
    if let some s ← name.text? then return s
    inner.displayName
  | .labelled (.text s) _ => .ok s
  | .labelled _ _ => .ok "NamedOperation"

/-- A function with a qualified name and no other attributes. -/
def function (qualifiedName : String) : Operation :=
  .base .absent (.value (.text qualifiedName)) "function" .work

def callable : Operation → Bool
  | .base _ _ _ .none => false
  | _ => true

/-- What comes of calling an operation, if that is not the work of the call. -/
def given? : Operation → Option (Except Failure Given)
  | .base _ _ _ .work => none
  | .base _ _ _ (.gives g) => some (.ok g)
  | .base _ _ _ (.refusal f) => some (.error f)
  | .base _ _ typeName .none =>
    some (.error (.of .typeError s!"'{typeName}' object is not callable"))
  | .partly _ inner => inner.given?
  | .labelled _ inner => inner.given?

/-- A partial application. Only what can be called can be applied. -/
def applied (name : Attribute) (inner : Operation) : Except Failure Operation :=
  if inner.callable then .ok (.partly name inner)
  else .error (.of .typeError "the first argument must be callable")

/-- An operation with a label, or else labelled with its own name: `NamedOperation.__init__`. -/
def named (label : Option Datum) (inner : Operation) : Except Failure Operation :=
  match label with
  | some d => .ok (.labelled d inner)
  | none => do return .labelled (.text (← inner.displayName)) inner

/-- What one call of a function decorated with `retry` does: it applies the function to the
arguments of the call, under the function's qualified name. -/
def decorated (qualifiedName : String) (function : Operation) : Operation :=
  .labelled (.text qualifiedName) (.partly .absent function)

def literal : Operation → Option String
  | .labelled label _ => some s!"NamedOperation(name={label.literal})"
  | _ => none

theorem displayName_decorated (qualifiedName : String) (function : Operation) :
    (decorated qualifiedName function).displayName = .ok qualifiedName := rfl

theorem displayName_named_none {inner op : Operation} (h : named none inner = .ok op) :
    op.displayName = inner.displayName := by
  unfold named at h
  cases hn : inner.displayName <;> rw [hn] at h <;> simp [bind, Except.bind, pure, Except.pure] at h
  subst h; rfl

end Operation

end Retry
