import Retry.Datum
import Retry.Failure.Kind

/-!
# Failures

A failure is what an attempt, a collaborator or the loop itself ends in. Besides
the plain failures there are the four of the retry loop, which name the
operation. Messages and names are texts as a rule, but any plain value will do. An
*exhausted* one keeps the failure of the first attempt as its cause and those of the later
attempts as suppressed failures, in order.

`Failure.text` is the text of a failure; for a kind whose wording fails it is
itself a failure. `Failure.report` is the block that a log entry shows.

Main statements: `errors_addSuppressed` (adding a suppressed failure appends it to
the errors and counts one attempt more), `errors_exhaustedFor` (the errors of the
loop's exhaustion are the first failure and then the others, in order).
-/

namespace Retry

/-- A failure. `chained` is the failure reported before it as its direct cause. -/
inductive Failure where
  | plain (kind : Kind) (message : Option Datum) (chained : Option Failure)
  | retry (operation message : Datum) (chained : Option Failure)
  | cancelled (operation message : Datum) (chained : Option Failure)
  | aborted (operation message : Datum) (cause : Failure) (chained : Option Failure)
  | exhausted (operation message : Datum) (cause : Failure) (suppressed : List Failure)
      (chained : Option Failure)

namespace Failure

def of (kind : Kind) (message : String) : Failure := .plain kind (some (.text message)) none

/-- The absent failure, where a failure may be left out. -/
def missing : Failure := of .absent "None"

instance : Inhabited Failure := ⟨missing⟩

def kind : Failure → Kind
  | .plain k _ _ => k
  | .retry _ _ _ => .retryError
  | .cancelled _ _ _ => .retryCancelledError
  | .aborted _ _ _ _ => .retryAbortedError
  | .exhausted _ _ _ _ _ => .retryExhaustedError

/-- Ordinary failures can be retried, the rest interrupt. -/
def ordinary (f : Failure) : Bool := f.kind.ordinary

/-- Whether a failure counts as one of the named kind. -/
def isA (f : Failure) (kind : String) : Bool := f.kind.descends kind

def isMissing (f : Failure) : Bool := f.kind = .absent

def present? (f : Failure) : Option Failure := if f.isMissing then none else some f

def message? : Failure → Option Datum
  | .plain _ m _ => m
  | .retry _ m _ => some m
  | .cancelled _ m _ => some m
  | .aborted _ m _ _ => some m
  | .exhausted _ m _ _ _ => some m

/-- The operation that a failure of the loop names. -/
def operation? : Failure → Option Datum
  | .plain _ _ _ => none
  | .retry o _ _ => some o
  | .cancelled o _ _ => some o
  | .aborted o _ _ _ => some o
  | .exhausted o _ _ _ _ => some o

def chained? : Failure → Option Failure
  | .plain _ _ c => c
  | .retry _ _ c => c
  | .cancelled _ _ c => c
  | .aborted _ _ _ c => c
  | .exhausted _ _ _ _ c => c

/-- The same failure with another direct cause. -/
def chain (f : Failure) (c : Option Failure) : Failure :=
  match f with
  | .plain k m _ => .plain k m c
  | .retry o m _ => .retry o m c
  | .cancelled o m _ => .cancelled o m c
  | .aborted o m cause _ => .aborted o m cause c
  | .exhausted o m cause s _ => .exhausted o m cause s c

def ofRaise (r : Raise) : Failure :=
  of { name := r.name, lineage := r.lineage, home := r.home } r.message

/-- The text of a failure, empty without a message. -/
def text (f : Failure) : Except Failure String :=
  match f.kind.wording with
  | .plain => .ok ((f.message?.map Datum.shown).getD "")
  | .quoted => .ok ((f.message?.map Datum.literal).getD "")
  | .failing raise => .error (ofRaise raise)

/-- The literal of a failure: its kind applied to its message. -/
def literal (f : Failure) : String :=
  if f.isMissing then "None"
  else f.kind.name ++ "(" ++ (f.message?.map Datum.literal).getD "" ++ ")"

/-! ## The failures of the loop -/

def waitCancelled (operation : Datum) : Failure :=
  .cancelled operation (.text s!"Backoff wait for operation '{operation.shown}' was cancelled") none

/-- An aborted call; its cause is also what it is chained to. -/
def abortedWith (operation message : Datum) (cause : Failure) : Failure :=
  .aborted operation message cause cause.present?

/-- An exhausted call; its cause is also what it is chained to. -/
def exhaustedWith (operation message : Datum) (cause : Failure) (suppressed : List Failure) :
    Failure :=
  .exhausted operation message cause suppressed cause.present?

/-- The failure of a call whose wait was cancelled: `create_aborted_error`. -/
def abortedFor (operation : Datum) (cause : Failure) : Failure :=
  abortedWith operation (.text s!"Unable to back off for operation '{operation.shown}'") cause

/-- The failure of a call whose retries ran out: `create_exhausted_error`. -/
def exhaustedFor (operation : Datum) (first : Failure) (later : List Failure) : Failure :=
  exhaustedWith operation
    (.text s!"Retry policy for operation '{operation.shown}' exhausted; aborting execution")
    first later

/-- What a failure is outside of the task that it ends: the end of an iteration cannot
leave a task, and becomes a failure of the task that is chained to it. -/
def leavingTask (f : Failure) : Failure :=
  if f.isA "StopIteration" then
    (of .runtimeError "coroutine raised StopIteration").chain (some f)
  else f

/-- What raising anything but a failure ends in. -/
def unraisable : Failure := of .typeError "exceptions must derive from BaseException"

/-- What is raised when a failure is to be raised that may be absent. -/
def raised (f : Failure) : Failure := f.present?.getD unraisable

/-- What going through the items of nothing ends in. -/
def notIterable : Failure := of .typeError "'NoneType' object is not iterable"

/-- What looking up a value ends in that cannot be a key. -/
def unhashable (d : Datum) : Failure := of .typeError s!"unhashable type: '{d.typeName}'"

/-- Access to an attribute that failures of this kind do not have. -/
def noAttribute (f : Failure) (name : String) : Failure :=
  of .attributeError s!"'{f.kind.name}' object has no attribute '{name}'"

/-- The failure reported before this one, absent if there is none. -/
def directCause (f : Failure) : Except Failure Failure :=
  if f.isMissing then .error (f.noAttribute "__cause__") else .ok (f.chained?.getD missing)

/-- All failures of the attempts behind an exhausted call, in order: `RetryExhaustedError.errors`.
-/
def errors : Failure → Except Failure (List Failure)
  | .exhausted _ _ cause suppressed _ => .ok (cause :: suppressed)
  | f => .error (f.noAttribute "errors")

/-- Appends a suppressed failure to an exhausted one: `RetryExhaustedError.add_suppressed`. -/
def addSuppressed (f added : Failure) : Except Failure Failure :=
  match f with
  | .exhausted o m cause suppressed c => .ok (.exhausted o m cause (suppressed ++ [added]) c)
  | f => .error (f.noAttribute "add_suppressed")

/-- How many attempts an exhausted failure stands for: `RetryExhaustedError.attempts`. -/
def attempts? : Failure → Option Nat
  | .exhausted _ _ _ suppressed _ => some (suppressed.length + 1)
  | _ => none

theorem errors_exhaustedFor (operation : Datum) (first : Failure) (later : List Failure) :
    (exhaustedFor operation first later).errors = .ok (first :: later) := rfl

theorem errors_addSuppressed {f g added : Failure} (h : f.addSuppressed added = .ok g) :
    ∃ before, f.errors = .ok before ∧ g.errors = .ok (before ++ [added]) ∧
      g.attempts? = f.attempts?.map (· + 1) := by
  cases f <;> simp [addSuppressed] at h
  subst h
  exact ⟨_, rfl, by simp [errors], by simp [attempts?]⟩

/-! ## Reports -/

/-- One line: the kind, and the text unless it is empty. -/
def reportLine (f : Failure) : String :=
  match f.text with
  | .error _ => f.kind.fullName ++ ": <exception str() failed>"
  | .ok "" => f.kind.fullName
  | .ok t => f.kind.fullName ++ ": " ++ t

/-- What stands between a failure and its direct cause. -/
def causeSeparator : String :=
  "\n\nThe above exception was the direct cause of the following exception:\n\n"

/-- A failure with its chain of direct causes, the innermost first. -/
def report : Failure → String
  | .plain k m (some c) => report c ++ causeSeparator ++ reportLine (.plain k m (some c))
  | .retry o m (some c) => report c ++ causeSeparator ++ reportLine (.retry o m (some c))
  | .cancelled o m (some c) => report c ++ causeSeparator ++ reportLine (.cancelled o m (some c))
  | .aborted o m x (some c) => report c ++ causeSeparator ++ reportLine (.aborted o m x (some c))
  | .exhausted o m x s (some c) =>
    report c ++ causeSeparator ++ reportLine (.exhausted o m x s (some c))
  | f => reportLine f

end Failure

end Retry
