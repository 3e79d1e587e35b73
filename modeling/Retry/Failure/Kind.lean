/-!
# Kinds of failure

A kind is known by its name and by its lineage, the names of all kinds that it
counts as. A handler for a kind takes every failure whose lineage names it, so a
kind may descend from several others. The *ordinary* failures are those that
descend from `Exception`; only these are ever retried, the rest interrupt.
-/

namespace Retry

/-- What the wording of a failure can end in itself: a plain failure, by its kind and message. -/
structure Raise where
  name : String
  lineage : List String
  home : String
  message : String
  deriving DecidableEq, Repr

/-- How a failure of some kind words itself from its message. -/
inductive Wording where
  | plain
  | quoted
  | failing (raise : Raise)
  deriving DecidableEq, Repr

/-- A kind of failure. `home` is the module shown before the name in reports;
it is empty for the kinds of the base language. -/
structure Kind where
  name : String
  lineage : List String
  home : String := ""
  wording : Wording := .plain
  deriving DecidableEq, Repr

namespace Kind

/-- Whether a failure of this kind counts as one of the named kind. -/
def descends (k : Kind) (ancestor : String) : Bool := k.lineage.contains ancestor

def ordinary (k : Kind) : Bool := k.descends "Exception"

/-- The name in reports, with the module in front. -/
def fullName (k : Kind) : String := if k.home = "" then k.name else k.home ++ "." ++ k.name

/-- The kind directly below the given ones, in order. -/
def below (name : String) (parents : List Kind) : Kind :=
  { name, lineage := name :: (parents.flatMap lineage).eraseDups }

def within (k : Kind) (home : String) : Kind := { k with home }

def worded (k : Kind) (wording : Wording) : Kind := { k with wording }

/-- What a wording that fails with this kind ends in. -/
def raising (k : Kind) (message : String) : Raise :=
  { name := k.name, lineage := k.lineage, home := k.home, message }

def baseException : Kind := below "BaseException" []
def exception : Kind := below "Exception" [baseException]
def cancelledError : Kind := (below "CancelledError" [baseException]).within "asyncio.exceptions"
def valueError : Kind := below "ValueError" [exception]
def typeError : Kind := below "TypeError" [exception]
def attributeError : Kind := below "AttributeError" [exception]
/-- An assignment to a field of a frozen value. -/
def frozenInstanceError : Kind :=
  (below "FrozenInstanceError" [attributeError]).within "dataclasses"
def arithmeticError : Kind := below "ArithmeticError" [exception]
def overflowError : Kind := below "OverflowError" [arithmeticError]
def runtimeError : Kind := below "RuntimeError" [exception]
def recursionError : Kind := below "RecursionError" [runtimeError]
def osError : Kind := below "OSError" [exception]
/-- A failed look-up; the text of a key look-up is the quoted key. -/
def lookupError : Kind := below "LookupError" [exception]
def keyError : Kind := (below "KeyError" [lookupError]).worded .quoted
def indexError : Kind := below "IndexError" [lookupError]

def stopIteration : Kind := below "StopIteration" [exception]

/-- The root of the failures of the retry loop itself. -/
def retryError : Kind := (below "RetryError" [exception]).within "aretry.exceptions"
def retryExhaustedError : Kind :=
  (below "RetryExhaustedError" [retryError]).within "aretry.exceptions"
def retryAbortedError : Kind := (below "RetryAbortedError" [retryError]).within "aretry.exceptions"
def retryCancelledError : Kind :=
  (below "RetryCancelledError" [retryError]).within "aretry.exceptions"

/-- The kind of an absent failure: it counts as no other kind. -/
def absent : Kind := { name := "NoneType", lineage := ["NoneType"] }

theorem descends_below_self (name : String) (parents : List Kind) :
    (below name parents).descends name = true := by
  simp [descends, below]

end Kind

end Retry
