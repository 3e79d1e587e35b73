import Retry.Failure

/-!
# Steps that change their surroundings and may fail

An `Act σ α` runs on surroundings `σ`. It ends in a result or in a failure, and in
both cases in new surroundings: what happened before a failure stays.
-/

namespace Retry

abbrev Act (σ : Type) := ExceptT Failure (StateM σ)

namespace Act

variable {σ τ α : Type}

def of (f : σ → Except Failure α × σ) : Act σ α := f

/-- What a step does: its end, and the surroundings after it. -/
def perform (act : Act σ α) (s : σ) : Except Failure α × σ := act s

def sure (f : σ → α × σ) : Act σ α := of fun s => let (a, s) := f s; (.ok a, s)

/-- A step that only changes the surroundings. -/
def change (f : σ → σ) : Act σ Unit := of fun s => (.ok (), f s)

def look (f : σ → α) : Act σ α := of fun s => (.ok (f s), s)

def result (r : Except Failure α) : Act σ α := of fun s => (r, s)

/-- Runs a step that also changes `x`, and hands `x` back. -/
def focus (x : τ) (act : Act (τ × σ) α) : Act σ (α × τ) :=
  of fun s => match act.perform (x, s) with
    | (.ok a, x, s) => (.ok (a, x), s)
    | (.error f, _, s) => (.error f, s)

/-- Takes an ordinary failure as a result; an interruption goes through. -/
def trial (act : Act σ α) : Act σ (Except Failure α) :=
  of fun s => match act.perform s with
    | (.ok a, s) => (.ok (.ok a), s)
    | (.error f, s) => if f.ordinary then (.ok (.error f), s) else (.error f, s)

/-- The same step with its failures turned into others. -/
def mapFailure (g : Failure → Failure) (act : Act σ α) : Act σ α :=
  of fun s => match act.perform s with
    | (.ok a, s) => (.ok a, s)
    | (.error f, s) => (.error (g f), s)

/-- Runs a step on a part of the surroundings. -/
def zoom (get : σ → τ) (set : τ → σ → σ) (act : Act τ α) : Act σ α :=
  of fun s => let (r, t) := act.perform (get s); (r, set t s)

end Act

end Retry
