import Retry.Backoff.Schedule
import Retry.Policy

/-!
# Templates

A template holds the policy, the backoff and the listener of its calls. Each can be
replaced while the template is in use; none can be taken away.
-/

namespace Retry

/-- The settings of a template. -/
structure Template (π β κ : Type) where
  policy : π
  backoff : β
  listener : κ

namespace Template

variable {π β κ : Type}

/-- The failure of taking away a part of a template. -/
def required (part : String) : Failure := .of .valueError s!"{part} must not be None"

/-- A value for a part that cannot be taken away. -/
def provided {α : Type} (part : String) : Option α → Except Failure α
  | some a => .ok a
  | none => .error (required part)

/-- `BaseRetryTemplate.set_retry_policy`. -/
def setPolicy (t : Template π β κ) (policy : Option π) : Except Failure (Template π β κ) := do
  return { t with policy := ← provided "retry_policy" policy }

/-- `BaseRetryTemplate.set_backoff_policy`. -/
def setBackoff (t : Template π β κ) (backoff : Option β) : Except Failure (Template π β κ) := do
  return { t with backoff := ← provided "backoff_policy" backoff }

/-- `BaseRetryTemplate.set_listener`. -/
def setListener (t : Template π β κ) (listener : Option κ) :
    Except Failure (Template π β κ) := do
  return { t with listener := ← provided "listener" listener }

/-- The text of a template, from the texts of its parts. -/
def text (kind : String) (policy backoff listener : String) : String :=
  s!"{kind}(retry_policy={policy}, backoff_policy={backoff}, listener={listener})"

end Template

end Retry
