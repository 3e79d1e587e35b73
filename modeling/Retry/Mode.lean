import Retry.Loop.Task
import Retry.Operation

/-!
# Blocking calls and tasks

A call is made by its caller, who blocks meanwhile, or it runs as a task. Each has a loop
of its own (`Mode.loop`). Besides, the end of an iteration cannot leave a task as such
(`Failure.leavingTask`): neither the task of the whole call, nor that of an invocation,
if the operation runs as one. An operation that fails before it gives anything to wait
for fails as it is; so what an invocation fails with is left to the setting.

`Mode.call` names an operation and calls it; `Mode.run` is the same up to how the loop
ends the call. Main statements: `run_blocking` (a blocking call is the loop on the named
operation), `perform_bounded` (what a mode makes of a step: its result, or its failure as
it leaves).
-/

namespace Retry

/-- Whether the caller blocks or a task runs the call. -/
inductive Mode where
  | blocking
  | task
  deriving DecidableEq, Repr

namespace Mode

def templateName : Mode → String
  | .blocking => "RetryTemplate"
  | .task => "AsyncRetryTemplate"

/-- What a failure is outside of what a mode runs. -/
def leaving : Mode → Failure → Failure
  | .blocking, f => f
  | .task, f => f.leavingTask

variable {σ ε β α : Type}

/-- A step with its failures as they leave it. -/
def bounded (mode : Mode) (act : Act σ α) : Act σ α := act.mapFailure mode.leaving

/-- What an operation gives by itself, as a mode takes it: a task can only wait for
results that arrive later. -/
def taken : Mode → Except Failure Given → Except Failure Datum
  | .blocking, r => r.map Given.toDatum
  | .task, .ok g =>
    .error (.of .typeError s!"object {g.typeName} can't be used in 'await' expression")
  | .task, .error f => .error f

def loop (mode : Mode) (S : Setting σ ε β α) (name : String) (fuel : Nat) :
    Act σ (Option (Ending α)) :=
  match mode with
  | .blocking => S.run name fuel
  | .task => S.taskRun name fuel

/-- A call of an operation, up to how the loop ends it. -/
def run (mode : Mode) (S : Setting σ ε β α) (operation : Operation) (fuel : Nat) :
    Act σ (Option (Ending α)) :=
  mode.bounded do
    let name ← Act.result operation.displayName
    mode.loop S name fuel

/-- A call of an operation: `RetryTemplate.execute` or `AsyncRetryTemplate.execute`. -/
def call (mode : Mode) (S : Setting σ ε β α) (operation : Operation) (fuel : Nat) :
    Act σ (Option α) := do
  match ← mode.run S operation fuel with
  | none => return none
  | some ending => return some (← mode.bounded (Act.result ending.outcome))

theorem perform_bounded (mode : Mode) (act : Act σ α) (s : σ) :
    (mode.bounded act).perform s =
      ((act.perform s).1.mapError mode.leaving, (act.perform s).2) := by
  simp only [bounded, Act.mapFailure, Act.perform, Act.of]
  rcases act s with ⟨r | r, t⟩ <;> rfl

theorem bounded_blocking (act : Act σ α) : blocking.bounded act = act := by
  funext s
  show (blocking.bounded act).perform s = act.perform s
  rw [perform_bounded]
  rcases act.perform s with ⟨r | r, t⟩ <;> rfl

theorem run_blocking (S : Setting σ ε β α) {operation : Operation} {name : String}
    (h : operation.displayName = .ok name) (fuel : Nat) :
    blocking.run S operation fuel = S.run name fuel := by
  simp only [run, bounded_blocking, h]
  rfl

end Mode

end Retry
