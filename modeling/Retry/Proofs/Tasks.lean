import Retry.Mode
import Retry.Proofs.Steps

/-!
# The two loops

The loop of a task (`Setting.taskRun`) is written in one piece, and that of a blocking call
(`Setting.run`) in parts. In one setting they are the same step. The simulation goes along
the text of the loop: what both bind is bound alike, and the cases split where the loops do,
on the answer of the policy, on the delay, on the wait and on the end of the invocation.

Main statements: `taskTurns_eq`, `taskRun_eq`, and `Mode.loop_eq` for both modes.
-/

namespace Retry

namespace Setting

variable {σ ε β α : Type} (S : Setting σ ε β α) (name : String)

/-- Steps obey the laws of monads, as their layers do. -/
instance : LawfulMonad (Act σ) := inferInstanceAs (LawfulMonad (ExceptT Failure (StateM σ)))

theorem taskExhausted_eq (p : Progress ε β) :
    S.taskExhausted name p = (do return some (.exhausted (← S.giveUp name p))) := by
  simp only [taskExhausted, giveUp, bind_assoc, pure_bind]

/-- **The loops turn alike**, from every place in a call. -/
theorem taskTurns_eq (fuel : Nat) : ∀ p, S.taskTurns name fuel p = S.turns name fuel p := by
  induction fuel with
  | zero => exact fun _ => rfl
  | succ fuel ih =>
    intro p
    unfold taskTurns turns turn consult
    rw [bind_assoc, bind_assoc]
    refine bind_congr fun asked => ?_
    obtain ⟨granted, execution⟩ := asked
    cases granted with
    | false => simp [taskExhausted_eq]
    | true =>
      simp only [if_true, bind_assoc]
      refine bind_congr fun drawn => ?_
      obtain ⟨delay, backoff⟩ := drawn
      cases Backoff.isStop delay with
      | true => simp [taskExhausted_eq]
      | false =>
        simp only [Bool.false_eq_true, if_false, await, bind_assoc, pure_bind]
        refine bind_congr fun _ => bind_congr fun interruption => ?_
        cases interruption with
        | some interruption => simp [abort]
        | none =>
          simp only [reattempt, bind_assoc, pure_bind]
          refine bind_congr fun attempt => bind_congr fun _ => bind_congr fun notice =>
            bind_congr fun ending => ?_
          cases ending with
          | error failure => simp [ih]
          | ok result => simp

/-- **The loops make the same calls.** -/
theorem taskRun_eq (fuel : Nat) : S.taskRun name fuel = S.run name fuel := by
  unfold taskRun run
  refine bind_congr fun _ => bind_congr fun ending => ?_
  cases ending with
  | ok result => rfl
  | error failure => simp [begin, taskTurns_eq]

end Setting

theorem Mode.loop_eq {σ ε β α : Type} (mode : Mode) (S : Setting σ ε β α) (name : String)
    (fuel : Nat) : mode.loop S name fuel = S.run name fuel := by
  cases mode with
  | blocking => rfl
  | task => exact S.taskRun_eq name fuel

end Retry
