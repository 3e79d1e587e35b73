import Retry.Proofs.Durations
import Retry.Proofs.Headings
import Retry.Proofs.Keeping
import Retry.Simulation.Parts

/-!
# The records of a call

The loop records its phases. Policies, backoffs and waits make records too, and theirs are notes:
a message at debug level, without fields and without a failure (`Record.IsNote`). So only the
loop's own records name the operation (`IsNote.operation?`), and all records of a call are at
debug level (`Record.Debug`).
-/

namespace Retry

def Record.Debug (r : Record) : Prop := r.level = .whole Level.debug

/-- A message at debug level, without fields and without a failure. -/
def Record.IsNote (r : Record) : Prop := ∃ logger message, r = .note logger message

theorem Record.IsNote.debug {r : Record} (h : r.IsNote) : r.Debug := by
  obtain ⟨logger, message, rfl⟩ := h
  rfl

/-- Only the loop knows the operation: notes do not name it. -/
theorem Record.IsNote.operation? {r : Record} (h : r.IsNote) : r.operation? = none := by
  obtain ⟨logger, message, rfl⟩ := h
  rfl

theorem Phase.debug_record {name : String} {attempt : Attempt} {phase : Phase} {r : Record}
    (h : phase.record name attempt = .ok r) : r.Debug := by
  obtain ⟨message, -, rfl⟩ := of_record h
  rfl

theorem Wait.isNote {d : Delay} {r : Record} (h : note d = .ok r) : r.IsNote := by
  obtain ⟨seconds, -, h⟩ := Except.of_bind_ok h
  obtain rfl := Except.ok.inj h
  exact ⟨_, _, rfl⟩

theorem SelectivePolicy.Execution.isNote (e : SelectivePolicy.Execution) (f : Failure) :
    ∀ r ∈ (e.shouldRetry f).notes, r.IsNote := by
  unfold shouldRetry
  split
  · simp
  · rcases e.policy.isRetryable f with x | _ | _
    · simp
    · rcases f.text with x | t
      · simp
      · exact List.forall_mem_singleton.mpr ⟨_, _, rfl⟩
    · dsimp only
      split <;> simp

theorem Backoff.isNote_elapsedNote {b : Backoff} {run : Backoff.Run} {r : Record}
    (h : b.elapsedNote run = .ok r) : r.IsNote := by
  obtain ⟨elapsed, -, h⟩ := Except.of_bind_ok h
  obtain ⟨limit, -, h⟩ := Except.of_bind_ok h
  obtain rfl := Except.ok.inj h
  exact ⟨_, _, rfl⟩

theorem Backoff.isNote (b : Backoff) (run : Backoff.Run) (draws : Draws) :
    ∀ r ∈ (b.next run draws).notes, r.IsNote := by
  unfold next
  split
  · simp
  · split
    · exact List.forall_mem_singleton.mpr ⟨_, _, rfl⟩
    · rcases b.calculate run.attempts draws with ⟨x | d, draws'⟩
      · simp
      · dsimp only
        rcases b.exceeds run d with x | _ | _
        · simp
        · simp only [grant]
          cases d.addedTo run.elapsed "+=" <;> simp
        · cases noted : b.elapsedNote run with
          | error x => simp
          | ok r => exact List.forall_mem_singleton.mpr (isNote_elapsedNote noted)

namespace Simulation

theorem Execution.isNote (e : Execution) (f : Failure) :
    ∀ r ∈ (e.shouldRetry f).notes, r.IsNote := by
  cases e with
  | count e =>
    exact fun _ hr => absurd hr (by simp [shouldRetry, CountPolicy.Execution.shouldRetry])
  | selective e => exact SelectivePolicy.Execution.isNote e f
  | scripted answers calls => exact fun _ hr => absurd hr (by simp [shouldRetry])

theorem Pace.isNote (p : Pace) (draws : Draws) : ∀ r ∈ (p.next draws).2.2.2, r.IsNote := by
  cases p with
  | limited b run => exact b.isNote run draws
  | scripted delays given => exact fun _ hr => absurd hr (by simp [next])

end Simulation

end Retry
