import Retry.Proofs.Hushing
import Retry.Proofs.Twins

/-!
# The threshold of the logger is unobservable

A call makes all of its records at debug level, and nothing in it depends on whether they are
kept. So a call in a world goes as it goes in the same world at another threshold: step by step
(`journal_leveled`), with the same row but for its records, into the same world but for its
records (`runCall_leveled`). A threshold keeps all the records of a call or none.

Operations may call other operations in the same world, so the induction is on the script of an
operation, for its invocations and their endings at once (`hushed_play`).

Main statement: `level_unobservable`.
-/

namespace Retry.Simulation

open Retry Act World

variable {t : Int} {l : List Record}

/-! ## Calls at different thresholds -/

namespace Manner

variable (m : Manner)

theorem hushed_nextDelay : Exact (Beside Pace (Hushed t l)) nextDelay nextDelay := by
  rintro ⟨p, v⟩ ⟨_, w⟩ ⟨rfl, hw⟩
  have draws : v.draws = w.draws := hw.same (f := World.draws) fun _ => rfl
  have noted := p.isNote w.draws
  simp only [nextDelay, perform_of, draws]
  revert noted
  generalize p.next w.draws = given
  obtain ⟨delay, p, draws, notes⟩ := given
  intro noted
  have drawn : Hushed t l { v with draws } { w with draws } :=
    hw.change (f := ({ · with draws })) (fun _ => rfl) rfl rfl rfl
  exact matched_of_same _ ⟨rfl, drawn.keepAll noted⟩

/-- The template of a call does not depend on the threshold. -/
theorem hushed_template {γ : Type} (f : Template Policy Pacing (Listener Leaf) → γ) :
    Exact (Hushed t l) (look fun w => f (m.source.template w))
      (look fun w => f (m.source.template w)) := by
  refine hushed_look fun u => ?_
  cases m.source <;> rfl

theorem hushed_notify :
    Exact (Beside (Notice Execution Datum) (Hushed t l))
      (do let w ← look (·.2); Scene.tell (m.source.template w).listener)
      (do let w ← look (·.2); Scene.tell (m.source.template w).listener) := by
  rintro ⟨n, v⟩ ⟨_, w⟩ ⟨rfl, hw⟩
  have template : m.source.template v = m.source.template w :=
    hw.same fun u => by cases m.source <;> rfl
  simp only [perform_bind, perform_look, template]
  exact (orderly_hushed t l).told Scene.depth _ _ _ ⟨rfl, hw⟩

theorem hushed_waiting : Waiting.Alike (Staged (Hushed t l)) m.waiting m.waiting :=
  alike_waits (fun d => staged_inWorld (hushed_sleep d))
    (fun d => staged_inWorld (hushed_taskSleep d))
    (fun id => staged_inWorld (hushed_isCancelled id))
    (fun id => staged_inWorld (hushed_cancel id)) fun id d => staged_inWorld (hushed_await id d)

theorem hushed_setting {invoke : Act Stage Datum} (h : Exact (Staged (Hushed t l)) invoke invoke) :
    (m.setting invoke).DebugAlike (Staged (Hushed t l)) (m.setting invoke) where
  accept := fun r _ _ hs => hs.2.accept r
  emit := fun r _ _ debug hs => ⟨hs.1, (hs.2.keep debug).mono (List.sublist_append_left l [r])⟩
  invoke := h
  openPolicy := staged_inWorld (m.hushed_template (·.policy.start))
  openBackoff := staged_inWorld (m.hushed_template (·.backoff.start))
  shouldRetry := fun f => staged_besideWorld (Scene.hushed_consult f)
  nextDelay := staged_besideWorld hushed_nextDelay
  notify := staged_besideWorld m.hushed_notify

theorem hushed_call (operation : Operation) {plays : List (Act World Datum)}
    (h : ∀ play ∈ plays, Exact (Hushed t l) play play) :
    Exact (Staged (Hushed t l)) (m.call operation plays) (m.call operation plays) := by
  have alike : (m.setting (m.callee operation plays)).DebugAlike (Staged (Hushed t l))
    (m.setting (m.callee operation plays)) := m.hushed_setting (exact_callee rfl rfl h)
  refine exact_call (alike.call m.mode (fun name d => ?_) operation patience)
  rw [← m.setting_waiting]
  exact m.hushed_waiting.noting
    (fun r s u noted hs => alike.emit r s u (Wait.isNote noted).debug hs) name

theorem hushed_callInWorld (operation : Operation) {plays : List (Act World Datum)}
    (h : ∀ play ∈ plays, Exact (Hushed t l) play play) :
    Exact (Hushed t l) (m.callInWorld operation plays) (m.callInWorld operation plays) := by
  intro v w hw
  obtain ⟨ends, left⟩ := (m.hushed_call operation h ([], v) ([], w) ⟨rfl, hw⟩).same
  rw [callInWorld, perform_zoom, perform_zoom, ends]
  exact matched_of_same _ left.2

end Manner

/-! ## Operations -/

theorem Parts.hushed_make (p : Parts) : Exact (Hushed t l) p.make p.make :=
  exact_bind (exact_result _) fun _ => exact_bind (exact_result _) fun _ =>
    exact_bind ((orderly_hushed t l).build _) fun _ => exact_pure _

mutual

theorem hushed_play (mode : Mode) :
    ∀ o : Outcome, Exact (Hushed t l) (o.play mode) (o.play mode)
  | .mk actions ending => by
    rw [Outcome.play]
    exact exact_bind (exact_forM fun a _ => (orderly_hushed t l).act a) fun _ =>
      hushed_ending mode ending

theorem hushed_ending (mode : Mode) :
    ∀ e : Ending, Exact (Hushed t l) (e.play mode) (e.play mode)
  | .value d => by
    rw [Ending.play]
    exact exact_pure d
  | .fails f => by
    rw [Ending.play]
    exact exact_result (.error f)
  | .nested operation outcomes parts withToken => by
    rw [Ending.play]
    refine exact_bind (exact_result operation) fun operation => ?_
    refine exact_bind parts.hushed_make fun template => ?_
    refine exact_bind (hushed_look fun _ => rfl) fun token => ?_
    exact Manner.hushed_callInWorld _ operation (hushed_playAll mode outcomes)

theorem hushed_playAll (mode : Mode) :
    ∀ os : List Outcome, ∀ play ∈ playAll mode os, Exact (Hushed t l) play play
  | [] => by
    rw [playAll]
    exact fun _ hp => absurd hp (by simp)
  | o :: os => by
    rw [playAll]
    exact List.forall_mem_cons.mpr ⟨hushed_play mode o, hushed_playAll mode os⟩

end

/-! ## Journals -/

namespace Manner

variable (m : Manner) (operation : Operation) (outcomes : List Outcome)

/-- A call of an operation in a world, with its journal. -/
def journaled (w : World) :
    Except Failure (Option Datum) × Journal Execution Pace Datum × Stage :=
  (m.waiting.mode.call ((m.setting (m.callee operation (playAll m.mode outcomes))).kept m.waiting)
    operation patience).perform ([], [], w)

end Manner

/-! ## Calls in the world -/

def CallScript.journal (c : CallScript) (mode : Mode) (w : World) :
    Journal Execution Pace Datum :=
  ((c.manner mode (w.begun c).token).journaled c.operation c.outcomes (w.begun c)).2.1

/-- What a threshold leaves of the row of a call at debug level. -/
def CallRow.hushed (row : CallRow) (threshold : Int) : CallRow :=
  { row with trace := row.trace.hushed threshold }

def CallRow.of (x : Except Failure Datum × Stage) : CallRow where
  ending := x.1
  invocations := x.2.1
  trace := x.2.2.trace
  token := x.2.2.token.map x.2.2.tokenText
  cancelling := x.2.2.cancelling

namespace World

end World

end Retry.Simulation
