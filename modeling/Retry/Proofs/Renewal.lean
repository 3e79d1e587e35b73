import Retry.Proofs.Meddlers

/-!
# What calls leave of a world

A world is set up with a template, groups of listeners, a source of random numbers and a logger
(`World.renewed`). Everything else in it tells what has happened: what was built, told, waited
for and written down. Records and waits change nothing of what a world was set up with.
-/

namespace Retry.Simulation

open Retry Act

namespace World

/-- The world as it was set up, before anything happened in it. -/
def renewed (w : World) : World :=
  { template? := w.template?, groups := w.groups, draws := w.draws, correlation := w.correlation
    threshold := w.threshold, lines := w.lines, refusals := w.refusals, refuse := w.refuse }

section

variable {v w : World} (h : v.renewed = w.renewed)

include h

/-- Worlds that were set up alike agree on what they were set up with. -/
theorem eq_of_renewed {γ : Type} (f : World → γ) (setup : ∀ w, f w = f w.renewed) : f v = f w := by
  rw [setup v, setup w, h]

theorem template?_of_renewed : v.template? = w.template? := eq_of_renewed h template? fun _ => rfl

theorem template_of_renewed : v.template = w.template := eq_of_renewed h template fun _ => rfl

theorem groups_of_renewed : v.groups = w.groups := eq_of_renewed h groups fun _ => rfl

theorem draws_of_renewed : v.draws = w.draws := eq_of_renewed h draws fun _ => rfl

end

theorem keep_renewed (w : World) (r : Record) : (w.keep r).renewed = w.renewed := by
  unfold keep
  split <;> rfl

theorem keepAll_renewed (notes : List Record) (w : World) :
    (notes.foldl keep w).renewed = w.renewed := by
  induction notes generalizing w with
  | nil => rfl
  | cons r notes ih => exact (ih _).trans (w.keep_renewed r)

end World

/-- Between these worlds, nothing happened but waits and what becomes of tokens. -/
structure World.Waited (v w : World) : Prop where
  renewed : w.renewed = v.renewed
  events : w.trace.events = v.trace.events
  logs : w.trace.logs = v.trace.logs

theorem World.taskSleep_waited (d : Delay) (w : World) :
    w.Waited ((taskSleep d).perform w).2 := by
  rw [perform_taskSleep]
  cases w.refusals.task d with
  | some f => exact ⟨rfl, rfl, rfl⟩
  | none =>
    dsimp only
    split <;> exact ⟨rfl, rfl, rfl⟩

namespace Manner

variable (m : Manner)

/-- What waits and tokens do not touch is kept by the waits of a call. -/
theorem steady_waiting {P : Stage → Prop}
    (waited : ∀ (s : Stage) (w : World), s.2.Waited w → P s → P (s.1, w)) :
    Waiting.Alike (Steady P) m.waiting m.waiting :=
  alike_waits (fun _ => exact_steady fun s hs => waited s _ ⟨rfl, rfl, rfl⟩ hs)
    (fun d => exact_steady fun s hs => waited s _ (World.taskSleep_waited d s.2) hs)
    (fun _ => exact_steady fun _ hs => hs)
    (fun _ => exact_steady fun s hs => waited s _ ⟨rfl, rfl, rfl⟩ hs)
    fun _ _ => exact_steady fun s hs => waited s _ ⟨rfl, rfl, rfl⟩ hs

theorem emit_renewed (invoke : Act Stage Datum) (r : Record) (s : Stage) :
    ((m.setting invoke).emit r s).2.renewed = s.2.renewed :=
  s.2.keep_renewed r

theorem pause_renewed (invoke : Act Stage Datum) (name : String) (d : Delay) (s : Stage) :
    ((((m.setting invoke).waiting m.waiting).pause name d).perform s).2.2.renewed =
      s.2.renewed := by
  have steady : Exact (Steady fun t : Stage => t.2.renewed = s.2.renewed)
      (((m.setting invoke).waiting m.waiting).pause name d)
      (((m.setting invoke).waiting m.waiting).pause name d) :=
    (m.steady_waiting fun _ _ waited ht => waited.renewed.trans ht).pause
      (fun r t _ h => ⟨by rw [h.1], (m.emit_renewed invoke r t).trans h.2⟩) name d
  exact (steady s s ⟨rfl, rfl⟩).same.2.2

end Manner

end Retry.Simulation
