import Retry.Proofs.Likeness

/-!
# Onlookers

An onlooker keeps a value beside the surroundings of a setting and changes it with every
step of a collaborator, by what the step was asked and how it ended. Nobody else sees
the value, so watching changes nothing (`alike_unwatched`); and settings that are alike
stay alike under the same onlooker (`Alike.watched`). Waits are given apart.
-/

namespace Retry

namespace Act

variable {σ τ υ ω α : Type}

def watched (see : Except Failure α → υ → υ) (act : Act σ α) : Act (υ × σ) α :=
  of fun (u, s) => let y := act.perform s; (y.1, see y.1 u, y.2)

/-- A watched step on a value beside the surroundings, which is seen before and after. -/
def watchedOn (see : ω → Except Failure α → ω → υ → υ) (act : Act (ω × σ) α) :
    Act (ω × υ × σ) α :=
  of fun (x, u, s) => let y := act.perform (x, s); (y.1, y.2.1, see x y.1 y.2.1 u, y.2.2)

@[simp] theorem perform_watched (see : Except Failure α → υ → υ) (act : Act σ α) (x : υ × σ) :
    (act.watched see).perform x =
      ((act.perform x.2).1, see (act.perform x.2).1 x.1, (act.perform x.2).2) := rfl

@[simp] theorem perform_watchedOn (see : ω → Except Failure α → ω → υ → υ)
    (act : Act (ω × σ) α) (w : ω) (x : υ × σ) :
    (act.watchedOn see).perform (w, x) =
      ((act.perform (w, x.2)).1, (act.perform (w, x.2)).2.1,
        see w (act.perform (w, x.2)).1 (act.perform (w, x.2)).2.1 x.1,
        (act.perform (w, x.2)).2.2) := rfl

theorem watched_of_perform {see : Except Failure α → υ → υ} {act : Act σ α} {x y : υ × σ}
    {r : Except Failure α} (h : (act.watched see).perform x = (r, y)) :
    y.1 = see r x.1 ∧ act.perform x.2 = (r, y.2) := by
  rw [perform_watched, Prod.mk.injEq] at h
  obtain ⟨rfl, rfl⟩ := h
  exact ⟨rfl, rfl⟩

theorem watchedOn_of_perform {see : ω → Except Failure α → ω → υ → υ} {act : Act (ω × σ) α}
    {u v : ω} {x y : υ × σ} {r : Except Failure α}
    (h : (act.watchedOn see).perform (u, x) = (r, v, y)) :
    y.1 = see u r v x.1 ∧ act.perform (u, x.2) = (r, v, y.2) := by
  rw [perform_watchedOn, Prod.mk.injEq, Prod.mk.injEq] at h
  obtain ⟨rfl, rfl, rfl⟩ := h
  exact ⟨rfl, rfl⟩

/-- Surroundings with a value beside them, and without. -/
def Forgets (υ : Type) (x : υ × σ) (s : σ) : Prop := x.2 = s

variable {R : σ → τ → Prop}

theorem exact_unwatched (see : Except Failure α → υ → υ) (act : Act σ α) :
    Exact (Forgets υ) (act.watched see) act := by
  rintro ⟨u, s⟩ _ rfl
  exact matched_of_same _ rfl

theorem exact_unwatchedOn (see : ω → Except Failure α → ω → υ → υ) (act : Act (ω × σ) α) :
    Exact (Beside ω (Forgets υ)) (act.watchedOn see) act := by
  rintro ⟨x, u, s⟩ ⟨_, _⟩ ⟨rfl, rfl⟩
  exact matched_of_same _ ⟨rfl, rfl⟩

theorem exact_watched (see : Except Failure α → υ → υ) {a : Act σ α} {b : Act τ α}
    (h : Exact R a b) : Exact (Beside υ R) (a.watched see) (b.watched see) := by
  rintro ⟨u, s⟩ ⟨_, t⟩ ⟨rfl, hs⟩
  obtain ⟨hr, ht⟩ := (h s t hs).same
  simp only [perform_watched, hr]
  exact matched_of_same _ ⟨rfl, ht⟩

theorem exact_watchedOn (see : ω → Except Failure α → ω → υ → υ) {a : Act (ω × σ) α}
    {b : Act (ω × τ) α} (h : Exact (Beside ω R) a b) :
    Exact (Beside ω (Beside υ R)) (a.watchedOn see) (b.watchedOn see) := by
  rintro ⟨x, u, s⟩ ⟨_, _, t⟩ ⟨rfl, rfl, hs⟩
  obtain ⟨hr, hx, ht⟩ := (h (x, s) (x, t) ⟨rfl, hs⟩).same
  simp only [perform_watchedOn, hr, hx]
  exact matched_of_same _ ⟨rfl, rfl, ht⟩

end Act

/-- What an onlooker makes of each step. -/
structure Onlooker (υ ε β α : Type) where
  /-- A record was kept. -/
  recorded : Record → υ → υ
  /-- The operation was invoked. -/
  invoked : Except Failure α → υ → υ
  /-- The policy or the backoff was started. -/
  opened : υ → υ
  /-- The policy was asked about a failure. -/
  asked : Failure → Except Failure Bool → ε → υ → υ
  /-- The backoff was asked for a delay. -/
  drawn : Except Failure Delay → β → υ → υ
  /-- The listener was told. -/
  told : Notice ε α → Except Failure Unit → Notice ε α → υ → υ

namespace Setting

open Act

variable {σ τ υ ε β α : Type}

def watched (S : Setting σ ε β α) (o : Onlooker υ ε β α)
    (pause : String → Delay → Act (υ × σ) (Option Failure)) : Setting (υ × σ) ε β α where
  accept r x := S.accept r x.2
  emit r x := (o.recorded r x.1, S.emit r x.2)
  invoke := S.invoke.watched o.invoked
  openPolicy := S.openPolicy.watched fun _ => o.opened
  openBackoff := S.openBackoff.watched fun _ => o.opened
  shouldRetry f := (S.shouldRetry f).watchedOn fun _ => o.asked f
  nextDelay := S.nextDelay.watchedOn fun _ => o.drawn
  pause
  notify := S.notify.watchedOn o.told

variable (o : Onlooker υ ε β α)

/-- **Watching changes nothing.** -/
theorem alike_unwatched (S : Setting σ ε β α)
    (pause : String → Delay → Act (υ × σ) (Option Failure)) :
    Alike (Forgets υ) (S.watched o pause) S where
  accept := fun r _ _ h => congrArg (S.accept r) h
  emit := fun r _ _ h => congrArg (S.emit r) h
  invoke := exact_unwatched _ _
  openPolicy := exact_unwatched (fun _ => o.opened) _
  openBackoff := exact_unwatched (fun _ => o.opened) _
  shouldRetry := fun f => exact_unwatchedOn (fun _ => o.asked f) _
  nextDelay := exact_unwatchedOn (fun _ => o.drawn) _
  notify := exact_unwatchedOn _ _

theorem Alike.watched {R : σ → τ → Prop} {S : Setting σ ε β α} {T : Setting τ ε β α}
    (h : Alike R S T) (p : String → Delay → Act (υ × σ) (Option Failure))
    (q : String → Delay → Act (υ × τ) (Option Failure)) :
    Alike (Beside υ R) (S.watched o p) (T.watched o q) where
  accept := fun r _ _ hs => h.accept r _ _ hs.2
  emit := fun r _ _ hs => ⟨congrArg (o.recorded r) hs.1, h.emit r _ _ hs.2⟩
  invoke := exact_watched _ h.invoke
  openPolicy := exact_watched (fun _ => o.opened) h.openPolicy
  openBackoff := exact_watched (fun _ => o.opened) h.openBackoff
  shouldRetry := fun f => exact_watchedOn (fun _ => o.asked f) (h.shouldRetry f)
  nextDelay := exact_watchedOn (fun _ => o.drawn) h.nextDelay
  notify := exact_watchedOn _ h.notify

end Setting

end Retry
