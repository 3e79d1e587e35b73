import Retry.Proofs.Events

/-!
# A value that only the listener changes

`Setting.listening` puts a value beside the surroundings of a setting. The listener sees it and
changes it; everybody else, the waits included (`Waiting.beside`), leaves it alone.

Main statements: `listening_call` (what every event keeps of the journal and the value holds of
a whole call), `listening_forgets` (if the listener does the same without the value, so does the
call).
-/

namespace Retry

open Act

section

variable {σ υ : Type}

/-- A token with a value beside its surroundings. -/
def Token.beside (υ : Type) (t : Token σ) : Token (υ × σ) where
  isCancelled := t.isCancelled.watched fun _ => id
  cancel := t.cancel.watched fun _ => id
  await d := (t.await d).watched fun _ => id

/-- Waits with a value beside the surroundings. -/
def Waiting.beside (υ : Type) : Waiting σ → Waiting (υ × σ)
  | .blocking sleep token =>
    .blocking (fun d => (sleep d).watched fun _ => id) (token.map (Token.beside υ))
  | .task sleep => .task fun d => (sleep d).watched fun _ => id

@[simp] theorem Waiting.mode_beside (w : Waiting σ) : (w.beside υ).mode = w.mode := by
  cases w <;> rfl

theorem Waiting.forgets_beside (w : Waiting σ) :
    Waiting.Alike (Forgets υ) (w.beside υ) w := by
  cases w with
  | task sleep => exact .task fun d => exact_unwatched _ (sleep d)
  | blocking sleep token =>
    cases token with
    | none => exact .slept fun d => exact_unwatched _ (sleep d)
    | some token =>
      exact .attended (exact_unwatched (fun _ => id) token.isCancelled)
        (exact_unwatched (fun _ => id) token.cancel)
        fun d => exact_unwatched (fun _ => id) (token.await d)

end

section

variable {σ υ ε β α : Type}

/-- The same collaborators with a value beside their surroundings, which only the listener sees
and changes. -/
def Setting.listening (S : Setting σ ε β α) (notify : Act (Notice ε α × υ × σ) Unit) :
    Setting (υ × σ) ε β α where
  accept r x := S.accept r x.2
  emit r x := (x.1, S.emit r x.2)
  invoke := S.invoke.watched fun _ => id
  openPolicy := S.openPolicy.watched fun _ => id
  openBackoff := S.openBackoff.watched fun _ => id
  shouldRetry f := (S.shouldRetry f).watchedOn fun _ _ _ => id
  nextDelay := S.nextDelay.watchedOn fun _ _ _ => id
  pause name d := (S.pause name d).watched fun _ => id
  notify

/-- What holds of a journal and a value, whatever is in the surroundings. -/
def Heeded (I : Journal ε β α → υ → Prop) (x : Journal ε β α × υ × σ) : Prop := I x.1 x.2.1

variable {I : Journal ε β α → υ → Prop}
  (untold : ∀ j u m, Moment.event? m = none → I j u → I (j ++ [m]) u)

include untold

theorem Waiting.heeded_beside (w : Waiting σ) :
    Waiting.Alike (Steady (Heeded (σ := σ) I)) ((w.beside υ).kept ε β α)
      ((w.beside υ).kept ε β α) := by
  cases w with
  | task sleep => exact .task fun d => exact_steady fun _ h => untold _ _ _ rfl h
  | blocking sleep token =>
    cases token with
    | none => exact .slept fun d => exact_steady fun _ h => untold _ _ _ rfl h
    | some token =>
      refine .attended (exact_steady fun x h => ?_) (exact_steady fun _ h => h)
        fun d => exact_steady fun _ h => untold _ _ _ rfl h
      show I (x.1 ++ Journal.found (token.isCancelled.perform x.2.2).1) x.2.1
      rcases (token.isCancelled.perform x.2.2).1 with f | _ | _
      · simpa [Journal.found, Heeded] using h
      · simpa [Journal.found, Heeded] using h
      · exact untold _ _ _ rfl h

variable {notify : Act (Notice ε α × υ × σ) Unit}
  (told : ∀ j u n s, I j u →
    I (j ++ [.told n (notify.perform (n, u, s)).1 (notify.perform (n, u, s)).2.1])
      (notify.perform (n, u, s)).2.2.1)

include told

theorem Setting.heeded_listening (S : Setting σ ε β α) (w : Waiting σ) :
    Setting.Alike (Steady (Heeded I)) ((S.listening notify).kept (w.beside υ))
      ((S.listening notify).kept (w.beside υ)) where
  accept := fun r x _ h => by rw [h.1]
  emit := fun r x _ h => ⟨by rw [h.1], untold _ _ _ rfl h.2⟩
  invoke := exact_steady fun _ h => untold _ _ _ rfl h
  openPolicy := exact_steady fun _ h => h
  openBackoff := exact_steady fun _ h => h
  shouldRetry := fun _ => exact_beside_steady fun _ _ h => untold _ _ _ rfl h
  nextDelay := exact_beside_steady fun _ _ h => untold _ _ _ rfl h
  notify := exact_beside_steady fun n x h => told x.1 x.2.1 n x.2.2 h

/-- **What every event keeps holds of a whole call.** -/
theorem listening_call (S : Setting σ ε β α) (w : Waiting σ) (operation : Operation) (fuel : Nat)
    {u : υ} (s : σ) (start : I [] u) :
    let z := (w.mode.call ((S.listening notify).kept (w.beside υ)) operation fuel).perform
      ([], u, s)
    I z.2.1 z.2.2.1 := by
  have pause := exact_kept (S := S.listening notify) (T := S.listening notify)
    (Waiting.heeded_beside (β := β) untold w) fun r _ _ h => ⟨by rw [h.1], untold _ _ _ rfl h.2⟩
  have steady := w.mode.exact_call (Setting.heeded_listening untold told S w) pause operation fuel
  exact (steady ([], u, s) ([], u, s) ⟨rfl, start⟩).same.2.2

end

section

variable {σ υ ε β α : Type} {S : Setting σ ε β α} {notify : Act (Notice ε α × υ × σ) Unit}
  (h : Exact (Beside (Notice ε α) (Forgets υ)) notify S.notify)

include h

theorem Setting.alike_listening : Alike (Forgets υ) (S.listening notify) S where
  accept := fun r _ _ hs => congrArg (S.accept r) hs
  emit := fun r _ _ hs => congrArg (S.emit r) hs
  invoke := exact_unwatched (fun _ => id) S.invoke
  openPolicy := exact_unwatched (fun _ => id) S.openPolicy
  openBackoff := exact_unwatched (fun _ => id) S.openBackoff
  shouldRetry := fun f => exact_unwatchedOn (fun _ _ _ => id) (S.shouldRetry f)
  nextDelay := exact_unwatchedOn (fun _ _ _ => id) S.nextDelay
  notify := h

/-- **The value changes nothing** of a call, and nothing of its journal. -/
theorem listening_forgets (w : Waiting σ) (operation : Operation) (fuel : Nat) (u : υ) (s : σ) :
    let z := (w.mode.call ((S.listening notify).kept (w.beside υ)) operation fuel).perform
      ([], u, s)
    let x := (w.mode.call (S.kept w) operation fuel).perform ([], s)
    z.1 = x.1 ∧ z.2.1 = x.2.1 ∧ z.2.2.2 = x.2.2 := by
  have alike : Setting.Alike (Beside (Journal ε β α) (Forgets υ))
      ((S.listening notify).kept (w.beside υ)) (S.kept w) :=
    (Setting.alike_listening h).watched _ _ _
  have pause := exact_kept (S := S.listening notify) (T := S) (w.forgets_beside (υ := υ)).kept
    fun r _ _ hs => ⟨by rw [hs.1], congrArg (S.emit r) hs.2⟩
  have same := w.mode.exact_call alike pause operation fuel
  obtain ⟨ends, journal, left⟩ := (same ([], u, s) ([], s) ⟨rfl, rfl⟩).same
  exact ⟨ends, journal, left⟩

end

end Retry
