import Retry.Cancellation
import Retry.Mode
import Retry.Proofs.Steps

/-!
# How a call waits

A blocking call sleeps, or waits with a token; a task sleeps until it is interrupted.
`Waiting` holds which of these a call does, and with it the mode of the call.

A wait with a token asks the token first, then waits with it, and if either says that it
is cancelled the wait is called off: that is recorded, and the token is cancelled once
more, for the caller (`ofToken_some`).

Two calls in different surroundings wait alike (`Waiting.Alike`) if their sleeps and their
tokens go the same way. Then so do their waits (`Alike.noting`, `Alike.pause`).
-/

namespace Retry

/-- How a call waits. -/
inductive Waiting (σ : Type) where
  | blocking (sleep : Delay → Act σ Unit) (token : Option (Token σ))
  | task (sleep : Delay → Act σ Unit)

namespace Waiting

variable {σ : Type}

def mode : Waiting σ → Mode
  | .blocking _ _ => .blocking
  | .task _ => .task

def pause (w : Waiting σ) (emit : Record → σ → σ) : String → Delay → Act σ (Option Failure) :=
  match w with
  | .blocking sleep token => Wait.ofToken emit sleep token
  | .task sleep => Wait.ofTask sleep

end Waiting

namespace Wait

open Act

variable {σ : Type} (emit : Record → σ → σ) (sleep : Delay → Act σ Unit) (token : Token σ)
  (name : String) (d : Delay)

/-- The note of a wait is no record of the loop: its logger is another one. -/
theorem logger_note {d : Delay} {r : Record} (h : note d = .ok r) : r.logger = logger := by
  obtain ⟨t, -, made⟩ := Except.of_bind_ok h
  obtain rfl := Except.ok.inj made
  rfl

/-- What follows on a token that turned out to be cancelled. -/
def calledOff : Act σ (Option Failure) := do
  let record ← result (note d)
  change (emit record)
  token.cancel
  return some (.waitCancelled (.text name))

/-- Waits with a token that was not found cancelled. -/
def attended : Act σ (Option Failure) := do
  let cancelled ← token.await d
  if cancelled then calledOff emit token name d else return none

theorem perform_calledOff {r : Record} (h : note d = .ok r) (s : σ) :
    (calledOff emit token name d).perform s =
      match token.cancel.perform (emit r s) with
      | (.ok (), t) => (.ok (some (.waitCancelled (.text name))), t)
      | (.error f, t) => (.error f, t) := by
  simp only [calledOff, h, perform_bind, perform_result, perform_change]
  rcases token.cancel.perform (emit r s) with ⟨_ | _, t⟩ <;> rfl

theorem calledOff_not_passed (s : σ) :
    ((calledOff emit token name d).perform s).1 ≠ .ok none := by
  rcases noted : note d with f | r
  · simp [calledOff, noted, perform_bind]
  · rw [perform_calledOff _ _ _ _ noted]
    rcases token.cancel.perform (emit r s) with ⟨_ | _, t⟩ <;> simp

theorem ofToken_none :
    ofToken emit sleep none name d = (do sleep d; return none) := by
  apply ext_perform
  intro s
  simp only [ofToken, blocking, perform_bind]
  rcases (sleep d).perform s with ⟨_ | _, t⟩ <;> rfl

theorem ofToken_some :
    ofToken emit sleep (some token) name d =
      (do
        let found ← token.isCancelled
        if found then calledOff emit token name d else attended emit token name d) := by
  apply ext_perform
  intro s
  simp only [ofToken, blocking, blockingCause, attended, calledOff, perform_bind]
  rcases token.isCancelled.perform s with ⟨_ | _ | _, t⟩
  · rfl
  · simp only [perform_bind, Bool.false_eq_true, if_false]
    rcases (token.await d).perform t with ⟨_ | _ | _, u⟩
    · rfl
    · rfl
    · rcases note d with _ | r
      · rfl
      · simp only [perform_bind, perform_result, perform_change, if_true, perform_pure]
        rcases token.cancel.perform (emit r u) with ⟨_ | _, v⟩ <;> rfl
  · rcases note d with _ | r
    · rfl
    · simp only [perform_bind, perform_result, perform_change, if_true, perform_pure]
      rcases token.cancel.perform (emit r t) with ⟨_ | _, v⟩ <;> rfl

end Wait

/-! ## Ways to wait that go alike -/

namespace Waiting

open Act

variable {σ τ : Type} {R : σ → τ → Prop}

/-- The sleeps and the tokens of two calls go the same way from related surroundings. With a
token, there is no sleep. -/
inductive Alike (R : σ → τ → Prop) : Waiting σ → Waiting τ → Prop where
  | slept {a : Delay → Act σ Unit} {b : Delay → Act τ Unit} (sleep : ∀ d, Exact R (a d) (b d)) :
    Alike R (.blocking a none) (.blocking b none)
  | attended {a : Delay → Act σ Unit} {b : Delay → Act τ Unit} {t : Token σ} {u : Token τ}
    (asked : Exact R t.isCancelled u.isCancelled) (cancelled : Exact R t.cancel u.cancel)
    (awaited : ∀ d, Exact R (t.await d) (u.await d)) :
    Alike R (.blocking a (some t)) (.blocking b (some u))
  | task {a : Delay → Act σ Unit} {b : Delay → Act τ Unit} (sleep : ∀ d, Exact R (a d) (b d)) :
    Alike R (.task a) (.task b)

theorem Alike.mode {w : Waiting σ} {v : Waiting τ} (h : Alike R w v) : w.mode = v.mode := by
  cases h <;> rfl

section

variable {emit : Record → σ → σ} {emit' : Record → τ → τ} {d : Delay}
  (hemit : ∀ r s t, Wait.note d = .ok r → R s t → R (emit r s) (emit' r t)) (name : String)

include hemit

theorem exact_calledOff {t : Token σ} {u : Token τ} (cancelled : Exact R t.cancel u.cancel) :
    Exact R (Wait.calledOff emit t name d) (Wait.calledOff emit' u name d) :=
  exact_result_bind fun r noted => exact_bind (exact_change fun s t => hemit r s t noted) fun _ =>
    exact_bind cancelled fun _ => exact_pure _

/-- **Waits go alike** if the sleeps and the tokens do. A wait makes no record but the note of its
own. -/
theorem Alike.noting {w : Waiting σ} {v : Waiting τ} (h : Alike R w v) :
    Exact R (w.pause emit name d) (v.pause emit' name d) := by
  cases h with
  | slept sleep =>
    simp only [Waiting.pause, Wait.ofToken_none]
    exact exact_bind (sleep d) fun _ => exact_pure _
  | @attended a b t u asked cancelled awaited =>
    have off := exact_calledOff hemit name cancelled
    simp only [Waiting.pause, Wait.ofToken_some]
    refine exact_bind asked fun found => ?_
    cases found with
    | true => exact off
    | false =>
      refine exact_bind (awaited d) fun stopped => ?_
      cases stopped with
      | true => exact off
      | false => exact exact_pure _
  | @task a b sleep =>
    intro s t hs
    have hd := sleep d s t hs
    simp only [Waiting.pause, Wait.ofTask, perform_of]
    revert hd
    generalize (a d).perform s = x
    generalize (b d).perform t = y
    intro hd
    cases hd with
    | ok hr => exact .ok hr
    | @failed f _ _ hr =>
      by_cases hf : f.isA "CancelledError" = true
      · simpa only [hf, if_true] using .ok hr
      · simpa only [hf, if_false] using .failed hr

end

theorem Alike.pause {w : Waiting σ} {v : Waiting τ} (h : Alike R w v) {emit : Record → σ → σ}
    {emit' : Record → τ → τ} (hemit : ∀ r s t, R s t → R (emit r s) (emit' r t)) (name : String)
    (d : Delay) : Exact R (w.pause emit name d) (v.pause emit' name d) :=
  h.noting (fun r s t _ => hemit r s t) name

end Waiting

end Retry
