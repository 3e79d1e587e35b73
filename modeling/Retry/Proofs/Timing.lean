import Retry.Proofs.Signal

/-!
# When the token is cancelled

The moments of a blocking call with a token are the entries of its journal: the schedule
says during which of them the token is cancelled from outside. `CancelledBefore` is what
that comes to, whatever the waits make of it.

A journal is timely if each of its waits found what was the case: it did not sleep if the
token was cancelled before, it was refused if the clock refuses its delay, and it was
cancelled if that happened meanwhile. As long as a call
is not aborted, its signal is what the schedule has made of it by then (`Timed`), which no
step but a wait can see.

Main statement: `timely_run`.
-/

namespace Retry

def Signal.after (schedule : Nat → Bool) (c : Bool) : Nat → Signal
  | 0 => ⟨0, c⟩
  | n + 1 => (after schedule c n).pass schedule

/-- The token is cancelled before a moment: from the beginning, or at an earlier one. -/
def CancelledBefore (schedule : Nat → Bool) (c : Bool) (n : Nat) : Prop :=
  c = true ∨ ∃ k < n, schedule k = true

/-- How the wait for a delay ends that began with the token uncancelled. -/
def Clock.found {σ : Type} (clock : Clock σ) (schedule : Nat → Bool) (d : Delay) (n : Nat) :
    Except Failure Bool :=
  match clock.token d with
  | some f => .error f
  | none => .ok (schedule n)

/-- A wait, if this is one, found what was the case at its moment. -/
def Moment.Timely {σ ε β α : Type} (clock : Clock σ) (schedule : Nat → Bool) (c : Bool) (n : Nat) :
    Moment ε β α → Prop
  | .barred => CancelledBefore schedule c n
  | .slept d r => ¬ CancelledBefore schedule c n ∧ r = clock.found schedule d n
  | _ => True

def Journal.Timely {σ ε β α : Type} (clock : Clock σ) (schedule : Nat → Bool) (c : Bool)
    (j : Journal ε β α) : Prop :=
  ∀ (i : Nat) (m : Moment ε β α), j[i]? = some m → m.Timely clock schedule c i

/-- The signal is what the schedule has made of it. -/
def Timed {σ ε β α : Type} (clock : Clock σ) (schedule : Nat → Bool) (c : Bool)
    (x : Journal ε β α × Signal × σ) : Prop :=
  x.2.1 = Signal.after schedule c x.1.length ∧ x.1.Timely clock schedule c

variable {σ ε β α : Type} {clock : Clock σ} {schedule : Nat → Bool} {c : Bool} {n : Nat}

theorem cancelledBefore_succ :
    CancelledBefore schedule c (n + 1) ↔ CancelledBefore schedule c n ∨ schedule n = true := by
  constructor
  · rintro (hc | ⟨k, hk, hs⟩)
    · exact .inl (.inl hc)
    obtain hk | rfl : k < n ∨ k = n := by omega
    · exact .inl (.inr ⟨k, hk, hs⟩)
    · exact .inr hs
  · rintro ((hc | ⟨k, hk, hs⟩) | hs)
    · exact .inl hc
    · exact .inr ⟨k, by omega, hs⟩
    · exact .inr ⟨n, by omega, hs⟩

@[simp] theorem Signal.after_moment : (Signal.after schedule c n).moment = n := by
  induction n with
  | zero => rfl
  | succ n ih => simp only [after, pass, ih]

theorem Signal.after_cancelled :
    (Signal.after schedule c n).cancelled = true ↔ CancelledBefore schedule c n := by
  induction n with
  | zero => simp [after, CancelledBefore]
  | succ n ih => simp only [after, pass, Bool.or_eq_true, ih, after_moment, cancelledBefore_succ]

namespace Journal.Timely

variable {j l : Journal ε β α}

theorem append (h : j.Timely clock schedule c)
    (hl : ∀ (i : Nat) (m : Moment ε β α), l[i]? = some m →
      m.Timely clock schedule c (j.length + i)) :
    (j ++ l).Timely clock schedule c := by
  intro i m hi
  obtain hlt | hge := Nat.lt_or_ge i j.length
  · rw [List.getElem?_append_left hlt] at hi
    exact h i m hi
  · rw [List.getElem?_append_right hge] at hi
    have hm := hl _ m hi
    rwa [Nat.add_sub_cancel' hge] at hm

theorem one {m : Moment ε β α} (h : j.Timely clock schedule c)
    (hm : m.Timely clock schedule c j.length) :
    (j ++ [m]).Timely clock schedule c := by
  refine h.append fun i m' hi => ?_
  obtain ⟨rfl, rfl⟩ : i = 0 ∧ m = m' := by simpa [List.getElem?_singleton] using hi
  exact hm

theorem records (h : j.Timely clock schedule c) (hl : ∀ m ∈ l, ∃ r, m = .recorded r) :
    (j ++ l).Timely clock schedule c := by
  refine h.append fun i m hi => ?_
  obtain ⟨r, rfl⟩ := hl m (List.mem_of_getElem? hi)
  exact trivial

end Journal.Timely

theorem Timed.one {x y : Journal ε β α × Signal × σ} {m : Moment ε β α}
    (h : Timed clock schedule c x) (hj : y.1 = x.1 ++ [m]) (hg : y.2.1 = x.2.1.pass schedule)
    (hm : m.Timely clock schedule c x.1.length) : Timed clock schedule c y := by
  refine ⟨?_, hj ▸ h.2.one hm⟩
  rw [hg, hj, List.length_append, List.length_singleton, h.1]
  rfl

/-- The setting that the loop works in, of a blocking call with a token that the schedule
cancels at any moment, and with a journal. -/
abbrev Setting.heeding (S : Setting σ ε β α) (schedule : Nat → Bool) (clock : Clock σ) :
    Setting (Journal ε β α × Signal × σ) ε β α :=
  (S.amid (Signal.pass schedule)).kept (Waiting.signalled schedule clock)

section

variable (S : Setting σ ε β α) (schedule : Nat → Bool) (clock : Clock σ) (c : Bool)
  (hrecords : S.RecordsAborts)

theorem heeds_amid : (S.amid (Signal.pass schedule)).Heeds := by
  intro r x h
  simp [Setting.amid, Setting.watched, Signal.clock, Signal.pass, h]

theorem alike_timed : Setting.Alike (Act.Steady (Timed clock schedule c)) (S.heeding schedule clock)
    (S.heeding schedule clock) where
  accept := fun r x _ h => by rw [h.1]
  emit := fun r x _ h => ⟨by rw [h.1], h.2.one rfl rfl trivial⟩
  invoke := Act.exact_steady fun _ h =>
    h.one (Setting.journaled_invoke (w := .signalled schedule clock) rfl).1 rfl trivial
  openPolicy := Act.exact_steady fun _ h => h
  openBackoff := Act.exact_steady fun _ h => h
  shouldRetry := fun f => Act.exact_beside_steady fun _ _ h =>
    h.one (Setting.journaled_shouldRetry (w := .signalled schedule clock) rfl).1 rfl trivial
  nextDelay := Act.exact_beside_steady fun _ _ h =>
    h.one (Setting.journaled_nextDelay (w := .signalled schedule clock) rfl).1 rfl trivial
  notify := Act.exact_beside_steady fun _ _ h =>
    h.one (Setting.journaled_notify (w := .signalled schedule clock) rfl).1 rfl trivial

include hrecords

/-- A wait finds what is the case. If it ends the call, that is the last wait. -/
theorem parting_timed (name : String) (fuel : Nat) :
    Setting.Parting (Act.Steady (Timed clock schedule c)) (Act.Steady (Timed clock schedule c))
      (fun _ u _ => u.1.Timely clock schedule c) (fun _ => False) some
      ((S.heeding schedule clock).run name fuel)
      ((S.heeding schedule clock).run name fuel) := by
  have alike := alike_timed S schedule clock c
  have records : (S.heeding schedule clock).RecordsAborts :=
    fun name attempt r x => hrecords name attempt r x.2.2
  refine Setting.parting_run (fun _ _ => id) alike (Setting.stays_nowhere name)
    (fun p d x y hxy => ?_) fuel
  rcases word : (Phase.waiting p.last d).record name p.state.attempt with f | r
  · rw [Setting.perform_await_unworded _ _ word, Setting.perform_await_unworded _ _ word]
    exact .inl (.failed hxy)
  obtain ⟨rfl, hx⟩ := hxy
  rcases kept : (S.heeding schedule clock).accept r x with f | _
  · rw [Setting.perform_await_unkept _ _ ⟨r, word, kept⟩]
    exact .inl (.failed ⟨rfl, hx⟩)
  obtain ⟨b, hb⟩ := Wait.note_of_waiting word
  obtain ⟨-, hg, hj⟩ := alike.emit r x x ⟨rfl, hx⟩
  generalize hz : (S.heeding schedule clock).emit r x = z at hg hj
  have pause := perform_signalled (S.amid (Signal.pass schedule)) schedule clock name hb z
  have off {m : Moment ε β α} (hm : m.Timely clock schedule c z.1.length) (g : Signal × σ) :
      ((S.heeding schedule clock).said name p.state.attempt .waitCancelled
        (Signal.off (S.amid (Signal.pass schedule)) b (z.1 ++ [m], g))).1.Timely clock
          schedule c := by
    rw [Setting.journaled_said]
    exact ((hj.one hm).records (l := [.recorded b]) (by simp)).records
      (Phase.moments_recorded _ _ _)
  cases hc : z.2.1.cancelled with
  | true =>
    rw [hc, if_pos rfl] at pause
    rw [hg, Signal.after_cancelled] at hc
    rw [Setting.perform_await_cancelled _ _ word kept (by rw [hz, pause])
      (records.perform_say name _ _)]
    exact .inr (.inl ⟨_, _, rfl, off (m := .barred) hc z.2⟩)
  | false =>
    rw [hc, if_neg (by simp), hg, Signal.after_moment] at pause
    have before : ¬ CancelledBefore schedule c z.1.length := by
      rw [← Signal.after_cancelled, ← hg, hc]
      simp
    cases ht : clock.token d with
    | some f =>
      rw [ht] at pause
      rw [Setting.perform_await_unpaused _ _ word kept (by rw [hz, pause])]
      have found : (Moment.slept d (.error f) : Moment ε β α).Timely clock schedule c
          z.1.length := ⟨before, by rw [Clock.found, ht]⟩
      exact .inl (.failed ⟨rfl, Timed.one (x := z) ⟨hg, hj⟩ rfl (by rw [hg]) found⟩)
    | none =>
      have found : (Moment.slept d (.ok (schedule z.1.length)) : Moment ε β α).Timely clock
          schedule c z.1.length := ⟨before, by rw [Clock.found, ht]⟩
      rw [ht] at pause
      dsimp only at pause
      cases hs : schedule z.1.length with
      | true =>
        rw [hs, if_pos rfl] at pause
        rw [Setting.perform_await_cancelled _ _ word kept (by rw [hz, pause])
          (records.perform_say name _ _)]
        exact .inr (.inl ⟨_, _, rfl, off (m := .slept d (.ok true)) (hs ▸ found) _⟩)
      | false =>
        rw [hs, if_neg (by simp)] at pause
        rw [Setting.perform_await_passed _ _ word kept (by rw [hz, pause])]
        exact .inl (.ok ⟨rfl, Timed.one (x := z) ⟨hg, hj⟩ rfl (by rw [hg]) (hs ▸ found)⟩)

/-- **Waits find what is the case**, in every call. As long as the call is not aborted, the
schedule alone cancels the token. -/
theorem timely_run (name : String) (fuel : Nat) (s : σ) :
    let x := ((S.heeding schedule clock).run name fuel).perform ([], ⟨0, c⟩, s)
    x.2.1.Timely clock schedule c ∧ ((∀ e, x.1 ≠ .ok (some (.aborted e))) →
      x.2.2.1 = Signal.after schedule c x.2.1.length) := by
  intro x
  obtain hm | ⟨f, u, _, hf, hu, -⟩ | hB := parting_timed S schedule clock c hrecords name fuel
    ([], ⟨0, c⟩, s) ([], ⟨0, c⟩, s) ⟨rfl, rfl, by simp [Journal.Timely]⟩
  · obtain ⟨-, -, hg, hj⟩ := hm.matched.same
    exact ⟨hj, fun _ => hg⟩
  · rw [show x = _ from hf]
    exact ⟨hu, fun hno => absurd rfl (hno f)⟩
  · exact hB.elim

end

end Retry
