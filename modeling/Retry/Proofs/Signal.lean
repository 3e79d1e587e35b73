import Retry.Proofs.Entries

/-!
# Cancellation from outside

A token is cancelled by others, at any moment of a call. `Signal` is what a token is in:
whether it is cancelled, and how many moments have passed. A schedule says at which
moments it is cancelled from outside; nothing ever makes it uncancelled.

The signal stands beside the surroundings of a setting (`Setting.amid`), and the
collaborators of the setting do not see it. Only the waits do: `Waiting.signalled` waits
with a token that reads the signal, `Waiting.disturbed` is a task's sleep that the
schedule interrupts. A wait may refuse a delay, and it may leave other surroundings when it
is woken early (`Clock`).

Main statements: `perform_signalled`, `perform_disturbed` (what a wait does, by what the
signal says), `call_plain` (a call with a token that is not aborted is the same call
without the token).
-/

namespace Retry

/-- The state of a token, and how many moments have passed. -/
structure Signal where
  moment : Nat
  cancelled : Bool

namespace Signal

/-- A moment passes, at which the token may be cancelled from outside. -/
def pass (schedule : Nat → Bool) (g : Signal) : Signal :=
  { moment := g.moment + 1, cancelled := g.cancelled || schedule g.moment }

/-- The token is cancelled by the call itself. -/
def cancel (g : Signal) : Signal := { g with cancelled := true }

/-- A clock that ticks with every step that a journal has. -/
def clock (ε β α : Type) (tick : Signal → Signal) : Onlooker Signal ε β α where
  recorded _ := tick
  invoked _ := tick
  opened := id
  asked _ _ _ := tick
  drawn _ _ := tick
  told _ _ _ := tick

variable {σ : Type} (schedule : Nat → Bool) (clock : Clock σ)

/-- The token that reads the signal. A wait for it takes a moment, also if it is refused. -/
def token : Token (Signal × σ) where
  isCancelled := .look (·.1.cancelled)
  cancel := .change fun x => (x.1.cancel, x.2)
  await d := .of fun x =>
    if x.1.cancelled then (.ok true, x)
    else match clock.token d with
      | some f => (.error f, x.1.pass schedule, x.2)
      | none =>
        if schedule x.1.moment then (.ok true, x.1.pass schedule, clock.wake d x.2)
        else (.ok false, x.1.pass schedule, clock.rest d x.2)

end Signal

namespace Waiting

variable {σ : Type} (schedule : Nat → Bool) (clock : Clock σ)

def slumber (d : Delay) : Act σ Unit :=
  .of fun s => match clock.sleep d with
    | some f => (.error f, s)
    | none => (.ok (), clock.rest d s)

def plain : Waiting σ := .blocking (slumber clock) none

/-- A blocking call with a token that is cancelled by a schedule. It never just sleeps. -/
def signalled : Waiting (Signal × σ) :=
  .blocking (fun d => .zoom (·.2) (fun s x => (x.1.pass schedule, s)) (slumber clock d))
    (some (Signal.token schedule clock))

/-- A task that a schedule interrupts in its sleeps. -/
def disturbed (interruption : Failure) : Waiting (Signal × σ) :=
  .task fun d => .of fun x => match clock.task d with
    | some f => (.error f, x.1.pass schedule, x.2)
    | none =>
      if schedule x.1.moment then (.error interruption, x.1.pass schedule, clock.wake d x.2)
      else (.ok (), x.1.pass schedule, clock.rest d x.2)

end Waiting

/-- A setting with a signal beside its surroundings, which ticks with its steps. -/
def Setting.amid {σ ε β α : Type} (S : Setting σ ε β α) (tick : Signal → Signal) :
    Setting (Signal × σ) ε β α :=
  S.watched (Signal.clock ε β α tick) fun name d => (S.pause name d).watched fun _ => id

/-! ## Waits by the signal -/

/-- A delay that the phase before the wait can show is one that a cancelled wait can note. -/
theorem Wait.note_of_waiting {f : Failure} {d : Delay} {name : String} {attempt : Attempt}
    {r : Record} (h : (Phase.waiting f d).record name attempt = .ok r) :
    ∃ r', Wait.note d = .ok r' := by
  obtain ⟨message, said, -⟩ := Except.of_bind_ok h
  obtain ⟨reason, -, said⟩ := Except.of_bind_ok said
  obtain ⟨seconds, shown, -⟩ := Except.of_bind_ok said
  exact ⟨_, by simp only [note, shown]; rfl⟩

section

open Act

variable {σ ε β α : Type} (T : Setting (Signal × σ) ε β α) (schedule : Nat → Bool)
  (clock : Clock σ) (name : String) {d : Delay} {r : Record}

def Signal.off (r : Record) (x : Journal ε β α × Signal × σ) : Journal ε β α × Signal × σ :=
  let y := T.emit r x.2
  (x.1 ++ [.recorded r], y.1.cancel, y.2)

theorem perform_off (h : Wait.note d = .ok r) (x : Journal ε β α × Signal × σ) :
    (Wait.calledOff (fun r x => (x.1 ++ [.recorded r], T.emit r x.2))
      ((Signal.token schedule clock).kept ε β α) name d).perform x =
      (.ok (some (.waitCancelled (.text name))), Signal.off T r x) := by
  rw [Wait.perform_calledOff _ _ _ _ h]
  rfl

theorem perform_signalled (h : Wait.note d = .ok r) (x : Journal ε β α × Signal × σ) :
    ((T.kept (Waiting.signalled schedule clock)).pause name d).perform x =
      if x.2.1.cancelled then
        (.ok (some (.waitCancelled (.text name))), Signal.off T r (x.1 ++ [.barred], x.2))
      else match clock.token d with
        | some f => (.error f, x.1 ++ [.slept d (.error f)], x.2.1.pass schedule, x.2.2)
        | none =>
          if schedule x.2.1.moment then
            (.ok (some (.waitCancelled (.text name))), Signal.off T r
              (x.1 ++ [.slept d (.ok true)], x.2.1.pass schedule, clock.wake d x.2.2))
          else (.ok none, x.1 ++ [.slept d (.ok false)], x.2.1.pass schedule,
            clock.rest d x.2.2) := by
  have asked : ((Signal.token schedule clock).kept ε β α).isCancelled.perform x =
      (.ok x.2.1.cancelled, x.1 ++ Journal.found (.ok x.2.1.cancelled), x.2) := rfl
  have pause : (T.kept (Waiting.signalled schedule clock)).pause name d =
      Wait.ofToken (fun r x => (x.1 ++ [.recorded r], T.emit r x.2)) _
        (some ((Signal.token schedule clock).kept ε β α)) name d := rfl
  rw [pause, Wait.ofToken_some, perform_bind_ok asked]
  cases hg : x.2.1.cancelled with
  | true =>
    simp only [if_true, perform_off T schedule clock name h]
    rfl
  | false =>
    simp only [Bool.false_eq_true, if_false, Wait.attended, Journal.found, List.append_nil]
    cases ht : clock.token d with
    | some f =>
      have refused : (((Signal.token schedule clock).kept ε β α).await d).perform x =
          (.error f, x.1 ++ [.slept d (.error f)], x.2.1.pass schedule, x.2.2) := by
        simp only [Token.kept, Signal.token, perform_watched, perform_of, hg, ht,
          Bool.false_eq_true, if_false]
      exact perform_bind_error refused _
    | none =>
      have slept : (((Signal.token schedule clock).kept ε β α).await d).perform x =
          (.ok (schedule x.2.1.moment), x.1 ++ [.slept d (.ok (schedule x.2.1.moment))],
            x.2.1.pass schedule,
            if schedule x.2.1.moment then clock.wake d x.2.2 else clock.rest d x.2.2) := by
        simp only [Token.kept, Signal.token, perform_watched, perform_of, hg, ht,
          Bool.false_eq_true, if_false]
        cases schedule x.2.1.moment <;> rfl
      rw [perform_bind_ok slept]
      cases schedule x.2.1.moment with
      | true => simp only [if_true, perform_off T schedule clock name h]
      | false => simp only [Bool.false_eq_true, if_false, perform_pure]

theorem perform_disturbed {interruption : Failure} (h : interruption.isA "CancelledError" = true)
    (x : Journal ε β α × Signal × σ) :
    ((T.kept (Waiting.disturbed schedule clock interruption)).pause name d).perform x =
      match clock.task d with
      | some f => (.error f, x.1 ++ [.slept d (.error f)], x.2.1.pass schedule, x.2.2)
      | none =>
        if schedule x.2.1.moment then
          (.ok (some interruption), x.1 ++ [.slept d (.ok true)], x.2.1.pass schedule,
            clock.wake d x.2.2)
        else (.ok none, x.1 ++ [.slept d (.ok false)], x.2.1.pass schedule,
          clock.rest d x.2.2) := by
  have pause : (T.kept (Waiting.disturbed schedule clock interruption)).pause name d =
      ((Waiting.disturbed schedule clock interruption).kept ε β α).pause
        (fun r x => (x.1 ++ [.recorded r], T.emit r x.2)) name d := rfl
  rw [pause]
  simp only [Waiting.pause, Waiting.kept, Waiting.disturbed, Wait.ofTask, perform_of,
    perform_watched]
  cases ht : clock.task d with
  | some f =>
    have calm := clock.uncancelled d f (.inr (.inr ht))
    simp only [calm, Bool.false_eq_true, if_false, Waiting.interrupted]
  | none =>
    cases schedule x.2.1.moment with
    | true => simp only [if_true, h, Waiting.interrupted]
    | false => simp only [Bool.false_eq_true, if_false, Waiting.interrupted]

theorem perform_plain (S : Setting σ ε β α) (x : Journal ε β α × σ) :
    ((S.kept (Waiting.plain clock)).pause name d).perform x =
      match clock.sleep d with
      | some f => (.error f, x.1 ++ [.slept d (.error f)], x.2)
      | none => (.ok none, x.1 ++ [.slept d (.ok false)], clock.rest d x.2) := by
  have pause : (S.kept (Waiting.plain clock)).pause name d =
      Wait.ofToken (fun r x => (x.1 ++ [.recorded r], S.emit r x.2))
        (fun d => (Waiting.slumber clock d).watched fun r j =>
          j ++ [.slept d (r.map fun _ => false)]) none name d := rfl
  rw [pause, Wait.ofToken_none, perform_bind, perform_watched]
  simp only [Waiting.slumber, perform_of]
  cases clock.sleep d with
  | some f => rfl
  | none => rfl

end

/-! ## Delays that were slept -/

/-- Some delay was slept, or refused, that is odd. -/
def Journal.SleptAny {ε β α : Type} (odd : Delay → Prop) (j : Journal ε β α) : Prop :=
  ∃ d ∈ Journal.slept j, odd d

theorem Journal.SleptAny.grow {ε β α : Type} {odd : Delay → Prop} {j k l : Journal ε β α}
    (h : j.SleptAny odd) (hk : k = j ++ l) : k.SleptAny odd := by
  obtain ⟨d, hd, hodd⟩ := h
  subst hk
  exact ⟨d, by simp [hd], hodd⟩

theorem Setting.stays_sleptAny {σ ε β α : Type} (S : Setting σ ε β α) (w : Waiting σ)
    (odd : Delay → Prop) (name : String) :
    (S.kept w).Stays name fun x => x.1.SleptAny odd := by
  have steady : Setting.Alike (Act.Steady fun x => x.1.SleptAny odd) (S.kept w) (S.kept w) :=
    { accept := fun r x _ h => by rw [h.1]
      emit := fun r x _ h => ⟨by rw [h.1], h.2.grow rfl⟩
      invoke := Act.exact_steady fun _ h => h.grow (Setting.journaled_invoke (w := w) rfl).1
      openPolicy := Act.exact_steady fun _ h => h
      openBackoff := Act.exact_steady fun _ h => h
      shouldRetry := fun _ => Act.exact_beside_steady fun _ _ h =>
        h.grow (Setting.journaled_shouldRetry (w := w) rfl).1
      nextDelay := Act.exact_beside_steady fun _ _ h =>
        h.grow (Setting.journaled_nextDelay (w := w) rfl).1
      notify := Act.exact_beside_steady fun _ _ h =>
        h.grow (Setting.journaled_notify (w := w) rfl).1 }
  refine Setting.stays_of_steady steady name fun d => Act.exact_steady fun x h => ?_
  have paused : ((S.kept w).pause name d).perform x =
    ((((S.kept w).pause name d).perform x).1, (((S.kept w).pause name d).perform x).2) := rfl
  obtain ⟨l, hl, -⟩ := Setting.journaled_paused paused
  exact h.grow hl

/-! ## Without the token -/

/-- Nothing that happens makes a token uncancelled. -/
def Setting.Heeds {σ ε β α : Type} (T : Setting (Signal × σ) ε β α) : Prop :=
  ∀ r x, x.1.cancelled = true → (T.emit r x).1.cancelled = true

section

open Act

variable {σ ε β α : Type} {T : Setting (Signal × σ) ε β α} {S : Setting σ ε β α}
  (h : Setting.Alike (Forgets Signal) T S) (hT : T.Heeds) (hrecords : T.RecordsAborts)
  (schedule : Nat → Bool)
  (clock : Clock σ) (name : String)

theorem Setting.Heeds.said (hT : T.Heeds) (attempt : Attempt) (phase : Phase) (x : Signal × σ)
    (h : x.1.cancelled = true) : (T.said name attempt phase x).1.cancelled = true := by
  unfold Setting.said
  cases phase.record name attempt with
  | ok r => exact hT r x h
  | error f => exact h

theorem alike_plain (h : Setting.Alike (Forgets Signal) T S) :
    Setting.Alike (Beside (Journal ε β α) (Forgets Signal))
      (T.kept (Waiting.signalled schedule clock)) (S.kept (Waiting.plain clock)) :=
  h.watched (Journal.keeper ε β α) _ _

include h hT hrecords

/-- **A token changes nothing of a call until a wait ends the call**, or sleeps for a delay that
a sleep without a token does not take alike. -/
theorem parting_plain (fuel : Nat) :
    Setting.Parting (Beside (Journal ε β α) (Forgets Signal))
      (Beside (Journal ε β α) (Forgets Signal)) (fun _ u _ => u.2.1.cancelled = true)
      (fun x => x.1.SleptAny fun d => clock.sleep d ≠ clock.token d) some
      ((T.kept (Waiting.signalled schedule clock)).run name fuel)
      ((S.kept (Waiting.plain clock)).run name fuel) := by
  have alike := alike_plain schedule clock h
  have records : (T.kept (Waiting.signalled schedule clock)).RecordsAborts :=
    fun name attempt r x => hrecords name attempt r x.2
  refine Setting.parting_run (fun _ _ => id) alike (T.stays_sleptAny _ _ name)
    (fun p d x y hxy => ?_) fuel
  rcases word : (Phase.waiting p.last d).record name p.state.attempt with f | r
  · rw [Setting.perform_await_unworded _ _ word, Setting.perform_await_unworded _ _ word]
    exact .inl (.failed hxy)
  rcases kept : (T.kept (Waiting.signalled schedule clock)).accept r x with f | _
  · rw [Setting.perform_await_unkept _ _ ⟨r, word, kept⟩,
      Setting.perform_await_unkept _ _ ⟨r, word, (alike.accept r x y hxy).symm.trans kept⟩]
    exact .inl (.failed hxy)
  have plainKept := (alike.accept r x y hxy).symm.trans kept
  obtain ⟨c, hc⟩ := Wait.note_of_waiting word
  have hr : Beside (Journal ε β α) (Forgets Signal)
      ((T.kept (Waiting.signalled schedule clock)).emit r x)
      ((S.kept (Waiting.plain clock)).emit r y) := alike.emit r x y hxy
  have pause := perform_signalled T schedule clock name hc
    ((T.kept (Waiting.signalled schedule clock)).emit r x)
  have plain := perform_plain clock name S ((S.kept (Waiting.plain clock)).emit r y) (d := d)
  have off (z : Journal ε β α × Signal × σ) :
      ((T.kept (Waiting.signalled schedule clock)).said name p.state.attempt
        .waitCancelled (Signal.off T c z)).2.1.cancelled = true := by
    rw [Setting.journaled_said]
    exact hT.said name _ _ _ rfl
  have odd {e : Except Failure Bool} (hodd : clock.sleep d ≠ clock.token d)
      (j : Journal ε β α) : Journal.SleptAny (fun d => clock.sleep d ≠ clock.token d)
        (j ++ [.slept d e]) := ⟨d, by simp [Moment.slept?], hodd⟩
  cases hg : ((T.kept (Waiting.signalled schedule clock)).emit r x).2.1.cancelled with
  | true =>
    rw [hg, if_pos rfl] at pause
    exact .inr (.inl ⟨_, _, Setting.perform_await_cancelled _ _ word kept pause
      (records.perform_say name _ _), off _⟩)
  | false =>
    rw [hg, if_neg (by simp)] at pause
    cases ht : clock.token d with
    | some f =>
      rw [ht] at pause odd
      rw [Setting.perform_await_unpaused _ _ word kept pause]
      by_cases same : clock.sleep d = some f
      · rw [same] at plain
        rw [Setting.perform_await_unpaused _ _ word plainKept plain]
        exact .inl (.failed ⟨congrArg (· ++ [.slept d (.error f)]) hr.1, hr.2⟩)
      · exact .inr (.inr (odd same _))
    | none =>
      rw [ht] at pause odd
      dsimp only at pause
      cases hs : schedule
        ((T.kept (Waiting.signalled schedule clock)).emit r x).2.1.moment with
      | true =>
        rw [hs, if_pos rfl] at pause
        exact .inr (.inl ⟨_, _, Setting.perform_await_cancelled _ _ word kept pause
          (records.perform_say name _ _), off _⟩)
      | false =>
        rw [hs, if_neg (by simp)] at pause
        rw [Setting.perform_await_passed _ _ word kept pause]
        by_cases same : clock.sleep d = none
        · rw [same] at plain
          rw [Setting.perform_await_passed _ _ word plainKept plain]
          refine .inl (.ok ⟨?_, ?_⟩)
          · exact congrArg (· ++ [.slept d (.ok false)]) hr.1
          · exact congrArg (clock.rest d) hr.2
        · exact .inr (.inr (odd same _))

theorem run_plain (operation : Operation) (fuel : Nat) (c : Bool) (s : σ)
    (hno : ∀ e y, (Mode.blocking.run (T.kept (Waiting.signalled schedule clock))
      operation fuel).perform ([], ⟨0, c⟩, s) = (.ok (some (.aborted e)), y) →
        y.2.1.cancelled = false)
    (htaken : ∀ d ∈ Journal.slept ((Mode.blocking.run (T.kept (Waiting.signalled schedule clock))
      operation fuel).perform ([], ⟨0, c⟩, s)).2.1, clock.sleep d = clock.token d) :
    (Mode.blocking.run (S.kept (Waiting.plain clock)) operation fuel).perform ([], s) =
      let x := (Mode.blocking.run (T.kept (Waiting.signalled schedule clock))
        operation fuel).perform ([], ⟨0, c⟩, s)
      (x.1, x.2.1, x.2.2.2) := by
  rcases hname : operation.displayName with f | name
  · rw [Mode.perform_run_unnamed _ _ hname, Mode.perform_run_unnamed _ _ hname]
  rw [Mode.perform_run_blocking _ hname] at hno htaken
  rw [Mode.perform_run_blocking _ hname, Mode.perform_run_blocking _ hname]
  obtain hm | ⟨f, u, _, hf, hg, -⟩ | ⟨d, hd, odd⟩ :=
    parting_plain h hT hrecords schedule clock name fuel
    ([], ⟨0, c⟩, s) ([], s) ⟨rfl, rfl⟩
  · obtain ⟨hr, hj, hs⟩ := hm.same fun _ _ => id
    exact Prod.ext hr.symm (Prod.ext hj.symm hs.symm)
  · exact absurd hg (by simp [hno f u hf])
  · exact absurd (htaken d hd) odd

/-- **A call with a token that is not aborted is the same call without the token**, if a sleep
takes the delays as the token does. -/
theorem call_plain (operation : Operation) (fuel : Nat) (c : Bool) (s : σ)
    (hno : ∀ e y, (Mode.blocking.run (T.kept (Waiting.signalled schedule clock))
      operation fuel).perform ([], ⟨0, c⟩, s) = (.ok (some (.aborted e)), y) →
        y.2.1.cancelled = false)
    (htaken : ∀ d ∈ Journal.slept ((Mode.blocking.run (T.kept (Waiting.signalled schedule clock))
      operation fuel).perform ([], ⟨0, c⟩, s)).2.1, clock.sleep d = clock.token d) :
    (Mode.blocking.call (S.kept (Waiting.plain clock)) operation fuel).perform ([], s) =
      let x := (Mode.blocking.call (T.kept (Waiting.signalled schedule clock))
        operation fuel).perform ([], ⟨0, c⟩, s)
      (x.1, x.2.1, x.2.2.2) := by
  rw [Mode.perform_call, run_plain h hT hrecords schedule clock operation fuel c s hno htaken,
    Mode.perform_call]
  rcases (Mode.blocking.run (T.kept (Waiting.signalled schedule clock))
    operation fuel).perform ([], ⟨0, c⟩, s) with ⟨_ | _ | _, j, g, t⟩ <;> rfl

end

/-- A call whose operation always fails, with a policy and a listener that always do the
same. -/
def failing (answer : Bool) (told : Except Failure Unit) : Setting Nat Nat Nat Nat where
  accept _ _ := .ok ()
  emit _ n := n
  invoke := .of fun n => (.error (.of .valueError "boom"), n + 1)
  openPolicy := .result (.ok 0)
  openBackoff := .result (.ok 0)
  shouldRetry _ := .result (.ok answer)
  nextDelay := .result (.ok (some (.whole 0)))
  pause _ _ := .result (.ok none)
  notify := .result told

end Retry
