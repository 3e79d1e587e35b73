import Retry.Proofs.Signal

/-!
# Blocking calls and tasks agree

The same collaborators in both modes make the same call: the same steps in the same order,
up to the first wait that is cancelled. There a blocking call notes that its wait was
cancelled, which a task does not, and each names its own cause. `schedule` says which waits
are cancelled, counted from 0; for a single wait it is true at one number, and it may be
true nowhere.

Each mode has its own loop and its own primitive to wait with, and these may refuse different
delays (`Clock`). Between turns the two calls are in the same place (`Unreached`), so their
waits decide when they part.

Main statement: `modes_agree`. What leaves a task is not always what it ended with
(`Failure.leavingTask`); `modes_disagree` has a call that ends differently as a task for that
reason, and one for each of the two conditions on clock and logger.
-/

namespace Retry

open Act

variable {σ ε β α : Type}

/-- No wait of a journal that was taken is one that the schedule cancels. -/
def Uncancelled (schedule : Nat → Bool) (j : Journal ε β α) : Prop :=
  ∀ before d b after, j = before ++ .slept d (.ok b) :: after →
    schedule (Journal.slept before).length = false

/-- A signal that has seen all waits of a journal, and none of them was cancelled. -/
def Unreached (schedule : Nat → Bool) (x : Journal ε β α × Signal × σ) : Prop :=
  x.2.1 = ⟨(Journal.slept x.1).length, false⟩ ∧
    ∀ i < (Journal.slept x.1).length, schedule i = false

/-- How a cancelled wait parts two calls: the first journal has a note of the cancelled wait,
the second one has not, and both have nothing but records after it. -/
def PartedAt (schedule : Nat → Bool) (j k : Journal ε β α) : Prop :=
  ∃ before d c after, Wait.note d = .ok c ∧
    j = before ++ .slept d (.ok true) :: .recorded c :: after ∧
    k = before ++ .slept d (.ok true) :: after ∧ (∀ m ∈ after, ∃ r, m = .recorded r) ∧
    schedule (Journal.slept before).length = true ∧
    ∀ i < (Journal.slept before).length, schedule i = false

section

variable (S : Setting σ ε β α) (schedule : Nat → Bool) (clock : Clock σ)
  (interruption : Failure)

/-- The setting that the loop of a blocking call works in. -/
abbrev Setting.asBlocking : Setting (Journal ε β α × Signal × σ) ε β α :=
  (S.amid id).kept (Waiting.signalled schedule clock)

/-- The setting that the loop of a task works in. -/
abbrev Setting.asTask : Setting (Journal ε β α × Signal × σ) ε β α :=
  (S.amid id).kept (Waiting.disturbed schedule clock interruption)

variable {schedule}

/-- What puts down a moment that is no sleep, and leaves the signal, changes nothing here. -/
theorem Unreached.one {x y : Journal ε β α × Signal × σ} {m : Moment ε β α}
    (h : Unreached schedule x) (hj : y.1 = x.1 ++ [m]) (hm : m.slept? = none)
    (hg : y.2.1 = x.2.1) : Unreached schedule y := by
  have hs : Journal.slept y.1 = Journal.slept x.1 := by simp [hj, hm]
  exact ⟨by rw [hg, h.1, hs], hs ▸ h.2⟩

theorem Unreached.uncancelled {x : Journal ε β α × Signal × σ} (h : Unreached schedule x) :
    Uncancelled schedule x.1 := by
  intro before d b after hx
  refine h.2 _ ?_
  rw [hx]
  simp [Moment.slept?]

theorem Unreached.refused {x : Journal ε β α × Signal × σ} (h : Unreached schedule x) (d : Delay)
    (f : Failure) : Uncancelled schedule (x.1 ++ [.slept d (.error f)]) := by
  intro before d' b after hx
  have last : after ≠ [] := by
    rintro rfl
    exact absurd (List.append_inj_right' hx rfl) (by simp)
  obtain ⟨after, m, rfl⟩ := List.eq_nil_or_concat after |>.resolve_left last
  have whole : x.1 ++ [.slept d (.error f)] = (before ++ .slept d' (.ok b) :: after) ++ [m] :=
    hx.trans (by simp)
  have front := List.append_inj_left' whole rfl
  exact h.uncancelled before d' b after front

variable (schedule)

/-- Both calls are in the same place, and stay there as long as they do not wait. -/
theorem alike_agree : Setting.Alike (Steady (Unreached schedule))
    (S.asBlocking schedule clock) (S.asTask schedule clock interruption) where
  accept := fun r x _ h => by rw [h.1]; rfl
  emit := fun r x _ h => ⟨by rw [h.1]; rfl, h.2.one rfl rfl rfl⟩
  invoke :=
    show Exact _ (S.asBlocking schedule clock).invoke _ from
      exact_steady fun _ h =>
        h.one (Setting.journaled_invoke (w := .signalled schedule clock) rfl).1 rfl rfl
  openPolicy :=
    show Exact _ (S.asBlocking schedule clock).openPolicy _ from exact_steady fun _ h => h
  openBackoff :=
    show Exact _ (S.asBlocking schedule clock).openBackoff _ from exact_steady fun _ h => h
  shouldRetry := fun f =>
    show Exact _ ((S.asBlocking schedule clock).shouldRetry f) _ from
      exact_beside_steady fun _ _ h =>
        h.one (Setting.journaled_shouldRetry (w := .signalled schedule clock) rfl).1 rfl rfl
  nextDelay :=
    show Exact _ (S.asBlocking schedule clock).nextDelay _ from
      exact_beside_steady fun _ _ h =>
        h.one (Setting.journaled_nextDelay (w := .signalled schedule clock) rfl).1 rfl rfl
  notify :=
    show Exact _ (S.asBlocking schedule clock).notify _ from
      exact_beside_steady fun _ _ h =>
        h.one (Setting.journaled_notify (w := .signalled schedule clock) rfl).1 rfl rfl

/-- A wait that is not cancelled leaves both calls in the same place. -/
theorem Unreached.passed {x : Journal ε β α × Signal × σ} (h : Unreached schedule x)
    (hs : schedule x.2.1.moment = false) (d : Delay) (s : σ) :
    Unreached schedule (x.1 ++ [.slept d (.ok false)], x.2.1.pass schedule, s) := by
  obtain ⟨hg, hno⟩ := h
  rw [hg] at hs
  have hlength : (Journal.slept (x.1 ++ [.slept d (.ok false)] : Journal ε β α)).length =
      (Journal.slept x.1).length + 1 := by simp [Moment.slept?]
  refine ⟨?_, fun i hi => ?_⟩
  · dsimp only
    rw [hlength, hg]
    simp [Signal.pass, hs]
  · dsimp only at hi
    rw [hlength] at hi
    obtain hi | rfl : i < (Journal.slept x.1).length ∨ i = (Journal.slept x.1).length := by omega
    · exact hno i hi
    · exact hs

/-- How the waits of the two calls end if they part there. -/
def PartedWait (schedule : Nat → Bool) (interruption : Failure) (name : String) (f : Failure)
    (x : Journal ε β α × Signal × σ)
    (z : Except Failure (Option Failure) × Journal ε β α × Signal × σ) : Prop :=
  f = .abortedFor (.text name) (.waitCancelled (.text name)) ∧
    ∃ y, z = (.ok (some (.abortedFor (.text name) interruption)), y) ∧ PartedAt schedule x.1 y.1

/-- **The two calls go the same way until a wait is cancelled**, or until a delay that the wait
for the token and the sleep of a task do not take alike. -/
theorem parting_agree (hint : interruption.isA "CancelledError" = true)
    (hrecords : S.RecordsAborts) (name : String) (fuel : Nat) :
    Setting.Parting (Steady (Unreached schedule)) (Steady fun x => Uncancelled schedule x.1)
      (PartedWait schedule interruption name)
      (fun x => x.1.SleptAny fun d => clock.token d ≠ clock.task d) some
      ((S.asBlocking schedule clock).run name fuel)
      ((S.asTask schedule clock interruption).run name fuel) := by
  have alike := alike_agree S schedule clock interruption
  have blockingRecords : (S.asBlocking schedule clock).RecordsAborts :=
    fun name attempt r x => hrecords name attempt r x.2.2
  have taskRecords : (S.asTask schedule clock interruption).RecordsAborts :=
    fun name attempt r x => hrecords name attempt r x.2.2
  refine Setting.parting_run (fun _ _ h => ⟨h.1, h.2.uncancelled⟩) alike
    ((S.amid id).stays_sleptAny _ _ name) (fun p d x y hxy => ?_) fuel
  rcases word : (Phase.waiting p.last d).record name p.state.attempt with f | r
  · rw [Setting.perform_await_unworded _ _ word, Setting.perform_await_unworded _ _ word]
    exact .inl (.failed ⟨hxy.1, hxy.2.uncancelled⟩)
  obtain ⟨c, hc⟩ := Wait.note_of_waiting word
  obtain ⟨rfl, hx⟩ := hxy
  rcases kept : (S.asBlocking schedule clock).accept r x with f | _
  · rw [Setting.perform_await_unkept (S.asBlocking schedule clock) _ ⟨r, word, kept⟩,
      Setting.perform_await_unkept (S.asTask schedule clock interruption) _ ⟨r, word, kept⟩]
    exact .inl (.failed ⟨rfl, hx.uncancelled⟩)
  have taskKept : (S.asTask schedule clock interruption).accept r x = .ok () := kept
  obtain ⟨hemit, hr⟩ := alike.emit r x x ⟨rfl, hx⟩
  have blocking := perform_signalled (S.amid id) schedule clock name hc
    ((S.asBlocking schedule clock).emit r x)
  have task := perform_disturbed (S.amid id) schedule clock name hint
    ((S.asTask schedule clock interruption).emit r x) (d := d)
  rw [← hemit] at task
  rw [hr.1, if_neg (by simp), ← hr.1] at blocking
  have odd {e : Except Failure Bool} (hodd : clock.token d ≠ clock.task d)
      (j : Journal ε β α) : Journal.SleptAny (fun d => clock.token d ≠ clock.task d)
        (j ++ [.slept d e]) := ⟨d, by simp [Moment.slept?], hodd⟩
  by_cases same : clock.token d = clock.task d
  · rw [← same] at task
    cases ht : clock.token d with
    | some f =>
      rw [ht] at blocking task
      rw [Setting.perform_await_unpaused _ _ word kept blocking,
        Setting.perform_await_unpaused _ _ word taskKept (hemit ▸ task)]
      exact .inl (.failed ⟨rfl, hr.refused d f⟩)
    | none =>
      rw [ht] at blocking task
      dsimp only at blocking task
      cases hs : schedule ((S.asBlocking schedule clock).emit r x).2.1.moment with
      | true =>
        rw [hs, if_pos rfl] at blocking task
        refine .inr (.inl ⟨_, _, Setting.perform_await_cancelled _ _ word kept blocking
            (blockingRecords.perform_say name _ _), rfl, _,
          Setting.perform_await_cancelled _ _ word taskKept (hemit ▸ task)
            (taskRecords.perform_say name _ _), ?_⟩)
        rw [hr.1] at hs
        refine ⟨_, d, c, _, hc, ?_, ?_,
          Phase.moments_recorded name p.state.attempt .waitCancelled, hs, hr.2⟩
        · rw [Setting.journaled_said]
          simp [Signal.off]
        · rw [Setting.journaled_said, hemit]
          simp
      | false =>
        rw [hs, if_neg (by simp)] at blocking task
        rw [Setting.perform_await_passed _ _ word kept blocking,
          Setting.perform_await_passed _ _ word taskKept (hemit ▸ task)]
        exact .inl (.ok ⟨rfl, hr.passed schedule hs d _⟩)
  · right; right
    obtain ⟨b, t, hb⟩ : ∃ b t, ((S.asBlocking schedule clock).pause name d).perform
        ((S.asBlocking schedule clock).emit r x) = (b, t) ∧
          t.1.SleptAny fun d => clock.token d ≠ clock.task d := by
      refine ⟨_, _, blocking, ?_⟩
      cases clock.token d with
      | some f => exact odd same _
      | none =>
        dsimp only
        split
        · exact (odd same _).grow rfl
        · exact odd same _
    obtain ⟨pause, hodd⟩ := hb
    obtain f | _ | f := b
    · rw [Setting.perform_await_unpaused _ _ word kept pause]
      exact hodd
    · rw [Setting.perform_await_passed _ _ word kept pause]
      exact hodd
    · rw [Setting.perform_await_cancelled _ _ word kept pause
        (blockingRecords.perform_say name _ _), Setting.journaled_said]
      exact hodd.grow rfl

theorem unreached_start (s : σ) :
    Steady (Unreached schedule) (([], ⟨0, false⟩, s) : Journal ε β α × Signal × σ)
      ([], ⟨0, false⟩, s) :=
  ⟨rfl, rfl, fun i hi => absurd hi (by simp)⟩

/-- The same clock, with a task's sleep that takes what the wait for a token takes. -/
def Clock.even (clock : Clock σ) : Clock σ :=
  { clock with
    task := clock.token
    uncancelled := fun d f h => clock.uncancelled d f (h.imp_right fun h => .inl (h.elim id id)) }

/-- What is never cancelled from outside is not cancelled by a call that ends by its loop. -/
theorem uncancelled_of_never (hint : interruption.isA "CancelledError" = true)
    (hrecords : S.RecordsAborts) (name : String) (fuel : Nat) (s : σ)
    (never : ∀ i, schedule i = false) {r : Option (Ending α)}
    {z : Journal ε β α × Signal × σ}
    (h : ((S.asBlocking schedule clock).run name fuel).perform ([], ⟨0, false⟩, s) = (.ok r, z)) :
    z.2.1.cancelled = false := by
  obtain hm | ⟨_, _, _, _, ⟨_, _, _, _, _, _, _, _, _, _, _, hat, _⟩, _⟩ | ⟨d, -, odd⟩ :=
    parting_agree S schedule clock.even interruption hint hrecords name fuel _ _
      (unreached_start schedule s)
  · rw [show (S.asBlocking schedule clock.even) = S.asBlocking schedule clock from rfl, h] at hm
    obtain ⟨-, -, -, reached, -⟩ := hm.of_ok
    rw [reached]
  · exact absurd hat (by simp [never])
  · exact absurd rfl odd

end

/-- What a task makes of how the loop ended, from what a blocking call makes of it. -/
theorem delivered_task {σ α : Type} (z : Except Failure (Option (Ending α)) × σ) :
    Mode.task.delivered (z.1.mapError Mode.task.leaving, z.2) =
      ((Mode.blocking.delivered z).1.mapError Mode.task.leaving, z.2) := by
  obtain ⟨f | _ | ending, t⟩ := z
  · rfl
  · rfl
  · show ((ending.outcome.mapError Mode.task.leaving).map some, t) =
      (((ending.outcome.mapError Mode.blocking.leaving).map some).mapError Mode.task.leaving, t)
    rcases ending.outcome with f | v <;> rfl

/-- **Blocking calls and tasks agree.** The same collaborators, started in the same place,
make the same call in both modes: the same journal, and the same end but for the end of an
iteration, which does not leave a task as such. This is so if the wait for the token and the
sleep of a task take the delays of the call alike, unless a wait is cancelled. Then both calls
are aborted with the same message, each by its own cause, if the logger keeps the record of
that; and the blocking call has noted that its wait was cancelled. Where no wait is ever
cancelled, the blocking call may as well do without a token, if a sleep takes the delays
alike. -/
theorem modes_agree {σ ε β α : Type} (S : Setting σ ε β α) (schedule : Nat → Bool)
    (clock : Clock σ) (interruption : Failure)
    (hint : interruption.isA "CancelledError" = true) (hrecords : S.RecordsAborts)
    (operation : Operation) (fuel : Nat) (s : σ) :
    let x := (Mode.blocking.call ((S.amid id).kept (Waiting.signalled schedule clock))
      operation fuel).perform ([], ⟨0, false⟩, s)
    let y := (Mode.task.call ((S.amid id).kept
      (Waiting.disturbed schedule clock interruption)) operation fuel).perform
        ([], ⟨0, false⟩, s)
    ((∀ d ∈ Journal.slept x.2.1, clock.token d = clock.task d) →
      (y = (x.1.mapError Mode.task.leaving, x.2) ∧ Uncancelled schedule x.2.1) ∨
      ∃ name, operation.displayName = .ok name ∧
        x.1 = .error (.abortedFor (.text name) (.waitCancelled (.text name))) ∧
        y.1 = .error (.abortedFor (.text name) interruption) ∧ PartedAt schedule x.2.1 y.2.1) ∧
    ((∀ i, schedule i = false) → (∀ d ∈ Journal.slept x.2.1, clock.sleep d = clock.token d) →
      (Mode.blocking.call (S.kept (Waiting.plain clock)) operation fuel).perform ([], s) =
        (x.1, x.2.1, x.2.2.2)) := by
  intro x y
  refine ⟨fun htaken => ?_, fun never hplain => ?_⟩
  · rcases hname : operation.displayName with f | name
    · have hx : x = (.error f, [], ⟨0, false⟩, s) :=
        (Mode.perform_call _ _ _ _ _).trans
          (congrArg _ (Mode.perform_run_unnamed .blocking _ hname fuel _))
      have hy : y = (.error (Mode.task.leaving f), [], ⟨0, false⟩, s) :=
        (Mode.perform_call _ _ _ _ _).trans
          (congrArg _ (Mode.perform_run_unnamed .task _ hname fuel _))
      rw [hx, hy]
      exact .inl ⟨rfl, fun before d b after h => absurd h (by simp)⟩
    have hx : x = Mode.blocking.delivered
        (((S.asBlocking schedule clock).run name fuel).perform ([], ⟨0, false⟩, s)) :=
      (Mode.perform_call _ _ _ _ _).trans (congrArg _ (Mode.perform_run_blocking _ hname fuel _))
    have hy : y = Mode.task.delivered
        ((((S.asTask schedule clock interruption).run name fuel).perform
          ([], ⟨0, false⟩, s)).1.mapError Mode.task.leaving,
        (((S.asTask schedule clock interruption).run name fuel).perform
          ([], ⟨0, false⟩, s)).2) :=
      (Mode.perform_call _ _ _ _ _).trans (congrArg _ (Mode.perform_run _ _ hname fuel _))
    rw [hx, Mode.delivered_snd] at htaken
    obtain hm | ⟨f, u, _, hu, ⟨rfl, v, rfl, hparted⟩, hv⟩ | ⟨d, hd, odd⟩ := parting_agree S schedule
      clock interruption hint hrecords name fuel _ _ (unreached_start schedule s)
    · obtain ⟨hr, hs, huncancelled⟩ := hm.same fun _ _ h => ⟨h.1, h.2.uncancelled⟩
      rw [← Prod.ext hr hs, delivered_task] at hy
      rw [hy, hx, Mode.delivered_snd]
      exact .inl ⟨rfl, huncancelled⟩
    · rw [hu] at hx
      rw [hv _ _ rfl] at hy
      rw [hx, hy]
      exact .inr ⟨name, rfl, rfl, rfl, hparted⟩
    · exact absurd (htaken d hd) odd
  · have ran := Mode.perform_call .blocking ((S.amid id).kept (Waiting.signalled schedule clock))
      operation fuel ([], ⟨0, false⟩, s)
    refine call_plain (T := S.amid id) (Setting.alike_unwatched _ S _) (fun _ _ h => h)
      (fun name attempt r x => hrecords name attempt r x.2) schedule clock operation fuel false s
      (fun e z h => ?_) fun d hd => hplain d ?_
    · obtain ⟨name, -, hrun⟩ := Mode.perform_run_ok _ _ h
      exact uncancelled_of_never S schedule clock interruption hint hrecords name fuel s never hrun
    · rwa [show x = _ from ran, Mode.delivered_snd]

theorem modes_agree_failing :
    (Failure.plain .cancelledError none none).isA "CancelledError" = true ∧
    (failing true (.ok ())).RecordsAborts ∧
    let S := failing true (.ok ())
    let x := (Mode.blocking.call ((S.amid id).kept
      (Waiting.signalled (fun i => i == 1) (.patient Nat))) (.function "fetch") 3).perform
        ([], ⟨0, false⟩, 0)
    let y := (Mode.task.call ((S.amid id).kept
      (Waiting.disturbed (fun i => i == 1) (.patient Nat) (.plain .cancelledError none none)))
        (.function "fetch") 3).perform ([], ⟨0, false⟩, 0)
    (∀ d ∈ Journal.slept x.2.1, (Clock.patient Nat).token d = (Clock.patient Nat).task d) ∧
    ∃ name, (Operation.function "fetch").displayName = .ok name ∧
      x.1 = .error (.abortedFor (.text name) (.waitCancelled (.text name))) ∧
      y.1 = .error (.abortedFor (.text name) (.plain .cancelledError none none)) ∧
      PartedAt (fun i => i == 1) x.2.1 y.2.1 := by
  refine ⟨rfl, fun _ _ _ _ _ => rfl, fun _ _ => rfl, ?_⟩
  refine ((modes_agree (failing true (.ok ())) (fun i => i == 1) (.patient Nat)
    (.plain .cancelledError none none) rfl (fun _ _ _ _ _ => rfl) (.function "fetch") 3 0).1
      fun _ _ => rfl).resolve_left fun h => ?_
  have causes := congrArg (fun z => match z.1 with
    | .error f => f.chained?.map fun cause => Failure.isA cause "CancelledError"
    | .ok _ => none) h.1
  exact absurd causes (by decide +kernel)

def Failure.overlong : Failure :=
  .of .overflowError "timestamp too large to convert to C PyTime_t"

/-- With what a primitive refuses a delay if it counts nanoseconds in 64 bits. -/
def Delay.overlong (d : Delay) : Option Failure :=
  if d.any (Number.whole (2 ^ 63 / 10 ^ 9)).lt then some .overlong else none

/-- The clock on which a task may sleep for longer than a thread may wait. -/
def Clock.narrow (σ : Type) : Clock σ where
  sleep := Delay.overlong
  token := Delay.overlong
  task _ := none
  uncancelled d f h := by
    have refused : d.overlong = some f := by simpa using h
    obtain ⟨-, said⟩ := (Option.ite_none_right_eq_some).mp refused
    rw [← Option.some.inj said]
    rfl
  rest _ s := s
  wake _ s := s

/-- How a blocking call and a task end, with the names of their failures. -/
def outcomes (S : Setting Nat Nat Nat Nat) (schedule : Nat → Bool) (clock : Clock Nat) :
    Except String (Option Nat) × Except String (Option Nat) :=
  (((Mode.blocking.call ((S.amid id).kept (Waiting.signalled schedule clock))
      (.function "fetch") 1).perform ([], ⟨0, false⟩, 0)).1.mapError (·.kind.name),
    ((Mode.task.call ((S.amid id).kept (Waiting.disturbed schedule clock
      (.plain .cancelledError none none))) (.function "fetch") 1).perform
        ([], ⟨0, false⟩, 0)).1.mapError (·.kind.name))

/-- A call whose backoff waits forever. -/
def failingForever : Setting Nat Nat Nat Nat :=
  { failing true (.ok ()) with nextDelay := .result (.ok (some (.double (.infinite false)))) }

/-- A call whose logger has no room for the record of its abortion. -/
def failingUnrecorded : Setting Nat Nat Nat Nat :=
  { failing true (.ok ()) with
    accept := fun r _ =>
      if r.message = "Backoff for operation 'fetch' cancelled; aborting retries" then
        .error (.of .osError "[Errno 28] No space left on device")
      else .ok () }

/-- Three ways in which the modes do not agree. The end of an iteration that the listener raises
ends the blocking call as such, and the task as a failure that is chained to it. A delay that is
too long for the wait for a token ends the blocking call only. And if the logger fails with the
record of an abortion, neither call is aborted. -/
theorem modes_disagree :
    outcomes (failing false (.error (.of .stopIteration "enough"))) (fun _ => false)
        (.patient Nat) = (.error "StopIteration", .error "RuntimeError") ∧
      outcomes failingForever (fun _ => false) (.narrow Nat) =
        (.error "OverflowError", .ok none) ∧
      outcomes failingUnrecorded (fun _ => true) (.patient Nat) =
        (.error "OSError", .error "OSError") := by
  decide +kernel

end Retry
