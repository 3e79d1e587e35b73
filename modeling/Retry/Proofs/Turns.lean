import Retry.Mode
import Retry.Proofs.Tasks

/-!
# What a turn of the loop can do

Each part of a turn has a relation with one rule for every way the part can end:
`Consulted` (asking policy and backoff), `Awaited` (the wait), `Reattempted` (the next
invocation between its events), `GaveUp` (the end of the retries). `Turned` puts the
first three together. A rule holds the steps of the collaborators as its premises, so
whatever is said of the loop is said of these rules, and the loop is not opened again.

Main statements: `consulted`, `awaited`, `reattempted`, `turned`, `gaveUp` (every part
ends by one of its rules), `turns_invariant` (what one turn keeps, all turns keep, with
the number of turns that were taken), `perform_run_ok`, `perform_call` (what a mode makes
of the loop).
-/

namespace Retry

namespace Progress

variable {ε β : Type}

/-- After the first failure of a named operation. -/
def opening (name : String) (failure : Failure) (execution : ε) (backoff : β) : Progress ε β where
  state := { operation := .text name, execution, attempt := 1 }
  backoff
  first := failure
  later := []
  last := failure

def asked (p : Progress ε β) (execution : ε) : Progress ε β :=
  { p with state := { p.state with execution } }

def drawn (p : Progress ε β) (backoff : β) : Progress ε β := { p with backoff }

def failed (p : Progress ε β) (state : CallState ε) (failure : Failure) : Progress ε β :=
  { p with state, later := p.later ++ [failure], last := failure }

end Progress

namespace Phase

theorem record_isOk (name : String) (attempt : Attempt) {phase : Phase}
    (h : phase.delay? = none) : ∃ r, phase.record name attempt = .ok r := by
  obtain ⟨m, hm⟩ := message_isOk name attempt h
  simp only [record, hm]
  exact ⟨_, rfl⟩

end Phase

namespace Setting

variable {σ ε β α : Type} (S : Setting σ ε β α) (name : String)

/-- The record of a phase is made, and the logger fails with it. -/
def Unkept (attempt : Attempt) (phase : Phase) (s : σ) (f : Failure) : Prop :=
  ∃ r, phase.record name attempt = .ok r ∧ S.accept r s = .error f

/-- The surroundings after a phase was recorded; as before, if it cannot be worded. -/
def said (attempt : Attempt) (phase : Phase) (s : σ) : σ :=
  match phase.record name attempt with
  | .ok r => S.emit r s
  | .error _ => s

variable {S name}

theorem perform_log (r : Record) (s : σ) :
    (S.log r).perform s =
      match S.accept r s with
      | .ok () => (.ok (), S.emit r s)
      | .error f => (.error f, s) := by
  simp only [log, Act.perform_bind, Act.perform_look, Act.perform_result]
  cases S.accept r s <;> rfl

theorem perform_say_ok {attempt : Attempt} {phase : Phase} {r : Record} {s : σ}
    (h : phase.record name attempt = .ok r) (kept : S.accept r s = .ok ()) :
    (S.say name attempt phase).perform s = (.ok (), S.emit r s) := by
  simp [say, h, Act.perform_bind, perform_log, kept]

theorem perform_say_error {attempt : Attempt} {phase : Phase} {f : Failure}
    (h : phase.record name attempt = .error f) (s : σ) :
    (S.say name attempt phase).perform s = (.error f, s) := by
  simp [say, h, Act.perform_bind]

theorem perform_say_unkept {attempt : Attempt} {phase : Phase} {s : σ} {f : Failure}
    (h : S.Unkept name attempt phase s f) :
    (S.say name attempt phase).perform s = (.error f, s) := by
  obtain ⟨r, hr, unkept⟩ := h
  simp [say, hr, Act.perform_bind, perform_log, unkept]

theorem perform_announce (state : CallState ε) (event : Event α) (s : σ) :
    (S.announce state event).perform s =
      match S.notify.perform (⟨state, event⟩, s) with
      | (.ok (), n, t) => (.ok n, t)
      | (.error f, _, t) => (.error f, t) := by
  simp only [announce, Act.perform_bind, Act.perform_focus]
  rcases S.notify.perform (⟨state, event⟩, s) with ⟨_ | _, n, t⟩ <;> rfl

variable (S name)

/-- A phase that needs no delay is recorded, or the logger fails with it. -/
theorem say_cases (attempt : Attempt) (phase : Phase) (h : phase.delay? = none) (s : σ) :
    (∃ f, S.Unkept name attempt phase s f ∧
      (S.say name attempt phase).perform s = (.error f, s)) ∨
      (S.say name attempt phase).perform s = (.ok (), S.said name attempt phase s) := by
  obtain ⟨r, hr⟩ := Phase.record_isOk name attempt h
  cases kept : S.accept r s with
  | error f => exact .inl ⟨f, ⟨r, hr, kept⟩, perform_say_unkept ⟨r, hr, kept⟩⟩
  | ok _ => exact .inr (by rw [perform_say_ok hr kept, said, hr])

variable {name} in
/-- The logger keeps the records of abortions. -/
def RecordsAborts : Prop :=
  ∀ name attempt r s, Phase.waitCancelled.record name attempt = .ok r → S.accept r s = .ok ()

variable {S} in
theorem RecordsAborts.kept (h : S.RecordsAborts) {attempt : Attempt} {s : σ} {f : Failure} :
    ¬ S.Unkept name attempt .waitCancelled s f := by
  rintro ⟨r, hr, unkept⟩
  exact absurd ((h name attempt r s hr).symm.trans unkept) (by simp)

variable {S} in
theorem RecordsAborts.perform_say (h : S.RecordsAborts) (attempt : Attempt) (s : σ) :
    (S.say name attempt .waitCancelled).perform s =
      (.ok (), S.said name attempt .waitCancelled s) := by
  obtain ⟨f, keep, -⟩ | said := S.say_cases name attempt .waitCancelled rfl s
  · exact absurd keep (h.kept name)
  · exact said

variable {name} in
/-- The logger keeps every record. -/
def KeepsRecords : Prop := ∀ r s, S.accept r s = .ok ()

variable {S} in
theorem KeepsRecords.kept (h : S.KeepsRecords) {attempt : Attempt} {phase : Phase} {s : σ}
    {f : Failure} : ¬ S.Unkept name attempt phase s f := by
  rintro ⟨r, -, unkept⟩
  exact absurd ((h r s).symm.trans unkept) (by simp)

/-! ## The parts of a turn -/

/-- How asking policy and backoff ends. -/
inductive Consulted (p : Progress ε β) (s : σ) :
    Except Failure (Option Delay × Progress ε β) × σ → Prop where
  | unanswered {f : Failure} {e : ε} {t : σ}
      (ask : (S.shouldRetry p.last).perform (p.state.execution, s) = (.error f, e, t)) :
      Consulted p s (.error f, t)
  | refused {e : ε} {t : σ}
      (ask : (S.shouldRetry p.last).perform (p.state.execution, s) = (.ok false, e, t)) :
      Consulted p s (.ok (none, p.asked e), t)
  | undrawn {f : Failure} {e : ε} {b : β} {t u : σ}
      (ask : (S.shouldRetry p.last).perform (p.state.execution, s) = (.ok true, e, t))
      (draw : S.nextDelay.perform (p.backoff, t) = (.error f, b, u)) :
      Consulted p s (.error f, u)
  | unkept {d : Delay} {f : Failure} {e : ε} {b : β} {t u : σ}
      (ask : (S.shouldRetry p.last).perform (p.state.execution, s) = (.ok true, e, t))
      (draw : S.nextDelay.perform (p.backoff, t) = (.ok d, b, u))
      (stop : Backoff.isStop d = true)
      (keep : S.Unkept name p.state.attempt .backoffStopped u f) :
      Consulted p s (.error f, u)
  | stopped {d : Delay} {e : ε} {b : β} {t u : σ}
      (ask : (S.shouldRetry p.last).perform (p.state.execution, s) = (.ok true, e, t))
      (draw : S.nextDelay.perform (p.backoff, t) = (.ok d, b, u))
      (stop : Backoff.isStop d = true) :
      Consulted p s (.ok (none, (p.asked e).drawn b), S.said name p.state.attempt .backoffStopped u)
  | granted {d : Delay} {e : ε} {b : β} {t u : σ}
      (ask : (S.shouldRetry p.last).perform (p.state.execution, s) = (.ok true, e, t))
      (draw : S.nextDelay.perform (p.backoff, t) = (.ok d, b, u))
      (go : Backoff.isStop d = false) :
      Consulted p s (.ok (some d, (p.asked e).drawn b), u)

/-- How the wait for a delay ends. -/
inductive Awaited (p : Progress ε β) (d : Delay) (s : σ) :
    Except Failure (Option Failure) × σ → Prop where
  | unworded {f : Failure}
      (word : (Phase.waiting p.last d).record name p.state.attempt = .error f) :
      Awaited p d s (.error f, s)
  | unkept {f : Failure} (keep : S.Unkept name p.state.attempt (.waiting p.last d) s f) :
      Awaited p d s (.error f, s)
  | unpaused {r : Record} {f : Failure} {t : σ}
      (word : (Phase.waiting p.last d).record name p.state.attempt = .ok r)
      (pause : (S.pause name d).perform (S.emit r s) = (.error f, t)) :
      Awaited p d s (.error f, t)
  | passed {r : Record} {t : σ}
      (word : (Phase.waiting p.last d).record name p.state.attempt = .ok r)
      (pause : (S.pause name d).perform (S.emit r s) = (.ok none, t)) :
      Awaited p d s (.ok none, t)
  | unkeptEnd {r : Record} {cause f : Failure} {t : σ}
      (word : (Phase.waiting p.last d).record name p.state.attempt = .ok r)
      (pause : (S.pause name d).perform (S.emit r s) = (.ok (some cause), t))
      (keep : S.Unkept name p.state.attempt .waitCancelled t f) :
      Awaited p d s (.error f, t)
  | cancelled {r : Record} {cause : Failure} {t : σ}
      (word : (Phase.waiting p.last d).record name p.state.attempt = .ok r)
      (pause : (S.pause name d).perform (S.emit r s) = (.ok (some cause), t)) :
      Awaited p d s
        (.ok (some (.abortedFor (.text name) cause)), S.said name p.state.attempt .waitCancelled t)

/-- The hook before another attempt ran: the attempt has number `a`, and the hook leaves
the notice `n`. -/
structure Announced (p : Progress ε β) (s : σ) (a : Attempt) (n : Notice ε α) (t : σ) : Prop where
  count : Attempt.next p.state.attempt = .ok a
  tell : S.notify.perform
    (⟨{ p.state with attempt := a }, .beforeRetry⟩, S.said name a .retrying s) = (.ok (), n, t)

/-- How another invocation between its events ends. -/
inductive Reattempted (p : Progress ε β) (s : σ) : Except Failure (Turn ε β α) × σ → Prop where
  | uncounted {f : Failure} (count : Attempt.next p.state.attempt = .error f) :
      Reattempted p s (.error f, s)
  | unkept {a : Attempt} {f : Failure} (count : Attempt.next p.state.attempt = .ok a)
      (keep : S.Unkept name a .retrying s f) :
      Reattempted p s (.error f, s)
  | unannounced {a : Attempt} {f : Failure} {n : Notice ε α} {t : σ}
      (count : Attempt.next p.state.attempt = .ok a)
      (tell : S.notify.perform
        (⟨{ p.state with attempt := a }, .beforeRetry⟩, S.said name a .retrying s) =
          (.error f, n, t)) :
      Reattempted p s (.error f, t)
  | interrupted {a : Attempt} {f : Failure} {n : Notice ε α} {t u : σ}
      (before : S.Announced name p s a n t)
      (invoke : S.invoke.perform t = (.error f, u)) (extra : f.ordinary = false) :
      Reattempted p s (.error f, u)
  | unpraised {a : Attempt} {x : α} {f : Failure} {n m : Notice ε α} {t u v : σ}
      (before : S.Announced name p s a n t)
      (invoke : S.invoke.perform t = (.ok x, u))
      (tell : S.notify.perform (⟨n.state, .success x⟩, u) = (.error f, m, v)) :
      Reattempted p s (.error f, v)
  | unkeptSuccess {a : Attempt} {x : α} {f : Failure} {n m : Notice ε α} {t u v : σ}
      (before : S.Announced name p s a n t)
      (invoke : S.invoke.perform t = (.ok x, u))
      (tell : S.notify.perform (⟨n.state, .success x⟩, u) = (.ok (), m, v))
      (keep : S.Unkept name m.state.attempt .retrySucceeded v f) :
      Reattempted p s (.error f, v)
  | succeeded {a : Attempt} {x : α} {n m : Notice ε α} {t u v : σ}
      (before : S.Announced name p s a n t)
      (invoke : S.invoke.perform t = (.ok x, u))
      (tell : S.notify.perform (⟨n.state, .success x⟩, u) = (.ok (), m, v)) :
      Reattempted p s
        (.ok (.ended (.returned x)), S.said name m.state.attempt .retrySucceeded v)
  | unblamed {a : Attempt} {f g : Failure} {n m : Notice ε α} {t u v : σ}
      (before : S.Announced name p s a n t)
      (invoke : S.invoke.perform t = (.error f, u)) (plain : f.ordinary = true)
      (tell : S.notify.perform (⟨n.state, .failure f⟩, u) = (.error g, m, v)) :
      Reattempted p s (.error g, v)
  | unkeptFailure {a : Attempt} {f g : Failure} {n m : Notice ε α} {t u v : σ}
      (before : S.Announced name p s a n t)
      (invoke : S.invoke.perform t = (.error f, u)) (plain : f.ordinary = true)
      (tell : S.notify.perform (⟨n.state, .failure f⟩, u) = (.ok (), m, v))
      (keep : S.Unkept name m.state.attempt (.retryFailed m.event.error) v g) :
      Reattempted p s (.error g, v)
  | failed {a : Attempt} {f : Failure} {n m : Notice ε α} {t u v : σ}
      (before : S.Announced name p s a n t)
      (invoke : S.invoke.perform t = (.error f, u)) (plain : f.ordinary = true)
      (tell : S.notify.perform (⟨n.state, .failure f⟩, u) = (.ok (), m, v)) :
      Reattempted p s
        (.ok (.again (p.failed m.state m.event.error)),
          S.said name m.state.attempt (.retryFailed m.event.error) v)

/-- How the retries are given up. -/
inductive GaveUp (p : Progress ε β) (s : σ) : Except Failure Failure × σ → Prop where
  | unkept {f : Failure} (keep : S.Unkept name p.state.attempt .exhausted s f) :
      GaveUp p s (.error f, s)
  | untold {f : Failure} {n : Notice ε α} {t : σ}
      (tell : S.notify.perform
        (⟨p.state, .exhaustion (.exhaustedFor (.text name) p.first p.later)⟩,
          S.said name p.state.attempt .exhausted s) = (.error f, n, t)) :
      GaveUp p s (.error f, t)
  | told {n : Notice ε α} {t : σ}
      (tell : S.notify.perform
        (⟨p.state, .exhaustion (.exhaustedFor (.text name) p.first p.later)⟩,
          S.said name p.state.attempt .exhausted s) = (.ok (), n, t)) :
      GaveUp p s (.ok n.event.error, t)

/-- How a turn ends. -/
inductive Turned (p : Progress ε β) (s : σ) : Except Failure (Turn ε β α) × σ → Prop where
  | unconsulted {f : Failure} {t : σ} (consult : S.Consulted name p s (.error f, t)) :
      Turned p s (.error f, t)
  | refused {q : Progress ε β} {t : σ} (consult : S.Consulted name p s (.ok (none, q), t)) :
      Turned p s (.ok (.refused q), t)
  | unawaited {d : Delay} {q : Progress ε β} {f : Failure} {t u : σ}
      (consult : S.Consulted name p s (.ok (some d, q), t))
      (await : S.Awaited name q d t (.error f, u)) :
      Turned p s (.error f, u)
  | aborted {d : Delay} {q : Progress ε β} {f : Failure} {t u : σ}
      (consult : S.Consulted name p s (.ok (some d, q), t))
      (await : S.Awaited name q d t (.ok (some f), u)) :
      Turned p s (.ok (.ended (.aborted f)), u)
  | reattempted {d : Delay} {q : Progress ε β} {t u : σ} {y : Except Failure (Turn ε β α) × σ}
      (consult : S.Consulted name p s (.ok (some d, q), t))
      (await : S.Awaited name q d t (.ok none, u))
      (reattempt : S.Reattempted name q u y) :
      Turned p s y

/-- How a call begins: it is over after its first invocation, or it takes turns. -/
inductive Began (fuel : Nat) (s : σ) : Except Failure (Option (Ending α)) × σ → Prop where
  | unkept {f : Failure} (keep : S.Unkept name 1 .starting s f) : Began fuel s (.error f, s)
  | unkeptSuccess {x : α} {f : Failure} {t : σ}
      (invoke : S.invoke.perform (S.said name 1 .starting s) = (.ok x, t))
      (keep : S.Unkept name 1 .succeeded t f) :
      Began fuel s (.error f, t)
  | succeeded {x : α} {t : σ}
      (invoke : S.invoke.perform (S.said name 1 .starting s) = (.ok x, t)) :
      Began fuel s (.ok (some (.returned x)), S.said name 1 .succeeded t)
  | interrupted {f : Failure} {t : σ}
      (invoke : S.invoke.perform (S.said name 1 .starting s) = (.error f, t))
      (extra : f.ordinary = false) :
      Began fuel s (.error f, t)
  | unkeptFailure {f g : Failure} {t : σ}
      (invoke : S.invoke.perform (S.said name 1 .starting s) = (.error f, t))
      (plain : f.ordinary = true) (keep : S.Unkept name 1 (.failed f) t g) :
      Began fuel s (.error g, t)
  | unruled {f g : Failure} {t u : σ}
      (invoke : S.invoke.perform (S.said name 1 .starting s) = (.error f, t))
      (plain : f.ordinary = true)
      (rule : S.openPolicy.perform (S.said name 1 (.failed f) t) = (.error g, u)) :
      Began fuel s (.error g, u)
  | unpaced {f g : Failure} {e : ε} {t u v : σ}
      (invoke : S.invoke.perform (S.said name 1 .starting s) = (.error f, t))
      (plain : f.ordinary = true)
      (rule : S.openPolicy.perform (S.said name 1 (.failed f) t) = (.ok e, u))
      (pace : S.openBackoff.perform u = (.error g, v)) :
      Began fuel s (.error g, v)
  | failed {f : Failure} {e : ε} {b : β} {t u v : σ}
      (invoke : S.invoke.perform (S.said name 1 .starting s) = (.error f, t))
      (plain : f.ordinary = true)
      (rule : S.openPolicy.perform (S.said name 1 (.failed f) t) = (.ok e, u))
      (pace : S.openBackoff.perform u = (.ok b, v)) :
      Began fuel s ((S.turns name fuel (.opening name f e b)).perform v)

/-! ## Every part ends by one of its rules -/

theorem consulted (p : Progress ε β) (s : σ) :
    S.Consulted name p s ((S.consult name p).perform s) := by
  unfold consult
  rcases ask : (S.shouldRetry p.last).perform (p.state.execution, s) with ⟨_ | granted, e, t⟩
  · simp only [Act.perform_bind, Act.perform_focus, ask]
    exact .unanswered ask
  cases granted with
  | false =>
    simp only [Act.perform_bind, Act.perform_focus, ask, Bool.false_eq_true, if_false]
    exact .refused ask
  | true =>
    rcases draw : S.nextDelay.perform (p.backoff, t) with ⟨_ | d, b, u⟩
    · simp only [Act.perform_bind, Act.perform_focus, ask, draw, if_true]
      exact .undrawn ask draw
    cases hd : Backoff.isStop d with
    | true =>
      obtain ⟨f, keep, lost⟩ | said := S.say_cases name p.state.attempt .backoffStopped rfl u
      · simp only [Act.perform_bind, Act.perform_focus, ask, draw, hd, if_true,
          lost]
        exact .unkept ask draw hd keep
      · simp only [Act.perform_bind, Act.perform_focus, ask, draw, hd, if_true, said]
        exact .stopped ask draw hd
    | false =>
      simp only [Act.perform_bind, Act.perform_focus, ask, draw, hd, if_true, Bool.false_eq_true,
        if_false]
      exact .granted ask draw hd

theorem perform_await_unworded {p : Progress ε β} {d : Delay} {f : Failure}
    (word : (Phase.waiting p.last d).record name p.state.attempt = .error f) (s : σ) :
    (S.await name p d).perform s = (.error f, s) := by
  unfold await
  rw [Act.perform_bind_error (perform_say_error word s)]

theorem perform_await_unkept {p : Progress ε β} {d : Delay} {f : Failure} {s : σ}
    (keep : S.Unkept name p.state.attempt (.waiting p.last d) s f) :
    (S.await name p d).perform s = (.error f, s) := by
  unfold await
  rw [Act.perform_bind_error (perform_say_unkept keep)]

theorem perform_await_unpaused {p : Progress ε β} {d : Delay} {r : Record} {f : Failure} {s t : σ}
    (word : (Phase.waiting p.last d).record name p.state.attempt = .ok r)
    (kept : S.accept r s = .ok ())
    (pause : (S.pause name d).perform (S.emit r s) = (.error f, t)) :
    (S.await name p d).perform s = (.error f, t) := by
  unfold await
  rw [Act.perform_bind_ok (perform_say_ok word kept), Act.perform_bind_error pause]

theorem perform_await_passed {p : Progress ε β} {d : Delay} {r : Record} {s t : σ}
    (word : (Phase.waiting p.last d).record name p.state.attempt = .ok r)
    (kept : S.accept r s = .ok ())
    (pause : (S.pause name d).perform (S.emit r s) = (.ok none, t)) :
    (S.await name p d).perform s = (.ok none, t) := by
  unfold await
  rw [Act.perform_bind_ok (perform_say_ok word kept), Act.perform_bind_ok pause]
  rfl

/-- A wait that was cancelled is an abortion, once its record is kept. -/
theorem perform_await_off {p : Progress ε β} {d : Delay} {r : Record} {cause : Failure} {s t : σ}
    (word : (Phase.waiting p.last d).record name p.state.attempt = .ok r)
    (kept : S.accept r s = .ok ())
    (pause : (S.pause name d).perform (S.emit r s) = (.ok (some cause), t)) :
    (S.await name p d).perform s =
      (some <$> S.abort name p.state.attempt cause).perform t := by
  unfold await
  rw [Act.perform_bind_ok (perform_say_ok word kept), Act.perform_bind_ok pause,
    map_eq_pure_bind]

theorem perform_await_cancelled {p : Progress ε β} {d : Delay} {r : Record} {cause : Failure}
    {s t : σ} (word : (Phase.waiting p.last d).record name p.state.attempt = .ok r)
    (kept : S.accept r s = .ok ())
    (pause : (S.pause name d).perform (S.emit r s) = (.ok (some cause), t))
    (said : (S.say name p.state.attempt .waitCancelled).perform t =
      (.ok (), S.said name p.state.attempt .waitCancelled t)) :
    (S.await name p d).perform s =
      (.ok (some (.abortedFor (.text name) cause)),
        S.said name p.state.attempt .waitCancelled t) := by
  rw [perform_await_off S name word kept pause, Act.perform_map, abort, Act.perform_bind_ok said]
  rfl

theorem perform_await_unkeptEnd {p : Progress ε β} {d : Delay} {r : Record} {cause f : Failure}
    {s t : σ} (word : (Phase.waiting p.last d).record name p.state.attempt = .ok r)
    (kept : S.accept r s = .ok ())
    (pause : (S.pause name d).perform (S.emit r s) = (.ok (some cause), t))
    (keep : S.Unkept name p.state.attempt .waitCancelled t f) :
    (S.await name p d).perform s = (.error f, t) := by
  rw [perform_await_off S name word kept pause, Act.perform_map, abort,
    Act.perform_bind_error (perform_say_unkept keep)]
  rfl

theorem awaited (p : Progress ε β) (d : Delay) (s : σ) :
    S.Awaited name p d s ((S.await name p d).perform s) := by
  rcases word : (Phase.waiting p.last d).record name p.state.attempt with f | r
  · rw [perform_await_unworded S name word]
    exact .unworded word
  cases kept : S.accept r s with
  | error f =>
    rw [perform_await_unkept S name ⟨r, word, kept⟩]
    exact .unkept ⟨r, word, kept⟩
  | ok _ =>
    rcases pause : (S.pause name d).perform (S.emit r s) with ⟨f | _ | cause, t⟩
    · rw [perform_await_unpaused S name word kept pause]
      exact .unpaused word pause
    · rw [perform_await_passed S name word kept pause]
      exact .passed word pause
    · obtain ⟨f, keep, -⟩ | said := S.say_cases name p.state.attempt .waitCancelled rfl t
      · rw [perform_await_unkeptEnd S name word kept pause keep]
        exact .unkeptEnd word pause keep
      · rw [perform_await_cancelled S name word kept pause said]
        exact .cancelled word pause

theorem reattempted (p : Progress ε β) (s : σ) :
    S.Reattempted name p s ((S.reattempt name p).perform s) := by
  unfold reattempt
  rcases count : Attempt.next p.state.attempt with f | a
  · simp only [Act.perform_bind, Act.perform_result]
    exact .uncounted count
  obtain ⟨f, keep, lost⟩ | prepared := S.say_cases name a .retrying rfl s
  · simp only [Act.perform_bind, Act.perform_result, lost]
    exact .unkept count keep
  rcases before : S.notify.perform
    (⟨{ p.state with attempt := a }, .beforeRetry⟩, S.said name a .retrying s) with ⟨f | _, n, t⟩
  · simp only [Act.perform_bind, Act.perform_result, prepared, perform_announce, before]
    exact .unannounced count before
  have ann : S.Announced name p s a n t := ⟨count, before⟩
  rcases invoke : S.invoke.perform t with ⟨f | x, u⟩
  · cases hf : f.ordinary with
    | false =>
      simp only [Act.perform_bind, Act.perform_result, prepared, perform_announce, before,
        Act.perform_trial, invoke, hf, Bool.false_eq_true, if_false]
      exact .interrupted ann invoke hf
    | true =>
      rcases after : S.notify.perform (⟨n.state, .failure f⟩, u) with ⟨g | _, m, v⟩
      · simp only [Act.perform_bind, Act.perform_result, prepared, perform_announce, before,
          Act.perform_trial, invoke, hf, if_true, after]
        exact .unblamed ann invoke hf after
      obtain ⟨g, keep, lost⟩ | failed :=
        S.say_cases name m.state.attempt (.retryFailed m.event.error) rfl v
      · simp only [Act.perform_bind, Act.perform_result, prepared, perform_announce, before,
          Act.perform_trial, invoke, hf, if_true, after, lost]
        exact .unkeptFailure ann invoke hf after keep
      · simp only [Act.perform_bind, Act.perform_result, prepared, perform_announce, before,
          Act.perform_trial, invoke, hf, if_true, after, failed]
        exact .failed ann invoke hf after
  · rcases after : S.notify.perform (⟨n.state, .success x⟩, u) with ⟨g | _, m, v⟩
    · simp only [Act.perform_bind, Act.perform_result, prepared, perform_announce, before,
        Act.perform_trial, invoke, after]
      exact .unpraised ann invoke after
    obtain ⟨f, keep, lost⟩ | succeeded := S.say_cases name m.state.attempt .retrySucceeded rfl v
    · simp only [Act.perform_bind, Act.perform_result, prepared, perform_announce, before,
        Act.perform_trial, invoke, after, lost]
      exact .unkeptSuccess ann invoke after keep
    · simp only [Act.perform_bind, Act.perform_result, prepared, perform_announce, before,
        Act.perform_trial, invoke, after, succeeded]
      exact .succeeded ann invoke after

theorem gaveUp (p : Progress ε β) (s : σ) :
    S.GaveUp name p s ((S.giveUp name p).perform s) := by
  unfold giveUp
  obtain ⟨f, keep, lost⟩ | said := S.say_cases name p.state.attempt .exhausted rfl s
  · rw [Act.perform_bind_error lost]
    exact .unkept keep
  rw [Act.perform_bind_ok said, Act.perform_bind, perform_announce]
  rcases tell : S.notify.perform
    (⟨p.state, .exhaustion (.exhaustedFor (.text name) p.first p.later)⟩,
      S.said name p.state.attempt .exhausted s) with ⟨f | _, n, t⟩
  · exact .untold tell
  · exact .told tell

theorem turned (p : Progress ε β) (s : σ) :
    S.Turned name p s ((S.turn name p).perform s) := by
  unfold turn
  have hc := S.consulted name p s
  rcases consult : (S.consult name p).perform s with ⟨f | ⟨_ | d, q⟩, t⟩ <;> rw [consult] at hc
  · rw [Act.perform_bind_error consult]
    exact .unconsulted hc
  · rw [Act.perform_bind_ok consult]
    exact .refused hc
  rw [Act.perform_bind_ok consult]
  have ha := S.awaited name q d t
  rcases await : (S.await name q d).perform t with ⟨f | _ | f, u⟩ <;> rw [await] at ha
  · rw [Act.perform_bind_error await]
    exact .unawaited hc ha
  · rw [Act.perform_bind_ok await]
    exact .reattempted hc ha (S.reattempted name q u)
  · rw [Act.perform_bind_ok await]
    exact .aborted hc ha

theorem began (fuel : Nat) (s : σ) : S.Began name fuel s ((S.run name fuel).perform s) := by
  unfold run
  obtain ⟨f, keep, lost⟩ | started := S.say_cases name 1 .starting rfl s
  · rw [Act.perform_bind_error lost]
    exact .unkept keep
  rw [Act.perform_bind_ok started]
  rcases invoke : S.invoke.perform (S.said name 1 .starting s) with ⟨f | x, t⟩
  · cases hf : f.ordinary with
    | false =>
      simp only [Act.perform_bind, Act.perform_trial, invoke, hf, Bool.false_eq_true, if_false]
      exact .interrupted invoke hf
    | true =>
      obtain ⟨g, keep, lost⟩ | failed := S.say_cases name 1 (.failed f) rfl t
      · simp only [Act.perform_bind, Act.perform_trial, invoke, hf, if_true,
          lost]
        exact .unkeptFailure invoke hf keep
      simp only [begin, Act.perform_bind, Act.perform_trial, invoke, hf, if_true, failed]
      rcases rule : S.openPolicy.perform (S.said name 1 (.failed f) t) with ⟨g | e, u⟩
      · exact .unruled invoke hf rule
      rcases pace : S.openBackoff.perform u with ⟨g | b, v⟩
      · simp only [pace]
        exact .unpaced invoke hf rule pace
      · simp only [pace]
        exact .failed invoke hf rule pace
  · obtain ⟨f, keep, lost⟩ | succeeded := S.say_cases name 1 .succeeded rfl t
    · simp only [Act.perform_bind, Act.perform_trial, invoke, lost]
      exact .unkeptSuccess invoke keep
    · simp only [Act.perform_bind, Act.perform_trial, invoke, succeeded]
      exact .succeeded invoke

/-! ## Turns -/

/-- **All turns.** What a turn keeps (`I`, of the number of turns taken, the progress and
the surroundings) holds when the fuel runs out; and if it gives what is to be shown (`Q`)
wherever a turn does not go on, the turns end in that. -/
theorem turns_invariant {I : Nat → Progress ε β → σ → Prop}
    {Q : Except Failure (Option (Ending α)) × σ → Prop}
    (again : ∀ n p s q t, I n p s → S.Turned name p s (.ok (.again q), t) → I (n + 1) q t)
    (ended : ∀ n p s e t, I n p s → S.Turned name p s (.ok (.ended e), t) → Q (.ok (some e), t))
    (failed : ∀ n p s f t, I n p s → S.Turned name p s (.error f, t) → Q (.error f, t))
    (refused : ∀ n p s q t, I n p s → S.Turned name p s (.ok (.refused q), t) →
      (∀ f u, S.GaveUp name q t (.error f, u) → Q (.error f, u)) ∧
      (∀ f u, S.GaveUp name q t (.ok f, u) → Q (.ok (some (.exhausted f)), u))) :
    ∀ fuel n p s, I n p s →
      Q ((S.turns name fuel p).perform s) ∨
        ∃ q t, (S.turns name fuel p).perform s = (.ok none, t) ∧ I (n + fuel) q t := by
  intro fuel
  induction fuel with
  | zero => exact fun n p s h => .inr ⟨p, s, rfl, h⟩
  | succ fuel ih =>
    intro n p s h
    have ht := S.turned name p s
    unfold turns
    rcases turn : (S.turn name p).perform s with ⟨f | q | q | e, t⟩ <;> rw [turn] at ht
    · rw [Act.perform_bind_error turn]
      exact .inl (failed n p s f t h ht)
    · rw [Act.perform_bind_ok turn, show n + (fuel + 1) = n + 1 + fuel by omega]
      exact ih (n + 1) q t (again n p s q t h ht)
    · rw [Act.perform_bind_ok turn]
      left
      obtain ⟨hfail, htold⟩ := refused n p s q t h ht
      have hg := S.gaveUp name q t
      rcases give : (S.giveUp name q).perform t with ⟨f | f, u⟩ <;> rw [give] at hg
      · rw [Act.perform_bind_error give]
        exact hfail f u hg
      · rw [Act.perform_bind_ok give]
        exact htold f u hg
    · rw [Act.perform_bind_ok turn]
      exact .inl (ended n p s e t h ht)

end Setting

/-! ## Calls in a mode -/

namespace Mode

variable {σ ε β α : Type} (mode : Mode) (S : Setting σ ε β α) {operation : Operation}

theorem perform_run {name : String} (h : operation.displayName = .ok name) (fuel : Nat) (s : σ) :
    (mode.run S operation fuel).perform s =
      (((S.run name fuel).perform s).1.mapError mode.leaving, ((S.run name fuel).perform s).2) := by
  rw [run, perform_bounded, h, ← mode.loop_eq]
  rfl

theorem perform_run_unnamed {f : Failure} (h : operation.displayName = .error f) (fuel : Nat)
    (s : σ) : (mode.run S operation fuel).perform s = (.error (mode.leaving f), s) := by
  rw [run, perform_bounded, h]
  rfl

theorem perform_run_ok {fuel : Nat} {s t : σ} {ending : Option (Ending α)}
    (h : (mode.run S operation fuel).perform s = (.ok ending, t)) :
    ∃ name, operation.displayName = .ok name ∧
      (S.run name fuel).perform s = (.ok ending, t) := by
  rcases hname : operation.displayName with f | name
  · rw [perform_run_unnamed mode S hname, Prod.mk.injEq] at h
    exact absurd h.1 (by simp)
  refine ⟨name, rfl, ?_⟩
  rw [perform_run mode S hname] at h
  rcases hr : (S.run name fuel).perform s with ⟨f | e, u⟩
  · rw [hr, Prod.mk.injEq] at h
    have hno : Except.error (mode.leaving f) = Except.ok ending := h.1
    exact absurd hno (by simp)
  · rw [hr] at h
    exact h

theorem perform_run_blocking {name : String} (h : operation.displayName = .ok name) (fuel : Nat)
    (s : σ) :
    (blocking.run S operation fuel).perform s = (S.run name fuel).perform s := by
  rw [perform_run _ _ h]
  rcases (S.run name fuel).perform s with ⟨_ | _, t⟩ <;> rfl

def delivered : Except Failure (Option (Ending α)) × σ → Except Failure (Option α) × σ
  | (.ok (some ending), t) => ((ending.outcome.mapError mode.leaving).map some, t)
  | (.ok none, t) => (.ok none, t)
  | (.error f, t) => (.error f, t)

theorem delivered_snd (z : Except Failure (Option (Ending α)) × σ) :
    (mode.delivered z).2 = z.2 := by
  obtain ⟨_ | _ | _, t⟩ := z <;> rfl

theorem perform_call (operation : Operation) (fuel : Nat) (s : σ) :
    (mode.call S operation fuel).perform s =
      mode.delivered ((mode.run S operation fuel).perform s) := by
  rw [call, Act.perform_bind]
  rcases (mode.run S operation fuel).perform s with ⟨f | _ | ending, t⟩
  · rfl
  · rfl
  · dsimp only [delivered]
    rw [Act.perform_bind, perform_bounded, Act.perform_result]
    rcases ending.outcome with f | v <;> rfl

end Mode

end Retry
