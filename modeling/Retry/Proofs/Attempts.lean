import Retry.Proofs.Meddlers

/-!
# A call tries as often as it may

The bound of `Allowance` is reached by a call that nothing hinders: every invocation fails
with a failure that the policy lets through, every delay is given, every wait passes, and
nothing else fails (`Unhindered`). Between turns such a call has used what it was
granted and can go on (`Onward`), so it ends when its allowance is spent, and not before.

Main statement: `attempts_bounded`, with the bound for every listener and the number for
calls that nothing hinders.
-/

namespace Retry

/-- A walk without a limit on its time gives a delay, unless it has given all that a call can
use. -/
theorem Backoff.Provided.cases {b : Backoff} {run run' : Run} {limit : Option Nat}
    {r : Except Failure Delay} (h : b.Provided run r run') (n : Nat)
    (hb : b.maxAttempts = limit.map fun m => .whole m) (untimed : b.maxElapsed = none)
    (going : run.stopped = false) :
    (∃ d, r = .ok d ∧ isStop d = false ∧ (∃ t, d.seconds = .ok t) ∧
      run'.attempts = run.attempts + 1 ∧ run'.stopped = false) ∨
    (r = .ok (some stop) ∧ Simulation.allowance n limit ≤ run.attempts + 1) := by
  by_cases below : ∀ m, limit = some m → run.attempts < m
  · exact .inl (h.going hb untimed going below)
  · obtain ⟨m, hm⟩ := not_forall.mp below
    obtain ⟨rfl, reached⟩ := Classical.not_imp.mp hm
    refine .inr ⟨h.stops hb rfl (Nat.not_lt.mp reached), ?_⟩
    simp only [Simulation.allowance]
    omega

namespace Simulation

/-- The delays that the backoff gives on the walks `Walked`. -/
def Grants {σ α : Type} (S : Setting σ Execution Pace α) (backoff : Backoff) (Fine : σ → Prop)
    (Walked : Backoff.Run → Prop) (d : Delay) : Prop :=
  ∃ run s run' t, Walked run ∧ Fine s ∧ Backoff.isStop d = false ∧
    S.nextDelay.perform (.limited backoff run, s) = (.ok d, .limited backoff run', t)

/-- Nothing hinders the call but that its invocations fail, with failures that the policy lets
through and that can be put in words. No wait for a delay of the backoff is cancelled or
refused, and neither policy, backoff, listener nor logger fails. `Fine` is what the
collaborators rely on, `Failing` are the failures of invocations, `Walked` the walks through
the backoff. -/
structure Unhindered {σ α : Type} (S : Setting σ Execution Pace α) (w : Waiting σ)
    (policy : Policy) (backoff : Backoff) (Fine : σ → Prop) (Failing : Failure → Prop)
    (Walked : Backoff.Run → Prop) : Prop where
  accept : ∀ r s, Fine s → S.accept r s = .ok ()
  emit : ∀ r s, Fine s → Fine (S.emit r s)
  invoke : ∀ s, Fine s → ∃ f t, S.invoke.perform s = (.error f, t) ∧
    Failing f ∧ Fine t
  failing : ∀ f, Failing f → f.ordinary = true ∧ ∃ t, f.text = .ok t
  openPolicy : ∀ s, Fine s → ∃ t, S.openPolicy.perform s = (.ok policy.start, t) ∧ Fine t
  openBackoff : ∀ s, Fine s →
    ∃ t, S.openBackoff.perform s = (.ok (.limited backoff .start), t) ∧ Fine t
  shouldRetry : ∀ k e f s, Fine s → Failing f → e.At policy k →
    ∃ r e' t, (S.shouldRetry f).perform (e, s) = (r, e', t) ∧ e.Approved f r e' ∧ Fine t
  start : Walked .start
  nextDelay : ∀ run s, Fine s → Walked run →
    ∃ r run' t, S.nextDelay.perform (.limited backoff run, s) = (r, .limited backoff run', t) ∧
      backoff.Provided run r run' ∧ Walked run' ∧ Fine t
  untimed : backoff.maxElapsed = none
  pause : ∀ name d s, Fine s → Grants S backoff Fine Walked d →
    ∃ t, (w.pause S.emit name d).perform s = (.ok none, t) ∧ Fine t
  notify : ∀ n s, Fine s → ∃ t, S.notify.perform (n, s) = (.ok (), n, t) ∧ Fine t

section

variable {σ α : Type} {S : Setting σ Execution Pace α} {w : Waiting σ} {policy : Policy}
  {backoff : Backoff} {Fine : σ → Prop} {Failing : Failure → Prop} {Walked : Backoff.Run → Prop}
  {n k : Nat} {limit : Option Nat} {name : String} {p q : Progress Execution Pace}
  {x y : Journal Execution Pace α × σ}

theorem perform_pause_kept {d : Delay} {r : Except Failure (Option Failure)}
    (h : ((S.kept w).pause name d).perform x = (r, y)) :
    (w.pause S.emit name d).perform x.2 = (r, y.2) := by
  have emitted : ∀ r x s, Act.Forgets (Journal Execution Pace α) x s →
      Act.Forgets (Journal Execution Pace α) (x.1 ++ [.recorded r], S.emit r x.2) (S.emit r s) :=
    fun r _ _ h => congrArg (S.emit r) h
  rw [← Journal.forget ((forgets_kept w).pause emitted name d) x.1 x.2]
  exact congrArg (fun z => (z.1, z.2.2)) h

/-- A call that was let through `k` times and can go on. -/
structure Onward (policy : Policy) (backoff : Backoff) (Fine : σ → Prop)
    (Failing : Failure → Prop) (Walked : Backoff.Run → Prop) (k : Nat)
    (p : Progress Execution Pace) (s : σ) : Prop where
  execution : p.state.execution.At policy k
  walk : ∃ run, p.backoff = .limited backoff run ∧ run.attempts = k ∧ run.stopped = false ∧
    Walked run
  last : Failing p.last
  fine : Fine s

theorem Unhindered.said (hfree : Unhindered S w policy backoff Fine Failing Walked)
    (attempt : Attempt) (phase : Phase) (hx : Fine x.2) :
    Fine ((S.kept w).said name attempt phase x).2 := by
  rw [Setting.journaled_said]
  show Fine (S.said name attempt phase x.2)
  unfold Setting.said
  cases phase.record name attempt with
  | ok r => exact hfree.emit r _ hx
  | error f => exact hx

theorem Unhindered.kept (hfree : Unhindered S w policy backoff Fine Failing Walked)
    {attempt : Attempt} {phase : Phase} {f : Failure} (hx : Fine x.2) :
    ¬ (S.kept w).Unkept name attempt phase x f := by
  rintro ⟨r, -, unkept⟩
  exact absurd ((hfree.accept r x.2 hx).symm.trans unkept) (by simp)

theorem Unhindered.told (hfree : Unhindered S w policy backoff Fine Failing Walked)
    {m m' : Notice Execution α} {r : Except Failure Unit} (hx : Fine x.2)
    (h : (S.kept w).notify.perform (m, x) = (r, m', y)) :
    r = .ok () ∧ m' = m ∧ Fine y.2 := by
  obtain ⟨-, hs⟩ := Setting.journaled_notify h
  obtain ⟨t, ht, fine⟩ := hfree.notify m x.2 hx
  obtain ⟨rfl, hm⟩ := Prod.mk.inj (ht.symm.trans hs)
  obtain ⟨rfl, rfl⟩ := Prod.mk.inj hm
  exact ⟨rfl, rfl, fine⟩

theorem Unhindered.invoked (hfree : Unhindered S w policy backoff Fine Failing Walked)
    {r : Except Failure α} (hx : Fine x.2) (h : (S.kept w).invoke.perform x = (r, y)) :
    ∃ f, r = .error f ∧ Failing f ∧ Fine y.2 := by
  obtain ⟨-, hs⟩ := Setting.journaled_invoke h
  obtain ⟨f, t, ht, failing, fine⟩ := hfree.invoke x.2 hx
  obtain ⟨rfl, rfl⟩ := Prod.mk.inj (ht.symm.trans hs)
  exact ⟨_, rfl, failing, fine⟩

theorem Unhindered.ruled (hfree : Unhindered S w policy backoff Fine Failing Walked)
    {r : Except Failure Execution} (hx : Fine x.2)
    (h : (S.kept w).openPolicy.perform x = (r, y)) :
    r = .ok policy.start ∧ Fine y.2 := by
  obtain ⟨-, hs⟩ := Setting.journaled_openPolicy h
  obtain ⟨t, ht, fine⟩ := hfree.openPolicy x.2 hx
  obtain ⟨rfl, rfl⟩ := Prod.mk.inj (ht.symm.trans hs)
  exact ⟨rfl, fine⟩

theorem Unhindered.paced (hfree : Unhindered S w policy backoff Fine Failing Walked)
    {r : Except Failure Pace} (hx : Fine x.2)
    (h : (S.kept w).openBackoff.perform x = (r, y)) :
    r = .ok (.limited backoff .start) ∧ Fine y.2 := by
  obtain ⟨-, hs⟩ := Setting.journaled_openBackoff h
  obtain ⟨t, ht, fine⟩ := hfree.openBackoff x.2 hx
  obtain ⟨rfl, rfl⟩ := Prod.mk.inj (ht.symm.trans hs)
  exact ⟨rfl, fine⟩

/-- Policy and backoff let the call go on, unless its allowance is spent. -/
theorem Onward.consulted (hfree : Unhindered S w policy backoff Fine Failing Walked)
    (hp : policy.Permits n) (hb : backoff.maxAttempts = limit.map fun m => .whole m)
    (h : Onward policy backoff Fine Failing Walked k p x.2)
    {r : Except Failure (Option Delay × Progress Execution Pace)}
    (hc : (S.kept w).Consulted name p x (r, y)) :
    (∃ q, r = .ok (none, q) ∧ allowance n limit ≤ k + 1 ∧ Fine y.2) ∨
      ∃ d q, r = .ok (some d, q) ∧ (∃ t, d.seconds = .ok t) ∧
        Grants S backoff Fine Walked d ∧
        Onward policy backoff Fine Failing Walked (k + 1) q y.2 := by
  obtain ⟨run, hrun, rfl, going, walked⟩ := h.walk
  obtain ⟨a, e', t, hask, approved, fine⟩ := hfree.shouldRetry _ _ _ _ h.fine h.last h.execution
  obtain ⟨rfl, next⟩ := h.execution.approved hp approved
  obtain ⟨b, run', u, hdraw, provided, walked', fine'⟩ := hfree.nextDelay run t fine walked
  have asked {c : Except Failure Bool} {e : Execution} {z : Journal Execution Pace α × σ}
      (ask : ((S.kept w).shouldRetry p.last).perform (p.state.execution, x) = (c, e, z)) :
      c = .ok (decide (run.attempts + 1 < n)) ∧ e = e' ∧ z.2 = t := by
    obtain ⟨-, ask⟩ := Setting.journaled_shouldRetry ask
    simpa [eq_comm] using hask.symm.trans ask
  have drawn {z z' : Journal Execution Pace α × σ} (hz : z.2 = t) {c : Except Failure Delay}
      {g : Pace} (draw : (S.kept w).nextDelay.perform (p.backoff, z) = (c, g, z')) :
      c = b ∧ g = .limited backoff run' ∧ z'.2 = u := by
    obtain ⟨-, draw⟩ := Setting.journaled_nextDelay draw
    rw [hrun, hz] at draw
    simpa [eq_comm] using hdraw.symm.trans draw
  have gives := provided.cases n hb hfree.untimed going
  cases hc with
  | unanswered ask => exact absurd (asked ask).1 (by simp)
  | refused ask =>
    obtain ⟨hno, -, hz⟩ := asked ask
    refine .inl ⟨_, rfl, ?_, hz ▸ fine⟩
    have spent : ¬ run.attempts + 1 < n := by simpa using hno
    cases limit <;> simp only [allowance] <;> omega
  | undrawn ask draw =>
    obtain ⟨-, -, hz⟩ := asked ask
    obtain ⟨rfl, -, -⟩ := drawn hz draw
    obtain ⟨d, hd, -⟩ | ⟨hd, -⟩ := gives <;> exact absurd hd (by simp)
  | unkept ask draw stop keep =>
    obtain ⟨-, -, hz⟩ := asked ask
    obtain ⟨-, -, hu⟩ := drawn hz draw
    exact absurd keep (hfree.kept (hu ▸ fine'))
  | stopped ask draw stop =>
    obtain ⟨-, -, hz⟩ := asked ask
    obtain ⟨rfl, -, hu⟩ := drawn hz draw
    obtain ⟨d, hd, going, -⟩ | ⟨-, spent⟩ := gives
    · rw [Except.ok.inj hd, going] at stop
      exact absurd stop (by simp)
    · exact .inl ⟨_, rfl, spent, hfree.said _ _ (hu ▸ fine')⟩
  | granted ask draw go =>
    obtain ⟨hyes, rfl, hz⟩ := asked ask
    obtain ⟨rfl, rfl, hu⟩ := drawn hz draw
    obtain ⟨d, hd, -, seconds, counted, going⟩ | ⟨hd, -⟩ := gives
    · obtain rfl := Except.ok.inj hd
      have hlt : run.attempts + 1 < n := by simpa using hyes
      exact .inr ⟨_, _, rfl, seconds, ⟨run, t, run', u, walked, fine, go, hdraw⟩, next hlt,
        ⟨run', rfl, counted, going, walked'⟩, h.last, hu ▸ fine'⟩
    · rw [Except.ok.inj hd, Backoff.isStop_stop] at go
      exact absurd go (by simp)

theorem Onward.awaited (hfree : Unhindered S w policy backoff Fine Failing Walked)
    (h : Onward policy backoff Fine Failing Walked k p x.2) {d : Delay}
    (hd : ∃ t, d.seconds = .ok t) (granted : Grants S backoff Fine Walked d)
    {r : Except Failure (Option Failure)} (ha : (S.kept w).Awaited name p d x (r, y)) :
    r = .ok none ∧ Onward policy backoff Fine Failing Walked k p y.2 := by
  have paused {c : Record} {r : Except Failure (Option Failure)}
      {z : Journal Execution Pace α × σ}
      (pause : ((S.kept w).pause name d).perform ((S.kept w).emit c x) = (r, z)) :
      r = .ok none ∧ Fine z.2 := by
    obtain ⟨t, ht, fine⟩ := hfree.pause name d _ (hfree.emit c _ h.fine) granted
    obtain ⟨rfl, rfl⟩ := Prod.mk.inj (ht.symm.trans (perform_pause_kept pause))
    exact ⟨rfl, fine⟩
  cases ha with
  | unworded word =>
    obtain ⟨c, hc⟩ := record_waiting_isOk name p.state.attempt (hfree.failing _ h.last).2 hd
    exact absurd (hc.symm.trans word) (by simp)
  | unkept keep => exact absurd keep (hfree.kept h.fine)
  | unpaused _ pause => exact absurd (paused pause).1 (by simp)
  | passed _ pause => exact ⟨rfl, { h with fine := (paused pause).2 }⟩
  | unkeptEnd _ pause => exact absurd (paused pause).1 (by simp)
  | cancelled _ pause => exact absurd (paused pause).1 (by simp)

theorem Onward.reattempted (hfree : Unhindered S w policy backoff Fine Failing Walked)
    (h : Onward policy backoff Fine Failing Walked k p x.2) {a : Nat}
    (ha : p.state.attempt = .nth a) {r : Except Failure (Turn Execution Pace α)}
    (hr : (S.kept w).Reattempted name p x (r, y)) :
    ∃ q, r = .ok (.again q) ∧ Onward policy backoff Fine Failing Walked k q y.2 := by
  have announced {a : Attempt} {m : Notice Execution α} {t : Journal Execution Pace α × σ}
      (before : (S.kept w).Announced name p x a m t) :
      m = ⟨{ p.state with attempt := a }, .beforeRetry⟩ ∧ Fine t.2 := by
    obtain ⟨-, hm, fine⟩ := hfree.told (hfree.said _ _ h.fine) before.tell
    exact ⟨hm, fine⟩
  cases hr with
  | uncounted count =>
    rw [ha, Attempt.next_nth] at count
    exact absurd count (by simp)
  | unkept _ keep => exact absurd keep (hfree.kept h.fine)
  | unannounced _ tell =>
    exact absurd (hfree.told (hfree.said _ _ h.fine) tell).1 (by simp)
  | interrupted before invoke extra =>
    obtain ⟨-, fine⟩ := announced before
    obtain ⟨f, hf, failing, -⟩ := hfree.invoked fine invoke
    rw [Except.error.inj hf, (hfree.failing f failing).1] at extra
    exact absurd extra (by simp)
  | unpraised before invoke _ =>
    obtain ⟨-, fine⟩ := announced before
    obtain ⟨f, hf, -⟩ := hfree.invoked fine invoke
    exact absurd hf (by simp)
  | unkeptSuccess before invoke _ =>
    obtain ⟨-, fine⟩ := announced before
    obtain ⟨f, hf, -⟩ := hfree.invoked fine invoke
    exact absurd hf (by simp)
  | succeeded before invoke _ =>
    obtain ⟨-, fine⟩ := announced before
    obtain ⟨f, hf, -⟩ := hfree.invoked fine invoke
    exact absurd hf (by simp)
  | unblamed before invoke _ tell =>
    obtain ⟨-, fine⟩ := announced before
    obtain ⟨f, -, -, fine'⟩ := hfree.invoked fine invoke
    exact absurd (hfree.told fine' tell).1 (by simp)
  | unkeptFailure before invoke _ tell keep =>
    obtain ⟨-, fine⟩ := announced before
    obtain ⟨-, -, -, fine'⟩ := hfree.invoked fine invoke
    obtain ⟨-, -, fine''⟩ := hfree.told fine' tell
    exact absurd keep (hfree.kept fine'')
  | failed before invoke _ tell =>
    obtain ⟨rfl, fine⟩ := announced before
    obtain ⟨f, hf, failing, fine'⟩ := hfree.invoked fine invoke
    obtain ⟨-, rfl, fine''⟩ := hfree.told fine' tell
    obtain rfl := Except.error.inj hf
    exact ⟨_, rfl, h.execution, h.walk, failing, hfree.said _ _ fine''⟩

/-- A turn of such a call is one more retry, unless its allowance is spent. -/
theorem Onward.turned (hfree : Unhindered S w policy backoff Fine Failing Walked)
    (hp : policy.Permits n) (hb : backoff.maxAttempts = limit.map fun m => .whole m)
    (h : Onward policy backoff Fine Failing Walked k p x.2) (heard : Heard p x.1)
    {r : Except Failure (Turn Execution Pace α)}
    (ht : (S.kept w).Turned name p x (r, y)) :
    (∃ q, r = .ok (.refused q) ∧ allowance n limit ≤ k + 1 ∧ Fine y.2) ∨
      ∃ q, r = .ok (.again q) ∧ Onward policy backoff Fine Failing Walked (k + 1) q y.2 := by
  cases ht with
  | unconsulted consult =>
    obtain ⟨q, hr, -⟩ | ⟨d, q, hr, -⟩ := h.consulted hfree hp hb consult <;>
      exact absurd hr (by simp)
  | refused consult =>
    obtain ⟨q, hr, spent⟩ | ⟨d, q, hr, -⟩ := h.consulted hfree hp hb consult
    · exact .inl ⟨_, rfl, spent⟩
    · exact absurd hr (by simp)
  | unawaited consult await =>
    obtain ⟨q, hr, -⟩ | ⟨d, q, hr, seconds, granted, onward⟩ := h.consulted hfree hp hb consult
    · exact absurd hr (by simp)
    · obtain ⟨rfl, rfl⟩ : d = _ ∧ q = _ := by simpa using hr.symm
      exact absurd (onward.awaited hfree seconds granted await).1 (by simp)
  | aborted consult await =>
    obtain ⟨q, hr, -⟩ | ⟨d, q, hr, seconds, granted, onward⟩ := h.consulted hfree hp hb consult
    · exact absurd hr (by simp)
    · obtain ⟨rfl, rfl⟩ : d = _ ∧ q = _ := by simpa using hr.symm
      exact absurd (onward.awaited hfree seconds granted await).1 (by simp)
  | reattempted consult await reattempt =>
    obtain ⟨q, hr, -⟩ | ⟨d, q, hr, seconds, granted, onward⟩ := h.consulted hfree hp hb consult
    · exact absurd hr (by simp)
    · obtain ⟨rfl, rfl⟩ : d = _ ∧ q = _ := by simpa using hr.symm
      have count := ((heard.granted consult).awaited await).count
      obtain ⟨-, onward⟩ := onward.awaited hfree seconds granted await
      exact .inr (onward.reattempted hfree count reattempt)

/-- The call spent its whole allowance, and its retries ran out. -/
def Exhausts (most : Nat)
    (z : Except Failure (Option (Retry.Ending α)) × Journal Execution Pace α × σ) : Prop :=
  (∃ e, z.1 = .ok (some (.exhausted e))) ∧ z.2.1.Made most (most - 1)

theorem exhausts_turns (hfree : Unhindered S w policy backoff Fine Failing Walked)
    (hp : policy.Permits n) (hb : backoff.maxAttempts = limit.map fun m => .whole m)
    {Held : σ → Prop} (huses : Uses S policy backoff Held) (hlisten : Consulting S)
    (hobserve : S.Observed) (fuel : Nat) (hfuel : allowance n limit ≤ fuel)
    (spent : Spent n limit backoff 0 p) (made : x.1.Made 1 0) (heard : Heard p x.1)
    (onward : Onward policy backoff Fine Failing Walked 0 p x.2) :
    Exhausts (allowance n limit) (((S.kept w).turns name fuel p).perform x) := by
  have inv := (S.kept w).turns_invariant name
    (I := fun k p x => Spent n limit backoff k p ∧ x.1.Made (k + 1) k ∧ Heard p x.1 ∧
      Onward policy backoff Fine Failing Walked k p x.2)
    (Q := Exhausts (allowance n limit))
    ?again ?ended ?failed ?refused fuel 0 p x ⟨spent, made, heard, onward⟩
  case again =>
    rintro k p x q y ⟨spent, made, heard, onward⟩ ht
    obtain ⟨spent', made'⟩ := (spent.turned hb huses hlisten made ht).2.2 q rfl
    obtain ⟨q', hr, -⟩ | ⟨q', hr, onward'⟩ := onward.turned hfree hp hb heard ht
    · exact absurd hr (by simp)
    · obtain rfl : q = q' := by simpa using hr
      exact ⟨spent', made', heard.again hobserve ht, onward'⟩
  case ended =>
    rintro k p x e y ⟨-, -, heard, onward⟩ ht
    obtain ⟨q, hr, -⟩ | ⟨q, hr, -⟩ := onward.turned hfree hp hb heard ht <;>
      exact absurd hr (by simp)
  case failed =>
    rintro k p x f y ⟨-, -, heard, onward⟩ ht
    obtain ⟨q, hr, -⟩ | ⟨q, hr, -⟩ := onward.turned hfree hp hb heard ht <;>
      exact absurd hr (by simp)
  case refused =>
    rintro k p x q y ⟨spent, made, heard, onward⟩ ht
    obtain ⟨q', -, reached, fine⟩ | ⟨q', hr, -⟩ := onward.turned hfree hp hb heard ht
    · have most : allowance n limit = k + 1 := by
        have below := spent.below
        omega
      have made' := (spent.turned hb huses hlisten made ht).2.1 q rfl
      refine ⟨fun f u hg => ?_, fun f u hg => ⟨⟨f, rfl⟩, ?_⟩⟩
      · cases hg with
        | unkept keep => exact absurd keep (hfree.kept fine)
        | untold tell => exact absurd (hobserve.kept tell).1 (by simp)
      · obtain ⟨_, -, hu⟩ := Setting.journaled_exhausted hg
        rw [most]
        exact made'.grow hu (by simp [Moment.ending?]) (by simp [Moment.isWait])
    · exact absurd hr (by simp)
  obtain exhausts | ⟨q, t, -, spent, -⟩ := inv
  · exact exhausts
  · have below := spent.below
    omega

theorem exhausts_run (name : String)
    (hfree : Unhindered S w policy backoff Fine Failing Walked) (hn : 1 ≤ n)
    (hp : policy.Permits n) (hb : backoff.maxAttempts = limit.map fun m => .whole m)
    {Held : σ → Prop} (huses : Uses S policy backoff Held) (hlisten : Consulting S)
    (hobserve : S.Observed) (fuel : Nat) (hfuel : allowance n limit ≤ fuel) {s : σ}
    (hs : Fine s) :
    Exhausts (allowance n limit) (((S.kept w).run name fuel).perform ([], s)) := by
  have began := (S.kept w).began name fuel ([], s)
  generalize ((S.kept w).run name fuel).perform ([], s) = z at began
  have started : Fine ((S.kept w).said name 1 .starting ([], s)).2 :=
    hfree.said 1 .starting hs
  have invoked {r : Except Failure α} {t : Journal Execution Pace α × σ}
      (invoke : (S.kept w).invoke.perform ((S.kept w).said name 1 .starting ([], s)) =
        (r, t)) : ∃ f, r = .error f ∧ Failing f ∧ Fine t.2 := hfree.invoked started invoke
  cases began with
  | unkept keep => exact absurd keep (hfree.kept hs)
  | unkeptSuccess invoke =>
    obtain ⟨f, hf, -⟩ := invoked invoke
    exact absurd hf (by simp)
  | unkeptFailure invoke _ keep =>
    obtain ⟨-, -, -, fine⟩ := invoked invoke
    exact absurd keep (hfree.kept fine)
  | succeeded invoke =>
    obtain ⟨f, hf, -⟩ := invoked invoke
    exact absurd hf (by simp)
  | interrupted invoke extra =>
    obtain ⟨f, hf, failing, -⟩ := invoked invoke
    rw [Except.error.inj hf, (hfree.failing f failing).1] at extra
    exact absurd extra (by simp)
  | @unruled f _ _ _ invoke _ rule =>
    obtain ⟨-, -, -, fine⟩ := invoked invoke
    exact absurd (hfree.ruled (hfree.said 1 (.failed f) fine) rule).1 (by simp)
  | @unpaced f _ _ _ _ _ invoke _ rule pace =>
    obtain ⟨-, -, -, fine⟩ := invoked invoke
    obtain ⟨-, fine'⟩ := hfree.ruled (hfree.said 1 (.failed f) fine) rule
    exact absurd (hfree.paced fine' pace).1 (by simp)
  | @failed f e b t u v invoke plain rule pace =>
    obtain ⟨f', hf, failing, fine⟩ := invoked invoke
    obtain rfl := Except.error.inj hf
    obtain ⟨he, fine'⟩ := hfree.ruled (hfree.said 1 (.failed f) fine) rule
    obtain rfl := Except.ok.inj he
    obtain ⟨hbackoff, fine''⟩ := hfree.paced fine' pace
    obtain rfl := Except.ok.inj hbackoff
    have heard : Heard (.opening name f policy.start (.limited backoff .start)) v.1 :=
      .begin plain invoke rule pace
    exact exhausts_turns hfree hp hb huses hlisten hobserve fuel hfuel
      ⟨Execution.shown_start hp, ⟨.start, rfl, rfl⟩,
        lt_allowance.mpr ⟨hn, fun m _ => Nat.zero_le m⟩⟩ (.begin invoke rule pace) heard
      ⟨Execution.at_start hp, ⟨.start, rfl, rfl, rfl, hfree.start⟩, failing, fine''⟩

end

/-- **How often a call tries.** Under a policy for `n` attempts, with a backoff that is limited
to `m` delays or not limited, and whatever the listener does but to ask the execution, a call
invokes its operation at most `min n (m + 1)` times, waits at most once less, and ends. If
nothing hinders it and the listener only observes, it invokes the operation exactly that
often, and fails with an error that counts so many attempts. -/
theorem attempts_bounded {σ α : Type} (S : Setting σ Execution Pace α) (w : Waiting σ) (n : Nat)
    (limit : Option Nat) (policy : Policy) (backoff : Backoff) (Held : σ → Prop) (hn : 1 ≤ n)
    (hp : policy.Permits n) (hb : backoff.maxAttempts = limit.map fun m => .whole m)
    (huses : Uses S policy backoff Held) (hlisten : Consulting S) (operation : Operation)
    (fuel : Nat) (s : σ) (hs : Held s) :
    let x := (w.mode.call (S.kept w) operation fuel).perform ([], s)
    let most := allowance n limit
    (Journal.endings x.2.1).length ≤ most ∧ Journal.waits x.2.1 ≤ most - 1 ∧
    (most ≤ fuel → x.1 ≠ .ok none) ∧
    ∀ Fine Failing Walked, Unhindered S w policy backoff Fine Failing Walked → Fine s →
      S.Observed → (∃ name, operation.displayName = .ok name) → most ≤ fuel →
      (Journal.endings x.2.1).length = most ∧ Journal.waits x.2.1 = most - 1 ∧
      ∃ e, x.1 = .error e ∧ e.attempts? = some most := by
  intro x most
  have hx : x = w.mode.delivered ((w.mode.run (S.kept w) operation fuel).perform ([], s)) :=
    w.mode.perform_call _ operation fuel ([], s)
  clear_value x
  rcases hname : operation.displayName with f | name
  · rw [Mode.perform_run_unnamed _ _ hname] at hx
    subst hx
    exact ⟨Nat.zero_le _, Nat.zero_le _, by simp [Mode.delivered],
      fun _ _ _ _ _ _ ⟨name, h⟩ => absurd h (by simp)⟩
  rw [Mode.perform_run _ _ hname] at hx
  have within := within_run w name hn hp hb huses hlisten fuel hs
  have heard (h : S.Observed) := HeardOut.run h w name fuel s
  have exhausts {Fine Failing Walked}
      (hfree : Unhindered S w policy backoff Fine Failing Walked) (hfine : Fine s)
      (hobserve : S.Observed) (hfuel : most ≤ fuel) :=
    exhausts_run name hfree hn hp hb huses hlisten hobserve fuel hfuel hfine
  change x = w.mode.delivered ((((S.kept w).run name fuel).perform ([], s)).1.mapError
    w.mode.leaving, (((S.kept w).run name fuel).perform ([], s)).2) at hx
  generalize ((S.kept w).run name fuel).perform ([], s) = z at within heard exhausts hx
  obtain ⟨⟨invoked, waited⟩, ended⟩ := within
  have hj : x.2 = z.2 := by rw [hx, Mode.delivered_snd]
  refine ⟨hj ▸ invoked, hj ▸ waited, fun hfuel => ?_,
    fun Fine Failing Walked hfree hfine hobserve _ hfuel => ?_⟩
  · have h := ended hfuel
    rw [hx]
    rcases z with ⟨f | _ | ending, t⟩
    · simp [Mode.delivered, Except.mapError]
    · exact absurd rfl h
    · rcases ho : ending.outcome with f | v <;>
        simp [Mode.delivered, Except.mapError, Except.map, ho]
  · obtain ⟨⟨e, he⟩, made⟩ := exhausts hfree hfine hobserve hfuel
    obtain ⟨first, later, hends, -, rfl⟩ := (heard hobserve).exhausted e he
    refine ⟨hj ▸ made.invoked, hj ▸ made.waited, .exhaustedFor (.text name) first later, ?_, ?_⟩
    · rw [hx, he]
      show (Except.error (w.mode.leaving (.exhaustedFor (.text name) first later)) :
        Except Failure (Option α)) = _
      rw [leaving_exhaustedFor]
    · have count := made.invoked
      rw [hends] at count
      simp [Failure.exhaustedFor, Failure.exhaustedWith, Failure.attempts?, most, ← count]

/-- A backoff for one delay of no time at all. -/
def brief : Backoff where
  calculate _ draws := (.ok (some (.double (.zero false))), draws)
  maxAttempts := some (.whole 1)
  maxElapsed := none
  text := "brief"

/-- A listener that sets the number of the attempt back to one, asks the execution on its own,
and has policy and backoff replaced. -/
def meddler : Leaf :=
  .recorder 1 "meddler" [.on "before_retry" none
    [.setAttempt 1, .consult (.of .valueError "again"), .setPolicy (some (.ok (.count ⟨9⟩))),
      .setBackoff (some (.ok (.scripted [])))] none]

/-- A template for three attempts, with somebody who listens. -/
def trusting (leaf : Leaf) : Template Policy Pacing (Listener Leaf) :=
  ⟨.count ⟨3⟩, .limited brief, .leaf leaf⟩

def meddledWorld : World := { template? := some (trusting meddler) }

/-- A template of its own that nobody listens to. -/
def solitary : Source := .own (trusting (.silent 1))

def outage (source : Source) : Manner :=
  { mode := .blocking, source, token := none, arguments := {} }

def broken : List (Act World Datum) := [throw (.of .valueError "boom")]

/-- The setting of a call of such an operation. -/
def Source.inOutage (source : Source) : Setting Stage Execution Pace Datum :=
  (outage source).setting ((outage source).invoke broken)

theorem perform_inOutage (source : Source) (s : Stage) :
    source.inOutage.invoke.perform s =
      (.error (.of .valueError "boom"), s.1 ++ [(outage source).arguments], s.2) := by
  have entry : entryOf broken s.1.length = .ok (throw (.of .valueError "boom")) := by
    have first : min (s.1.length : Int) (broken.length - 1) = 0 :=
      Int.min_eq_right (Int.natCast_nonneg _)
    rw [entryOf, first]
    rfl
  simp only [Source.inOutage, Manner.setting, Manner.invoke, Act.perform_of, entry]
  rfl

theorem uses_inOutage (source : Source) :
    Uses source.inOutage (.count ⟨3⟩) brief ((outage source).Offers (.count ⟨3⟩) brief) :=
  Manner.uses_setting _ fun s h => by
    rw [show (outage source).invoke broken = source.inOutage.invoke from rfl,
      perform_inOutage]
    exact h.of_template rfl

theorem added_double (x y : Binary64) :
    Delay.addedTo (.double x) "+=" (some (.double y)) = .ok (.double (x.add y)) := rfl

def Patient (s : Stage) : Prop := s.2.refusals = .none ∧ ∀ r, s.2.refuse r = none

theorem Patient.of_rest {s : Stage} {w : World} (h : Patient s) (same : w.rest = s.2.rest) :
    Patient (s.1, w) :=
  ⟨(congrArg World.refusals same).trans h.1,
    fun r => (congrFun (World.refuse_of_rest same) r).trans (h.2 r)⟩

theorem Patient.keepAll {s : Stage} (h : Patient s) (notes : List Record) (draws : Draws) :
    Patient (s.1, notes.foldl World.keep { s.2 with draws }) :=
  Patient.of_rest (s := (s.1, { s.2 with draws })) h (World.keepAll_rest notes _)

theorem perform_pause_patient {s : Stage} (h : Patient s) (source : Source) (name : String)
    (d : Delay) : ((outage source).waiting.pause source.inOutage.emit name d).perform s =
      (.ok none, s.1, s.2.noteWait d) := by
  have slept : (Manner.inWorld (World.sleep d)).perform s = (.ok (), s.1, s.2.noteWait d) := by
    simp only [Manner.inWorld, Act.perform_zoom, World.sleep, Act.perform_of,
      show s.2.refusals = .none from h.1]
    rfl
  rw [show (outage source).waiting.pause source.inOutage.emit name d = _ from
    Wait.ofToken_none _ _ name d, Act.perform_bind_ok slept]
  rfl

/-- Nothing hinders a call that is listened to by a silent leaf. -/
theorem unhindered_inOutage :
    Unhindered solitary.inOutage (outage solitary).waiting (.count ⟨3⟩) brief Patient
      (fun f => f = .of .valueError "boom") (fun run => ∃ x, run.elapsed = .double x) where
  accept := fun r _ h => World.accept_kept h.2 r
  emit := fun r _ h => h.of_rest (World.keep_rest _ r)
  invoke := fun s h => ⟨_, _, perform_inOutage _ s, rfl, h⟩
  failing := by
    rintro f rfl
    exact ⟨rfl, "boom", rfl⟩
  openPolicy := fun s h => ⟨s, rfl, h⟩
  openBackoff := fun s h => ⟨s, rfl, h⟩
  shouldRetry := by
    intro k e f s hs _ he
    refine ⟨_, _, _, rfl, ?_, hs.of_rest (World.keepAll_rest _ _)⟩
    cases e with
    | count e => exact ⟨fun _ => .ok true, trivial, rfl, rfl⟩
    | selective e => obtain ⟨⟨_, hp⟩, -⟩ := he; exact absurd hp (by simp)
    | scripted answers calls => exact he.elim
  start := ⟨_, rfl⟩
  nextDelay := by
    rintro run s hs ⟨x, hx⟩
    have gives : brief.Gives run s.2.draws (some (.double (.zero false))) :=
      ⟨rfl, by decide +kernel, ⟨_, rfl⟩, _, by rw [hx]; exact added_double x _⟩
    refine ⟨_, _, _, rfl, ⟨brief.calculate, s.2.draws, _, gives, rfl, rfl⟩, ?_,
      hs.keepAll _ _⟩
    obtain h | ⟨d, hd, h⟩ := brief.next_elapsed run s.2.draws
    · exact ⟨x, h.trans hx⟩
    · obtain rfl := Except.ok.inj hd
      rw [hx, added_double] at h
      exact ⟨_, (Except.ok.inj h).symm⟩
  untimed := rfl
  pause := fun name d s h _ => ⟨_, perform_pause_patient h _ name d, h⟩
  notify := fun n s h => by
    have told : ∃ u, solitary.inOutage.notify.perform (n, s) = (.ok (), n, s.1, u) ∧
        u.rest = s.2.rest ∧ u.template? = s.2.template? :=
      Manner.perform_notify_observing rfl rfl (.silent 1) _ n s
    obtain ⟨u, hu, rest, -⟩ := told
    exact ⟨_, hu, h.of_rest rest⟩

def outageCall (source : Source) (w : World) :
    Except Failure (Option Datum) × Journal Execution Pace Datum × Stage :=
  ((outage source).waiting.mode.call (source.inOutage.kept (outage source).waiting)
    (.function "fetch") 2).perform ([], [], w)

/-- The bound is two tries, since the backoff gives one delay only. A listener that asks on its
own and replaces all of that does not lift it. -/
theorem attempts_bounded_outage :
    (Journal.endings (outageCall .shared meddledWorld).2.1).length ≤ 2 ∧
    (Journal.endings (outageCall solitary .blank).2.1).length = 2 ∧
    Journal.waits (outageCall solitary .blank).2.1 = 1 ∧
    ∃ e, (outageCall solitary .blank).1 = .error e ∧ e.attempts? = some 2 := by
  have limited : brief.maxAttempts = (some 1).map fun m : Nat => .whole m := rfl
  have asking (source : Source) : Consulting source.inOutage := Manner.consulting_setting _ _
  have observed : solitary.inOutage.Observed := Manner.observed_setting rfl rfl (.silent 1) _
  obtain ⟨meddled, -⟩ := attempts_bounded Source.shared.inOutage (outage .shared).waiting 3 (some 1)
    (.count ⟨3⟩) brief _ (by decide) rfl limited (uses_inOutage .shared) (asking .shared)
    (.function "fetch") 2 ([], meddledWorld) ⟨rfl, rfl⟩
  obtain ⟨-, -, -, exactly⟩ := attempts_bounded solitary.inOutage (outage solitary).waiting 3
    (some 1) (.count ⟨3⟩) brief _ (by decide) rfl limited (uses_inOutage _) (asking _)
    (.function "fetch") 2 ([], .blank) ⟨rfl, rfl⟩
  unfold outageCall
  exact ⟨meddled, exactly _ _ _ unhindered_inOutage ⟨rfl, fun _ => rfl⟩ observed ⟨"fetch", rfl⟩
    (Nat.le_refl 2)⟩

end Simulation

end Retry
