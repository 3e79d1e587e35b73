import Retry.Proofs.Counts
import Retry.Proofs.Events

/-!
# How often a call can try

A call under a policy for `n` attempts, with a backoff for `m` delays, invokes its operation
at most `min n (m + 1)` times and waits at most `min (n - 1) m` times (`allowance`). Its own
counter plays no part in that: a listener may set the number of the attempt as it likes, ask
the execution on its own, fail, or give the template other parts. What bounds the call are
the execution and the walk that it was opened with (`Spent`), and neither counts back.

## Hypotheses

* `Uses`: the call opens the given policy and backoff, and asks them as the library does.
  Records and invocations keep what the opening relies on.
* `Consulting`: the listener does no more to the execution than to ask it.

Main statement: `within_run` (a call keeps within its allowance, and ends with it).
-/

namespace Retry

/-! ## Counting invocations and waits -/

def Moment.isWait {ε β α : Type} : Moment ε β α → Bool
  | .slept _ _ => true
  | .barred => true
  | _ => false

namespace Journal

variable {ε β α : Type}

def waits (j : Journal ε β α) : Nat := j.countP Moment.isWait

@[simp] theorem waits_nil : waits ([] : Journal ε β α) = 0 := rfl

@[simp] theorem waits_append (j l : Journal ε β α) : waits (j ++ l) = waits j + waits l :=
  List.countP_append ..

@[simp] theorem waits_cons (m : Moment ε β α) (j : Journal ε β α) :
    waits (m :: j) = waits j + if m.isWait then 1 else 0 :=
  List.countP_cons ..

@[simp] theorem waits_moments (name : String) (attempt : Attempt) (phase : Phase) :
    waits (phase.moments name attempt : Journal ε β α) = 0 := by
  refine List.countP_eq_zero.mpr fun m hm => ?_
  obtain ⟨r, rfl⟩ := phase.moments_recorded name attempt m hm
  simp [Moment.isWait]

theorem waits_of_attempt {l : Journal ε β α} (h : ∀ m ∈ l, m.OfAttempt) : waits l = 0 := by
  refine List.countP_eq_zero.mpr fun m hm => ?_
  have ha := h m hm
  cases m <;> simp_all [Moment.OfAttempt, Moment.isWait]

/-- How many invocations and waits there were. -/
structure Made (invocations slept : Nat) (j : Journal ε β α) : Prop where
  invoked : (endings j).length = invocations
  waited : waits j = slept

theorem Made.grow {i v : Nat} {j k l : Journal ε β α} (h : j.Made i v) (hk : k = j ++ l)
    (he : Journal.endings l = []) (hw : Journal.waits l = 0) : k.Made i v := by
  subst hk
  exact ⟨by simp [he, h.invoked], by simp [hw, h.waited]⟩

end Journal

section

open Act

variable {σ ε β α : Type} {S : Setting σ ε β α} {w : Waiting σ} {name : String}
  {p q : Progress ε β} {x y : Journal ε β α × σ} {i v : Nat}

theorem waits_paused {d : Delay} {r : Except Failure (Option Failure)} {l : Journal ε β α}
    (h : Paused d r l) : Journal.waits l ≤ 1 ∧ ∀ cause, r = .ok cause → Journal.waits l = 1 := by
  have noted : Journal.waits (Wait.moments d : Journal ε β α) = 0 := by
    refine List.countP_eq_zero.mpr fun m hm => ?_
    obtain ⟨r, -, rfl⟩ := Wait.moments_recorded d m hm
    simp [Moment.isWait]
  cases h with
  | unasked => simp
  | barred => simp [noted, Moment.isWait]
  | slept => simp [Moment.isWait]
  | cancelled => simp [noted, Moment.isWait]

theorem Journal.Made.begin {f : Failure} {e : ε} {b : β} {s : σ} {z : Journal ε β α × σ}
    (invoke : (S.kept w).invoke.perform ((S.kept w).said name 1 .starting ([], s)) =
      (.error f, x))
    (rule : (S.kept w).openPolicy.perform ((S.kept w).said name 1 (.failed f) x) =
      (.ok e, y))
    (pace : (S.kept w).openBackoff.perform y = (.ok b, z)) : z.1.Made 1 0 := by
  obtain ⟨hz, -⟩ := Setting.journaled_openBackoff pace
  have hy := Setting.journaled_first invoke rule
  constructor <;> simp [hz, hy, Moment.ending?, Moment.isWait]

theorem Journal.Made.consulted (h : x.1.Made i v)
    {r : Except Failure (Option Delay × Progress ε β)}
    (hc : (S.kept w).Consulted name p x (r, y)) : y.1.Made i v := by
  rcases r with f | ⟨_ | d, q⟩
  · obtain ⟨_, hy⟩ | ⟨_, _, hy⟩ | ⟨_, _, _, -, hy⟩ := Setting.journaled_unconsulted hc
    · exact h.grow hy rfl rfl
    · exact h.grow hy rfl rfl
    · exact h.grow hy rfl rfl
  · obtain ⟨e, -, hy⟩ | ⟨d, e, b, -, -, hy⟩ := Setting.journaled_refused hc
    · exact h.grow hy rfl rfl
    · exact h.grow hy (by simp [Moment.ending?]) (by simp [Moment.isWait])
  · obtain ⟨-, e, b, -, hy⟩ := Setting.journaled_granted hc
    exact h.grow hy rfl rfl

theorem Journal.Made.awaited (h : x.1.Made i v) {d : Delay} {r : Except Failure (Option Failure)}
    (ha : (S.kept w).Awaited name p d x (r, y)) :
    (endings y.1).length = i ∧ waits y.1 ≤ v + 1 ∧ (r = .ok none → waits y.1 = v + 1) := by
  obtain ⟨l, hy, hl⟩ := Setting.journaled_awaited ha
  refine ⟨by simp [hy, endings_of_wait hl, h.invoked], ?_⟩
  have paused {c : Record} {r : Except Failure (Option Failure)} {y : Journal ε β α × σ}
      (hp : ((S.kept w).pause name d).perform ((S.kept w).emit c x) = (r, y)) :
      waits y.1 ≤ v + 1 ∧ (r = .ok none → waits y.1 = v + 1) := by
    obtain ⟨l, hl, down⟩ := Setting.journaled_paused hp
    obtain ⟨atMost, one⟩ := waits_paused down
    have waited : waits y.1 = v + waits l := by
      simp [hl, Setting.journaled_emit, h.waited, Moment.isWait]
    exact ⟨by omega, fun passed => by rw [waited, one none passed]⟩
  cases ha with
  | unworded => simp [h.waited]
  | unkept => simp [h.waited]
  | unpaused _ pause => exact paused pause
  | passed _ pause => exact paused pause
  | unkeptEnd _ pause => exact ⟨(paused pause).1, by simp⟩
  | cancelled _ pause =>
    obtain ⟨atMost, -⟩ := paused pause
    rw [Setting.journaled_said]
    exact ⟨by simpa using atMost, by simp⟩

theorem Journal.Made.reattempted (h : x.1.Made i v) {r : Except Failure (Turn ε β α)}
    (hr : (S.kept w).Reattempted name p x (r, y)) :
    (endings y.1).length ≤ i + 1 ∧ waits y.1 = v := by
  obtain ⟨l, hy, hl⟩ := Setting.journaled_reattempted hr
  refine ⟨?_, by simp [hy, waits_of_attempt hl, h.waited]⟩
  have told {n m : Notice ε α} {c : Except Failure Unit} {y z : Journal ε β α × σ}
      (h : (S.kept w).notify.perform (n, y) = (c, m, z)) : endings z.1 = endings y.1 := by
    simp [(Setting.journaled_notify h).1, Moment.ending?]
  have invoked {c : Except Failure α} {y z : Journal ε β α × σ}
      (h : (S.kept w).invoke.perform y = (c, z)) :
      (endings z.1).length = (endings y.1).length + 1 := by
    simp [(Setting.journaled_invoke h).1, Moment.ending?]
  have said (a : Attempt) (phase : Phase) (z : Journal ε β α × σ) :
      endings ((S.kept w).said name a phase z).1 = endings z.1 := by
    simp [Setting.journaled_said]
  cases hr with
  | uncounted => simp [h.invoked]
  | unkept => simp [h.invoked]
  | unannounced _ before => simp [told before, said, h.invoked]
  | interrupted before invoke => simp [invoked invoke, told before.tell, said, h.invoked]
  | unpraised before invoke after =>
    simp [told after, invoked invoke, told before.tell, said, h.invoked]
  | unkeptSuccess before invoke after =>
    simp [told after, invoked invoke, told before.tell, said, h.invoked]
  | succeeded before invoke after =>
    simp [told after, invoked invoke, told before.tell, said, h.invoked]
  | unblamed before invoke _ after =>
    simp [told after, invoked invoke, told before.tell, said, h.invoked]
  | unkeptFailure before invoke _ after =>
    simp [told after, invoked invoke, told before.tell, said, h.invoked]
  | failed before invoke _ after =>
    simp [told after, invoked invoke, told before.tell, said, h.invoked]

theorem Journal.Made.again (h : x.1.Made i v)
    (hr : (S.kept w).Reattempted name p x (.ok (.again q), y)) : y.1.Made (i + 1) v := by
  obtain ⟨a, f, n, m, -, -, hy⟩ := Setting.journaled_failed hr
  exact ⟨by simp [hy, h.invoked, Moment.ending?], by simp [hy, h.waited, Moment.isWait]⟩

end

namespace Simulation

/-! ## What a call can spend -/

/-- How often a call can try under a policy for `n` attempts, with a backoff that is limited
or not. -/
def allowance (n : Nat) : Option Nat → Nat
  | none => n
  | some m => min n (m + 1)

theorem lt_allowance {n k : Nat} {limit : Option Nat} :
    k < allowance n limit ↔ k < n ∧ ∀ m, limit = some m → k ≤ m := by
  cases limit with
  | none => simp [allowance]
  | some m =>
    simp only [allowance, Option.some.injEq, forall_eq']
    omega

/-- The call opens this policy and this backoff, and asks them as the library does. `Held` is
what the opening relies on. -/
structure Uses {σ α : Type} (S : Setting σ Execution Pace α) (policy : Policy)
    (backoff : Backoff) (Held : σ → Prop) : Prop where
  emit : ∀ r s, Held s → Held (S.emit r s)
  invoke : ∀ s, Held s → Held (S.invoke.perform s).2
  openPolicy : ∀ s e t, Held s → S.openPolicy.perform s = (.ok e, t) →
    e = policy.start ∧ Held t
  openBackoff : ∀ s b t, Held s → S.openBackoff.perform s = (.ok b, t) →
    b = .limited backoff .start
  shouldRetry : ∀ f e s r e' t, (S.shouldRetry f).perform (e, s) = (r, e', t) → e.Asked f r e'
  nextDelay : ∀ run s r b t, S.nextDelay.perform (.limited backoff run, s) = (r, b, t) →
    ∃ run', backoff.Drawn run r run' ∧ b = .limited backoff run'

/-- The listener does no more to the execution than to ask it, as often as it likes. -/
def Consulting {σ β α : Type} (S : Setting σ Execution β α) : Prop :=
  ∀ n s m t, S.notify.perform (n, s) = (.ok (), m, t) →
    n.state.execution.Consults m.state.execution

section

variable {σ α : Type} {S : Setting σ Execution Pace α} {w : Waiting σ} {policy : Policy}
  {backoff : Backoff} {Held : σ → Prop} {n k : Nat} {limit : Option Nat} {name : String}
  {p q : Progress Execution Pace} {x y : Journal Execution Pace α × σ}

/-- A call that was granted `k` delays: that many failures were let through, that many delays
were given, and it may try once more. -/
structure Spent (n : Nat) (limit : Option Nat) (backoff : Backoff) (k : Nat)
    (p : Progress Execution Pace) : Prop where
  shown : p.state.execution.Shown n k
  walked : ∃ run, p.backoff = .limited backoff run ∧ run.attempts = k
  below : k < allowance n limit

theorem Spent.granted (hb : backoff.maxAttempts = limit.map fun m => .whole m)
    (huses : Uses S policy backoff Held) (h : Spent n limit backoff k p) {d : Delay}
    (hc : (S.kept w).Consulted name p x (.ok (some d, q), y)) :
    Spent n limit backoff (k + 1) q := by
  obtain ⟨run, hrun, rfl⟩ := h.walked
  cases hc with
  | granted ask draw go =>
    obtain ⟨-, hask⟩ := Setting.journaled_shouldRetry ask
    obtain ⟨-, hdraw⟩ := Setting.journaled_nextDelay draw
    rw [hrun] at hdraw
    obtain ⟨hlt, shown⟩ := h.shown.granted (huses.shouldRetry _ _ _ _ _ _ hask)
    obtain ⟨run', drawn, rfl⟩ := huses.nextDelay _ _ _ _ _ hdraw
    obtain ⟨counted, below⟩ := drawn.going hb go
    exact ⟨shown, ⟨run', rfl, counted⟩, lt_allowance.mpr ⟨hlt, below⟩⟩

theorem Spent.again (hlisten : Consulting S) (h : Spent n limit backoff k p)
    (hr : (S.kept w).Reattempted name p x (.ok (.again q), y)) :
    Spent n limit backoff k q := by
  cases hr with
  | failed before invoke plain tell =>
    obtain ⟨-, hbefore⟩ := Setting.journaled_notify before.tell
    obtain ⟨-, htell⟩ := Setting.journaled_notify tell
    have asked := hlisten _ _ _ _ hbefore
    have askedAgain := hlisten _ _ _ _ htell
    exact ⟨(h.shown.consults asked).consults askedAgain, h.walked, h.below⟩

def Within (most : Nat) (j : Journal Execution Pace α) : Prop :=
  (Journal.endings j).length ≤ most ∧ Journal.waits j ≤ most - 1

theorem Spent.within (h : Spent n limit backoff k p) {j : Journal Execution Pace α}
    (hj : j.Made (k + 1) k) : Within (allowance n limit) j := by
  have below := h.below
  constructor
  · rw [hj.invoked]
    omega
  · rw [hj.waited]
    omega

/-- A turn either is granted a delay and one more invocation, or does nothing that counts. -/
theorem Spent.turned (hb : backoff.maxAttempts = limit.map fun m => .whole m)
    (huses : Uses S policy backoff Held) (hlisten : Consulting S)
    (h : Spent n limit backoff k p) (hx : x.1.Made (k + 1) k)
    {r : Except Failure (Turn Execution Pace α)}
    (ht : (S.kept w).Turned name p x (r, y)) :
    Within (allowance n limit) y.1 ∧
      (∀ q, r = .ok (.refused q) → y.1.Made (k + 1) k) ∧
      ∀ q, r = .ok (.again q) → Spent n limit backoff (k + 1) q ∧ y.1.Made (k + 2) (k + 1) := by
  cases ht with
  | unconsulted consult => exact ⟨h.within (hx.consulted consult), by simp, by simp⟩
  | refused consult =>
    exact ⟨h.within (hx.consulted consult), fun _ _ => hx.consulted consult, by simp⟩
  | unawaited consult await =>
    have below := (h.granted hb huses consult).below
    obtain ⟨invoked, waited, -⟩ := (hx.consulted consult).awaited await
    exact ⟨⟨by omega, by omega⟩, by simp, by simp⟩
  | aborted consult await =>
    have below := (h.granted hb huses consult).below
    obtain ⟨invoked, waited, -⟩ := (hx.consulted consult).awaited await
    exact ⟨⟨by omega, by omega⟩, by simp, by simp⟩
  | reattempted consult await reattempt =>
    have spent := h.granted hb huses consult
    have below := spent.below
    obtain ⟨invoked, -, waited⟩ := (hx.consulted consult).awaited await
    have made : Journal.Made (k + 1) (k + 1) _ := ⟨invoked, waited rfl⟩
    obtain ⟨hinvoked, hwaited⟩ := made.reattempted reattempt
    refine ⟨⟨by omega, by omega⟩, ?_, ?_⟩
    · rintro q rfl
      cases reattempt
    · rintro q rfl
      exact ⟨spent.again hlisten reattempt, made.again reattempt⟩

theorem within_turns (hb : backoff.maxAttempts = limit.map fun m => .whole m)
    (huses : Uses S policy backoff Held) (hlisten : Consulting S) (fuel : Nat)
    (h : Spent n limit backoff 0 p) (hx : x.1.Made 1 0) :
    let z := ((S.kept w).turns name fuel p).perform x
    Within (allowance n limit) z.2.1 ∧ (allowance n limit ≤ fuel → z.1 ≠ .ok none) := by
  intro z
  have inv := (S.kept w).turns_invariant name
    (I := fun k p x => Spent n limit backoff k p ∧ x.1.Made (k + 1) k)
    (Q := fun z => Within (allowance n limit) z.2.1 ∧ z.1 ≠ .ok none)
    ?again ?ended ?failed ?refused fuel 0 p x ⟨h, hx⟩
  case again =>
    intro k p x q y hk ht
    exact (hk.1.turned hb huses hlisten hk.2 ht).2.2 q rfl
  case ended =>
    intro k p x e y hk ht
    exact ⟨(hk.1.turned hb huses hlisten hk.2 ht).1, by simp⟩
  case failed =>
    intro k p x f y hk ht
    exact ⟨(hk.1.turned hb huses hlisten hk.2 ht).1, by simp⟩
  case refused =>
    intro k p x q y hk ht
    have made := (hk.1.turned hb huses hlisten hk.2 ht).2.1 q rfl
    have gaveUp {r : Except Failure Failure} {u : Journal Execution Pace α × σ}
        (hg : (S.kept w).GaveUp name q y (r, u)) : Within (allowance n limit) u.1 := by
      obtain hu | ⟨_, _, hu⟩ := Setting.journaled_gaveUp hg
      · exact hk.1.within (hu ▸ made)
      · exact hk.1.within (made.grow hu (by simp [Moment.ending?]) (by simp [Moment.isWait]))
    exact ⟨fun f u hg => ⟨gaveUp hg, by simp⟩, fun f u hg => ⟨gaveUp hg, by simp⟩⟩
  obtain ⟨within, ended⟩ | ⟨q, t, ht, spent, made⟩ := inv
  · exact ⟨within, fun _ => ended⟩
  · rw [show z = _ from ht]
    refine ⟨spent.within made, fun hf => ?_⟩
    have below := spent.below
    omega

theorem within_run (w : Waiting σ) (name : String) (hn : 1 ≤ n) (hp : policy.Permits n)
    (hb : backoff.maxAttempts = limit.map fun m => .whole m)
    (huses : Uses S policy backoff Held) (hlisten : Consulting S) (fuel : Nat) {s : σ}
    (hs : Held s) :
    let z := ((S.kept w).run name fuel).perform ([], s)
    Within (allowance n limit) z.2.1 ∧ (allowance n limit ≤ fuel → z.1 ≠ .ok none) := by
  have some : 0 < allowance n limit := lt_allowance.mpr ⟨hn, fun m _ => Nat.zero_le m⟩
  have once {j : Journal Execution Pace α} (h : j.Made 1 0) : Within (allowance n limit) j :=
    ⟨h.invoked ▸ some, h.waited ▸ Nat.zero_le _⟩
  have began := (S.kept w).began name fuel ([], s)
  intro z
  revert began
  change (S.kept w).Began name fuel ([], s) z → _
  generalize z = z
  intro began
  have tried {r : Except Failure α} {t : Journal Execution Pace α × σ}
      (invoke : (S.kept w).invoke.perform ((S.kept w).said name 1 .starting ([], s)) = (r, t)) :
      t.1.Made 1 0 := by
    have ht := Setting.journaled_tried invoke
    constructor <;> simp [ht, Moment.ending?, Moment.isWait]
  have said {phase : Phase} {t : Journal Execution Pace α × σ} (h : t.1.Made 1 0) :
      ((S.kept w).said name 1 phase t).1.Made 1 0 := by
    rw [Setting.journaled_said]
    exact h.grow rfl (by simp) (by simp)
  cases began with
  | unkept => exact ⟨⟨by simp, by simp⟩, by simp⟩
  | unkeptSuccess invoke => exact ⟨once (tried invoke), by simp⟩
  | unkeptFailure invoke => exact ⟨once (tried invoke), by simp⟩
  | succeeded invoke => exact ⟨once (said (tried invoke)), by simp⟩
  | interrupted invoke => exact ⟨once (tried invoke), by simp⟩
  | unruled invoke _ rule =>
    have hu := Setting.journaled_first invoke rule
    refine ⟨once ⟨?_, ?_⟩, by simp⟩ <;> simp [hu, Moment.ending?, Moment.isWait]
  | unpaced invoke _ rule pace =>
    obtain ⟨hv, -⟩ := Setting.journaled_openBackoff pace
    have hu := Setting.journaled_first invoke rule
    refine ⟨once ⟨?_, ?_⟩, by simp⟩ <;> simp [hv, hu, Moment.ending?, Moment.isWait]
  | @failed f e b t u v invoke plain rule pace =>
    obtain ⟨-, hpace⟩ := Setting.journaled_openBackoff pace
    obtain ⟨-, hrule⟩ := Setting.journaled_openPolicy rule
    obtain ⟨rfl, held⟩ := huses.openPolicy _ _ _
      (Setting.journaled_first_held huses.emit huses.invoke hs invoke) hrule
    obtain rfl := huses.openBackoff _ _ _ held hpace
    exact within_turns hb huses hlisten fuel
      ⟨Execution.shown_start hp, ⟨.start, rfl, rfl⟩, some⟩ (.begin invoke rule pace)

end

end Simulation

end Retry
