import Retry.Proofs.Entries

/-!
# Courses

A course lists what an operation, a policy and a backoff do in order, whatever they do it
for: how each invocation ends, each answer, each delay. A setting plays a course if its
collaborators go through it one by one and its listener only watches (`Setting.Plays`).

A call goes on after an attempt if the attempt fails with an ordinary failure, the policy
says yes to it, and the backoff has a delay for it (`Course.GoesOn`). The first attempt
after which it does not go on is the first one that blocks (`Course.FirstBlocking`).

Main statements: `plays_invoke` and the like (what one step of such a setting does, with a
journal), `pause_undisturbed` (a wait that nothing disturbs), `plays_setting` (every
course is played by some setting).
-/

namespace Retry

/-- What an operation, a policy and a backoff do, in order. -/
structure Course (α : Type) where
  outcome : Nat → Except Failure α
  answer : Nat → Bool
  delay : Nat → Delay

namespace Course

variable {α : Type} (c : Course α)

def failure (i : Nat) : Failure :=
  match c.outcome i with
  | .error f => f
  | .ok _ => .missing

/-- The call goes on after an attempt. -/
structure GoesOn (i : Nat) : Prop where
  fails : c.outcome i = .error (c.failure i)
  ordinary : (c.failure i).ordinary = true
  granted : c.answer i = true
  going : Backoff.isStop (c.delay i) = false

/-- The first attempt after which the call does not go on. -/
structure FirstBlocking (i : Nat) : Prop where
  before : ∀ k < i, c.GoesOn k
  blocks : ¬ c.GoesOn i

theorem FirstBlocking.unique {c : Course α} {i k : Nat} (hi : c.FirstBlocking i)
    (hk : c.FirstBlocking k) : i = k := by
  obtain h | h | h := Nat.lt_trichotomy i k
  · exact absurd (hk.before i h) hi.blocks
  · exact h
  · exact absurd (hi.before k h) hk.blocks

def round (i : Nat) : Journal Unit Unit α :=
  [.invoked (c.outcome i), .asked (c.failure i) (.ok true) (), .drawn (.ok (c.delay i)) (),
    .slept (c.delay i) (.ok false)]

/-- What is done in the round that blocks: no more than it takes to find out. -/
def lastRound (i : Nat) : Journal Unit Unit α :=
  .invoked (c.outcome i) ::
    match c.outcome i with
    | .ok _ => []
    | .error f =>
      if f.ordinary then
        .asked f (.ok (c.answer i)) () ::
          if c.answer i then [.drawn (.ok (c.delay i)) ()] else []
      else []

/-- What is done in the rounds before an attempt. -/
def rounds (i : Nat) : Journal Unit Unit α := (List.range i).flatMap c.round

/-- Everything that is done up to the attempt that blocks. -/
def deeds (i : Nat) : Journal Unit Unit α := c.rounds i ++ c.lastRound i

theorem failure_of_error {i : Nat} {f : Failure} (h : c.outcome i = .error f) :
    c.failure i = f := by
  simp only [failure, h]

theorem rounds_succ (i : Nat) : c.rounds (i + 1) = c.rounds i ++ c.round i := by
  simp [rounds, List.range_succ, List.flatMap_append]

end Course

/-! ## Deeds -/

/-- A step that is no record and tells no listener, without the state of the policy and the
backoff. -/
def Moment.deed? {ε β α : Type} : Moment ε β α → Option (Moment Unit Unit α)
  | .invoked r => some (.invoked r)
  | .asked f r _ => some (.asked f r ())
  | .drawn r _ => some (.drawn r ())
  | .slept d r => some (.slept d r)
  | .barred => some .barred
  | _ => none

/-- What was invoked, asked, drawn and slept, in order. -/
abbrev Journal.deeds {ε β α : Type} (j : Journal ε β α) : Journal Unit Unit α :=
  pick Moment.deed? j

@[simp] theorem Journal.deeds_moments {ε β α : Type} (name : String) (attempt : Attempt)
    (phase : Phase) : Journal.deeds (phase.moments name attempt : Journal ε β α) = [] :=
  pick_moments _ (fun _ => rfl) ..

/-! ## Playing a course -/

/-- A setting that goes through a course. `invoked`, `asked` and `drawn` say how far it is:
the surroundings by invocations, an execution by answers, a walk by delays. The policy is
asked about the failure of each attempt in turn, the listener only watches, and the logger keeps
every record. -/
structure Setting.Plays {σ ε β α : Type} (S : Setting σ ε β α) (c : Course α)
    (invoked : Nat → σ → Prop) (asked : Nat → ε → Prop) (drawn : Nat → β → Prop) : Prop where
  accept : ∀ n r s, invoked n s → S.accept r s = .ok ()
  emit : ∀ n r s, invoked n s → invoked n (S.emit r s)
  invoke : ∀ n s, invoked n s → ∃ t, S.invoke.perform s = (c.outcome n, t) ∧ invoked (n + 1) t
  openPolicy : ∀ n s, invoked n s →
    ∃ e t, S.openPolicy.perform s = (.ok e, t) ∧ asked 0 e ∧ invoked n t
  openBackoff : ∀ n s, invoked n s →
    ∃ b t, S.openBackoff.perform s = (.ok b, t) ∧ drawn 0 b ∧ invoked n t
  shouldRetry : ∀ k e s, invoked (k + 1) s → asked k e →
    ∃ e' t, (S.shouldRetry (c.failure k)).perform (e, s) = (.ok (c.answer k), e', t) ∧
      asked (k + 1) e' ∧ invoked (k + 1) t
  nextDelay : ∀ k b s, invoked (k + 1) s → drawn k b →
    ∃ b' t, S.nextDelay.perform (b, s) = (.ok (c.delay k), b', t) ∧
      drawn (k + 1) b' ∧ invoked (k + 1) t
  notify : ∀ n notice s, invoked n s →
    ∃ t, S.notify.perform (notice, s) = (.ok (), notice, t) ∧ invoked n t

/-- The plainest setting that goes through a course: it counts, and nobody listens. -/
def Course.setting {α : Type} (c : Course α) : Setting Nat Nat Nat α where
  accept _ _ := .ok ()
  emit _ n := n
  invoke := .of fun n => (c.outcome n, n + 1)
  openPolicy := .result (.ok 0)
  openBackoff := .result (.ok 0)
  shouldRetry _ := .of fun (k, n) => (.ok (c.answer k), k + 1, n)
  nextDelay := .of fun (k, n) => (.ok (c.delay k), k + 1, n)
  pause _ _ := .result (.ok none)
  notify := .result (.ok ())

theorem Course.plays_setting {α : Type} (c : Course α) :
    c.setting.Plays c (fun n s => s = n) (fun k e => e = k) (fun k b => b = k) where
  accept := fun _ _ _ _ => rfl
  emit := fun _ _ _ h => h
  invoke := fun _ _ h => ⟨_, by rw [h]; rfl, rfl⟩
  openPolicy := fun _ _ h => ⟨0, _, rfl, rfl, h⟩
  openBackoff := fun _ _ h => ⟨0, _, rfl, rfl, h⟩
  shouldRetry := fun _ _ _ hs he => ⟨_, _, by rw [hs, he]; rfl, rfl, rfl⟩
  nextDelay := fun _ _ _ hs hb => ⟨_, _, by rw [hs, hb]; rfl, rfl, rfl⟩
  notify := fun _ _ _ h => ⟨_, rfl, h⟩

/-- No time at all is a delay that can be waited for and written. -/
theorem noTime_going : Backoff.isStop (some (.whole 0)) = false := by decide +kernel

theorem noTime_seconds : ∃ t, Delay.seconds (some (.whole 0)) = .ok t := by
  have h : (Delay.seconds (some (.whole 0))).isOk = true := by decide +kernel
  revert h
  cases Delay.seconds (some (.whole 0)) with
  | ok t => exact fun _ => ⟨t, rfl⟩
  | error f => exact fun h => absurd h Bool.false_ne_true

/-- A delay for which a blocking call sleeps without failing, or waits with a token that is
not cancelled. -/
def Undisturbed {σ : Type} (sleep : Delay → Act σ Unit) (token : Option (Token σ))
    (invoked : Nat → σ → Prop) (d : Delay) : Prop :=
  ∀ n s, invoked n s →
    match token with
    | none => ∃ t, (sleep d).perform s = (.ok (), t) ∧ invoked n t
    | some token => ∃ t u, token.isCancelled.perform s = (.ok false, t) ∧
        (token.await d).perform t = (.ok false, u) ∧ invoked n u

section

open Act

variable {σ ε β α : Type} {S : Setting σ ε β α} {c : Course α} {sleep : Delay → Act σ Unit}
  {token : Option (Token σ)} {invoked : Nat → σ → Prop} {asked : Nat → ε → Prop}
  {drawn : Nat → β → Prop} {name : String} {x y : Journal ε β α × σ}

theorem pause_undisturbed {d : Delay} (h : Undisturbed sleep token invoked d) {n : Nat}
    (hx : invoked n x.2) {r : Except Failure (Option Failure)}
    (hp : ((S.kept (.blocking sleep token)).pause name d).perform x = (r, y)) :
    r = .ok none ∧ y.1 = x.1 ++ [.slept d (.ok false)] ∧ invoked n y.2 := by
  have hd := h n x.2 hx
  cases token with
  | none =>
    obtain ⟨t, ht, hn⟩ := hd
    have pause : (S.kept (.blocking sleep none)).pause name d =
        Wait.ofToken (fun r x => (x.1 ++ [.recorded r], S.emit r x.2))
          (fun d => (sleep d).watched fun r j => j ++ [.slept d (r.map fun _ => false)])
          none name d := rfl
    rw [pause, Wait.ofToken_none, perform_bind, perform_watched, ht] at hp
    obtain ⟨rfl, rfl⟩ := Prod.mk.inj hp
    exact ⟨rfl, rfl, hn⟩
  | some token =>
    obtain ⟨t, u, ht, hu, hn⟩ := hd
    have pause : (S.kept (.blocking sleep (some token))).pause name d =
        Wait.ofToken (fun r x => (x.1 ++ [.recorded r], S.emit r x.2))
          (fun d => (sleep d).watched fun r j => j ++ [.slept d (r.map fun _ => false)])
          (some (token.kept ε β α)) name d := rfl
    have hfound : (token.kept ε β α).isCancelled.perform x = (.ok false, x.1, t) := by
      simp [Token.kept, ht, Journal.found]
    have hslept : ((token.kept ε β α).await d).perform (x.1, t) =
        (.ok false, x.1 ++ [.slept d (.ok false)], u) := by
      simp [Token.kept, hu]
    rw [pause, Wait.ofToken_some, perform_bind_ok hfound, if_neg (by simp), Wait.attended,
      perform_bind_ok hslept, if_neg (by simp)] at hp
    obtain ⟨rfl, rfl⟩ := Prod.mk.inj hp
    exact ⟨rfl, rfl, hn⟩

variable (h : S.Plays c invoked asked drawn)

include h

theorem plays_said {n : Nat} (attempt : Attempt) (phase : Phase) (hx : invoked n x.2) :
    invoked n ((S.kept (.blocking sleep token)).said name attempt phase x).2 ∧
      Journal.deeds ((S.kept (.blocking sleep token)).said name attempt phase x).1 =
        Journal.deeds x.1 := by
  rw [Setting.journaled_said]
  refine ⟨?_, by simp⟩
  unfold Setting.said
  cases phase.record name attempt with
  | ok r => exact h.emit n r _ hx
  | error f => exact hx

theorem plays_kept {n : Nat} {attempt : Attempt} {phase : Phase} {f : Failure}
    (hx : invoked n x.2) :
    ¬ (S.kept (.blocking sleep token)).Unkept name attempt phase x f := by
  rintro ⟨r, -, unkept⟩
  exact absurd ((h.accept n r x.2 hx).symm.trans unkept) (by simp)

theorem plays_invoke {n : Nat} (hx : invoked n x.2) {r : Except Failure α}
    (hp : (S.kept (.blocking sleep token)).invoke.perform x = (r, y)) :
    r = c.outcome n ∧ invoked (n + 1) y.2 ∧
      Journal.deeds y.1 = Journal.deeds x.1 ++ [.invoked (c.outcome n)] := by
  obtain ⟨hy, hq⟩ := Setting.journaled_invoke hp
  obtain ⟨t, ht, hn⟩ := h.invoke n x.2 hx
  obtain ⟨rfl, rfl⟩ := Prod.mk.inj (ht.symm.trans hq)
  exact ⟨rfl, hn, by simp [hy, Moment.deed?]⟩

theorem plays_notify {n : Nat} (hx : invoked n x.2) {m m' : Notice ε α} {r : Except Failure Unit}
    (hp : (S.kept (.blocking sleep token)).notify.perform (m, x) = (r, m', y)) :
    r = .ok () ∧ m' = m ∧ invoked n y.2 ∧ Journal.deeds y.1 = Journal.deeds x.1 := by
  obtain ⟨hy, hs⟩ := Setting.journaled_notify hp
  obtain ⟨t, ht, hn⟩ := h.notify n m x.2 hx
  obtain ⟨rfl, hm⟩ := Prod.mk.inj (ht.symm.trans hs)
  obtain ⟨rfl, rfl⟩ := Prod.mk.inj hm
  exact ⟨rfl, rfl, hn, by simp [hy, Moment.deed?]⟩

theorem plays_shouldRetry {k : Nat} (hx : invoked (k + 1) x.2) {e e' : ε} (he : asked k e)
    {r : Except Failure Bool}
    (hp : ((S.kept (.blocking sleep token)).shouldRetry (c.failure k)).perform (e, x) =
      (r, e', y)) :
    r = .ok (c.answer k) ∧ asked (k + 1) e' ∧ invoked (k + 1) y.2 ∧
      Journal.deeds y.1 = Journal.deeds x.1 ++ [.asked (c.failure k) (.ok (c.answer k)) ()] := by
  obtain ⟨hy, hs⟩ := Setting.journaled_shouldRetry hp
  obtain ⟨_, t, ht, ha, hn⟩ := h.shouldRetry k e x.2 hx he
  obtain ⟨rfl, hm⟩ := Prod.mk.inj (ht.symm.trans hs)
  obtain ⟨rfl, rfl⟩ := Prod.mk.inj hm
  exact ⟨rfl, ha, hn, by simp [hy, Moment.deed?]⟩

theorem plays_nextDelay {k : Nat} (hx : invoked (k + 1) x.2) {b b' : β} (hb : drawn k b)
    {r : Except Failure Delay}
    (hp : (S.kept (.blocking sleep token)).nextDelay.perform (b, x) = (r, b', y)) :
    r = .ok (c.delay k) ∧ drawn (k + 1) b' ∧ invoked (k + 1) y.2 ∧
      Journal.deeds y.1 = Journal.deeds x.1 ++ [.drawn (.ok (c.delay k)) ()] := by
  obtain ⟨hy, hs⟩ := Setting.journaled_nextDelay hp
  obtain ⟨_, t, ht, ha, hn⟩ := h.nextDelay k b x.2 hx hb
  obtain ⟨rfl, hm⟩ := Prod.mk.inj (ht.symm.trans hs)
  obtain ⟨rfl, rfl⟩ := Prod.mk.inj hm
  exact ⟨rfl, ha, hn, by simp [hy, Moment.deed?]⟩

end

/-! ## Reading the deeds -/

theorem Journal.pick_deeds {ε β α γ : Type} {read : Moment ε β α → Option γ}
    {read' : Moment Unit Unit α → Option γ} (h : ∀ m, m.deed?.bind read' = read m)
    (j : Journal ε β α) : pick read' (deeds j) = pick read j := by
  rw [pick, deeds, pick, List.filterMap_filterMap]
  exact congrArg (List.filterMap · j) (funext h)

namespace Course

variable {α : Type} (c : Course α)

theorem endings_deeds (i : Nat) :
    Journal.endings (c.deeds i) = (List.range (i + 1)).map c.outcome := by
  have hlast : Journal.endings (c.lastRound i) = [c.outcome i] := by
    unfold lastRound
    rcases c.outcome i with f | v
    · cases hf : f.ordinary <;> cases c.answer i <;> simp [hf, Moment.ending?]
    · simp [Moment.ending?]
  have hrounds : ∀ i, Journal.endings (c.rounds i) = (List.range i).map c.outcome := by
    intro i
    induction i with
    | zero => rfl
    | succ i ih => simp [rounds_succ, ih, round, Moment.ending?, List.range_succ]
  simp [deeds, hlast, hrounds, List.range_succ]

theorem slept_deeds (i : Nat) : Journal.slept (c.deeds i) = (List.range i).map c.delay := by
  have hlast : Journal.slept (c.lastRound i) = [] := by
    unfold lastRound
    rcases c.outcome i with f | v
    · cases hf : f.ordinary <;> cases c.answer i <;> simp [hf, Moment.slept?]
    · simp [Moment.slept?]
  have hrounds : ∀ i, Journal.slept (c.rounds i) = (List.range i).map c.delay := by
    intro i
    induction i with
    | zero => rfl
    | succ i ih => simp [rounds_succ, ih, round, Moment.slept?, List.range_succ]
  simp [deeds, hlast, hrounds]

end Course

end Retry
