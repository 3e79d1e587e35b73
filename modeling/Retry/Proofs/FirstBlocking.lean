import Retry.Proofs.Course

/-!
# The first attempt that blocks

The first attempt that blocks decides everything about a call: what was invoked, asked,
drawn and slept, in which order, and how the call ends. Between two turns a call has done
some rounds that went on, and one more invocation that failed (`Rounds`); a turn finds out
whether that round goes on too (`turned_rounds`).

Main statement: `first_blocking`.
-/

namespace Retry

namespace Course

variable {α : Type} (c : Course α)

/-- How the call ends after the attempt that blocks. -/
def ending (name : String) (i : Nat) : Except Failure (Ending α) :=
  match c.outcome i with
  | .ok v => .ok (.returned v)
  | .error f =>
    if f.ordinary then
      .ok (.exhausted (.exhaustedFor (.text name) (c.failure 0)
        ((List.range i).map fun k => c.failure (k + 1))))
    else .error f

def result (name : String) (i : Nat) : Except Failure α :=
  match c.outcome i with
  | .ok v => .ok v
  | .error f =>
    if f.ordinary then
      .error (.exhaustedFor (.text name) (c.failure 0)
        ((List.range i).map fun k => c.failure (k + 1)))
    else .error f

theorem delivered_ending (name : String) (i : Nat) {σ : Type} (s : σ) :
    Mode.blocking.delivered ((c.ending name i).map some, s) = ((c.result name i).map some, s) := by
  unfold ending result
  rcases c.outcome i with f | v
  · cases hf : f.ordinary with
    | true =>
      simp only [hf, if_true]
      rfl
    | false =>
      simp only [hf, Bool.false_eq_true, if_false]
      rfl
  · rfl

end Course

/-! ## Rounds -/

/-- Where a call is after `n` rounds that went on and one more invocation that failed. -/
structure Rounds {σ ε β α : Type} (c : Course α) (invoked : Nat → σ → Prop)
    (asked : Nat → ε → Prop) (drawn : Nat → β → Prop) (n : Nat) (p : Progress ε β)
    (x : Journal ε β α × σ) : Prop where
  before : ∀ k < n, c.GoesOn k
  fails : c.outcome n = .error (c.failure n)
  ordinary : (c.failure n).ordinary = true
  first : p.first = c.failure 0
  later : p.later = (List.range n).map fun k => c.failure (k + 1)
  last : p.last = c.failure n
  attempt : p.state.attempt = .number (.whole (n + 1))
  execution : asked n p.state.execution
  walk : drawn n p.backoff
  surroundings : invoked (n + 1) x.2
  deeds : Journal.deeds x.1 = c.rounds n ++ [.invoked (c.outcome n)]

/-- What a call can say in words: why it waits and how long. -/
def Course.Speakable {α : Type} (c : Course α) : Prop :=
  ∀ k, c.GoesOn k → (∃ t, (c.failure k).text = .ok t) ∧ ∃ t, (c.delay k).seconds = .ok t

theorem record_waiting_isOk (name : String) (attempt : Attempt) {f : Failure} {d : Delay}
    (hf : ∃ t, f.text = .ok t) (hd : ∃ t, d.seconds = .ok t) :
    ∃ r, (Phase.waiting f d).record name attempt = .ok r := by
  obtain ⟨t, ht⟩ := hf
  obtain ⟨u, hu⟩ := hd
  exact ⟨_, by simp only [Phase.record, Phase.message, ht, hu]; rfl⟩

section

variable {σ ε β α : Type} {S : Setting σ ε β α} {c : Course α} {sleep : Delay → Act σ Unit}
  {token : Option (Token σ)} {invoked : Nat → σ → Prop} {asked : Nat → ε → Prop}
  {drawn : Nat → β → Prop} {name : String} {n : Nat} {p q : Progress ε β}
  {x y : Journal ε β α × σ}
  (h : S.Plays c invoked asked drawn)

include h

theorem consulted_rounds (hn : Rounds c invoked asked drawn n p x)
    {r : Except Failure (Option Delay × Progress ε β)}
    (hc : (S.kept (.blocking sleep token)).Consulted name p x (r, y)) :
    invoked (n + 1) y.2 ∧
      ((¬ c.GoesOn n ∧ (∃ q, r = .ok (none, q) ∧ q.first = p.first ∧ q.later = p.later) ∧
          Journal.deeds y.1 = c.rounds n ++ c.lastRound n) ∨
        (c.GoesOn n ∧ (∃ e b, r = .ok (some (c.delay n), (p.asked e).drawn b) ∧
            asked (n + 1) e ∧ drawn (n + 1) b) ∧
          Journal.deeds y.1 = c.rounds n ++ [.invoked (c.outcome n),
            .asked (c.failure n) (.ok true) (), .drawn (.ok (c.delay n)) ()])) := by
  have ask {e : ε} {t : Journal ε β α × σ} {r : Except Failure Bool}
      (hp : ((S.kept (.blocking sleep token)).shouldRetry p.last).perform
        (p.state.execution, x) = (r, e, t)) :=
    plays_shouldRetry h hn.surroundings hn.execution (hn.last ▸ hp)
  have hlast : c.lastRound n =
      .invoked (c.outcome n) :: .asked (c.failure n) (.ok (c.answer n)) () ::
      if c.answer n then [.drawn (.ok (c.delay n)) ()] else [] := by
    simp only [Course.lastRound, hn.fails, hn.ordinary, if_true]
  cases hc with
  | unanswered hp => exact absurd (ask hp).1 (by simp)
  | @refused e _ hp =>
    obtain ⟨ha, -, ht, hd⟩ := ask hp
    have hno : c.answer n = false := (Except.ok.inj ha).symm
    refine ⟨ht, .inl ⟨fun hgo => ?_, ⟨_, rfl, rfl, rfl⟩, ?_⟩⟩
    · rw [hgo.granted] at hno
      exact absurd hno (by simp)
    · rw [hd, hn.deeds, hlast, hno]
      simp
  | undrawn hp draw =>
    obtain ⟨-, -, ht, -⟩ := ask hp
    exact absurd (plays_nextDelay h ht hn.walk draw).1 (by simp)
  | unkept hp draw _ keep =>
    obtain ⟨-, -, ht, -⟩ := ask hp
    exact absurd keep (plays_kept h (plays_nextDelay h ht hn.walk draw).2.2.1)
  | @stopped d e b t u hp draw stop =>
    obtain ⟨ha, -, ht, hd⟩ := ask hp
    have hyes : c.answer n = true := (Except.ok.inj ha).symm
    obtain ⟨hdelay, -, hu, hdeeds⟩ := plays_nextDelay h ht hn.walk draw
    obtain rfl : d = c.delay n := Except.ok.inj hdelay
    obtain ⟨hy, hsaid⟩ := plays_said h p.state.attempt .backoffStopped hu
    refine ⟨hy, .inl ⟨fun hgo => ?_, ⟨_, rfl, rfl, rfl⟩, ?_⟩⟩
    · rw [hgo.going] at stop
      exact absurd stop (by simp)
    · rw [hsaid, hdeeds, hd, hn.deeds, hlast, hyes]
      simp
  | @granted d e b t u hp draw go =>
    obtain ⟨ha, he, ht, hd⟩ := ask hp
    have hyes : c.answer n = true := (Except.ok.inj ha).symm
    obtain ⟨hdelay, hb, hu, hdeeds⟩ := plays_nextDelay h ht hn.walk draw
    obtain rfl : d = c.delay n := Except.ok.inj hdelay
    refine ⟨hu, .inr ⟨⟨hn.fails, hn.ordinary, hyes, go⟩, ⟨e, b, rfl, he, hb⟩, ?_⟩⟩
    rw [hdeeds, hd, hn.deeds, hyes]
    simp

theorem awaited_rounds (hwords : c.Speakable)
    (hwait : ∀ k, c.GoesOn k → Undisturbed sleep token invoked (c.delay k)) (hgo : c.GoesOn n)
    (hq : q.last = c.failure n) {m : Nat} (hx : invoked m x.2)
    {r : Except Failure (Option Failure)}
    (ha : (S.kept (.blocking sleep token)).Awaited name q (c.delay n) x (r, y)) :
    r = .ok none ∧ invoked m y.2 ∧
      Journal.deeds y.1 = Journal.deeds x.1 ++ [.slept (c.delay n) (.ok false)] := by
  obtain ⟨hf, hd⟩ := hwords n hgo
  have hsaid (r : Record) := h.emit m r x.2 hx
  cases ha with
  | unworded word =>
    obtain ⟨r, hr⟩ := record_waiting_isOk name q.state.attempt (hq ▸ hf) hd
    exact absurd (hr.symm.trans word) (by simp)
  | unkept keep => exact absurd keep (plays_kept h hx)
  | @unpaused r _ _ _ pause =>
    exact absurd (pause_undisturbed (hwait n hgo) (hsaid r) pause).1 (by simp)
  | @passed r _ _ pause =>
    obtain ⟨-, hy, hm⟩ := pause_undisturbed (hwait n hgo) (hsaid r) pause
    exact ⟨rfl, hm, by simp [hy, Setting.journaled_emit, Moment.deed?]⟩
  | @unkeptEnd r _ _ _ _ pause =>
    exact absurd (pause_undisturbed (hwait n hgo) (hsaid r) pause).1 (by simp)
  | @cancelled r _ _ _ pause =>
    exact absurd (pause_undisturbed (hwait n hgo) (hsaid r) pause).1 (by simp)

/-- The next invocation ends as the course says, and nothing else happens. -/
theorem reattempted_rounds {m : Int} (hq : q.state.attempt = .number (.whole m)) {k : Nat}
    (hx : invoked k x.2) {r : Except Failure (Turn ε β α)}
    (hr : (S.kept (.blocking sleep token)).Reattempted name q x (r, y)) :
    invoked (k + 1) y.2 ∧
      Journal.deeds y.1 = Journal.deeds x.1 ++ [.invoked (c.outcome k)] ∧
      ((∃ v, c.outcome k = .ok v ∧ r = .ok (.ended (.returned v))) ∨
        (∃ f, c.outcome k = .error f ∧ f.ordinary = false ∧ r = .error f) ∨
        ∃ f, c.outcome k = .error f ∧ f.ordinary = true ∧
          r = .ok (.again (q.failed { q.state with attempt := .number (.whole (m + 1)) } f))) := by
  have count : Attempt.next q.state.attempt = .ok (.number (.whole (m + 1))) := by
    rw [hq, Attempt.next_whole]
  have announced {a : Attempt} {l : Notice ε α} {t : Journal ε β α × σ}
      (before : (S.kept (.blocking sleep token)).Announced name q x a l t) :
      a = .number (.whole (m + 1)) ∧ l = ⟨{ q.state with attempt := a }, .beforeRetry⟩ ∧
        invoked k t.2 ∧ Journal.deeds t.1 = Journal.deeds x.1 := by
    obtain ⟨hsaid, hdeeds⟩ := plays_said h a .retrying hx
    obtain ⟨-, hl, ht, hd⟩ := plays_notify h hsaid before.tell
    exact ⟨Except.ok.inj (before.count.symm.trans count), hl, ht, hd.trans hdeeds⟩
  cases hr with
  | uncounted hno => exact absurd (count.symm.trans hno) (by simp)
  | unkept _ keep => exact absurd keep (plays_kept h hx)
  | @unannounced a _ _ _ _ tell =>
    exact absurd (plays_notify h (plays_said h a .retrying hx).1 tell).1 (by simp)
  | interrupted before invoke extra =>
    obtain ⟨rfl, rfl, ht, hd⟩ := announced before
    obtain ⟨hf, hu, hdeeds⟩ := plays_invoke h ht invoke
    exact ⟨hu, by rw [hdeeds, hd], .inr (.inl ⟨_, hf.symm, extra, rfl⟩)⟩
  | unpraised before invoke tell =>
    obtain ⟨rfl, rfl, ht, hd⟩ := announced before
    obtain ⟨-, hu, -⟩ := plays_invoke h ht invoke
    exact absurd (plays_notify h hu tell).1 (by simp)
  | unkeptSuccess before invoke tell keep =>
    obtain ⟨rfl, rfl, ht, -⟩ := announced before
    obtain ⟨-, hu, -⟩ := plays_invoke h ht invoke
    exact absurd keep (plays_kept h (plays_notify h hu tell).2.2.1)
  | succeeded before invoke tell =>
    obtain ⟨rfl, rfl, ht, hd⟩ := announced before
    obtain ⟨hv, hu, hdeeds⟩ := plays_invoke h ht invoke
    obtain ⟨-, rfl, hw, hsame⟩ := plays_notify h hu tell
    obtain ⟨hy, hsaid⟩ := plays_said h (.number (.whole (m + 1))) .retrySucceeded hw
    exact ⟨hy, hsaid.trans (by rw [hsame, hdeeds, hd]), .inl ⟨_, hv.symm, rfl⟩⟩
  | unblamed before invoke plain tell =>
    obtain ⟨rfl, rfl, ht, hd⟩ := announced before
    obtain ⟨-, hu, -⟩ := plays_invoke h ht invoke
    exact absurd (plays_notify h hu tell).1 (by simp)
  | unkeptFailure before invoke plain tell keep =>
    obtain ⟨rfl, rfl, ht, -⟩ := announced before
    obtain ⟨-, hu, -⟩ := plays_invoke h ht invoke
    exact absurd keep (plays_kept h (plays_notify h hu tell).2.2.1)
  | @failed _ f _ _ _ _ _ before invoke plain tell =>
    obtain ⟨rfl, rfl, ht, hd⟩ := announced before
    obtain ⟨hf, hu, hdeeds⟩ := plays_invoke h ht invoke
    obtain ⟨-, rfl, hw, hsame⟩ := plays_notify h hu tell
    obtain ⟨hy, hsaid⟩ := plays_said h (.number (.whole (m + 1))) (.retryFailed f) hw
    exact ⟨hy, hsaid.trans (by rw [hsame, hdeeds, hd]), .inr (.inr ⟨f, hf.symm, plain, rfl⟩)⟩

/-- How a turn ends: it was refused in the round it began with, or the next invocation
failed and the round after it begins, or that invocation ended the call. -/
theorem turned_rounds (hwords : c.Speakable)
    (hwait : ∀ k, c.GoesOn k → Undisturbed sleep token invoked (c.delay k))
    (hn : Rounds c invoked asked drawn n p x) {r : Except Failure (Turn ε β α)}
    (ht : (S.kept (.blocking sleep token)).Turned name p x (r, y)) :
    (¬ c.GoesOn n ∧ (∃ q, r = .ok (.refused q) ∧ q.first = p.first ∧ q.later = p.later) ∧
        invoked (n + 1) y.2 ∧ Journal.deeds y.1 = c.deeds n) ∨
      (∃ q, r = .ok (.again q) ∧ Rounds c invoked asked drawn (n + 1) q y) ∨
      (c.FirstBlocking (n + 1) ∧ Journal.deeds y.1 = c.deeds (n + 1) ∧
        ((∃ f, r = .error f ∧ c.ending name (n + 1) = .error f) ∨
          ∃ e, r = .ok (.ended e) ∧ c.ending name (n + 1) = .ok e)) := by
  have granted {q : Progress ε β} {d : Delay} {t : Journal ε β α × σ}
      (consult : (S.kept (.blocking sleep token)).Consulted name p x (.ok (some d, q), t)) :
      c.GoesOn n ∧ d = c.delay n ∧ q.first = p.first ∧ q.later = p.later ∧
        q.last = c.failure n ∧ q.state.attempt = p.state.attempt ∧
        asked (n + 1) q.state.execution ∧ drawn (n + 1) q.backoff ∧ invoked (n + 1) t.2 ∧
        Journal.deeds t.1 = c.rounds n ++ [.invoked (c.outcome n),
          .asked (c.failure n) (.ok true) (), .drawn (.ok (c.delay n)) ()] := by
    obtain ⟨ht, ⟨-, ⟨_, hr, -⟩, -⟩ | ⟨hgo, ⟨e, b, hr, he, hb⟩, hd⟩⟩ :=
      consulted_rounds h hn consult
    · exact absurd hr (by simp)
    · obtain ⟨rfl, rfl⟩ : d = c.delay n ∧ q = (p.asked e).drawn b := by simpa using hr
      exact ⟨hgo, rfl, rfl, rfl, hn.last, rfl, he, hb, ht, hd⟩
  cases ht with
  | unconsulted consult =>
    obtain ⟨-, ⟨-, ⟨_, hr, -⟩, -⟩ | ⟨-, ⟨_, _, hr, -⟩, -⟩⟩ := consulted_rounds h hn consult
    · exact absurd hr (by simp)
    · exact absurd hr (by simp)
  | @refused q _ consult =>
    obtain ⟨ht, ⟨hno, ⟨q', hr, hfirst, hlater⟩, hd⟩ | ⟨-, ⟨_, _, hr, -⟩, -⟩⟩ :=
      consulted_rounds h hn consult
    · obtain rfl : q = q' := by simpa using hr
      exact .inl ⟨hno, ⟨q, rfl, hfirst, hlater⟩, ht, hd⟩
    · simp at hr
  | @unawaited d q _ t _ consult await =>
    obtain ⟨hgo, rfl, -, -, hlast, -, -, -, ht, -⟩ := granted consult
    exact absurd (awaited_rounds h hwords hwait hgo hlast ht await).1 (by simp)
  | @aborted d q _ t _ consult await =>
    obtain ⟨hgo, rfl, -, -, hlast, -, -, -, ht, -⟩ := granted consult
    exact absurd (awaited_rounds h hwords hwait hgo hlast ht await).1 (by simp)
  | @reattempted d q t u _ consult await reattempt =>
    obtain ⟨hgo, rfl, hfirst, hlater, hlast, hattempt, he, hb, ht, hd⟩ := granted consult
    obtain ⟨-, hu, hslept⟩ := awaited_rounds h hwords hwait hgo hlast ht await
    obtain ⟨hy, hdeeds, hcases⟩ := reattempted_rounds h (hattempt.trans hn.attempt) hu reattempt
    have before : ∀ k < n + 1, c.GoesOn k := by
      intro k hk
      obtain hk | rfl : k < n ∨ k = n := by omega
      · exact hn.before k hk
      · exact hgo
    have hrounds : Journal.deeds y.1 = c.rounds (n + 1) ++ [.invoked (c.outcome (n + 1))] := by
      rw [hdeeds, hslept, hd, c.rounds_succ]
      simp [Course.round]
    obtain ⟨v, hv, rfl⟩ | ⟨f, hf, hextra, rfl⟩ | ⟨f, hf, hplain, rfl⟩ := hcases
    · refine .inr (.inr ⟨⟨before, fun hgo => ?_⟩, ?_, .inr ⟨_, rfl, ?_⟩⟩)
      · exact absurd (hv.symm.trans hgo.fails) (by simp)
      · rw [hrounds, Course.deeds, Course.lastRound, hv]
      · simp only [Course.ending, hv]
    · refine .inr (.inr ⟨⟨before, fun hgo => ?_⟩, ?_, .inl ⟨f, rfl, ?_⟩⟩)
      · have hno := hgo.ordinary
        rw [c.failure_of_error hf, hextra] at hno
        exact absurd hno (by simp)
      · simp only [hrounds, Course.deeds, Course.lastRound, hf, hextra, Bool.false_eq_true,
          if_false]
      · simp only [Course.ending, hf, hextra, Bool.false_eq_true, if_false]
    · have hfailure := c.failure_of_error hf
      refine .inr (.inl ⟨_, rfl, before, hfailure ▸ hf, hfailure ▸ hplain, ?_, ?_, hfailure.symm,
        ?_, he, hb, hy, hrounds⟩)
      · exact hfirst.trans hn.first
      · show q.later ++ [f] = _
        rw [hlater, hn.later, List.range_succ, List.map_append, List.map_singleton, hfailure]
      · show Datum.number (.whole ((n : Int) + 1 + 1)) = _
        rw [show ((n + 1 : Nat) : Int) = (n : Int) + 1 by omega]

theorem gaveUp_rounds (hx : invoked (n + 1) x.2) {r : Except Failure Failure}
    (hg : (S.kept (.blocking sleep token)).GaveUp name p x (r, y)) :
    r = .ok (.exhaustedFor (.text name) p.first p.later) ∧
      Journal.deeds y.1 = Journal.deeds x.1 := by
  cases hg with
  | unkept keep => exact absurd keep (plays_kept h hx)
  | untold tell => exact absurd (plays_notify h (plays_said h _ .exhausted hx).1 tell).1 (by simp)
  | told tell =>
    obtain ⟨hs, hsaid⟩ := plays_said h p.state.attempt .exhausted hx
    obtain ⟨-, rfl, -, hd⟩ := plays_notify h hs tell
    exact ⟨rfl, hd.trans hsaid⟩

def Course.EndsIn (c : Course α) (name : String)
    (y : Except Failure (Option (Ending α)) × Journal ε β α × σ) : Prop :=
  ∃ i, c.FirstBlocking i ∧ y.1 = (c.ending name i).map some ∧ Journal.deeds y.2.1 = c.deeds i

theorem turns_rounds (hwords : c.Speakable)
    (hwait : ∀ k, c.GoesOn k → Undisturbed sleep token invoked (c.delay k))
    (hn : Rounds c invoked asked drawn 0 p x) (fuel : Nat) :
    c.EndsIn name (((S.kept (.blocking sleep token)).turns name fuel p).perform x) ∨
      ∃ q y, ((S.kept (.blocking sleep token)).turns name fuel p).perform x = (.ok none, y) ∧
        Rounds c invoked asked drawn fuel q y := by
  have inv := (S.kept (.blocking sleep token)).turns_invariant name
    (I := Rounds c invoked asked drawn) (Q := c.EndsIn name) ?again ?ended ?failed ?refused
    fuel 0 p x hn
  case again =>
    intro n p x q y hn ht
    obtain ⟨-, ⟨_, hr, -⟩, -⟩ | ⟨q', hr, hq⟩ | ⟨-, -, ⟨_, hr, -⟩ | ⟨_, hr, -⟩⟩ :=
      turned_rounds h hwords hwait hn ht
    · simp at hr
    · obtain rfl : q = q' := by simpa using hr
      exact hq
    · exact absurd hr (by simp)
    · simp at hr
  case ended =>
    intro n p x e y hn ht
    obtain ⟨-, ⟨_, hr, -⟩, -⟩ | ⟨_, hr, -⟩ | ⟨hi, hd, ⟨_, hr, -⟩ | ⟨e', hr, he⟩⟩ :=
      turned_rounds h hwords hwait hn ht
    · simp at hr
    · simp at hr
    · exact absurd hr (by simp)
    · obtain rfl : e = e' := by simpa using hr
      exact ⟨n + 1, hi, by rw [he]; rfl, hd⟩
  case failed =>
    intro n p x f y hn ht
    obtain ⟨-, ⟨_, hr, -⟩, -⟩ | ⟨_, hr, -⟩ | ⟨hi, hd, ⟨f', hr, he⟩ | ⟨_, hr, -⟩⟩ :=
      turned_rounds h hwords hwait hn ht
    · exact absurd hr (by simp)
    · exact absurd hr (by simp)
    · obtain rfl : f = f' := by simpa using hr
      exact ⟨n + 1, hi, by rw [he]; rfl, hd⟩
    · exact absurd hr (by simp)
  case refused =>
    intro n p x q y hn ht
    obtain ⟨hno, ⟨q', hr, hfirst, hlater⟩, hy, hd⟩ | ⟨_, hr, -⟩ | ⟨-, -, ⟨_, hr, -⟩ | ⟨_, hr, -⟩⟩ :=
      turned_rounds h hwords hwait hn ht
    · obtain rfl : q = q' := by simpa using hr
      refine ⟨fun f u hg => ?_, fun f u hg => ?_⟩
      · exact absurd (gaveUp_rounds h hy hg).1 (by simp)
      obtain ⟨hf, hsame⟩ := gaveUp_rounds h hy hg
      obtain rfl : f = .exhaustedFor (.text name) q.first q.later := by simpa using hf
      refine ⟨n, ⟨hn.before, hno⟩, ?_, hsame.trans hd⟩
      rw [hfirst, hlater, hn.first, hn.later]
      simp only [Course.ending, hn.fails, hn.ordinary, if_true]
      rfl
    · simp at hr
    · exact absurd hr (by simp)
    · simp at hr
  rwa [Nat.zero_add] at inv

variable (name) in
theorem run_rounds (hwords : c.Speakable)
    (hwait : ∀ k, c.GoesOn k → Undisturbed sleep token invoked (c.delay k)) {s : σ}
    (hs : invoked 0 s) (fuel : Nat) :
    c.EndsIn name (((S.kept (.blocking sleep token)).run name fuel).perform ([], s)) ∨
      ∃ q y, ((S.kept (.blocking sleep token)).run name fuel).perform ([], s) =
        (.ok none, y) ∧ Rounds c invoked asked drawn fuel q y := by
  have hb := (S.kept (.blocking sleep token)).began name fuel ([], s)
  generalize ((S.kept (.blocking sleep token)).run name fuel).perform ([], s) = z at hb
  have first {r : Except Failure α} {t : Journal ε β α × σ}
      (invoke : (S.kept (.blocking sleep token)).invoke.perform
        ((S.kept (.blocking sleep token)).said name 1 .starting ([], s)) = (r, t)) :
      r = c.outcome 0 ∧ invoked 1 t.2 ∧ Journal.deeds t.1 = [.invoked (c.outcome 0)] := by
    obtain ⟨hsaid, hd⟩ := plays_said h 1 .starting (x := ([], s)) hs
    obtain ⟨hr, ht, hdeeds⟩ := plays_invoke h hsaid invoke
    exact ⟨hr, ht, by rw [hdeeds, hd]; rfl⟩
  have none_before : ∀ k < 0, c.GoesOn k := fun k hk => absurd hk (Nat.not_lt_zero k)
  cases hb with
  | unkept keep => exact absurd keep (plays_kept h hs)
  | unkeptSuccess invoke keep => exact absurd keep (plays_kept h (first invoke).2.1)
  | unkeptFailure invoke _ keep => exact absurd keep (plays_kept h (first invoke).2.1)
  | succeeded invoke =>
    obtain ⟨hv, ht, hd⟩ := first invoke
    obtain ⟨-, hsaid⟩ := plays_said h 1 .succeeded ht
    refine .inl ⟨0, ⟨none_before, fun hgo => ?_⟩, ?_, ?_⟩
    · exact absurd (hv.trans hgo.fails) (by simp)
    · simp only [Course.ending, ← hv]
      rfl
    · rw [hsaid, hd, Course.deeds, Course.lastRound, ← hv]
      rfl
  | interrupted invoke extra =>
    obtain ⟨hf, ht, hd⟩ := first invoke
    refine .inl ⟨0, ⟨none_before, fun hgo => ?_⟩, ?_, ?_⟩
    · have hno := hgo.ordinary
      rw [c.failure_of_error hf.symm, extra] at hno
      exact absurd hno (by simp)
    · simp only [Course.ending, ← hf, extra, Bool.false_eq_true, if_false]
      rfl
    · simp only [hd, Course.deeds, Course.lastRound, ← hf, extra, Bool.false_eq_true, if_false]
      rfl
  | @unruled f _ _ _ invoke plain rule =>
    obtain ⟨hf, ht, -⟩ := first invoke
    obtain ⟨-, hrule⟩ := Setting.journaled_openPolicy rule
    obtain ⟨_, _, hopen, -⟩ := h.openPolicy 1 _ (plays_said h 1 (.failed f) ht).1
    exact absurd (hopen.symm.trans hrule) (by simp)
  | @unpaced f _ _ _ _ _ invoke plain rule pace =>
    obtain ⟨hf, ht, -⟩ := first invoke
    obtain ⟨-, hrule⟩ := Setting.journaled_openPolicy rule
    obtain ⟨-, hpace⟩ := Setting.journaled_openBackoff pace
    obtain ⟨_, _, hopen, -, hu⟩ := h.openPolicy 1 _ (plays_said h 1 (.failed f) ht).1
    obtain ⟨-, rfl⟩ := Prod.mk.inj (hopen.symm.trans hrule)
    obtain ⟨_, _, hwalk, -⟩ := h.openBackoff 1 _ hu
    exact absurd (hwalk.symm.trans hpace) (by simp)
  | @failed f e b t u v invoke plain rule pace =>
    obtain ⟨hf, ht, hd⟩ := first invoke
    obtain ⟨hsaid, hdsaid⟩ := plays_said h 1 (.failed f) ht
    obtain ⟨huj, hrule⟩ := Setting.journaled_openPolicy rule
    obtain ⟨hvj, hpace⟩ := Setting.journaled_openBackoff pace
    obtain ⟨_, _, hopen, he, hu⟩ := h.openPolicy 1 _ hsaid
    obtain ⟨hee, rfl⟩ := Prod.mk.inj (hopen.symm.trans hrule)
    obtain rfl := Except.ok.inj hee
    obtain ⟨_, _, hwalk, hb, hv⟩ := h.openBackoff 1 _ hu
    obtain ⟨hbb, rfl⟩ := Prod.mk.inj (hwalk.symm.trans hpace)
    obtain rfl := Except.ok.inj hbb
    have hfailure := c.failure_of_error hf.symm
    refine turns_rounds h hwords hwait ⟨none_before, hfailure ▸ hf.symm, hfailure ▸ plain,
      hfailure.symm, rfl, hfailure.symm, rfl, he, hb, hv, ?_⟩ fuel
    rw [hvj, huj, hdsaid, hd]
    rfl

omit h in
theorem perform_run_kept {operation : Operation} (hname : operation.displayName = .ok name)
    (fuel : Nat) (x : Journal ε β α × σ) :
    (Mode.blocking.run (S.kept (.blocking sleep token)) operation fuel).perform x =
      ((S.kept (.blocking sleep token)).run name fuel).perform x :=
  Mode.perform_run_blocking _ hname fuel x

/-- The loop ends as the course says of the first attempt that blocks. -/
theorem run_of_blocks (hwords : c.Speakable)
    (hwait : ∀ k, c.GoesOn k → Undisturbed sleep token invoked (c.delay k))
    {operation : Operation} (hname : operation.displayName = .ok name) {s : σ}
    (hs : invoked 0 s) {i : Nat} (hi : c.FirstBlocking i) {fuel : Nat} (hfuel : i < fuel) :
    ∃ j t, (Mode.blocking.run (S.kept (.blocking sleep token)) operation fuel).perform ([], s) =
        ((c.ending name i).map some, j, t) ∧ Journal.deeds j = c.deeds i := by
  have hrun := run_rounds name h hwords hwait hs fuel
  rw [perform_run_kept hname]
  generalize ((S.kept (.blocking sleep token)).run name fuel).perform ([], s) = z at hrun ⊢
  obtain ⟨r, j, t⟩ := z
  obtain ⟨k, hk, rfl, hd⟩ | ⟨q, y, -, hq⟩ := hrun
  · obtain rfl := hk.unique hi
    exact ⟨j, t, rfl, hd⟩
  · exact absurd (hq.before i hfuel) hi.blocks

end

/-- **The first attempt that blocks decides a call.** A blocking call of a setting that plays
a course does the rounds before that attempt, finds out that the attempt blocks, and ends
as the course says. If no attempt blocks, the call takes as many turns as it may. -/
theorem first_blocking {σ ε β α : Type} (S : Setting σ ε β α) (c : Course α)
    (sleep : Delay → Act σ Unit) (token : Option (Token σ)) (invoked : Nat → σ → Prop)
    (asked : Nat → ε → Prop) (drawn : Nat → β → Prop) (hplays : S.Plays c invoked asked drawn)
    (hwords : c.Speakable)
    (hwait : ∀ k, c.GoesOn k → Undisturbed sleep token invoked (c.delay k))
    (operation : Operation) (name : String) (hname : operation.displayName = .ok name) (s : σ)
    (hs : invoked 0 s) :
    (∀ i, c.FirstBlocking i → ∀ fuel, i < fuel → ∃ j t,
      (Mode.blocking.call (S.kept (.blocking sleep token)) operation fuel).perform ([], s) =
        ((c.result name i).map some, j, t) ∧
      Journal.deeds j = c.deeds i ∧
      Journal.endings j = (List.range (i + 1)).map c.outcome ∧
      Journal.slept j = (List.range i).map c.delay) ∧
    ((∀ i, c.GoesOn i) → ∀ fuel, ∃ x,
      (Mode.blocking.call (S.kept (.blocking sleep token)) operation fuel).perform ([], s) =
        (.ok none, x)) := by
  refine ⟨fun i hi fuel hfuel => ?_, fun hgo fuel => ?_⟩
  · obtain ⟨j, t, hrun, hd⟩ := run_of_blocks hplays hwords hwait hname hs hi hfuel
    refine ⟨j, t, ?_, hd, ?_, ?_⟩
    · rw [Mode.perform_call, hrun]
      exact c.delivered_ending name i (j, t)
    · rw [← c.endings_deeds, ← hd]
      exact (Journal.pick_deeds (fun m => by cases m <;> rfl) j).symm
    · rw [← c.slept_deeds, ← hd]
      exact (Journal.pick_deeds (fun m => by cases m <;> rfl) j).symm
  · obtain ⟨k, hk, -⟩ | ⟨q, y, hy, -⟩ := run_rounds name hplays hwords hwait hs fuel
    · exact absurd (hgo k) hk.blocks
    · exact ⟨y, by rw [Mode.perform_call, perform_run_kept hname, hy]; rfl⟩

/-- An operation that fails once and then succeeds, with a policy that always says yes. -/
def Course.recovery : Course Nat where
  outcome
    | 0 => .error (.of .valueError "boom")
    | _ => .ok 7
  answer _ := true
  delay _ := some (.whole 0)

theorem recovery_blocks : Course.recovery.FirstBlocking 1 where
  before := by
    intro k hk
    obtain rfl : k = 0 := by omega
    exact ⟨rfl, rfl, rfl, noTime_going⟩
  blocks := fun h => absurd h.fails (by simp [Course.recovery])

theorem first_blocking_recovery :
    ∃ j t, (Mode.blocking.call (Course.recovery.setting.kept
      (.blocking (fun _ => .result (.ok ())) none)) (.function "fetch") 2).perform ([], 0) =
        (.ok (some 7), j, t) ∧
      Journal.endings j = [.error (.of .valueError "boom"), .ok 7] ∧
      Journal.slept j = [some (.whole 0)] := by
  have words : Course.recovery.Speakable := by
    intro k hk
    cases k with
    | zero => exact ⟨⟨"boom", rfl⟩, noTime_seconds⟩
    | succ k => exact absurd hk.fails (by simp [Course.recovery])
  obtain ⟨j, t, hcall, -, hendings, hslept⟩ := (first_blocking Course.recovery.setting
    Course.recovery (fun _ => .result (.ok ())) none _ _ _ Course.recovery.plays_setting words
    (fun _ _ _ s hs => ⟨s, rfl, hs⟩) (.function "fetch") "fetch" rfl 0 rfl).1 1 recovery_blocks 2
    (by omega)
  exact ⟨j, t, hcall, hendings, hslept⟩

end Retry
