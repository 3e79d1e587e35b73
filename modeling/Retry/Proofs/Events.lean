import Retry.Proofs.Exhaustion

/-!
# What a listener is told

The listener of a call is told of every retry twice, before it and of how it ended, and once
more if the retries ran out. The attempts are counted from one, and of the first one the
listener is told nothing. `Event.ofRetries` and `Event.ofEnding` say so by how the
invocations and the call ended.

The listener here only observes (`Setting.Observed`): it neither fails nor changes what it is
shown. Between turns the call has failed so far, and the listener has heard of each of the
retries (`Heard`); wherever the call ends, it has heard of all of it (`HeardOut`).

Main statement: `events_told` (for both modes and any other collaborators).
-/

namespace Retry

/-- The number of an attempt, counted from one. -/
def Attempt.nth (n : Nat) : Attempt := .number (.whole n)

theorem Attempt.next_nth (n : Nat) : Attempt.next (.nth n) = .ok (.nth (n + 1)) := rfl

namespace Event

variable {α : Type}

/-- What is told of a retry that ended like this. Of an interruption nothing is told. -/
def ofRetry (a : Nat) (ending : Except Failure α) : List (Attempt × Event α) :=
  (.nth a, .beforeRetry) ::
    match ending with
    | .ok v => [(.nth a, .success v)]
    | .error f => if f.ordinary then [(.nth a, .failure f)] else []

/-- What is told of the retries of a call, by how its invocations ended. The first one was no
retry. -/
def ofRetries (endings : List (Except Failure α)) : List (Attempt × Event α) :=
  (endings.tail.zipIdx 2).flatMap fun (ending, a) => ofRetry a ending

/-- What is told of how the loop ended the call, after a number of invocations. -/
def ofEnding (invocations : Nat) :
    Except Failure (Option (Ending α)) → List (Attempt × Event α)
  | .ok (some (.exhausted e)) => [(.nth invocations, .exhaustion e)]
  | _ => []

/-- The failure of an attempt, if that is what happened. -/
def blame? : Event α → Option Failure
  | .failure f => some f
  | _ => none

def blamed (told : List (Attempt × Event α)) : List Failure :=
  told.filterMap fun (_, event) => event.blame?

theorem ofRetries_append {endings : List (Except Failure α)} (h : endings ≠ [])
    (r : Except Failure α) :
    ofRetries (endings ++ [r]) = ofRetries endings ++ ofRetry (endings.length + 1) r := by
  obtain ⟨first, rest, rfl⟩ := List.exists_cons_of_ne_nil h
  simp only [ofRetries, List.cons_append, List.tail_cons, List.zipIdx_append,
    List.flatMap_append, List.length_cons]
  rw [show 2 + rest.length = rest.length + 1 + 1 by omega]
  simp

theorem blamed_append (told more : List (Attempt × Event α)) :
    blamed (told ++ more) = blamed told ++ blamed more :=
  List.filterMap_append ..

theorem blamed_ofRetry (a : Nat) {f : Failure} (h : f.ordinary = true) :
    blamed (ofRetry a (.error f) : List (Attempt × Event α)) = [f] := by
  simp [ofRetry, h, blamed, blame?]

/-- The listener was told of exactly the failures after the first one. -/
theorem blamed_ofRetries (first : Failure) {later : List Failure}
    (h : ∀ f ∈ later, f.ordinary = true) :
    blamed (ofRetries ((first :: later).map .error) : List (Attempt × Event α)) = later := by
  rw [ofRetries, List.map_cons, List.tail_cons]
  generalize 2 = a
  induction later generalizing a with
  | nil => rfl
  | cons f later ih =>
    rw [List.map_cons, List.zipIdx_cons, List.flatMap_cons, blamed_append,
      blamed_ofRetry a (h f (by simp)), ih (fun g hg => h g (List.mem_cons_of_mem _ hg))]
    rfl

theorem not_exhaustion_of_retries {endings : List (Except Failure α)} {a : Attempt}
    {e : Failure} : (a, .exhaustion e) ∉ ofRetries endings := by
  intro h
  obtain ⟨⟨r, n⟩, -, hr⟩ := List.mem_flatMap.mp h
  rcases r with f | v
  · cases hf : f.ordinary <;> simp [ofRetry, hf] at hr
  · simp [ofRetry] at hr

end Event

def Moment.event? {ε β α : Type} : Moment ε β α → Option (Attempt × Event α)
  | .told notice _ _ => some (notice.state.attempt, notice.event)
  | _ => none

abbrev Journal.events {ε β α : Type} (j : Journal ε β α) : List (Attempt × Event α) :=
  pick Moment.event? j

@[simp] theorem Journal.events_moments {ε β α : Type} (name : String) (attempt : Attempt)
    (phase : Phase) : events (phase.moments name attempt : Journal ε β α) = [] :=
  pick_moments _ (fun _ => rfl) ..

theorem Journal.events_of_wait {ε β α : Type} {l : Journal ε β α} (h : ∀ m ∈ l, m.OfWait) :
    events l = [] := by
  refine pick_of_none _ fun m hm => ?_
  have hw := h m hm
  cases m <;> simp_all [Moment.OfWait, Moment.event?]

/-- The listener only observes: it does not fail and leaves what it is shown. -/
def Setting.Observed {σ ε β α : Type} (S : Setting σ ε β α) : Prop :=
  ∀ (n : Notice ε α) (s : σ), ∃ t, S.notify.perform (n, s) = (.ok (), n, t)

section

variable {σ ε β α : Type} {S : Setting σ ε β α} {w : Waiting σ} {name : String}
  {p q : Progress ε β} {x y : Journal ε β α × σ}

theorem Setting.Observed.kept (h : S.Observed) {n m : Notice ε α} {r : Except Failure Unit}
    (hn : (S.kept w).notify.perform (n, x) = (r, m, y)) :
    r = .ok () ∧ m = n ∧ y.1 = x.1 ++ [.told n (.ok ()) n] := by
  obtain ⟨hy, hs⟩ := Setting.journaled_notify hn
  obtain ⟨t, ht⟩ := h n x.2
  obtain ⟨rfl, hm⟩ := Prod.mk.inj (ht.symm.trans hs)
  obtain ⟨rfl, -⟩ := Prod.mk.inj hm
  exact ⟨rfl, rfl, hy⟩

theorem observed_reattempted (h : S.Observed) {k : Nat} (hk : p.state.attempt = .nth k)
    {r : Except Failure (Turn ε β α)} (hr : (S.kept w).Reattempted name p x (r, y)) :
    (y.1 = x.1 ∧ ∃ f, r = .error f) ∨
      ∃ ending, Journal.endings y.1 = Journal.endings x.1 ++ [ending] ∧
        Journal.events y.1 = Journal.events x.1 ++ Event.ofRetry (k + 1) ending ∧
        ∀ turn, r = .ok turn → match ending with
          | .ok v => turn = .ended (.returned v)
          | .error f => f.ordinary = true ∧
              turn = .again (p.failed { p.state with attempt := .nth (k + 1) } f) := by
  have counted {a : Attempt} (hc : Attempt.next p.state.attempt = .ok a) : a = .nth (k + 1) := by
    rw [hk, Attempt.next_nth] at hc
    exact (Except.ok.inj hc).symm
  have announced {a : Attempt} {n : Notice ε α} {t : Journal ε β α × σ}
      (before : (S.kept w).Announced name p x a n t) :
      n = ⟨{ p.state with attempt := .nth (k + 1) }, .beforeRetry⟩ ∧
        Journal.endings t.1 = Journal.endings x.1 ∧
        Journal.events t.1 = Journal.events x.1 ++ [(.nth (k + 1), .beforeRetry)] := by
    obtain rfl := counted before.count
    obtain ⟨-, rfl, ht⟩ := h.kept before.tell
    rw [Setting.journaled_said] at ht
    exact ⟨rfl, by simp [ht, Moment.ending?], by simp [ht, Moment.event?]⟩
  cases hr with
  | uncounted count =>
    rw [hk, Attempt.next_nth] at count
    exact absurd count (by simp)
  | unkept => exact .inl ⟨rfl, _, rfl⟩
  | unannounced _ tell => exact absurd (h.kept tell).1 (by simp)
  | @interrupted a f n t u before invoke extra =>
    obtain ⟨-, ht, hm⟩ := announced before
    obtain ⟨hu, -⟩ := Setting.journaled_invoke invoke
    refine .inr ⟨.error f, by simp [hu, ht, Moment.ending?], ?_, by simp⟩
    simp [hu, hm, Moment.event?, Event.ofRetry, extra]
  | unpraised _ _ tell => exact absurd (h.kept tell).1 (by simp)
  | @unkeptSuccess a v f n m t u z before invoke tell =>
    obtain ⟨rfl, ht, hm⟩ := announced before
    obtain ⟨hu, -⟩ := Setting.journaled_invoke invoke
    obtain ⟨-, rfl, hz⟩ := h.kept tell
    refine .inr ⟨.ok v, by simp [hz, hu, ht, Moment.ending?], ?_, by simp⟩
    simp [hz, hu, hm, Moment.event?, Event.ofRetry]
  | @succeeded a v n m t u z before invoke tell =>
    obtain ⟨rfl, ht, hm⟩ := announced before
    obtain ⟨hu, -⟩ := Setting.journaled_invoke invoke
    obtain ⟨-, rfl, hz⟩ := h.kept tell
    refine .inr ⟨.ok v, ?_, ?_, fun turn same => (Except.ok.inj same).symm⟩
    · simp [Setting.journaled_said, hz, hu, ht, Moment.ending?]
    · simp [Setting.journaled_said, hz, hu, hm, Moment.event?, Event.ofRetry]
  | unblamed _ _ _ tell => exact absurd (h.kept tell).1 (by simp)
  | @unkeptFailure a f g n m t u z before invoke plain tell =>
    obtain ⟨rfl, ht, hm⟩ := announced before
    obtain ⟨hu, -⟩ := Setting.journaled_invoke invoke
    obtain ⟨-, rfl, hz⟩ := h.kept tell
    refine .inr ⟨.error f, by simp [hz, hu, ht, Moment.ending?], ?_, by simp⟩
    simp [hz, hu, hm, Moment.event?, Event.ofRetry, plain]
  | @failed a f n m t u z before invoke plain tell =>
    obtain ⟨rfl, ht, hm⟩ := announced before
    obtain ⟨hu, -⟩ := Setting.journaled_invoke invoke
    obtain ⟨-, rfl, hz⟩ := h.kept tell
    refine .inr ⟨.error f, ?_, ?_, fun turn same => ⟨plain, (Except.ok.inj same).symm⟩⟩
    · simp [Setting.journaled_said, hz, hu, ht, Moment.ending?]
    · simp [Setting.journaled_said, hz, hu, hm, Moment.event?, Event.ofRetry, plain]

/-! ## Between two turns -/

/-- A call between two turns: all its invocations failed, and the listener has heard of each
retry. -/
structure Heard (p : Progress ε β) (j : Journal ε β α) : Prop where
  count : p.state.attempt = .nth (Journal.endings j).length
  failures : Journal.endings j = (p.first :: p.later).map .error
  ordinary : ∀ f ∈ p.first :: p.later, f.ordinary = true
  events : Journal.events j = Event.ofRetries (Journal.endings j)

namespace Heard

variable {j k l : Journal ε β α}

theorem nonempty (h : Heard p j) : Journal.endings j ≠ [] := by simp [h.failures]

theorem failing (h : Heard p j) :
    ∀ r ∈ Journal.endings j, ∃ f, r = .error f ∧ f.ordinary = true := by
  intro r hr
  rw [h.failures] at hr
  obtain ⟨f, hf, rfl⟩ := List.mem_map.mp hr
  exact ⟨f, rfl, h.ordinary f hf⟩

/-- More of a journal, but no invocation and nothing that is told. -/
theorem grow (h : Heard p j) (hk : k = j ++ l) (he : Journal.endings l = [])
    (hl : Journal.events l = []) (ha : q.state.attempt = p.state.attempt)
    (hf : q.first = p.first) (hs : q.later = p.later) : Heard q k := by
  subst hk
  have endings : Journal.endings (j ++ l) = Journal.endings j := by simp [he]
  have events : Journal.events (j ++ l) = Journal.events j := by simp [hl]
  exact ⟨by rw [ha, endings, h.count], by rw [endings, hf, hs, h.failures],
    by rw [hf, hs]; exact h.ordinary, by rw [events, endings, h.events]⟩

theorem granted {d : Delay} (h : Heard p x.1)
    (hc : (S.kept w).Consulted name p x (.ok (some d, q), y)) : Heard q y.1 := by
  obtain ⟨-, e, b, rfl, hy⟩ := Setting.journaled_granted hc
  exact h.grow hy rfl rfl rfl rfl rfl

theorem refused (h : Heard p x.1)
    (hc : (S.kept w).Consulted name p x (.ok (none, q), y)) : Heard q y.1 := by
  obtain ⟨e, rfl, hy⟩ | ⟨d, e, b, -, rfl, hy⟩ := Setting.journaled_refused hc
  · exact h.grow hy rfl rfl rfl rfl rfl
  · exact h.grow hy (by simp [Moment.ending?]) (by simp [Moment.event?]) rfl rfl rfl

theorem awaited {d : Delay} {r : Except Failure (Option Failure)} (h : Heard p x.1)
    (ha : (S.kept w).Awaited name p d x (r, y)) : Heard p y.1 := by
  obtain ⟨l, hy, hl⟩ := Setting.journaled_awaited ha
  exact h.grow hy (Journal.endings_of_wait hl) (Journal.events_of_wait hl) rfl rfl rfl

theorem again (hlisten : S.Observed) (h : Heard p x.1)
    (ht : (S.kept w).Turned name p x (.ok (.again q), y)) : Heard q y.1 := by
  cases ht with
  | @reattempted d p' t u _ consult await reattempt =>
    have hu := (h.granted consult).awaited await
    obtain ⟨-, _, hr⟩ | ⟨ending, hends, hevents, hr⟩ :=
      observed_reattempted hlisten hu.count reattempt
    · simp at hr
    rcases ending with f | v
    · obtain ⟨hf, hq⟩ := hr _ rfl
      obtain rfl := Turn.again.inj hq
      refine ⟨?_, ?_, ?_, ?_⟩
      · rw [hends, List.length_append]
        rfl
      · rw [hends, hu.failures]
        simp [Progress.failed]
      · intro g hg
        obtain hg | rfl : g ∈ p'.first :: p'.later ∨ g = f := by
          simpa [Progress.failed, or_assoc] using hg
        · exact hu.ordinary g hg
        · exact hf
      · rw [hevents, hends, Event.ofRetries_append hu.nonempty, hu.events]
    · exact absurd (hr _ rfl) (by simp)

theorem turned_refused (h : Heard p x.1)
    (ht : (S.kept w).Turned name p x (.ok (.refused q), y)) : Heard q y.1 := by
  cases ht with
  | refused consult => exact h.refused consult
  | reattempted _ _ reattempt => cases reattempt

end Heard

/-! ## How a call ends -/

/-- A call that is over, or out of turns: the listener has heard of all of it. All
invocations but the last one failed, and if the retries ran out, so did the last. -/
structure HeardOut (name : String)
    (z : Except Failure (Option (Ending α)) × Journal ε β α × σ) : Prop where
  events : Journal.events z.2.1 = Event.ofRetries (Journal.endings z.2.1) ++
    Event.ofEnding (Journal.endings z.2.1).length z.1
  before : ∀ r ∈ (Journal.endings z.2.1).dropLast, ∃ f, r = .error f ∧ f.ordinary = true
  exhausted : ∀ e, z.1 = .ok (some (.exhausted e)) → ∃ first later,
    Journal.endings z.2.1 = (first :: later).map .error ∧
    (∀ f ∈ first :: later, f.ordinary = true) ∧ e = .exhaustedFor (.text name) first later

def Unexhausted (r : Except Failure (Option (Ending α))) : Prop :=
  ∀ e, r ≠ .ok (some (.exhausted e))

theorem Unexhausted.ofEnding {r : Except Failure (Option (Ending α))} (h : Unexhausted r)
    (n : Nat) : Event.ofEnding n r = [] := by
  rcases r with f | _ | _ | e | e
  · rfl
  · rfl
  · rfl
  · exact absurd rfl (h e)
  · rfl

namespace HeardOut

variable {r : Except Failure (Option (Ending α))}

theorem of_heard (h : Heard p y.1) (hr : Unexhausted r) : HeardOut name (r, y) where
  events := by rw [hr.ofEnding, List.append_nil, h.events]
  before := fun r hr => h.failing r (List.dropLast_subset _ hr)
  exhausted := fun e he => absurd he (hr e)

theorem of_last {ending : Except Failure α} (h : Heard p x.1) (hr : Unexhausted r)
    (hends : Journal.endings y.1 = Journal.endings x.1 ++ [ending])
    (hevents : Journal.events y.1 =
      Journal.events x.1 ++ Event.ofRetry ((Journal.endings x.1).length + 1) ending) :
    HeardOut name (r, y) where
  events := by
    rw [hr.ofEnding, List.append_nil, hevents, hends, Event.ofRetries_append h.nonempty, h.events]
  before := by
    rw [hends, List.dropLast_concat]
    exact h.failing
  exhausted := fun e he => absurd he (hr e)

theorem failed (hlisten : S.Observed) {f : Failure} (h : Heard p x.1)
    (ht : (S.kept w).Turned name p x (.error f, y)) : HeardOut name (.error f, y) := by
  have failing : Unexhausted (.error f : Except Failure (Option (Ending α))) := fun e => by simp
  cases ht with
  | unconsulted consult =>
    obtain ⟨_, hy⟩ | ⟨_, _, hy⟩ | ⟨_, _, _, -, hy⟩ := Setting.journaled_unconsulted consult
    · exact of_heard (h.grow (q := p) hy rfl rfl rfl rfl rfl) failing
    · exact of_heard (h.grow (q := p) hy rfl rfl rfl rfl rfl) failing
    · exact of_heard (h.grow (q := p) hy rfl rfl rfl rfl rfl) failing
  | unawaited consult await => exact of_heard ((h.granted consult).awaited await) failing
  | reattempted consult await reattempt =>
    have hu := (h.granted consult).awaited await
    obtain ⟨hy, -⟩ | ⟨ending, hends, hevents, -⟩ :=
      observed_reattempted hlisten hu.count reattempt
    · exact of_heard (hy ▸ hu) failing
    · exact of_last hu failing hends hevents

theorem ended (hlisten : S.Observed) {e : Ending α} (h : Heard p x.1)
    (ht : (S.kept w).Turned name p x (.ok (.ended e), y)) :
    HeardOut name (.ok (some e), y) := by
  cases ht with
  | aborted consult await =>
    exact of_heard ((h.granted consult).awaited await) fun e => by simp
  | reattempted consult await reattempt =>
    have hu := (h.granted consult).awaited await
    obtain ⟨-, _, hr⟩ | ⟨ending, hends, hevents, hr⟩ :=
      observed_reattempted hlisten hu.count reattempt
    · simp at hr
    refine of_last hu (fun e' he => ?_) hends hevents
    have turn := hr _ rfl
    rcases ending with f | v
    · exact absurd turn.2 (by simp)
    · obtain rfl := Turn.ended.inj turn
      simp at he

theorem gaveUp (hlisten : S.Observed) {r : Except Failure Failure} (h : Heard p x.1)
    (hg : (S.kept w).GaveUp name p x (r, y)) :
    (∃ f, r = .error f ∧ HeardOut name (.error f, y)) ∨
      ∃ e, r = .ok e ∧ HeardOut name (.ok (some (.exhausted e)), y) := by
  cases hg with
  | @unkept f => exact .inl ⟨f, rfl, of_heard h fun e => by simp⟩
  | untold tell => exact absurd (hlisten.kept tell).1 (by simp)
  | told tell =>
    obtain ⟨-, rfl, hy⟩ := hlisten.kept tell
    rw [Setting.journaled_said] at hy
    have hends : Journal.endings y.1 = Journal.endings x.1 := by simp [hy, Moment.ending?]
    refine .inr ⟨_, rfl, ?_, ?_, ?_⟩
    · simp only [hends, Event.ofEnding]
      simp [hy, h.events, h.count, Moment.event?, Event.error]
    · rw [hends]
      exact fun r hr => h.failing r (List.dropLast_subset _ hr)
    · intro e he
      obtain rfl : .exhaustedFor (.text name) p.first p.later = e := by simpa [Event.error] using he
      exact ⟨p.first, p.later, hends ▸ h.failures, h.ordinary, rfl⟩

theorem turns (hlisten : S.Observed) (fuel : Nat) (p : Progress ε β) (x : Journal ε β α × σ)
    (h : Heard p x.1) : HeardOut name (((S.kept w).turns name fuel p).perform x) := by
  have inv := (S.kept w).turns_invariant name (I := fun _ p x => Heard p x.1)
    (Q := HeardOut name) (fun _ p x q y h ht => h.again hlisten ht)
    (fun _ p x e y h ht => ended hlisten h ht) (fun _ p x f y h ht => failed hlisten h ht)
    ?refused fuel 0 p x h
  case refused =>
    intro _ p x q y h ht
    refine ⟨fun f u hg => ?_, fun f u hg => ?_⟩
    · obtain ⟨g, he, hu⟩ | ⟨_, he, -⟩ := gaveUp hlisten (h.turned_refused ht) hg
      · obtain rfl := Except.error.inj he
        exact hu
      · exact absurd he (by simp)
    · obtain ⟨_, he, -⟩ | ⟨e, he, hu⟩ := gaveUp hlisten (h.turned_refused ht) hg
      · exact absurd he (by simp)
      · obtain rfl := Except.ok.inj he
        exact hu
  obtain hq | ⟨q, y, hy, hq⟩ := inv
  · exact hq
  · rw [hy]
    exact of_heard hq fun e => by simp

theorem of_first (ending : Except Failure α) (hr : Unexhausted r)
    (hends : Journal.endings y.1 = [ending]) (hevents : Journal.events y.1 = []) :
    HeardOut name (r, y) where
  events := by rw [hr.ofEnding, hends, hevents]; rfl
  before := by simp [hends]
  exhausted := fun e he => absurd he (hr e)

end HeardOut

theorem Heard.begin {f : Failure} {e : ε} {b : β} {s : σ} {z : Journal ε β α × σ}
    (plain : f.ordinary = true)
    (invoke : (S.kept w).invoke.perform ((S.kept w).said name 1 .starting ([], s)) =
      (.error f, x))
    (rule : (S.kept w).openPolicy.perform ((S.kept w).said name 1 (.failed f) x) =
      (.ok e, y))
    (pace : (S.kept w).openBackoff.perform y = (.ok b, z)) :
    Heard (Progress.opening name f e b) z.1 := by
  obtain ⟨hz, -⟩ := Setting.journaled_openBackoff pace
  have hj := hz.trans (Setting.journaled_first invoke rule)
  have hends : Journal.endings z.1 = [.error f] := by simp [hj, Moment.ending?]
  refine ⟨?_, ?_, ?_, ?_⟩
  · rw [hends]
    rfl
  · rw [hends]
    rfl
  · simpa [Progress.opening] using plain
  · rw [hends]
    simp [hj, Moment.event?, Event.ofRetries]

theorem HeardOut.run (hlisten : S.Observed) (w : Waiting σ) (name : String) (fuel : Nat) (s : σ) :
    HeardOut name (((S.kept w).run name fuel).perform ([], s)) := by
  have hb := (S.kept w).began name fuel ([], s)
  generalize ((S.kept w).run name fuel).perform ([], s) = z at hb
  have first {r : Except Failure α} {x : Journal ε β α × σ}
      (invoke : (S.kept w).invoke.perform ((S.kept w).said name 1 .starting ([], s)) = (r, x)) :
      Journal.endings x.1 = [r] ∧ Journal.events x.1 = [] := by
    simp [Setting.journaled_tried invoke, Moment.ending?, Moment.event?]
  cases hb with
  | unkept => exact ⟨rfl, by simp, by simp⟩
  | unkeptSuccess invoke => exact .of_first _ (fun e => by simp) (first invoke).1 (first invoke).2
  | unkeptFailure invoke => exact .of_first _ (fun e => by simp) (first invoke).1 (first invoke).2
  | interrupted invoke => exact .of_first _ (fun e => by simp) (first invoke).1 (first invoke).2
  | @succeeded v _ invoke =>
    refine .of_first (.ok v) (fun e => by simp) ?_ ?_
    · simp [Setting.journaled_said, (first invoke).1]
    · simp [Setting.journaled_said, (first invoke).2]
  | @unruled f _ _ u invoke _ rule =>
    have hu := Setting.journaled_first invoke rule
    exact .of_first (.error f) (fun e => by simp) (by simp [hu, Moment.ending?])
      (by simp [hu, Moment.event?])
  | @unpaced f _ _ _ _ v invoke _ rule pace =>
    obtain ⟨hv, -⟩ := Setting.journaled_openBackoff pace
    have hu := Setting.journaled_first invoke rule
    exact .of_first (.error f) (fun e => by simp) (by simp [hv, hu, Moment.ending?])
      (by simp [hv, hu, Moment.event?])
  | failed invoke plain rule pace => exact .turns hlisten fuel _ _ (.begin plain invoke rule pace)

/-! ## Calls in a mode -/

/-- How a call of an operation ends, if it can be named at all. -/
theorem HeardOut.call (hlisten : S.Observed) (operation : Operation) (fuel : Nat) (s : σ) :
    let x := (w.mode.run (S.kept w) operation fuel).perform ([], s)
    ∃ name, (∀ e, x.1 = .ok (some (.exhausted e)) → operation.displayName = .ok name) ∧
      HeardOut name x := by
  intro x
  rcases hname : operation.displayName with f | name
  · refine ⟨"", fun e he => ?_, ?_⟩
    · have hx : (w.mode.run (S.kept w) operation fuel).perform ([], s) =
          (.ok (some (.exhausted e)), x.2) := Prod.ext he rfl
      obtain ⟨name, hname', -⟩ := w.mode.perform_run_ok _ hx
      rw [hname'] at hname
      exact absurd hname (by simp)
    · rw [show x = _ from w.mode.perform_run_unnamed _ hname fuel ([], s)]
      exact ⟨rfl, by simp, fun e he => absurd he (by simp)⟩
  · refine ⟨name, fun _ _ => rfl, ?_⟩
    have h := HeardOut.run hlisten w name fuel s
    rw [show x = _ from w.mode.perform_run _ hname fuel ([], s)]
    change HeardOut name ((((S.kept w).run name fuel).perform ([], s)).1.mapError
      w.mode.leaving, (((S.kept w).run name fuel).perform ([], s)).2)
    revert h
    generalize ((S.kept w).run name fuel).perform ([], s) = z
    rcases z with ⟨f | e, y⟩
    · exact fun h => ⟨h.events, h.before, fun e he => absurd he (by simp [Except.mapError])⟩
    · exact id

end

/-- **What a listener is told.** The listener is told of every invocation but the first, in
order and with its number: before it, and then of its failure or of its result. Only the last
one can succeed or be interrupted, and of an interruption nothing is told. If the retries run
out, and only then, the last event is that, with the number of invocations and the error
that the caller gets; its errors are the first failure and those of which the listener was
told. If the first invocation does not fail with an ordinary failure, nothing is told. -/
theorem events_told {σ ε β α : Type} (S : Setting σ ε β α) (w : Waiting σ)
    (hlisten : S.Observed) (operation : Operation) (fuel : Nat) (s : σ) :
    let x := (w.mode.run (S.kept w) operation fuel).perform ([], s)
    let y := (w.mode.call (S.kept w) operation fuel).perform ([], s)
    let endings := Journal.endings x.2.1
    let told := Journal.events x.2.1
    told = Event.ofRetries endings ++ Event.ofEnding endings.length x.1 ∧
    (∀ r ∈ endings.dropLast, ∃ f, r = .error f ∧ f.ordinary = true) ∧
    ((∃ a e, (a, .exhaustion e) ∈ told) ↔ ∃ e, x.1 = .ok (some (.exhausted e))) ∧
    (∀ e, x.1 = .ok (some (.exhausted e)) → y = (.error e, x.2) ∧
      ∃ name first, operation.displayName = .ok name ∧
        endings = (first :: Event.blamed told).map .error ∧
        e = .exhaustedFor (.text name) first (Event.blamed told)) ∧
    ((∀ f, endings.head? = some (.error f) → f.ordinary = false) → told = []) ∧
    (∀ e, x.1 = .ok (some (.aborted e)) → ∀ a e', (a, .exhaustion e') ∉ told) := by
  intro x y endings told
  obtain ⟨name, hname, h⟩ := HeardOut.call (w := w) hlisten operation fuel s
  have hevents : told = Event.ofRetries endings ++ Event.ofEnding endings.length x.1 := h.events
  have hexhausted : (∃ a e, (a, .exhaustion e) ∈ told) ↔
      ∃ e, x.1 = .ok (some (.exhausted e)) := by
    rw [hevents]
    constructor
    · rintro ⟨a, e, he⟩
      obtain he | he := List.mem_append.mp he
      · exact absurd he Event.not_exhaustion_of_retries
      · by_contra hx
        rw [Unexhausted.ofEnding fun e he => hx ⟨e, he⟩] at he
        exact absurd he List.not_mem_nil
    · rintro ⟨e, he⟩
      exact ⟨.nth endings.length, e, List.mem_append_right _ (by simp [he, Event.ofEnding])⟩
  refine ⟨hevents, h.before, hexhausted, fun e he => ?_, fun hfirst => ?_, fun e he a e' hmem => ?_⟩
  · obtain ⟨first, later, hends, plain, rfl⟩ := h.exhausted e he
    have hlater : Event.blamed told = later := by
      have hends' : endings = (first :: later).map .error := hends
      rw [hevents, he, Event.blamed_append, hends',
        Event.blamed_ofRetries first fun f hf => plain f (List.mem_cons_of_mem _ hf)]
      exact List.append_nil _
    refine ⟨?_, name, first, hname _ he, hlater ▸ hends, hlater ▸ rfl⟩
    have hx : (w.mode.run (S.kept w) operation fuel).perform ([], s) =
        (.ok (some (.exhausted (.exhaustedFor (.text name) first later))), x.2) := Prod.ext he rfl
    show (w.mode.call (S.kept w) operation fuel).perform ([], s) = _
    rw [Mode.perform_call, hx]
    show (Except.error (w.mode.leaving _), x.2) = _
    rw [leaving_exhaustedFor]
  · have hover : Unexhausted x.1 := by
      intro e he
      obtain ⟨first, later, hends, plain, -⟩ := h.exhausted e he
      have hf := hfirst first (by rw [show endings = _ from hends]; rfl)
      rw [plain first (by simp)] at hf
      exact absurd hf (by simp)
    rw [hevents, hover.ofEnding, List.append_nil]
    rcases hr : endings with _ | ⟨first, _ | ⟨second, rest⟩⟩
    · rfl
    · rfl
    · -- a second invocation was made, so the first one failed
      obtain ⟨f, rfl, hf⟩ := h.before first (by rw [show Journal.endings x.2.1 = _ from hr]; simp)
      rw [hfirst f (by rw [hr]; rfl)] at hf
      exact absurd hf (by simp)
  · obtain ⟨e'', he''⟩ := hexhausted.mp ⟨a, e', hmem⟩
    rw [he] at he''
    exact absurd he'' (by simp)

theorem relapse_observed : Course.relapse.setting.Observed := fun _ s => ⟨s, rfl⟩

theorem events_told_relapse :
    Journal.events ((Mode.blocking.run (Course.relapse.setting.kept
      (.blocking (fun _ => .result (.ok ())) none)) (.function "fetch") 2).perform
        ([], 0)).2.1 =
      [(.nth 2, .beforeRetry), (.nth 2, .failure (.of .valueError "bang")),
        (.nth 2, .exhaustion (.exhaustedFor (.text "fetch") (.of .valueError "boom")
          [.of .valueError "bang"]))] := by
  obtain ⟨j, t, hrun⟩ := relapse_run
  obtain ⟨hevents, -, -, hexhausted, -⟩ :=
    events_told Course.relapse.setting (.blocking (fun _ => .result (.ok ())) none)
      relapse_observed (.function "fetch") 2 0
  simp only [Waiting.mode, hrun] at hevents hexhausted ⊢
  obtain ⟨-, name, first, -, hends, he⟩ := hexhausted _ rfl
  have herrors := congrArg Failure.errors he
  rw [Failure.errors_exhaustedFor, Failure.errors_exhaustedFor] at herrors
  rw [hevents, hends, ← Except.ok.inj herrors]
  rfl

end Retry
