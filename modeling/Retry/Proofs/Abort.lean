import Retry.Proofs.Timing

/-!
# Cancelled waits abort a call

A blocking call with a token is aborted if the token is cancelled before one of its waits
or during it, and only then. The token may be cancelled at any moment of the call, by a
schedule that the collaborators do not see.

The loop goes by what its waits found (`Moment.Cancels`), which is what was the case
(`timely_run`). As long as no wait was cancelled, every granted delay was slept and
followed by one invocation (`Unaborted`); this holds between turns.

Main statement: `cancelled_wait_aborts` (when a call is aborted, what an aborted call did,
and that any other call does what it does without a token).
-/

namespace Retry

/-- A wait, whether it slept or not. A wait that is refused its delay is none. -/
def Moment.Waits {ε β α : Type} : Moment ε β α → Prop
  | .barred => True
  | .slept _ (.ok _) => True
  | _ => False

def Moment.isBarred {ε β α : Type} : Moment ε β α → Bool
  | .barred => true
  | _ => false

theorem Moment.waits_of_isBarred {ε β α : Type} {m : Moment ε β α} (h : m.isBarred = true) :
    m.Waits := by
  cases m with
  | barred => trivial
  | _ => exact absurd h (by simp [isBarred])

/-- A wait that found its token cancelled, or was cancelled. -/
def Moment.Cancels {ε β α : Type} : Moment ε β α → Prop
  | .barred => True
  | .slept _ (.ok true) => True
  | _ => False

/-- A wait is cancelled if the token is, before it or meanwhile. -/
theorem Moment.Timely.cancels_iff {σ ε β α : Type} {clock : Clock σ} {schedule : Nat → Bool}
    {c : Bool} {n : Nat} {m : Moment ε β α} (h : m.Timely clock schedule c n) :
    m.Cancels ↔ m.Waits ∧ CancelledBefore schedule c (n + 1) := by
  cases m with
  | barred => simpa [Cancels, Waits] using cancelledBefore_succ.mpr (.inl h)
  | slept d r =>
    obtain ⟨before, rfl⟩ := h
    rw [cancelledBefore_succ, Clock.found]
    cases clock.token d with
    | some f => simp [Cancels, Waits]
    | none => cases schedule n <;> simp [Cancels, Waits, before]
  | _ => simp [Cancels, Waits]

theorem Journal.Timely.cancels_iff {σ ε β α : Type} {clock : Clock σ} {schedule : Nat → Bool}
    {c : Bool} {j : Journal ε β α} (h : j.Timely clock schedule c) :
    (∃ m ∈ j, m.Cancels) ↔ ∃ (i : Nat) (m : Moment ε β α), j[i]? = some m ∧ m.Waits ∧
      CancelledBefore schedule c (i + 1) := by
  constructor
  · rintro ⟨m, hm, hc⟩
    obtain ⟨i, hi⟩ := List.mem_iff_getElem?.mp hm
    exact ⟨i, m, hi, (h i m hi).cancels_iff.mp hc⟩
  · rintro ⟨i, m, hi, hc⟩
    exact ⟨m, List.mem_of_getElem? hi, (h i m hi).cancels_iff.mpr hc⟩

theorem Moment.not_cancels_of_attempt {ε β α : Type} {m : Moment ε β α} (h : m.OfAttempt) :
    ¬ m.Cancels := by
  cases m <;> simp_all [OfAttempt, Cancels]

@[simp] theorem Phase.lacks_cancels {ε β α : Type} (name : String) (attempt : Attempt)
    (phase : Phase) :
    Journal.Lacks Moment.Cancels (phase.moments name attempt : Journal ε β α) :=
  Journal.lacks_moments (fun _ h => h) name attempt phase

/-- A journal in which no wait was cancelled, between two turns. -/
structure Unaborted {ε β α : Type} (j : Journal ε β α) : Prop where
  slept : Journal.granted j = Journal.slept j
  invoked : (Journal.endings j).length = (Journal.granted j).length + 1
  calm : j.Lacks Moment.Cancels

/-- The journal and the signal of a call that was aborted with an error. The cancelled wait
is the last thing that happened, up to records; it did not sleep if it was barred. -/
def AbortedBy {σ ε β α : Type} (name : String) (e : Failure) (x : Journal ε β α × Signal × σ) :
    Prop :=
  ∃ before m after d, x.1 = before ++ m :: after ∧
    e = .abortedFor (.text name) (.waitCancelled (.text name)) ∧
    (m = .barred ∧ Journal.granted x.1 = Journal.slept x.1 ++ [d] ∨
      m = .slept d (.ok true) ∧ Journal.granted x.1 = Journal.slept x.1) ∧
    Journal.Lacks Moment.Cancels before ∧ (∀ m ∈ after, ∃ r, m = .recorded r) ∧
    (Journal.endings x.1).length = (Journal.granted x.1).length ∧ x.2.1.cancelled = true

section

variable {σ ε β α : Type} {S : Setting σ ε β α} {schedule : Nat → Bool}
  {clock : Clock σ} {name : String} {p q : Progress ε β}
  {x y : Journal ε β α × Signal × σ}

theorem paused_signalled {d : Delay} {c : Record} {r : Except Failure (Option Failure)}
    (hc : Wait.note d = .ok c)
    (h : ((S.heeding schedule clock).pause name d).perform x = (r, y)) :
    (∃ f, r = .error f ∧ y.1 = x.1 ++ [.slept d (.error f)]) ∨
      (r = .ok none ∧ y.1 = x.1 ++ [.slept d (.ok false)]) ∨
      ∃ m, r = .ok (some (.waitCancelled (.text name))) ∧
        (m = .barred ∨ m = .slept d (.ok true)) ∧ y.1 = x.1 ++ [m, .recorded c] ∧
        y.2.1.cancelled = true := by
  have hp := (perform_signalled _ _ _ name hc x).symm.trans h
  cases hg : x.2.1.cancelled with
  | true =>
    rw [hg, if_pos rfl, Prod.mk.injEq] at hp
    obtain ⟨rfl, rfl⟩ := hp
    exact .inr (.inr ⟨.barred, rfl, .inl rfl, List.append_assoc _ _ _, rfl⟩)
  | false =>
    rw [hg, if_neg (by simp)] at hp
    cases ht : clock.token d with
    | some f =>
      rw [ht, Prod.mk.injEq] at hp
      obtain ⟨rfl, rfl⟩ := hp
      exact .inl ⟨f, rfl, rfl⟩
    | none =>
      rw [ht] at hp
      dsimp only at hp
      cases hs : schedule x.2.1.moment with
      | true =>
        rw [hs, if_pos rfl, Prod.mk.injEq] at hp
        obtain ⟨rfl, rfl⟩ := hp
        exact .inr (.inr ⟨.slept d (.ok true), rfl, .inr rfl, List.append_assoc _ _ _, rfl⟩)
      | false =>
        rw [hs, if_neg (by simp), Prod.mk.injEq] at hp
        obtain ⟨rfl, rfl⟩ := hp
        exact .inr (.inl ⟨rfl, rfl⟩)

/-- How a wait by the signal ends a turn, or lets it go on. It fails if it cannot be put in
words, if the logger fails with its record, or if its delay is refused. -/
theorem awaited_signalled (hrecords : S.RecordsAborts) {d : Delay}
    {r : Except Failure (Option Failure)}
    (h : (S.heeding schedule clock).Awaited name p d x (r, y)) :
    (∃ f l, r = .error f ∧ y.1 = x.1 ++ l ∧ Journal.Lacks Moment.Cancels l) ∨
      (∃ b, r = .ok none ∧ y.1 = x.1 ++ [.recorded b, .slept d (.ok false)]) ∨
      ∃ b m c, r = .ok (some (.abortedFor (.text name) (.waitCancelled (.text name)))) ∧
        (m = .barred ∨ m = .slept d (.ok true)) ∧
        y.1 = x.1 ++ [.recorded b] ++ m :: .recorded c ::
          Phase.waitCancelled.moments name p.state.attempt ∧
        y.2.1.cancelled = true := by
  cases h with
  | unworded word => exact .inl ⟨_, [], rfl, by simp, by simp⟩
  | unkept keep => exact .inl ⟨_, [], rfl, by simp, by simp⟩
  | @unkeptEnd b _ f t word pause keep =>
    have records : (S.heeding schedule clock).RecordsAborts :=
      fun name attempt r x => hrecords name attempt r x.2.2
    exact absurd keep (records.kept name)
  | @unpaused b f _ word pause =>
    obtain ⟨c, hc⟩ := Wait.note_of_waiting word
    obtain ⟨g, hr, hy⟩ | ⟨hr, -⟩ | ⟨m, hr, -⟩ := paused_signalled hc pause
    · refine .inl ⟨f, [.recorded b, .slept d (.error g)], rfl, ?_, by simp [Moment.Cancels]⟩
      rw [hy, Setting.journaled_emit]
      simp
    · exact absurd hr (by simp)
    · exact absurd hr (by simp)
  | @passed b _ word pause =>
    obtain ⟨c, hc⟩ := Wait.note_of_waiting word
    obtain ⟨_, hr, -⟩ | ⟨-, hy⟩ | ⟨m, hr, -⟩ := paused_signalled hc pause
    · exact absurd hr (by simp)
    · exact .inr (.inl ⟨b, rfl, by rw [hy, Setting.journaled_emit]; simp⟩)
    · exact absurd hr (by simp)
  | @cancelled b cause t word pause =>
    obtain ⟨c, hc⟩ := Wait.note_of_waiting word
    obtain ⟨_, hr, -⟩ | ⟨hr, -⟩ | ⟨m, hr, hm, hy, hg⟩ := paused_signalled hc pause
    · exact absurd hr (by simp)
    · exact absurd hr (by simp)
    obtain rfl : cause = .waitCancelled (.text name) := by simpa using hr
    refine .inr (.inr ⟨b, m, c, rfl, hm, ?_, ?_⟩)
    · rw [Setting.journaled_said, hy, Setting.journaled_emit]
      simp
    · rw [Setting.journaled_said]
      exact (heeds_amid S schedule).said _ _ _ _ hg

/-! ## Between two turns -/

/-- What neither grants, nor waits, nor invokes keeps a journal as it is. -/
theorem Unaborted.grow {j l : Journal ε β α} (h : Unaborted j) (hg : Journal.granted l = [])
    (hs : Journal.slept l = []) (he : Journal.endings l = []) (hl : l.Lacks Moment.Cancels) :
    Unaborted (j ++ l) := by
  have hslept := h.slept
  have hinvoked := h.invoked
  exact ⟨by simp [hg, hs, hslept], by simp [he, hg, hinvoked], by simp [h.calm, hl]⟩

theorem Unaborted.refused (h : Unaborted x.1)
    (hc : (S.heeding schedule clock).Consulted name p x (.ok (none, q), y)) :
    Unaborted y.1 := by
  obtain ⟨e, -, hy⟩ | ⟨d, e, b, stop, -, hy⟩ := Setting.journaled_refused hc
  · rw [hy]
    exact h.grow rfl rfl rfl (by simp [Moment.Cancels])
  · rw [hy]
    exact h.grow (by simp [Moment.granted?, stop]) (by simp [Moment.slept?])
      (by simp [Moment.ending?]) (by simp [Moment.Cancels])

theorem Unaborted.turned_refused (h : Unaborted x.1)
    (ht : (S.heeding schedule clock).Turned name p x (.ok (.refused q), y)) :
    Unaborted y.1 := by
  cases ht with
  | refused consult => exact h.refused consult
  | reattempted _ _ reattempt => cases reattempt

/-- A turn that goes on grants a delay, sleeps it, and invokes the operation. -/
theorem Unaborted.again (hrecords : S.RecordsAborts) (h : Unaborted x.1)
    (ht : (S.heeding schedule clock).Turned name p x (.ok (.again q), y)) :
    Unaborted y.1 := by
  cases ht with
  | @reattempted d p' t u _ consult await reattempt =>
    obtain ⟨go, e, b, -, ht⟩ := Setting.journaled_granted consult
    obtain ⟨_, _, hr, -⟩ | ⟨c, -, hu⟩ | ⟨_, _, _, hr, -⟩ := awaited_signalled hrecords await
    · exact absurd hr (by simp)
    · obtain ⟨a, f, n, m, -, -, hy⟩ := Setting.journaled_failed reattempt
      rw [hy, hu, ht]
      have hs := h.slept
      have hi := h.invoked
      exact ⟨by simp [Moment.granted?, Moment.slept?, go, hs],
        by simp [Moment.granted?, Moment.ending?, go, hi], by simp [Moment.Cancels, h.calm]⟩
    · exact absurd hr (by simp)

/-! ## How the turns end -/

/-- A call in which no wait was cancelled. If it got to an end of its loop, it slept all
delays that were granted. -/
structure Calm (y : Except Failure (Option (Ending α)) × Journal ε β α × Signal × σ) : Prop where
  unaborted : ∀ e, y.1 ≠ .ok (some (.aborted e))
  calm : y.2.1.Lacks Moment.Cancels
  slept : ∀ r, y.1 = .ok r → Journal.granted y.2.1 = Journal.slept y.2.1

def AbortedOrCalm (name : String)
    (y : Except Failure (Option (Ending α)) × Journal ε β α × Signal × σ) : Prop :=
  (∃ e, y.1 = .ok (some (.aborted e)) ∧ AbortedBy name e y.2) ∨ Calm y

theorem Calm.of_error {f : Failure} {x : Journal ε β α × Signal × σ}
    (h : x.1.Lacks Moment.Cancels) : Calm (.error f, x) :=
  ⟨by simp, h, by simp⟩

theorem Unaborted.gaveUp {r : Except Failure Failure} (h : Unaborted x.1)
    (hg : (S.heeding schedule clock).GaveUp name p x (r, y)) :
    y.1.Lacks Moment.Cancels ∧ Journal.granted y.1 = Journal.slept y.1 := by
  have hs := h.slept
  obtain hy | ⟨_, _, hy⟩ := Setting.journaled_gaveUp hg <;> rw [hy]
  · exact ⟨h.calm, hs⟩
  · exact ⟨by simp [Moment.Cancels, h.calm], by simp [Moment.granted?, Moment.slept?, hs]⟩

theorem Unaborted.ended (hrecords : S.RecordsAborts) {e : Ending α} (h : Unaborted x.1)
    (ht : (S.heeding schedule clock).Turned name p x (.ok (.ended e), y)) :
    AbortedOrCalm name (.ok (some e), y) := by
  have hs := h.slept
  have hi := h.invoked
  cases ht with
  | @aborted d p' f t _ consult await =>
    obtain ⟨go, _, _, -, ht⟩ := Setting.journaled_granted consult
    obtain ⟨_, _, hr, -⟩ | ⟨_, hr, -⟩ | ⟨b, m, c, hr, hm, hu, hg⟩ :=
      awaited_signalled hrecords await
    · exact absurd hr (by simp)
    · exact absurd hr (by simp)
    obtain rfl : f = .abortedFor (.text name) (.waitCancelled (.text name)) := by simpa using hr
    refine .inl ⟨_, rfl, _, m, _, d, hu, rfl, ?_, ?_, ?_, ?_, hg⟩
    · obtain rfl | rfl := hm
      · exact .inl ⟨rfl, by simp [hu, ht, Moment.granted?, Moment.slept?, go, hs]⟩
      · exact .inr ⟨rfl, by simp [hu, ht, Moment.granted?, Moment.slept?, go, hs]⟩
    · simp [ht, Moment.Cancels, h.calm]
    · simp only [List.forall_mem_cons]
      exact ⟨⟨c, rfl⟩, Phase.moments_recorded _ _ _⟩
    · obtain rfl | rfl := hm <;>
        simp [hu, ht, Moment.granted?, Moment.ending?, go, hi]
  | @reattempted d p' t u _ consult await reattempt =>
    obtain ⟨go, _, _, -, ht⟩ := Setting.journaled_granted consult
    obtain ⟨_, _, hr, -⟩ | ⟨_, -, hu⟩ | ⟨_, _, _, hr, -⟩ := awaited_signalled hrecords await
    · exact absurd hr (by simp)
    · obtain ⟨a, v, n, m, rfl, hy⟩ := Setting.journaled_succeeded reattempt
      refine .inr ⟨fun e he => by simp at he, ?_, fun _ _ => ?_⟩
      · simp [hy, hu, ht, Moment.Cancels, h.calm]
      · simp [hy, hu, ht, Moment.granted?, Moment.slept?, go, hs]
    · exact absurd hr (by simp)

/-- A failure that the loop did not make itself comes before or after all waits. -/
theorem Unaborted.failed (hrecords : S.RecordsAborts) {f : Failure} (h : Unaborted x.1)
    (ht : (S.heeding schedule clock).Turned name p x (.error f, y)) :
    y.1.Lacks Moment.Cancels := by
  cases ht with
  | unconsulted consult =>
    obtain ⟨_, hy⟩ | ⟨_, _, hy⟩ | ⟨_, _, _, -, hy⟩ := Setting.journaled_unconsulted consult
    · simp [hy, Moment.Cancels, h.calm]
    · simp [hy, Moment.Cancels, h.calm]
    · simp [hy, Moment.Cancels, h.calm]
  | @unawaited d p' _ t _ consult await =>
    obtain ⟨-, _, _, -, ht⟩ := Setting.journaled_granted consult
    obtain ⟨_, l, -, hu, hl⟩ | ⟨_, hr, -⟩ | ⟨_, _, _, hr, -⟩ := awaited_signalled hrecords await
    · simp [hu, ht, Moment.Cancels, h.calm, hl]
    · exact absurd hr (by simp)
    · exact absurd hr (by simp)
  | @reattempted d p' t u _ consult await reattempt =>
    obtain ⟨-, _, _, -, ht⟩ := Setting.journaled_granted consult
    obtain ⟨_, _, hr, -⟩ | ⟨_, -, hu⟩ | ⟨_, _, _, hr, -⟩ := awaited_signalled hrecords await
    · exact absurd hr (by simp)
    · obtain ⟨l, hy, hl⟩ := Setting.journaled_reattempted reattempt
      have attempt : l.Lacks Moment.Cancels := fun m hm => Moment.not_cancels_of_attempt (hl m hm)
      simp [hy, hu, ht, Moment.Cancels, h.calm, attempt]
    · exact absurd hr (by simp)

theorem Unaborted.turns (hrecords : S.RecordsAborts) (fuel : Nat) (p : Progress ε β)
    (x : Journal ε β α × Signal × σ)
    (h : Unaborted x.1) :
    AbortedOrCalm name (((S.heeding schedule clock).turns name fuel p).perform x) := by
  have inv := (S.heeding schedule clock).turns_invariant name
    (I := fun _ _ x => Unaborted x.1) (Q := AbortedOrCalm name)
    (fun _ p x q y h ht => h.again hrecords ht) (fun _ p x e y h ht => h.ended hrecords ht)
    (fun _ p x f y h ht => .inr (.of_error (h.failed hrecords ht))) ?refused fuel 0 p x h
  case refused =>
    intro _ p x q y h ht
    refine ⟨fun f u hg => ?_, fun f u hg => ?_⟩
    · exact .inr (.of_error ((h.turned_refused ht).gaveUp hg).1)
    · obtain ⟨hcalm, hslept⟩ := (h.turned_refused ht).gaveUp hg
      exact .inr ⟨by simp, hcalm, fun _ _ => hslept⟩
  obtain hq | ⟨q, y, hy, hq⟩ := inv
  · exact hq
  · rw [hy]
    exact .inr ⟨by simp, hq.calm, fun _ _ => hq.slept⟩

/-! ## Whole calls -/

theorem unaborted_first (f : Failure) :
    Unaborted ([] ++ (Phase.starting.moments name 1 ++ [.invoked (.error f)] ++
      (Phase.failed f).moments name 1) : Journal ε β α) := by
  exact ⟨by simp [Moment.granted?, Moment.slept?], by simp [Moment.granted?, Moment.ending?],
    by simp [Moment.Cancels]⟩

theorem abortedOrCalm_run (hrecords : S.RecordsAborts) (fuel : Nat) (c : Bool) (s : σ) :
    AbortedOrCalm name (((S.heeding schedule clock).run name fuel).perform ([], ⟨0, c⟩, s)) := by
  have hb := (S.heeding schedule clock).began name fuel ([], ⟨0, c⟩, s)
  generalize ((S.heeding schedule clock).run name fuel).perform ([], ⟨0, c⟩, s) = z at hb
  -- the first invocation comes before all waits
  have calm {r : Except Failure α} {t : Journal ε β α × Signal × σ}
      (invoke : (S.heeding schedule clock).invoke.perform
        ((S.heeding schedule clock).said name 1 .starting ([], ⟨0, c⟩, s)) = (r, t)) :
      t.1.Lacks Moment.Cancels := by
    simp [Setting.journaled_tried invoke, Moment.Cancels]
  cases hb with
  | unkept => exact .inr (.of_error (by simp))
  | unkeptSuccess invoke => exact .inr (.of_error (calm invoke))
  | unkeptFailure invoke => exact .inr (.of_error (calm invoke))
  | succeeded invoke =>
    refine .inr ⟨by simp, by simp [Setting.journaled_said, calm invoke], fun _ _ => ?_⟩
    simp [Setting.journaled_said, Setting.journaled_tried invoke, Moment.granted?, Moment.slept?]
  | interrupted invoke => exact .inr (.of_error (calm invoke))
  | unruled invoke _ rule =>
    refine .inr (.of_error ?_)
    rw [Setting.journaled_first invoke rule]
    exact (unaborted_first _).calm
  | unpaced invoke _ rule pace =>
    obtain ⟨hv, -⟩ := Setting.journaled_openBackoff pace
    refine .inr (.of_error ?_)
    rw [hv, Setting.journaled_first invoke rule]
    exact (unaborted_first _).calm
  | failed invoke _ rule pace =>
    obtain ⟨hv, -⟩ := Setting.journaled_openBackoff pace
    refine Unaborted.turns hrecords fuel _ _ ?_
    rw [hv, Setting.journaled_first invoke rule]
    exact unaborted_first _

end

theorem AbortedBy.cancels {σ ε β α : Type} {name : String} {e : Failure}
    {x : Journal ε β α × Signal × σ} (h : AbortedBy name e x) : ∃ m ∈ x.1, m.Cancels := by
  obtain ⟨before, m, after, d, hx, -, hm, -⟩ := h
  refine ⟨m, by simp [hx], ?_⟩
  obtain ⟨rfl, -⟩ | ⟨rfl, -⟩ := hm
  · trivial
  · trivial

/-- **Cancelled waits abort a call, and nothing else does.** A call is aborted if and only if
the token is cancelled before one of its waits or during it; the logger has to keep the record
of that. An aborted call has done what
`AbortedBy` says, and its error is chained to the cancellation of the wait. Any other call
has slept all delays that were granted if it got to an end, has left the token as the
schedule made it, and is the same call without the token if a sleep takes its delays as the
wait for a token does. -/
theorem cancelled_wait_aborts {σ ε β α : Type} (S : Setting σ ε β α) (schedule : Nat → Bool)
    (clock : Clock σ) (hrecords : S.RecordsAborts) (operation : Operation) (fuel : Nat)
    (c : Bool) (s : σ) :
    let T := (S.amid (Signal.pass schedule)).kept (Waiting.signalled schedule clock)
    let x := (Mode.blocking.run T operation fuel).perform ([], ⟨0, c⟩, s)
    let y := (Mode.blocking.call T operation fuel).perform ([], ⟨0, c⟩, s)
    ((∃ e, x.1 = .ok (some (.aborted e))) ↔ ∃ (i : Nat) (m : Moment ε β α),
      x.2.1[i]? = some m ∧ m.Waits ∧ CancelledBefore schedule c (i + 1)) ∧
    x.2.1.Timely clock schedule c ∧
    (∀ e, x.1 = .ok (some (.aborted e)) → y = (.error e, x.2) ∧
      ∃ name, operation.displayName = .ok name ∧ AbortedBy name e x.2 ∧
        e.chained? = some (.waitCancelled (.text name))) ∧
    ((∀ e, x.1 ≠ .ok (some (.aborted e))) →
      (∀ r, x.1 = .ok r → Journal.granted x.2.1 = Journal.slept x.2.1) ∧
      x.2.2.1 = Signal.after schedule c x.2.1.length ∧
      ((∀ d ∈ Journal.slept x.2.1, clock.sleep d = clock.token d) →
        (Mode.blocking.call (S.kept (Waiting.plain clock)) operation fuel).perform ([], s) =
          (y.1, y.2.1, y.2.2.2))) := by
  intro T x y
  have hy : y = Mode.blocking.delivered x := Mode.perform_call _ _ _ _ _
  have hx : (∃ name, AbortedOrCalm name x ∧ ∀ e, x.1 = .ok (some (.aborted e)) →
      operation.displayName = .ok name) ∧ x.2.1.Timely clock schedule c ∧
        ((∀ e, x.1 ≠ .ok (some (.aborted e))) →
          x.2.2.1 = Signal.after schedule c x.2.1.length) := by
    rcases hname : operation.displayName with f | name
    · have hx : x = (.error f, [], ⟨0, c⟩, s) := Mode.perform_run_unnamed _ _ hname _ _
      rw [hx]
      exact ⟨⟨"", .inr (.of_error (by simp)), by simp⟩, by simp [Journal.Timely], fun _ => rfl⟩
    · rw [show x = _ from Mode.perform_run_blocking T hname fuel _]
      exact ⟨⟨name, abortedOrCalm_run hrecords fuel c s, fun _ _ => rfl⟩,
        timely_run S schedule clock c hrecords name fuel s⟩
  obtain ⟨⟨name, hends, hname⟩, htimely, hsignal⟩ := hx
  rw [← htimely.cancels_iff]
  obtain ⟨e, he, hab⟩ | hcalm := hends
  · refine ⟨⟨fun _ => hab.cancels, fun _ => ⟨e, he⟩⟩, htimely, fun e' he' => ?_,
      fun hno => absurd he (hno e)⟩
    obtain rfl : e = e' := by simpa using he.symm.trans he'
    refine ⟨?_, name, hname e he, hab, ?_⟩
    · rw [hy, show x = (.ok (some (.aborted e)), x.2) from Prod.ext he rfl]
      rfl
    · obtain ⟨_, _, _, _, -, rfl, -⟩ := hab
      rfl
  · have hno := hcalm.unaborted
    refine ⟨⟨?_, ?_⟩, htimely, fun e he => absurd he (hno e),
      fun _ => ⟨hcalm.slept, hsignal hno, fun htaken => ?_⟩⟩
    · rintro ⟨e, he⟩
      exact absurd he (hno e)
    · rintro ⟨m, hm, hc⟩
      exact absurd hc (hcalm.calm m hm)
    exact call_plain (Setting.alike_unwatched _ S _) (heeds_amid S schedule)
      (fun name attempt r x => hrecords name attempt r x.2) schedule clock operation
      fuel c s (fun e y h => absurd (congrArg Prod.fst h) (hno e)) htaken

theorem cancelled_wait_aborts_failing :
    (failing true (.ok ())).RecordsAborts ∧
    let T := ((failing true (.ok ())).amid (Signal.pass fun i => i == 1)).kept
      (Waiting.signalled (fun i => i == 1) (.patient Nat))
    let x := (Mode.blocking.run T (.function "fetch") 3).perform ([], ⟨0, false⟩, 0)
    let y := (Mode.blocking.call T (.function "fetch") 3).perform ([], ⟨0, false⟩, 0)
    ∃ e, x.1 = .ok (some (.aborted e)) ∧ y = (.error e, x.2) ∧
      ∃ name, (Operation.function "fetch").displayName = .ok name ∧ AbortedBy name e x.2 ∧
        e.chained? = some (.waitCancelled (.text name)) := by
  refine ⟨fun _ _ _ _ _ => rfl, ?_⟩
  obtain ⟨aborts, -, aborted, -⟩ := cancelled_wait_aborts (failing true (.ok ()))
    (fun i => i == 1) (.patient Nat) (fun _ _ _ _ _ => rfl) (.function "fetch") 3 false 0
  have barred : (Option.map Moment.isBarred
      ((Mode.blocking.run (((failing true (.ok ())).amid (Signal.pass fun i => i == 1)).kept
        (Waiting.signalled (fun i => i == 1) (.patient Nat))) (.function "fetch") 3).perform
          ([], ⟨0, false⟩, 0)).2.1[6]?) = some true := by
    decide +kernel
  obtain ⟨m, hm, hb⟩ := Option.map_eq_some_iff.mp barred
  obtain ⟨e, he⟩ := aborts.mpr ⟨6, m, hm, Moment.waits_of_isBarred hb, .inr ⟨1, by decide, rfl⟩⟩
  exact ⟨e, he, aborted e he⟩

end Retry
