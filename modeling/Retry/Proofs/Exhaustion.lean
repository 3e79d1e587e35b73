import Mathlib.Data.List.Forall2
import Retry.Proofs.FirstBlocking

/-!
# No failure is lost

When the retries of a call run out, its error holds the failures of all invocations: the
first one as its cause and the others after it, in the order of the invocations. The loop
carries the failures from turn to turn, and the journal has the invocations that they came
from, so what has to hold between turns (`Accounted`) is that the two lists agree.

A listener may add failures to the one it is told of (`Failure.GrowsTo`). That is then the
failure that the error holds.

Main statements: `exhausted_accounts` (for both modes and any collaborators),
`faithful_of_listener` (what a journal has of a listener that leaves events so).
-/

namespace Retry

/-- The second failure is the first one, after failures may have been added to it. -/
def Failure.GrowsTo (f g : Failure) : Prop :=
  ∃ added : List Failure, added.foldlM addSuppressed f = .ok g

theorem Failure.growsTo_self (f : Failure) : f.GrowsTo f := ⟨[], rfl⟩

/-- What a listener may leave of an event: a failed attempt with the same failure, as `Same`
has it, and an exhausted call with the error that it has. -/
def Event.Left {α : Type} (Same : Failure → Failure → Prop) : Event α → Event α → Prop
  | .failure f, left => ∃ g, left = .failure g ∧ Same f g
  | .exhaustion f, left => left = .exhaustion f
  | _, _ => True

namespace Moment

variable {ε β α : Type}

/-- If the listener is told, it leaves the event so. -/
def Faithful (Same : Failure → Failure → Prop) : Moment ε β α → Prop
  | .told notice _ left => notice.event.Left Same left.event
  | _ => True

/-- The listener is told that the retries ran out. -/
def Exhausts : Moment ε β α → Prop
  | .told ⟨_, .exhaustion _⟩ _ _ => True
  | _ => False

theorem not_exhausts_of_wait {m : Moment ε β α} (h : m.OfWait) : ¬ m.Exhausts := by
  cases m <;> simp_all [OfWait, Exhausts]

theorem faithful_of_wait {Same : Failure → Failure → Prop} {m : Moment ε β α} (h : m.OfWait) :
    m.Faithful Same := by
  cases m with
  | told => exact h.elim
  | _ => exact trivial

theorem Faithful.growsTo {m : Moment ε β α} (h : m.Faithful Eq) :
    m.Faithful Failure.GrowsTo := by
  cases m with
  | told notice _ left =>
    obtain ⟨state, event⟩ := notice
    cases event with
    | failure f =>
      obtain ⟨g, hg, rfl⟩ := h
      exact ⟨f, hg, f.growsTo_self⟩
    | exhaustion f => exact h
    | _ => trivial
  | _ => trivial

end Moment

/-! ## Faithful listeners -/

section

open Act

variable {σ ε β α : Type} {S : Setting σ ε β α} {w : Waiting σ}
  {Same : Failure → Failure → Prop}

def Journal.AllFaithful (Same : Failure → Failure → Prop) (x : Journal ε β α × σ) : Prop :=
  ∀ m ∈ x.1, m.Faithful Same

theorem Journal.AllFaithful.add {x y : Journal ε β α × σ} {m : Moment ε β α}
    (hx : AllFaithful Same x) (hy : y.1 = x.1 ++ [m]) (hm : m.Faithful Same) :
    AllFaithful Same y := by
  intro m' hm'
  rw [hy, List.mem_append, List.mem_singleton] at hm'
  obtain hm' | rfl := hm'
  · exact hx m' hm'
  · exact hm

/-- If the listener leaves all events so, whatever it is told, then it did so in the call. -/
theorem faithful_of_listener
    (hlisten : ∀ (n : Notice ε α) s, n.event.Left Same (S.notify.perform (n, s)).2.1.event)
    (operation : Operation) (fuel : Nat) (s : σ) :
    ∀ m ∈ ((w.mode.run (S.kept w) operation fuel).perform ([], s)).2.1, m.Faithful Same := by
  have hkept : Setting.Alike (Steady (Journal.AllFaithful Same)) (S.kept w) (S.kept w) :=
    { accept := by
        rintro r s _ ⟨rfl, -⟩
        rfl
      emit := by
        rintro r s _ ⟨rfl, hs⟩
        exact ⟨rfl, hs.add rfl trivial⟩
      invoke := exact_steady fun s hs => hs.add rfl trivial
      openPolicy := exact_steady fun s hs => hs
      openBackoff := exact_steady fun s hs => hs
      shouldRetry := fun f => exact_beside_steady fun e s hs => hs.add rfl trivial
      nextDelay := exact_beside_steady fun b s hs => hs.add rfl trivial
      notify := exact_beside_steady fun n s hs => hs.add rfl (hlisten n s.2) }
  have hpause : ∀ name d, Exact (Steady (Journal.AllFaithful Same)) ((S.kept w).pause name d)
      ((S.kept w).pause name d) := by
    refine fun name d => exact_steady fun x hx m hm => ?_
    obtain ⟨l, hl, hwait⟩ := adds_pause w S.emit name d x
    have hm : m ∈ x.1 ++ l := hl ▸ hm
    exact (List.mem_append.mp hm).elim (hx m) fun hm => Moment.faithful_of_wait (hwait m hm).ofWait
  exact ((w.mode.exact_run hkept hpause operation fuel) ([], s) ([], s)
    ⟨rfl, by simp [Journal.AllFaithful]⟩).same.2.2

end

/-! ## Failures that are carried -/

/-- The failures that a call carries are those of the invocations in its journal. -/
structure Accounted {ε β α : Type} (Same : Failure → Failure → Prop) (p : Progress ε β)
    (j : Journal ε β α) : Prop where
  ordinary : p.first.ordinary = true
  going : j.Lacks Moment.Exhausts
  failures : (∀ m ∈ j, m.Faithful Same) → ∃ later,
    Journal.endings j = (p.first :: later).map .error ∧ List.Forall₂ Same later p.later

namespace Accounted

variable {σ ε β α : Type} {S : Setting σ ε β α} {w : Waiting σ} {name : String}
  {Same : Failure → Failure → Prop} {p q : Progress ε β} {j k l : Journal ε β α}

theorem grow (h : Accounted Same p j) (hk : k = j ++ l) (hl : l.Lacks Moment.Exhausts)
    (he : Journal.endings l = []) (hf : q.first = p.first) (hs : q.later = p.later) :
    Accounted Same q k := by
  subst hk
  refine ⟨hf ▸ h.ordinary, by simp [h.going, hl], fun hj => ?_⟩
  · obtain ⟨later, hl, hsame⟩ := h.failures fun m hm => hj m (List.mem_append_left _ hm)
    refine ⟨later, ?_, hs ▸ hsame⟩
    calc Journal.endings (j ++ l) = Journal.endings j ++ Journal.endings l :=
          Journal.pick_append ..
      _ = _ := by rw [he, hl, hf, List.append_nil]

@[simp] theorem lacks_exhausts (name : String) (attempt : Attempt) (phase : Phase) :
    Journal.Lacks Moment.Exhausts (phase.moments name attempt : Journal ε β α) :=
  Journal.lacks_moments (fun _ h => h) name attempt phase

theorem granted {x y : Journal ε β α × σ} {d : Delay} (h : Accounted Same p x.1)
    (hc : (S.kept w).Consulted name p x (.ok (some d, q), y)) : Accounted Same q y.1 := by
  obtain ⟨-, e, b, rfl, hy⟩ := Setting.journaled_granted hc
  exact h.grow hy (by simp [Moment.Exhausts]) rfl rfl rfl

theorem refused {x y : Journal ε β α × σ} (h : Accounted Same p x.1)
    (hc : (S.kept w).Consulted name p x (.ok (none, q), y)) : Accounted Same q y.1 := by
  obtain ⟨e, rfl, hy⟩ | ⟨d, e, b, -, rfl, hy⟩ := Setting.journaled_refused hc
  · exact h.grow hy (by simp [Moment.Exhausts]) rfl rfl rfl
  · exact h.grow hy (by simp [Moment.Exhausts]) (by simp [Moment.ending?]) rfl rfl

theorem awaited {x y : Journal ε β α × σ} {d : Delay} {r : Except Failure (Option Failure)}
    (h : Accounted Same p x.1) (ha : (S.kept w).Awaited name p d x (r, y)) :
    Accounted Same p y.1 := by
  obtain ⟨l, hy, hl⟩ := Setting.journaled_awaited ha
  exact h.grow hy (fun m hm => Moment.not_exhausts_of_wait (hl m hm)) (Journal.endings_of_wait hl)
    rfl rfl

/-- Another attempt that failed is one more failure to carry. -/
theorem reattempted {x y : Journal ε β α × σ} (h : Accounted Same p x.1)
    (hr : (S.kept w).Reattempted name p x (.ok (.again q), y)) : Accounted Same q y.1 := by
  obtain ⟨a, f, n, m, -, rfl, hy⟩ := Setting.journaled_failed hr
  refine ⟨h.ordinary, by simp [hy, Moment.Exhausts, h.going], fun hj => ?_⟩
  · obtain ⟨later, hl, hs⟩ := h.failures fun m hm => hj m (hy ▸ List.mem_append_left _ hm)
    have hm : Moment.Faithful Same (.told ⟨n.state, .failure f⟩ (.ok ()) m) := hj _ (by simp [hy])
    obtain ⟨g, hg, hfg⟩ := hm
    refine ⟨later ++ [f], ?_, List.rel_append hs (.cons ?_ .nil)⟩
    · rw [hy]
      simp [hl, Moment.ending?, Progress.failed]
    · rw [hg]
      exact hfg

theorem again {x y : Journal ε β α × σ} (h : Accounted Same p x.1)
    (ht : (S.kept w).Turned name p x (.ok (.again q), y)) : Accounted Same q y.1 := by
  cases ht with
  | reattempted consult await reattempt =>
    exact ((h.granted consult).awaited await).reattempted reattempt

theorem turned_refused {x y : Journal ε β α × σ} (h : Accounted Same p x.1)
    (ht : (S.kept w).Turned name p x (.ok (.refused q), y)) : Accounted Same q y.1 := by
  cases ht with
  | refused consult => exact h.refused consult
  | reattempted _ _ reattempt => cases reattempt

end Accounted

/-- The journal of a call whose retries ran out with an error: all invocations failed, the
error holds their failures, and it is what the listener was told last. -/
def ExhaustedBy {ε β α : Type} (Same : Failure → Failure → Prop) (name : String) (e : Failure)
    (j : Journal ε β α) : Prop :=
  ∃ first retried later before state left, first.ordinary = true ∧
    e = .exhaustedFor (.text name) first later ∧
    Journal.endings j = (first :: retried).map .error ∧ List.Forall₂ Same retried later ∧
    j = before ++ [.told ⟨state, .exhaustion e⟩ (.ok ()) left] ∧
    Journal.Lacks Moment.Exhausts before

section

variable {σ ε β α : Type} {S : Setting σ ε β α} {w : Waiting σ} {name : String}
  {Same : Failure → Failure → Prop}

theorem exhaustedBy_of_gaveUp {p : Progress ε β} {e : Failure} {x y : Journal ε β α × σ}
    (h : Accounted Same p x.1) (hg : (S.kept w).GaveUp name p x (.ok e, y))
    (hj : ∀ m ∈ y.1, m.Faithful Same) : ExhaustedBy Same name e y.1 := by
  obtain ⟨n, he, hy⟩ := Setting.journaled_exhausted hg
  have hn : Moment.Faithful Same
      (.told ⟨p.state, .exhaustion (.exhaustedFor (.text name) p.first p.later)⟩ (.ok ()) n) :=
    hj _ (by simp [hy])
  have hleft : n.event = .exhaustion (.exhaustedFor (.text name) p.first p.later) := hn
  rw [hleft] at he
  obtain rfl : e = .exhaustedFor (.text name) p.first p.later := he
  obtain ⟨retried, hends, hsame⟩ := h.failures fun m hm => hj m (hy ▸ List.mem_append_left _ hm)
  refine ⟨p.first, retried, p.later, x.1 ++ Phase.exhausted.moments name p.state.attempt, p.state,
    n, h.ordinary, rfl, ?_, hsame, by rw [hy, List.append_assoc], by simp [h.going]⟩
  rw [hy]
  simp [hends, Moment.ending?]

theorem exhaustedBy_of_turns (fuel : Nat) (p : Progress ε β) (x : Journal ε β α × σ)
    (h : Accounted Same p x.1) {e : Failure} {y : Journal ε β α × σ}
    (ht : ((S.kept w).turns name fuel p).perform x = (.ok (some (.exhausted e)), y))
    (hj : ∀ m ∈ y.1, m.Faithful Same) : ExhaustedBy Same name e y.1 := by
  have inv := (S.kept w).turns_invariant name (I := fun _ p x => Accounted Same p x.1)
    (Q := fun y => ∀ e, y.1 = .ok (some (.exhausted e)) → (∀ m ∈ y.2.1, m.Faithful Same) →
      ExhaustedBy Same name e y.2.1)
    (fun _ p x q y h ht => h.again ht) ?ended (by simp)
    (fun _ p x q y h ht => ⟨by simp, ?refused⟩) fuel 0 p x h
  case ended =>
    intro _ p x e y _ ht f he
    cases ht with
    | aborted => simp at he
    | reattempted _ _ reattempt => cases reattempt; simp at he
  case refused =>
    intro f z hg e he hj
    simp only [Except.ok.injEq, Option.some.injEq, Ending.exhausted.injEq] at he
    subst he
    exact exhaustedBy_of_gaveUp (h.turned_refused ht) hg hj
  obtain hq | ⟨q, z, hz, -⟩ := inv
  · rw [ht] at hq
    exact hq e rfl hj
  · rw [ht] at hz
    simp at hz

/-- The first failure is the one that the call carries from its beginning. -/
theorem Accounted.begin {f : Failure} {e : ε} {b : β} {s : σ} {x y z : Journal ε β α × σ}
    (plain : f.ordinary = true)
    (invoke : (S.kept w).invoke.perform ((S.kept w).said name 1 .starting ([], s)) =
      (.error f, x))
    (rule : (S.kept w).openPolicy.perform ((S.kept w).said name 1 (.failed f) x) =
      (.ok e, y))
    (pace : (S.kept w).openBackoff.perform y = (.ok b, z)) :
    Accounted Same (Progress.opening name f e b) z.1 := by
  have hy := Setting.journaled_first invoke rule
  obtain ⟨hz, -⟩ := Setting.journaled_openBackoff pace
  have hj : z.1 = Phase.starting.moments name 1 ++ [.invoked (.error f)] ++
      (Phase.failed f).moments name 1 := by rw [hz, hy, List.nil_append]
  refine ⟨plain, by simp [hj, Moment.Exhausts], fun _ => ⟨[], ?_, .nil⟩⟩
  rw [hj]
  simp [Moment.ending?, Progress.opening]

theorem exhaustedBy_of_run (fuel : Nat) (s : σ) {e : Failure} {y : Journal ε β α × σ}
    (hr : ((S.kept w).run name fuel).perform ([], s) = (.ok (some (.exhausted e)), y))
    (hj : ∀ m ∈ y.1, m.Faithful Same) : ExhaustedBy Same name e y.1 := by
  have hb := (S.kept w).began name fuel ([], s)
  generalize hz : ((S.kept w).run name fuel).perform ([], s) = z at hb
  rw [hr] at hz
  cases hb with
  | unkept => simp at hz
  | unkeptSuccess => simp at hz
  | unkeptFailure => simp at hz
  | succeeded => simp at hz
  | interrupted => simp at hz
  | unruled => simp at hz
  | unpaced => simp at hz
  | failed invoke plain rule pace =>
    exact exhaustedBy_of_turns fuel _ _ (.begin plain invoke rule pace) hz.symm hj

end

theorem leaving_exhaustedFor (mode : Mode) (operation : Datum) (first : Failure)
    (later : List Failure) :
    mode.leaving (.exhaustedFor operation first later) = .exhaustedFor operation first later := by
  cases mode <;> rfl

theorem chained_exhaustedFor (operation : Datum) {first : Failure} (later : List Failure)
    (h : first.ordinary = true) :
    (Failure.exhaustedFor operation first later).chained? = some first := by
  have present : first.isMissing = false := by
    rw [Failure.isMissing, decide_eq_false_iff_not]
    intro hk
    rw [Failure.ordinary, hk] at h
    exact absurd h (by decide)
  simp [Failure.exhaustedFor, Failure.exhaustedWith, Failure.chained?, Failure.present?, present]

/-- **No failure is lost, duplicated or reordered.** If the loop of a call ends in
exhaustion, and the listener did nothing to the failures but add to those of attempts, then
the error is what the caller gets and what the listener was told last. Its errors are the
failures of all invocations in order, as the listener left them; its cause, and what it is
chained to, is the first of them; it counts the invocations, and names the operation. -/
theorem exhausted_accounts {σ ε β α : Type} (S : Setting σ ε β α) (w : Waiting σ)
    (operation : Operation) (fuel : Nat) (s t : σ) (e : Failure) (j : Journal ε β α)
    (hrun : (w.mode.run (S.kept w) operation fuel).perform ([], s) =
      (.ok (some (.exhausted e)), j, t))
    (hj : ∀ m ∈ j, m.Faithful Failure.GrowsTo) :
    (w.mode.call (S.kept w) operation fuel).perform ([], s) = (.error e, j, t) ∧
    ∃ name first retried later, operation.displayName = .ok name ∧
      Journal.endings j = (first :: retried).map .error ∧
      e = .exhaustedFor (.text name) first later ∧
      e.errors = .ok (first :: later) ∧ List.Forall₂ Failure.GrowsTo retried later ∧
      ((∀ m ∈ j, m.Faithful Eq) → e.errors = .ok (first :: retried)) ∧
      e.attempts? = some (Journal.endings j).length ∧
      e.chained? = some first ∧ e.operation? = some (.text name) ∧
      ∃ before state left, j = before ++ [.told ⟨state, .exhaustion e⟩ (.ok ()) left] ∧
        ∀ m ∈ before, ¬ m.Exhausts := by
  obtain ⟨name, hname, hloop⟩ := w.mode.perform_run_ok _ hrun
  have hends := exhaustedBy_of_run fuel s hloop hj
  obtain ⟨first, retried, later, before, state, left, plain, rfl, hends, hsame, hlast, hgoing⟩ :=
    hends
  refine ⟨?_, name, first, retried, later, hname, hends, rfl, rfl, hsame, fun heq => ?_, ?_,
    chained_exhaustedFor _ _ plain, rfl, before, state, left, hlast, hgoing⟩
  · rw [Mode.perform_call, hrun]
    show (Except.error (w.mode.leaving (.exhaustedFor (.text name) first later)), j, t) = _
    rw [leaving_exhaustedFor]
  · obtain ⟨first', retried', _, _, _, _, -, he, hends', hsame', -, -⟩ :=
      exhaustedBy_of_run fuel s hloop heq
    rw [List.forall₂_eq_eq_eq] at hsame'
    subst hsame'
    have herrors := congrArg Failure.errors he
    rw [Failure.errors_exhaustedFor, Failure.errors_exhaustedFor] at herrors
    rw [Failure.errors_exhaustedFor, herrors]
    have hinj : Function.Injective (Except.error : Failure → Except Failure α) :=
      fun _ _ h => Except.error.inj h
    exact congrArg _ (List.map_injective_iff.mpr hinj (hends'.symm.trans hends))
  · simp [hends, hsame.length_eq, Failure.exhaustedFor, Failure.exhaustedWith, Failure.attempts?]

/-- An operation that always fails, with a policy that says yes once. -/
def Course.relapse : Course Nat where
  outcome
    | 0 => .error (.of .valueError "boom")
    | _ => .error (.of .valueError "bang")
  answer k := k == 0
  delay _ := some (.whole 0)

theorem relapse_blocks : Course.relapse.FirstBlocking 1 where
  before := by
    intro k hk
    obtain rfl : k = 0 := by omega
    exact ⟨rfl, rfl, rfl, noTime_going⟩
  blocks := fun h => absurd h.granted (by simp [Course.relapse])

theorem relapse_speakable : Course.relapse.Speakable := by
  intro k hk
  obtain rfl : k = 0 := by simpa [Course.relapse] using hk.granted
  exact ⟨⟨"boom", rfl⟩, noTime_seconds⟩

theorem relapse_listener (n : Notice Nat Nat) (s : Nat) :
    n.event.Left Eq (Course.relapse.setting.notify.perform (n, s)).2.1.event := by
  show n.event.Left Eq n.event
  cases n.event with
  | failure f => exact ⟨f, rfl, rfl⟩
  | exhaustion f => exact rfl
  | _ => trivial

theorem relapse_deeds : ∃ j t,
    (Mode.blocking.run (Course.relapse.setting.kept (.blocking (fun _ => .result (.ok ())) none))
      (.function "fetch") 2).perform ([], 0) =
      (.ok (some (.exhausted (.exhaustedFor (.text "fetch") (.of .valueError "boom")
        [.of .valueError "bang"]))), j, t) ∧ Journal.deeds j = Course.relapse.deeds 1 := by
  have hwait (k : Nat) (_ : Course.relapse.GoesOn k) :
      Undisturbed (fun _ => .result (.ok ())) none (fun n s => s = n) (Course.relapse.delay k) :=
    fun _ s hs => ⟨s, rfl, hs⟩
  have hname : (Operation.function "fetch").displayName = .ok "fetch" := rfl
  exact run_of_blocks Course.relapse.plays_setting relapse_speakable hwait hname rfl relapse_blocks
    (Nat.lt_succ_self 1)

theorem relapse_run : ∃ j t,
    (Mode.blocking.run (Course.relapse.setting.kept (.blocking (fun _ => .result (.ok ())) none))
      (.function "fetch") 2).perform ([], 0) =
      (.ok (some (.exhausted (.exhaustedFor (.text "fetch") (.of .valueError "boom")
        [.of .valueError "bang"]))), j, t) := by
  obtain ⟨j, t, hrun, -⟩ := relapse_deeds
  exact ⟨j, t, hrun⟩

theorem exhausted_accounts_relapse :
    ∃ e j t, (Mode.blocking.call (Course.relapse.setting.kept
      (.blocking (fun _ => .result (.ok ())) none)) (.function "fetch") 2).perform ([], 0) =
        (.error e, j, t) ∧
      Journal.endings j = [.error (.of .valueError "boom"), .error (.of .valueError "bang")] ∧
      e.errors = .ok [.of .valueError "boom", .of .valueError "bang"] ∧
      e.attempts? = some 2 := by
  obtain ⟨j, t, hrun⟩ := relapse_run
  have hfaithful := faithful_of_listener (w := .blocking (fun _ => .result (.ok ())) none)
    relapse_listener (.function "fetch") 2 0
  rw [Waiting.mode, hrun] at hfaithful
  obtain ⟨hcall, -, first, retried, -, -, hends, -, -, -, herrors, -⟩ :=
    exhausted_accounts Course.relapse.setting (.blocking (fun _ => .result (.ok ())) none)
      (.function "fetch") 2 0 t _ j hrun fun m hm => (hfaithful m hm).growsTo
  refine ⟨_, j, t, hcall, ?_, rfl, rfl⟩
  rw [hends, ← Except.ok.inj (herrors hfaithful)]
  rfl

end Retry
