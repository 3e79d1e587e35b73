import Retry.Proofs.Journal

/-!
# What a turn puts down

One statement for every part of a call and every way it ends: what the journal has after
it, and where the call stands. Only a wait is left open; it puts down nothing but records
and waits.

The journal is read by what happened: how the invocations ended (`Journal.endings`), the
delays that were granted (`Journal.granted`) and the delays that were slept
(`Journal.slept`).
-/

namespace Retry

/-! ## Reading a journal -/

namespace Moment

variable {ε β α : Type}

/-- How the operation ended, if it was invoked. -/
def ending? : Moment ε β α → Option (Except Failure α)
  | .invoked r => some r
  | _ => none

def granted? : Moment ε β α → Option Delay
  | .drawn (.ok d) _ => if Backoff.isStop d then none else some d
  | _ => none

def slept? : Moment ε β α → Option Delay
  | .slept d _ => some d
  | _ => none

/-- What an attempt between its events may put down. -/
def OfAttempt : Moment ε β α → Prop
  | .recorded _ => True
  | .invoked _ => True
  | .told _ _ _ => True
  | _ => False

end Moment

namespace Journal

variable {ε β α : Type}

def pick {γ : Type} (read : Moment ε β α → Option γ) (j : Journal ε β α) : List γ :=
  j.filterMap read

/-- How the invocations of the operation ended. -/
abbrev endings (j : Journal ε β α) : List (Except Failure α) := pick Moment.ending? j

abbrev granted (j : Journal ε β α) : List Delay := pick Moment.granted? j

abbrev slept (j : Journal ε β α) : List Delay := pick Moment.slept? j

section

variable {γ : Type} (read : Moment ε β α → Option γ)

@[simp] theorem pick_nil : pick read [] = [] := rfl

@[simp] theorem pick_cons (m : Moment ε β α) (j : Journal ε β α) :
    pick read (m :: j) = (read m).toList ++ pick read j := by
  cases h : read m <;> simp only [pick, List.filterMap_cons, h] <;> rfl

@[simp] theorem pick_append (j l : Journal ε β α) :
    pick read (j ++ l) = pick read j ++ pick read l :=
  List.filterMap_append

theorem pick_of_none {j : Journal ε β α} (h : ∀ m ∈ j, read m = none) : pick read j = [] :=
  List.filterMap_eq_nil_iff.mpr h

/-- A reading that leaves out records finds nothing in a phase. -/
theorem pick_moments (h : ∀ r, read (.recorded r) = none) (name : String)
    (attempt : Attempt) (phase : Phase) : pick read (phase.moments name attempt) = [] := by
  refine pick_of_none read fun m hm => ?_
  obtain ⟨r, rfl⟩ := phase.moments_recorded name attempt m hm
  exact h r

end

@[simp] theorem endings_moments (name : String) (attempt : Attempt) (phase : Phase) :
    endings (phase.moments name attempt : Journal ε β α) = [] := pick_moments _ (fun _ => rfl) ..

@[simp] theorem granted_moments (name : String) (attempt : Attempt) (phase : Phase) :
    granted (phase.moments name attempt : Journal ε β α) = [] := pick_moments _ (fun _ => rfl) ..

@[simp] theorem slept_moments (name : String) (attempt : Attempt) (phase : Phase) :
    slept (phase.moments name attempt : Journal ε β α) = [] := pick_moments _ (fun _ => rfl) ..

def Lacks (P : Moment ε β α → Prop) (j : Journal ε β α) : Prop := ∀ m ∈ j, ¬ P m

section

variable {P : Moment ε β α → Prop}

@[simp] theorem lacks_nil : Lacks P [] := List.forall_mem_nil _

@[simp] theorem lacks_cons {m : Moment ε β α} {j : Journal ε β α} :
    Lacks P (m :: j) ↔ ¬ P m ∧ Lacks P j :=
  List.forall_mem_cons

@[simp] theorem lacks_append {j l : Journal ε β α} :
    Lacks P (j ++ l) ↔ Lacks P j ∧ Lacks P l :=
  List.forall_mem_append

theorem lacks_moments (h : ∀ r, ¬ P (.recorded r)) (name : String) (attempt : Attempt)
    (phase : Phase) : Lacks P (phase.moments name attempt) := by
  intro m hm
  obtain ⟨r, rfl⟩ := phase.moments_recorded name attempt m hm
  exact h r

end

/-- Every step of a journal went as `P` says of the steps before it. -/
def Each (P : Journal ε β α → Moment ε β α → Prop) (j : Journal ε β α) : Prop :=
  ∀ before m after, j = before ++ m :: after → P before m

section

variable {P : Journal ε β α → Moment ε β α → Prop} {j l : Journal ε β α}

@[simp] theorem each_nil : Each P [] := by
  intro before m after h
  exact absurd h.symm (by simp)

@[simp] theorem each_cons {m : Moment ε β α} :
    Each P (m :: j) ↔ P [] m ∧ Each (fun before => P (m :: before)) j := by
  constructor
  · refine fun h => ⟨h [] m j rfl, fun before m' after hj => ?_⟩
    exact h (m :: before) m' after (by rw [hj, List.cons_append])
  · rintro ⟨first, rest⟩ before m' after h
    cases before with
    | nil => exact (List.cons.inj h).1 ▸ first
    | cons b before =>
      obtain ⟨rfl, hj⟩ := List.cons.inj h
      exact rest before m' after hj

@[simp] theorem each_append :
    Each P (j ++ l) ↔ Each P j ∧ Each (fun before => P (j ++ before)) l := by
  induction j generalizing P with
  | nil => simp
  | cons m j ih => simp [ih, and_assoc]

theorem each_of_forall (h : ∀ m ∈ j, ∀ before, P before m) : Each P j := by
  intro before m after hj
  exact h m (by simp [hj]) before

end

theorem endings_of_wait {l : Journal ε β α} (h : ∀ m ∈ l, m.OfWait) : endings l = [] := by
  refine pick_of_none _ fun m hm => ?_
  have hw := h m hm
  cases m <;> simp_all [Moment.OfWait, Moment.ending?]

end Journal

/-! ## The parts of a call -/

namespace Setting

variable {σ ε β α : Type} {S : Setting σ ε β α} {w : Waiting σ} {name : String}
  {p q : Progress ε β} {x y : Journal ε β α × σ}

/-- The first invocation. -/
theorem journaled_tried {r : Except Failure α}
    (invoke : (S.kept w).invoke.perform ((S.kept w).said name 1 .starting x) = (r, y)) :
    y.1 = x.1 ++ (Phase.starting.moments name 1 ++ [.invoked r]) := by
  obtain ⟨hy, -⟩ := journaled_invoke invoke
  rw [hy, journaled_said, List.append_assoc]

/-- The first invocation failed, and the policy is started. -/
theorem journaled_first {f : Failure} {r : Except Failure ε} {z : Journal ε β α × σ}
    (invoke : (S.kept w).invoke.perform ((S.kept w).said name 1 .starting x) =
      (.error f, y))
    (rule : (S.kept w).openPolicy.perform ((S.kept w).said name 1 (.failed f) y) =
      (r, z)) :
    z.1 = x.1 ++ (Phase.starting.moments name 1 ++ [.invoked (.error f)] ++
      (Phase.failed f).moments name 1) := by
  obtain ⟨hz, -⟩ := journaled_openPolicy rule
  rw [hz, journaled_said, journaled_tried invoke, List.append_assoc]

/-- What records and invocations keep holds after the first invocation, when the policy is
started. -/
theorem journaled_first_held {Held : σ → Prop} (emit : ∀ r s, Held s → Held (S.emit r s))
    (invoked : ∀ s, Held s → Held (S.invoke.perform s).2) {f : Failure} (hx : Held x.2)
    (invoke : (S.kept w).invoke.perform ((S.kept w).said name 1 .starting x) =
      (.error f, y)) : Held ((S.kept w).said name 1 (.failed f) y).2 := by
  have said (phase : Phase) (s : σ) (h : Held s) : Held (S.said name 1 phase s) := by
    unfold Setting.said
    cases phase.record name 1 with
    | ok r => exact emit r s h
    | error f => exact h
  obtain ⟨-, hinvoke⟩ := journaled_invoke invoke
  rw [journaled_said] at hinvoke ⊢
  have held := invoked _ (said .starting x.2 hx)
  rw [hinvoke] at held
  exact said (.failed f) y.2 held

theorem journaled_granted {d : Delay}
    (h : (S.kept w).Consulted name p x (.ok (some d, q), y)) :
    Backoff.isStop d = false ∧ ∃ e b, q = (p.asked e).drawn b ∧
      y.1 = x.1 ++ [.asked p.last (.ok true) e, .drawn (.ok d) b] := by
  cases h with
  | @granted _ e b t _ ask draw go =>
    obtain ⟨ht, -⟩ := journaled_shouldRetry ask
    obtain ⟨hy, -⟩ := journaled_nextDelay draw
    exact ⟨go, e, b, rfl, by rw [hy, ht, List.append_assoc]; rfl⟩

theorem journaled_refused (h : (S.kept w).Consulted name p x (.ok (none, q), y)) :
    (∃ e, q = p.asked e ∧ y.1 = x.1 ++ [.asked p.last (.ok false) e]) ∨
      ∃ d e b, Backoff.isStop d = true ∧ q = (p.asked e).drawn b ∧
        y.1 = x.1 ++ ([.asked p.last (.ok true) e, .drawn (.ok d) b] ++
          Phase.backoffStopped.moments name p.state.attempt) := by
  cases h with
  | @refused e _ ask =>
    obtain ⟨hy, -⟩ := journaled_shouldRetry ask
    exact .inl ⟨e, rfl, hy⟩
  | @stopped d e b t u ask draw stop =>
    obtain ⟨ht, -⟩ := journaled_shouldRetry ask
    obtain ⟨hu, -⟩ := journaled_nextDelay draw
    refine .inr ⟨d, e, b, stop, rfl, ?_⟩
    rw [journaled_said, hu, ht]
    simp only [List.append_assoc, List.cons_append, List.nil_append]

theorem journaled_unconsulted {f : Failure}
    (h : (S.kept w).Consulted name p x (.error f, y)) :
    (∃ e, y.1 = x.1 ++ [.asked p.last (.error f) e]) ∨
      (∃ e b, y.1 = x.1 ++ [.asked p.last (.ok true) e, .drawn (.error f) b]) ∨
      ∃ d e b, Backoff.isStop d = true ∧
        y.1 = x.1 ++ [.asked p.last (.ok true) e, .drawn (.ok d) b] := by
  cases h with
  | @unanswered _ e _ ask =>
    obtain ⟨hy, -⟩ := journaled_shouldRetry ask
    exact .inl ⟨e, hy⟩
  | @undrawn _ e b t _ ask draw =>
    obtain ⟨ht, -⟩ := journaled_shouldRetry ask
    obtain ⟨hy, -⟩ := journaled_nextDelay draw
    exact .inr (.inl ⟨e, b, by rw [hy, ht, List.append_assoc]; rfl⟩)
  | @unkept d _ e b t _ ask draw stop =>
    obtain ⟨ht, -⟩ := journaled_shouldRetry ask
    obtain ⟨hy, -⟩ := journaled_nextDelay draw
    exact .inr (.inr ⟨d, e, b, stop, by rw [hy, ht, List.append_assoc]; rfl⟩)

theorem journaled_awaited {d : Delay} {r : Except Failure (Option Failure)}
    (h : (S.kept w).Awaited name p d x (r, y)) : Journal.Added Moment.OfWait x.1 y.1 := by
  have said (r : Record) : Journal.Added Moment.OfWait x.1 ((S.kept w).emit r x).1 :=
    .one rfl trivial
  cases h with
  | unworded word => exact .refl _
  | unkept => exact .refl _
  | unpaused word pause => exact (said _).trans (journaled_pause pause)
  | passed word pause => exact (said _).trans (journaled_pause pause)
  | unkeptEnd word pause => exact (said _).trans (journaled_pause pause)
  | cancelled word pause =>
    rw [journaled_said]
    exact ((said _).trans (journaled_pause pause)).trans
      (Phase.added_moments (fun _ => trivial) _ _ _ _)

theorem journaled_passed {d : Delay} (h : (S.kept w).Awaited name p d x (.ok none, y)) :
    ∃ r c, (Phase.waiting p.last d).record name p.state.attempt = .ok r ∧
      y.1 = x.1 ++ [.recorded r, .slept d c] := by
  cases h with
  | @passed r _ word pause =>
    obtain ⟨l, hl, down⟩ := journaled_paused pause
    obtain ⟨c, rfl⟩ := down.passed
    exact ⟨r, c, word, by rw [hl, journaled_emit, List.append_assoc]; rfl⟩

theorem journaled_announced {a : Attempt} {n : Notice ε α}
    (h : (S.kept w).Announced name p x a n y) :
    y.1 = x.1 ++ (Phase.retrying.moments name a ++
      [.told ⟨{ p.state with attempt := a }, .beforeRetry⟩ (.ok ()) n]) := by
  obtain ⟨hy, -⟩ := journaled_notify h.tell
  rw [hy, journaled_said, List.append_assoc]

/-- The invocation failed, and the loop goes on with what the listener left of the failure. -/
theorem journaled_failed (h : (S.kept w).Reattempted name p x (.ok (.again q), y)) :
    ∃ a f n m, f.ordinary = true ∧ q = p.failed m.state m.event.error ∧
      y.1 = x.1 ++ (Phase.retrying.moments name a ++
        [.told ⟨{ p.state with attempt := a }, .beforeRetry⟩ (.ok ()) n, .invoked (.error f),
          .told ⟨n.state, .failure f⟩ (.ok ()) m] ++
        (Phase.retryFailed m.event.error).moments name m.state.attempt) := by
  cases h with
  | @failed a f n m t u v before invoke plain tell =>
    have ht := journaled_announced before
    obtain ⟨hu, -⟩ := journaled_invoke invoke
    obtain ⟨hv, -⟩ := journaled_notify tell
    refine ⟨a, f, n, m, plain, rfl, ?_⟩
    rw [journaled_said, hv, hu, ht]
    simp only [List.append_assoc, List.cons_append, List.nil_append]

theorem journaled_succeeded {e : Ending α}
    (h : (S.kept w).Reattempted name p x (.ok (.ended e), y)) :
    ∃ a v n m, e = .returned v ∧
      y.1 = x.1 ++ (Phase.retrying.moments name a ++
        [.told ⟨{ p.state with attempt := a }, .beforeRetry⟩ (.ok ()) n, .invoked (.ok v),
          .told ⟨n.state, .success v⟩ (.ok ()) m] ++
        Phase.retrySucceeded.moments name m.state.attempt) := by
  cases h with
  | @succeeded a v n m t u _ before invoke tell =>
    have ht := journaled_announced before
    obtain ⟨hu, -⟩ := journaled_invoke invoke
    obtain ⟨hv, -⟩ := journaled_notify tell
    refine ⟨a, v, n, m, rfl, ?_⟩
    rw [journaled_said, hv, hu, ht]
    simp only [List.append_assoc, List.cons_append, List.nil_append]

theorem journaled_reattempted {r : Except Failure (Turn ε β α)}
    (h : (S.kept w).Reattempted name p x (r, y)) :
    Journal.Added Moment.OfAttempt x.1 y.1 := by
  have say (attempt : Attempt) (phase : Phase) (z : Journal ε β α × σ) :
      Journal.Added Moment.OfAttempt z.1 ((S.kept w).said name attempt phase z).1 := by
    rw [journaled_said]
    exact Phase.added_moments (fun _ => trivial) _ _ _ _
  have tell {n m : Notice ε α} {r : Except Failure Unit} {y z : Journal ε β α × σ}
      (h : (S.kept w).notify.perform (n, y) = (r, m, z)) :
      Journal.Added Moment.OfAttempt y.1 z.1 := .one (journaled_notify h).1 trivial
  have run {r : Except Failure α} {y z : Journal ε β α × σ}
      (h : (S.kept w).invoke.perform y = (r, z)) :
      Journal.Added Moment.OfAttempt y.1 z.1 := .one (journaled_invoke h).1 trivial
  cases h with
  | uncounted => exact .refl _
  | unkept => exact .refl _
  | unannounced _ before => exact (say _ _ _).trans (tell before)
  | interrupted before invoke => exact ((say _ _ _).trans (tell before.tell)).trans (run invoke)
  | unpraised before invoke after =>
    exact (((say _ _ _).trans (tell before.tell)).trans (run invoke)).trans (tell after)
  | unkeptSuccess before invoke after =>
    exact (((say _ _ _).trans (tell before.tell)).trans (run invoke)).trans (tell after)
  | succeeded before invoke after =>
    exact ((((say _ _ _).trans (tell before.tell)).trans (run invoke)).trans (tell after)).trans
      (say _ _ _)
  | unblamed before invoke _ after =>
    exact (((say _ _ _).trans (tell before.tell)).trans (run invoke)).trans (tell after)
  | unkeptFailure before invoke _ after =>
    exact (((say _ _ _).trans (tell before.tell)).trans (run invoke)).trans (tell after)
  | failed before invoke _ after =>
    exact ((((say _ _ _).trans (tell before.tell)).trans (run invoke)).trans (tell after)).trans
      (say _ _ _)

theorem journaled_turned {r : Except Failure (Turn ε β α)}
    (h : (S.kept w).Turned name p x (r, y)) : Journal.Added (fun _ => True) x.1 y.1 := by
  have granted {d : Delay} {q : Progress ε β} {y : Journal ε β α × σ}
      (hc : (S.kept w).Consulted name p x (.ok (some d, q), y)) :
      Journal.Added (fun _ => True) x.1 y.1 := by
    obtain ⟨-, _, _, -, hy⟩ := journaled_granted hc
    exact ⟨_, hy, fun _ _ => trivial⟩
  cases h with
  | unconsulted consult =>
    obtain ⟨_, hy⟩ | ⟨_, _, hy⟩ | ⟨_, _, _, -, hy⟩ := journaled_unconsulted consult
    · exact ⟨_, hy, fun _ _ => trivial⟩
    · exact ⟨_, hy, fun _ _ => trivial⟩
    · exact ⟨_, hy, fun _ _ => trivial⟩
  | refused consult =>
    obtain ⟨_, -, hy⟩ | ⟨_, _, _, -, -, hy⟩ := journaled_refused consult
    · exact ⟨_, hy, fun _ _ => trivial⟩
    · exact ⟨_, hy, fun _ _ => trivial⟩
  | unawaited consult await =>
    exact (granted consult).trans ((journaled_awaited await).mono fun _ _ => trivial)
  | aborted consult await =>
    exact (granted consult).trans ((journaled_awaited await).mono fun _ _ => trivial)
  | reattempted consult await reattempt =>
    exact ((granted consult).trans ((journaled_awaited await).mono fun _ _ => trivial)).trans
      ((journaled_reattempted reattempt).mono fun _ _ => trivial)

/-- The retries are given up: the listener is told of it, unless the logger fails before. -/
theorem journaled_gaveUp {r : Except Failure Failure}
    (h : (S.kept w).GaveUp name p x (r, y)) :
    y.1 = x.1 ∨ ∃ ending n, y.1 = x.1 ++ (Phase.exhausted.moments name p.state.attempt ++
      [.told ⟨p.state, .exhaustion (.exhaustedFor (.text name) p.first p.later)⟩ ending n]) := by
  cases h with
  | unkept => exact .inl rfl
  | @untold f n _ tell =>
    obtain ⟨hy, -⟩ := journaled_notify tell
    exact .inr ⟨.error f, n, by rw [hy, journaled_said, List.append_assoc]⟩
  | @told n _ tell =>
    obtain ⟨hy, -⟩ := journaled_notify tell
    exact .inr ⟨.ok (), n, by rw [hy, journaled_said, List.append_assoc]⟩

theorem journaled_exhausted {f : Failure} (h : (S.kept w).GaveUp name p x (.ok f, y)) :
    ∃ n, f = n.event.error ∧ y.1 = x.1 ++ (Phase.exhausted.moments name p.state.attempt ++
      [.told ⟨p.state, .exhaustion (.exhaustedFor (.text name) p.first p.later)⟩ (.ok ()) n]) := by
  cases h with
  | @told n _ tell =>
    obtain ⟨hy, -⟩ := journaled_notify tell
    exact ⟨n, rfl, by rw [hy, journaled_said, List.append_assoc]⟩

end Setting

end Retry
