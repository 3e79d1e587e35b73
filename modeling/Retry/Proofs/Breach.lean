import Retry.Proofs.Entries

/-!
# Failures of the loop's own collaborators

The loop catches what its operation raises. The policy, the backoff and the listener are asked
outside of that, so a failure of one of them (`Moment.breach?`) is taken for no failure of the
operation: it is the last thing that happens in the call, and the call ends in it.

`FailsLast` says so of a list of things that happened, with how it all ended. Each part of a
call that begins without such a failure ends like that, whatever rule it ends by
(`Broke.consulted` and the like); so do all turns, by `turns_invariant`.

Main statements: `broke_run` (up to how the loop ends), `broke_call` (up to what the caller
gets).
-/

namespace Retry

/-- Nothing on the list has failed; or the last thing on it has, and its failure is the end. -/
def FailsLast {γ δ : Type} (failure? : γ → Option Failure) (happened : List γ)
    (ending : Except Failure δ) : Prop :=
  (∀ x ∈ happened, failure? x = none) ∨
    ∃ before x f, happened = before ++ [x] ∧ (∀ y ∈ before, failure? y = none) ∧
      failure? x = some f ∧ ending = .error f

namespace FailsLast

variable {γ δ : Type} {failure? : γ → Option Failure} {happened : List γ}
  {ending : Except Failure δ}

theorem sound (h : FailsLast failure? happened ending) {d : δ} (ok : ending = .ok d) :
    ∀ x ∈ happened, failure? x = none := by
  rcases h with sound | ⟨before, x, f, -, -, -, failed⟩
  · exact sound
  · exact absurd (ok.symm.trans failed) (by simp)

/-- Nothing comes after a failure, and the end is that failure. -/
theorem last (h : FailsLast failure? happened ending) {before after : List γ} {x : γ} {f : Failure}
    (split : happened = before ++ x :: after) (failed : failure? x = some f) :
    after = [] ∧ ending = .error f := by
  rcases h with sound | ⟨before', y, g, split', sound, failed', ended⟩
  · have none : failure? x = none := sound x (by simp [split])
    exact absurd (none.symm.trans failed) (by simp)
  rcases List.eq_nil_or_concat after with rfl | ⟨after, z, rfl⟩
  · obtain ⟨-, same⟩ := List.append_inj' (split'.symm.trans split) rfl
    obtain rfl : y = x := by simpa using same
    exact ⟨rfl, ended.trans (congrArg _ (Option.some.inj (failed'.symm.trans failed)))⟩
  · have longer : before' ++ [y] = (before ++ x :: after) ++ [z] := by
      simpa using split'.symm.trans split
    obtain ⟨rfl, -⟩ := List.append_inj' longer rfl
    have none : failure? x = none := sound x (by simp)
    exact absurd (none.symm.trans failed) (by simp)

theorem init {x : γ} (h : FailsLast failure? (happened ++ [x]) ending) :
    ∀ y ∈ happened, failure? y = none := by
  rcases h with sound | ⟨before, z, f, split, sound, -, -⟩
  · exact fun y hy => sound y (List.mem_append_left _ hy)
  · obtain ⟨rfl, -⟩ := List.append_inj' split rfl
    exact sound

theorem recast {δ' : Type} {f : Failure} (h : FailsLast failure? happened (.error f : Except _ δ)) :
    FailsLast failure? happened (.error f : Except _ δ') := by
  rcases h with sound | ⟨before, x, g, split, sound, failed, ended⟩
  · exact .inl sound
  · exact .inr ⟨before, x, g, split, sound, failed, congrArg _ (Except.error.inj ended)⟩

theorem after {before : List γ} (sound : ∀ x ∈ before, failure? x = none)
    (h : FailsLast failure? happened ending) : FailsLast failure? (before ++ happened) ending := by
  rcases h with sound' | ⟨before', x, f, rfl, sound', failed, ended⟩
  · exact .inl fun x hx => (List.mem_append.mp hx).elim (sound x) (sound' x)
  · refine .inr ⟨before ++ before', x, f, (List.append_assoc ..).symm, ?_, failed, ended⟩
    exact fun y hy => (List.mem_append.mp hy).elim (sound y) (sound' y)

end FailsLast

/-- The failure of the policy, the backoff or the listener, if that is what happened. -/
def Moment.breach? {ε β α : Type} : Moment ε β α → Option Failure
  | .asked _ (.error f) _ => some f
  | .drawn (.error f) _ => some f
  | .told _ (.error f) _ => some f
  | _ => none

def Journal.Sound {ε β α : Type} (j : Journal ε β α) : Prop := ∀ m ∈ j, m.breach? = none

/-- No collaborator failed, or one did at last. -/
abbrev Broke {σ ε β α δ : Type} (y : Except Failure δ × Journal ε β α × σ) : Prop :=
  FailsLast Moment.breach? y.2.1 y.1

namespace Journal.Sound

variable {ε β α : Type} {j k : Journal ε β α}

theorem added {P : Moment ε β α → Prop} (hP : ∀ m, P m → m.breach? = none) (hj : j.Sound)
    (h : Added P j k) : k.Sound :=
  (h.mono hP).forall hj

theorem one (hj : j.Sound) {m : Moment ε β α} (h : k = j ++ [m]) (hm : m.breach? = none) :
    k.Sound :=
  hj.added (P := (· = m)) (fun _ h => h ▸ hm) (.one h rfl)

theorem of_wait (hj : j.Sound) (h : Added Moment.OfWait j k) : k.Sound :=
  hj.added (fun m hm => by cases m <;> simp_all [Moment.OfWait, Moment.breach?]) h

end Journal.Sound

section

variable {σ ε β α δ : Type} {S : Setting σ ε β α} {w : Waiting σ} {name : String}
  {p : Progress ε β} {x y z : Journal ε β α × σ}

open Setting

/-- The last thing that happened is that a collaborator failed. -/
theorem Broke.one (hx : x.1.Sound) {m : Moment ε β α} (h : y.1 = x.1 ++ [m]) {f : Failure}
    (hm : m.breach? = some f) : Broke ((.error f : Except Failure δ), y) :=
  .inr ⟨x.1, m, f, h, hx, hm, rfl⟩

theorem Journal.Sound.said (hx : x.1.Sound) {attempt : Attempt} {phase : Phase} :
    ((S.kept w).said name attempt phase x).1.Sound := by
  rw [journaled_said]
  exact hx.of_wait (Phase.added_moments (fun _ => trivial) ..)

theorem Journal.Sound.invoked (hx : x.1.Sound) {r : Except Failure α}
    (h : (S.kept w).invoke.perform x = (r, y)) : y.1.Sound :=
  hx.one (journaled_invoke h).1 rfl

theorem Journal.Sound.told (hx : x.1.Sound) {n m : Notice ε α}
    (h : (S.kept w).notify.perform (n, x) = (.ok (), m, y)) : y.1.Sound :=
  hx.one (journaled_notify h).1 rfl

theorem Broke.told (hx : x.1.Sound) {n m : Notice ε α} {f : Failure}
    (h : (S.kept w).notify.perform (n, x) = (.error f, m, y)) :
    Broke ((.error f : Except Failure δ), y) :=
  .one hx (journaled_notify h).1 rfl

/-! ## The parts of a turn -/

theorem Broke.consulted {r : Except Failure (Option Delay × Progress ε β)} (hx : x.1.Sound)
    (h : (S.kept w).Consulted name p x (r, y)) : Broke (r, y) := by
  cases h with
  | unanswered ask => exact .one hx (journaled_shouldRetry ask).1 rfl
  | refused ask => exact .inl (hx.one (journaled_shouldRetry ask).1 rfl)
  | undrawn ask draw =>
    have asked := hx.one (journaled_shouldRetry ask).1 rfl
    exact .one asked (journaled_nextDelay draw).1 rfl
  | unkept ask draw stop keep =>
    have asked := hx.one (journaled_shouldRetry ask).1 rfl
    exact .inl (asked.one (journaled_nextDelay draw).1 rfl)
  | stopped ask draw stop =>
    have asked := hx.one (journaled_shouldRetry ask).1 rfl
    have drawn := asked.one (journaled_nextDelay draw).1 rfl
    exact .inl (drawn.said)
  | granted ask draw go =>
    have asked := hx.one (journaled_shouldRetry ask).1 rfl
    exact .inl (asked.one (journaled_nextDelay draw).1 rfl)

theorem Broke.reattempted {r : Except Failure (Turn ε β α)} (hx : x.1.Sound)
    (h : (S.kept w).Reattempted name p x (r, y)) : Broke (r, y) := by
  cases h with
  | uncounted => exact .inl hx
  | unkept => exact .inl hx
  | unannounced _ tell => exact .told hx.said tell
  | interrupted before invoke => exact .inl ((hx.said.told before.tell).invoked invoke)
  | unpraised before invoke tell =>
    exact .told ((hx.said.told before.tell).invoked invoke) tell
  | unkeptSuccess before invoke tell =>
    exact .inl (((hx.said.told before.tell).invoked invoke).told tell)
  | succeeded before invoke tell =>
    have praised := ((hx.said.told before.tell).invoked invoke).told tell
    exact .inl (praised.said)
  | unblamed before invoke _ tell =>
    exact .told ((hx.said.told before.tell).invoked invoke) tell
  | unkeptFailure before invoke _ tell =>
    exact .inl (((hx.said.told before.tell).invoked invoke).told tell)
  | failed before invoke _ tell =>
    have blamed := ((hx.said.told before.tell).invoked invoke).told tell
    exact .inl (blamed.said)

theorem Broke.gaveUp {r : Except Failure Failure} (hx : x.1.Sound)
    (h : (S.kept w).GaveUp name p x (r, y)) : Broke (r, y) := by
  cases h with
  | unkept => exact .inl hx
  | untold tell => exact .told hx.said tell
  | told tell => exact .inl (hx.said.told tell)

theorem Broke.turned {r : Except Failure (Turn ε β α)} (hx : x.1.Sound)
    (h : (S.kept w).Turned name p x (r, y)) : Broke (r, y) := by
  have begun {d : Delay} {q : Progress ε β} {z : Journal ε β α × σ}
      (consult : (S.kept w).Consulted name p x (.ok (some d, q), z)) : z.1.Sound :=
    (Broke.consulted hx consult).sound rfl
  cases h with
  | unconsulted consult => exact (Broke.consulted hx consult).recast
  | refused consult => exact .inl ((Broke.consulted hx consult).sound rfl)
  | unawaited consult await => exact .inl ((begun consult).of_wait (journaled_awaited await))
  | aborted consult await => exact .inl ((begun consult).of_wait (journaled_awaited await))
  | reattempted consult await reattempt =>
    exact .reattempted ((begun consult).of_wait (journaled_awaited await)) reattempt

/-! ## Turns and calls -/

theorem Broke.turns (hx : x.1.Sound) (fuel : Nat) :
    Broke (((S.kept w).turns name fuel p).perform x) := by
  have turns := (S.kept w).turns_invariant name (I := fun _ _ x => x.1.Sound) (Q := Broke)
    (fun _ p x q y hx h => (Broke.turned hx h).sound rfl)
    (fun _ p x e y hx h => .inl ((Broke.turned hx h).sound rfl))
    (fun _ p x f y hx h => (Broke.turned hx h).recast) ?refused fuel 0 p x hx
  case refused =>
    intro _ p x q y hx h
    have refused : y.1.Sound := (Broke.turned hx h).sound rfl
    exact ⟨fun _ _ give => (Broke.gaveUp refused give).recast,
      fun _ _ give => .inl ((Broke.gaveUp refused give).sound rfl)⟩
  rcases turns with ended | ⟨q, y, hy, sound⟩
  · exact ended
  · rw [hy]
    exact .inl sound

theorem broke_run (name : String) (fuel : Nat) (hx : x.1.Sound) :
    Broke (((S.kept w).run name fuel).perform x) := by
  have h := (S.kept w).began name fuel x
  generalize ((S.kept w).run name fuel).perform x = y at h
  have opened {y z : Journal ε β α × σ} {r : Except Failure ε} (hy : y.1.Sound)
      (rule : (S.kept w).openPolicy.perform y = (r, z)) : z.1.Sound := by
    rw [(journaled_openPolicy rule).1]
    exact hy
  have paced {y z : Journal ε β α × σ} {r : Except Failure β} (hy : y.1.Sound)
      (pace : (S.kept w).openBackoff.perform y = (r, z)) : z.1.Sound := by
    rw [(journaled_openBackoff pace).1]
    exact hy
  cases h with
  | unkept => exact .inl hx
  | unkeptSuccess invoke => exact .inl (hx.said.invoked invoke)
  | unkeptFailure invoke => exact .inl (hx.said.invoked invoke)
  | succeeded invoke => exact .inl (hx.said.invoked invoke).said
  | interrupted invoke => exact .inl (hx.said.invoked invoke)
  | unruled invoke _ rule => exact .inl (opened (hx.said.invoked invoke).said rule)
  | unpaced invoke _ rule pace =>
    exact .inl (paced (opened (hx.said.invoked invoke).said rule) pace)
  | failed invoke _ rule pace =>
    exact .turns (paced (opened (hx.said.invoked invoke).said rule) pace) fuel

/-- **A collaborator's failure is the end of a call**, and it is what the caller gets, as it
leaves. -/
theorem broke_call (S : Setting σ ε β α) (w : Waiting σ) (operation : Operation) (fuel : Nat)
    (s : σ) :
    let x := (w.mode.call (S.kept w) operation fuel).perform ([], s)
    ∃ ending : Except Failure (Option (Ending α)), FailsLast Moment.breach? x.2.1 ending ∧
      ∀ f, ending = .error f → x.1 = .error (w.mode.leaving f) := by
  intro x
  have hx : x = w.mode.delivered ((w.mode.run (S.kept w) operation fuel).perform ([], s)) :=
    Mode.perform_call ..
  rcases hname : operation.displayName with g | name
  · rw [Mode.perform_run_unnamed _ _ hname] at hx
    exact ⟨.ok none, .inl (by simp [hx, Mode.delivered]), by simp⟩
  have sound : (([], s) : Journal ε β α × σ).1.Sound := fun _ h => absurd h (by simp)
  have broke := broke_run (S := S) (w := w) name fuel sound
  rw [Mode.perform_run _ _ hname] at hx
  refine ⟨_, by rw [hx, Mode.delivered_snd]; exact broke, fun f ended => ?_⟩
  rw [hx, show (((S.kept w).run name fuel).perform ([], s)).1 = .error f from ended]
  rfl

end

end Retry
