import Retry.Proofs.Onlooker
import Retry.Proofs.Turns
import Retry.Proofs.Waits

/-!
# The journal of a call

`Setting.kept` is a setting that also keeps a journal: every step of a collaborator is
put down as a `Moment`, with what it was asked and how it ended, in the order of the
steps. `w.mode.call (S.kept w)` is a call with the collaborators of `S` that waits as `w`
says and keeps its journal.

Main statements: `forget_run`, `forget_call` (keeping a journal changes nothing of a
call), and for every collaborator what one step of it puts down (`journaled_invoke` and
the like).
-/

namespace Retry

/-- A step of a collaborator: what it was asked, how it ended, and what it left. -/
inductive Moment (ε β α : Type) where
  /-- A record was kept. -/
  | recorded (record : Record)
  /-- The operation was invoked. -/
  | invoked (ending : Except Failure α)
  /-- The policy was asked about a failure. -/
  | asked (error : Failure) (answer : Except Failure Bool) (execution : ε)
  /-- The backoff was asked for a delay. -/
  | drawn (answer : Except Failure Delay) (walk : β)
  /-- A delay was slept; whether that was cancelled. -/
  | slept (delay : Delay) (cancelled : Except Failure Bool)
  /-- A wait found its token cancelled, and did not sleep. -/
  | barred
  /-- The listener was told, and left the notice changed or not. -/
  | told (notice : Notice ε α) (ending : Except Failure Unit) (left : Notice ε α)

abbrev Journal (ε β α : Type) := List (Moment ε β α)

namespace Journal

variable {ε β α : Type}

/-- What is put down of a token that was asked. -/
def found : Except Failure Bool → Journal ε β α
  | .ok true => [.barred]
  | _ => []

def keeper (ε β α : Type) : Onlooker (Journal ε β α) ε β α where
  recorded r j := j ++ [.recorded r]
  invoked r j := j ++ [.invoked r]
  opened j := j
  asked f r e j := j ++ [.asked f r e]
  drawn r b j := j ++ [.drawn r b]
  told n r m j := j ++ [.told n r m]

end Journal

/-! ## Keeping a journal -/

def Token.kept {σ : Type} (ε β α : Type) (t : Token σ) : Token (Journal ε β α × σ) where
  isCancelled := t.isCancelled.watched fun r j => j ++ Journal.found r
  cancel := t.cancel.watched fun _ j => j
  await d := (t.await d).watched fun r j => j ++ [.slept d r]

namespace Waiting

variable {σ : Type}

def interrupted : Except Failure Unit → Except Failure Bool
  | .ok () => .ok false
  | .error f => if f.isA "CancelledError" then .ok true else .error f

def kept (ε β α : Type) : Waiting σ → Waiting (Journal ε β α × σ)
  | .blocking sleep token =>
    .blocking (fun d => (sleep d).watched fun r j => j ++ [.slept d (r.map fun _ => false)])
      (token.map (Token.kept ε β α))
  | .task sleep => .task fun d => (sleep d).watched fun r j => j ++ [.slept d (interrupted r)]

end Waiting

namespace Setting

variable {σ ε β α : Type}

/-- The setting of a call that waits in a given way. -/
def waiting (S : Setting σ ε β α) (w : Waiting σ) : Setting σ ε β α :=
  { S with pause := w.pause S.emit }

def kept (S : Setting σ ε β α) (w : Waiting σ) : Setting (Journal ε β α × σ) ε β α :=
  S.watched (Journal.keeper ε β α)
    ((w.kept ε β α).pause fun r x => (x.1 ++ [.recorded r], S.emit r x.2))

end Setting

/-! ## A journal changes nothing -/

section

open Act

variable {σ ε β α γ : Type}

theorem forgets_kept (w : Waiting σ) :
    Waiting.Alike (Forgets (Journal ε β α)) (w.kept ε β α) w := by
  cases w with
  | task sleep => exact .task fun d => exact_unwatched _ (sleep d)
  | blocking sleep token =>
    cases token with
    | none => exact .slept fun d => exact_unwatched _ (sleep d)
    | some token =>
      have awaited (d : Delay) : Exact (Forgets (Journal ε β α)) ((token.kept ε β α).await d)
          (token.await d) := exact_unwatched (fun r (j : Journal ε β α) => j ++ [.slept d r]) _
      exact .attended (exact_unwatched (fun r j => j ++ Journal.found r) token.isCancelled)
        (exact_unwatched (fun _ j => j) token.cancel) awaited

theorem Waiting.Alike.kept {τ : Type} {R : σ → τ → Prop} {w : Waiting σ} {v : Waiting τ}
    (h : Waiting.Alike R w v) :
    Waiting.Alike (Beside (Journal ε β α) R) (w.kept ε β α) (v.kept ε β α) := by
  cases h with
  | slept sleep => exact .slept fun d => exact_watched _ (sleep d)
  | @attended _ _ t u asked cancelled awaited =>
    have slept (d : Delay) : Exact (Beside (Journal ε β α) R) ((t.kept ε β α).await d)
        ((u.kept ε β α).await d) :=
      exact_watched (fun r (j : Journal ε β α) => j ++ [Moment.slept d r]) (awaited d)
    exact .attended (exact_watched (fun r j => j ++ Journal.found r) asked)
      (exact_watched (fun _ j => j) cancelled) slept
  | task sleep => exact .task fun d => exact_watched _ (sleep d)

/-- The waits of calls with journals go alike, if what they are put down by does. -/
theorem exact_kept {τ : Type} {S : Setting σ ε β α} {T : Setting τ ε β α} {w : Waiting σ}
    {v : Waiting τ} {R : Journal ε β α × σ → Journal ε β α × τ → Prop}
    (h : Waiting.Alike R (w.kept ε β α) (v.kept ε β α))
    (hemit : ∀ r x y, R x y →
      R (x.1 ++ [.recorded r], S.emit r x.2) (y.1 ++ [.recorded r], T.emit r y.2))
    (name : String) (d : Delay) : Exact R ((S.kept w).pause name d) ((T.kept v).pause name d) :=
  h.pause hemit name d

theorem alike_kept (S : Setting σ ε β α) (w : Waiting σ) :
    Setting.Alike (Forgets (Journal ε β α)) (S.kept w) (S.waiting w) :=
  { Setting.alike_unwatched (Journal.keeper ε β α) S (S.kept w).pause with }

/-- What goes the same way but for the journal ends the same without it. -/
theorem Journal.forget {a : Act (Journal ε β α × σ) γ} {b : Act σ γ}
    (h : Exact (Forgets (Journal ε β α)) a b) (j : Journal ε β α) (s : σ) :
    ((a.perform (j, s)).1, (a.perform (j, s)).2.2) = b.perform s := by
  obtain ⟨hr, hs⟩ := (h (j, s) s rfl).same
  rw [hr, hs]

/-- **A journal changes nothing** of how the loop ends a call. -/
theorem forget_run (S : Setting σ ε β α) (w : Waiting σ) (operation : Operation) (fuel : Nat)
    (j : Journal ε β α) (s : σ) :
    (((w.mode.run (S.kept w) operation fuel).perform (j, s)).1,
      ((w.mode.run (S.kept w) operation fuel).perform (j, s)).2.2) =
      (w.mode.run (S.waiting w) operation fuel).perform s :=
  Journal.forget (w.mode.exact_run (alike_kept S w)
    ((forgets_kept w).pause fun r _ _ h => congrArg (S.emit r) h) operation fuel) j s

end

/-! ## What a step puts down -/

/-- What is put down of a phase that is recorded. -/
def Phase.moments {ε β α : Type} (name : String) (attempt : Attempt) (phase : Phase) :
    Journal ε β α :=
  match phase.record name attempt with
  | .ok r => [.recorded r]
  | .error _ => []

def Moment.OfWait {ε β α : Type} : Moment ε β α → Prop
  | .recorded _ => True
  | .slept _ _ => True
  | .barred => True
  | _ => False

def Moment.OfWaitFor {ε β α : Type} (d : Delay) : Moment ε β α → Prop
  | .slept d' _ => d' = d
  | m => m.OfWait

theorem Moment.OfWaitFor.ofWait {ε β α : Type} {d : Delay} {m : Moment ε β α}
    (h : m.OfWaitFor d) : m.OfWait := by
  cases m with
  | slept => exact trivial
  | _ => exact h

namespace Journal

variable {ε β α : Type} {P : Moment ε β α → Prop} {j k l : Journal ε β α}

/-- A journal has grown, by nothing but what `P` allows. -/
def Added (P : Moment ε β α → Prop) (j k : Journal ε β α) : Prop :=
  ∃ l, k = j ++ l ∧ ∀ m ∈ l, P m

theorem Added.refl (j : Journal ε β α) : Added P j j := ⟨[], by simp, by simp⟩

theorem Added.trans (h : Added P j k) (h' : Added P k l) : Added P j l := by
  obtain ⟨a, rfl, ha⟩ := h
  obtain ⟨b, rfl, hb⟩ := h'
  refine ⟨a ++ b, List.append_assoc _ _ _, fun m hm => ?_⟩
  exact (List.mem_append.mp hm).elim (ha m) (hb m)

theorem Added.one {m : Moment ε β α} (h : k = j ++ [m]) (hm : P m) : Added P j k :=
  ⟨[m], h, by simpa using hm⟩

theorem Added.mono {Q : Moment ε β α → Prop} (h : Added P j k) (hPQ : ∀ m, P m → Q m) :
    Added Q j k := by
  obtain ⟨l, hl, hm⟩ := h
  exact ⟨l, hl, fun m h => hPQ m (hm m h)⟩

/-- What holds of all moments that were there and of all that may be added holds of all. -/
theorem Added.forall (h : Added P j k) (hj : ∀ m ∈ j, P m) : ∀ m ∈ k, P m := by
  obtain ⟨l, rfl, hl⟩ := h
  exact fun m hm => (List.mem_append.mp hm).elim (hj m) (hl m)

end Journal

theorem Phase.moments_recorded {ε β α : Type} (name : String) (attempt : Attempt) (phase : Phase) :
    ∀ m ∈ (phase.moments name attempt : Journal ε β α), ∃ r, m = .recorded r := by
  unfold Phase.moments
  cases phase.record name attempt with
  | ok r => simp
  | error f => simp

theorem Phase.added_moments {ε β α : Type} {P : Moment ε β α → Prop} (hP : ∀ r, P (.recorded r))
    (name : String) (attempt : Attempt) (phase : Phase) (j : Journal ε β α) :
    Journal.Added P j (j ++ phase.moments name attempt) := by
  refine ⟨_, rfl, fun m hm => ?_⟩
  obtain ⟨r, rfl⟩ := phase.moments_recorded name attempt m hm
  exact hP r

/-! ## What a pause puts down -/

/-- What is put down of a wait that was called off: its note, if it can be worded. -/
def Wait.moments {ε β α : Type} (d : Delay) : Journal ε β α :=
  match Wait.note d with
  | .ok r => [.recorded r]
  | .error _ => []

/-- What a pause for a delay puts down, by how it ends. Only a sleep can pass. -/
inductive Paused {ε β α : Type} (d : Delay) :
    Except Failure (Option Failure) → Journal ε β α → Prop where
  | unasked {f : Failure} : Paused d (.error f) []
  | barred {r : Except Failure (Option Failure)} (off : r ≠ .ok none) :
      Paused d r (.barred :: Wait.moments d)
  | slept {r : Except Failure (Option Failure)} {c : Except Failure Bool} : Paused d r [.slept d c]
  | cancelled {r : Except Failure (Option Failure)} {c : Except Failure Bool} (off : r ≠ .ok none) :
      Paused d r (.slept d c :: Wait.moments d)

theorem Wait.moments_recorded {ε β α : Type} (d : Delay) :
    ∀ m ∈ (moments d : Journal ε β α), ∃ r, note d = .ok r ∧ m = .recorded r := by
  unfold moments
  rcases note d with f | r
  · simp
  · simp

/-- A pause that passes is one sleep, and nothing else is put down of it. -/
theorem Paused.passed {ε β α : Type} {d : Delay} {l : Journal ε β α} (h : Paused d (.ok none) l) :
    ∃ c, l = [.slept d c] := by
  cases h with
  | barred off => exact absurd rfl off
  | slept => exact ⟨_, rfl⟩
  | cancelled off => exact absurd rfl off

theorem Paused.ofWaitFor {ε β α : Type} {d : Delay} {r : Except Failure (Option Failure)}
    {l : Journal ε β α} (h : Paused d r l) : ∀ m ∈ l, m.OfWaitFor d := by
  have noted : ∀ m ∈ (Wait.moments d : Journal ε β α), m.OfWaitFor d := by
    intro m hm
    obtain ⟨r, -, rfl⟩ := Wait.moments_recorded d m hm
    exact trivial
  cases h with
  | unasked => simp
  | barred => exact List.forall_mem_cons.mpr ⟨trivial, noted⟩
  | slept => simp [Moment.OfWaitFor]
  | cancelled => exact List.forall_mem_cons.mpr ⟨rfl, noted⟩

section

open Act

variable {σ ε β α : Type} (emit : Record → σ → σ) (token : Token σ) (name : String) (d : Delay)

theorem paused_calledOff (x : Journal ε β α × σ) :
    let z := (Wait.calledOff (fun r x => (x.1 ++ [.recorded r], emit r x.2)) (token.kept ε β α) name
      d).perform x
    z.1 ≠ .ok none ∧ z.2.1 = x.1 ++ Wait.moments d := by
  refine ⟨Wait.calledOff_not_passed _ _ _ _ _, ?_⟩
  unfold Wait.moments
  rcases noted : Wait.note d with f | r
  · simp [Wait.calledOff, noted, perform_bind]
  · rw [Wait.perform_calledOff _ _ _ _ noted]
    simp only [Token.kept, perform_watched]
    rcases token.cancel.perform (emit r x.2) with ⟨f | _, t⟩ <;> rfl

theorem paused_attended (x : Journal ε β α × σ) :
    let z := (Wait.attended (fun r x => (x.1 ++ [.recorded r], emit r x.2)) (token.kept ε β α) name
      d).perform x
    ∃ l, z.2.1 = x.1 ++ l ∧ Paused d z.1 l := by
  have waited : ((token.kept ε β α).await d).perform x =
    (((token.await d).perform x.2).1, x.1 ++ [.slept d ((token.await d).perform x.2).1],
      ((token.await d).perform x.2).2) := rfl
  rw [Wait.attended]
  rcases slept : (token.await d).perform x.2 with ⟨f | _ | _, u⟩ <;> rw [slept] at waited <;>
    dsimp only at waited
  · rw [perform_bind_error waited]
    exact ⟨_, rfl, .slept⟩
  · rw [perform_bind_ok waited, if_neg (by simp)]
    exact ⟨_, rfl, .slept⟩
  · rw [perform_bind_ok waited, if_pos rfl]
    obtain ⟨off, noted⟩ := paused_calledOff emit token name d (x.1 ++ [.slept d (.ok true)], u)
    exact ⟨_, noted.trans (List.append_assoc ..), .cancelled off⟩

/-- **What a pause puts down.** -/
theorem paused (w : Waiting σ) (x : Journal ε β α × σ) :
    let z := ((w.kept ε β α).pause (fun r x => (x.1 ++ [.recorded r], emit r x.2)) name d).perform x
    ∃ l, z.2.1 = x.1 ++ l ∧ Paused d z.1 l := by
  cases w with
  | task sleep =>
    simp only [Waiting.pause, Waiting.kept, Wait.ofTask, perform_of, perform_watched]
    rcases (sleep d).perform x.2 with ⟨f | _, t⟩
    · dsimp only
      split
      · exact ⟨_, rfl, .slept⟩
      · exact ⟨_, rfl, .slept⟩
    · exact ⟨_, rfl, .slept⟩
  | blocking sleep token =>
    cases token with
    | none =>
      simp only [Waiting.pause, Waiting.kept, Option.map_none, Wait.ofToken_none, perform_bind,
        perform_watched]
      rcases (sleep d).perform x.2 with ⟨f | _, t⟩
      · exact ⟨_, rfl, .slept⟩
      · exact ⟨_, rfl, .slept⟩
    | some token =>
      have asked : (token.kept ε β α).isCancelled.perform x =
        ((token.isCancelled.perform x.2).1, x.1 ++ Journal.found (token.isCancelled.perform x.2).1,
          (token.isCancelled.perform x.2).2) := rfl
      simp only [Waiting.pause, Waiting.kept, Option.map_some, Wait.ofToken_some]
      rcases found : token.isCancelled.perform x.2 with ⟨f | _ | _, t⟩ <;> rw [found] at asked
      · rw [perform_bind_error asked]
        exact ⟨[], rfl, .unasked⟩
      · rw [perform_bind_ok asked, if_neg (by simp),
          show x.1 ++ Journal.found (.ok false) = x.1 from List.append_nil _]
        exact paused_attended emit token name d (x.1, t)
      · rw [perform_bind_ok asked, if_pos rfl]
        obtain ⟨off, noted⟩ := paused_calledOff emit token name d (x.1 ++ [.barred], t)
        exact ⟨_, noted.trans (List.append_assoc ..), .barred off⟩

end

namespace Act

variable {σ ε β α γ : Type}

/-- A step that puts down nothing but what `P` allows. -/
def Adds (P : Moment ε β α → Prop) (act : Act (Journal ε β α × σ) γ) : Prop :=
  ∀ x, Journal.Added P x.1 (act.perform x).2.1

end Act

theorem adds_pause {σ ε β α : Type} (w : Waiting σ) (emit : Record → σ → σ) (name : String)
    (d : Delay) :
    ((w.kept ε β α).pause (fun r x => (x.1 ++ [.recorded r], emit r x.2)) name d).Adds
      (Moment.OfWaitFor d) := by
  intro x
  obtain ⟨l, hl, down⟩ := paused emit name d w x
  exact ⟨l, hl, down.ofWaitFor⟩

namespace Setting

open Act

variable {σ ε β α : Type} {S : Setting σ ε β α} {w : Waiting σ} {x y : Journal ε β α × σ}

theorem journaled_emit (r : Record) (x : Journal ε β α × σ) :
    (S.kept w).emit r x = (x.1 ++ [.recorded r], S.emit r x.2) := rfl

theorem journaled_said (name : String) (attempt : Attempt) (phase : Phase)
    (x : Journal ε β α × σ) :
    (S.kept w).said name attempt phase x =
      (x.1 ++ phase.moments name attempt, S.said name attempt phase x.2) := by
  unfold said Phase.moments
  cases phase.record name attempt with
  | ok r => rfl
  | error f => simp only [List.append_nil]

theorem journaled_invoke {r : Except Failure α}
    (h : (S.kept w).invoke.perform x = (r, y)) :
    y.1 = x.1 ++ [.invoked r] ∧ S.invoke.perform x.2 = (r, y.2) := by
  have hw : (S.invoke.watched fun r (j : Journal ε β α) => j ++ [.invoked r]).perform x =
    (r, y) := h
  exact watched_of_perform hw

theorem journaled_openPolicy {r : Except Failure ε}
    (h : (S.kept w).openPolicy.perform x = (r, y)) :
    y.1 = x.1 ∧ S.openPolicy.perform x.2 = (r, y.2) := by
  have hw : (S.openPolicy.watched fun _ (j : Journal ε β α) => j).perform x = (r, y) := h
  exact watched_of_perform hw

theorem journaled_openBackoff {r : Except Failure β}
    (h : (S.kept w).openBackoff.perform x = (r, y)) :
    y.1 = x.1 ∧ S.openBackoff.perform x.2 = (r, y.2) := by
  have hw : (S.openBackoff.watched fun _ (j : Journal ε β α) => j).perform x = (r, y) := h
  exact watched_of_perform hw

theorem journaled_shouldRetry {f : Failure} {e e' : ε} {r : Except Failure Bool}
    (h : ((S.kept w).shouldRetry f).perform (e, x) = (r, e', y)) :
    y.1 = x.1 ++ [.asked f r e'] ∧ (S.shouldRetry f).perform (e, x.2) = (r, e', y.2) := by
  have hw : ((S.shouldRetry f).watchedOn fun _ r e (j : Journal ε β α) =>
    j ++ [.asked f r e]).perform (e, x) = (r, e', y) := h
  exact watchedOn_of_perform hw

theorem journaled_nextDelay {b b' : β} {r : Except Failure Delay}
    (h : (S.kept w).nextDelay.perform (b, x) = (r, b', y)) :
    y.1 = x.1 ++ [.drawn r b'] ∧ S.nextDelay.perform (b, x.2) = (r, b', y.2) := by
  have hw : (S.nextDelay.watchedOn fun _ r b (j : Journal ε β α) =>
    j ++ [.drawn r b]).perform (b, x) = (r, b', y) := h
  exact watchedOn_of_perform hw

theorem journaled_notify {n n' : Notice ε α} {r : Except Failure Unit}
    (h : (S.kept w).notify.perform (n, x) = (r, n', y)) :
    y.1 = x.1 ++ [.told n r n'] ∧ S.notify.perform (n, x.2) = (r, n', y.2) := by
  have hw : (S.notify.watchedOn fun n r m (j : Journal ε β α) =>
    j ++ [.told n r m]).perform (n, x) = (r, n', y) := h
  exact watchedOn_of_perform hw

theorem journaled_paused {name : String} {d : Delay} {r : Except Failure (Option Failure)}
    (h : ((S.kept w).pause name d).perform x = (r, y)) :
    ∃ l, y.1 = x.1 ++ l ∧ Paused d r l := by
  have hp := paused S.emit name d w x
  rwa [show (w.kept ε β α).pause (fun r x => (x.1 ++ [.recorded r], S.emit r x.2)) name d =
    (S.kept w).pause name d from rfl, h] at hp

theorem journaled_pause {name : String} {d : Delay} {r : Except Failure (Option Failure)}
    (h : ((S.kept w).pause name d).perform x = (r, y)) :
    Journal.Added Moment.OfWait x.1 y.1 := by
  obtain ⟨l, hl, down⟩ := journaled_paused h
  exact ⟨l, hl, fun m hm => (down.ofWaitFor m hm).ofWait⟩

end Setting

end Retry
