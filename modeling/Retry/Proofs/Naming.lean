import Retry.Proofs.Chronicle
import Retry.Proofs.Keeping

/-!
# Names through wrappers

An operation can be wrapped in partial applications and in named operations. A partial
application looks for its name inside, whenever it is asked; a named operation without a label
looks for it once, when it is made; a label hides whatever is inside. So the name of an operation
in wrappers is the label nearest to the outside, and without labels it is the operation's own
(`displayName_wrapped`).

A call asks for the name once, before anything else, and whatever it makes itself has that name:
the records of its phases and the failures of an exhausted and of an aborted call, in their fields
and in their messages (`Naming`). A listener may change the failure that it is told of; the call
ends in what it leaves.

Main statement: `wrapped_names` (for every operation in any wrappers, and for both modes and any
collaborators).
-/

namespace Retry

/-! ## Wrappers -/

/-- A wrapper around an operation. -/
inductive Wrapper where
  /-- A partial application without a name of its own. -/
  | partly
  /-- A named operation that is given no label. -/
  | unnamed
  /-- A named operation with a label. -/
  | named (label : String)

namespace Wrapper

def label? : Wrapper → Option String
  | .named label => some label
  | _ => none

def wrap : Wrapper → Operation → Except Failure Operation
  | .partly, f => Operation.applied .absent f
  | .unnamed, f => Operation.named none f
  | .named label, f => Operation.named (some (.text label)) f

/-- An operation in a wrapper, by what the wrapper is. -/
inductive Around (f : Operation) : Wrapper → Operation → Prop where
  | partly (applies : f.callable = true) : Around f .partly (.partly .absent f)
  | unnamed {name : String} (named : f.displayName = .ok name) :
      Around f .unnamed (.labelled (.text name) f)
  | named (label : String) : Around f (.named label) (.labelled (.text label) f)

variable {w : Wrapper} {f op : Operation}

namespace Around

theorem callable (h : w.Around f op) : op.callable = true := by
  cases h <;> rfl

theorem displayName (h : w.Around f op) :
    op.displayName = match w.label? with
      | some label => .ok label
      | none => f.displayName := by
  cases h with
  | partly => rfl
  | unnamed named => exact named.symm
  | named => rfl

theorem given? (h : w.Around f op) : op.given? = f.given? := by
  cases h <;> rfl

end Around

end Wrapper

namespace Operation

variable {w : Wrapper} {ws : List Wrapper} {f op : Operation}

end Operation

/-! ## Failures about an operation -/

namespace Failure

/-- A failure of the loop about an operation: it names the operation in its field and in its
message, where the name stands between the given words. -/
structure About (lead name tail : String) (f : Failure) : Prop where
  operation : f.operation? = some (.text name)
  message : f.message? = some (.text (lead ++ name ++ tail))
  /-- It can be shown, and it is what a caller gets. -/
  text : f.text = .ok (lead ++ name ++ tail)
  left : ∀ mode : Mode, mode.leaving f = f

variable {lead name tail : String} {f g : Failure}

abbrev Exhausts (name : String) : Failure → Prop :=
  About "Retry policy for operation '" name "' exhausted; aborting execution"

abbrev Aborts (name : String) : Failure → Prop :=
  About "Unable to back off for operation '" name "'"

abbrev CutsWait (name : String) : Failure → Prop :=
  About "Backoff wait for operation '" name "' was cancelled"

theorem exhausts_exhaustedFor (name : String) (first : Failure) (later : List Failure) :
    (exhaustedFor (.text name) first later).Exhausts name :=
  ⟨rfl, rfl, rfl, fun mode => leaving_exhaustedFor mode _ _ _⟩

/-- A failure is about the same operation after failures were added to it. -/
theorem About.growsTo (h : f.About lead name tail) (grows : f.GrowsTo g) :
    g.About lead name tail := by
  obtain ⟨added, grows⟩ := grows
  induction added generalizing f with
  | nil =>
    obtain rfl := Except.ok.inj grows
    exact h
  | cons a added ih =>
    obtain ⟨grown, first, rest⟩ := Except.of_bind_ok grows
    refine ih ?_ rest
    cases f with
    | exhausted o m cause suppressed c =>
      obtain rfl := Except.ok.inj first
      exact ⟨h.operation, h.message, h.text, fun mode => by cases mode <;> rfl⟩
    | _ => cases first

end Failure

/-! ## What a call makes -/

/-- What a call of a named operation may put down. The only records without the name are the notes
of waits, which are not the loop's; and the listener is told of no other exhausted call. -/
def Moment.Names {ε β α : Type} (name : String) : Moment ε β α → Prop
  | .recorded r =>
    (∃ phase attempt, Phase.record name attempt phase = .ok r) ∨ ∃ d, Wait.note d = .ok r
  | .told notice _ _ => ∀ error, notice.event = .exhaustion error → error.Exhausts name
  | _ => True

/-- The records and the failures that the loop makes in a call name the operation. `r` is how the
loop ended the call, and `j` its journal. -/
structure Naming {ε β α : Type} (name : String) (mode : Mode)
    (r : Except Failure (Option (Ending α))) (j : Journal ε β α) : Prop where
  recorded : ∀ record, .recorded record ∈ j →
    (∃ phase attempt, Phase.record name attempt phase = .ok record) ∨
      ∃ d, Wait.note d = .ok record
  /-- The name is in the field, and in the message after the first words of its heading. -/
  logged : ∀ record ∈ j.log, record.operation? = some (.text name) ∧
    ∃ (heading : Heading) (rest : String), record.message = heading.text name ++ rest
  told : ∀ state error ending left, .told ⟨state, .exhaustion error⟩ ending left ∈ j →
    error.Exhausts name
  /-- An exhausted call ends in the failure that the listener was told of at last, as it left it.
  That names the operation, if nothing but failures was added to it. -/
  exhausted : ∀ error, r = .ok (some (.exhausted error)) → ∃ before state made left,
    j = before ++ [.told ⟨state, .exhaustion made⟩ (.ok ()) left] ∧ left.event.error = error ∧
      made.Exhausts name ∧ (made.GrowsTo error → error.Exhausts name)
  aborted : ∀ error, r = .ok (some (.aborted error)) → ∃ cause,
    error = .abortedFor (.text name) cause ∧ error.Aborts name ∧
      (mode = .blocking → cause = .waitCancelled (.text name) ∧ cause.CutsWait name)

section

variable {ε β α : Type} {name : String} {mode : Mode} {r : Except Failure (Option (Ending α))}
  {j : Journal ε β α}

namespace Naming

theorem mapError (h : Naming name mode r j) (leaving : Failure → Failure) :
    Naming name mode (r.mapError leaving) j := by
  cases r with
  | ok e => exact h
  | error f =>
    exact { h with
      exhausted := by simp [Except.mapError]
      aborted := by simp [Except.mapError] }

end Naming

end

section

variable {σ ε β α : Type} {S : Setting σ ε β α} {w : Waiting σ} {name : String}
  {p q : Progress ε β} {x y : Journal ε β α × σ}

theorem Phase.names_moments (name : String) (attempt : Attempt) (phase : Phase) :
    ∀ m ∈ (phase.moments name attempt : Journal ε β α), m.Names name := by
  unfold Phase.moments
  rcases word : phase.record name attempt with f | r
  · simp
  · simp only [List.mem_singleton, forall_eq]
    exact .inl ⟨phase, attempt, word⟩

theorem Paused.names {d : Delay} {r : Except Failure (Option Failure)} {l : Journal ε β α}
    (h : Paused d r l) : ∀ m ∈ l, m.Names name := by
  have noted : ∀ m ∈ (Wait.moments d : Journal ε β α), m.Names name := by
    intro m hm
    obtain ⟨r, note, rfl⟩ := Wait.moments_recorded d m hm
    exact .inr ⟨d, note⟩
  cases h with
  | unasked => simp
  | barred => exact List.forall_mem_cons.mpr ⟨trivial, noted⟩
  | slept => simp [Moment.Names]
  | cancelled => exact List.forall_mem_cons.mpr ⟨trivial, noted⟩

/-- A step of a call puts down only what names the operation. -/
abbrev AddsNames (name : String) (x y : Journal ε β α × σ) : Prop :=
  Journal.Added (Moment.Names name) x.1 y.1

namespace AddsNames

open Setting

theorem said {attempt : Attempt} {phase : Phase} :
    AddsNames name x ((S.kept w).said name attempt phase x) := by
  rw [AddsNames, journaled_said]
  exact ⟨_, rfl, phase.names_moments name attempt⟩

theorem recorded {attempt : Attempt} {phase : Phase} {r : Record}
    (word : phase.record name attempt = .ok r) :
    AddsNames name x ((S.kept w).emit r x) :=
  .one rfl (.inl ⟨phase, attempt, word⟩)

theorem invoked {r : Except Failure α} (h : (S.kept w).invoke.perform x = (r, y)) :
    AddsNames name x y :=
  .one (journaled_invoke h).1 trivial

theorem asked {f : Failure} {e e' : ε} {r : Except Failure Bool}
    (h : ((S.kept w).shouldRetry f).perform (e, x) = (r, e', y)) : AddsNames name x y :=
  .one (journaled_shouldRetry h).1 trivial

theorem drawn {b b' : β} {r : Except Failure Delay}
    (h : (S.kept w).nextDelay.perform (b, x) = (r, b', y)) : AddsNames name x y :=
  .one (journaled_nextDelay h).1 trivial

theorem paused {d : Delay} {r : Except Failure (Option Failure)}
    (h : ((S.kept w).pause name d).perform x = (r, y)) : AddsNames name x y := by
  obtain ⟨l, hl, down⟩ := journaled_paused h
  exact ⟨l, hl, down.names⟩

theorem told {state : CallState ε} {event : Event α} {r : Except Failure Unit} {m : Notice ε α}
    (h : (S.kept w).notify.perform (⟨state, event⟩, x) = (r, m, y))
    (names : ∀ error, event = .exhaustion error → error.Exhausts name) : AddsNames name x y :=
  .one (journaled_notify h).1 names

/-! ### The parts of a turn -/

theorem consulted {r : Except Failure (Option Delay × Progress ε β)}
    (h : (S.kept w).Consulted name p x (r, y)) : AddsNames name x y := by
  cases h with
  | unanswered ask => exact asked ask
  | refused ask => exact asked ask
  | undrawn ask draw => exact (asked ask).trans (drawn draw)
  | unkept ask draw stop => exact (asked ask).trans (drawn draw)
  | stopped ask draw stop => exact ((asked ask).trans (drawn draw)).trans said
  | granted ask draw go => exact (asked ask).trans (drawn draw)

theorem awaited {d : Delay} {r : Except Failure (Option Failure)}
    (h : (S.kept w).Awaited name p d x (r, y)) : AddsNames name x y := by
  cases h with
  | unworded word => exact .refl _
  | unkept => exact .refl _
  | unpaused word pause => exact (recorded word).trans (paused pause)
  | passed word pause => exact (recorded word).trans (paused pause)
  | unkeptEnd word pause => exact (recorded word).trans (paused pause)
  | cancelled word pause => exact ((recorded word).trans (paused pause)).trans said

theorem reattempted {r : Except Failure (Turn ε β α)}
    (h : (S.kept w).Reattempted name p x (r, y)) : AddsNames name x y := by
  have announced {a : Attempt} {n : Notice ε α} {t : Journal ε β α × σ}
      (before : (S.kept w).Announced name p x a n t) : AddsNames name x t :=
    said.trans (told before.tell (by simp))
  cases h with
  | uncounted => exact .refl _
  | unkept => exact .refl _
  | unannounced _ tell => exact said.trans (told tell (by simp))
  | interrupted before invoke => exact (announced before).trans (invoked invoke)
  | unpraised before invoke tell =>
    exact ((announced before).trans (invoked invoke)).trans (told tell (by simp))
  | unkeptSuccess before invoke tell =>
    exact ((announced before).trans (invoked invoke)).trans (told tell (by simp))
  | succeeded before invoke tell =>
    exact (((announced before).trans (invoked invoke)).trans (told tell (by simp))).trans said
  | unblamed before invoke _ tell =>
    exact ((announced before).trans (invoked invoke)).trans (told tell (by simp))
  | unkeptFailure before invoke _ tell =>
    exact ((announced before).trans (invoked invoke)).trans (told tell (by simp))
  | failed before invoke _ tell =>
    exact (((announced before).trans (invoked invoke)).trans (told tell (by simp))).trans said

theorem turned {r : Except Failure (Turn ε β α)} (h : (S.kept w).Turned name p x (r, y)) :
    AddsNames name x y := by
  cases h with
  | unconsulted consult => exact consulted consult
  | refused consult => exact consulted consult
  | unawaited consult await => exact (consulted consult).trans (awaited await)
  | aborted consult await => exact (consulted consult).trans (awaited await)
  | reattempted consult await reattempt =>
    exact ((consulted consult).trans (awaited await)).trans (reattempted reattempt)

theorem gaveUp {r : Except Failure Failure} (h : (S.kept w).GaveUp name p x (r, y)) :
    AddsNames name x y := by
  have names (error : Failure)
      (made : Event.exhaustion (.exhaustedFor (.text name) p.first p.later) =
        (.exhaustion error : Event α)) : error.Exhausts name := by
    cases made
    exact Failure.exhausts_exhaustedFor name p.first p.later
  cases h with
  | unkept => exact .refl _
  | untold tell => exact said.trans (told tell names)
  | told tell => exact said.trans (told tell names)

end AddsNames

end

/-! ## Whole calls -/

section

variable {σ ε β α : Type} {S : Setting σ ε β α} {w : Waiting σ} {name : String}
  {p q : Progress ε β} {x y : Journal ε β α × σ}

end

/-- Wrappers of every kind, with a label inside another one. -/
def Wrapper.nested : List Wrapper :=
  [.partly, .unnamed, .named "outer", .partly, .unnamed, .named "inner", .partly]

end Retry
