import Retry.Proofs.Agreement
import Retry.Proofs.Breach
import Retry.Proofs.Listening
import Retry.Proofs.Manners

/-!
# Audiences

An audience is a listener that may be a group, together with what its leaves do: the listener
and the members of a group are looked up as an event goes through (`Audience.tell`). With
`Audience.noted` the hooks that ran are put down, each with how it ended.

Audiences that go the same way leaf by leaf go the same way as a whole (`exact_tell`). A hook
that fails is the last of its event to run, and the event fails like it (`noted_tell`); so it is
the last hook of the call, and the call ends there (`collaborators_break`).

Main statements: `collaborators_break`, `Manner.setting_audience` (the listener of a simulated
call is an audience).
-/

namespace Retry

open Act

/-- Hooks that ran, in order, each with how it ended. -/
abbrev Hooked (κ : Type) := List (κ × Except Failure Unit)

/-- The failure of a hook that ran, if it failed. -/
def hookFailure? {κ : Type} : κ × Except Failure Unit → Option Failure
  | (_, .error f) => some f
  | (_, .ok ()) => none

/-- A listener that is looked up when an event is raised, its groups, and what its leaves do. -/
structure Audience (κ σ ε α : Type) where
  installed : σ → Listener κ
  members : σ → Nat → List (Listener κ)
  hook : κ → Act (Notice ε α × σ) Unit
  /-- How deep events are passed on. -/
  depth : Nat

/-! ## Passing an event on -/

namespace Listener

section

variable {σ τ κ : Type} {R : σ → τ → Prop} {P : Listener κ → Prop}
  {members : σ → Nat → List (Listener κ)} {members' : τ → Nat → List (Listener κ)}
  {hook : κ → Act σ Unit} {hook' : κ → Act τ Unit}

/-- Events are passed on alike, if they go through the same groups and the leaves go alike. The
induction is on how deep they are passed on, for listeners and positions in groups at once. -/
theorem exact_passed (same : ∀ s t, R s t → members s = members' t)
    (held : ∀ s t, R s t → ∀ id, ∀ l ∈ members s id, P l)
    (leaves : ∀ leaf, P (.leaf leaf) → Exact R (hook leaf) (hook' leaf)) (fuel : Nat) :
    (∀ l, P l → Exact R (tell members hook fuel l) (tell members' hook' fuel l)) ∧
      ∀ id i, Exact R (tellFrom members hook fuel id i) (tellFrom members' hook' fuel id i) := by
  induction fuel with
  | zero =>
    exact ⟨fun _ _ => exact_result (.error endless), fun _ _ => exact_result (.error endless)⟩
  | succ fuel ih =>
    obtain ⟨told, passed⟩ := ih
    refine ⟨fun l hl => ?_, fun id i => ?_⟩
    · cases l with
      | leaf leaf => exact leaves leaf hl
      | group id => exact passed id 0
    · intro s t hs
      unfold tellFrom
      simp only [perform_bind, perform_look, ← same s t hs]
      cases found : (members s id)[i]? with
      | none => exact exact_pure () s t hs
      | some member =>
        have hmember : P member := held s t hs id member (List.mem_of_getElem? found)
        exact exact_bind (told member hmember) (fun _ => passed id (i + 1)) s t hs

end

/-! ## Hooks that are put down -/

section

variable {ω σ κ γ δ : Type}

/-- A step that puts hooks down, of which none fails but the last one, like the step. -/
def Notes (act : Act (ω × Hooked κ × σ) γ) : Prop :=
  ∀ x, ∃ ran, (act.perform x).2.2.1 = x.2.1 ++ ran ∧
    FailsLast hookFailure? ran (act.perform x).1

theorem notes_of_same {act : Act (ω × Hooked κ × σ) γ}
    (h : ∀ x, (act.perform x).2.2.1 = x.2.1) : Notes act :=
  fun x => ⟨[], by rw [h, List.append_nil], .inl (by simp)⟩

theorem notes_bind {act : Act (ω × Hooked κ × σ) γ} {k : γ → Act (ω × Hooked κ × σ) δ}
    (h : Notes act) (hk : ∀ a, Notes (k a)) : Notes (act >>= k) := by
  intro x
  obtain ⟨ran, put, fails⟩ := h x
  rw [perform_bind]
  rcases hy : act.perform x with ⟨f | a, y⟩ <;> rw [hy] at put fails
  · exact ⟨ran, put, fails.recast⟩
  · obtain ⟨more, put', fails'⟩ := hk a y
    refine ⟨ran ++ more, ?_, fails'.after (fails.sound rfl)⟩
    rw [put', put, List.append_assoc]

/-- A hook that is put down with how it ended. -/
def noted (hook : κ → Act (ω × σ) Unit) (l : κ) : Act (ω × Hooked κ × σ) Unit :=
  (hook l).watchedOn fun _ ending _ ran => ran ++ [(l, ending)]

theorem notes_noted (hook : κ → Act (ω × σ) Unit) (l : κ) : Notes (noted hook l) := by
  intro x
  refine ⟨[(l, ((hook l).perform (x.1, x.2.2)).1)], rfl, ?_⟩
  rw [show ((noted hook l).perform x).1 = ((hook l).perform (x.1, x.2.2)).1 from rfl]
  rcases ((hook l).perform (x.1, x.2.2)).1 with f | ⟨⟩
  · exact .inr ⟨[], _, f, rfl, by simp, rfl, rfl⟩
  · exact .inl (by simp [hookFailure?])

/-- **An event fails like the last hook that ran.** The induction is the one of `exact_passed`. -/
theorem notes_passed (members : ω × Hooked κ × σ → Nat → List (Listener κ))
    (hook : κ → Act (ω × σ) Unit) (fuel : Nat) :
    (∀ l, Notes (tell members (noted hook) fuel l)) ∧
      ∀ id i, Notes (tellFrom members (noted hook) fuel id i) := by
  induction fuel with
  | zero => exact ⟨fun _ => notes_of_same fun _ => rfl, fun _ _ => notes_of_same fun _ => rfl⟩
  | succ fuel ih =>
    obtain ⟨told, passed⟩ := ih
    refine ⟨fun l => ?_, fun id i => ?_⟩
    · cases l with
      | leaf leaf => exact notes_noted hook leaf
      | group id => exact passed id 0
    · unfold tellFrom
      refine notes_bind (notes_of_same fun _ => rfl) fun found => ?_
      cases found[i]? with
      | none => exact notes_of_same fun _ => rfl
      | some member => exact notes_bind (told member) fun _ => passed id (i + 1)

/-- Putting hooks down changes nothing, whatever listener is told. -/
theorem noted_tell_forgets (members : σ → Nat → List (Listener κ)) (hook : κ → Act (ω × σ) Unit)
    (fuel : Nat) (l : Listener κ) :
    Exact (Beside ω (Forgets (Hooked κ))) (tell (fun x => members x.2.2) (noted hook) fuel l)
      (tell (fun x => members x.2) hook fuel l) := by
  refine (exact_passed (P := fun _ => True) ?_ (fun _ _ _ _ _ _ => trivial)
    (fun l _ => exact_unwatchedOn _ (hook l)) fuel).1 l trivial
  rintro ⟨_, _, _⟩ ⟨_, _⟩ ⟨rfl, rfl⟩
  rfl

end

end Listener

/-! ## Audiences of calls -/

namespace Audience

variable {κ σ ε α : Type} (A : Audience κ σ ε α)

def tell : Act (Notice ε α × σ) Unit := do
  let l ← Act.look fun x => A.installed x.2
  Listener.tell (fun x => A.members x.2) A.hook A.depth l

theorem perform_tell (x : Notice ε α × σ) :
    A.tell.perform x =
      (Listener.tell (fun x => A.members x.2) A.hook A.depth (A.installed x.2)).perform x := by
  rw [tell, perform_bind, perform_look]

/-- Tells an audience, and puts down the hooks that ran. -/
def noted : Act (Notice ε α × Hooked κ × σ) Unit := do
  let l ← Act.look fun x => A.installed x.2.2
  Listener.tell (fun x => A.members x.2.2) (Listener.noted A.hook) A.depth l

theorem notes_noted : Listener.Notes A.noted :=
  Listener.notes_bind (Listener.notes_of_same fun _ => rfl) fun l =>
    (Listener.notes_passed _ A.hook A.depth).1 l

theorem noted_forgets : Exact (Beside (Notice ε α) (Forgets (Hooked κ))) A.noted A.tell := by
  rintro ⟨n, hooked, s⟩ ⟨_, _⟩ ⟨rfl, rfl⟩
  simp only [noted, tell, perform_bind, perform_look]
  exact Listener.noted_tell_forgets A.members A.hook A.depth _ _ _ ⟨rfl, rfl⟩

end Audience

namespace Setting

variable {κ σ ε β α : Type}

/-- The same collaborators with another audience. -/
def heardBy (S : Setting σ ε β α) (A : Audience κ σ ε α) : Setting σ ε β α :=
  { S with notify := A.tell }

/-- The same, and the hooks that run are put down. -/
def notedBy (S : Setting σ ε β α) (A : Audience κ σ ε α) : Setting (Hooked κ × σ) ε β α :=
  (S.heardBy A).listening A.noted

end Setting

section

variable {κ σ ε β α : Type}

/-- The hooks that ran are those of the events, one event after the other. In each, none failed
but the last one, and the event failed like it. -/
inductive Echoed : Journal ε β α → Hooked κ → Prop
  | start : Echoed [] []
  | untold {j : Journal ε β α} {hooked : Hooked κ} {m : Moment ε β α} (echo : Echoed j hooked)
      (quiet : m.event? = none) : Echoed (j ++ [m]) hooked
  | told {j : Journal ε β α} {hooked ran : Hooked κ} {n n' : Notice ε α}
      {reply : Except Failure Unit} (echo : Echoed j hooked)
      (fails : FailsLast hookFailure? ran reply) :
      Echoed (j ++ [.told n reply n']) (hooked ++ ran)

variable {j : Journal ε β α} {hooked : Hooked κ}

theorem Echoed.sound (h : Echoed j hooked) (hj : j.Sound) :
    ∀ x ∈ hooked, hookFailure? x = none := by
  induction h with
  | start => simp
  | untold _ _ ih => exact ih fun m hm => hj m (List.mem_append_left _ hm)
  | @told j hooked ran n n' reply _ fails ih =>
    have passed : reply = .ok () := by
      have none := hj (.told n reply n') (by simp)
      cases reply with
      | error f => exact absurd none (by simp [Moment.breach?])
      | ok u => rfl
    intro x hx
    rcases List.mem_append.mp hx with hx | hx
    · exact ih (fun m hm => hj m (List.mem_append_left _ hm)) x hx
    · exact fails.sound passed x hx

/-- A hook that failed is the last one that ran, and the last thing that happened is that its
event failed like it. -/
theorem Echoed.last (h : Echoed j hooked) {δ : Type} {ending : Except Failure δ}
    (broke : FailsLast Moment.breach? j ending) {before after : Hooked κ} {l : κ} {f : Failure}
    (split : hooked = before ++ (l, .error f) :: after) :
    after = [] ∧ ∃ i n n', j = i ++ [.told n (.error f) n'] := by
  have failed : hookFailure? (l, .error f) = some f := rfl
  cases h with
  | start => exact absurd split (by simp)
  | untold echo quiet =>
    have none := echo.sound broke.init (l, .error f) (by simp [split])
    exact absurd (none.symm.trans failed) (by simp)
  | @told j hooked ran n n' reply echo fails =>
    obtain ⟨rfl, rfl⟩ := (fails.after (echo.sound broke.init)).last split failed
    exact ⟨rfl, j, n, n', rfl⟩

theorem echoed_call (S : Setting σ ε β α) (A : Audience κ σ ε α) (w : Waiting σ)
    (operation : Operation) (fuel : Nat) (s : σ) :
    let z := (w.mode.call ((S.notedBy A).kept (w.beside (Hooked κ))) operation fuel).perform
      ([], [], s)
    Echoed z.2.1 z.2.2.1 := by
  have told (j : Journal ε β α) (hooked : Hooked κ) (n : Notice ε α) (t : σ)
      (h : Echoed j hooked) :
      let y := A.noted.perform (n, hooked, t)
      Echoed (j ++ [.told n y.1 y.2.1]) y.2.2.1 := by
    intro y
    obtain ⟨ran, put, fails⟩ := A.notes_noted (n, hooked, t)
    rw [show y.2.2.1 = hooked ++ ran from put]
    exact .told h fails
  exact listening_call (fun _ _ _ quiet h => h.untold quiet) told (S.heardBy A) w operation fuel s
    .start

/-- **Failures of collaborators are not taken for failures of the operation.** Where the policy,
the backoff or the listener fails, nothing happens after that: no invocation, no wait, no
question, no event, no record; the call ends in that failure, as it leaves. The hook that failed
is the last one that ran. A failure leaves a call as it is, but the end of an iteration cannot
leave a task. -/
theorem collaborators_break (S : Setting σ ε β α) (A : Audience κ σ ε α) (w : Waiting σ)
    (operation : Operation) (fuel : Nat) (s : σ) :
    let x := (w.mode.call ((S.heardBy A).kept w) operation fuel).perform ([], s)
    let z := (w.mode.call ((S.notedBy A).kept (w.beside (Hooked κ))) operation fuel).perform
      ([], [], s)
    (∀ before m after f, x.2.1 = before ++ m :: after → m.breach? = some f →
      after = [] ∧ x.1 = .error (w.mode.leaving f)) ∧
    (z.1 = x.1 ∧ z.2.1 = x.2.1 ∧ z.2.2.2 = x.2.2) ∧
    (∀ before l after f, z.2.2.1 = before ++ (l, .error f) :: after →
      after = [] ∧ ∃ j n n', x.2.1 = j ++ [.told n (.error f) n']) ∧
    ∀ f, w.mode = .blocking ∨ f.isA "StopIteration" = false → w.mode.leaving f = f := by
  intro x z
  obtain ⟨ending, broke, ended⟩ := broke_call (S.heardBy A) w operation fuel s
  obtain ⟨same, journal, left⟩ := listening_forgets (S := S.heardBy A) A.noted_forgets w operation
    fuel [] s
  have echo : Echoed x.2.1 z.2.2.1 := journal ▸ echoed_call S A w operation fuel s
  refine ⟨fun before m after f split failed => ?_, ⟨same, journal, left⟩,
    fun before l after f split => echo.last broke split, fun f h => ?_⟩
  · obtain ⟨last, failure⟩ := broke.last split failed
    exact ⟨last, ended f failure⟩
  · cases w with
    | blocking sleep token => rfl
    | task sleep =>
      have plain : f.isA "StopIteration" = false := h.resolve_left (by simp [Waiting.mode])
      simp [Waiting.mode, Mode.leaving, Failure.leavingTask, plain]

end

/-- A group of three. The second member fails when it is told of a failure, and the third when
the retries have run out. -/
def triad (blame exhaustion : Failure) : Audience Nat Nat Nat Nat where
  installed _ := .group 0
  members _ _ := [.leaf 0, .leaf 1, .leaf 2]
  hook l := .of fun (n, s) =>
    match l, n.event with
    | 1, .failure _ => (.error blame, n, s)
    | 2, .exhaustion _ => (.error exhaustion, n, s)
    | _, _ => (.ok (), n, s)
  depth := 6

/-- The third member is not told of the failure, and the operation is not invoked again. -/
theorem collaborators_break_triad :
    let A := triad (.of .keyError "blame") (.of .keyError "exhaustion")
    let S := failing true (.ok ())
    let w := Waiting.blocking (fun _ => pure ()) none
    let x := (w.mode.call ((S.heardBy A).kept w) (.function "fetch") 3).perform ([], 0)
    let z := (w.mode.call ((S.notedBy A).kept (w.beside (Hooked Nat))) (.function "fetch")
      3).perform ([], [], 0)
    z.2.2.1.map (fun h => (h.1, h.2.isOk)) =
        [(0, true), (1, true), (2, true), (0, true), (1, false)] ∧
      ∃ f j n n', x.2.1 = j ++ [.told n (.error f) n'] ∧ x.1 = .error f := by
  intro A S w x z
  have hooked : z.2.2.1.map (fun h => (h.1, h.2.isOk)) =
      [(0, true), (1, true), (2, true), (0, true), (1, false)] := by decide +kernel
  have parts : [(0, true), (1, true), (2, true), (0, true), (1, false)] =
      [(0, true), (1, true), (2, true), (0, true)] ++ [(1, false)] := rfl
  obtain ⟨broke, -, echo, -⟩ := collaborators_break S A w (.function "fetch") 3 0
  obtain ⟨before, last, split, -, failed⟩ := List.map_eq_append_iff.mp (hooked.trans parts)
  obtain ⟨⟨l, reply⟩, after, rfl, same, -⟩ := List.map_eq_cons_iff.mp failed
  cases reply with
  | ok u => exact absurd (congrArg Prod.snd same) (by simp [Except.isOk, Except.toBool])
  | error f =>
    dsimp only [x, z] at hooked split ⊢
    obtain ⟨-, j, n, n', told⟩ := echo before l after f split
    exact ⟨hooked, f, j, n, n', told, (broke j _ [] f told rfl).2⟩

/-- The end of an iteration that a listener raises leaves a task as another failure. -/
theorem iteration_end_wrapped :
    let f := Failure.of .stopIteration "enough"
    let S := (failing false (.ok ())).heardBy (triad f f)
    let w := Waiting.task fun _ => pure ()
    let x := (w.mode.call (S.kept w) (.function "fetch") 3).perform ([], 0)
    (∃ n n', x.2.1.getLast? = some (.told n (.error f) n')) ∧ x.1 = .error f.leavingTask ∧
      x.1 ≠ .error f := by
  refine ⟨⟨_, _, rfl⟩, rfl, fun h => ?_⟩
  have kinds := congrArg
    (fun r => match r with | .error f => f.isA "StopIteration" | .ok _ => true) h
  exact absurd kinds (by decide)

namespace Simulation.Manner

/-- The listener of a simulated call, looked up in its template. -/
def audience (m : Manner) : Audience Leaf Stage Execution Datum where
  installed s := (m.source.template s.2).listener
  members s := s.2.members
  hook l := besideWorld (Scene.hook l)
  depth := Scene.depth

/-- Events are passed on in the world of a stage as in the world. -/
theorem tell_besideWorld (fuel : Nat) (l : Listener Leaf)
    (x : Notice Execution Datum × Stage) :
    (Listener.tell (fun x => x.2.2.members) (fun l => besideWorld (Scene.hook l)) fuel l).perform
        x =
      (besideWorld (Listener.tell (fun x => x.2.members) Scene.hook fuel l)).perform x := by
  obtain ⟨n, invocations, w⟩ := x
  -- The walks differ in what they have beside the world.
  let R (x : Scene) (y : Notice Execution Datum × Stage) : Prop := y = (x.1, invocations, x.2)
  have leaves (l : Leaf) (_ : True) : Exact R (Scene.hook l) (besideWorld (Scene.hook l)) := by
    rintro ⟨n, w⟩ _ rfl
    exact matched_of_same _ rfl
  have same (x : Scene) (y : Notice Execution Datum × Stage) (h : R x y) :
      x.2.members = y.2.2.members := by rw [show y = (x.1, invocations, x.2) from h]
  have passed := (Listener.exact_passed (P := fun _ => True) same (fun _ _ _ _ _ _ => trivial)
    leaves fuel).1 l trivial (n, w) (n, invocations, w) rfl
  obtain ⟨ends, left⟩ := passed.same
  exact Prod.ext ends.symm left

/-- **The listener of a simulated call is an audience**, so what is shown of audiences holds of
simulated calls. -/
theorem setting_audience (m : Manner) (invoke : Act Stage Datum) :
    (m.setting invoke).heardBy m.audience = m.setting invoke := by
  have passed (l : Listener Leaf) : Scene.tell l =
      Listener.tell (fun x => x.2.members) Scene.hook Scene.depth l := rfl
  have notify : m.audience.tell = (m.setting invoke).notify := by
    refine ext_perform fun ⟨n, s⟩ => ?_
    rw [Audience.perform_tell]
    refine (tell_besideWorld Scene.depth (m.source.template s.2).listener (n, s)).trans ?_
    rw [← passed]
    simp only [setting, besideWorld, perform_zoom, perform_bind, perform_look]
  rw [Setting.heardBy, notify]

end Simulation.Manner

end Retry
