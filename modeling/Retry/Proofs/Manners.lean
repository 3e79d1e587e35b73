import Retry.Proofs.Journal
import Retry.Simulation.Call

/-!
# Simulated calls wait like this

A simulated call sleeps in its world, and the token of its world is one of a list. That is
one of the ways in which a call waits (`Manner.waiting`), so what is shown of all settings
and waits holds of simulated calls (`setting_waiting`), and their journals can be kept.

Calls in related worlds go alike step by step (`Staged`, `staged_inWorld`, `exact_staged`).

Main statement: `call_kept`.
-/

namespace Retry.Simulation

open Retry Act

namespace Manner

section

variable {α β : Type}

theorem inWorld_bind (act : Act World α) (k : α → Act World β) :
    inWorld (act >>= k) = inWorld act >>= fun a => inWorld (k a) := by
  refine ext_perform fun s => ?_
  simp only [inWorld, perform_zoom, perform_bind]
  rcases act.perform s.2 with ⟨_ | _, w⟩ <;> rfl

def emitInWorld (r : Record) (s : Stage) : Stage := (s.1, World.emit r s.2)

def tokenInWorld (t : Token World) : Token Stage where
  isCancelled := inWorld t.isCancelled
  cancel := inWorld t.cancel
  await d := inWorld (t.await d)

theorem inWorld_calledOff (t : Token World) (name : String) (d : Delay) :
    inWorld (Wait.calledOff World.emit t name d) =
      Wait.calledOff emitInWorld (tokenInWorld t) name d := by
  simp only [Wait.calledOff, inWorld_bind]
  rfl

theorem inWorld_ofToken (sleep : Delay → Act World Unit) (token : Option (Token World))
    (name : String) (d : Delay) :
    inWorld (Wait.ofToken World.emit sleep token name d) =
      Wait.ofToken emitInWorld (fun d => inWorld (sleep d)) (token.map tokenInWorld) name d := by
  cases token with
  | none =>
    rw [Option.map_none, Wait.ofToken_none, Wait.ofToken_none, inWorld_bind]
    rfl
  | some t =>
    have attended : inWorld (Wait.attended World.emit t name d) =
        Wait.attended emitInWorld (tokenInWorld t) name d := by
      simp only [Wait.attended, inWorld_bind]
      refine congrArg _ (funext fun cancelled => ?_)
      cases cancelled with
      | true => exact inWorld_calledOff t name d
      | false => rfl
    rw [Option.map_some, Wait.ofToken_some, Wait.ofToken_some, inWorld_bind]
    refine congrArg _ (funext fun found => ?_)
    cases found with
    | true => exact inWorld_calledOff t name d
    | false => exact attended

theorem inWorld_ofTask (sleep : Delay → Act World Unit) (name : String) (d : Delay) :
    inWorld (Wait.ofTask sleep name d) = Wait.ofTask (fun d => inWorld (sleep d)) name d := by
  refine ext_perform fun s => ?_
  simp only [Wait.ofTask, inWorld, perform_zoom, perform_of]
  rcases (sleep d).perform s.2 with ⟨f | _, w⟩
  · dsimp only
    split <;> rfl
  · rfl

end

def waiting (m : Manner) : Waiting Stage :=
  match m.mode with
  | .blocking => .blocking (fun d => inWorld (World.sleep d))
      ((m.token.map World.tokenOf).map tokenInWorld)
  | .task => .task fun d => inWorld (World.taskSleep d)

/-- The setting of a simulated call waits as its manner says. -/
theorem setting_waiting (m : Manner) (invoke : Act Stage Datum) :
    (m.setting invoke).waiting m.waiting = m.setting invoke := by
  have pause : m.waiting.pause emitInWorld = fun name d => inWorld (m.pause name d) := by
    funext name d
    unfold waiting Manner.pause
    cases m.mode with
    | blocking => exact (inWorld_ofToken _ _ name d).symm
    | task => exact (inWorld_ofTask _ name d).symm
  show { m.setting invoke with pause := m.waiting.pause emitInWorld } = _
  rw [pause]
  rfl

theorem perform_call_snd (m : Manner) (operation : Operation)
    (plays : List (Act World Datum)) (s : Stage) :
    ((m.call operation plays).perform s).2 =
      ((m.mode.call (m.setting (m.callee operation plays)) operation patience).perform s).2 := by
  rw [call, perform_bind]
  rcases (m.mode.call (m.setting (m.callee operation plays)) operation patience).perform s with
    ⟨_ | _ | _, t⟩ <;> rfl

end Manner

/-! ## Calls in worlds that are related -/

/-- Stages with the same invocations so far, in related worlds. -/
def Staged (P : World → World → Prop) (s t : Stage) : Prop := s.1 = t.1 ∧ P s.2 t.2

theorem ends_entryOf {α β : Type} {Q : α → β → Prop} {script : List α} {other : List β}
    (h : List.Forall₂ Q script other) (position : Int) :
    Ends Q Eq (entryOf script position) (entryOf other position) := by
  have found (i : Nat) : Option.Rel Q script[i]? other[i]? := by
    induction h generalizing i with
    | nil => exact .none
    | cons hab _ ih =>
      cases i with
      | zero => exact .some hab
      | succ i => exact ih i
  unfold entryOf Index.item
  rw [h.length_eq]
  cases Index.place? other.length (min position (other.length - 1)) with
  | none => exact .error rfl
  | some i =>
    have entry := found i
    simp only [Option.bind_some]
    revert entry
    generalize script[i]? = a
    generalize other[i]? = b
    intro entry
    cases entry with
    | none => exact .error rfl
    | some hab => exact .ok hab

namespace Manner

section

variable {α τ : Type} {P : World → World → Prop} {m m' : Manner}

theorem staged_inWorld {a b : Act World α} (h : Exact P a b) :
    Exact (Staged P) (inWorld a) (inWorld b) := by
  rintro ⟨invocations, v⟩ ⟨_, w⟩ ⟨rfl, hw⟩
  obtain ⟨ends, left⟩ := (h v w hw).same
  rw [inWorld, inWorld, perform_zoom, perform_zoom, ends]
  exact matched_of_same _ ⟨rfl, left⟩

theorem staged_besideWorld {a b : Act (τ × World) α} (h : Exact (Beside τ P) a b) :
    Exact (Beside τ (Staged P)) (besideWorld a) (besideWorld b) := by
  rintro ⟨x, invocations, v⟩ ⟨_, _, w⟩ ⟨rfl, rfl, hw⟩
  obtain ⟨ends, same, left⟩ := (h (x, v) (x, w) ⟨rfl, hw⟩).same
  rw [besideWorld, besideWorld, perform_zoom, perform_zoom, ends]
  exact matched_of_same _ ⟨same, rfl, left⟩

/-- Invocations that play akin steps are akin, if they are given the same arguments. -/
theorem akin_staged (same : m.arguments = m'.arguments) {F : Failure → Failure → Prop}
    (hF : ∀ f, F f f) {plays others : List (Act World Datum)}
    (h : List.Forall₂ (Akin P P Eq F) plays others) :
    Akin (Staged P) (Staged P) Eq F (m.invoke plays) (m'.invoke others) := by
  rintro ⟨invocations, v⟩ ⟨_, w⟩ ⟨rfl, hw⟩
  have entry := ends_entryOf h invocations.length
  simp only [invoke, perform_of, same]
  revert entry
  generalize entryOf plays invocations.length = play
  generalize entryOf others invocations.length = other
  intro entry
  cases entry with
  | error same => exact ⟨.error (same ▸ hF _), rfl, hw⟩
  | ok akin =>
    obtain ⟨ends, left⟩ := akin v w hw
    exact ⟨ends, rfl, left⟩

theorem exact_staged (same : m.arguments = m'.arguments) {plays : List (Act World Datum)}
    (h : ∀ play ∈ plays, Exact P play play) :
    Exact (Staged P) (m.invoke plays) (m'.invoke plays) :=
  exact_iff_akin.mpr (akin_staged same (fun _ => rfl)
    (List.forall₂_same.mpr fun play hp => exact_iff_akin.mp (h play hp)))

theorem exact_callee (mode : m.mode = m'.mode) (same : m.arguments = m'.arguments)
    {operation : Operation} {plays : List (Act World Datum)}
    (h : ∀ play ∈ plays, Exact P play play) :
    Exact (Staged P) (m.callee operation plays) (m'.callee operation plays) := by
  unfold callee
  rw [mode]
  cases operation.given? with
  | none => exact Mode.exact_bounded _ (exact_staged same h)
  | some r => exact exact_result _

end

section

variable {R : Stage → Stage → Prop} {m m' : Manner}

theorem exact_call {operation : Operation} {plays : List (Act World Datum)}
    (h : Exact R (m.mode.call (m.setting (m.callee operation plays)) operation patience)
      (m'.mode.call (m'.setting (m'.callee operation plays)) operation patience)) :
    Exact R (m.call operation plays) (m'.call operation plays) := by
  refine exact_bind h fun result => ?_
  cases result with
  | none => exact exact_result _
  | some d => exact exact_pure d

/-- The waits of a call go as the sleeps and the tokens of its world do. -/
theorem alike_waits (sleep : ∀ d, Exact R (inWorld (World.sleep d)) (inWorld (World.sleep d)))
    (taskSleep : ∀ d, Exact R (inWorld (World.taskSleep d)) (inWorld (World.taskSleep d)))
    (asked : ∀ id, Exact R (inWorld (World.tokenOf id).isCancelled)
      (inWorld (World.tokenOf id).isCancelled))
    (cancelled : ∀ id, Exact R (inWorld (World.tokenOf id).cancel)
      (inWorld (World.tokenOf id).cancel))
    (awaited : ∀ id d, Exact R (inWorld ((World.tokenOf id).await d))
      (inWorld ((World.tokenOf id).await d))) :
    Waiting.Alike R m.waiting m.waiting := by
  unfold waiting
  cases m.mode with
  | task => exact .task taskSleep
  | blocking =>
    cases m.token with
    | none => exact .slept sleep
    | some id => exact .attended (asked id) (cancelled id) (awaited id)

end

end Manner

end Retry.Simulation
