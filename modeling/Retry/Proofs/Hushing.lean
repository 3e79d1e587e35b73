import Retry.Proofs.Ledger
import Retry.Proofs.Renewal
import Retry.Proofs.Scenes

/-!
# Worlds at different thresholds

A world at debug level keeps every record that is made in it. At another threshold it is the same
world with the same records, or with none (`World.hushed`).

Nothing in a world looks at its threshold or at the records that it has kept, but the keeping of
a record itself. So every step of a call goes the same in a world and in the hushed one, and
leaves such worlds: actions of operations and hooks of listeners (`orderly_hushed`), waits, and
whatever policies and backoffs do (`hushed_consult`, `hushed_nextDelay`). `World.Hushed` also says
which records have been kept by then.
-/

namespace Retry.Simulation

open Retry Act

/-- What a threshold leaves of a trace that was taken at debug level. -/
def Trace.hushed (x : Trace) (threshold : Int) : Trace :=
  { x with logs := if Level.enabled threshold (.whole Level.debug) then x.logs else [] }

namespace World

/-- What a threshold leaves of a world at debug level. -/
def hushed (w : World) (threshold : Int) : World :=
  { w with threshold, trace := w.trace.hushed threshold }

/-- A world at debug level whose logger keeps every record, and what another threshold leaves of
it. The world has kept these records and perhaps others between them, all at debug level. -/
structure Hushed (threshold : Int) (l : List Record) (v w : World) : Prop where
  full : v.threshold = Level.debug
  keeps : ∀ r, v.refuse r = none
  hushed : w = v.hushed threshold
  kept : l.Sublist (v.trace.logs.map LogRow.record)
  debug : ∀ row ∈ v.trace.logs, row.record.Debug

variable {t : Int} {l : List Record} {v w : World}

/-! ## Keeping records -/

theorem keep_full (full : v.threshold = Level.debug) {r : Record} (debug : r.Debug) :
    ∃ line, v.keep r =
      { v with trace := { v.trace with logs := v.trace.logs ++ [⟨r, line⟩] } } := by
  have enabled : Level.enabled v.threshold r.level = true := by
    rw [full, debug]
    rfl
  refine ⟨if v.lines then (r.line Record.usualRoom 0 (some 0) v.correlation).toOption else none, ?_⟩
  rw [keep, if_pos enabled]

/-- A record is kept at debug level, and whatever the threshold leaves of it at that threshold. -/
theorem keep_hushed (full : v.threshold = Level.debug) {r : Record} (debug : r.Debug) :
    (v.hushed t).keep r = (v.keep r).hushed t := by
  have enabled : Level.enabled v.threshold r.level = true := by
    rw [full, debug]
    rfl
  rw [keep, keep, if_pos enabled, debug]
  by_cases heard : Level.enabled t (.whole Level.debug) = true
  · simp [hushed, Trace.hushed, heard]
  · simp [hushed, Trace.hushed, heard]

theorem Hushed.keep (h : Hushed t l v w) {r : Record} (debug : r.Debug) :
    Hushed t (l ++ [r]) (v.keep r) (w.keep r) := by
  obtain ⟨line, kept⟩ := keep_full h.full debug
  refine ⟨?_, ?_, by rw [h.hushed, keep_hushed h.full debug], ?_, ?_⟩
  · rw [kept]
    exact h.full
  · rw [kept]
    exact h.keeps
  · rw [kept, List.map_append]
    exact h.kept.append (List.Sublist.refl _)
  · rw [kept]
    exact List.forall_mem_append.mpr ⟨h.debug, List.forall_mem_singleton.mpr debug⟩

/-- Either logger lets a call go on with a record, as it keeps it or does not look at it. -/
theorem Hushed.accept (h : Hushed t l v w) (r : Record) : v.accept r = w.accept r := by
  have keeps (r : Record) : w.refuse r = none := by
    rw [h.hushed]
    exact h.keeps r
  rw [accept_kept h.keeps, accept_kept keeps]

theorem Hushed.mono {k : List Record} (h : Hushed t l v w) (sub : k.Sublist l) : Hushed t k v w :=
  { h with kept := sub.trans h.kept }

theorem Hushed.keepAll (h : Hushed t l v w) {notes : List Record} (noted : ∀ r ∈ notes, r.IsNote) :
    Hushed t l (notes.foldl World.keep v) (notes.foldl World.keep w) := by
  induction notes generalizing v w with
  | nil => exact h
  | cons r notes ih =>
    obtain ⟨hr, hnotes⟩ := List.forall_mem_cons.mp noted
    exact ih ((h.keep hr.debug).mono (List.sublist_append_left l [r])) hnotes

/-! ## Steps that keep none -/

theorem Hushed.same {γ : Type} (h : Hushed t l v w) {f : World → γ}
    (even : ∀ u, f (u.hushed t) = f u) : f v = f w := by
  rw [h.hushed, even]

theorem Hushed.change (h : Hushed t l v w) {f : World → World}
    (even : ∀ u, f (u.hushed t) = (f u).hushed t) (threshold : (f v).threshold = v.threshold)
    (refuse : (f v).refuse = v.refuse) (logs : (f v).trace.logs = v.trace.logs) :
    Hushed t l (f v) (f w) where
  full := threshold.trans h.full
  keeps := fun r => (congrFun refuse r).trans (h.keeps r)
  hushed := by rw [h.hushed, even]
  kept := logs ▸ h.kept
  debug := logs ▸ h.debug

/-- A step that does not look at the threshold or at the records, and leaves them. -/
theorem hushed_of_even {γ : Type} {act : Act World γ}
    (even : ∀ u, act.perform (u.hushed t) = ((act.perform u).1, (act.perform u).2.hushed t))
    (left : ∀ u, (act.perform u).2.threshold = u.threshold ∧
      (act.perform u).2.refuse = u.refuse ∧ (act.perform u).2.trace.logs = u.trace.logs) :
    Exact (Hushed t l) act act := by
  intro v w h
  obtain ⟨threshold, refuse, logs⟩ := left v
  rw [h.hushed, even]
  exact matched_of_same _ ⟨threshold.trans h.full, fun r => (congrFun refuse r).trans (h.keeps r),
    rfl, logs ▸ h.kept, logs ▸ h.debug⟩

theorem hushed_look {γ : Type} {f : World → γ} (even : ∀ u : World, f (u.hushed t) = f u) :
    Exact (Hushed t l) (look f) (look f) :=
  exact_look fun _ _ h => h.same even

/-! ## Waits -/

theorem hushed_sleep (d : Delay) : Exact (Hushed t l) (sleep d) (sleep d) :=
  hushed_of_even (fun _ => rfl) fun _ => ⟨rfl, rfl, rfl⟩

theorem hushed_taskSleep (d : Delay) : Exact (Hushed t l) (taskSleep d) (taskSleep d) := by
  have interrupted (u : World) : (u.hushed t).cancelOnSleep = some ((u.hushed t).sleeps + 1) ↔
      u.cancelOnSleep = some (u.sleeps + 1) := Iff.rfl
  have refused (u : World) : (u.hushed t).refusals = u.refusals := rfl
  refine hushed_of_even (fun u => ?_) fun u => ?_
  · simp only [perform_taskSleep, interrupted, refused]
    cases u.refusals.task d with
    | some f => rfl
    | none =>
      dsimp only
      split <;> rfl
  · rw [perform_taskSleep]
    cases u.refusals.task d with
    | some f => exact ⟨rfl, rfl, rfl⟩
    | none =>
      dsimp only
      split <;> exact ⟨rfl, rfl, rfl⟩

section

variable (id : Nat)

theorem hushed_isCancelled :
    Exact (Hushed t l) (tokenOf id).isCancelled (tokenOf id).isCancelled :=
  hushed_look fun _ => rfl

theorem hushed_cancel : Exact (Hushed t l) (tokenOf id).cancel (tokenOf id).cancel :=
  hushed_of_even (fun _ => rfl) fun _ => ⟨rfl, rfl, rfl⟩

theorem hushed_await (d : Delay) :
    Exact (Hushed t l) ((tokenOf id).await d) ((tokenOf id).await d) :=
  hushed_of_even (fun _ => rfl) fun _ => ⟨rfl, rfl, rfl⟩

end

/-! ## Making listeners -/

theorem hushed_buildLeaf (id : Option String) (leaf : Nat → Leaf) :
    Exact (Hushed t l) (buildLeaf id leaf) (buildLeaf id leaf) := by
  cases id <;> exact hushed_of_even (fun _ => rfl) fun _ => ⟨rfl, rfl, rfl⟩

theorem hushed_buildGroup (id : Option String) (members : List (Listener Leaf)) :
    Exact (Hushed t l) (buildGroup id members) (buildGroup id members) := by
  cases id <;> exact hushed_of_even (fun _ => rfl) fun _ => ⟨rfl, rfl, rfl⟩

end World

/-! ## Listeners -/

namespace Scene

open World

variable {t : Int} {l : List Record}

theorem hushed_consult (f : Failure) :
    Exact (Beside Execution (Hushed t l)) (consult f) (consult f) := by
  rintro ⟨e, v⟩ ⟨_, w⟩ ⟨rfl, hw⟩
  exact matched_of_same _ ⟨rfl, hw.keepAll (e.isNote f)⟩

end Scene

/-- Whatever listeners do, they do it alike in a world and in the hushed one. -/
theorem orderly_hushed (t : Int) (l : List Record) : Orderly (World.Hushed t l) where
  named := fun _ _ h => h.same (f := World.listenerNamed) fun _ => rfl
  template := fun _ _ h => h.same (f := World.template?) fun _ => rfl
  members := fun _ _ h => h.same (f := World.members) fun _ => rfl
  leaf := World.hushed_buildLeaf
  group := World.hushed_buildGroup
  joins := fun id l _ _ h => h.change (f := (World.addTo · id l)) (fun _ => rfl) rfl rfl rfl
  sets := fun t _ _ h =>
    h.change (f := fun u => { u with template? := some t }) (fun _ => rfl) rfl rfl rfl
  cancels := by
    have token (u : World) : (u.hushed t).token = u.token := rfl
    refine World.hushed_of_even (fun u => ?_) fun u => ?_ <;>
      simp only [World.act, perform_change, token] <;> cases u.token
    · rfl
    · rfl
    · exact ⟨rfl, rfl, rfl⟩
    · exact ⟨rfl, rfl, rfl⟩
  correlates := fun id _ _ h =>
    h.change (f := fun u => { u with correlation := id }) (fun _ => rfl) rfl rfl rfl
  counts := fun _ _ => World.hushed_of_even (fun _ => rfl) fun _ => ⟨rfl, rfl, rfl⟩
  writes := fun row _ _ h => h.change
    (f := fun u => { u with trace := { u.trace with events := u.trace.events ++ [row] } })
    (fun _ => rfl) rfl rfl rfl
  consults := Scene.hushed_consult

end Retry.Simulation
