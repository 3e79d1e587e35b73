import Retry.Proofs.Audience
import Retry.Proofs.Renewal

/-!
# Worlds that a call cannot tell apart

What does a call see of its world? Not which leaves were told before, nor which listeners were
named, nor the tokens of other calls. Worlds that are the same but for these are *twins* for the
call (`World.Twin`), and its own token may be any of the tokens of each.

If listeners only observe and the operation does no more than to end, and perhaps to cancel its
token, every step of the call goes the same in twins and keeps them twins. So does the whole call
(`exact_twins`).

Main statement: `runCall_twins` (calls in worlds that were set up alike have the same row).
-/

namespace Retry.Simulation

open Retry Act

/-! ## Listeners and operations -/

/-- A listener whose own leaf observes. Groups are looked up. -/
inductive Observing : Listener Leaf → Prop where
  | leaf {l : Leaf} (h : l.Observing) : Observing (.leaf l)
  | group (id : Nat) : Observing (.group id)

/-- All listeners of a world observe: that of its template and the members of its groups. -/
structure World.Observed (w : World) : Prop where
  listener : Observing w.template.listener
  members : ∀ id, ∀ l ∈ w.members id, Observing l

/-- An action of an operation on its own call. -/
inductive Action.Own : Action → Prop where
  | cancel : Own .cancel
  | setAttempt (value : Datum) : Own (.setAttempt value)
  | setName (value : Datum) : Own (.setName value)
  | consult (f : Failure) : Own (.consult f)
  | addSuppressed (f : Failure) : Own (.addSuppressed f)

/-- An invocation that ends by itself, with a value or a failure, after actions on its own call. -/
inductive Outcome.Own : Outcome → Prop where
  | value {actions : List Action} (h : ∀ a ∈ actions, a.Own) (d : Datum) :
    Own (.mk actions (.value d))
  | fails {actions : List Action} (h : ∀ a ∈ actions, a.Own) (f : Failure) :
    Own (.mk actions (.fails f))

namespace World

/-- What a call sees of its world, but for its token. -/
def seen (w : World) : World :=
  { w with told := [], known := [], keys := 1, tokens := [], token := none }

/-- Worlds that are the same for a call, whose token is `i` in the one and `j` in the other. -/
structure Twin (i j : Option Nat) (v w : World) : Prop where
  seen : v.seen = w.seen
  left : v.token = i
  right : w.token = j
  token : i.map (v.tokens[·]?) = j.map (w.tokens[·]?)
  observed : v.Observed

theorem Observed.of_same {v w : World} (h : v.Observed) (template : w.template? = v.template?)
    (groups : w.groups = v.groups) : w.Observed where
  listener := by
    rw [World.template, template]
    exact h.listener
  members := by
    intro id l hl
    rw [World.members, groups] at hl
    exact h.members id l hl

theorem Observed.of_renewed {v w : World} (h : v.Observed) (same : w.renewed = v.renewed) :
    w.Observed :=
  h.of_same (template?_of_renewed same) (groups_of_renewed same)

variable {i j : Option Nat} {v w : World}

theorem Twin.same {γ : Type} (h : Twin i j v w) (f : World → γ) (sees : ∀ w, f w = f w.seen) :
    f v = f w := by
  rw [sees v, sees w, h.seen]

theorem Twin.template (h : Twin i j v w) : v.template = w.template :=
  h.same World.template fun _ => rfl

theorem Twin.members (h : Twin i j v w) : v.members = w.members :=
  h.same World.members fun _ => rfl

theorem Twin.change (h : Twin i j v w) (f : World → World)
    (seen : ∀ w : World, (f w).seen = (f w.seen).seen) (tokens : ∀ w, (f w).tokens = w.tokens)
    (token : ∀ w, (f w).token = w.token) (template : ∀ w, (f w).template? = w.template?)
    (groups : ∀ w, (f w).groups = w.groups) : Twin i j (f v) (f w) where
  seen := by rw [seen v, seen w, h.seen]
  left := (token v).trans h.left
  right := (token w).trans h.right
  token := by
    rw [tokens, tokens]
    exact h.token
  observed := h.observed.of_same (template v) (groups v)

theorem Twin.keep (h : Twin i j v w) (r : Record) : Twin i j (v.keep r) (w.keep r) := by
  have seen (w : World) : (w.keep r).seen = (w.seen.keep r).seen := by
    unfold World.keep
    rw [show w.seen.threshold = w.threshold from rfl]
    split <;> rfl
  have kept (w : World) : (w.keep r).tokens = w.tokens ∧ (w.keep r).token = w.token ∧
      (w.keep r).template? = w.template? ∧ (w.keep r).groups = w.groups := by
    unfold World.keep
    split <;> exact ⟨rfl, rfl, rfl, rfl⟩
  exact h.change _ seen (fun w => (kept w).1) (fun w => (kept w).2.1) (fun w => (kept w).2.2.1)
    fun w => (kept w).2.2.2

theorem Twin.keepAll (h : Twin i j v w) (notes : List Record) :
    Twin i j (notes.foldl World.keep v) (notes.foldl World.keep w) := by
  induction notes generalizing v w with
  | nil => exact h
  | cons r notes ih => exact ih (h.keep r)

theorem Twin.modify {i j : Nat} (h : Twin (some i) (some j) v w) (f : TokenState → TokenState) :
    Twin (some i) (some j) { v with tokens := v.tokens.modify i f }
      { w with tokens := w.tokens.modify j f } where
  seen := h.seen
  left := h.left
  right := h.right
  token := by
    have token : v.tokens[i]? = w.tokens[j]? := Option.some.inj h.token
    simp [List.getElem?_modify, token]
  observed := h.observed.of_same rfl rfl

theorem Twin.isCancelled {i j : Nat} (h : Twin (some i) (some j) v w) :
    v.isCancelled i = w.isCancelled j := by
  have token : v.tokens[i]? = w.tokens[j]? := Option.some.inj h.token
  rw [World.isCancelled, World.isCancelled, token]

/-! ## Waits -/

theorem Twin.noteWait (h : Twin i j v w) (d : Delay) : Twin i j (v.noteWait d) (w.noteWait d) :=
  h.change (World.noteWait · d) (fun _ => rfl) (fun _ => rfl) (fun _ => rfl) (fun _ => rfl)
    fun _ => rfl

theorem Twin.refusals (h : Twin i j v w) : v.refusals = w.refusals :=
  h.same World.refusals fun _ => rfl

theorem exact_sleep (d : Delay) : Exact (Twin i j) (sleep d) (sleep d) := by
  intro v w h
  simp only [sleep, perform_of, h.refusals]
  exact matched_of_same _ (h.noteWait d)

theorem exact_taskSleep (d : Delay) : Exact (Twin i j) (taskSleep d) (taskSleep d) := by
  intro v w h
  have interrupted : (v.cancelOnSleep = some (v.sleeps + 1)) =
      (w.cancelOnSleep = some (w.sleeps + 1)) :=
    h.same (fun w => w.cancelOnSleep = some (w.sleeps + 1)) fun _ => rfl
  have slept : Twin i j { v.noteWait d with sleeps := v.sleeps + 1 }
      { w.noteWait d with sleeps := w.sleeps + 1 } :=
    h.change (fun w => { w.noteWait d with sleeps := w.sleeps + 1 })
      (fun _ => rfl) (fun _ => rfl) (fun _ => rfl) (fun _ => rfl) fun _ => rfl
  rw [perform_taskSleep, perform_taskSleep, h.refusals]
  cases w.refusals.task d with
  | some f => exact .failed slept
  | none =>
    by_cases cancelled : w.cancelOnSleep = some (w.sleeps + 1)
    · dsimp only
      rw [if_pos cancelled, if_pos (interrupted.mpr cancelled)]
      exact .failed (h.change
        (fun w => { w.noteWait d with sleeps := w.sleeps + 1, cancelling := w.cancelling + 1 })
        (fun _ => rfl) (fun _ => rfl) (fun _ => rfl) (fun _ => rfl) fun _ => rfl)
    · dsimp only
      rw [if_neg cancelled, if_neg (interrupted ▸ cancelled)]
      exact .ok slept

section

variable {i j : Nat}

theorem exact_isCancelled :
    Exact (Twin (some i) (some j)) (tokenOf i).isCancelled (tokenOf j).isCancelled := by
  intro v w h
  simp only [tokenOf, perform_look, h.isCancelled]
  exact .ok h

theorem exact_cancel :
    Exact (Twin (some i) (some j)) (tokenOf i).cancel (tokenOf j).cancel :=
  exact_change fun _ _ h => h.modify _

theorem exact_await (d : Delay) :
    Exact (Twin (some i) (some j)) ((tokenOf i).await d) ((tokenOf j).await d) := by
  intro v w h
  have waited := (h.noteWait d).modify fun t =>
    { t with
      waits := t.waits + 1
      cancelled := t.cancelled || t.cancelOnWait = some (t.waits + 1) }
  have same := waited.isCancelled
  simp only [tokenOf, awaitToken, perform_of, h.isCancelled, h.refusals]
  rw [same]
  exact matched_of_same _ waited

end

/-! ## Operations -/

theorem exact_act {a : Action} (h : a.Own) : Exact (Twin i j) (act a) (act a) := by
  cases h with
  | cancel =>
    refine exact_change fun v w h => ?_
    have token := h.token
    simp only [h.left, h.right]
    cases i <;> cases j
    · exact h
    · exact absurd token (by simp)
    · exact absurd token (by simp)
    · exact h.modify _
  | _ => exact exact_result (.error _)

theorem exact_play {R : World → World → Prop} (acts : ∀ a : Action, a.Own → Exact R (act a) (act a))
    (mode : Mode) {o : Outcome} (h : o.Own) : Exact R (o.play mode) (o.play mode) := by
  cases h with
  | value h d => exact exact_bind (exact_forM fun a ha => acts a (h a ha)) fun _ => exact_pure d
  | fails h f =>
    exact exact_bind (exact_forM fun a ha => acts a (h a ha)) fun _ => exact_result (.error f)

theorem exact_playAll {R : World → World → Prop}
    (acts : ∀ a : Action, a.Own → Exact R (act a) (act a)) (mode : Mode) {os : List Outcome}
    (h : ∀ o ∈ os, o.Own) : ∀ play ∈ playAll mode os, Exact R play play := by
  induction os with
  | nil => exact fun _ hp => absurd hp (by simp [playAll])
  | cons o os ih =>
    rw [playAll]
    exact List.forall_mem_cons.mpr ⟨exact_play acts mode (h o (List.mem_cons_self ..)),
      ih fun o ho => h o (List.mem_cons_of_mem _ ho)⟩

/-! ## Listeners -/

/-- The world after a leaf has written an event down, and has counted it. -/
def wrote (w : World) (row : EventRow) (key : Nat) (hook : String) : World :=
  ({ w with trace := { w.trace with events := w.trace.events ++ [row] } }.countTold key hook).2

theorem Twin.wrote (h : Twin i j v w) (row : EventRow) (key : Nat) (hook : String) :
    Twin i j (v.wrote row key hook) (w.wrote row key hook) :=
  h.change (World.wrote · row key hook) (fun _ => rfl) (fun _ => rfl) (fun _ => rfl) (fun _ => rfl)
    fun _ => rfl

end World

namespace Scene

/-- An observing leaf writes one row or none, the same in every world. -/
theorem perform_hook_observing {leaf : Leaf} (h : leaf.Observing) (n : Notice Execution Datum) :
    (∀ w, (hook leaf).perform (n, w) = (.ok (), n, w)) ∨
      ∃ row key, row.operation = n.state.operation ∧
        ∀ w, (hook leaf).perform (n, w) = (.ok (), n, w.wrote row key n.event.hook) := by
  cases h with
  | silent key => exact .inl fun _ => rfl
  | recorder key id => exact .inr ⟨recorderRow id n, key, rfl, fun _ => rfl⟩
  | callback key id hooks =>
    simp only [hook, perform_bind, perform_look]
    split
    · exact .inr ⟨callbackRow id n, key, rfl, fun _ => rfl⟩
    · exact .inl fun _ => rfl

/-- Where listeners observe, events are passed on as their leaves go. -/
theorem exact_observing {R : Scene → Scene → Prop}
    (same : ∀ x y, R x y → x.2.members = y.2.members)
    (held : ∀ x y, R x y → ∀ id, ∀ l ∈ x.2.members id, Observing l)
    (leaves : ∀ leaf : Leaf, leaf.Observing → Exact R (hook leaf) (hook leaf))
    {l : Listener Leaf} (h : Observing l) : Exact R (tell l) (tell l) := by
  have passed : tell l = Listener.tell (fun x => x.2.members) hook depth l := rfl
  rw [passed]
  refine (Listener.exact_passed (P := Observing) same held (fun leaf observing => ?_) depth).1 l h
  cases observing with
  | leaf observing => exact leaves leaf observing

variable {i j : Option Nat}

theorem exact_hook {leaf : Leaf} (h : leaf.Observing) :
    Exact (Beside (Notice Execution Datum) (World.Twin i j)) (hook leaf) (hook leaf) := by
  rintro ⟨n, v⟩ ⟨_, w⟩ ⟨rfl, hw⟩
  obtain idle | ⟨row, key, -, writes⟩ := perform_hook_observing h n
  · rw [idle, idle]
    exact .ok ⟨rfl, hw⟩
  · rw [writes, writes]
    exact .ok ⟨rfl, hw.wrote row key n.event.hook⟩

theorem exact_tell {l : Listener Leaf} (h : Observing l) :
    Exact (Beside (Notice Execution Datum) (World.Twin i j)) (tell l) (tell l) :=
  exact_observing (fun _ _ hs => hs.2.members) (fun _ _ hs => hs.2.observed.members)
    (fun _ => exact_hook) h

end Scene

/-! ## Calls -/

namespace Manner

open World

variable {i j : Option Nat}

theorem exact_consulted (f : Failure) :
    Exact (Beside Execution (Twin i j)) (Scene.consult f) (Scene.consult f) := by
  rintro ⟨e, v⟩ ⟨_, w⟩ ⟨rfl, hw⟩
  exact matched_of_same _ ⟨rfl, hw.keepAll _⟩

theorem exact_drawn : Exact (Beside Pace (Twin i j)) nextDelay nextDelay := by
  rintro ⟨pace, v⟩ ⟨_, w⟩ ⟨rfl, hw⟩
  have draws : v.draws = w.draws := hw.same World.draws fun _ => rfl
  simp only [nextDelay, perform_of, draws]
  generalize pace.next w.draws = given
  obtain ⟨delay, pace, draws, notes⟩ := given
  have drawn := hw.change ({ · with draws }) (fun _ => rfl) (fun _ => rfl) (fun _ => rfl)
    (fun _ => rfl) fun _ => rfl
  exact matched_of_same _ ⟨rfl, drawn.keepAll notes⟩

theorem exact_offered {γ : Type} (f : Template Policy Pacing (Listener Leaf) → γ) :
    Exact (Twin i j) (look fun w => f w.template) (look fun w => f w.template) :=
  exact_look fun _ _ h => congrArg f h.template

theorem exact_told :
    Exact (Beside (Notice Execution Datum) (Twin i j))
      (do let w ← look (·.2); Scene.tell w.template.listener)
      (do let w ← look (·.2); Scene.tell w.template.listener) := by
  rintro ⟨n, v⟩ ⟨_, w⟩ ⟨rfl, hw⟩
  simp only [perform_bind, perform_look, ← hw.template]
  exact Scene.exact_tell hw.observed.listener _ _ ⟨rfl, hw⟩

end Manner

/-- How a call is made that has a token, or none. -/
def CallScript.manner (c : CallScript) (mode : Mode) (token : Option Nat) : Manner :=
  { mode, source := .shared, token := if c.waitsWithToken then token else none
    arguments := c.arguments }

namespace CallScript

open World Manner

variable {i j : Option Nat} (c : CallScript) (mode : Mode)

theorem alike_waiting (tokens : i.isSome = j.isSome) :
    Waiting.Alike (Staged (Twin i j)) (c.manner mode i).waiting (c.manner mode j).waiting := by
  have slept : Waiting.Alike (Staged (Twin i j)) (.blocking (fun d => inWorld (World.sleep d)) none)
      (.blocking (fun d => inWorld (World.sleep d)) none) :=
    .slept fun d => staged_inWorld (exact_sleep d)
  unfold Manner.waiting manner
  cases mode with
  | task => exact .task fun d => staged_inWorld (exact_taskSleep d)
  | blocking =>
    cases c.waitsWithToken with
    | false => exact slept
    | true =>
      cases i <;> cases j
      · exact slept
      · exact absurd tokens (by simp)
      · exact absurd tokens (by simp)
      · exact .attended (staged_inWorld exact_isCancelled) (staged_inWorld exact_cancel)
          fun d => staged_inWorld (exact_await d)

theorem alike_setting {invoke invoke' : Act Stage Datum}
    (h : Exact (Staged (Twin i j)) invoke invoke') :
    Setting.Alike (Staged (Twin i j)) ((c.manner mode i).setting invoke)
      ((c.manner mode j).setting invoke') where
  accept := fun r _ _ hs => hs.2.same (fun w => w.accept r) fun _ => rfl
  emit := fun r _ _ hs => ⟨hs.1, hs.2.keep r⟩
  invoke := h
  openPolicy := staged_inWorld (exact_offered (·.policy.start))
  openBackoff := staged_inWorld (exact_offered (·.backoff.start))
  shouldRetry := fun f => staged_besideWorld (exact_consulted f)
  nextDelay := staged_besideWorld exact_drawn
  notify := staged_besideWorld exact_told

theorem exact_paused {invoke invoke' : Act Stage Datum} (tokens : i.isSome = j.isSome)
    (name : String) (d : Delay) :
    Exact (Staged (Twin i j)) (((c.manner mode i).setting invoke).pause name d)
      (((c.manner mode j).setting invoke').pause name d) := by
  have emitted (r : Record) (s t : Stage) (hs : Staged (Twin i j) s t) :
      Staged (Twin i j) (((c.manner mode i).setting invoke).emit r s)
        (((c.manner mode j).setting invoke').emit r t) := ⟨hs.1, hs.2.keep r⟩
  rw [← (c.manner mode i).setting_waiting, ← (c.manner mode j).setting_waiting]
  exact (c.alike_waiting mode tokens).pause emitted name d

/-- **A call goes the same in twins**, whichever tokens it has there. -/
theorem exact_twins (tokens : i.isSome = j.isSome) {plays : List (Act World Datum)}
    (h : ∀ play ∈ plays, Exact (Twin i j) play play) :
    Exact (Staged (Twin i j)) ((c.manner mode i).call c.operation plays)
      ((c.manner mode j).call c.operation plays) := by
  have callee : Exact (Staged (Twin i j)) ((c.manner mode i).callee c.operation plays)
    ((c.manner mode j).callee c.operation plays) := Manner.exact_callee rfl rfl h
  exact Manner.exact_call (Mode.exact_call mode (c.alike_setting mode callee)
    (c.exact_paused mode tokens) c.operation patience)

end CallScript

/-! ## Calls in worlds that were set up alike -/

/-- A call of its own: no other call has its token, and its operation acts on nothing but it. -/
structure CallScript.Own (c : CallScript) : Prop where
  token : c.token ≠ .same
  outcomes : ∀ o ∈ c.outcomes, o.Own

namespace World

variable {v w : World} {c : CallScript}

def begun (w : World) (c : CallScript) : World :=
  { w.useToken c.token with
    cancelOnSleep := c.cancelOnWait, sleeps := 0, cancelling := 0, trace := {} }

theorem begun_seen (w : World) (c : CallScript) :
    (w.begun c).seen = { w.renewed with cancelOnSleep := c.cancelOnWait } := by
  rw [begun]
  cases c.token <;> rfl

theorem begun_renewed (w : World) (c : CallScript) : (w.begun c).renewed = w.renewed := by
  rw [begun]
  cases c.token <;> rfl

theorem begun_twins (fresh : v.renewed = w.renewed) (observed : v.Observed)
    (token : c.token ≠ .same) :
    Twin (v.begun c).token (w.begun c).token (v.begun c) (w.begun c) where
  seen := by rw [begun_seen, begun_seen, fresh]
  left := rfl
  right := rfl
  token := by
    rw [begun, begun]
    cases h : c.token with
    | without => rfl
    | fresh s => simp [useToken, makeToken]
    | same => exact absurd h token
  observed := observed.of_renewed (v.begun_renewed c)

theorem Twin.tokenText {i j : Option Nat} (h : Twin i j v w) :
    v.token.map v.tokenText = w.token.map w.tokenText := by
  have token := h.token
  rw [h.left, h.right]
  cases i <;> cases j
  · rfl
  · exact absurd token (by simp)
  · exact absurd token (by simp)
  · rw [Option.map_some, Option.map_some, World.tokenText, World.tokenText, h.isCancelled]

theorem Twin.isSome {i j : Option Nat} (h : Twin i j v w) : i.isSome = j.isSome := by
  simpa using congrArg Option.isSome h.token

end World

def CallScript.played (c : CallScript) (mode : Mode) (w : World) :
    Except Failure Datum × Stage :=
  ((c.manner mode w.token).call c.operation (playAll mode c.outcomes)).perform ([], w)

theorem World.runCall_fst (mode : Mode) (w : World) (c : CallScript) :
    let x := c.played mode (w.begun c)
    (w.runCall mode c).1 =
      { ending := x.1, invocations := x.2.1, trace := x.2.2.trace
        token := x.2.2.token.map x.2.2.tokenText, cancelling := x.2.2.cancelling } := rfl

/-- **Calls in worlds that were set up alike have the same row.** -/
theorem runCall_twins (mode : Mode) {v w : World} (fresh : v.renewed = w.renewed)
    (observed : v.Observed) {c : CallScript} (own : c.Own) :
    (v.runCall mode c).1 = (w.runCall mode c).1 := by
  have begun := World.begun_twins fresh observed own.token
  have plays : ∀ play ∈ playAll mode c.outcomes,
      Exact (World.Twin (v.begun c).token (w.begun c).token) play play :=
    World.exact_playAll (fun _ => World.exact_act) mode own.outcomes
  have played := c.exact_twins mode begun.isSome plays ([], v.begun c) ([], w.begun c) ⟨rfl, begun⟩
  obtain ⟨ending, invocations, after⟩ := played.same
  rw [World.runCall_fst, World.runCall_fst]
  simp only [CallScript.played, ending, invocations, after.tokenText,
    after.same World.trace fun _ => rfl, after.same World.cancelling fun _ => rfl]

end Retry.Simulation
