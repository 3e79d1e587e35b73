import Mathlib.Data.List.Forall2
import Retry.Mode
import Retry.Proofs.Tasks

/-!
# Calls that differ, and go the same way

Two calls may differ in much that the loop hands on and never looks at: the text of a
failure, the name in the state, the number of the attempt. A `Kinship` says what the
differences may be, for records, states and failures, and `Kinship.Lawful` that the loop
itself makes no more of them. Two settings of a kinship (`Kin`) answer related questions from
related surroundings with related answers.

`Act.Akin` compares two steps by relations on what they start from, what they leave, and how
they end. Steps built alike from such steps are such steps (`akin_bind`, `akin_focus`,
`akin_trial`), as for `Act.Exact`, which is the case of equal ends.

Main statements: `akin_run`, `akin_call` (kin settings whose waits go the same way make kin
calls).
-/

namespace Retry

/-! ## Steps that end akin -/

/-- Two ends are both results or both failures, and related. -/
inductive Ends {α β : Type} (Q : α → β → Prop) (F : Failure → Failure → Prop) :
    Except Failure α → Except Failure β → Prop where
  | ok {a : α} {b : β} (h : Q a b) : Ends Q F (.ok a) (.ok b)
  | error {f g : Failure} (h : F f g) : Ends Q F (.error f) (.error g)

theorem ends_self {α : Type} {Q : α → α → Prop} {F : Failure → Failure → Prop}
    (hQ : ∀ a, Q a a) (hF : ∀ f, F f f) (r : Except Failure α) : Ends Q F r r := by
  cases r with
  | ok a => exact .ok (hQ a)
  | error f => exact .error (hF f)

theorem Ends.eq {α : Type} {r q : Except Failure α} (h : Ends Eq Eq r q) : r = q := by
  cases h with
  | ok h => rw [h]
  | error h => rw [h]

theorem Ends.mono {α β : Type} {Q Q' : α → β → Prop} {F G : Failure → Failure → Prop}
    (hQ : ∀ a b, Q a b → Q' a b) (hF : ∀ f g, F f g → G f g) {r : Except Failure α}
    {q : Except Failure β} (h : Ends Q F r q) : Ends Q' G r q := by
  cases h with
  | ok h => exact .ok (hQ _ _ h)
  | error h => exact .error (hF _ _ h)

theorem Ends.mapError {α β : Type} {Q : α → β → Prop} {F G : Failure → Failure → Prop}
    {g : Failure → Failure} (hF : ∀ f f', F f f' → G (g f) (g f')) {r : Except Failure α}
    {q : Except Failure β} (h : Ends Q F r q) : Ends Q G (r.mapError g) (q.mapError g) := by
  cases h with
  | ok h => exact .ok h
  | error h => exact .error (hF _ _ h)

namespace Act

variable {σ τ υ ω α β γ δ : Type}

/-- Related surroundings with related values beside them. -/
def Both (X : υ → ω → Prop) (R : σ → τ → Prop) (x : υ × σ) (y : ω × τ) : Prop :=
  X x.1 y.1 ∧ R x.2 y.2

/-- Two steps that end akin from surroundings related by `P`, and leave ones related by `R`. -/
def Akin (P R : σ → τ → Prop) (Q : α → β → Prop) (F : Failure → Failure → Prop)
    (a : Act σ α) (b : Act τ β) : Prop :=
  ∀ s t, P s t → Ends Q F (a.perform s).1 (b.perform t).1 ∧ R (a.perform s).2 (b.perform t).2

variable {P R : σ → τ → Prop} {Q : α → β → Prop} {Q' : γ → δ → Prop}
  {F : Failure → Failure → Prop}

theorem akin_pure {a : α} {b : β} (h : Q a b) :
    Akin R R Q F (pure a : Act σ α) (pure b : Act τ β) :=
  fun _ _ hs => ⟨.ok h, hs⟩

theorem akin_result {r : Except Failure α} {q : Except Failure β} (h : Ends Q F r q) :
    Akin R R Q F (result r : Act σ α) (result q : Act τ β) :=
  fun _ _ hs => ⟨h, hs⟩

theorem akin_change {f : σ → σ} {g : τ → τ} (h : ∀ s t, P s t → R (f s) (g t)) :
    Akin P R Eq F (change f) (change g) :=
  fun s t hs => ⟨.ok rfl, h s t hs⟩

theorem akin_look {f : σ → α} {g : τ → α} (h : ∀ s t, P s t → f s = g t) :
    Akin P P Eq F (look f) (look g) :=
  fun s t hs => ⟨.ok (h s t hs), hs⟩

/-- A step that follows may leave more than the first one did. -/
theorem akin_bind_of_le {M : σ → τ → Prop} (hM : ∀ s t, M s t → R s t) {a : Act σ α}
    {b : Act τ β} {k : α → Act σ γ} {l : β → Act τ δ} (h : Akin P M Q F a b)
    (hk : ∀ x y, Q x y → Akin M R Q' F (k x) (l y)) : Akin P R Q' F (a >>= k) (b >>= l) := by
  intro s t hs
  obtain ⟨hends, hr⟩ := h s t hs
  rw [perform_bind, perform_bind]
  revert hends hr
  generalize a.perform s = x
  generalize b.perform t = y
  obtain ⟨r, s⟩ := x
  obtain ⟨q, t⟩ := y
  intro hends hr
  cases hends with
  | ok hq => exact hk _ _ hq s t hr
  | error hf => exact ⟨.error hf, hM _ _ hr⟩

theorem akin_bind {a : Act σ α} {b : Act τ β} {k : α → Act σ γ} {l : β → Act τ δ}
    (h : Akin P R Q F a b) (hk : ∀ x y, Q x y → Akin R R Q' F (k x) (l y)) :
    Akin P R Q' F (a >>= k) (b >>= l) :=
  akin_bind_of_le (fun _ _ => id) h hk

theorem akin_focus {X Y : υ → ω → Prop} {x : υ} {y : ω} {a : Act (υ × σ) α}
    {b : Act (ω × τ) β} (hx : X x y) (h : Akin (Both X P) (Both Y R) Q F a b) :
    Akin P R (Both Q Y) F (focus x a) (focus y b) := by
  intro s t hs
  obtain ⟨hends, hr⟩ := h (x, s) (y, t) ⟨hx, hs⟩
  rw [perform_focus, perform_focus]
  revert hends hr
  generalize a.perform (x, s) = u
  generalize b.perform (y, t) = v
  obtain ⟨r, x, s⟩ := u
  obtain ⟨q, y, t⟩ := v
  intro hends hr
  cases hends with
  | ok hq => exact ⟨.ok ⟨hq, hr.1⟩, hr.2⟩
  | error hf => exact ⟨.error hf, hr.2⟩

/-- Failures that are told apart by neither being ordinary nor, if they are not, by being
different, are handled alike. -/
theorem akin_trial {a : Act σ α} {b : Act τ β} (hF : ∀ f g, F f g → f.ordinary = g.ordinary)
    (hF' : ∀ f g, F f g → f.ordinary = false → f = g) (h : Akin P R Q F a b) :
    Akin P R (Ends Q F) Eq a.trial b.trial := by
  intro s t hs
  obtain ⟨hends, hr⟩ := h s t hs
  rw [perform_trial, perform_trial]
  revert hends hr
  generalize a.perform s = x
  generalize b.perform t = y
  obtain ⟨r, s⟩ := x
  obtain ⟨q, t⟩ := y
  intro hends hr
  cases hends with
  | ok hq => exact ⟨.ok (.ok hq), hr⟩
  | @error f g hf =>
    have same := hF f g hf
    cases hord : f.ordinary with
    | true => simpa [hord, ← same] using ⟨.ok (.error hf), hr⟩
    | false => simpa [hord, ← same] using ⟨.error (hF' f g hf hord), hr⟩

theorem exact_iff_akin {a : Act σ α} {b : Act τ α} : Exact R a b ↔ Akin R R Eq Eq a b := by
  constructor
  · intro h s t hs
    obtain ⟨hr, ht⟩ := (h s t hs).same
    exact ⟨hr ▸ ends_self (fun _ => rfl) (fun _ => rfl) _, ht⟩
  · intro h s t hs
    obtain ⟨hr, ht⟩ := h s t hs
    have same := matched_of_same (a.perform s).1 ht
    rwa [show ((a.perform s).1, (b.perform t).2) = b.perform t from Prod.ext hr.eq rfl] at same

end Act

/-! ## What may differ -/

/-- Two phases that differ in no more than their failures. -/
inductive Phase.Akin (F : Failure → Failure → Prop) : Phase → Phase → Prop where
  | same {phase : Phase} (h : phase.error? = none) (h' : phase.delay? = none) : Akin F phase phase
  | failed {f g : Failure} (h : F f g) : Akin F (.failed f) (.failed g)
  | waiting {f g : Failure} (d : Delay) (h : F f g) : Akin F (.waiting f d) (.waiting g d)
  | retryFailed {f g : Failure} (h : F f g) : Akin F (.retryFailed f) (.retryFailed g)

theorem Phase.Akin.eq {phase phase' : Phase} (h : Phase.Akin Eq phase phase') :
    phase = phase' := by
  cases h with
  | same => rfl
  | failed h => exact congrArg _ h
  | waiting d h => exact congrArg (Phase.waiting · d) h
  | retryFailed h => exact congrArg _ h

/-- What two calls may differ in: records, before the policy is started and after it, what the
state shows, failures of attempts, and the failure of exhaustion. -/
structure Kinship (ε : Type) where
  early : Record → Record → Prop
  record : Record → Record → Prop
  operation : Datum → Datum → Prop
  execution : ε → ε → Prop
  attempt : Attempt → Attempt → Prop
  failure : Failure → Failure → Prop
  exhaustion : Failure → Failure → Prop

namespace Kinship

variable {σ τ ε α β : Type}

/-- The loop makes no more of a difference than it is. -/
structure Lawful (K : Kinship ε) : Prop where
  named : ∀ name, K.operation (.text name) (.text name)
  first : K.attempt 1 1
  next : ∀ a b, K.attempt a b → Ends K.attempt Eq (Attempt.next a) (Attempt.next b)
  ordinary : ∀ f g, K.failure f g → f.ordinary = g.ordinary
  extra : ∀ f g, K.failure f g → f.ordinary = false → f = g
  exhausted : ∀ name f g fs gs, K.failure f g → List.Forall₂ K.failure fs gs →
    K.exhaustion (.exhaustedFor (.text name) f fs) (.exhaustedFor (.text name) g gs)
  firstWords : ∀ name phase phase', Phase.Akin K.failure phase phase' →
    Ends K.early Eq (phase.record name 1) (phase'.record name 1)
  words : ∀ name a b phase phase', K.attempt a b → Phase.Akin K.failure phase phase' →
    Ends K.record Eq (phase.record name a) (phase'.record name b)

variable (K : Kinship ε)

/-- Related states of two calls. -/
structure State (s t : CallState ε) : Prop where
  operation : K.operation s.operation t.operation
  execution : K.execution s.execution t.execution
  attempt : K.attempt s.attempt t.attempt

/-- Related events. -/
inductive Told : Event α → Event α → Prop where
  | beforeRetry : Told .beforeRetry .beforeRetry
  | success (v : α) : Told (.success v) (.success v)
  | failure {f g : Failure} (h : K.failure f g) : Told (.failure f) (.failure g)
  | exhaustion {f g : Failure} (h : K.exhaustion f g) : Told (.exhaustion f) (.exhaustion g)

def Notified (n m : Notice ε α) : Prop := K.State n.state m.state ∧ K.Told n.event m.event

/-- What is left of related notices: related states, and failures related as they were. -/
structure Left (n m n' m' : Notice ε α) : Prop where
  state : K.State n'.state m'.state
  failure : K.failure n.event.error m.event.error → K.failure n'.event.error m'.event.error
  exhaustion : K.exhaustion n.event.error m.event.error →
    K.exhaustion n'.event.error m'.event.error

/-- Calls that stand at related places between two turns. -/
structure Abreast (p q : Progress ε β) : Prop where
  state : K.State p.state q.state
  backoff : p.backoff = q.backoff
  first : K.failure p.first q.first
  later : List.Forall₂ K.failure p.later q.later
  last : K.failure p.last q.last

/-- Related endings of the loop. -/
inductive Ended : Ending α → Ending α → Prop where
  | returned (v : α) : Ended (.returned v) (.returned v)
  | exhausted {f g : Failure} (h : K.exhaustion f g) : Ended (.exhausted f) (.exhausted g)
  | aborted (f : Failure) : Ended (.aborted f) (.aborted f)

variable {K} in
theorem State.eq {s t : CallState ε} (h : K.State s t) (operation : ∀ a b, K.operation a b → a = b)
    (execution : ∀ a b, K.execution a b → a = b) (attempt : ∀ a b, K.attempt a b → a = b) :
    s = t := by
  obtain ⟨o, e, a⟩ := s
  obtain ⟨o', e', a'⟩ := t
  obtain ⟨ho, he, ha⟩ := h
  rw [operation o o' ho, execution e e' he, attempt a a' ha]

variable {K} in
theorem Told.eq {e e' : Event α} (h : K.Told e e') (failure : ∀ f g, K.failure f g → f = g)
    (exhaustion : ∀ f g, K.exhaustion f g → f = g) : e = e' := by
  cases h with
  | beforeRetry => rfl
  | success v => rfl
  | failure h => exact congrArg _ (failure _ _ h)
  | exhaustion h => exact congrArg _ (exhaustion _ _ h)

theorem Ended.outcome {e e' : Ending α} (h : K.Ended e e') :
    Ends Eq (fun f g => f = g ∨ K.exhaustion f g) e.outcome e'.outcome := by
  cases h with
  | returned v => exact .ok rfl
  | exhausted h => exact .error (.inr h)
  | aborted f => exact .error (.inl rfl)

/-- Related endings of a turn. -/
inductive Turned : Turn ε β α → Turn ε β α → Prop where
  | again {p q : Progress ε β} (h : K.Abreast p q) : Turned (.again p) (.again q)
  | refused {p q : Progress ε β} (h : K.Abreast p q) : Turned (.refused p) (.refused q)
  | ended {e e' : Ending α} (h : K.Ended e e') : Turned (.ended e) (.ended e')

/-- Related settings: asked related questions, their collaborators give related answers. Their
surroundings are related by `B` before the policy is started, and by `A` after it. Waits are
given apart. -/
structure Kin (B A : σ → τ → Prop) (S : Setting σ ε β α) (T : Setting τ ε β α) : Prop where
  opened : ∀ s t, B s t → A s t
  acceptBefore : ∀ r q s t, K.early r q → B s t → S.accept r s = T.accept q t
  emitBefore : ∀ r q s t, K.early r q → B s t → B (S.emit r s) (T.emit q t)
  accept : ∀ r q s t, K.record r q → A s t → S.accept r s = T.accept q t
  emit : ∀ r q s t, K.record r q → A s t → A (S.emit r s) (T.emit q t)
  invokeBefore : Act.Akin B B Eq K.failure S.invoke T.invoke
  invoke : Act.Akin A A Eq K.failure S.invoke T.invoke
  openPolicy : Act.Akin B B K.execution Eq S.openPolicy T.openPolicy
  openBackoff : Act.Akin B B Eq Eq S.openBackoff T.openBackoff
  shouldRetry : ∀ f g, K.failure f g → Act.Akin (Act.Both K.execution A)
    (Act.Both K.execution A) Eq Eq (S.shouldRetry f) (T.shouldRetry g)
  nextDelay : Act.Akin (Act.Both Eq A) (Act.Both Eq A) Eq Eq S.nextDelay T.nextDelay
  notify : ∀ n m, K.Notified n m → Act.Akin (Act.Both (fun x y => x = n ∧ y = m) A)
    (Act.Both (K.Left n m) A) Eq Eq S.notify T.notify

/-! ## The parts of the loop -/

open Act

variable {K} {B A : σ → τ → Prop} {S : Setting σ ε β α} {T : Setting τ ε β α} {name : String}

theorem akin_log {P : σ → τ → Prop} {r q : Record}
    (accept : ∀ s t, P s t → S.accept r s = T.accept q t)
    (emit : ∀ s t, P s t → P (S.emit r s) (T.emit q t)) :
    Akin P P Eq Eq (S.log r) (T.log q) := by
  refine akin_bind (akin_look accept) ?_
  rintro allowed _ rfl
  exact akin_bind (akin_result (ends_self (fun _ => rfl) (fun _ => rfl) _)) fun _ _ _ =>
    akin_change emit

theorem akin_words {P : σ → τ → Prop} {W : Record → Record → Prop}
    (accept : ∀ r q s t, W r q → P s t → S.accept r s = T.accept q t)
    (emit : ∀ r q s t, W r q → P s t → P (S.emit r s) (T.emit q t)) {a b : Attempt}
    {phase phase' : Phase} (words : Ends W Eq (phase.record name a) (phase'.record name b)) :
    Akin P P Eq Eq (S.say name a phase) (T.say name b phase') :=
  akin_bind (akin_result words) fun r q hr =>
    akin_log (fun s t => accept r q s t hr) fun s t => emit r q s t hr

theorem akin_sayFirst {phase phase' : Phase} (hK : K.Lawful) (h : K.Kin B A S T)
    (hphase : Phase.Akin K.failure phase phase') :
    Akin B B Eq Eq (S.say name 1 phase) (T.say name 1 phase') :=
  akin_words h.acceptBefore h.emitBefore (hK.firstWords name phase phase' hphase)

theorem akin_say {a b : Attempt} {phase phase' : Phase} (hK : K.Lawful) (h : K.Kin B A S T)
    (hab : K.attempt a b) (hphase : Phase.Akin K.failure phase phase') :
    Akin A A Eq Eq (S.say name a phase) (T.say name b phase') :=
  akin_words h.accept h.emit (hK.words name a b phase phase' hab hphase)

section

variable (hK : K.Lawful) (h : K.Kin B A S T)

include h

theorem akin_announce {s t : CallState ε} {e e' : Event α} (hs : K.State s t)
    (he : K.Told e e') :
    Akin A A (K.Left ⟨s, e⟩ ⟨t, e'⟩) Eq (S.announce s e) (T.announce t e') :=
  akin_bind (akin_focus ⟨rfl, rfl⟩ (h.notify _ _ ⟨hs, he⟩)) fun _ _ hleft => akin_pure hleft.2

include hK

theorem akin_consult {p q : Progress ε β} (hp : K.Abreast p q) :
    Akin A A (Both Eq K.Abreast) Eq (S.consult name p) (T.consult name q) := by
  refine akin_bind (akin_focus hp.state.execution (h.shouldRetry _ _ hp.last)) ?_
  rintro ⟨granted, e⟩ ⟨_, e'⟩ ⟨rfl, he⟩
  have asked : K.Abreast { p with state := { p.state with execution := e } }
      { q with state := { q.state with execution := e' } } :=
    { hp with state := { hp.state with execution := he } }
  cases granted with
  | false => exact akin_pure ⟨rfl, asked⟩
  | true =>
    refine akin_bind (akin_focus hp.backoff h.nextDelay) ?_
    rintro ⟨d, b⟩ ⟨_, _⟩ ⟨rfl, rfl⟩
    have drawn : K.Abreast { p with state := { p.state with execution := e }, backoff := b }
      { q with state := { q.state with execution := e' }, backoff := b } :=
      { asked with backoff := rfl }
    dsimp only
    split
    · exact akin_bind (akin_say hK h hp.state.attempt (.same rfl rfl)) fun _ _ _ =>
        akin_pure ⟨rfl, drawn⟩
    · exact akin_pure ⟨rfl, drawn⟩

theorem akin_await {p q : Progress ε β} (hp : K.Abreast p q) (d : Delay)
    (hpause : Akin A A Eq Eq (S.pause name d) (T.pause name d)) :
    Akin A A Eq Eq (S.await name p d) (T.await name q d) := by
  refine akin_bind (akin_say hK h hp.state.attempt (.waiting d hp.last)) fun _ _ _ => ?_
  refine akin_bind hpause ?_
  rintro cause _ rfl
  cases cause with
  | none => exact akin_pure rfl
  | some cause =>
    refine akin_bind (Q := Eq) ?_ ?_
    · exact akin_bind (akin_say hK h hp.state.attempt (.same rfl rfl)) fun _ _ _ =>
        akin_pure rfl
    · rintro f _ rfl
      exact akin_pure rfl

theorem akin_reattempt {p q : Progress ε β} (hp : K.Abreast p q) :
    Akin A A K.Turned Eq (S.reattempt name p) (T.reattempt name q) := by
  refine akin_bind (akin_result (hK.next _ _ hp.state.attempt)) fun a b hab => ?_
  refine akin_bind (akin_say hK h hab (.same rfl rfl)) fun _ _ _ => ?_
  refine akin_bind (akin_announce h { hp.state with attempt := hab } .beforeRetry)
    fun n m before => ?_
  refine akin_bind (akin_trial hK.ordinary hK.extra h.invoke) fun r r' hr => ?_
  cases hr with
  | @ok v _ hv =>
    subst hv
    refine akin_bind (akin_announce h before.state (.success v)) fun n' m' after => ?_
    exact akin_bind (akin_say hK h after.state.attempt (.same rfl rfl)) fun _ _ _ =>
      akin_pure (.ended (.returned v))
  | @error f g hf =>
    refine akin_bind (akin_announce h before.state (.failure hf)) fun n' m' after => ?_
    have left := after.failure hf
    refine akin_bind (akin_say hK h after.state.attempt (.retryFailed left)) fun _ _ _ => ?_
    exact akin_pure (.again ⟨after.state, hp.backoff, hp.first,
      List.rel_append hp.later (.cons left .nil), left⟩)

theorem akin_giveUp {p q : Progress ε β} (hp : K.Abreast p q) :
    Akin A A K.exhaustion Eq (S.giveUp name p) (T.giveUp name q) := by
  have error := hK.exhausted name _ _ _ _ hp.first hp.later
  refine akin_bind (akin_say hK h hp.state.attempt (.same rfl rfl)) fun _ _ _ => ?_
  exact akin_bind (akin_announce h hp.state (.exhaustion error)) fun _ _ left =>
    akin_pure (left.exhaustion error)

theorem akin_begin {f g : Failure} (hf : K.failure f g) :
    Akin B A K.Abreast Eq (S.begin name f) (T.begin name g) := by
  refine akin_bind_of_le h.opened h.openPolicy fun e e' he => ?_
  refine akin_bind_of_le h.opened h.openBackoff ?_
  rintro b _ rfl s t hs
  exact ⟨.ok ⟨⟨hK.named name, he, hK.first⟩, rfl, hf, .nil, hf⟩, h.opened s t hs⟩

variable (hpause : ∀ d, Akin A A Eq Eq (S.pause name d) (T.pause name d))

include hpause

theorem akin_turn {p q : Progress ε β} (hp : K.Abreast p q) :
    Akin A A K.Turned Eq (S.turn name p) (T.turn name q) := by
  refine akin_bind (akin_consult hK h hp) ?_
  rintro ⟨granted, p'⟩ ⟨_, q'⟩ ⟨rfl, hp'⟩
  cases granted with
  | none => exact akin_pure (.refused hp')
  | some d =>
    refine akin_bind (akin_await hK h hp' d (hpause d)) ?_
    rintro error _ rfl
    cases error with
    | some f => exact akin_pure (.ended (.aborted f))
    | none => exact akin_reattempt hK h hp'

theorem akin_turns (fuel : Nat) :
    ∀ {p q : Progress ε β}, K.Abreast p q →
      Akin A A (Option.Rel K.Ended) Eq (S.turns name fuel p) (T.turns name fuel q) := by
  induction fuel with
  | zero => exact fun _ => akin_pure .none
  | succ fuel ih =>
    intro p q hp
    unfold Setting.turns
    refine akin_bind (akin_turn hK h hpause hp) fun turn turn' ht => ?_
    cases ht with
    | again hp' => exact ih hp'
    | refused hp' =>
      exact akin_bind (akin_giveUp hK h hp') fun f g hfg => akin_pure (.some (.exhausted hfg))
    | ended he => exact akin_pure (.some he)

/-- **Kin settings go through their loops alike**, if their waits do. -/
theorem akin_run (fuel : Nat) :
    Akin B A (Option.Rel K.Ended) Eq (S.run name fuel) (T.run name fuel) := by
  refine akin_bind_of_le h.opened (akin_sayFirst hK h (.same rfl rfl))
    fun _ _ _ => ?_
  refine akin_bind_of_le h.opened (akin_trial hK.ordinary hK.extra h.invokeBefore)
    fun r r' hr => ?_
  cases hr with
  | @ok v _ hv =>
    subst hv
    refine akin_bind_of_le h.opened (akin_sayFirst hK h (.same rfl rfl))
      fun _ _ _ s t hs => ?_
    exact ⟨.ok (.some (.returned v)), h.opened s t hs⟩
  | error hf =>
    refine akin_bind_of_le h.opened (akin_sayFirst hK h (.failed hf))
      fun _ _ _ => ?_
    exact akin_bind (akin_begin hK h hf) fun p q hp => akin_turns hK h hpause fuel hp

end

end Kinship

/-! ## Calls in a mode -/

namespace Mode

open Act Kinship

variable {σ τ ε β α : Type} {P R B A : σ → τ → Prop} {Q : α → α → Prop} {K : Kinship ε}
  {S : Setting σ ε β α} {T : Setting τ ε β α}

theorem akin_bounded (mode : Mode) {F G : Failure → Failure → Prop} {a : Act σ α} {b : Act τ α}
    (hF : ∀ f g, F f g → G (mode.leaving f) (mode.leaving g)) (h : Akin P R Q F a b) :
    Akin P R Q G (mode.bounded a) (mode.bounded b) := by
  intro s t hs
  obtain ⟨hends, hr⟩ := h s t hs
  rw [perform_bounded, perform_bounded]
  exact ⟨hends.mapError hF, hr⟩

variable (mode : Mode) (hK : K.Lawful) (h : K.Kin B A S T)
  (hpause : ∀ name d, Akin A A Eq Eq (S.pause name d) (T.pause name d))

include hK h hpause

theorem akin_run (operation : Operation) (fuel : Nat) :
    Akin B A (Option.Rel K.Ended) Eq (mode.run S operation fuel)
      (mode.run T operation fuel) := by
  refine akin_bounded mode (fun _ _ => congrArg mode.leaving) ?_
  refine akin_bind_of_le h.opened (akin_result (ends_self (fun _ => rfl) (fun _ => rfl) _)) ?_
  rintro name _ rfl
  rw [mode.loop_eq, mode.loop_eq]
  exact Kinship.akin_run hK h (hpause name) fuel

/-- **Kin settings make kin calls**, if their waits go alike. `G` is what the difference of two
failures of exhaustion becomes for the callers. -/
theorem akin_call {G : Failure → Failure → Prop} (hG : ∀ f, G f f)
    (hexhausted : ∀ f g, K.exhaustion f g → G (mode.leaving f) (mode.leaving g))
    (operation : Operation) (fuel : Nat) :
    Akin B A Eq G (mode.call S operation fuel) (mode.call T operation fuel) := by
  have run : Akin B A (Option.Rel K.Ended) G (mode.run S operation fuel)
      (mode.run T operation fuel) := by
    intro s t hs
    obtain ⟨hends, hr⟩ := akin_run mode hK h hpause operation fuel s t hs
    exact ⟨hends.mono (fun _ _ => id) fun f _ hf => hf ▸ hG f, hr⟩
  refine akin_bind run fun e e' he => ?_
  cases he with
  | none => exact akin_pure rfl
  | some he =>
    refine akin_bind (akin_bounded mode (fun f g hf => ?_) (akin_result he.outcome)) ?_
    · exact hf.elim (fun heq => heq ▸ hG _) (hexhausted f g)
    · rintro v _ rfl
      exact akin_pure rfl

end Mode

end Retry
