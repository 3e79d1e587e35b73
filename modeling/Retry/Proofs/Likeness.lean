import Retry.Proofs.Kinship

/-!
# Settings that answer alike

Two settings may live in different surroundings, say with and without a journal. They
are alike (`Setting.Alike`) if all their collaborators but the wait give the same from
related surroundings. Then so does every part of the loop but the wait, and a whole call
goes the same way as long as its waits do. A wait may part two calls by ending the first
of them, or it may leave something (`B`) after which they are not compared any more, and
which no later step of the first call undoes (`Setting.Parting`, `Setting.Stays`).

Main statements: `parting_turns`, `parting_run` (calls go the same way, unless a wait
parts them), `exact_call` (calls of alike settings whose waits go the same way end the
same).
-/

namespace Retry

namespace Setting

open Act

variable {σ τ ε β α γ : Type}

/-- All collaborators but the wait give the same from related surroundings. -/
structure Alike (R : σ → τ → Prop) (S : Setting σ ε β α) (T : Setting τ ε β α) : Prop where
  accept : ∀ r s t, R s t → S.accept r s = T.accept r t
  emit : ∀ r s t, R s t → R (S.emit r s) (T.emit r t)
  invoke : Exact R S.invoke T.invoke
  openPolicy : Exact R S.openPolicy T.openPolicy
  openBackoff : Exact R S.openBackoff T.openBackoff
  shouldRetry : ∀ f, Exact (Beside ε R) (S.shouldRetry f) (T.shouldRetry f)
  nextDelay : Exact (Beside β R) S.nextDelay T.nextDelay
  notify : Exact (Beside (Notice ε α) R) S.notify T.notify

/-- Two ends of steps are the same, in surroundings that are related by `R`, or by `E` if the
steps failed. -/
inductive Agreed (R E : σ → τ → Prop) : Except Failure γ × σ → Except Failure γ × τ → Prop where
  | ok {a : γ} {s : σ} {t : τ} (h : R s t) : Agreed R E (.ok a, s) (.ok a, t)
  | failed {f : Failure} {s : σ} {t : τ} (h : E s t) : Agreed R E (.error f, s) (.error f, t)

theorem Agreed.same {R E : σ → τ → Prop} {x : Except Failure γ × σ} {y : Except Failure γ × τ}
    (h : Agreed R E x y) (hE : ∀ s t, R s t → E s t) : x.1 = y.1 ∧ E x.2 y.2 := by
  cases h with
  | ok h => exact ⟨rfl, hE _ _ h⟩
  | failed h => exact ⟨rfl, h⟩

theorem Agreed.of_ok {R E : σ → τ → Prop} {a : γ} {s : σ} {y : Except Failure γ × τ}
    (h : Agreed R E (.ok a, s) y) : ∃ t, y = (.ok a, t) ∧ R s t := by
  cases h with
  | ok h => exact ⟨_, rfl, h⟩

theorem Agreed.of_matched {R E : σ → τ → Prop} {x : Except Failure γ × σ}
    {y : Except Failure γ × τ} (hE : ∀ s t, R s t → E s t) (h : Matched R x y) :
    Agreed R E x y := by
  cases h with
  | ok h => exact .ok h
  | failed h => exact .failed (hE _ _ h)

theorem Agreed.matched {R : σ → τ → Prop} {x : Except Failure γ × σ} {y : Except Failure γ × τ}
    (h : Agreed R R x y) : Matched R x y := by
  cases h with
  | ok h => exact .ok h
  | failed h => exact .failed h

/-- Steps of two calls that go the same way, unless a wait ends the first call there, or the
first call comes to where `B` holds. If a wait ends it, `D` says how both waits ended; and if
the second wait ended its call as well, that call ends with what the wait says. `wrap` is what
becomes of an ending. -/
def Parting (R E : σ → τ → Prop) (D : Failure → σ → Except Failure (Option Failure) × τ → Prop)
    (B : σ → Prop) (wrap : Ending α → γ) (a : Act σ γ) (b : Act τ γ) : Prop :=
  ∀ s t, R s t → Agreed R E (a.perform s) (b.perform t) ∨
    (∃ f u z, a.perform s = (.ok (wrap (.aborted f)), u) ∧ D f u z ∧
      ∀ g v, z = (.ok (some g), v) → b.perform t = (.ok (wrap (.aborted g)), v)) ∨
    B (a.perform s).2

/-- What holds after a wait goes on to hold to the end of the call. -/
structure Stays (S : Setting σ ε β α) (name : String) (B : σ → Prop) : Prop where
  reattempt : ∀ p s, B s → B ((S.reattempt name p).perform s).2
  giveUp : ∀ p s, B s → B ((S.giveUp name p).perform s).2
  turns : ∀ fuel p s, B s → B ((S.turns name fuel p).perform s).2

variable {R : σ → τ → Prop} {S : Setting σ ε β α} {T : Setting τ ε β α}

/-! ## The parts of the loop -/

end Setting

namespace Kinship

variable {σ τ ε β α : Type} {R : σ → τ → Prop}

def equal (ε : Type) : Kinship ε where
  early := Eq
  record := Eq
  operation := Eq
  execution := Eq
  attempt := Eq
  failure := Eq
  exhaustion := Eq

theorem equal_lawful : (equal ε).Lawful where
  named := fun _ => rfl
  first := rfl
  next := by
    rintro a _ rfl
    exact ends_self (fun _ => rfl) (fun _ => rfl) _
  ordinary := fun _ _ h => congrArg Failure.ordinary h
  extra := fun _ _ h _ => h
  exhausted := by
    rintro name f _ fs gs rfl h
    have hs : List.Forall₂ Eq fs gs := h
    rw [List.forall₂_eq_eq_eq] at hs
    exact congrArg _ hs
  firstWords := by
    intro name phase phase' h
    rw [h.eq]
    exact ends_self (fun _ => rfl) (fun _ => rfl) _
  words := by
    rintro name a _ phase phase' rfl h
    rw [h.eq]
    exact ends_self (fun _ => rfl) (fun _ => rfl) _

theorem eq_of_state {s t : CallState ε} (h : (equal ε).State s t) : s = t :=
  h.eq (fun _ _ => id) (fun _ _ => id) fun _ _ => id

theorem eq_of_notified {n m : Notice ε α} (h : (equal ε).Notified n m) : n = m := by
  obtain ⟨state, event⟩ := n
  obtain ⟨state', event'⟩ := m
  obtain ⟨hs, he⟩ := h
  obtain rfl : state = state' := eq_of_state hs
  obtain rfl : event = event' := he.eq (fun _ _ => id) fun _ _ => id
  rfl

theorem abreast_iff {p q : Progress ε β} : (equal ε).Abreast p q ↔ p = q := by
  constructor
  · intro h
    obtain ⟨state, backoff, first, later, last⟩ := p
    obtain ⟨hs, rfl, rfl, hl, rfl⟩ := h
    obtain rfl : state = _ := eq_of_state hs
    have same : List.Forall₂ Eq later _ := hl
    rw [List.forall₂_eq_eq_eq] at same
    rw [same]
  · rintro rfl
    exact ⟨⟨rfl, rfl, rfl⟩, rfl, rfl, List.forall₂_same.mpr fun _ _ => rfl, rfl⟩

theorem eq_of_turned {t u : Turn ε β α} (h : (equal ε).Turned t u) : t = u := by
  cases h with
  | again h => rw [abreast_iff.mp h]
  | refused h => rw [abreast_iff.mp h]
  | ended h =>
    cases h with
    | returned v => rfl
    | exhausted h => rw [show _ = _ from h]
    | aborted f => rfl

end Kinship

namespace Setting

open Act

variable {σ τ ε β α γ : Type} {R : σ → τ → Prop} {S : Setting σ ε β α} {T : Setting τ ε β α}

theorem Alike.kin (h : Alike R S T) : (Kinship.equal ε).Kin R R S T where
  opened := fun _ _ => id
  acceptBefore := by
    rintro r _ s t rfl
    exact h.accept r s t
  emitBefore := by
    rintro r _ s t rfl
    exact h.emit r s t
  accept := by
    rintro r _ s t rfl
    exact h.accept r s t
  emit := by
    rintro r _ s t rfl
    exact h.emit r s t
  invokeBefore := exact_iff_akin.mp h.invoke
  invoke := exact_iff_akin.mp h.invoke
  openPolicy := exact_iff_akin.mp h.openPolicy
  openBackoff := exact_iff_akin.mp h.openBackoff
  shouldRetry := by
    rintro f _ rfl
    exact exact_iff_akin.mp (h.shouldRetry f)
  nextDelay := exact_iff_akin.mp h.nextDelay
  notify := by
    rintro n m hn ⟨_, s⟩ ⟨_, t⟩ ⟨⟨rfl, rfl⟩, hs⟩
    obtain rfl := Kinship.eq_of_notified hn
    obtain ⟨hends, same, hr⟩ := exact_iff_akin.mp h.notify (_, s) (_, t) ⟨rfl, hs⟩
    refine ⟨hends, ?_, hr⟩
    rw [same]
    exact ⟨⟨rfl, rfl, rfl⟩, fun _ => rfl, fun _ => rfl⟩

theorem exact_of_akin {Q : γ → γ → Prop} (hQ : ∀ a b, Q a b → a = b) {a : Act σ γ} {b : Act τ γ}
    (h : Akin R R Q Eq a b) : Exact R a b := by
  refine exact_iff_akin.mpr fun s t hs => ?_
  obtain ⟨hends, hr⟩ := h s t hs
  exact ⟨hends.mono hQ fun _ _ => id, hr⟩

theorem exact_say (h : Alike R S T) (name : String) (attempt : Attempt) (phase : Phase) :
    Exact R (S.say name attempt phase) (T.say name attempt phase) :=
  exact_bind (exact_result _) fun r => exact_bind (exact_look (h.accept r)) fun _ =>
    exact_bind (exact_result _) fun _ => exact_change (h.emit r)

theorem exact_consult (h : Alike R S T) (name : String) (p : Progress ε β) :
    Exact R (S.consult name p) (T.consult name p) := by
  refine exact_of_akin ?_ (Kinship.akin_consult Kinship.equal_lawful h.kin
    (Kinship.abreast_iff.mpr rfl))
  rintro ⟨granted, p⟩ ⟨_, q⟩ ⟨rfl, hp⟩
  exact congrArg _ (Kinship.abreast_iff.mp hp)

theorem exact_await (h : Alike R S T) (name : String)
    (hpause : ∀ d, Exact R (S.pause name d) (T.pause name d)) (p : Progress ε β) (d : Delay) :
    Exact R (S.await name p d) (T.await name p d) :=
  exact_iff_akin.mpr (Kinship.akin_await Kinship.equal_lawful h.kin (Kinship.abreast_iff.mpr rfl)
    d (exact_iff_akin.mp (hpause d)))

theorem exact_reattempt (h : Alike R S T) (name : String) (p : Progress ε β) :
    Exact R (S.reattempt name p) (T.reattempt name p) :=
  exact_of_akin (fun _ _ => Kinship.eq_of_turned)
    (Kinship.akin_reattempt Kinship.equal_lawful h.kin (Kinship.abreast_iff.mpr rfl))

theorem exact_giveUp (h : Alike R S T) (name : String) (p : Progress ε β) :
    Exact R (S.giveUp name p) (T.giveUp name p) :=
  exact_iff_akin.mpr
    (Kinship.akin_giveUp Kinship.equal_lawful h.kin (Kinship.abreast_iff.mpr rfl))

theorem exact_begin (h : Alike R S T) (name : String) (f : Failure) :
    Exact R (S.begin name f) (T.begin name f) :=
  exact_of_akin (fun _ _ => Kinship.abreast_iff.mp)
    (Kinship.akin_begin Kinship.equal_lawful h.kin rfl)

/-! ## Calls that a wait may part -/

section

variable {E : σ → τ → Prop} {D : Failure → σ → Except Failure (Option Failure) × τ → Prop}
  {B : σ → Prop} {wrap : Ending α → γ} (hE : ∀ s t, R s t → E s t)

include hE

theorem Parting.of_exact {a : Act σ γ} {b : Act τ γ} (h : Exact R a b) :
    Parting R E D B wrap a b :=
  fun s t hs => .inl (.of_matched hE (h s t hs))

theorem parting_bind {δ : Type} {a : Act σ δ} {b : Act τ δ} {k : δ → Act σ γ} {l : δ → Act τ γ}
    (h : Exact R a b) (hk : ∀ x, Parting R E D B wrap (k x) (l x)) :
    Parting R E D B wrap (a >>= k) (b >>= l) := by
  intro s t hs
  have hab := h s t hs
  rw [perform_bind, perform_bind]
  revert hab
  generalize a.perform s = x
  generalize b.perform t = y
  intro hab
  cases hab with
  | ok hr => exact hk _ _ _ hr
  | failed hr => exact .inl (.failed (hE _ _ hr))

variable {name : String} (h : Alike R S T) (hstays : S.Stays name B)
  (hawait : ∀ p d s t, R s t →
    Agreed R E ((S.await name p d).perform s) ((T.await name p d).perform t) ∨
      (∃ f u, (S.await name p d).perform s = (.ok (some f), u) ∧
        D f u ((T.await name p d).perform t)) ∨
      B ((S.await name p d).perform s).2)

include h hstays hawait

theorem parting_turn (p : Progress ε β) :
    Parting R E D B .ended (S.turn name p) (T.turn name p) := by
  refine parting_bind hE (exact_consult h name p) fun consulted => ?_
  obtain ⟨granted, q⟩ := consulted
  cases granted with
  | none => exact .of_exact hE (exact_pure _)
  | some d =>
    intro s t hs
    obtain ha | ⟨f, u, ha, hd⟩ | hB := hawait q d s t hs
    · left
      dsimp only
      rw [perform_bind, perform_bind]
      revert ha
      generalize (S.await name q d).perform s = x
      generalize (T.await name q d).perform t = y
      intro ha
      cases ha with
      | failed hr => exact .failed hr
      | @ok aborted s t hr =>
        cases aborted with
        | some f => exact .ok hr
        | none => exact .of_matched hE (exact_reattempt h name q s t hr)
    · exact .inr (.inl ⟨f, u, _, perform_bind_ok ha _, hd, fun g v hg => perform_bind_ok hg _⟩)
    · right; right
      dsimp only
      rw [perform_bind]
      revert hB
      generalize (S.await name q d).perform s = x
      obtain ⟨f | _ | f, u⟩ := x
      · exact id
      · exact hstays.reattempt q u
      · exact id

theorem parting_turns :
    ∀ fuel p, Parting R E D B some (S.turns name fuel p) (T.turns name fuel p) := by
  intro fuel
  induction fuel with
  | zero => exact fun p => .of_exact hE (exact_pure _)
  | succ fuel ih =>
    intro p s t hs
    unfold turns
    obtain ht | ⟨f, u, z, hf, hd, hz⟩ | hB := parting_turn hE h hstays hawait p s t hs
    · rw [perform_bind, perform_bind]
      revert ht
      generalize (S.turn name p).perform s = x
      generalize (T.turn name p).perform t = y
      intro ht
      cases ht with
      | failed hr => exact .inl (.failed hr)
      | @ok turn s t hr =>
        cases turn with
        | again q => exact ih q s t hr
        | refused q =>
          exact .inl (.of_matched hE
            (exact_bind (exact_giveUp h name q) (fun _ => exact_pure _) s t hr))
        | ended e => exact .inl (.ok hr)
    · exact .inr (.inl
        ⟨f, u, z, perform_bind_ok hf _, hd, fun g v hg => perform_bind_ok (hz g v hg) _⟩)
    · right; right
      rw [perform_bind]
      revert hB
      generalize (S.turn name p).perform s = x
      obtain ⟨f | q | q | e, u⟩ := x
      · exact id
      · exact hstays.turns fuel q u
      · intro hB
        have hgive := hstays.giveUp q u hB
        dsimp only
        rw [perform_bind]
        revert hgive
        generalize (S.giveUp name q).perform u = y
        obtain ⟨f | f, v⟩ := y <;> exact id
      · exact id

/-- **Calls go the same way, unless a wait parts them.** -/
theorem parting_run (fuel : Nat) : Parting R E D B some (S.run name fuel) (T.run name fuel) := by
  refine parting_bind hE (exact_say h _ _ _) fun _ => ?_
  refine parting_bind hE (exact_trial h.invoke) fun ending => ?_
  cases ending with
  | ok result => exact .of_exact hE (exact_bind (exact_say h _ _ _) fun _ => exact_pure _)
  | error f =>
    refine parting_bind hE (exact_say h _ _ _) fun _ => ?_
    exact parting_bind hE (exact_begin h name f) fun p => parting_turns hE h hstays hawait fuel p

end

theorem stays_nowhere (name : String) : S.Stays name (fun _ => False) :=
  ⟨fun _ _ => id, fun _ _ => id, fun _ _ _ => id⟩

theorem exact_turns (h : Alike R S T) (name : String)
    (hpause : ∀ d, Exact R (S.pause name d) (T.pause name d)) (fuel : Nat) (p : Progress ε β) :
    Exact R (S.turns name fuel p) (T.turns name fuel p) := by
  intro s t hs
  have hp : Parting R R (fun _ _ _ => False) (fun _ => False) some (S.turns name fuel p)
      (T.turns name fuel p) :=
    parting_turns (fun _ _ => id) h (stays_nowhere name)
      (fun p d s t hs => .inl (.of_matched (fun _ _ => id) (exact_await h name hpause p d s t hs)))
      fuel p
  obtain h | ⟨f, u, z, -, hd, -⟩ | hB := hp s t hs
  · exact h.matched
  · exact hd.elim
  · exact hB.elim

theorem stays_of_steady {B : σ → Prop} (h : Alike (Steady B) S S) (name : String)
    (hpause : ∀ d, Exact (Steady B) (S.pause name d) (S.pause name d)) : S.Stays name B where
  reattempt := fun p s hs => (exact_reattempt h name p s s ⟨rfl, hs⟩).same.2.2
  giveUp := fun p s hs => (exact_giveUp h name p s s ⟨rfl, hs⟩).same.2.2
  turns := fun fuel p s hs => (exact_turns h name hpause fuel p s s ⟨rfl, hs⟩).same.2.2

theorem exact_run (h : Alike R S T) (name : String)
    (hpause : ∀ d, Exact R (S.pause name d) (T.pause name d)) (fuel : Nat) :
    Exact R (S.run name fuel) (T.run name fuel) := by
  refine exact_bind (exact_say h _ _ _) fun _ => ?_
  refine exact_bind (exact_trial h.invoke) fun ending => ?_
  cases ending with
  | ok result => exact exact_bind (exact_say h _ _ _) fun _ => exact_pure _
  | error f =>
    refine exact_bind (exact_say h _ _ _) fun _ => ?_
    exact exact_bind (exact_begin h name f) fun p => exact_turns h name hpause fuel p

end Setting

namespace Mode

open Act

variable {σ τ ε β α : Type} {R : σ → τ → Prop} {S : Setting σ ε β α} {T : Setting τ ε β α}

theorem exact_bounded (mode : Mode) {a : Act σ α} {b : Act τ α} (h : Exact R a b) :
    Exact R (mode.bounded a) (mode.bounded b) := by
  intro s t hs
  have hab := h s t hs
  rw [perform_bounded, perform_bounded]
  revert hab
  generalize a.perform s = x
  generalize b.perform t = y
  intro hab
  cases hab with
  | ok hr => exact .ok hr
  | failed hr => exact .failed hr

theorem exact_run (mode : Mode) (h : Setting.Alike R S T)
    (hpause : ∀ name d, Exact R (S.pause name d) (T.pause name d)) (operation : Operation)
    (fuel : Nat) : Exact R (mode.run S operation fuel) (mode.run T operation fuel) :=
  exact_bounded mode <| exact_bind (exact_result _) fun name => by
    rw [mode.loop_eq, mode.loop_eq]
    exact Setting.exact_run h name (hpause name) fuel

/-- **Alike settings make the same calls**, if their waits go the same way. -/
theorem exact_call (mode : Mode) (h : Setting.Alike R S T)
    (hpause : ∀ name d, Exact R (S.pause name d) (T.pause name d)) (operation : Operation)
    (fuel : Nat) : Exact R (mode.call S operation fuel) (mode.call T operation fuel) := by
  refine exact_bind (exact_run mode h hpause operation fuel) fun ending => ?_
  cases ending with
  | none => exact exact_pure _
  | some ending => exact exact_bind (exact_bounded mode (exact_result _)) fun _ => exact_pure _

end Mode

end Retry
