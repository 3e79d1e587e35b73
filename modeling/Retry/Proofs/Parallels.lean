import Retry.Proofs.Allowance

/-!
# The journals of kin calls

Kin settings make kin calls, and their journals run in parallel: step by step, the same
collaborator was asked a related question and gave a related answer (`Kinship.Step`). So
whatever is read out of two such journals is related as well (`picked_parallel`): how the
invocations ended, what was slept, what the listener was told.

Main statement: `parallel_call` (kin settings that wait alike make calls with parallel
journals).
-/

namespace Retry

/-! ## Watching akin steps -/

namespace Act

variable {σ τ υ ω χ ψ α β : Type} {P R : σ → τ → Prop} {Q : α → β → Prop}
  {F : Failure → Failure → Prop} {J : υ → ω → Prop}

theorem akin_watched {see : Except Failure α → υ → υ} {see' : Except Failure β → ω → ω}
    {a : Act σ α} {b : Act τ β} (h : Akin P R Q F a b)
    (hsee : ∀ r q, Ends Q F r q → ∀ j k, J j k → J (see r j) (see' q k)) :
    Akin (Both J P) (Both J R) Q F (a.watched see) (b.watched see') := by
  rintro ⟨j, s⟩ ⟨k, t⟩ ⟨hj, hs⟩
  obtain ⟨hends, hr⟩ := h s t hs
  exact ⟨hends, hsee _ _ hends j k hj, hr⟩

theorem akin_watchedOn {X Y : χ → ψ → Prop} {see : χ → Except Failure α → χ → υ → υ}
    {see' : ψ → Except Failure β → ψ → ω → ω} {a : Act (χ × σ) α} {b : Act (ψ × τ) β}
    (h : Akin (Both X P) (Both Y R) Q F a b)
    (hsee : ∀ x y, X x y → ∀ r q, Ends Q F r q → ∀ x' y', Y x' y' → ∀ j k, J j k →
      J (see x r x' j) (see' y q y' k)) :
    Akin (Both X (Both J P)) (Both Y (Both J R)) Q F (a.watchedOn see) (b.watchedOn see') := by
  rintro ⟨x, j, s⟩ ⟨y, k, t⟩ ⟨hx, hj, hs⟩
  obtain ⟨hends, hy, hr⟩ := h (x, s) (y, t) ⟨hx, hs⟩
  exact ⟨hends, hy, hsee _ _ hx _ _ hends _ _ hy j k hj, hr⟩

end Act

namespace Kinship

open Act

variable {σ τ ε β α : Type} (K : Kinship ε)

/-! ## Parallel journals -/

/-- Related steps of a collaborator. What the records say is left open. -/
inductive Step : Moment ε β α → Moment ε β α → Prop where
  | recorded (r q : Record) : Step (.recorded r) (.recorded q)
  | invoked {r q : Except Failure α} (h : Ends Eq K.failure r q) :
    Step (.invoked r) (.invoked q)
  | asked {f g : Failure} {e e' : ε} (error : K.failure f g) (r : Except Failure Bool)
    (execution : K.execution e e') : Step (.asked f r e) (.asked g r e')
  | drawn (r : Except Failure Delay) (b : β) : Step (.drawn r b) (.drawn r b)
  | slept (d : Delay) (r : Except Failure Bool) : Step (.slept d r) (.slept d r)
  | barred : Step .barred .barred
  | told {n m : Notice ε α} (h : K.Notified n m) (r : Except Failure Unit) (n' m' : Notice ε α) :
    Step (.told n r n') (.told m r m')

abbrev Parallel (j k : Journal ε β α) : Prop := List.Forall₂ K.Step j k

variable {K} {j k : Journal ε β α}

theorem Parallel.add (h : K.Parallel j k) {m m' : Moment ε β α} (hm : K.Step m m') :
    K.Parallel (j ++ [m]) (k ++ [m']) :=
  List.rel_append h (.cons hm .nil)

/-- What is read out of parallel journals is related, if it is related step by step. -/
theorem Parallel.picked {γ δ : Type} {Q : γ → δ → Prop} {read : Moment ε β α → Option γ}
    {read' : Moment ε β α → Option δ}
    (hread : ∀ m m', K.Step m m' → Option.Rel Q (read m) (read' m')) (h : K.Parallel j k) :
    List.Forall₂ Q (Journal.pick read j) (Journal.pick read' k) :=
  List.rel_filterMap (fun m m' => hread m m') h

theorem Parallel.endings (h : K.Parallel j k) :
    List.Forall₂ (Ends Eq K.failure) (Journal.endings j) (Journal.endings k) := by
  refine h.picked fun m m' hm => ?_
  cases hm with
  | invoked h => exact .some h
  | _ => exact .none

theorem Parallel.slept (h : K.Parallel j k) : Journal.slept j = Journal.slept k := by
  rw [← List.forall₂_eq_eq_eq]
  refine h.picked fun m m' hm => ?_
  cases hm with
  | slept d r => exact .some rfl
  | _ => exact .none

theorem Parallel.waits (h : K.Parallel j k) : Journal.waits j = Journal.waits k := by
  induction h with
  | nil => rfl
  | cons hm _ ih =>
    rw [Journal.waits_cons, Journal.waits_cons, ih]
    cases hm <;> rfl

/-- The listeners were told related things at related attempts. -/
theorem Parallel.events (h : K.Parallel j k) :
    List.Forall₂ (Both K.attempt K.Told) (Journal.events j) (Journal.events k) := by
  refine h.picked fun m m' hm => ?_
  cases hm with
  | told h => exact .some ⟨h.1.attempt, h.2⟩
  | _ => exact .none

theorem Told.hook {e e' : Event α} (h : K.Told e e') : e.hook = e'.hook := by
  cases h <;> rfl

/-- What is made of the events of both journals is the same, if it is the same of each. -/
theorem Parallel.mapped {γ : Type} (h : K.Parallel j k) {f g : Attempt × Event α → γ}
    (hfg : ∀ x y, Both K.attempt K.Told x y → f x = g y) :
    (Journal.events j).map f = (Journal.events k).map g := by
  rw [← List.forall₂_eq_eq_eq, List.forall₂_map_left_iff, List.forall₂_map_right_iff]
  exact h.events.imp fun x y hxy => hfg x y hxy

/-! ## Settings with journals -/

variable {B A R : σ → τ → Prop} {w : Waiting σ} {v : Waiting τ}

theorem exact_put {γ : Type} {see : Except Failure γ → Journal ε β α → Journal ε β α}
    {a : Act σ γ} {b : Act τ γ} (h : Exact R a b)
    (hsee : ∀ r j k, K.Parallel j k → K.Parallel (see r j) (see r k)) :
    Exact (Both K.Parallel R) (a.watched see) (b.watched see) := by
  refine exact_iff_akin.mpr (akin_watched (exact_iff_akin.mp h) fun r q hr j k hj => ?_)
  rw [hr.eq]
  exact hsee q j k hj

theorem alike_parallel (h : Waiting.Alike R w v) :
    Waiting.Alike (Both (K.Parallel (β := β) (α := α)) R) (w.kept ε β α) (v.kept ε β α) := by
  have found (r : Except Failure Bool) (j k : Journal ε β α) (hj : K.Parallel j k) :
      K.Parallel (j ++ Journal.found r) (k ++ Journal.found r) := by
    rcases r with f | _ | _
    · simpa [Journal.found] using hj
    · simpa [Journal.found] using hj
    · exact hj.add .barred
  cases h with
  | slept sleep => exact .slept fun d => exact_put (sleep d) fun r j k hj => hj.add (.slept d _)
  | @attended _ _ t u asked cancelled awaited =>
    have slept (d : Delay) : Exact (Both K.Parallel R) ((t.kept ε β α).await d)
        ((u.kept ε β α).await d) := exact_put (awaited d) fun r j k hj => hj.add (.slept d r)
    exact .attended (exact_put asked found) (exact_put cancelled fun _ _ _ hj => hj) slept
  | task sleep => exact .task fun d => exact_put (sleep d) fun r j k hj => hj.add (.slept d _)

section

variable {S : Setting σ ε β α} {T : Setting τ ε β α}

theorem kin_parallel (h : K.Kin B A S T) :
    K.Kin (Both K.Parallel B) (Both K.Parallel A) (S.kept w) (T.kept v) where
  opened := fun _ _ hs => ⟨hs.1, h.opened _ _ hs.2⟩
  acceptBefore := fun r q _ _ hr hs => h.acceptBefore r q _ _ hr hs.2
  emitBefore := fun r q _ _ hr hs => ⟨hs.1.add (.recorded r q), h.emitBefore r q _ _ hr hs.2⟩
  accept := fun r q _ _ hr hs => h.accept r q _ _ hr hs.2
  emit := fun r q _ _ hr hs => ⟨hs.1.add (.recorded r q), h.emit r q _ _ hr hs.2⟩
  invokeBefore := akin_watched h.invokeBefore fun _ _ hends _ _ hj => hj.add (.invoked hends)
  invoke := akin_watched h.invoke fun _ _ hends _ _ hj => hj.add (.invoked hends)
  openPolicy := akin_watched h.openPolicy fun _ _ _ _ _ hj => hj
  openBackoff := akin_watched h.openBackoff fun _ _ _ _ _ hj => hj
  shouldRetry := by
    intro f g hf
    refine akin_watchedOn (h.shouldRetry f g hf) fun _ _ _ r q hr e e' he j k hj => ?_
    rw [hr.eq]
    exact hj.add (.asked hf q he)
  nextDelay := by
    refine akin_watchedOn h.nextDelay ?_
    rintro _ _ - r q hr b _ rfl j k hj
    rw [hr.eq]
    exact hj.add (.drawn q b)
  notify := by
    intro n m hn
    refine akin_watchedOn (h.notify n m hn) ?_
    rintro _ _ ⟨rfl, rfl⟩ r q hr n' m' - j k hj
    rw [hr.eq]
    exact hj.add (.told hn q n' m')

variable (hK : K.Lawful) (hrecord : ∀ r, K.record r r) (hwait : Waiting.Alike A w v)
  (h : K.Kin B A S T)

include hrecord hwait h

/-- Kin settings with journals pause alike, if they wait alike. -/
theorem akin_pause_parallel (name : String) (d : Delay) :
    Akin (Both K.Parallel A) (Both K.Parallel A) Eq Eq ((S.kept w).pause name d)
      ((T.kept v).pause name d) := by
  refine exact_iff_akin.mp (exact_kept (alike_parallel hwait) (fun r s t hs => ?_) name d)
  exact ⟨hs.1.add (.recorded r r), h.emit r r _ _ (hrecord r) hs.2⟩

include hK

/-- **Kin settings make calls with parallel journals**, if they wait alike. `G` is what the
difference of two failures of exhaustion becomes for the callers. -/
theorem parallel_call {G : Failure → Failure → Prop} (hG : ∀ f, G f f)
    (hexhausted : ∀ f g, K.exhaustion f g → G (w.mode.leaving f) (w.mode.leaving g))
    (operation : Operation) (fuel : Nat) :
    Akin (Both K.Parallel B) (Both K.Parallel A) Eq G (w.mode.call (S.kept w) operation fuel)
      (v.mode.call (T.kept v) operation fuel) := by
  have kin : K.Kin (Both K.Parallel B) (Both K.Parallel A) (S.kept w) (T.kept v) := kin_parallel h
  rw [← hwait.mode]
  exact w.mode.akin_call hK kin (akin_pause_parallel hrecord hwait h) hG hexhausted operation fuel

end

end Kinship

end Retry
