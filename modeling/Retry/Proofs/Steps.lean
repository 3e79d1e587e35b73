import Retry.Act

/-!
# How steps are performed

`Act.perform` opens a step: one equation for each way steps are built. A step that is
followed by another is opened by what came of it (`perform_bind_ok`,
`perform_bind_error`), so a proof goes through a program in the order it runs in.

`Act.Exact` compares two steps that may live in different surroundings: from related
surroundings they end the same, and their surroundings stay related. Steps built alike
from such steps are such steps (`exact_bind`, `exact_trial`).
-/

namespace Retry

theorem Except.of_bind_ok {ε α β : Type} {x : Except ε α} {f : α → Except ε β} {b : β}
    (h : x >>= f = .ok b) : ∃ a, x = .ok a ∧ f a = .ok b := by
  cases x with
  | error e => exact absurd h (by simp [bind, Except.bind])
  | ok a => exact ⟨a, rfl, h⟩

namespace Act

variable {σ τ υ α β : Type}

/-! ## Opening steps -/

@[simp] theorem perform_pure (a : α) (s : σ) : (pure a : Act σ α).perform s = (.ok a, s) := rfl

@[simp] theorem perform_change (f : σ → σ) (s : σ) : (change f).perform s = (.ok (), f s) := rfl

@[simp] theorem perform_look (f : σ → α) (s : σ) : (look f).perform s = (.ok (f s), s) := rfl

@[simp] theorem perform_result (r : Except Failure α) (s : σ) : (result r).perform s = (r, s) := rfl

@[simp] theorem perform_of (f : σ → Except Failure α × σ) (s : σ) : (of f).perform s = f s := rfl

theorem perform_bind (act : Act σ α) (k : α → Act σ β) (s : σ) :
    (act >>= k).perform s =
      match act.perform s with
      | (.ok a, t) => (k a).perform t
      | (.error f, t) => (.error f, t) := by
  show (StateT.bind act (ExceptT.bindCont k) : StateM σ (Except Failure β)) s = _
  simp only [perform, StateT.bind, bind]
  rcases act s with ⟨_ | _, t⟩ <;> rfl

theorem perform_bind_ok {act : Act σ α} {s t : σ} {a : α} (h : act.perform s = (.ok a, t))
    (k : α → Act σ β) : (act >>= k).perform s = (k a).perform t := by
  rw [perform_bind, h]

theorem perform_bind_error {act : Act σ α} {s t : σ} {f : Failure}
    (h : act.perform s = (.error f, t)) (k : α → Act σ β) :
    (act >>= k).perform s = (.error f, t) := by
  rw [perform_bind, h]

theorem perform_bind_eq_ok {act : Act σ α} {k : α → Act σ β} {s u : σ} {b : β} :
    (act >>= k).perform s = (.ok b, u) ↔
      ∃ a t, act.perform s = (.ok a, t) ∧ (k a).perform t = (.ok b, u) := by
  rw [perform_bind]
  rcases act.perform s with ⟨_ | a, t⟩
  · simp
  · exact ⟨fun h => ⟨a, t, rfl, h⟩, fun ⟨_, _, same, h⟩ => by cases same; exact h⟩

theorem perform_map (f : α → β) (act : Act σ α) (s : σ) :
    (f <$> act).perform s = ((act.perform s).1.map f, (act.perform s).2) := by
  rw [map_eq_pure_bind, perform_bind]
  rcases act.perform s with ⟨_ | _, t⟩ <;> rfl

theorem perform_focus (x : τ) (act : Act (τ × σ) α) (s : σ) :
    (focus x act).perform s =
      match act.perform (x, s) with
      | (.ok a, y, t) => (.ok (a, y), t)
      | (.error f, _, t) => (.error f, t) := rfl

theorem perform_trial (act : Act σ α) (s : σ) :
    act.trial.perform s =
      match act.perform s with
      | (.ok a, t) => (.ok (.ok a), t)
      | (.error f, t) => if f.ordinary then (.ok (.error f), t) else (.error f, t) := rfl

theorem perform_zoom (get : σ → τ) (set : τ → σ → σ) (act : Act τ α) (s : σ) :
    (zoom get set act).perform s =
      ((act.perform (get s)).1, set (act.perform (get s)).2 s) := rfl

theorem ext_perform {a b : Act σ α} (h : ∀ s, a.perform s = b.perform s) : a = b := funext h

/-! ## Steps that go alike -/

/-- Two ends of steps are the same, in related surroundings. -/
inductive Matched (R : σ → τ → Prop) : Except Failure α × σ → Except Failure α × τ → Prop where
  | ok {a : α} {s : σ} {t : τ} (h : R s t) : Matched R (.ok a, s) (.ok a, t)
  | failed {f : Failure} {s : σ} {t : τ} (h : R s t) : Matched R (.error f, s) (.error f, t)

/-- Two steps that end the same from related surroundings, and keep them related. -/
def Exact (R : σ → τ → Prop) (a : Act σ α) (b : Act τ α) : Prop :=
  ∀ s t, R s t → Matched R (a.perform s) (b.perform t)

/-- Related surroundings with the same value beside them. -/
def Beside (υ : Type) (R : σ → τ → Prop) (x : υ × σ) (y : υ × τ) : Prop := x.1 = y.1 ∧ R x.2 y.2

/-- The same surroundings, of which something holds. -/
def Steady (P : σ → Prop) (s t : σ) : Prop := s = t ∧ P s

variable {R : σ → τ → Prop}

theorem Matched.same {x : Except Failure α × σ} {y : Except Failure α × τ} (h : Matched R x y) :
    x.1 = y.1 ∧ R x.2 y.2 := by
  cases h with
  | ok h => exact ⟨rfl, h⟩
  | failed h => exact ⟨rfl, h⟩

theorem matched_of_same (r : Except Failure α) {s : σ} {t : τ} (h : R s t) :
    Matched R (r, s) (r, t) := by
  cases r with
  | ok a => exact .ok h
  | error f => exact .failed h

theorem exact_pure (a : α) : Exact R (pure a : Act σ α) (pure a) :=
  fun _ _ h => .ok h

theorem exact_bind {a : Act σ α} {b : Act τ α} {k : α → Act σ β} {l : α → Act τ β}
    (h : Exact R a b) (hk : ∀ x, Exact R (k x) (l x)) : Exact R (a >>= k) (b >>= l) := by
  intro s t hs
  have hab := h s t hs
  rw [perform_bind, perform_bind]
  revert hab
  generalize a.perform s = x
  generalize b.perform t = y
  intro hab
  cases hab with
  | ok hr => exact hk _ _ _ hr
  | failed hr => exact .failed hr

theorem exact_map {a : Act σ α} {b : Act τ α} (f : α → β) (h : Exact R a b) :
    Exact R (f <$> a) (f <$> b) := by
  rw [map_eq_pure_bind, map_eq_pure_bind]
  exact exact_bind h fun _ => exact_pure _

theorem exact_change {f : σ → σ} {g : τ → τ} (h : ∀ s t, R s t → R (f s) (g t)) :
    Exact R (change f) (change g) :=
  fun s t hs => .ok (h s t hs)

theorem exact_look {f : σ → α} {g : τ → α} (h : ∀ s t, R s t → f s = g t) :
    Exact R (look f) (look g) := by
  intro s t hs
  rw [perform_look, perform_look, h s t hs]
  exact .ok hs

theorem exact_result (r : Except Failure α) : Exact R (result r : Act σ α) (result r) :=
  fun _ _ h => matched_of_same r h

/-- What follows on a result that is already there may rely on it. -/
theorem exact_result_bind {r : Except Failure α} {k : α → Act σ β} {l : α → Act τ β}
    (h : ∀ a, r = .ok a → Exact R (k a) (l a)) : Exact R (result r >>= k) (result r >>= l) := by
  intro s t hs
  rw [perform_bind, perform_bind, perform_result, perform_result]
  cases r with
  | error f => exact .failed hs
  | ok a => exact h a rfl s t hs

theorem exact_forM {γ : Type} {items : List γ} {a : γ → Act σ Unit} {b : γ → Act τ Unit}
    (h : ∀ c ∈ items, Exact R (a c) (b c)) : Exact R (items.forM a) (items.forM b) := by
  induction items with
  | nil => exact exact_pure ()
  | cons c items ih =>
    exact exact_bind (h c (List.mem_cons_self ..)) fun _ =>
      ih fun c hc => h c (List.mem_cons_of_mem _ hc)

theorem exact_trial {a : Act σ α} {b : Act τ α} (h : Exact R a b) : Exact R a.trial b.trial := by
  intro s t hs
  have hab := h s t hs
  rw [perform_trial, perform_trial]
  revert hab
  generalize a.perform s = x
  generalize b.perform t = y
  intro hab
  cases hab with
  | ok hr => exact .ok hr
  | @failed f s t hr =>
    cases hf : f.ordinary with
    | true => simpa [hf] using .ok hr
    | false => simpa [hf] using .failed hr

theorem exact_steady {P : σ → Prop} {act : Act σ α} (h : ∀ s, P s → P (act.perform s).2) :
    Exact (Steady P) act act := by
  rintro s _ ⟨rfl, hs⟩
  exact matched_of_same _ ⟨rfl, h s hs⟩

theorem exact_beside_steady {P : σ → Prop} {act : Act (υ × σ) α}
    (h : ∀ x s, P s → P (act.perform (x, s)).2.2) : Exact (Beside υ (Steady P)) act act := by
  rintro ⟨x, s⟩ ⟨_, _⟩ ⟨rfl, rfl, hs⟩
  exact matched_of_same _ ⟨rfl, rfl, h x s hs⟩

end Act

end Retry
