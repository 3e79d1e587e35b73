import Retry.Proofs.Audience

/-!
# Trees of groups

The members of a group may be groups again, so the listener of a call is the root of a tree
(`Listener.Tree`). A leaf may stand in it at several places, and so may a group; a group may be
empty. Leaves are told with what is around the call, so each finds what the ones before it left.

**What is assumed (`Tree.Fixed`).** The groups have the members that the tree says, and the hooks
of its leaves leave these groups as they are. Whatever else hooks do, they may fail or change the
notice and the surroundings.

**How deep (`Tree.rounds`).** `Listener.tell` passes an event on up to a limit. Every tree has its
own, and any higher one will do.

**Results.**
* `tell_tree`: an event that goes through a tree is one that goes through its leaves.
* `noted_forM`: the hooks that ran, if leaves are told one after the other.
* `groups_flatten`: a tree is told as the flat group of its leaves is, up to the first failure.
-/

namespace Retry

open Act

namespace Act

variable {σ γ : Type}

theorem forM_append (items more : List γ) (act : γ → Act σ Unit) :
    (items ++ more).forM act = (items.forM act >>= fun _ => more.forM act) :=
  List.forM_append

theorem kept_forM {J : σ → Prop} {items : List γ} {act : γ → Act σ Unit}
    (h : ∀ c ∈ items, ∀ x, J x → J ((act c).perform x).2) {x : σ} (hx : J x) :
    J ((items.forM act).perform x).2 :=
  ((exact_forM fun c hc => exact_steady (h c hc)) x x ⟨rfl, hx⟩).same.2.2

end Act

namespace Listener

/-- Groups within groups, over leaves. -/
inductive Tree (κ : Type) where
  | leaf (l : κ)
  | group (id : Nat) (members : List (Tree κ))

namespace Tree

variable {κ : Type}

def root : Tree κ → Listener κ
  | .leaf l => .leaf l
  | .group id _ => .group id

mutual

def leaves : Tree κ → List κ
  | .leaf l => [l]
  | .group _ members => leavesOf members

/-- The leaves of trees, one tree after the other. -/
def leavesOf : List (Tree κ) → List κ
  | [] => []
  | t :: ts => leaves t ++ leavesOf ts

end

mutual

/-- How deep an event must be passed on to come to every leaf. -/
def rounds : Tree κ → Nat
  | .leaf _ => 1
  | .group _ members => roundsOf members + 1

/-- How deep it must be passed on to come to the leaves of members. -/
def roundsOf : List (Tree κ) → Nat
  | [] => 1
  | t :: ts => max (rounds t) (roundsOf ts) + 1

end

/-- The groups of a tree have the members that it says. -/
inductive Stands (groups : Nat → List (Listener κ)) : Tree κ → Prop
  | leaf (l : κ) : Stands groups (.leaf l)
  | group {id : Nat} {ts : List (Tree κ)} (members : groups id = ts.map root)
      (each : ∀ t ∈ ts, Stands groups t) : Stands groups (.group id ts)

def flat (id : Nat) (t : Tree κ) : Tree κ := .group id (t.leaves.map .leaf)

theorem leavesOf_map_leaf (ls : List κ) : leavesOf (ls.map .leaf) = ls := by
  induction ls with
  | nil => rw [List.map_nil, leavesOf]
  | cons l ls ih => rw [List.map_cons, leavesOf, leaves, ih, List.singleton_append]

theorem mem_leavesOf {ts : List (Tree κ)} {t : Tree κ} (ht : t ∈ ts) {l : κ}
    (hl : l ∈ t.leaves) : l ∈ leavesOf ts := by
  induction ts with
  | nil => exact absurd ht (by simp)
  | cons u ts ih =>
    rw [leavesOf, List.mem_append]
    rcases List.mem_cons.mp ht with rfl | ht
    · exact .inl hl
    · exact .inr (ih ht)

theorem leaves_flat (id : Nat) (t : Tree κ) : (t.flat id).leaves = t.leaves := by
  rw [flat, leaves, leavesOf_map_leaf]

end Tree

/-! ## Telling a tree -/

section

variable {σ κ : Type} {members : σ → Nat → List (Listener κ)} {hook : κ → Act σ Unit}
  {id i : Nat} {x : σ}

/-- Where there is no member at a position, a group has been told. -/
theorem perform_tellFrom_over (past : (members x id)[i]? = none) (fuel : Nat) :
    (tellFrom members hook (fuel + 1) id i).perform x = (.ok (), x) := by
  simp only [tellFrom, perform_bind, perform_look, past, perform_pure]

/-- Where there is one, it is told, and then the members behind it are. -/
theorem perform_tellFrom_next {member : Listener κ} (next : (members x id)[i]? = some member)
    (fuel : Nat) :
    (tellFrom members hook (fuel + 1) id i).perform x =
      (tell members hook fuel member >>= fun _ =>
        tellFrom members hook fuel id (i + 1)).perform x := by
  simp only [tellFrom, perform_bind, perform_look, next]

/-- The hooks of a tree keep what makes it stand. -/
structure Tree.Kept (J : σ → Prop) (members : σ → Nat → List (Listener κ))
    (hook : κ → Act σ Unit) (t : Tree κ) : Prop where
  stands : ∀ x, J x → t.Stands (members x)
  kept : ∀ l ∈ t.leaves, ∀ x, J x → J ((hook l).perform x).2

theorem Tree.Kept.within {J : σ → Prop} {ts : List (Tree κ)}
    (h : (Tree.group id ts).Kept J members hook) :
    (∀ x, J x → members x id = ts.map root) ∧ ∀ t ∈ ts, t.Kept J members hook := by
  have listed (x : σ) (hx : J x) : members x id = ts.map root ∧ ∀ t ∈ ts, t.Stands (members x) := by
    cases h.stands x hx with
    | group listed each => exact ⟨listed, each⟩
  refine ⟨fun x hx => (listed x hx).1, fun t ht => ⟨fun x hx => (listed x hx).2 t ht, ?_⟩⟩
  exact fun l hl => h.kept l (mem_leavesOf ht hl)

/-- An event that goes through a tree goes through its leaves, and so does one that goes through
the members of a group from a position on. The induction is the one of `exact_passed`. -/
theorem tell_tree_passed (J : σ → Prop) (fuel : Nat) :
    (∀ t : Tree κ, t.Kept J members hook → t.rounds ≤ fuel → ∀ x, J x →
      (tell members hook fuel t.root).perform x = (t.leaves.forM hook).perform x) ∧
    ∀ (id : Nat) (before after : List (Tree κ)), (∀ t ∈ after, t.Kept J members hook) →
      (∀ x, J x → members x id = (before ++ after).map Tree.root) → Tree.roundsOf after ≤ fuel →
      ∀ x, J x → (tellFrom members hook fuel id before.length).perform x =
        ((Tree.leavesOf after).forM hook).perform x := by
  induction fuel with
  | zero =>
    refine ⟨fun t _ deep => ?_, fun id before after _ _ deep => ?_⟩
    · cases t <;> simp [Tree.rounds] at deep
    · cases after <;> simp [Tree.roundsOf] at deep
  | succ fuel ih =>
    obtain ⟨told, passed⟩ := ih
    refine ⟨fun t kept deep x hx => ?_, fun id before after kept here deep x hx => ?_⟩
    · cases t with
      | leaf l =>
        have one : [l].forM hook = (hook l >>= fun _ => pure ()) := rfl
        rw [Tree.root, tell, Tree.leaves, one, bind_pure_unit]
      | group id ts =>
        obtain ⟨listed, each⟩ := kept.within
        rw [Tree.rounds] at deep
        rw [Tree.leaves]
        exact passed id [] ts each listed (by omega) x hx
    · cases after with
      | nil =>
        rw [Tree.leavesOf]
        exact perform_tellFrom_over (by simp [here x hx]) fuel
      | cons t ts =>
        obtain ⟨first, others⟩ := List.forall_mem_cons.mp kept
        rw [Tree.roundsOf] at deep
        have next : (members x id)[before.length]? = some t.root := by simp [here x hx]
        rw [perform_tellFrom_next next, Tree.leavesOf, forM_append, perform_bind, perform_bind,
          told t first (by omega) x hx]
        have left := kept_forM first.kept hx
        generalize (t.leaves.forM hook).perform x = y at left
        obtain ⟨f | ⟨⟩, y⟩ := y
        · rfl
        · have rest := passed id (before ++ [t]) ts others (fun y hy => by simp [here y hy])
            (by omega) y left
          rwa [List.length_append] at rest

/-- **A tree is told leaf by leaf.** -/
theorem tell_tree {J : σ → Prop} {t : Tree κ} (kept : t.Kept J members hook) {fuel : Nat}
    (deep : t.rounds ≤ fuel) (hx : J x) :
    (tell members hook fuel t.root).perform x = (t.leaves.forM hook).perform x :=
  (tell_tree_passed J fuel).1 t kept deep x hx

end

/-! ## The hooks that ran -/

section

variable {ω σ κ : Type}

/-- Leaves that are told one after the other, with the hooks put down: all of them have run, or
those up to the one that failed. -/
theorem noted_forM (hook : κ → Act (ω × σ) Unit) (ls : List κ) (x : ω × Hooked κ × σ) :
    let y := (ls.forM (noted hook)).perform x
    (y.1 = .ok () → y.2.2.1 = x.2.1 ++ ls.map fun l => (l, .ok ())) ∧
      ∀ f, y.1 = .error f → ∃ before l after, ls = before ++ l :: after ∧
        y.2.2.1 = x.2.1 ++ ((before.map fun l => (l, .ok ())) ++ [(l, .error f)]) := by
  induction ls generalizing x with
  | nil => exact ⟨fun _ => by simp, fun f failed => absurd failed (by simp)⟩
  | cons l ls ih =>
    have first : ((noted hook l).perform x).2.2.1 =
        x.2.1 ++ [(l, ((noted hook l).perform x).1)] := rfl
    have split : ((l :: ls).forM (noted hook)).perform x =
        (noted hook l >>= fun _ => ls.forM (noted hook)).perform x := rfl
    rw [split, perform_bind]
    generalize (noted hook l).perform x = y at first
    obtain ⟨f | ⟨⟩, y⟩ := y
    · refine ⟨fun ok => absurd ok (by simp), fun g failed => ⟨[], l, ls, rfl, ?_⟩⟩
      obtain rfl := Except.error.inj failed
      exact first
    · obtain ⟨all, some⟩ := ih y
      refine ⟨fun ok => ?_, fun f failed => ?_⟩
      · rw [all ok, first, List.append_assoc]
        rfl
      · obtain ⟨before, last, after, rfl, ran⟩ := some f failed
        refine ⟨l :: before, last, after, rfl, ?_⟩
        rw [ran, first, List.append_assoc]
        rfl

end

/-! ## Trees and flat groups -/

section

variable {κ σ ε α : Type} {members : σ → Nat → List (Listener κ)}
  {hook : κ → Act (Notice ε α × σ) Unit}

/-- The groups of a tree stand, and the hooks of its leaves add nothing to them, whatever event
they are told of. -/
structure Tree.Fixed (members : σ → Nat → List (Listener κ)) (hook : κ → Act (Notice ε α × σ) Unit)
    (t : Tree κ) (s : σ) : Prop where
  stands : t.Stands (members s)
  kept : ∀ l ∈ t.leaves, ∀ n u, t.Stands (members u) →
    t.Stands (members ((hook l).perform (n, u)).2.2)

/-- In a fixed tree, hooks that are put down are told leaf by leaf as well. -/
theorem Tree.Fixed.told {t : Tree κ} {s : σ} (h : t.Fixed members hook s) {fuel : Nat}
    (deep : t.rounds ≤ fuel) (n : Notice ε α) :
    (tell (fun x => members x.2) hook fuel t.root).perform (n, s) =
        (t.leaves.forM hook).perform (n, s) ∧
      (tell (fun x => members x.2.2) (noted hook) fuel t.root).perform (n, [], s) =
        (t.leaves.forM (noted hook)).perform (n, [], s) := by
  have plain : t.Kept (fun x : Notice ε α × σ => t.Stands (members x.2))
      (fun x => members x.2) hook :=
    ⟨fun _ hx => hx, fun l hl x hx => h.kept l hl x.1 x.2 hx⟩
  have put : t.Kept (fun x : Notice ε α × Hooked κ × σ => t.Stands (members x.2.2))
      (fun x => members x.2.2) (noted hook) :=
    ⟨fun _ hx => hx, fun l hl x hx => h.kept l hl x.1 x.2.2 hx⟩
  exact ⟨tell_tree plain deep h.stands, tell_tree put deep h.stands⟩

/-- **Groups within groups are told as one flat group is.** Whatever the event is, telling a fixed
tree is telling its leaves from left to right, each once for every place that it has and each with
what the ones before it left; and it is telling the flat group of these leaves. All of them are
told, or those up to the first whose hook fails, at whatever depth that stands, and the event fails
like it. -/
theorem groups_flatten {t : Tree κ} {id : Nat} {s : σ} (fixed : t.Fixed members hook s)
    (flat : (t.flat id).Fixed members hook s) {fuel : Nat} (deep : t.rounds ≤ fuel)
    (wide : (t.flat id).rounds ≤ fuel) (n : Notice ε α) :
    let told := (tell (fun x => members x.2) hook fuel t.root).perform (n, s)
    let put := (tell (fun x => members x.2.2) (noted hook) fuel t.root).perform (n, [], s)
    told = (t.leaves.forM hook).perform (n, s) ∧
    told = (tell (fun x => members x.2) hook fuel (.group id)).perform (n, s) ∧
    (put.1 = told.1 ∧ put.2.1 = told.2.1 ∧ put.2.2.2 = told.2.2) ∧
    (told.1 = .ok () → put.2.2.1 = t.leaves.map fun l => (l, .ok ())) ∧
    (∀ f, told.1 = .error f → ∃ before l after, t.leaves = before ++ l :: after ∧
      put.2.2.1 = (before.map fun l => (l, .ok ())) ++ [(l, .error f)]) ∧
    ∀ before l after x f y, t.leaves = before ++ l :: after →
      (before.forM hook).perform (n, s) = (.ok (), x) → (hook l).perform x = (.error f, y) →
        told = (.error f, y) := by
  intro told put
  obtain ⟨leafwise, noted⟩ := fixed.told deep n
  have flatly := (flat.told wide n).1
  rw [Tree.leaves_flat] at flatly
  obtain ⟨ends, notice, left⟩ :=
    (noted_tell_forgets members hook fuel t.root (n, [], s) (n, s) ⟨rfl, rfl⟩).same
  obtain ⟨all, some⟩ := noted_forM hook t.leaves (n, [], s)
  rw [← noted] at all some
  refine ⟨leafwise, leafwise.trans flatly.symm, ⟨ends, notice, left⟩, fun ok => all (ends.trans ok),
    fun f failed => some f (ends.trans failed), fun before l after x f y split passed failed => ?_⟩
  refine leafwise.trans ?_
  rw [split, forM_append, perform_bind_ok passed]
  exact perform_bind_error failed _

end

/-- A group with an empty group and a leaf that stands in it twice. -/
def grove : Tree Nat := .group 0 [.leaf 1, .group 1 [.group 2 [], .leaf 2], .leaf 1, .leaf 3]

/-- The groups of the grove, and the flat group of its leaves. -/
def groves : Nat → List (Listener Nat)
  | 0 => [.leaf 1, .group 1, .leaf 1, .leaf 3]
  | 1 => [.group 2, .leaf 2]
  | 3 => [.leaf 1, .leaf 2, .leaf 1, .leaf 3]
  | _ => []

/-- A leaf puts its number behind those of the leaves before it. One that makes `121` of them
fails. -/
def carve (f : Failure) (l : Nat) : Act (Notice Nat Nat × Nat) Unit :=
  .of fun (n, s) => (if s * 10 + l = 121 then .error f else .ok (), n, s * 10 + l)

/-- The first leaf fails at its second place, and the last one is not told. -/
theorem groups_flatten_grove :
    let members (_ : Nat) := groves
    let f := Failure.of .valueError "hollow"
    let n : Notice Nat Nat := ⟨⟨"fetch", 1, 2⟩, .success 7⟩
    (grove.Fixed members (carve f) 0 ∧ (grove.flat 3).Fixed members (carve f) 0 ∧
      grove.rounds ≤ 9 ∧ (grove.flat 3).rounds ≤ 9) ∧
    (tell (fun x => members x.2) (carve f) 9 grove.root).perform (n, 0) = (.error f, n, 121) ∧
    (tell (fun x => members x.2) (carve f) 9 (.group 3)).perform (n, 0) = (.error f, n, 121) ∧
    ((tell (fun x => members x.2.2) (noted (carve f)) 9 grove.root).perform (n, [], 0)).2.2.1 =
      [(1, .ok ()), (2, .ok ()), (1, .error f)] := by
  intro members f n
  have stands : grove.Stands groves :=
    .group rfl (by
      simp only [List.forall_mem_cons]
      exact ⟨.leaf 1, .group rfl (by
        simp only [List.forall_mem_cons]
        exact ⟨.group rfl (by simp), .leaf 2, by simp⟩), .leaf 1, .leaf 3, by simp⟩)
  have flatStands : (grove.flat 3).Stands groves :=
    .group rfl fun t ht => by
      obtain ⟨l, -, rfl⟩ := List.mem_map.mp ht
      exact .leaf l
  have fixed : grove.Fixed members (carve f) 0 := ⟨stands, fun _ _ _ _ h => h⟩
  have flat : (grove.flat 3).Fixed members (carve f) 0 := ⟨flatStands, fun _ _ _ _ h => h⟩
  obtain ⟨leafwise, flatly, -⟩ := groups_flatten fixed flat (show grove.rounds ≤ 9 by decide)
    (by decide) n
  have ends : (grove.leaves.forM (carve f)).perform (n, 0) = (.error f, n, 121) := rfl
  rw [ends] at leafwise
  refine ⟨⟨fixed, flat, by decide, by decide⟩, leafwise, flatly.symm.trans leafwise, rfl⟩

end Listener

end Retry
