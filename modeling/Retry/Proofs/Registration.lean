import Retry.Proofs.Groups
import Retry.Proofs.Renewal
import Retry.Proofs.Scenes

/-!
# Members that join while their group is told

The members of a group are looked up as an event goes through it, so a hook that adds a listener
to the group puts it on the way of the event that it is being told of; and that listener may add
further ones. The event ends where no member stands at the next position.

**What is assumed (`Registering`).** At whatever position the event stands (`Underway`), the member
there is told without failure, and all that comes of it for the group is that listeners stand
behind the ones that were there. They are finitely many: the group does not grow without end.

**Results.**
* `tell_deeper`: an event that was passed on to the end is passed on to the same end by any higher
  limit.
* `Registering.goesOn`: from wherever it stands, the event goes on to the members that there are in
  the end.
* `registrations_reached`: so an event of such a group ends, went to these members, and so does the
  next one.
* `Simulation.members_grow`, `Simulation.group_told`: whatever simulated listeners do, groups only
  get members behind those that they have; so an event of a simulated group has only to end without
  failure.
-/

namespace Retry

open Act

namespace Listener

section

variable {σ κ : Type} {members : σ → Nat → List (Listener κ)} {hook : κ → Act σ Unit}
  {l : Listener κ} {id i : Nat} {x y z : σ}

/-! ## Higher limits -/

theorem tell_zero : (tell members hook 0 l).perform x = (.error endless, x) := rfl

theorem tellFrom_zero : (tellFrom members hook 0 id i).perform x = (.error endless, x) := rfl

/-- Where an event that was passed on to the end stood: behind all members, or at one that was told
before those behind it. -/
theorem tellFrom_cases {fuel : Nat}
    (passed : (tellFrom members hook fuel id i).perform x = (.ok (), z)) :
    (members x id)[i]? = none ∧ z = x ∨
      ∃ less member t, fuel = less + 1 ∧ (members x id)[i]? = some member ∧
        (tell members hook less member).perform x = (.ok (), t) ∧
        (tellFrom members hook less id (i + 1)).perform t = (.ok (), z) := by
  cases fuel with
  | zero => exact absurd (tellFrom_zero.symm.trans passed) (by simp)
  | succ less =>
    cases here : (members x id)[i]? with
    | none =>
      rw [perform_tellFrom_over here, Prod.mk.injEq] at passed
      exact .inl ⟨rfl, passed.2.symm⟩
    | some member =>
      rw [perform_tellFrom_next here, perform_bind_eq_ok] at passed
      obtain ⟨⟨⟩, t, first, rest⟩ := passed
      exact .inr ⟨less, member, t, rfl, rfl, first, rest⟩

/-- A higher limit changes nothing about an event that was passed on to the end. -/
theorem tell_deeper (fuel : Nat) :
    (∀ (l : Listener κ) x y, (tell members hook fuel l).perform x = (.ok (), y) →
      (tell members hook (fuel + 1) l).perform x = (.ok (), y)) ∧
    ∀ id i x y, (tellFrom members hook fuel id i).perform x = (.ok (), y) →
      (tellFrom members hook (fuel + 1) id i).perform x = (.ok (), y) := by
  induction fuel with
  | zero =>
    refine ⟨fun l x y h => ?_, fun id i x y h => ?_⟩
    · exact absurd (tell_zero.symm.trans h) (by simp)
    · exact absurd (tellFrom_zero.symm.trans h) (by simp)
  | succ fuel ih =>
    obtain ⟨told, passed⟩ := ih
    refine ⟨fun l x y h => ?_, fun id i x y h => ?_⟩
    · cases l with
      | leaf l => exact h
      | group id => exact passed id 0 x y h
    · rcases tellFrom_cases h with ⟨past, rfl⟩ | ⟨_, member, t, ⟨⟩, here, first, rest⟩
      · exact perform_tellFrom_over past _
      · rw [perform_tellFrom_next here, perform_bind_ok (told member x t first)]
        exact passed id (i + 1) t y rest

theorem tell_mono {fuel fuel' : Nat} (le : fuel ≤ fuel')
    (h : (tell members hook fuel l).perform x = (.ok (), y)) :
    (tell members hook fuel' l).perform x = (.ok (), y) := by
  induction le with
  | refl => exact h
  | step _ ih => exact (tell_deeper _).1 l x y ih

end

section

variable {σ κ : Type} (members : σ → Nat → List (Listener κ)) (hook : κ → Act σ Unit)

/-- A listener is told without failure, if the event is passed on deep enough. -/
def Finishes (l : Listener κ) (x y : σ) : Prop :=
  ∃ fuel, (tell members hook fuel l).perform x = (.ok (), y)

/-- Where an event stands that goes through a group: it has been to so many members, and each of
them was told without failure. -/
inductive Underway (id : Nat) (x : σ) : Nat → σ → Prop
  | start : Underway id x 0 x
  | next {i : Nat} {y z : σ} {member : Listener κ} (before : Underway id x i y)
      (here : (members y id)[i]? = some member) (told : Finishes members hook member y z) :
      Underway id x (i + 1) z

/-- As the members of a group are told, they add listeners to it, finitely many in all, and do not
fail. -/
structure Registering (id : Nat) (x : σ) : Prop where
  adds : ∀ i y member, Underway members hook id x i y → (members y id)[i]? = some member →
    ∃ z, Finishes members hook member y z ∧ members y id <+: members z id
  finite : ∃ most, ∀ i y, Underway members hook id x i y → (members y id).length ≤ most

/-- An event goes through a group from a position on, and that is telling these listeners, each once
and in order. -/
def Passes (id i : Nat) (ls : List (Listener κ)) (x y : σ) : Prop :=
  ∃ enough, ∀ fuel, enough ≤ fuel →
    (tellFrom members hook fuel id i).perform x = (.ok (), y) ∧
    (ls.forM (tell members hook fuel)).perform x = (.ok (), y)

end

section

variable {σ κ : Type} {members : σ → Nat → List (Listener κ)} {hook : κ → Act σ Unit}
  {l : Listener κ} {id i : Nat} {x y z : σ}

theorem Finishes.unique (hy : Finishes members hook l x y) (hz : Finishes members hook l x z) :
    y = z := by
  obtain ⟨m, hm⟩ := hy
  obtain ⟨n, hn⟩ := hz
  have same := (tell_mono (Nat.le_max_left m n) hm).symm.trans (tell_mono (Nat.le_max_right m n) hn)
  exact congrArg Prod.snd same

theorem passes_over (past : (members x id)[i]? = none) : Passes members hook id i [] x x := by
  refine ⟨1, fun fuel enough => ⟨?_, rfl⟩⟩
  obtain ⟨fuel, rfl⟩ : ∃ less, fuel = less + 1 := ⟨fuel - 1, by omega⟩
  exact perform_tellFrom_over past fuel

theorem passes_next (next : (members x id)[i]? = some l) (told : Finishes members hook l x y)
    {ls : List (Listener κ)} (rest : Passes members hook id (i + 1) ls y z) :
    Passes members hook id i (l :: ls) x z := by
  obtain ⟨deep, told⟩ := told
  obtain ⟨enough, rest⟩ := rest
  refine ⟨max enough deep + 1, fun fuel le => ?_⟩
  obtain ⟨fuel, rfl⟩ : ∃ less, fuel = less + 1 := ⟨fuel - 1, by omega⟩
  constructor
  · rw [perform_tellFrom_next next, perform_bind_ok (tell_mono (by omega) told)]
    exact (rest fuel (by omega)).1
  · show ((tell members hook (fuel + 1) l >>= fun _ =>
      ls.forM (tell members hook (fuel + 1))).perform x) = _
    rw [perform_bind_ok (tell_mono (by omega) told)]
    exact (rest (fuel + 1) (by omega)).2

/-- **An event passes on until there is no member left.** From wherever it stands, it goes to the
members behind that position that the group has in the end. The induction is on how much the group
may still grow. -/
theorem Registering.goesOn (h : Registering members hook id x) {most : Nat}
    (finite : ∀ i y, Underway members hook id x i y → (members y id).length ≤ most) (more : Nat)
    (underway : Underway members hook id x i y) (short : most ≤ i + more) :
    ∃ k z, Underway members hook id x k z ∧ members y id <+: members z id ∧
      Passes members hook id i ((members z id).drop i) y z := by
  have ended {i : Nat} {y : σ} (underway : Underway members hook id x i y)
      (past : (members y id)[i]? = none) :
      ∃ k z, Underway members hook id x k z ∧ members y id <+: members z id ∧
        Passes members hook id i ((members z id).drop i) y z := by
    refine ⟨i, y, underway, List.prefix_refl _, ?_⟩
    rw [List.drop_eq_nil_of_le (List.getElem?_eq_none_iff.mp past)]
    exact passes_over past
  induction more generalizing i y with
  | zero =>
    have within := finite i y underway
    exact ended underway (List.getElem?_eq_none_iff.mpr (by omega))
  | succ more ih =>
    cases here : (members y id)[i]? with
    | none => exact ended underway here
    | some member =>
      obtain ⟨t, told, grown⟩ := h.adds i y member underway here
      obtain ⟨k, z, ends, grown', rest⟩ := ih (underway.next here told) (by omega)
      have kept := grown.trans grown'
      have there : (members z id)[i]? = some member := by
        obtain ⟨added, same⟩ := kept
        rw [← same, List.getElem?_append_left (List.getElem?_eq_some_iff.mp here).1, here]
      refine ⟨k, z, ends, kept, ?_⟩
      rw [List.drop_eq_getElem?_toList_append, there]
      exact passes_next here told rest

theorem Registering.passes (h : Registering members hook id x) :
    ∃ k z, Underway members hook id x k z ∧ members x id <+: members z id ∧
      Passes members hook id 0 (members z id) x z := by
  obtain ⟨most, finite⟩ := h.finite
  exact h.goesOn finite most .start (by omega)

/-- An event that goes through a group is told to the group. -/
theorem Passes.told {ls : List (Listener κ)} (h : Passes members hook id 0 ls x y) :
    ∃ enough, ∀ fuel, enough ≤ fuel → (tell members hook fuel (.group id)).perform x = (.ok (), y) ∧
      (ls.forM (tell members hook fuel)).perform x = (.ok (), y) := by
  obtain ⟨enough, passed⟩ := h
  refine ⟨enough + 1, fun fuel le => ?_⟩
  obtain ⟨fuel, rfl⟩ : ∃ less, fuel = less + 1 := ⟨fuel - 1, by omega⟩
  exact ⟨(passed fuel (by omega)).1, (passed (fuel + 1) (by omega)).2⟩

/-! ## Events that end -/

/-- An event that ends without failure at all goes through the members at every position. -/
theorem Underway.ends {fuel : Nat}
    (ended : (tell members hook fuel (.group id)).perform x = (.ok (), z))
    (underway : Underway members hook id x i y) :
    ∃ fuel, (tellFrom members hook fuel id i).perform y = (.ok (), z) := by
  induction underway with
  | start =>
    cases fuel with
    | zero => exact absurd (tell_zero.symm.trans ended) (by simp)
    | succ fuel => exact ⟨fuel, ended⟩
  | next before here told ih =>
    obtain ⟨fuel, rest⟩ := ih
    rcases tellFrom_cases rest with ⟨past, -⟩ | ⟨less, member, t, -, there, first, rest⟩
    · exact absurd (past.symm.trans here) (by simp)
    · obtain rfl := Option.some.inj (there.symm.trans here)
      obtain rfl := told.unique ⟨less, first⟩
      exact ⟨less, rest⟩

/-- Where listeners only ever add to a group, an event that ends without failure has met nothing
else. -/
theorem registering_of_ended
    (grows : ∀ l y z, Finishes members hook l y z → members y id <+: members z id) {fuel : Nat}
    (ended : (tell members hook fuel (.group id)).perform x = (.ok (), z)) :
    Registering members hook id x := by
  have grown (fuel i : Nat) (y : σ)
      (rest : (tellFrom members hook fuel id i).perform y = (.ok (), z)) :
      members y id <+: members z id := by
    induction fuel generalizing i y with
    | zero => exact absurd (tellFrom_zero.symm.trans rest) (by simp)
    | succ fuel ih =>
      rcases tellFrom_cases rest with ⟨-, rfl⟩ | ⟨_, member, t, ⟨⟩, -, first, rest⟩
      · exact List.prefix_refl _
      · exact (grows member y t ⟨fuel, first⟩).trans (ih (i + 1) t rest)
  refine ⟨fun i y member underway here => ?_, (members z id).length, fun i y underway => ?_⟩
  · obtain ⟨fuel, rest⟩ := underway.ends ended
    rcases tellFrom_cases rest with ⟨past, -⟩ | ⟨less, member', t, -, there, first, -⟩
    · exact absurd (past.symm.trans here) (by simp)
    · obtain rfl := Option.some.inj (there.symm.trans here)
      exact ⟨t, ⟨less, first⟩, grows member' y t ⟨less, first⟩⟩
  · obtain ⟨fuel, rest⟩ := underway.ends ended
    exact (grown fuel i y rest).length_le

end

/-! ## Hooks that are put down -/

section

variable {ω σ κ : Type} {members : σ → Nat → List (Listener κ)} {hook : κ → Act (ω × σ) Unit}
  {l : Listener κ} {id i : Nat} {n m : ω} {s u : σ} {h : Hooked κ}

theorem Finishes.noted (told : Finishes (fun x => members x.2) hook l (n, s) (m, u))
    (h : Hooked κ) :
    ∃ h', Finishes (fun x => members x.2.2) (noted hook) l (n, h, s) (m, h', u) := by
  obtain ⟨fuel, told⟩ := told
  obtain ⟨ends, notice, left⟩ :=
    (noted_tell_forgets members hook fuel l (n, h, s) (n, s) ⟨rfl, rfl⟩).same
  rw [told] at ends notice left
  refine ⟨_, fuel, Prod.ext ends (Prod.ext notice (Prod.ext rfl left))⟩

theorem Finishes.of_noted {x y : ω × Hooked κ × σ}
    (told : Finishes (fun x => members x.2.2) (Listener.noted hook) l x y) :
    Finishes (fun x => members x.2) hook l (x.1, x.2.2) (y.1, y.2.2) := by
  obtain ⟨fuel, told⟩ := told
  obtain ⟨ends, notice, left⟩ :=
    (noted_tell_forgets members hook fuel l x (x.1, x.2.2) ⟨rfl, rfl⟩).same
  rw [told] at ends notice left
  exact ⟨fuel, Prod.ext ends.symm (Prod.ext notice.symm left.symm)⟩

theorem Underway.of_noted {x y : ω × Hooked κ × σ}
    (underway : Underway (fun x => members x.2.2) (noted hook) id x i y) :
    Underway (fun x => members x.2) hook id (x.1, x.2.2) i (y.1, y.2.2) := by
  induction underway with
  | start => exact .start
  | next _ here told ih => exact .next ih here told.of_noted

theorem Registering.noted (reg : Registering (fun x => members x.2) hook id (n, s)) :
    Registering (fun x => members x.2.2) (noted hook) id (n, h, s) := by
  refine ⟨fun i y member underway here => ?_, ?_⟩
  · obtain ⟨z, told, grown⟩ := reg.adds i _ member underway.of_noted here
    obtain ⟨put, told⟩ := told.noted y.2.1
    exact ⟨_, told, grown⟩
  · obtain ⟨most, finite⟩ := reg.finite
    exact ⟨most, fun i y underway => finite i _ underway.of_noted⟩

end

/-! ## Events of a group that listeners join -/

section

variable {κ σ ε α : Type}

/-- An event goes to a group without failure, and that is telling these listeners, each once and in
order. If they are leaves, theirs are the hooks that run. -/
def Reaches (members : σ → Nat → List (Listener κ)) (hook : κ → Act (Notice ε α × σ) Unit)
    (id : Nat) (ls : List (Listener κ)) (x y : Notice ε α × σ) : Prop :=
  ∃ enough, ∀ fuel, enough ≤ fuel →
    let put := (tell (fun x => members x.2.2) (noted hook) fuel (.group id)).perform (x.1, [], x.2)
    (tell (fun x => members x.2) hook fuel (.group id)).perform x = (.ok (), y) ∧
    (ls.forM (tell (fun x => members x.2) hook fuel)).perform x = (.ok (), y) ∧
    put = (ls.forM (tell (fun x => members x.2.2) (noted hook) fuel)).perform (x.1, [], x.2) ∧
    ∀ leaves : List κ, ls = leaves.map .leaf → put.2.2.1 = leaves.map fun l => (l, .ok ())

variable {members : σ → Nat → List (Listener κ)} {hook : κ → Act (Notice ε α × σ) Unit}
  {id : Nat} {x y : Notice ε α × σ}

theorem forM_leaves (fuel : Nat) (leaves : List κ) {hook : κ → Act σ Unit} :
    (leaves.map Listener.leaf).forM (tell members hook (fuel + 1)) = leaves.forM hook :=
  List.forM_map

theorem Registering.reaches (reg : Registering (fun x => members x.2) hook id x) :
    ∃ k y, Underway (fun x => members x.2) hook id x k y ∧
      members x.2 id <+: members y.2 id ∧ Reaches members hook id (members y.2 id) x y := by
  obtain ⟨k, y, underway, kept, passed⟩ := reg.passes
  obtain ⟨-, z, -, -, put⟩ := (reg.noted (h := [])).passes
  obtain ⟨enough, told⟩ := passed.told
  obtain ⟨enough', told'⟩ := put.told
  refine ⟨k, y, underway, kept, max enough enough' + 1, fun fuel le => ?_⟩
  obtain ⟨fuel, rfl⟩ : ∃ less, fuel = less + 1 := ⟨fuel - 1, by omega⟩
  obtain ⟨plain, each⟩ := told (fuel + 1) (by omega)
  obtain ⟨put, putEach⟩ := told' (fuel + 1) (by omega)
  have left := (noted_tell_forgets members hook (fuel + 1) (.group id) (x.1, [], x.2) x
    ⟨rfl, rfl⟩).same.2.2
  rw [plain, put] at left
  rw [show z.2.2 = y.2 from left] at putEach
  refine ⟨plain, each, put.trans putEach.symm, fun leaves same => ?_⟩
  rw [same, forM_leaves] at putEach
  have ran := (noted_forM hook leaves (x.1, [], x.2)).1 (by rw [putEach])
  rw [put, ← putEach]
  exact ran

theorem Reaches.finishes {ls : List (Listener κ)} (h : Reaches members hook id ls x y) :
    Finishes (fun x => members x.2) hook (.group id) x y := by
  obtain ⟨enough, told⟩ := h
  exact ⟨enough, (told enough (Nat.le_refl _)).1⟩

/-- **Listeners that join during an event are reached by it.** If the members of a group let
finitely many listeners join it while they are told, and these again, and none fails, then the event
ends without failure. It went to the members that the group has by then, each position once and in
order, and those that it had before are the first of them. The next event goes to these members in
the same way, and to no others unless more join. -/
theorem registrations_reached {n : Notice ε α} {s : σ}
    (reg : Registering (fun x => members x.2) hook id (n, s)) :
    ∃ m u, members s id <+: members u id ∧ Reaches members hook id (members u id) (n, s) (m, u) ∧
      ∀ n' s', members s' id = members u id →
        Registering (fun x => members x.2) hook id (n', s') →
          ∃ m' u', members u id <+: members u' id ∧
            Reaches members hook id (members u' id) (n', s') (m', u') ∧
            ((∀ i y, Underway (fun x => members x.2) hook id (n', s') i y →
              members y.2 id = members s' id) → members u' id = members u id) := by
  obtain ⟨-, ⟨m, u⟩, -, kept, reached⟩ := reg.reaches
  refine ⟨m, u, kept, reached, fun n' s' same reg' => ?_⟩
  obtain ⟨k, ⟨m', u'⟩, ends, kept', reached'⟩ := reg'.reaches
  exact ⟨m', u', same ▸ kept', reached', fun quiet => (quiet k _ ends).trans same⟩

end

end Listener

/-! ## Groups of a simulation -/

namespace Simulation

variable {id : Nat} {first : List (Listener Leaf)}

/-- A group has these members, and perhaps others behind them. -/
def World.Begins (id : Nat) (first : List (Listener Leaf)) (w : World) : Prop :=
  first <+: w.members id

theorem World.Begins.of_groups {v w : World} (h : v.Begins id first) (same : w.groups = v.groups) :
    w.Begins id first := by
  unfold Begins members at h ⊢
  rwa [same]

theorem World.Begins.addTo {w : World} (h : w.Begins id first) (other : Nat) (l : Listener Leaf) :
    (w.addTo other l).Begins id first := by
  unfold Begins members at h ⊢
  rw [World.addTo, List.getElem?_modify]
  cases there : w.groups[id]? with
  | none => simpa [there] using h
  | some ls =>
    rw [there] at h
    by_cases same : other = id
    · simpa [same] using h.trans (List.prefix_append ls [l])
    · simpa [same] using h

theorem World.Begins.buildGroup {w : World} (h : w.Begins id first) (ls : List (Listener Leaf)) :
    { w with groups := w.groups ++ [ls] }.Begins id first := by
  unfold Begins members at h ⊢
  by_cases within : id < w.groups.length
  · rwa [List.getElem?_append_left within]
  · have empty : first = [] := by
      simpa [List.getElem?_eq_none_iff.mpr (Nat.le_of_not_lt within)] using h
    exact empty ▸ List.nil_prefix

/-- Whatever simulated listeners do, a group keeps the members that it has begun with. -/
theorem orderly_begins (id : Nat) (first : List (Listener Leaf)) :
    Orderly (Steady (World.Begins id first)) where
  named := fun _ _ h => congrArg World.listenerNamed h.1
  template := fun _ _ h => congrArg World.template? h.1
  members := fun _ _ h => congrArg World.members h.1
  leaf := fun name _ => exact_steady fun _ h => by cases name <;> exact h
  group := fun name ls => exact_steady fun _ h => by cases name <;> exact h.buildGroup ls
  joins := by
    rintro other l v _ ⟨rfl, h⟩
    exact ⟨rfl, h.addTo other l⟩
  sets := by
    rintro t v _ ⟨rfl, h⟩
    exact ⟨rfl, h⟩
  cancels := exact_steady fun w h => by
    rw [World.act, perform_change]
    cases w.token <;> exact h
  correlates := by
    rintro c v _ ⟨rfl, h⟩
    exact ⟨rfl, h⟩
  counts := fun _ _ => exact_steady fun _ h => h
  writes := by
    rintro row v _ ⟨rfl, h⟩
    exact ⟨rfl, h⟩
  consults := fun f => exact_beside_steady fun e w h =>
    h.of_groups (World.groups_of_renewed (World.keepAll_renewed (e.shouldRetry f).notes w))

/-- **Groups of a simulation only grow.** Whatever listener is told, of whatever event, a group
has the members that it had, and perhaps others behind them. -/
theorem members_grow (id fuel : Nat) (l : Listener Leaf) (x : Scene) :
    x.2.members id <+:
      ((Listener.tell (fun x => x.2.members) Scene.hook fuel l).perform x).2.2.members id :=
  ((orderly_begins id (x.2.members id)).told fuel l x x ⟨rfl, rfl, List.prefix_refl _⟩).same.2.2.2

/-- An event that a group of a simulation is told of without failure has met nothing but listeners
that join groups. -/
theorem registering_of_told {x y : Scene} {fuel : Nat}
    (told : (Listener.tell (fun x => x.2.members) Scene.hook fuel (.group id)).perform x =
      (.ok (), y)) :
    Listener.Registering (fun x : Scene => x.2.members) Scene.hook id x := by
  refine Listener.registering_of_ended (fun l y z ⟨fuel, told⟩ => ?_) told
  have grown := members_grow id fuel l y
  rwa [told] at grown

/-- **An event of a simulated group** that ends without failure went to the members that the group
has in the end, and those that it had before are the first of them. -/
theorem group_told {x y : Scene} {fuel : Nat}
    (told : (Listener.tell (fun x => x.2.members) Scene.hook fuel (.group id)).perform x =
      (.ok (), y)) :
    x.2.members id <+: y.2.members id ∧
      Listener.Reaches World.members Scene.hook id (y.2.members id) x y := by
  obtain ⟨-, z, -, kept, reached⟩ := (registering_of_told told).reaches
  obtain rfl := reached.finishes.unique ⟨fuel, told⟩
  exact ⟨kept, reached⟩

/-- A group of two. When it is first told of an event, the first member lets a guest join, and the
guest lets a friend join. -/
def gathering : World :=
  let friend := ListenerScript.recorder "friend" []
  let guest := ListenerScript.recorder "guest"
    [.on "before_retry" (some 1) [.addListener "party" friend] none]
  let host := Leaf.recorder 1 "host"
    [.on "before_retry" (some 1) [.addListener "party" guest] none]
  { groups := [[.leaf host, .leaf (.silent 2)]], known := [("party", .group 0)], keys := 3 }

/-- The text of the group when all have joined. -/
def gathered : String :=
  "CompositeRetryListener(listeners=[Rec(host), <aretry.listener.RetryListener object>, " ++
    "Rec(guest), Rec(friend)])"

def summons : Notice Execution Datum := ⟨⟨.text "fetch", .scripted [] 0, 1⟩, .beforeRetry⟩

def World.summoned (w : World) : Except Failure Unit × Scene :=
  (Listener.tell (fun x => x.2.members) Scene.hook 9 (.group 0)).perform (summons, w)

/-- The guest and the friend are told of the event at which they join, and of the next one. -/
theorem registrations_reached_gathering :
    let told (w : World) := w.trace.events.map EventRow.listener
    Listener.Registering (fun x => x.2.members) Scene.hook 0 (summons, gathering) ∧
    ∃ m u, gathering.members 0 <+: u.members 0 ∧
      Listener.Reaches World.members Scene.hook 0 (u.members 0) (summons, gathering) (m, u) ∧
      u.textOf (.group 0) = gathered ∧ told u = ["host", "guest", "friend"] ∧
      ∃ m' u', u.members 0 <+: u'.members 0 ∧
        Listener.Reaches World.members Scene.hook 0 (u'.members 0) (summons, u) (m', u') ∧
        u'.textOf (.group 0) = gathered ∧
        told u' = ["host", "guest", "friend", "host", "guest", "friend"] := by
  have ok : gathering.summoned.1.isOk = true := by decide +kernel
  have ok' : gathering.summoned.2.2.summoned.1.isOk = true := by decide +kernel
  have joins : gathering.summoned.2.2.textOf (.group 0) = gathered := by decide +kernel
  have joins' : gathering.summoned.2.2.summoned.2.2.textOf (.group 0) = gathered := by
    decide +kernel
  have tells : gathering.summoned.2.2.trace.events.map EventRow.listener =
      ["host", "guest", "friend"] := by decide +kernel
  have tells' : gathering.summoned.2.2.summoned.2.2.trace.events.map EventRow.listener =
      ["host", "guest", "friend", "host", "guest", "friend"] := by decide +kernel
  have passed (w : World) (ok : w.summoned.1.isOk = true) :
      w.summoned = (.ok (), w.summoned.2) := by
    generalize w.summoned = r at ok
    obtain ⟨_ | ⟨⟩, y⟩ := r
    · exact absurd ok (by simp [Except.isOk, Except.toBool])
    · rfl
  -- Nothing of the world is computed from here on.
  generalize gathering = w at *
  intro told
  have reg := registering_of_told (passed w ok)
  obtain ⟨m, u, kept, reached, next⟩ := Listener.registrations_reached reg
  obtain same : (m, u) = w.summoned.2 := reached.finishes.unique ⟨9, passed w ok⟩
  obtain rfl : u = w.summoned.2.2 := congrArg Prod.snd same
  obtain ⟨m', u', kept', reached', -⟩ := next summons _ rfl (registering_of_told (passed _ ok'))
  obtain same' : (m', u') = w.summoned.2.2.summoned.2 :=
    reached'.finishes.unique ⟨9, passed _ ok'⟩
  obtain rfl : u' = w.summoned.2.2.summoned.2.2 := congrArg Prod.snd same'
  exact ⟨reg, m, _, kept, reached, joins, tells, m', _, kept', reached', joins', tells'⟩

end Simulation

end Retry
