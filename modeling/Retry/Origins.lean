/-!
# Origins of values

A record may be made from another one by giving some of its fields anew; the others
are handed on. `Origins` remembers for each field for which record its value was
given, so that one can tell a value that was handed on from an equal one, or from a NaN,
which equals nothing else. `shared_renew` says which fields two such records share.
-/

namespace Retry

/-- For each field, the number of the record that its value was given for. -/
abbrev Origins := List (String × Nat)

namespace Origins

/-- All fields are given for the record of a number. -/
def first (fields : List String) (number : Nat) : Origins := fields.map fun field => (field, number)

/-- Some fields are given anew for the record of a number. -/
def renew (o : Origins) (given : String → Bool) (number : Nat) : Origins :=
  o.map fun (field, origin) => (field, if given field then number else origin)

/-- Whether two records hold the very same value in a field. -/
def shared (a b : Origins) (field : String) : Bool :=
  match a.lookup field, b.lookup field with
  | some m, some n => m == n
  | _, _ => false

theorem lookup_renew (o : Origins) (given : String → Bool) (number : Nat) (field : String) :
    (o.renew given number).lookup field =
      (o.lookup field).map fun origin => if given field then number else origin := by
  induction o with
  | nil => rfl
  | cons entry rest ih =>
    obtain ⟨name, origin⟩ := entry
    simp only [renew, List.map_cons, List.lookup_cons] at ih ⊢
    by_cases h : field = name
    · subst h; simp
    · simp [beq_eq_false_iff_ne.2 h, ih]

/-- A field is shared with the record it was handed on from unless it is given anew. -/
theorem shared_renew {o : Origins} {field : String} {origin : Nat}
    (h : o.lookup field = some origin) (given : String → Bool) {number : Nat}
    (new : number ≠ origin) : o.shared (o.renew given number) field = !given field := by
  unfold shared
  rw [lookup_renew, h]
  cases given field <;> simp [Ne.symm new]

end Origins

end Retry
