import Retry.Datum.Encoder

/-!
# Which data JSON is written of

Data fits in a room if no whole number in it has too many digits and if no more lists and objects
lie in each other than there is room for (`Datum.Fits`). What fits is written, and nothing else
is; what else there is fails in one of two ways.

Main statements: `encodable_iff`, `refusing_encodable`, `dumps_ok`.
-/

namespace Retry.Datum

/-- Data that is written in a room of so many levels. -/
inductive Fits : Nat → Datum → Prop
  | null {room : Nat} : Fits room .null
  | number {room : Nat} {n : Number} (short : n.writable = true) : Fits room (.number n)
  | text {room : Nat} (s : String) : Fits room (.text s)
  | list {room : Nat} {items : List Datum} (each : ∀ d ∈ items, Fits room d) :
      Fits (room + 1) (.list items)
  | object {room : Nat} {entries : List (String × Datum)} (each : ∀ e ∈ entries, Fits room e.2) :
      Fits (room + 1) (.object entries)

theorem itemsEncodable_iff {room : Nat} {items : List Datum} :
    itemsEncodable room items = .ok () ↔ ∀ d ∈ items, encodable room d = .ok () := by
  induction items with
  | nil => simp [itemsEncodable]
  | cons d ds ih => rw [itemsEncodable, Except.both_ok, ih, List.forall_mem_cons]

theorem entriesEncodable_iff {room : Nat} {entries : List (String × Datum)} :
    entriesEncodable room entries = .ok () ↔ ∀ e ∈ entries, encodable room e.2 = .ok () := by
  induction entries with
  | nil => simp [entriesEncodable]
  | cons e es ih => rw [entriesEncodable, Except.both_ok, ih, List.forall_mem_cons]

theorem encodable_of_fits {room : Nat} {d : Datum} (h : d.Fits room) :
    encodable room d = .ok () := by
  induction h with
  | null => rw [encodable]
  | number short => rw [encodable, if_pos short]
  | text s => rw [encodable]
  | list _ ih => rw [encodable, nested, itemsEncodable_iff.mpr ih]
  | object _ ih => rw [encodable, nested, entriesEncodable_iff.mpr ih]

mutual

theorem fits_of_encodable :
    (room : Nat) → (d : Datum) → encodable room d = .ok () → d.Fits room
  | _, .null, _ => .null
  | _, .number n, h => by
    rw [encodable] at h
    split at h
    · next short => exact .number short
    · cases h
  | _, .text s, _ => .text s
  | 0, .list items, h => by
    rw [encodable, nested] at h
    cases h
  | room + 1, .list items, h => by
    rw [encodable, nested] at h
    exact .list (fits_of_itemsEncodable room items h)
  | 0, .object entries, h => by
    rw [encodable, nested] at h
    cases h
  | room + 1, .object entries, h => by
    rw [encodable, nested] at h
    exact .object (fits_of_entriesEncodable room entries h)

theorem fits_of_itemsEncodable :
    (room : Nat) → (items : List Datum) → itemsEncodable room items = .ok () →
      ∀ d ∈ items, d.Fits room
  | _, [], _ => by simp
  | room, d :: ds, h => by
    rw [itemsEncodable, Except.both_ok] at h
    exact List.forall_mem_cons.mpr
      ⟨fits_of_encodable room d h.1, fits_of_itemsEncodable room ds h.2⟩

theorem fits_of_entriesEncodable :
    (room : Nat) → (entries : List (String × Datum)) → entriesEncodable room entries = .ok () →
      ∀ e ∈ entries, e.2.Fits room
  | _, [], _ => by simp
  | room, (k, d) :: es, h => by
    rw [entriesEncodable, Except.both_ok] at h
    exact List.forall_mem_cons.mpr
      ⟨fits_of_encodable room d h.1, fits_of_entriesEncodable room es h.2⟩

end

/-- **Written is what fits.** -/
theorem encodable_iff {room : Nat} {d : Datum} : encodable room d = .ok () ↔ d.Fits room :=
  ⟨fits_of_encodable room d, encodable_of_fits⟩

/-! ## How writing fails -/

/-- A failure of data that is too long or too deep. -/
def Refuses (f : Failure) : Prop := f = .tooManyDigits "" ∨ f = .tooDeep

def Refusing (check : Except Failure Unit) : Prop := ∀ f, check = .error f → Refuses f

theorem refusing_ok : Refusing (.ok ()) := fun _ h => nomatch h

theorem refusing_tooDeep : Refusing (.error .tooDeep) :=
  fun _ h => .inr (Except.error.inj h).symm

theorem Refusing.both {x y : Except Failure Unit} (hx : Refusing x) (hy : Refusing y) :
    Refusing (x >>= fun _ => y) := by
  rcases x with g | ⟨⟩
  · exact hx
  · exact hy

mutual

/-- **What is not written** is too long or too deep. -/
theorem refusing_encodable : (room : Nat) → (d : Datum) → Refusing (encodable room d)
  | _, .null => refusing_ok
  | _, .text _ => refusing_ok
  | _, .number n => by
    rw [encodable]
    split
    · exact refusing_ok
    · exact fun f h => .inl (Except.error.inj h).symm
  | 0, .list _ => refusing_tooDeep
  | 0, .object _ => refusing_tooDeep
  | room + 1, .list items => refusing_itemsEncodable room items
  | room + 1, .object entries => refusing_entriesEncodable room entries

theorem refusing_itemsEncodable :
    (room : Nat) → (items : List Datum) → Refusing (itemsEncodable room items)
  | _, [] => refusing_ok
  | room, d :: ds => (refusing_encodable room d).both (refusing_itemsEncodable room ds)

theorem refusing_entriesEncodable :
    (room : Nat) → (entries : List (String × Datum)) → Refusing (entriesEncodable room entries)
  | _, [] => refusing_ok
  | room, (_, d) :: es => (refusing_encodable room d).both (refusing_entriesEncodable room es)

end

theorem dumps_ok {room : Nat} {d : Datum} {text : String} :
    d.dumps room = .ok text ↔ d.Fits room ∧ text = d.toJson := by
  rw [dumps, ← encodable_iff]
  rcases encodable room d with f | ⟨⟩
  · simp [bind, Except.bind]
  · simp [bind, Except.bind, pure, Except.pure, eq_comm]

end Retry.Datum
