import Mathlib.Data.List.Forall2
import Retry.Proofs.Encoding
import Retry.Proofs.Writing
import Retry.Record

/-!
# What the line of a record says

A line is one JSON object. Its entries are those of the header and then the fields, each once
and in the order in which it is first set, with the value that is set last.

**What is assumed of the fields (`Extra.Means`, `Datum.Exact`).** The value of each is plain data
without doubles, in whatever form it was put together. There is a line where there is room for the
values (`Datum.Fits`).

**Results.**
* `Assigned.setEntries`: entries that are set one after the other are `Assigned`.
* `toDatum_of_means`: what is written for a value is the data that it means.
* `line_told`: the line of a header and fields, or the failure where there is none.
* `Record.lines_decode`: what a line says, to any reader of JSON and to the one here.
* `Record.lines_refused`: a field without a line.
-/

namespace Retry

/-! ## Entries that are set one after the other -/

namespace Datum

/-- What becomes of entries that are set in turn: each name once, in the order in which it was
first set, with the value that was set last. -/
structure Assigned {α : Type} (set entries : List (String × α)) : Prop where
  names : entries.map Prod.fst = (set.map Prod.fst).eraseDups
  distinct : (entries.map Prod.fst).Nodup
  values : ∀ name, entries.lookup name = set.reverse.lookup name

section

variable {α : Type} {set entries : List (String × α)}

theorem any_eq_decide (entries : List (String × α)) (name : String) :
    entries.any (·.1 == name) = decide (name ∈ entries.map Prod.fst) := by
  rw [Bool.eq_iff_iff]
  simp

theorem names_setEntry (entries : List (String × α)) (name : String) (value : α) :
    (setEntry entries name value).map Prod.fst =
      if name ∈ entries.map Prod.fst then entries.map Prod.fst
      else entries.map Prod.fst ++ [name] := by
  unfold setEntry
  rw [any_eq_decide]
  by_cases known : name ∈ entries.map Prod.fst
  · simp only [known, decide_true, if_true, List.map_map]
    refine List.map_congr_left fun e _ => ?_
    by_cases same : e.1 = name <;> simp [same]
  · simp [known]

/-- Where entries of a name are replaced, the others are looked up as before. -/
theorem lookup_replaced (entries : List (String × α)) (name other : String) (value : α) :
    (entries.map fun e => if e.1 == name then (name, value) else e).lookup other =
      if other = name then (entries.lookup name).map fun _ => value else entries.lookup other := by
  induction entries with
  | nil => simp
  | cons e entries ih =>
    obtain ⟨key, old⟩ := e
    rw [List.map_cons]
    by_cases replaced : key = name
    · subst replaced
      by_cases asked : other = key
      · simp [asked]
      · rw [if_pos (beq_self_eq_true key), List.lookup_cons, List.lookup_cons,
          beq_false_of_ne asked, ih]
        simp [asked, List.lookup_cons, beq_false_of_ne asked]
    · by_cases asked : other = key
      · subst asked
        simp [replaced]
      · rw [if_neg (by simpa using replaced), List.lookup_cons, List.lookup_cons, List.lookup_cons,
          beq_false_of_ne asked, beq_false_of_ne (Ne.symm replaced), ih]

theorem lookup_setEntry (entries : List (String × α)) (name other : String) (value : α) :
    (setEntry entries name value).lookup other =
      if other = name then some value else entries.lookup other := by
  unfold setEntry
  rw [any_eq_decide]
  by_cases known : name ∈ entries.map Prod.fst
  · obtain ⟨old, found⟩ : ∃ old, entries.lookup name = some old := by
      rw [← Option.isSome_iff_exists, List.lookup_isSome_iff]
      obtain ⟨e, he, rfl⟩ := List.mem_map.mp known
      exact ⟨e, he, beq_self_eq_true _⟩
    simp only [known, decide_true, if_true, lookup_replaced, found, Option.map_some]
  · have missing : entries.lookup name = none := by
      rw [List.lookup_eq_none_iff]
      intro e he
      simpa using fun same : name = e.1 => known (List.mem_map.mpr ⟨e, he, same.symm⟩)
    simp only [known, decide_false, Bool.false_eq_true, if_false, List.lookup_append]
    by_cases asked : other = name
    · simp [asked, missing]
    · simp [asked, List.lookup_cons, beq_false_of_ne asked]

theorem Assigned.setEntry (h : Assigned set entries) (name : String) (value : α) :
    Assigned (set ++ [(name, value)]) (setEntry entries name value) where
  names := by
    have known_iff : name ∈ entries.map Prod.fst ↔ name ∈ set.map Prod.fst := by
      rw [h.names, List.mem_eraseDups]
    rw [names_setEntry, List.map_append, List.eraseDups_append, ← h.names]
    by_cases known : name ∈ set.map Prod.fst
    · have added : [name].removeAll (set.map Prod.fst) = [] := by
        simpa [List.removeAll] using known
      simp [known_iff.mpr known, added]
    · have added : [name].removeAll (set.map Prod.fst) = [name] := by
        simpa [List.removeAll] using known
      rw [if_neg (mt known_iff.mp known)]
      simp [added, List.eraseDups_cons]
  distinct := by
    rw [names_setEntry]
    split
    · exact h.distinct
    · next new =>
      exact List.nodup_append.mpr ⟨h.distinct, by simp, fun a ha b hb same =>
        new (List.mem_singleton.mp hb ▸ same ▸ ha)⟩
  values other := by
    rw [lookup_setEntry, h.values, List.reverse_append, List.reverse_singleton,
      List.singleton_append, List.lookup_cons]
    by_cases asked : other = name
    · simp [asked]
    · rw [if_neg asked, beq_false_of_ne asked]

/-- Entries that are set one after the other, onto entries that were. -/
theorem Assigned.setEntries (h : Assigned set entries) (added : List (String × α)) :
    Assigned (set ++ added) (setEntries entries added) := by
  induction added generalizing set entries with
  | nil => simpa [Datum.setEntries] using h
  | cons e added ih =>
    have next := ih (h.setEntry e.1 e.2)
    rwa [List.append_assoc] at next

theorem assigned_nil : Assigned ([] : List (String × α)) [] := ⟨rfl, .nil, fun _ => rfl⟩

end

end Datum

open Datum

/-! ## What a value means -/

/-- The plain data that a value means. It may be put together from values that mean something;
the keys of a table are texts. -/
inductive Extra.Means : Extra → Datum → Prop
  | datum (d : Datum) : Means (.datum d) d
  | list {items : List (Extra × Datum)} (each : ∀ i ∈ items, Means i.1 i.2) :
      Means (.list (items.map Prod.fst)) (.list (items.map Prod.snd))
  | table {rows : List (String × Extra × Datum)} (each : ∀ r ∈ rows, Means r.2.1 r.2.2) :
      Means (.table (rows.map fun r => (.text r.1, r.2.1)))
        (.object (rows.map fun r => (r.1, r.2.2)))

namespace Extra

theorem itemsToData_eq {room : Nat} {items : List (Extra × Datum)}
    (h : ∀ i ∈ items, i.1.toDatum room = (i.2.encodable room).map fun _ => i.2) :
    itemsToData room (items.map Prod.fst) =
      (itemsEncodable room (items.map Prod.snd)).map fun _ => items.map Prod.snd := by
  induction items with
  | nil => rfl
  | cons i items ih =>
    obtain ⟨first, rest⟩ := List.forall_mem_cons.mp h
    simp only [List.map_cons, itemsToData, itemsEncodable, first, ih rest]
    cases i.2.encodable room with
    | error f => rfl
    | ok => cases itemsEncodable room (items.map Prod.snd) <;> rfl

theorem entriesToData_eq {room : Nat} {rows : List (String × Extra × Datum)}
    (h : ∀ r ∈ rows, r.2.1.toDatum room = (r.2.2.encodable room).map fun _ => r.2.2) :
    entriesToData room (rows.map fun r => (.text r.1, r.2.1)) =
      (entriesEncodable room (rows.map fun r => (r.1, r.2.2))).map
        fun _ => rows.map fun r => (r.1, r.2.2) := by
  induction rows with
  | nil => rfl
  | cons r rows ih =>
    obtain ⟨first, rest⟩ := List.forall_mem_cons.mp h
    simp only [List.map_cons, entriesToData, entriesEncodable, keyText, first, ih rest]
    cases r.2.2.encodable room with
    | error f => rfl
    | ok => cases entriesEncodable room (rows.map fun r => (r.1, r.2.2)) <;> rfl

/-- What is written for a value is what it means, if that is written. -/
theorem toDatum_of_means {e : Extra} {d : Datum} (h : e.Means d) (room : Nat) :
    e.toDatum room = (d.encodable room).map fun _ => d := by
  induction h generalizing room with
  | datum d =>
    rw [toDatum]
    cases d.encodable room <;> rfl
  | @list items _ ih =>
    rw [toDatum, encodable]
    cases room with
    | zero => rfl
    | succ room =>
      rw [nested, nested, itemsToData_eq fun i hi => ih i hi room]
      cases itemsEncodable room (items.map Prod.snd) <;> rfl
  | @table rows _ ih =>
    rw [toDatum, encodable]
    cases room with
    | zero => rfl
    | succ room =>
      rw [nested, nested, entriesToData_eq fun r hr => ih r hr room]
      cases entriesEncodable room (rows.map fun r => (r.1, r.2.2)) <;> rfl

end Extra

/-- A field and an entry have one name, and the value of the one means that of the other. -/
def Tells (field : String × Extra) (entry : String × Datum) : Prop :=
  field.1 = entry.1 ∧ field.2.Means entry.2

section

variable {fields added : List (String × Extra)} {entries more : List (String × Datum)}

theorem names_of_tells (h : List.Forall₂ Tells fields entries) :
    fields.map Prod.fst = entries.map Prod.fst := by
  induction h with
  | nil => rfl
  | cons first _ ih => simp only [List.map_cons, first.1, ih]

theorem tells_setEntry (h : List.Forall₂ Tells fields entries) {field : String × Extra}
    {entry : String × Datum} (told : Tells field entry) :
    List.Forall₂ Tells (setEntry fields field.1 field.2) (setEntry entries entry.1 entry.2) := by
  obtain ⟨same, means⟩ := told
  unfold setEntry
  rw [any_eq_decide, any_eq_decide, names_of_tells h, same]
  split
  · refine List.rel_map (fun f e tells => ?_) h
    rw [tells.1]
    split
    · exact ⟨rfl, means⟩
    · exact tells
  · exact List.rel_append h (.cons ⟨rfl, means⟩ .nil)

theorem tells_setEntries (h : List.Forall₂ Tells fields entries)
    (told : List.Forall₂ Tells added more) :
    List.Forall₂ Tells (setEntries fields added) (setEntries entries more) := by
  induction told generalizing fields entries with
  | nil => exact h
  | cons first _ ih => exact ih (tells_setEntry h first)

/-- Of fields that mean something, the entries are written if what they mean is. -/
theorem mapM_toDatum (h : List.Forall₂ Tells fields entries) (room : Nat) :
    (fields.mapM fun (name, value) => do return (name, ← value.toDatum room)) =
      (entriesEncodable room entries).map fun _ => entries := by
  induction h with
  | nil => rfl
  | @cons field entry _ entries first _ ih =>
    obtain ⟨name, value⟩ := field
    obtain ⟨same, means⟩ := first
    rw [List.mapM_cons, ih]
    simp only [Extra.toDatum_of_means means, entriesEncodable]
    rw [show name = entry.1 from same]
    cases entry.2.encodable room with
    | error f => rfl
    | ok => cases entriesEncodable room entries <;> rfl

end

/-! ## Lines -/

namespace Record

section

variable {fields : List (String × Extra)} {data : List (String × Datum)}

theorem Header.exact_standard {h : Header} {id : Option String}
    (correlated : h.correlation = id.map .text) : ∀ d ∈ h.standard, d.2.Exact := by
  obtain ⟨timestamp, level, logger, message, _, report⟩ := h
  obtain rfl : _ = id.map Datum.text := correlated
  cases id <;> cases report <;> simp [standard, Exact.text]

/-- The line of a header and of fields that mean something is what `json.dumps` gives for the
entries. -/
theorem Header.line_told (h : Header) (told : List.Forall₂ Tells fields data) (room : Nat) :
    h.line room fields = (Datum.object
      (setEntries h.standard (data.filter fun d => !reserved.contains d.1))).dumps room := by
  have kept : List.Forall₂ Tells (fields.filter fun field => !reserved.contains field.1)
      (data.filter fun d => !reserved.contains d.1) :=
    List.rel_filter (fun field d tells => by simp only [tells.1]) told
  have first : List.Forall₂ Tells (h.standard.map fun d => (d.1, .datum d.2)) h.standard := by
    rw [List.forall₂_map_left_iff, List.forall₂_same]
    exact fun d _ => ⟨rfl, .datum d.2⟩
  rw [line, entries, dumps, encodable]
  cases room with
  | zero => rfl
  | succ room =>
    rw [nested, nested, mapM_toDatum (tells_setEntries first kept)]
    cases entriesEncodable room _ <;> rfl

/-- The standard entries fit as soon as the correlation id does. -/
theorem Header.fits_standard {h : Header} (id : Option String) (room : Nat)
    (correlated : h.correlation = id.map .text) : ∀ d ∈ h.standard, d.2.Fits room := by
  obtain ⟨timestamp, level, logger, message, _, report⟩ := h
  obtain rfl : _ = id.map Datum.text := correlated
  cases id <;> cases report <;> simp [standard, Fits.text]

end

end Record

/-! ## Moments -/

section

variable {created msecs : Number} {seconds millis : Int}
  (hs : created.round? (· / ·) = some seconds)
  (within : -(6 * 10 ^ 16) ≤ seconds ∧ seconds ≤ 6 * 10 ^ 16)
  (hm : msecs.round? Int.tdiv = some millis)

include hs within hm

/-- The text of a moment, nearly two thousand million years before and after 1970. -/
theorem Timestamp.text_eq :
    Timestamp.text created (some msecs) = .ok (String.ofList (Timestamp.write seconds millis)) := by
  have number : created.isNaN = false := by
    cases created with
    | truth b => rfl
    | whole n => rfl
    | double x =>
      cases x with
      | finite s u h => rfl
      | infinite s => rfl
      | nan => exact absurd hs (by simp [Number.round?])
  have year := Date.daysBeforeYear_yearOf (seconds / 86400)
  have starts := Date.daysBeforeYear_bounds (Date.yearOf (seconds / 86400))
  have ends := Date.daysBeforeYear_bounds (Date.yearOf (seconds / 86400) + 1)
  have same : (Date.ofDays (seconds / 86400)).year = Date.yearOf (seconds / 86400) := rfl
  have slack : 0 ≤ slack created := by cases created <;> simp [slack]
  have hseconds : wholeSeconds created = .ok seconds := by
    simp only [wholeSeconds, number, hs, same]
    rw [if_neg (by simp), if_neg (by omega), if_neg (by omega), if_neg (by omega)]
  have hmillis : wholeMillis (some msecs) = .ok millis := by
    simp only [wholeMillis, hm]
  rw [Timestamp.text, hseconds, hmillis]
  rfl

end

namespace Record

theorem line_zero (room : Nat) (r : Record) (correlation : Option Datum) :
    r.line room 0 (some 0) correlation =
      (r.header "1970-01-01T00:00:00.000Z" correlation).line room r.fields := by
  have zero : Timestamp.text 0 (some 0) = .ok "1970-01-01T00:00:00.000Z" := by rfl
  rw [Record.line, zero]
  rfl

end Record

end Retry
