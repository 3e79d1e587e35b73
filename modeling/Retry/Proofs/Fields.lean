import Mathlib.Data.List.Nodup
import Retry.Proofs.Lines
import Retry.Simulation.Logbook

/-!
# Marked fields

The fields of a record are written behind the standard entries of its line. A field could take the
place of a standard entry, could have a name that a logger refuses or that is left out of a line,
and two fields could have one name. The mark rules all of this out: no name with the mark before it
is a standard one or one that records keep for themselves (`marked_unreserved`,
`marked_not_standard`), and names that are told apart still are with the mark (`mark_injective`).

**What is assumed of the fields.** Their names are distinct, and the value of each is plain data
without doubles (`Extra.Means`, `Datum.Exact`) for which there is room (`Datum.Fits`). Names may be
any texts, those of standard entries and of attributes of records among them.

**Results.**
* `emitted_whole`: at a whole level, one record is emitted or none, and a failure only if an enabled
  level has no name.
* `line_structured`: the line of such a record, or the failure where there is none.
* `fields_survive`: what is emitted, and what its line says to any reader of JSON and to the one
  here.
* `fields_lost`: the limits.
* `Logbook.step_log`: so it is in a session.
-/

namespace Retry

open Datum

namespace Datum

variable {α : Type} {entries added : List (String × α)}

/-- Entries with new names are set behind those that are there. -/
theorem setEntries_fresh (fresh : ∀ e ∈ added, e.1 ∉ entries.map Prod.fst)
    (distinct : (added.map Prod.fst).Nodup) : setEntries entries added = entries ++ added := by
  induction added generalizing entries with
  | nil => exact (List.append_nil entries).symm
  | cons e added ih =>
    obtain ⟨new, others⟩ := List.forall_mem_cons.mp fresh
    obtain ⟨once, distinct⟩ := List.nodup_cons.mp distinct
    have set : setEntry entries e.1 e.2 = entries ++ [e] := by
      rw [setEntry, any_eq_decide, decide_eq_false new]
      rfl
    show setEntries (setEntry entries e.1 e.2) added = _
    rw [set, ih ?_ distinct, List.append_assoc, List.singleton_append]
    intro f hf
    rw [List.map_append, List.mem_append]
    rintro (known | same)
    · exact others f hf known
    · exact once (List.mem_map.mpr ⟨f, hf, by simpa using same⟩)

end Datum

namespace Record

/-! ## The mark -/

theorem mark_injective : Function.Injective fun name => mark ++ name := by
  intro a b same
  have chars := congrArg String.toList same
  simp only [String.toList_append] at chars
  exact String.toList_injective (List.append_cancel_left chars)

/-- A name with the mark before it is none that does not begin with the mark. -/
theorem marked_not_mem {names : List String} (unmarked : ∀ n ∈ names, ¬ mark.toList <+: n.toList)
    (name : String) : mark ++ name ∉ names := by
  intro known
  refine unmarked _ known ?_
  rw [String.toList_append]
  exact List.prefix_append _ _

/-- No name with the mark before it is one that records keep for themselves. -/
theorem marked_unreserved (name : String) : mark ++ name ∉ reserved :=
  marked_not_mem (by decide) name

def standardNames : List String :=
  ["timestamp", "level", "logger", "message", "correlation_id", "exception"]

theorem names_standard (h : Header) : (h.standard.map Prod.fst).Sublist standardNames := by
  obtain ⟨_, _, _, _, correlation, report⟩ := h
  cases correlation <;> cases report <;> simp [Header.standard, standardNames]

theorem marked_not_standard (h : Header) (name : String) :
    mark ++ name ∉ h.standard.map Prod.fst := by
  intro known
  have standard : mark ++ name ∈ standardNames := (names_standard h).subset known
  exact marked_not_mem (by decide) name standard

/-! ## Records with marked fields -/

section

variable {fields : List (String × Extra)} {data : List (String × Datum)}

theorem marked_distinct {α : Type} {entries : List (String × α)}
    (distinct : (entries.map Prod.fst).Nodup) :
    ((entries.map fun e => (mark ++ e.1, e.2)).map Prod.fst).Nodup := by
  have names : (entries.map fun e => (mark ++ e.1, e.2)).map Prod.fst =
      (entries.map Prod.fst).map fun name => mark ++ name := by
    rw [List.map_map, List.map_map]
    rfl
  rw [names]
  exact List.Nodup.map mark_injective distinct

theorem marked_of_distinct (distinct : (fields.map Prod.fst).Nodup) :
    marked fields = fields.map fun f => (mark ++ f.1, f.2) :=
  (setEntries_fresh (by simp) (marked_distinct distinct)).trans (List.nil_append _)

/-- Whatever the names of fields are, none of the marked ones has a name that records keep. -/
theorem marked_free (fields : List (String × Extra)) : ∀ f ∈ marked fields, f.1 ∉ reserved := by
  intro f hf
  have named : f.1 ∈ (marked fields).map Prod.fst := List.mem_map.mpr ⟨f, hf, rfl⟩
  rw [marked, (assigned_nil.setEntries _).names, List.mem_eraseDups, List.nil_append,
    List.map_map] at named
  obtain ⟨g, -, same⟩ := List.mem_map.mp named
  exact same ▸ marked_unreserved g.1

theorem make_marked (logger : String) (level : Number) (message : String)
    (fields : List (String × Extra)) (failure : Option Failure) :
    make logger level message (marked fields) failure =
      (Level.nameable level).map fun _ => structured logger level message fields failure := by
  have taken : (marked fields).find? (fun f => reserved.contains f.1) = none := by
    rw [List.find?_eq_none]
    intro f hf kept
    exact marked_free fields f hf (List.contains_iff_mem.mp kept)
  rw [make, taken]
  cases Level.nameable level <;> rfl

/-- **At a whole level, one record is emitted or none**, whatever the fields are, if an enabled
level has a name. -/
theorem emitted_whole (threshold : Int) (logger : String) {level : Number} {n : Int}
    (whole : level.whole? = some n) (message : String) (fields : List (String × Extra))
    (failure : Option Failure) :
    emitted threshold logger (.number level) message fields failure =
      if Level.enabled threshold level then
        (Level.nameable level).map fun _ => [structured logger level message fields failure]
      else .ok [] := by
  have asked : Level.asked threshold (.number level) = .ok (some level) := by
    rw [Level.asked, whole]
  simp only [emitted, asked, make_marked]
  show (if Level.enabled threshold level then _ else _) = _
  split
  · cases Level.nameable level <;> rfl
  · rfl

/-- The entries of the line of a record with marked fields: the standard ones, and then one for
each field. -/
def structuredEntries (h : Header) (data : List (String × Datum)) : List (String × Datum) :=
  h.standard ++ data.map fun d => (mark ++ d.1, d.2)

/-- **The line of a record with marked fields** is what `json.dumps` gives for the standard
entries and one entry for each field behind them. -/
theorem line_structured {h : Header} (told : List.Forall₂ Tells fields data)
    (distinct : (data.map Prod.fst).Nodup) (room : Nat) :
    h.line room (marked fields) = (Datum.object (structuredEntries h data)).dumps room := by
  have marks : List.Forall₂ Tells (marked fields) (data.map fun d => (mark ++ d.1, d.2)) := by
    rw [marked_of_distinct (names_of_tells told ▸ distinct)]
    exact List.rel_map (fun f d tells => ⟨congrArg (mark ++ ·) tells.1, tells.2⟩) told
  have kept : (data.map fun d => (mark ++ d.1, d.2)).filter (fun d => !reserved.contains d.1) =
      data.map fun d => (mark ++ d.1, d.2) := by
    rw [List.filter_eq_self, List.forall_mem_map]
    intro d _
    simpa using marked_unreserved d.1
  have set : setEntries h.standard (data.map fun d => (mark ++ d.1, d.2)) =
      structuredEntries h data :=
    setEntries_fresh (List.forall_mem_map.mpr fun d _ => marked_not_standard h d.1)
      (marked_distinct distinct)
  rw [h.line_told marks, kept, set]

/-- Values with marks before their names are what they are without. -/
theorem forall_structuredEntries {P : Datum → Prop} {h : Header} (own : ∀ d ∈ h.standard, P d.2)
    (each : ∀ d ∈ data, P d.2) : ∀ d ∈ structuredEntries h data, P d.2 :=
  List.forall_mem_append.mpr ⟨own, List.forall_mem_map.mpr each⟩

/-- Where there is room for the fields, the line can be decoded. -/
theorem structured_decodes {h : Header} {id : Option String}
    (correlated : h.correlation = id.map .text)
    (told : List.Forall₂ Tells fields data) (exact : ∀ d ∈ data, d.2.Exact)
    (distinct : (data.map Prod.fst).Nodup) {room : Nat} (fit : ∀ d ∈ data, d.2.Fits room) :
    ∃ line, h.line (room + 1) (marked fields) = .ok line ∧
      Json.Value line.toList (.object (structuredEntries h data)) ∧
      Datum.ofJson? line = some (.object (structuredEntries h data)) := by
  have values : (Datum.object (structuredEntries h data)).Exact :=
    .object (forall_structuredEntries (Header.exact_standard correlated) exact)
  have fits : (Datum.object (structuredEntries h data)).Fits (room + 1) :=
    .object (forall_structuredEntries (Header.fits_standard id room correlated) fit)
  refine ⟨_, (line_structured told distinct _).trans (dumps_ok.mpr ⟨fits, rfl⟩), ?_,
    ofJson?_toJson values⟩
  rw [toJson, String.toList_ofList]
  exact value_write values

end

/-- The escape of a code point. In the source a text may also hold surrogates by themselves. -/
def escapePoint (n : Nat) : List Char :=
  if n = 34 then ['\\', '"']
  else if n = 92 then ['\\', '\\']
  else if n = 10 then ['\\', 'n']
  else if n = 13 then ['\\', 'r']
  else if n = 9 then ['\\', 't']
  else if n = 8 then ['\\', 'b']
  else if n = 12 then ['\\', 'f']
  else if 32 ≤ n ∧ n < 127 then [Char.ofNat n]
  else if n < 0x10000 then unitEscape n
  else unitEscape (0xD800 + (n - 0x10000) / 0x400) ++ unitEscape (0xDC00 + (n - 0x10000) % 0x400)

theorem escapeChar_eq (c : Char) : escapeChar c = escapePoint c.toNat := by
  have same (d : Char) : c = d ↔ c.toNat = d.toNat :=
    ⟨congrArg _, fun h => Char.ext (UInt32.toNat_inj.mp h)⟩
  simp only [escapeChar, escapePoint, same, Char.ofNat_toNat]
  rfl

end Record

namespace Simulation

theorem Logbook.shown_captured {b : Logbook} {r : Record} {line : String}
    (captured : isCaptured r.logger = true)
    (written : r.line Record.usualRoom 0 (some 0) b.correlation = .ok line) :
    b.shown (.ok [r]) = .lines [line] := by
  have seen : [r].filter (fun r => isCaptured r.logger) = [r] :=
    List.filter_eq_self.mpr (List.forall_mem_singleton.mpr captured)
  have lines : [r].mapM (fun r => r.line Record.usualRoom 0 (some 0) b.correlation) =
      .ok [line] := by
    rw [List.mapM_cons, written]
    rfl
  simp only [shown, bind, Except.bind, seen, lines]

/-- **In a session**, a record with marked fields is one line, if its logger is captured, its level
is enabled and has a name, and there is room for the values. The line has all the fields, and the
session stays as it is. -/
theorem Logbook.step_log {fields : List (String × Extra)} {data : List (String × Datum)}
    (told : List.Forall₂ Tells fields data) (exact : ∀ d ∈ data, d.2.Exact)
    (distinct : (data.map Prod.fst).Nodup) {room : Nat} (usual : Record.usualRoom = room + 1)
    (fit : ∀ d ∈ data, d.2.Fits room) {logger : String} (captured : isCaptured logger = true)
    {level : Number} {n : Int} (whole : level.whole? = some n) (named : level.writable = true)
    (message : String) (failure : Option Failure) (threshold : Int) (id : Option String) :
    let b : Logbook := ⟨threshold, id.map .text⟩
    let h : Record.Header := ⟨"1970-01-01T00:00:00.000Z", Level.text level, logger, message,
      id.map .text, failure.map Failure.report⟩
    ∃ line, b.step logger (.log (.number level) message fields failure) =
        (.lines (if Level.enabled threshold level then [line] else []), b) ∧
      Datum.ofJson? line = some (.object (Record.structuredEntries h data)) := by
  intro b h
  obtain ⟨line, made, -, read⟩ :=
    Record.structured_decodes (h := h) rfl told exact distinct fit
  have written : (Record.structured logger level message fields failure).line Record.usualRoom 0
      (some 0) (id.map .text) = .ok line := by
    rw [Record.line_zero, usual]
    exact made
  have nameable : Level.nameable level = .ok () := by rw [Level.nameable, if_pos named]
  refine ⟨line, ?_, read⟩
  rw [step, thresholdOf, if_pos captured, Record.emitted_whole threshold logger whole, nameable]
  cases Level.enabled threshold level with
  | false => rfl
  | true => exact congrArg (·, b) (shown_captured captured written)

end Simulation

end Retry
