import Retry.Proofs.Lines
import Retry.Proofs.Steps

/-!
# One record, one line

The line of a record is printable ASCII, from the blank to the tilde. Texts that come from
elsewhere (messages, names, texts of failures, keys and values of fields at any depth) go through
`Datum.escapeChar`, which writes every other character by letters and digits; numbers are digits,
signs, points and a few letters. So no line holds a line break, and lines that are written one
after the other are told apart again by whatever character ends them.

An escape is printable for any UTF-16 unit, a lone surrogate too (`ascii_unitEscape`).

**Results.**
* `ascii_escapeChar`: what is written for a character is printable ASCII.
* `ascii_text`: so is the text of every double.
* `ascii_write`: so is what is written for plain data of every kind.
* `splitOn_ended`: ended texts are told apart by the character that ends them.
* `lines_unbroken`: so are lines, of any headers and fields and of any records.
-/

namespace Retry

namespace Text

/-! ## Printable ASCII -/

def Ascii (cs : List Char) : Prop := ∀ c ∈ cs, ' ' ≤ c ∧ c ≤ '~'

section

variable {α : Type} {cs ds : List Char}

@[simp] theorem ascii_nil : Ascii [] := List.forall_mem_nil _

@[simp] theorem ascii_cons {c : Char} : Ascii (c :: cs) ↔ (' ' ≤ c ∧ c ≤ '~') ∧ Ascii cs :=
  List.forall_mem_cons

@[simp] theorem ascii_append : Ascii (cs ++ ds) ↔ Ascii cs ∧ Ascii ds :=
  List.forall_mem_append

theorem ascii_flatMap {f : α → List Char} (h : ∀ a, Ascii (f a)) (as : List α) :
    Ascii (as.flatMap f) := by
  intro c hc
  obtain ⟨a, -, hc⟩ := List.mem_flatMap.mp hc
  exact h a c hc

theorem ascii_replicate {c : Char} (h : ' ' ≤ c ∧ c ≤ '~') (n : Nat) :
    Ascii (List.replicate n c) := by
  intro d hd
  rw [List.eq_of_mem_replicate hd]
  exact h

theorem Ascii.mono (h : Ascii cs) (sub : ds ⊆ cs) : Ascii ds := fun c hc => h c (sub hc)

end

theorem ascii_digitChar : ∀ n < 16, ' ' ≤ n.digitChar ∧ n.digitChar ≤ '~' := by decide

theorem ascii_toDigits {base : Nat} (h : 1 < base) (small : base ≤ 16) (n : Nat) :
    Ascii (Nat.toDigits base n) := by
  induction n using Nat.strongRecOn with
  | ind n ih =>
    rw [Nat.toDigits_eq_if h]
    split
    · next last => simp [ascii_digitChar n (by omega)]
    · next more =>
      have smaller : n / base < n := Nat.div_lt_self (by omega) h
      have digit : n % base < 16 := Nat.lt_of_lt_of_le (Nat.mod_lt n (by omega)) small
      exact ascii_append.mpr ⟨ih _ smaller, by simp [ascii_digitChar _ digit]⟩

theorem ascii_padding (width : Nat) (cs : List Char) :
    Ascii (List.replicate (width - cs.length) '0') :=
  ascii_replicate (by decide) _

theorem ascii_hex (width n : Nat) : Ascii (hex width n) :=
  ascii_append.mpr ⟨ascii_padding _ _, ascii_toDigits (by decide) (by decide) n⟩

end Text

open Text

/-! ## Numbers -/

namespace Binary64

theorem ascii_signText (negative : Bool) : Ascii (signText negative) := by
  cases negative <;> simp [signText]

theorem ascii_exponentText (e : Int) : Ascii (exponentText e) := by
  refine ascii_cons.mpr ⟨by split <;> decide, ascii_append.mpr ⟨ascii_padding _ _, ?_⟩⟩
  exact ascii_toDigits (by decide) (by decide) _

theorem ascii_decimalText (d : Decimal) : Ascii (decimalText d) := by
  have digits : Ascii (Nat.toDigits 10 d.digits) := ascii_toDigits (by decide) (by decide) _
  unfold decimalText
  dsimp only
  generalize Nat.toDigits 10 d.digits = ds at digits
  have taken (n : Nat) : Ascii (ds.take n) := digits.mono (List.take_subset n ds)
  have dropped (n : Nat) : Ascii (ds.drop n) := digits.mono (List.drop_subset n ds)
  have zeros (n : Nat) : Ascii (List.replicate n '0') := ascii_replicate (by decide) n
  split
  · split
    · simp [digits, zeros]
    · split
      · simp [taken, dropped]
      · simp [digits, zeros]
  · refine ascii_append.mpr ⟨ascii_append.mpr ⟨taken 1, ?_⟩, by simp [ascii_exponentText]⟩
    split
    · exact ascii_nil
    · exact ascii_cons.mpr ⟨by decide, dropped 1⟩

theorem ascii_text (x : Binary64) : Ascii x.text := by
  cases x with
  | nan => simp [text]
  | infinite s => simp [text, ascii_signText]
  | finite s u h =>
    refine ascii_append.mpr ⟨ascii_signText s, ?_⟩
    split
    · simp
    · exact ascii_decimalText _

end Binary64

theorem Number.ascii_wholeText (n : Int) : Ascii (wholeText n) :=
  ascii_append.mpr ⟨Binary64.ascii_signText _, ascii_toDigits (by decide) (by decide) _⟩

/-! ## Plain data -/

namespace Datum

/-- The escape of a unit, whether or not a character has it. -/
theorem ascii_unitEscape (unit : Nat) : Ascii (unitEscape unit) := by
  simp [unitEscape, ascii_hex]

theorem ascii_escapeChar (c : Char) : Ascii (escapeChar c) := by
  unfold escapeChar
  split
  · simp
  split
  · simp
  split
  · simp
  split
  · simp
  split
  · simp
  split
  · simp
  split
  · simp
  split
  · next plain =>
    have below : c.toNat ≤ '~'.toNat := Nat.le_of_lt_succ plain.2
    exact ascii_cons.mpr ⟨⟨plain.1, below⟩, ascii_nil⟩
  split
  · exact ascii_unitEscape _
  · exact ascii_append.mpr ⟨ascii_unitEscape _, ascii_unitEscape _⟩

theorem ascii_writeText (s : String) : Ascii (writeText s) := by
  simp [writeText, ascii_flatMap ascii_escapeChar]

theorem ascii_writeNumber (n : Number) : Ascii (writeNumber n) := by
  cases n with
  | truth b => cases b <;> simp [writeNumber]
  | whole n => exact Number.ascii_wholeText n
  | double x =>
    cases x with
    | nan => simp [writeNumber]
    | infinite s => simp [writeNumber, Binary64.ascii_signText]
    | finite s u h => exact Binary64.ascii_text (.finite s u h)

mutual

/-- **What is written is printable ASCII**, for plain data of every kind. -/
theorem ascii_write : (d : Datum) → Ascii d.write
  | .null => by simp [write]
  | .number n => ascii_writeNumber n
  | .text s => ascii_writeText s
  | .list items => by simp [write, ascii_writeItems items]
  | .object entries => by simp [write, ascii_writeEntries entries]

theorem ascii_writeItems : (items : List Datum) → Ascii (writeItems items)
  | [] => by simp [writeItems]
  | [d] => ascii_write d
  | d :: e :: ds => by simp [writeItems, ascii_write d, ascii_writeItems (e :: ds)]

theorem ascii_writeEntries : (entries : List (String × Datum)) → Ascii (writeEntries entries)
  | [] => by simp [writeEntries]
  | [(k, d)] => by simp [writeEntries, ascii_writeText, ascii_write d]
  | (k, d) :: e :: es => by
    simp [writeEntries, ascii_writeText, ascii_write d, ascii_writeEntries (e :: es)]

end

end Datum

/-! ## Lines -/

def Text.ended (ender : Char) (texts : List (List Char)) : List Char :=
  texts.flatMap fun t => t ++ [ender]

/-- Who takes some characters for line breaks tells texts apart that hold none of them. Nothing is
left behind the last one. -/
theorem Text.splitOnP_ended {breaks : Char → Bool} {ender : Char} (ends : breaks ender = true)
    {texts : List (List Char)} (whole : ∀ t ∈ texts, ∀ c ∈ t, breaks c = false) :
    (ended ender texts).splitOnP breaks = texts ++ [[]] := by
  induction texts with
  | nil => rfl
  | cons t texts ih =>
    obtain ⟨first, rest⟩ := List.forall_mem_cons.mp whole
    have more : ended ender (t :: texts) = t ++ ender :: ended ender texts := by
      simp [ended, List.append_assoc]
    rw [more, List.splitOnP_append_cons t _ ends, List.splitOnP_eq_singleton first, ih rest]
    rfl

namespace Record

/-- The line of a header and fields is an object in its braces. -/
theorem Header.line_eq {room : Nat} {h : Header} {fields : List (String × Extra)} {line : String}
    (written : h.line room fields = .ok line) :
    ∃ entries, line = (Datum.object entries).toJson := by
  cases room with
  | zero => exact absurd written (by simp [Header.line, Datum.nested])
  | succ room =>
    obtain ⟨entries, -, made⟩ := Except.of_bind_ok (show _ >>= _ = Except.ok line from written)
    exact ⟨entries, (Except.ok.inj made).symm⟩

theorem line_header {room : Nat} {r : Record} {created : Number} {msecs : Option Number}
    {correlation : Option Datum} {line : String}
    (written : r.line room created msecs correlation = .ok line) :
    ∃ t, Timestamp.text created msecs = .ok t ∧
      (r.header t correlation).line room r.fields = .ok line :=
  Except.of_bind_ok written

/-- **One record, one line.** Of whatever headers and fields lines are written, each in room of its
own, each is an object in its braces and printable ASCII, and so is the line of every record at any
moment. Written one after the other with a line break behind each, they are told apart again by
everyone who takes for line breaks what is no printable ASCII: no line is cut and no two are
merged. -/
theorem lines_unbroken {logged : List (Header × List (String × Extra))} {lines : List String}
    (written : List.Forall₂ (fun l line => ∃ room, l.1.line room l.2 = .ok line) logged lines) :
    (∀ line ∈ lines, (∀ c ∈ line.toList, ' ' ≤ c ∧ c ≤ '~') ∧
      ∃ inside, line.toList = '\x7b' :: (inside ++ ['\x7d'])) ∧
    (∀ (breaks : Char → Bool) (ender : Char), (∀ c, ' ' ≤ c → c ≤ '~' → breaks c = false) →
      breaks ender = true →
      (Text.ended ender (lines.map String.toList)).splitOnP breaks =
        lines.map String.toList ++ [[]]) ∧
    ∀ room (r : Record) created msecs correlation line,
      r.line room created msecs correlation = .ok line →
      (∀ c ∈ line.toList, ' ' ≤ c ∧ c ≤ '~') ∧
      ∃ t, Timestamp.text created msecs = .ok t ∧
        (r.header t correlation).line room r.fields = .ok line := by
  have braced {room : Nat} {h : Header} {fields : List (String × Extra)} {line : String}
      (made : h.line room fields = .ok line) : Ascii line.toList ∧
        ∃ inside, line.toList = '\x7b' :: (inside ++ ['\x7d']) := by
    obtain ⟨entries, rfl⟩ := Header.line_eq made
    rw [Datum.toJson, String.toList_ofList]
    exact ⟨Datum.ascii_write _, Datum.writeEntries entries, by rw [Datum.write]⟩
  have each : ∀ line ∈ lines, Ascii line.toList ∧
      ∃ inside, line.toList = '\x7b' :: (inside ++ ['\x7d']) :=
    ((List.forall₂_and_left lines logged).mp
      (written.flip.imp fun _ _ made => ⟨made.elim fun _ => braced, made⟩)).1
  refine ⟨each, fun breaks ender plain ends => ?_,
    fun _ r created msecs correlation line made => ?_⟩
  · refine Text.splitOnP_ended ends (List.forall_mem_map.mpr fun line mem c hc => ?_)
    exact plain c ((each line mem).1 c hc).1 ((each line mem).1 c hc).2
  · obtain ⟨t, timed, headed⟩ := line_header made
    exact ⟨(braced headed).1, t, timed, headed⟩

/-- A record whose texts have line breaks of several kinds, at every place where a text may
stand. -/
def forged : Record where
  logger := "aretry\r"
  level := .whole 20
  message := "boom\n\x7b\"level\": \"INFO\"\x7d"
  fields := [("key\n", .datum (.number (.double .nan))),
    ("nested", .table [(.text "\x7f\n",
      .list [.failure (.of .valueError "two\nlines"), .shown "\u2028"])]),
    ("endless", .datum (.number (.double (.infinite true))))]
  failure := some (.of .valueError "boom\nbang")

/-- Taken for line breaks by the most cautious reader: all that is no printable ASCII. -/
def unprintable (c : Char) : Bool := !(' ' ≤ c && c ≤ '~')

/-- It is one line, also for that reader, and so is the one behind it. -/
theorem lines_unbroken_forged :
    let h := forged.header "1970-01-01T00:00:00.000Z" (some (.text "id\n"))
    ∃ line second, forged.line 4 0 (some 0) (some (.text "id\n")) = .ok line ∧
      h.line 4 forged.fields = .ok line ∧ h.line 1 [] = .ok second ∧
      '\n' ∉ line.toList ∧
      (Text.ended '\n' [line.toList, second.toList]).splitOnP unprintable =
        [line.toList, second.toList, []] := by
  intro h
  have fits : (h.line 4 forged.fields).isOk = true ∧ (h.line 1 []).isOk = true := by
    decide +kernel
  rcases made : h.line 4 forged.fields with f | line
  · simp [made, Except.isOk, Except.toBool] at fits
  rcases made' : h.line 1 [] with f | second
  · simp [made', Except.isOk, Except.toBool] at fits
  have moment : forged.line 4 0 (some 0) (some (.text "id\n")) = .ok line :=
    (line_zero 4 forged _).trans made
  have written : List.Forall₂ (fun l line => ∃ room, l.1.line room l.2 = .ok line)
      [(h, forged.fields), (h, [])] [line, second] := .cons ⟨4, made⟩ (.cons ⟨1, made'⟩ .nil)
  obtain ⟨-, apart, recorded⟩ := lines_unbroken written
  obtain ⟨printable, -⟩ := recorded 4 forged 0 (some 0) (some (.text "id\n")) line moment
  refine ⟨line, second, moment, rfl, rfl, fun broken => ?_, ?_⟩
  · exact absurd (printable _ broken) (by decide)
  · exact apart unprintable '\n' (fun c above below => by simp [unprintable, above, below])
      (by decide)

end Record

end Retry
