import Retry.Proofs.Turns

/-!
# Reading the records of the loop

Who reads a log knows the records of the loop by the first words of their messages
(`Heading`), by the number of the attempt and the delay in their fields, and by the failure
attached. The first words name the operation, so the headings are those of one operation.

The loop makes a record of every phase. `opens_record` says that no record opens with the
words of another heading than that of its phase, whatever the operation is called and whatever
text follows; `attempt?_record`, `delay?_record` and `failure_record` say what the rest of it
shows.
-/

namespace Retry

/-- What a record of the loop is about. -/
inductive Heading where
  | executing
  | completed
  | failed
  | stopped
  | waiting
  | cancelled
  | retrying
  | retryFailed
  | exhausted
  deriving DecidableEq

namespace Heading

/-- The words before the name of the operation. -/
def lead : Heading → String
  | .executing => "Preparing to execute operation '"
  | .completed => "Operation '"
  | .failed => "Execution of operation '"
  | .stopped => "Backoff policy for operation '"
  | .waiting => "Operation '"
  | .cancelled => "Backoff for operation '"
  | .retrying => "Preparing to retry operation '"
  | .retryFailed => "Retry of operation '"
  | .exhausted => "Retry policy for operation '"

def tail : Heading → String
  | .executing => "'"
  | .completed => "' completed successfully"
  | .failed => "' failed; initiating the retry process"
  | .stopped => "' exhausted"
  | .waiting => "' failed due to '"
  | .cancelled => "' cancelled; aborting retries"
  | .retrying => "'"
  | .retryFailed => "' failed"
  | .exhausted => "' exhausted after "

/-- The first words of a message about a named operation. -/
def text (name : String) (h : Heading) : String := h.lead ++ name ++ h.tail

/-- Whether one of two texts opens with the other. -/
def comparable (a b : List Char) : Bool := a.isPrefixOf b || b.isPrefixOf a

def all : List Heading :=
  [.executing, .completed, .failed, .stopped, .waiting, .cancelled, .retrying, .retryFailed,
    .exhausted]

theorem mem_all (h : Heading) : h ∈ all := by
  cases h <;> decide

theorem apart (h k : Heading) (hne : h ≠ k) : comparable h.lead.toList k.lead.toList = false ∨
    h.lead = k.lead ∧ comparable h.tail.toList k.tail.toList = false := by
  have table : ∀ h ∈ all, ∀ k ∈ all, h ≠ k →
      comparable h.lead.toList k.lead.toList = false ∨
        h.lead = k.lead ∧ comparable h.tail.toList k.tail.toList = false := by
    decide +kernel
  exact table h h.mem_all k k.mem_all hne

/-- Texts that differ are no openings of each other, whatever follows. -/
theorem not_prefix_of_apart {a b : List Char} (h : comparable a b = false) (x y : List Char) :
    ¬ a ++ x <+: b ++ y := by
  intro opens
  have ha : a <+: b ++ y := (List.prefix_append a x).trans opens
  rw [comparable, Bool.or_eq_false_iff, ← Bool.not_eq_true, ← Bool.not_eq_true,
    List.isPrefixOf_iff_prefix, List.isPrefixOf_iff_prefix] at h
  exact (List.prefix_or_prefix_of_prefix ha (List.prefix_append b y)).elim h.1 h.2

theorem opens_text (name rest : String) (h k : Heading) :
    (h.text name).toList.isPrefixOf (k.text name ++ rest).toList = decide (k = h) := by
  rw [Bool.eq_iff_iff, List.isPrefixOf_iff_prefix, decide_eq_true_iff]
  simp only [text, String.toList_append, List.append_assoc]
  constructor
  · intro opens
    refine Decidable.byContradiction fun hne => ?_
    rcases apart h k (Ne.symm hne) with leads | ⟨leads, tails⟩
    · exact not_prefix_of_apart leads _ _ opens
    · rw [leads, List.prefix_append_right_inj, List.prefix_append_right_inj] at opens
      exact not_prefix_of_apart tails [] _ (by rwa [List.append_nil])
  · rintro rfl
    rw [List.prefix_append_right_inj, List.prefix_append_right_inj]
    exact List.prefix_append _ _

end Heading

/-! ## Records -/

namespace Record

/-- Whether the message of a record opens with the words of a heading. -/
def opens (name : String) (h : Heading) (r : Record) : Bool :=
  (h.text name).toList.isPrefixOf r.message.toList

/-- The plain value of a field of the loop, if the record has one. -/
def field? (field : String) (r : Record) : Option Datum :=
  match r.fields.lookup (mark ++ field) with
  | some (.datum d) => some d
  | _ => none

def attempt? (r : Record) : Option Attempt := r.field? "attempt"

def delay? (r : Record) : Option Datum := r.field? "delay"

/-- The number of the attempt that a record prepares, if it does. -/
def prepared? (name : String) (r : Record) : Option Attempt :=
  if r.opens name .executing || r.opens name .retrying then r.attempt? else none

/-- The attempt and the delay before the next one, if a record has a delay. -/
def delayed? (r : Record) : Option (Option Attempt × Datum) := r.delay?.map fun d => (r.attempt?, d)

/-- Whether a record tells how the loop ended the call. -/
def concludes (name : String) (r : Record) : Bool :=
  r.opens name .completed || r.opens name .exhausted || r.opens name .cancelled

end Record

namespace Phase

def prepares : Phase → Bool
  | .starting => true
  | .retrying => true
  | _ => false

/-- Whether the loop ends a call with a phase. -/
def concludes : Phase → Bool
  | .succeeded => true
  | .retrySucceeded => true
  | .exhausted => true
  | .waitCancelled => true
  | _ => false

def heading : Phase → Heading
  | .starting => .executing
  | .succeeded => .completed
  | .failed _ => .failed
  | .backoffStopped => .stopped
  | .waiting _ _ => .waiting
  | .waitCancelled => .cancelled
  | .retrying => .retrying
  | .retryFailed _ => .retryFailed
  | .retrySucceeded => .completed
  | .exhausted => .exhausted

variable {name : String} {attempt : Attempt} {phase : Phase} {message : String} {r : Record}

/-- The message of a phase opens with the words of its heading. -/
theorem message_eq (h : phase.message name attempt = .ok message) :
    ∃ rest, message = phase.heading.text name ++ rest := by
  have whole {a b : String} (h : a = b) : a = b ++ "" := by rw [h, String.append_empty]
  cases phase with
  | waiting error delay =>
    obtain ⟨reason, -, h⟩ := Except.of_bind_ok h
    obtain ⟨seconds, -, h⟩ := Except.of_bind_ok h
    obtain rfl := Except.ok.inj h
    exact ⟨reason ++ "'; backing off for " ++ seconds ++ "s", by
      simp [heading, Heading.text, Heading.lead, Heading.tail, toString, String.append_assoc]⟩
  | retrySucceeded =>
    obtain rfl := Except.ok.inj h
    refine ⟨" after retry", ?_⟩
    have tails : "' completed successfully after retry" =
        "' completed successfully" ++ " after retry" := by decide
    simp [heading, Heading.text, Heading.lead, Heading.tail, toString, String.append_assoc, tails]
  | exhausted =>
    obtain rfl := Except.ok.inj h
    exact ⟨attempt.shown ++ " attempts", by
      simp [heading, Heading.text, Heading.lead, Heading.tail, toString, String.append_assoc]⟩
  | starting => exact ⟨"", whole (Except.ok.inj h).symm⟩
  | succeeded => exact ⟨"", whole (Except.ok.inj h).symm⟩
  | failed f => exact ⟨"", whole (Except.ok.inj h).symm⟩
  | backoffStopped => exact ⟨"", whole (Except.ok.inj h).symm⟩
  | waitCancelled => exact ⟨"", whole (Except.ok.inj h).symm⟩
  | retrying => exact ⟨"", whole (Except.ok.inj h).symm⟩
  | retryFailed f => exact ⟨"", whole (Except.ok.inj h).symm⟩

theorem of_record (h : phase.record name attempt = .ok r) :
    ∃ message, phase.message name attempt = .ok message ∧
      r = .structured logger (.whole Level.debug) message
        (fields (.text name) attempt
          (phase.delay?.map fun delay => ("delay", Extra.datum (.ofNumber delay))).toList)
        phase.error? := by
  obtain ⟨message, said, h⟩ := Except.of_bind_ok h
  exact ⟨message, said, (Except.ok.inj h).symm⟩

section

variable (h : phase.record name attempt = .ok r)

include h

theorem logger_record : r.logger = logger := by
  obtain ⟨message, -, rfl⟩ := of_record h
  rfl

theorem attempt?_record : r.attempt? = some attempt := by
  obtain ⟨message, -, rfl⟩ := of_record h
  cases phase.delay? <;> rfl

theorem delay?_record : r.delay? = phase.delay?.map Datum.ofNumber := by
  obtain ⟨message, -, rfl⟩ := of_record h
  cases phase.delay? <;> rfl

theorem failure_record : r.failure = phase.error? := by
  obtain ⟨message, -, rfl⟩ := of_record h
  rfl

/-- A record opens with the words of its phase, and of no other heading. -/
theorem opens_record (k : Heading) : r.opens name k = decide (phase.heading = k) := by
  obtain ⟨message, hm, rfl⟩ := of_record h
  obtain ⟨rest, rfl⟩ := message_eq hm
  exact Heading.opens_text name rest k phase.heading

theorem prepared?_record :
    r.prepared? name = if phase.prepares then some attempt else none := by
  rw [Record.prepared?, opens_record h, opens_record h, attempt?_record h]
  cases phase <;> simp [heading, prepares]

theorem delayed?_record :
    r.delayed? = phase.delay?.map fun d => (some attempt, Datum.ofNumber d) := by
  rw [Record.delayed?, delay?_record h, attempt?_record h, Option.map_map]
  rfl

theorem concludes_record : r.concludes name = phase.concludes := by
  rw [Record.concludes, opens_record h, opens_record h, opens_record h]
  cases phase <;> simp [heading, concludes]

end

end Phase

end Retry
