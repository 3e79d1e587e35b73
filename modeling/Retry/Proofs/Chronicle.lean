import Retry.Proofs.Allowance
import Retry.Proofs.Headings

/-!
# The log of a call

The log of a call is what its journal has of the records of the loop (`Journal.log`). Read by
the headings of `Heading` and the fields, it tells what the call did (`Journal.Chronicled`):
which invocation a record prepares, which delay was granted and when it is waited for, which
failure the loop took, and that the backoff stopped.

Every part of a call adds a stretch to the log, and a stretch reads the same wherever it stands,
but for the numbers it begins at and the failures that are still without a record.

Main statements: `Chronicled.append` (stretches that follow on each other are one), and for every
kind of stretch that it is chronicled (`aside`, `said`, `attempt`, `stop`, `wait`).
-/

namespace Retry

/-! ## Reading the log -/

/-- The failure of an invocation, if the loop takes it. -/
def fault? {α : Type} : Except Failure α → Option Failure
  | .error f => if f.ordinary then some f else none
  | .ok _ => none

namespace Moment

variable {ε β α : Type}

def entry? : Moment ε β α → Option Record
  | .recorded r => if r.logger = Phase.logger then some r else none
  | _ => none

/-- The delay, if the backoff gave one that ends the retries. -/
def stop? : Moment ε β α → Option Delay
  | .drawn (.ok d) _ => if Backoff.isStop d then some d else none
  | _ => none

/-- A step that is none of the operation, no wait, no record and no delay. -/
def Aside : Moment ε β α → Prop
  | .asked _ _ _ => True
  | .drawn (.error _) _ => True
  | .told _ _ _ => True
  | _ => False

end Moment

namespace Journal

variable {ε β α : Type}

abbrev log (j : Journal ε β α) : List Record := pick Moment.entry? j

/-- The delays of the backoff that end the retries. -/
abbrev stops (j : Journal ε β α) : List Delay := pick Moment.stop? j

end Journal

/-- A record stands before the step that it is about: the one that prepares an invocation before
the invocation, the one with a delay before the wait. -/
def Moment.Foretold {ε β α : Type} (name : String) (before : Journal ε β α) :
    Moment ε β α → Prop
  | .invoked _ => (before.log.filterMap (Record.prepared? name)).length = before.endings.length + 1
  | m => m.isWait = true → (before.log.filterMap Record.delayed?).length = before.waits + 1

/-- The log tells what was done, of a stretch that begins after `n` invocations and `g` delays
that were granted. Before it the failures `due` have no record yet, and after it `left`. -/
structure Journal.Chronicled {ε β α : Type} (name : String) (n g : Nat) (due left : List Failure)
    (j : Journal ε β α) : Prop where
  /-- Every invocation has a record that prepares it, with its number. -/
  prepared : j.log.filterMap (Record.prepared? name) =
    (List.range' (n + 1) j.endings.length).map .nth
  /-- Every delay that was granted has a record, with the number of the delay for its attempt. -/
  delayed : j.log.filterMap Record.delayed? =
    (j.granted.zipIdx (g + 1)).map fun (d, i) => (some (.nth i), .ofNumber d)
  /-- The numbers of the attempts never go back. -/
  ordered : ∃ numbers : List Nat, j.log.map Record.attempt? = numbers.map (some <| .nth ·) ∧
    numbers.Pairwise (· ≤ ·) ∧ ∀ a ∈ numbers, n ≤ a ∧ a ≤ n + j.endings.length
  /-- Every failure that the loop took is attached to a record of its own. -/
  attached : due ++ j.endings.filterMap fault? = j.log.filterMap Record.failure ++ left
  /-- A record says that the backoff stopped wherever it did. -/
  stopped : (j.log.filter (Record.opens name .stopped)).length = j.stops.length
  /-- Records come before what they are about. -/
  foretold : j.Each (Moment.Foretold name)

namespace Journal

variable {ε β α : Type} {name : String} {n g : Nat} {due owed left : List Failure}
  {j l : Journal ε β α}

theorem Each.mono {P Q : Journal ε β α → Moment ε β α → Prop} (h : j.Each P)
    (imp : ∀ before m, P before m → Q before m) : j.Each Q :=
  fun before m after hj => imp before m (h before m after hj)

theorem log_append (j l : Journal ε β α) : (j ++ l).log = j.log ++ l.log := pick_append ..

theorem endings_append (j l : Journal ε β α) : (j ++ l).endings = j.endings ++ l.endings :=
  pick_append ..

theorem granted_append (j l : Journal ε β α) : (j ++ l).granted = j.granted ++ l.granted :=
  pick_append ..

theorem stops_append (j l : Journal ε β α) : (j ++ l).stops = j.stops ++ l.stops :=
  pick_append ..

/-- **Stretches of a log.** What follows goes on counting where the stretch before it ends, if
that has waited for its delays. -/
theorem Chronicled.append (h : Chronicled name n g due owed j)
    (hl : Chronicled name (n + j.endings.length) (g + j.granted.length) owed left l)
    (level : j.waits = j.granted.length) : Chronicled name n g due left (j ++ l) where
  prepared := by
    rw [log_append, endings_append, List.filterMap_append, h.prepared, hl.prepared,
      List.length_append, ← List.map_append,
      show n + j.endings.length + 1 = n + 1 + 1 * j.endings.length by omega, List.range'_append]
  delayed := by
    rw [log_append, granted_append, List.filterMap_append, h.delayed, hl.delayed,
      List.zipIdx_append, List.map_append,
      show g + 1 + j.granted.length = g + j.granted.length + 1 by omega]
  ordered := by
    obtain ⟨front, hfront, sorted, within⟩ := h.ordered
    obtain ⟨back, hback, sorted', within'⟩ := hl.ordered
    refine ⟨front ++ back, by rw [log_append, List.map_append, hfront, hback, List.map_append], ?_,
      fun a ha => ?_⟩
    · refine List.pairwise_append.mpr ⟨sorted, sorted', fun a ha b hb => ?_⟩
      exact Nat.le_trans (within a ha).2 (within' b hb).1
    · rw [endings_append, List.length_append]
      obtain ha | ha := List.mem_append.mp ha
      · have := within a ha
        omega
      · have := within' a ha
        omega
  attached := by
    rw [log_append, endings_append, List.filterMap_append, List.filterMap_append,
      ← List.append_assoc, h.attached, List.append_assoc, hl.attached, List.append_assoc]
  stopped := by
    rw [log_append, stops_append, List.filter_append, List.length_append, h.stopped, hl.stopped,
      List.length_append]
  foretold := by
    have prepared := congrArg List.length h.prepared
    have delayed := congrArg List.length h.delayed
    simp only [List.length_map, List.length_range', List.length_zipIdx] at prepared delayed
    have waited (before : Journal ε β α)
        (told : (before.log.filterMap Record.delayed?).length = before.waits + 1) :
        ((j ++ before).log.filterMap Record.delayed?).length = (j ++ before).waits + 1 := by
      rw [log_append, waits_append, List.filterMap_append, List.length_append]
      omega
    refine each_append.mpr ⟨h.foretold, hl.foretold.mono fun before m told => ?_⟩
    cases m with
    | invoked ending =>
      rw [Moment.Foretold] at told ⊢
      rw [log_append, endings_append, List.filterMap_append, List.length_append, List.length_append]
      omega
    | slept d c => exact fun wait => waited before (told wait)
    | barred => exact fun wait => waited before (told wait)
    | _ => exact fun wait => absurd wait Bool.false_ne_true

/-! ## Stretches -/

theorem read_aside (h : ∀ m ∈ l, m.Aside) :
    l.log = [] ∧ l.endings = [] ∧ l.granted = [] ∧ l.stops = [] ∧ l.waits = 0 := by
  have still (m : Moment ε β α) (hm : m ∈ l) : m.entry? = none ∧ m.ending? = none ∧
      m.granted? = none ∧ m.stop? = none ∧ ¬ m.isWait = true := by
    have aside := h m hm
    rcases m with _ | _ | _ | ⟨_ | _⟩ | _ | _ | _ <;>
      first | exact ⟨rfl, rfl, rfl, rfl, Bool.false_ne_true⟩ | exact aside.elim
  exact ⟨pick_of_none _ fun m hm => (still m hm).1, pick_of_none _ fun m hm => (still m hm).2.1,
    pick_of_none _ fun m hm => (still m hm).2.2.1, pick_of_none _ fun m hm => (still m hm).2.2.2.1,
    List.countP_eq_zero.mpr fun m hm => (still m hm).2.2.2.2⟩

theorem foretold_aside {m : Moment ε β α} (h : m.Aside) (before : Journal ε β α) :
    m.Foretold name before := by
  cases m with
  | invoked => exact h.elim
  | slept => exact h.elim
  | barred => exact h.elim
  | _ => exact fun wait => absurd wait Bool.false_ne_true

@[simp] theorem stops_moments (name : String) (attempt : Attempt) (phase : Phase) :
    stops (phase.moments name attempt : Journal ε β α) = [] := pick_moments _ (fun _ => rfl) ..

theorem Chronicled.aside (h : ∀ m ∈ l, m.Aside) : Chronicled name n g due due l := by
  obtain ⟨log, ends, granted, stops, -⟩ := read_aside h
  exact ⟨by simp [log, ends], by simp [log, granted], ⟨[], by simp [log]⟩, by simp [log, ends],
    by simp [log, stops], each_of_forall fun m hm => foretold_aside (h m hm)⟩

/-- What is put down of a phase without a delay is its record. -/
theorem exists_moments (phase : Phase) (a : Attempt) (timeless : phase.delay? = none) :
    ∃ r, phase.record name a = .ok r ∧ (phase.moments name a : Journal ε β α) = [.recorded r] := by
  obtain ⟨r, word⟩ := Phase.record_isOk name a timeless
  exact ⟨r, word, by simp only [Phase.moments, word]⟩

/-- A phase after an attempt. If a failure is due, the record has it. -/
theorem Chronicled.said {phase : Phase} (plain : phase.prepares = false)
    (timeless : phase.delay? = none) (going : phase.heading ≠ .stopped) :
    Chronicled name n g phase.error?.toList [] (phase.moments name (.nth n) : Journal ε β α) := by
  obtain ⟨r, word, moments⟩ := exists_moments (ε := ε) (β := β) (α := α) phase (.nth n) timeless
  have kept := Phase.logger_record word
  rw [moments]
  refine ⟨?_, ?_, ⟨[n], ?_, by simp, by simp⟩, ?_, ?_, ?_⟩
  · simp [Moment.entry?, kept, Phase.prepared?_record word, plain, Moment.ending?]
  · simp [Moment.entry?, kept, Phase.delayed?_record word, timeless, Moment.granted?]
  · simp [Moment.entry?, kept, Phase.attempt?_record word]
  · cases he : phase.error? <;>
      simp [Moment.entry?, kept, Phase.failure_record word, Moment.ending?, he]
  · simp [Moment.entry?, kept, Phase.opens_record word, going, Moment.stop?]
  · simp [Moment.Foretold, Moment.isWait]

/-- An attempt is prepared, and then the operation is invoked. Its failure is due after that, if it
is one that the loop takes. -/
theorem Chronicled.attempt {phase : Phase} {ending : Except Failure α} {more : Journal ε β α}
    (prepares : phase.prepares = true) (h : ∀ m ∈ more, m.Aside) :
    Chronicled name n g [] (fault? ending).toList
      (phase.moments name (.nth (n + 1)) ++ (more ++ [.invoked ending])) := by
  have plain : phase.delay? = none ∧ phase.error? = none ∧ phase.heading ≠ .stopped := by
    cases phase <;> simp_all [Phase.prepares, Phase.delay?, Phase.error?, Phase.heading]
  obtain ⟨timeless, faultless, going⟩ := plain
  obtain ⟨r, word, moments⟩ :=
    exists_moments (ε := ε) (β := β) (α := α) phase (.nth (n + 1)) timeless
  have kept := Phase.logger_record word
  obtain ⟨log, ends, granted, stops, -⟩ := read_aside h
  rw [moments]
  refine ⟨?_, ?_, ⟨[n + 1], ?_, by simp, ?_⟩, ?_, ?_, ?_⟩
  · simp [log, ends, kept, Moment.entry?, Moment.ending?, Phase.prepared?_record word, prepares]
  · simp [log, granted, kept, Moment.entry?, Moment.granted?, Phase.delayed?_record word, timeless]
  · simp [log, kept, Moment.entry?, Phase.attempt?_record word]
  · simp [ends, Moment.ending?]
  · cases hf : fault? ending <;>
      simp [log, ends, kept, Moment.entry?, Moment.ending?, Phase.failure_record word, faultless,
        hf]
  · simp [log, stops, kept, Moment.entry?, Moment.stop?, Phase.opens_record word, going]
  · refine each_append.mpr ⟨by simp [Moment.Foretold, Moment.isWait], ?_⟩
    refine each_append.mpr ⟨each_of_forall fun m hm _ => foretold_aside (h m hm) _, ?_⟩
    simp [Moment.Foretold, log, ends, kept, Moment.entry?, Moment.ending?,
      Phase.prepared?_record word, prepares]

theorem Chronicled.stop {d : Delay} {f : Failure} {e : ε} {b : β} (stop : Backoff.isStop d = true) :
    Chronicled name n g due due ([.asked f (.ok true) e, .drawn (.ok d) b] ++
      Phase.backoffStopped.moments name (.nth n) : Journal ε β α) := by
  obtain ⟨r, word, moments⟩ :=
    exists_moments (ε := ε) (β := β) (α := α) .backoffStopped (.nth n) rfl
  have kept := Phase.logger_record word
  rw [moments]
  refine ⟨?_, ?_, ⟨[n], ?_, by simp, by simp⟩, ?_, ?_, ?_⟩
  · simp [Moment.entry?, kept, Phase.prepared?_record word, Phase.prepares, Moment.ending?]
  · simp [Moment.entry?, kept, Phase.delayed?_record word, Phase.delay?, Moment.granted?, stop]
  · simp [Moment.entry?, kept, Phase.attempt?_record word]
  · simp [Moment.entry?, kept, Phase.failure_record word, Phase.error?, Moment.ending?]
  · simp [Moment.entry?, kept, Phase.opens_record word, Phase.heading, Moment.stop?, stop]
  · simp [Moment.Foretold, Moment.isWait]

theorem read_paused {d : Delay} {cause : Except Failure (Option Failure)} (h : Paused d cause l) :
    l.log = [] ∧ l.endings = [] ∧ l.granted = [] ∧ l.stops = [] := by
  have noted : ∀ m ∈ (Wait.moments d : Journal ε β α), m.entry? = none := by
    intro m hm
    obtain ⟨r, note, rfl⟩ := Wait.moments_recorded d m hm
    exact if_neg (by rw [Wait.logger_note note]; decide)
  have wait := h.ofWaitFor
  refine ⟨pick_of_none _ ?_, endings_of_wait fun m hm => (wait m hm).ofWait, pick_of_none _ ?_,
    pick_of_none _ ?_⟩
  · cases h with
    | unasked => simp
    | barred => exact List.forall_mem_cons.mpr ⟨rfl, noted⟩
    | slept => exact List.forall_mem_cons.mpr ⟨rfl, by simp⟩
    | cancelled => exact List.forall_mem_cons.mpr ⟨rfl, noted⟩
  · intro m hm
    have hw := wait m hm
    cases m <;> first | rfl | exact hw.elim
  · intro m hm
    have hw := wait m hm
    cases m <;> first | rfl | exact hw.elim

/-- A pause comes after the record of its delay, if nothing else is waited for. -/
theorem foretold_paused {d : Delay} {cause : Except Failure (Option Failure)}
    (h : Paused d cause l) {front : Journal ε β α}
    (due : (front.log.filterMap Record.delayed?).length = front.waits + 1) :
    l.Each fun before => Moment.Foretold name (front ++ before) := by
  have noted (first : Moment ε β α) : (Wait.moments d : Journal ε β α).Each fun before =>
      Moment.Foretold name (front ++ (first :: before)) := by
    refine each_of_forall fun m hm before => ?_
    obtain ⟨r, -, rfl⟩ := Wait.moments_recorded d m hm
    exact fun wait => absurd wait Bool.false_ne_true
  have first {m : Moment ε β α} (wait : m.isWait = true) :
      m.Foretold name (front ++ []) := by
    rw [List.append_nil]
    cases m with
    | slept => exact fun _ => due
    | barred => exact fun _ => due
    | _ => exact absurd wait Bool.false_ne_true
  cases h with
  | unasked => exact each_nil
  | barred => exact each_cons.mpr ⟨first rfl, noted _⟩
  | slept => exact each_cons.mpr ⟨first rfl, each_nil⟩
  | cancelled => exact each_cons.mpr ⟨first rfl, noted _⟩

/-- Policy and backoff grant a delay, and it is waited for. The attempt has the number of the
delay. -/
theorem Chronicled.wait {d : Delay} {f f' : Failure} {e : ε} {b : β} {r : Record}
    {cause : Except Failure (Option Failure)} (go : Backoff.isStop d = false)
    (word : (Phase.waiting f d).record name (.nth (g + 1)) = .ok r) (down : Paused d cause l) :
    Chronicled name (g + 1) g due due
      ([.asked f' (.ok true) e, .drawn (.ok d) b, .recorded r] ++ l) := by
  have kept := Phase.logger_record word
  obtain ⟨log, ends, granted, stops⟩ := read_paused down
  refine ⟨?_, ?_, ⟨[g + 1], ?_, by simp, by simp⟩, ?_, ?_, ?_⟩
  · simp [log, ends, kept, Moment.entry?, Moment.ending?, Phase.prepared?_record word,
      Phase.prepares]
  · simp [log, granted, kept, Moment.entry?, Moment.granted?, Phase.delayed?_record word,
      Phase.delay?, go]
  · simp [log, kept, Moment.entry?, Phase.attempt?_record word]
  · simp [log, ends, kept, Moment.entry?, Moment.ending?, Phase.failure_record word, Phase.error?]
  · simp [log, stops, kept, Moment.entry?, Moment.stop?, Phase.opens_record word, Phase.heading, go]
  · refine each_append.mpr ⟨by simp [Moment.Foretold, Moment.isWait], foretold_paused down ?_⟩
    simp [Moment.entry?, kept, Phase.delayed?_record word, Phase.delay?, Moment.isWait]

end Journal

end Retry
