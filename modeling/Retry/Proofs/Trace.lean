import Retry.Proofs.Chronicle

/-!
# The log traces the call

Between two turns a call has made one attempt more than it was granted delays, it has waited for
each of them, and no record says yet that the loop ended it (`Running`). Where it is over, the last
record is that of how the loop ended it (`Phase.ending`), and it is the only one of that kind
(`Closed`).

The phase before a wait is the only one that may have no record: its text holds the text of the
last failure and the delay. A call is `Worded` if both can be written wherever they are needed.

Main statement: `log_traces_run` (for both modes, any policy and backoff, and a listener that only
observes).
-/

namespace Retry

/-- The phase of the last record of a call that the loop ended after `n` invocations. -/
def Phase.ending {α : Type} (n : Nat) : Ending α → Phase
  | .returned _ => if n = 1 then .succeeded else .retrySucceeded
  | .exhausted _ => .exhausted
  | .aborted _ => .waitCancelled

/-- A last record prepares nothing, and it has neither a delay nor a failure. -/
theorem Phase.ending_plain {α : Type} (n : Nat) (e : Ending α) :
    (ending n e).prepares = false ∧ (ending n e).delay? = none ∧ (ending n e).error? = none ∧
      (ending n e).heading ≠ .stopped ∧ (ending n e).concludes = true := by
  cases e with
  | returned x =>
    by_cases once : n = 1 <;>
      simp [ending, once, prepares, delay?, error?, heading, concludes]
  | exhausted f => simp [ending, prepares, delay?, error?, heading, concludes]
  | aborted f => simp [ending, prepares, delay?, error?, heading, concludes]

theorem Phase.record_waiting {name : String} {a : Attempt} {f : Failure} {d : Delay}
    (text : ∃ t, f.text = .ok t) (seconds : ∃ t, d.seconds = .ok t) :
    ∃ r, (Phase.waiting f d).record name a = .ok r := by
  obtain ⟨t, ht⟩ := text
  obtain ⟨s, hs⟩ := seconds
  simp only [record, message, ht, hs]
  exact ⟨_, rfl⟩

namespace Journal

variable {ε β α : Type} {name : String} {n g : Nat} {due left : List Failure}
  {j k l : Journal ε β α}

/-- The failures that the loop took and the delays that it waited for can be written. -/
def Worded (j : Journal ε β α) : Prop :=
  (∀ f, .error f ∈ j.endings → f.ordinary = true → ∃ t, f.text = .ok t) ∧
    ∀ d ∈ j.granted, ∃ t, d.seconds = .ok t

theorem Worded.of_append (h : (j ++ l).Worded) : j.Worded := by
  obtain ⟨texts, seconds⟩ := h
  rw [endings_append] at texts
  rw [granted_append] at seconds
  exact ⟨fun f hf => texts f (List.mem_append_left _ hf),
    fun d hd => seconds d (List.mem_append_left _ hd)⟩

theorem Worded.of_added {P : Moment ε β α → Prop} (h : k.Worded) (added : Added P j k) :
    j.Worded := by
  obtain ⟨l, rfl, -⟩ := added
  exact h.of_append

/-- No record says that the loop ended the call. -/
def Unconcluded (name : String) (j : Journal ε β α) : Prop :=
  ∀ r ∈ j.log, r.concludes name = false

theorem unconcluded_append :
    (j ++ l).Unconcluded name ↔ j.Unconcluded name ∧ l.Unconcluded name := by
  rw [Unconcluded, log_append]
  exact List.forall_mem_append

theorem unconcluded_of_log (h : l.log = []) : l.Unconcluded name := by
  rw [Unconcluded, h]
  exact List.forall_mem_nil _

theorem unconcluded_moments {phase : Phase} (timeless : phase.delay? = none)
    (going : phase.concludes = false) (a : Attempt) :
    (phase.moments name a : Journal ε β α).Unconcluded name := by
  obtain ⟨r, word, moments⟩ := exists_moments (ε := ε) (β := β) (α := α) phase a timeless
  rw [moments]
  simp [Unconcluded, Moment.entry?, Phase.logger_record word, Phase.concludes_record word, going]

/-- What the log tells of a call that goes on: it made `n` invocations, and it was granted `g`
delays and waited for them. -/
structure Told (name : String) (n g : Nat) (left : List Failure) (j : Journal ε β α) : Prop where
  chronicled : Chronicled name 0 0 [] left j
  invoked : j.endings.length = n
  granted : j.granted.length = g
  waited : j.waits = g
  going : j.stops = []
  unconcluded : j.Unconcluded name

namespace Told

theorem nil : Told name 0 0 [] ([] : Journal ε β α) :=
  ⟨.aside (by simp), rfl, rfl, rfl, rfl, unconcluded_of_log rfl⟩

theorem chronicle (h : Told name n g due j) (hl : Chronicled name n g due left l) :
    Chronicled name 0 0 [] left (j ++ l) := by
  refine h.chronicled.append ?_ (h.waited.trans h.granted.symm)
  rwa [h.invoked, h.granted, Nat.zero_add, Nat.zero_add]

theorem grow (h : Told name n g due j) (hl : Chronicled name n g due left l)
    (level : l.waits = l.granted.length) (going : l.stops = [])
    (unconcluded : l.Unconcluded name) :
    Told name (n + l.endings.length) (g + l.granted.length) left (j ++ l) where
  chronicled := h.chronicle hl
  invoked := by rw [endings_append, List.length_append, h.invoked]
  granted := by rw [granted_append, List.length_append, h.granted]
  waited := by rw [waits_append, h.waited, level]
  going := by rw [stops_append, h.going, going, List.nil_append]
  unconcluded := unconcluded_append.mpr ⟨h.unconcluded, unconcluded⟩

theorem aside (h : Told name n g due j) (hl : ∀ m ∈ l, m.Aside) : Told name n g due (j ++ l) := by
  obtain ⟨log, ends, granted, stops, waits⟩ := read_aside hl
  have grown := h.grow (.aside hl) (by simp [waits, granted]) stops (unconcluded_of_log log)
  simpa [ends, granted] using grown

theorem heard {notice left : Notice ε α} {r : Except Failure Unit} (h : Told name n g due j)
    (hk : k = j ++ [.told notice r left]) : Told name n g due k :=
  hk ▸ h.aside (by simp [Moment.Aside])

theorem said (phase : Phase) (h : Told name n g phase.error?.toList j)
    (plain : phase.prepares = false) (timeless : phase.delay? = none)
    (going : phase.heading ≠ .stopped) (more : phase.concludes = false) :
    Told name n g [] (j ++ phase.moments name (.nth n)) := by
  have grown := h.grow (.said plain timeless going) (by simp) (by simp)
    (unconcluded_moments timeless more _)
  simpa using grown

theorem attempt (phase : Phase) {ending : Except Failure α} (h : Told name n g [] j)
    (prepares : phase.prepares = true) (hl : ∀ m ∈ l, m.Aside) :
    Told name (n + 1) g (fault? ending).toList
      (j ++ (phase.moments name (.nth (n + 1)) ++ (l ++ [.invoked ending]))) := by
  obtain ⟨log, ends, granted, stops, waits⟩ := read_aside hl
  have plain : phase.delay? = none ∧ phase.concludes = false := by
    cases phase <;> simp_all [Phase.prepares, Phase.delay?, Phase.concludes]
  have rest : (l ++ [Moment.invoked ending]).Unconcluded name :=
    unconcluded_of_log (by simp [log, Moment.entry?])
  have silent := unconcluded_append.mpr ⟨unconcluded_moments plain.1 plain.2 (.nth (n + 1)), rest⟩
  have grown := h.grow (.attempt prepares hl)
    (by simp [waits, granted, Moment.isWait, Moment.granted?]) (by simp [stops, Moment.stop?])
    silent
  simpa [ends, granted, Moment.ending?, Moment.granted?] using grown

/-- A wait. If it passes or is cancelled, nothing is left to be waited for. -/
theorem wait {d : Delay} {f f' : Failure} {e : ε} {b : β} {r : Record}
    {cause : Except Failure (Option Failure)} (h : Told name (g + 1) g [] j)
    (go : Backoff.isStop d = false)
    (word : (Phase.waiting f d).record name (.nth (g + 1)) = .ok r) (down : Paused d cause l)
    (hk : k = j ++ ([.asked f' (.ok true) e, .drawn (.ok d) b, .recorded r] ++ l)) :
    Chronicled name 0 0 [] [] k ∧ k.stops = [] ∧ k.Unconcluded name ∧
      ∀ answer, cause = .ok answer → Told name (g + 1) (g + 1) [] k := by
  have stretch : Chronicled name (g + 1) g [] []
      ([.asked f' (.ok true) e, .drawn (.ok d) b, .recorded r] ++ l) := .wait go word down
  obtain ⟨log, ends, granted, stops⟩ := read_paused down
  obtain ⟨-, one⟩ := waits_paused down
  subst hk
  generalize hs : ([.asked f' (.ok true) e, .drawn (.ok d) b, .recorded r] ++ l : Journal ε β α) =
    s at stretch
  have silent : s.Unconcluded name := by
    simp [← hs, Unconcluded, log, Moment.entry?, Phase.logger_record word,
      Phase.concludes_record word, Phase.concludes]
  have going : s.stops = [] := by simp [← hs, stops, Moment.stop?, go]
  have length : s.endings.length = 0 ∧ s.granted.length = 1 ∧ s.waits = l.waits := by
    simp [← hs, ends, granted, Moment.ending?, Moment.granted?, Moment.isWait, go]
  obtain ⟨ended, given, waited⟩ := length
  refine ⟨h.chronicle stretch, by rw [stops_append, h.going, going, List.nil_append],
    unconcluded_append.mpr ⟨h.unconcluded, silent⟩, fun answer answered => ?_⟩
  have grown := h.grow stretch (by rw [waited, given, one answer answered]) going silent
  rwa [ended, given] at grown

end Told

/-! ## How a call ends -/

/-- What the log tells of a call that is over, or out of turns. -/
structure Closed (name : String) (r : Except Failure (Option (Ending α))) (j : Journal ε β α) :
    Prop where
  chronicled : Chronicled name 0 0 [] [] j
  /-- The last record is that of how the loop ended the call, and no other one is. -/
  terminal : ∀ e, r = .ok (some e) → ∃ before last, j.log = before ++ [last] ∧
    (Phase.ending j.endings.length e).record name (.nth j.endings.length) = .ok last ∧
    ∀ r ∈ before, r.concludes name = false
  unconcluded : (∀ e, r ≠ .ok (some e)) → j.Unconcluded name
  counted : ∀ error, r = .ok (some (.exhausted error)) → error.attempts? = some j.endings.length
  /-- The backoff stops only where the retries run out, and right before it is said. -/
  stopped : j.stops = [] ∨ ∃ d error before stop last, j.stops = [d] ∧
    r = .ok (some (.exhausted error)) ∧ j.log = before ++ [stop, last] ∧
    Phase.backoffStopped.record name (.nth j.endings.length) = .ok stop

namespace Closed

variable {r : Except Failure (Option (Ending α))}

theorem of_going (chronicled : Chronicled name 0 0 [] [] j) (going : j.stops = [])
    (unconcluded : j.Unconcluded name) (more : ∀ e, r ≠ .ok (some e)) : Closed name r j where
  chronicled := chronicled
  terminal := fun e he => absurd he (more e)
  unconcluded := fun _ => unconcluded
  counted := fun _ he => absurd he (more _)
  stopped := .inl going

theorem of_told (h : Told name n g [] j) (more : ∀ e, r ≠ .ok (some e)) : Closed name r j :=
  of_going h.chronicled h.going h.unconcluded more

/-- The loop ended the call, but the retries did not run out. -/
theorem of_last {e : Ending α} (h : Told name n g [] j) (he : ∀ error, e ≠ .exhausted error)
    (hk : k = j ++ (Phase.ending n e).moments name (.nth n)) : Closed name (.ok (some e)) k := by
  obtain ⟨prepares, timeless, faultless, going, -⟩ := Phase.ending_plain n e
  obtain ⟨last, word, moments⟩ :=
    exists_moments (ε := ε) (β := β) (α := α) (Phase.ending n e) (.nth n) timeless
  have stretch : Chronicled name n g (Phase.ending n e).error?.toList []
      ((Phase.ending n e).moments name (.nth n) : Journal ε β α) := .said prepares timeless going
  rw [faultless] at stretch
  have ends : k.endings.length = n := by simp [hk, h.invoked]
  refine ⟨hk ▸ h.chronicle stretch, ?_, fun none => absurd rfl (none e), ?_, .inl ?_⟩
  · rintro _ ⟨⟩
    refine ⟨j.log, last, ?_, ends ▸ word, h.unconcluded⟩
    rw [hk, moments, log_append]
    simp [Moment.entry?, Phase.logger_record word]
  · rintro error ⟨⟩
    exact absurd rfl (he error)
  · simp [hk, h.going]

/-- How a failure of a collaborator leaves the call makes no difference to the log. -/
theorem mapError (h : Closed name r j) (leaving : Failure → Failure) :
    Closed name (r.mapError leaving) j := by
  cases r with
  | ok e => exact h
  | error f =>
    refine .of_going h.chronicled ?_ (h.unconcluded (by simp)) (by simp [Except.mapError])
    obtain going | ⟨_, _, _, _, _, -, ended, -⟩ := h.stopped
    · exact going
    · exact absurd ended (by simp)

theorem stopped_iff (h : Closed name r j) :
    j.stops = [] ∧ (∀ r ∈ j.log, r.opens name .stopped = false) ∨
      ∃ d error before stop last, j.stops = [d] ∧ r = .ok (some (.exhausted error)) ∧
        j.log = before ++ [stop, last] ∧
        Phase.backoffStopped.record name (.nth j.endings.length) = .ok stop ∧
        ∀ r ∈ before, r.opens name .stopped = false := by
  have count := h.chronicled.stopped
  obtain going | ⟨d, error, before, stop, last, stops, ended, log, word⟩ := h.stopped
  · rw [going, List.length_nil, List.length_eq_zero_iff, List.filter_eq_nil_iff] at count
    exact .inl ⟨going, fun r hr => Bool.eq_false_iff.mpr (count r hr)⟩
  · refine .inr ⟨d, error, before, stop, last, stops, ended, log, word, ?_⟩
    have tells : stop.opens name .stopped = true := by
      rw [Phase.opens_record word]
      rfl
    rw [log, stops, List.filter_append, List.length_append, List.filter_cons_of_pos tells,
      List.length_cons, List.length_singleton] at count
    have none : (before.filter (Record.opens name .stopped)).length = 0 := by omega
    rw [List.length_eq_zero_iff, List.filter_eq_nil_iff] at none
    exact fun r hr => Bool.eq_false_iff.mpr (none r hr)

end Closed

/-- The retries ran out after `n` invocations. Of that the log says nothing yet, but that the
backoff stopped, if it did. -/
structure RunOut (name : String) (n g : Nat) (j : Journal ε β α) : Prop where
  chronicled : Chronicled name 0 0 [] [] j
  invoked : j.endings.length = n
  granted : j.granted.length = g
  waited : j.waits = g
  unconcluded : j.Unconcluded name
  stopped : j.stops = [] ∨ ∃ d before stop, j.stops = [d] ∧ j.log = before ++ [stop] ∧
    Phase.backoffStopped.record name (.nth n) = .ok stop

namespace RunOut

theorem of_told (h : Told name n g [] j) : RunOut name n g j :=
  ⟨h.chronicled, h.invoked, h.granted, h.waited, h.unconcluded, .inl h.going⟩

theorem of_stop {d : Delay} {f : Failure} {e : ε} {b : β} (h : Told name n g [] j)
    (stop : Backoff.isStop d = true)
    (hk : k = j ++ ([.asked f (.ok true) e, .drawn (.ok d) b] ++
      Phase.backoffStopped.moments name (.nth n))) : RunOut name n g k := by
  have stretch : Chronicled name n g [] [] ([.asked f (.ok true) e, .drawn (.ok d) b] ++
      Phase.backoffStopped.moments name (.nth n) : Journal ε β α) := .stop stop
  obtain ⟨r, word, moments⟩ :=
    exists_moments (ε := ε) (β := β) (α := α) .backoffStopped (.nth n) rfl
  refine ⟨hk ▸ h.chronicle stretch, ?_, ?_, ?_, ?_, .inr ⟨d, j.log, r, ?_, ?_, word⟩⟩
  · simp [hk, h.invoked, Moment.ending?]
  · simp [hk, h.granted, Moment.granted?, stop]
  · simp [hk, h.waited, Moment.isWait]
  · rw [hk, moments]
    refine unconcluded_append.mpr ⟨h.unconcluded, ?_⟩
    simp [Unconcluded, Moment.entry?, Phase.logger_record word, Phase.concludes_record word,
      Phase.concludes]
  · simp [hk, h.going, Moment.stop?, stop]
  · rw [hk, moments, log_append]
    simp [Moment.entry?, Phase.logger_record word]

/-- It is said that the retries ran out, and the listener is told. -/
theorem closed {error : Failure} {notice left : Notice ε α} {r : Except Failure Unit}
    (h : RunOut name n g j) (counted : error.attempts? = some n)
    (hk : k = j ++ (Phase.exhausted.moments name (.nth n) ++ [.told notice r left])) :
    Closed name (.ok (some (.exhausted error))) k := by
  obtain ⟨last, word, moments⟩ :=
    exists_moments (ε := ε) (β := β) (α := α) .exhausted (.nth n) rfl
  have ends : k.endings.length = n := by simp [hk, h.invoked, Moment.ending?]
  have log : k.log = j.log ++ [last] := by
    rw [hk, moments, log_append]
    simp [Moment.entry?, Phase.logger_record word]
  have stops : k.stops = j.stops := by simp [hk, Moment.stop?]
  have said : Chronicled name n g [] [] (Phase.exhausted.moments name (.nth n) : Journal ε β α) :=
    .said rfl rfl (show Phase.exhausted.heading ≠ .stopped by decide)
  have stretch := said.append (.aside (l := [.told notice r left]) (by simp [Moment.Aside]))
    (by simp)
  refine ⟨?_, ?_, fun none => absurd rfl (none _), ?_, ?_⟩
  · rw [hk]
    refine h.chronicled.append ?_ (h.waited.trans h.granted.symm)
    rwa [h.invoked, h.granted, Nat.zero_add, Nat.zero_add]
  · rintro _ ⟨⟩
    exact ⟨j.log, last, log, ends ▸ word, h.unconcluded⟩
  · rintro _ ⟨⟩
    rw [ends, counted]
  · rw [stops, ends, log]
    obtain going | ⟨d, before, stop, stopped, hlog, said⟩ := h.stopped
    · exact .inl going
    · exact .inr ⟨d, error, before, stop, last, stopped, rfl, by simp [hlog], said⟩

end RunOut

end Journal

/-! ## Turn after turn -/

section

open Journal

variable {σ ε β α : Type} {S : Setting σ ε β α} {w : Waiting σ} {name : String}
  {p q : Progress ε β} {x y z : Journal ε β α × σ} {n g : Nat}

/-- A call between two turns. It has made one attempt more than it was granted delays. -/
structure Running (name : String) (p : Progress ε β) (j : Journal ε β α) : Prop where
  heard : Heard p j
  last : p.last ∈ p.first :: p.later
  told : ∃ g, Told name (g + 1) g [] j

namespace Running

theorem count (h : Running name p x.1) (told : Told name n g [] x.1) :
    p.state.attempt = .nth n := by
  rw [h.heard.count, told.invoked]

theorem awaited (hkeeps : (S.kept w).KeepsRecords) {d : Delay} (h : Running name p x.1)
    (hc : (S.kept w).Consulted name p x (.ok (some d, q), y))
    {r : Except Failure (Option Failure)} (ha : (S.kept w).Awaited name q d y (r, z))
    (worded : z.1.Worded) :
    match r with
    | .ok none => ∃ g, Told name (g + 1) (g + 1) [] z.1
    | .ok (some f) => Closed name (.ok (some (.aborted f))) z.1
    | .error f => Closed name (.error f) z.1 := by
  obtain ⟨g, told⟩ := h.told
  obtain ⟨go, e, b, rfl, hy⟩ := Setting.journaled_granted hc
  have count : p.state.attempt = .nth (g + 1) := h.count told
  have step {c : Record} {cause : Except Failure (Option Failure)} {t : Journal ε β α × σ}
      (word : (Phase.waiting p.last d).record name p.state.attempt = .ok c)
      (pause : ((S.kept w).pause name d).perform ((S.kept w).emit c y) = (cause, t)) :
      Chronicled name 0 0 [] [] t.1 ∧ t.1.stops = [] ∧ t.1.Unconcluded name ∧
        ∀ answer, cause = .ok answer → Told name (g + 1) (g + 1) [] t.1 := by
    obtain ⟨l, hl, down⟩ := Setting.journaled_paused pause
    have ht : t.1 = x.1 ++ ([.asked p.last (.ok true) e, .drawn (.ok d) b, .recorded c] ++ l) := by
      rw [hl, Setting.journaled_emit, hy]
      simp
    exact told.wait go (count ▸ word) down ht
  cases ha with
  | unworded word =>
    -- the text of the last failure and the delay can be written
    have fails : .error p.last ∈ y.1.endings := by
      rw [hy, endings_append, h.heard.failures]
      exact List.mem_append_left _ (List.mem_map_of_mem h.last)
    have grants : d ∈ y.1.granted := by simp [hy, Moment.granted?, go]
    obtain ⟨r, hr⟩ : ∃ r, (Phase.waiting p.last d).record name p.state.attempt = .ok r :=
      Phase.record_waiting (worded.1 _ fails (h.heard.ordinary _ h.last)) (worded.2 d grants)
    exact absurd (word.symm.trans hr) (by simp)
  | unkept keep => exact absurd keep (hkeeps.kept name)
  | unpaused word pause =>
    obtain ⟨chronicled, going, unconcluded, -⟩ := step word pause
    exact .of_going chronicled going unconcluded (by simp)
  | passed word pause => exact ⟨g, (step word pause).2.2.2 _ rfl⟩
  | unkeptEnd _ _ keep => exact absurd keep (hkeeps.kept name)
  | cancelled word pause =>
    have waited := (step word pause).2.2.2 _ rfl
    refine .of_last waited (by simp) ?_
    rw [Setting.journaled_said]
    show _ ++ Phase.waitCancelled.moments name p.state.attempt = _
    rw [count]
    rfl

end Running

theorem Journal.Told.reattempted (hlisten : S.Observed) (hkeeps : (S.kept w).KeepsRecords)
    (h : Told name n g [] x.1) (hn : 0 < n)
    (count : p.state.attempt = .nth n) {r : Except Failure (Turn ε β α)}
    (hr : (S.kept w).Reattempted name p x (r, y)) :
    match r with
    | .ok (.again q) => Told name (n + 1) g [] y.1 ∧ q.last ∈ q.first :: q.later
    | .ok (.refused _) => False
    | .ok (.ended e) => Closed name (.ok (some e)) y.1
    | .error f => Closed name (.error f) y.1 := by
  -- whatever comes of it, the attempt is prepared, announced and made
  have tried {a : Attempt} {m : Notice ε α} {ending : Except Failure α}
      {t u : Journal ε β α × σ} (before : (S.kept w).Announced name p x a m t)
      (invoke : (S.kept w).invoke.perform t = (ending, u)) :
      m.state.attempt = .nth (n + 1) ∧ Told name (n + 1) g (fault? ending).toList u.1 := by
    have next := before.count
    rw [count, Attempt.next_nth] at next
    obtain rfl := Except.ok.inj next
    obtain ⟨-, rfl, ht⟩ := hlisten.kept before.tell
    obtain ⟨hu, -⟩ := Setting.journaled_invoke invoke
    refine ⟨rfl, ?_⟩
    rw [hu, ht, Setting.journaled_said, List.append_assoc, List.append_assoc]
    exact h.attempt .retrying rfl (by simp [Moment.Aside])
  cases hr with
  | uncounted next =>
    rw [count, Attempt.next_nth] at next
    exact absurd next (by simp)
  | unkept _ keep => exact absurd keep (hkeeps.kept name)
  | unannounced _ tell => exact absurd (hlisten.kept tell).1 (by simp)
  | interrupted before invoke extra =>
    obtain ⟨-, made⟩ := tried before invoke
    rw [fault?, extra] at made
    exact .of_told made (by simp)
  | unpraised _ _ tell => exact absurd (hlisten.kept tell).1 (by simp)
  | unkeptSuccess _ _ _ keep => exact absurd keep (hkeeps.kept name)
  | @succeeded a v _ _ _ _ _ before invoke tell =>
    obtain ⟨number, made⟩ := tried before invoke
    obtain ⟨-, rfl, hv⟩ := hlisten.kept tell
    refine .of_last (made.heard hv) (by simp) ?_
    rw [Setting.journaled_said, number, Phase.ending, if_neg (by omega)]
  | unblamed _ _ _ tell => exact absurd (hlisten.kept tell).1 (by simp)
  | unkeptFailure _ _ _ _ keep => exact absurd keep (hkeeps.kept name)
  | @failed a f _ _ _ _ _ before invoke plain tell =>
    obtain ⟨number, made⟩ := tried before invoke
    obtain ⟨-, rfl, hv⟩ := hlisten.kept tell
    rw [fault?, if_pos plain] at made
    refine ⟨?_, by simp [Progress.failed, Event.error]⟩
    rw [Setting.journaled_said, number]
    exact (made.heard hv).said (.retryFailed f) rfl rfl (by simp [Phase.heading]) rfl

theorem Running.refused (h : Running name p x.1)
    (hc : (S.kept w).Consulted name p x (.ok (none, q), y)) :
    Heard q y.1 ∧ ∃ n g, RunOut name n g y.1 := by
  refine ⟨h.heard.refused hc, ?_⟩
  obtain ⟨g, told⟩ := h.told
  obtain ⟨e, -, hy⟩ | ⟨d, e, b, stop, -, hy⟩ := Setting.journaled_refused hc
  · exact ⟨g + 1, g, .of_told (hy ▸ told.aside (by simp [Moment.Aside]))⟩
  · rw [h.count told] at hy
    exact ⟨g + 1, g, .of_stop told stop hy⟩

theorem Journal.RunOut.gaveUp (hlisten : S.Observed) (hkeeps : (S.kept w).KeepsRecords)
    (h : RunOut name n g x.1)
    (heard : Heard p x.1) {r : Except Failure Failure}
    (hg : (S.kept w).GaveUp name p x (r, y)) :
    ∃ e, r = .ok e ∧ Closed name (.ok (some (.exhausted e))) y.1 := by
  cases hg with
  | unkept keep => exact absurd keep (hkeeps.kept name)
  | untold tell => exact absurd (hlisten.kept tell).1 (by simp)
  | told tell =>
    obtain ⟨-, rfl, hy⟩ := hlisten.kept tell
    have invocations : n = p.later.length + 1 := by
      rw [← h.invoked, heard.failures, List.length_map, List.length_cons]
    have number : p.state.attempt = .nth n := by rw [heard.count, h.invoked]
    refine ⟨_, rfl, h.closed ?_ (by rw [hy, Setting.journaled_said, number, List.append_assoc])⟩
    simp [Event.error, Failure.exhaustedFor, Failure.exhaustedWith, Failure.attempts?, invocations]

theorem Running.turned (hlisten : S.Observed) (hkeeps : (S.kept w).KeepsRecords)
    (h : Running name p x.1)
    {r : Except Failure (Turn ε β α)} (ht : (S.kept w).Turned name p x (r, y))
    (worded : y.1.Worded) :
    match r with
    | .ok (.again q) => Running name q y.1
    | .ok (.refused q) => Heard q y.1 ∧ ∃ n g, RunOut name n g y.1
    | .ok (.ended e) => Closed name (.ok (some e)) y.1
    | .error f => Closed name (.error f) y.1 := by
  cases ht with
  | unconsulted consult =>
    obtain ⟨g, told⟩ := h.told
    cases consult with
    | unkept _ _ _ keep => exact absurd keep (hkeeps.kept name)
    | unanswered ask =>
      obtain ⟨hy, -⟩ := Setting.journaled_shouldRetry ask
      exact .of_told (hy ▸ told.aside (by simp [Moment.Aside])) (by simp)
    | undrawn ask draw =>
      obtain ⟨ht, -⟩ := Setting.journaled_shouldRetry ask
      obtain ⟨hy, -⟩ := Setting.journaled_nextDelay draw
      rw [ht, List.append_assoc] at hy
      exact .of_told (hy ▸ told.aside (by simp [Moment.Aside])) (by simp)
  | refused consult => exact h.refused consult
  | unawaited consult await => exact h.awaited hkeeps consult await worded
  | aborted consult await => exact h.awaited hkeeps consult await worded
  | @reattempted d q' t u _ consult await reattempt =>
    have within := worded.of_added (Setting.journaled_reattempted reattempt)
    obtain ⟨g, waited⟩ := h.awaited hkeeps consult await within
    have heard := (h.heard.granted consult).awaited await
    have came := waited.reattempted hlisten hkeeps (Nat.succ_pos g)
      (by rw [heard.count, waited.invoked]) reattempt
    rcases r with f | q | q | e
    · exact came
    · exact ⟨h.heard.again hlisten (.reattempted consult await reattempt), came.2, g + 1, came.1⟩
    · exact came.elim
    · exact came

theorem Running.turns (hlisten : S.Observed) (hkeeps : (S.kept w).KeepsRecords) (fuel : Nat)
    (h : x.1.Worded → Running name p x.1) :
    (((S.kept w).turns name fuel p).perform x).2.1.Worded →
      Closed name (((S.kept w).turns name fuel p).perform x).1
        (((S.kept w).turns name fuel p).perform x).2.1 := by
  have inv := (S.kept w).turns_invariant name
    (I := fun _ p x => x.1.Worded → Running name p x.1)
    (Q := fun z => z.2.1.Worded → Closed name z.1 z.2.1)
    ?again ?ended ?failed ?refused fuel 0 p x h
  case again =>
    intro _ p x q y h ht worded
    exact (h (worded.of_added (Setting.journaled_turned ht))).turned hlisten hkeeps ht worded
  case ended =>
    intro _ p x e y h ht worded
    exact (h (worded.of_added (Setting.journaled_turned ht))).turned hlisten hkeeps ht worded
  case failed =>
    intro _ p x f y h ht worded
    exact (h (worded.of_added (Setting.journaled_turned ht))).turned hlisten hkeeps ht worded
  case refused =>
    intro _ p x q y h ht
    have gone {r : Except Failure Failure} {z : Journal ε β α × σ}
        (hg : (S.kept w).GaveUp name q y (r, z)) (worded : z.1.Worded) :
        ∃ e, r = .ok e ∧ Closed name (.ok (some (.exhausted e))) z.1 := by
      have within : y.1.Worded := by
        obtain hz | ⟨_, _, hz⟩ := Setting.journaled_gaveUp hg
        · exact hz ▸ worded
        · exact (hz ▸ worded).of_append
      have before := h (within.of_added (Setting.journaled_turned ht))
      obtain ⟨heard, n, g, out⟩ := before.turned hlisten hkeeps ht within
      exact out.gaveUp hlisten hkeeps heard hg
    refine ⟨fun f u hg worded => ?_, fun f u hg worded => ?_⟩
    · obtain ⟨e, he, -⟩ := gone hg worded
      exact absurd he (by simp)
    · obtain ⟨e, he, closed⟩ := gone hg worded
      rwa [Except.ok.inj he]
  obtain closed | ⟨q, y, hy, running⟩ := inv
  · exact closed
  · rw [hy]
    intro worded
    obtain ⟨g, told⟩ := (running worded).told
    exact .of_told told (by simp)

theorem closed_run (hlisten : S.Observed) (w : Waiting σ) (hkeeps : (S.kept w).KeepsRecords)
    (name : String) (fuel : Nat) (s : σ) :
    (((S.kept w).run name fuel).perform ([], s)).2.1.Worded →
      Closed name (((S.kept w).run name fuel).perform ([], s)).1
        (((S.kept w).run name fuel).perform ([], s)).2.1 := by
  have hb := (S.kept w).began name fuel ([], s)
  generalize ((S.kept w).run name fuel).perform ([], s) = z at hb
  have tried {ending : Except Failure α} {t : Journal ε β α × σ}
      (invoke : (S.kept w).invoke.perform ((S.kept w).said name 1 .starting ([], s)) =
        (ending, t)) : Told name 1 0 (fault? ending).toList t.1 := by
    rw [Setting.journaled_tried invoke]
    exact Told.nil.attempt .starting (l := []) rfl (by simp)
  have failed {f : Failure} {t : Journal ε β α × σ} (plain : f.ordinary = true)
      (invoke : (S.kept w).invoke.perform ((S.kept w).said name 1 .starting ([], s)) =
        (.error f, t)) : Told name 1 0 [] ((S.kept w).said name 1 (.failed f) t).1 := by
    have made := tried invoke
    rw [fault?, if_pos plain] at made
    rw [Setting.journaled_said]
    exact made.said (.failed f) rfl rfl (by simp [Phase.heading]) rfl
  cases hb with
  | unkept keep => exact absurd keep (hkeeps.kept name)
  | unkeptSuccess _ keep => exact absurd keep (hkeeps.kept name)
  | unkeptFailure _ _ keep => exact absurd keep (hkeeps.kept name)
  | @succeeded v t invoke =>
    intro _
    refine .of_last (tried invoke) (by simp) ?_
    rw [Setting.journaled_said]
    rfl
  | interrupted invoke extra =>
    have made := tried invoke
    rw [fault?, extra] at made
    exact fun _ => .of_told made (by simp)
  | unruled invoke plain rule =>
    obtain ⟨hu, -⟩ := Setting.journaled_openPolicy rule
    exact fun _ => .of_told (hu ▸ failed plain invoke) (by simp)
  | unpaced invoke plain rule pace =>
    obtain ⟨hu, -⟩ := Setting.journaled_openPolicy rule
    obtain ⟨hv, -⟩ := Setting.journaled_openBackoff pace
    exact fun _ => .of_told (hv ▸ hu ▸ failed plain invoke) (by simp)
  | failed invoke plain rule pace =>
    obtain ⟨hu, -⟩ := Setting.journaled_openPolicy rule
    obtain ⟨hv, -⟩ := Setting.journaled_openBackoff pace
    refine Running.turns hlisten hkeeps fuel fun _ => ⟨.begin plain invoke rule pace, ?_, 0, ?_⟩
    · exact List.mem_cons_self
    · exact hv ▸ hu ▸ failed plain invoke

end

/-- **The log is a trace of the call.** The listener only observes, the logger keeps every record,
and the failures that the loop took and the delays that it was granted can be written. Then the
records of the loop are these.

The invocations are prepared one by one, with their numbers, and every delay that was granted has a
record with its number; each of these records stands before the invocation or the wait that it is
about. The numbers of the attempts never go back, and the failures that the loop took are attached
one by one. If the loop ends the call, then the last record says how, with the number of the
invocations, which is also that of the error of a call whose retries ran out; and no other record
says that the call ended. A record that the backoff stopped is there if and only if it did, and the
retries run out right after it. -/
theorem log_traces_run {σ ε β α : Type} (S : Setting σ ε β α) (w : Waiting σ)
    (hlisten : S.Observed) (hkeeps : S.KeepsRecords) {operation : Operation} {name : String}
    (named : operation.displayName = .ok name) (fuel : Nat) (s : σ) :
    let x := (w.mode.run (S.kept w) operation fuel).perform ([], s)
    let j := x.2.1
    let n := j.endings.length
    (∀ f, .error f ∈ j.endings → f.ordinary = true → ∃ t, f.text = .ok t) →
    (∀ d ∈ j.granted, ∃ t, d.seconds = .ok t) →
    j.log.filterMap (Record.prepared? name) = (List.range' 1 n).map .nth ∧
    j.log.filterMap Record.delayed? =
      (j.granted.zipIdx 1).map (fun (d, i) => (some (.nth i), .ofNumber d)) ∧
    j.Each (Moment.Foretold name) ∧
    (∃ numbers : List Nat, j.log.map Record.attempt? = numbers.map (some <| .nth ·) ∧
      numbers.Pairwise (· ≤ ·)) ∧
    j.log.filterMap Record.failure = j.endings.filterMap fault? ∧
    (∀ e, x.1 = .ok (some e) → ∃ before last, j.log = before ++ [last] ∧
      (Phase.ending n e).record name (.nth n) = .ok last ∧
      ∀ r ∈ before, r.concludes name = false) ∧
    ((∀ e, x.1 ≠ .ok (some e)) → ∀ r ∈ j.log, r.concludes name = false) ∧
    (∀ error, x.1 = .ok (some (.exhausted error)) → error.attempts? = some n) ∧
    (j.stops = [] ∧ (∀ r ∈ j.log, r.opens name .stopped = false) ∨
      ∃ d error before stop last, j.stops = [d] ∧ x.1 = .ok (some (.exhausted error)) ∧
        j.log = before ++ [stop, last] ∧
        Phase.backoffStopped.record name (.nth n) = .ok stop ∧
        ∀ r ∈ before, r.opens name .stopped = false) := by
  intro x j n texts seconds
  have closed : Journal.Closed name x.1 j := by
    have hx : x = ((((S.kept w).run name fuel).perform ([], s)).1.mapError w.mode.leaving,
      (((S.kept w).run name fuel).perform ([], s)).2) :=
      w.mode.perform_run (S.kept w) named fuel ([], s)
    have worded : x.2.1.Worded := ⟨texts, seconds⟩
    rw [show j = x.2.1 from rfl]
    rw [hx] at worded ⊢
    exact (closed_run hlisten w (fun r x => hkeeps r x.2) name fuel s worded).mapError
      w.mode.leaving
  obtain ⟨numbers, ordered, sorted, -⟩ := closed.chronicled.ordered
  refine ⟨by simpa using closed.chronicled.prepared, by simpa using closed.chronicled.delayed,
    closed.chronicled.foretold, ⟨numbers, ordered, sorted⟩,
    by simpa using closed.chronicled.attached.symm, closed.terminal, closed.unconcluded,
    closed.counted, closed.stopped_iff⟩

theorem log_traces_relapse :
    let x := (Mode.blocking.run (Course.relapse.setting.kept
      (.blocking (fun _ => .result (.ok ())) none)) (.function "fetch") 2).perform ([], 0)
    x.2.1.log.filterMap (Record.prepared? "fetch") = [.nth 1, .nth 2] ∧
      x.2.1.log.filterMap Record.delayed? = [(some (.nth 1), .ofNumber (some (.whole 0)))] ∧
      x.2.1.log.filterMap Record.failure = [.of .valueError "boom", .of .valueError "bang"] ∧
      ∃ before last, x.2.1.log = before ++ [last] ∧
        Phase.exhausted.record "fetch" (.nth 2) = .ok last := by
  obtain ⟨j, t, run, deeds⟩ := relapse_deeds
  have ends : j.endings = [.error (.of .valueError "boom"), .error (.of .valueError "bang")] := by
    have read : Journal.endings j.deeds = j.endings :=
      Journal.pick_deeds (fun m => by cases m <;> rfl) j
    rw [← read, deeds]
    rfl
  have granted : j.granted = [some (.whole 0)] := by
    have read : Journal.granted j.deeds = j.granted :=
      Journal.pick_deeds (fun m => by rcases m with _ | _ | _ | ⟨_ | _⟩ | _ | _ | _ <;> rfl) j
    have plain : (Failure.of .valueError "bang").ordinary = true := rfl
    rw [← read, deeds, Course.deeds, Journal.granted_append]
    simp [Course.rounds, Course.round, Course.lastRound, Course.relapse, Moment.granted?,
      noTime_going, plain]
  have named : (Operation.function "fetch").displayName = .ok "fetch" := rfl
  have trace := log_traces_run Course.relapse.setting (.blocking (fun _ => .result (.ok ())) none)
    relapse_observed (fun _ _ => rfl) named 2 0
  simp only [Waiting.mode, run] at trace ⊢
  rw [ends, granted] at trace
  have texts (f : Failure) (hf : .error f ∈ [.error (.of .valueError "boom"),
      (.error (.of .valueError "bang") : Except Failure Nat)]) (_ : f.ordinary = true) :
      ∃ t, f.text = .ok t := by
    obtain rfl | rfl : f = .of .valueError "boom" ∨ f = .of .valueError "bang" := by simpa using hf
    · exact ⟨"boom", rfl⟩
    · exact ⟨"bang", rfl⟩
  obtain ⟨prepared, delayed, -, -, attached, terminal, -⟩ :=
    trace texts (by simpa using noTime_seconds)
  obtain ⟨before, last, log, word, -⟩ := terminal _ rfl
  exact ⟨prepared, delayed, attached, before, last, log, word⟩

end Retry
