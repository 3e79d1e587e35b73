import Mathlib.Data.List.Induction
import Retry.Proofs.Counts

/-!
# Walks through a backoff, call after call

A walk is asked for one delay after another. What the backoff calculates is arbitrary: a
delay, nothing, or a failure, from the index it is given and the random numbers it finds,
which are others in every call. Here is what the three fields of a walk say about the calls
so far, and what the next call does.

**What can be computed (`Reckons`, a hypothesis on each call).** If the call gets to a
delay, the delay can be added to the time, and the note can be written if it is too long.

**Results.**
* `answered`: the five things that a call comes to (`Answered`).
* `tally_after`: however many calls there were, the walk has counted the delays it gave and
  added them up, and neither limit was exceeded on the way (`Tally`).
* `next_stops_iff`: a call stops the walk exactly for the latch, the count or the time.
* `answers_of_stopped`: from then on the backoff is not asked again and nothing changes.
* `limited_walk`: all of it, for a backoff whose limits were accepted.
-/

namespace Retry

theorem Delay.addedTo_ok {d : Delay} {time t : Number} {sign : String}
    (h : d.addedTo time sign = .ok t) (other : String) : d.addedTo time other = .ok t := by
  cases d with
  | none => exact absurd h (by simp [addedTo])
  | some n => exact h

theorem Number.double_add? (x : Binary64) (n : Number) :
    Number.add? (.double x) n = n.toDouble?.map fun y => .double (Binary64.add x y) := by
  unfold Number.add? Number.combine
  cases n.whole? <;> cases n.toDouble? <;> rfl

/-- A delay can be added to a double exactly where it is one, or a whole number near one. -/
theorem Delay.addedTo_double (x : Binary64) (sign : String) (d : Delay) :
    (d.bind Number.toDouble? = none ∧ ∃ f, d.addedTo (.double x) sign = .error f) ∨
      (d.bind Number.toDouble?).isSome = true ∧
        ∃ y, d.addedTo (.double x) sign = .ok (.double y) := by
  cases d with
  | none => exact .inl ⟨rfl, _, rfl⟩
  | some n =>
    simp only [addedTo, Number.double_add?, Option.bind_some]
    cases n.toDouble? with
    | none => exact .inl ⟨rfl, _, rfl⟩
    | some y => exact .inr ⟨rfl, _, rfl⟩

namespace Backoff

/-- The next call calculates a delay: the walk has not stopped and its count is below the limit. -/
def Calculates (b : Backoff) (run : Run) : Prop := run.stopped = false ∧ b.countReached run = false

/-- What the next call has to compute can be computed. -/
structure Reckons (b : Backoff) (run : Run) (draws : Draws) : Prop where
  added : b.Calculates run → ∀ d, (b.calculate run.attempts draws).1 = .ok d →
    ∃ t, d.addedTo run.elapsed "+" = .ok t
  noted : b.Calculates run → ∀ d, (b.calculate run.attempts draws).1 = .ok d →
    b.exceeds run d = .ok true → ∃ note, b.elapsedNote run = .ok note

/-! ## One call -/

section

variable (b : Backoff) (run : Run) (draws : Draws)

/-- What a call comes to. -/
inductive Answered : Answer → Prop
  | latched (stopped : run.stopped = true) : Answered ⟨.ok (some stop), run, draws, []⟩
  | full (going : run.stopped = false) (reached : b.countReached run = true) :
      Answered ⟨.ok (some stop), { run with stopped := true }, draws, [countNote run]⟩
  | failed {x : Failure} {draws' : Draws} (calculates : b.Calculates run)
      (calculated : b.calculate run.attempts draws = (.error x, draws')) :
      Answered ⟨.error x, run, draws', []⟩
  | overlong {d : Delay} {draws' : Draws} {limit t : Number} {note : Record}
      (calculates : b.Calculates run)
      (calculated : b.calculate run.attempts draws = (.ok d, draws'))
      (limited : b.maxElapsed = some limit) (added : d.addedTo run.elapsed "+" = .ok t)
      (above : limit.lt t = true) :
      Answered ⟨.ok (some stop), { run with stopped := true }, draws', [note]⟩
  | given {d : Delay} {draws' : Draws} {t : Number} (calculates : b.Calculates run)
      (calculated : b.calculate run.attempts draws = (.ok d, draws'))
      (added : d.addedTo run.elapsed "+" = .ok t)
      (within : ∀ limit, b.maxElapsed = some limit → limit.lt t = false) :
      Answered ⟨.ok d, { run with attempts := run.attempts + 1, elapsed := t }, draws', []⟩

variable {b run draws}

theorem answered (h : b.Reckons run draws) : b.Answered run draws (b.next run draws) := by
  cases stopped : run.stopped with
  | true => rw [next_of_stopped b stopped]; exact .latched stopped
  | false =>
    cases reached : b.countReached run with
    | true =>
      rw [show b.next run draws = ⟨.ok (some stop), { run with stopped := true }, draws,
        [countNote run]⟩ by simp [next, stopped, reached]]
      exact .full stopped reached
    | false =>
      have calculates : b.Calculates run := ⟨stopped, reached⟩
      rcases calculated : b.calculate run.attempts draws with ⟨x | d, draws'⟩
      · rw [show b.next run draws = ⟨.error x, run, draws', []⟩ by
          simp [next, stopped, reached, calculated]]
        exact .failed calculates calculated
      obtain ⟨t, added⟩ := h.added calculates d (by rw [calculated])
      have given (within : b.exceeds run d = .ok false) : b.next run draws =
          ⟨.ok d, { run with attempts := run.attempts + 1, elapsed := t }, draws', []⟩ := by
        simp [next, stopped, reached, calculated, within, grant, Delay.addedTo_ok added]
      cases limited : b.maxElapsed with
      | none =>
        rw [given (by simp [exceeds, limited])]
        exact .given calculates calculated added (by simp [limited])
      | some limit =>
        have exceeds : b.exceeds run d = .ok (limit.lt t) := by
          simp [exceeds, limited, added, Except.map]
        cases above : limit.lt t with
        | false =>
          rw [given (exceeds.trans (congrArg _ above))]
          refine .given calculates calculated added fun other h => ?_
          rwa [← Option.some.inj (limited.symm.trans h)]
        | true =>
          rw [above] at exceeds
          obtain ⟨note, noted⟩ := h.noted calculates d (by rw [calculated]) exceeds
          rw [show b.next run draws = ⟨.ok (some stop), { run with stopped := true }, draws',
            [note]⟩ by simp [next, stopped, reached, calculated, exceeds, noted]]
          exact .overlong calculates calculated limited added above

/-- A call depends on the backoff at its own index and random numbers only. -/
theorem next_of_calculate {calculate : Int → Draws → Except Failure Delay × Draws}
    (h : calculate run.attempts draws = b.calculate run.attempts draws) :
    ({ b with calculate } : Backoff).next run draws = b.next run draws := by
  simp only [next, h]
  rfl

/-- A call that calculates nothing does not depend on the backoff's calculation. -/
theorem next_of_not_calculates (h : ¬ b.Calculates run)
    (calculate : Int → Draws → Except Failure Delay × Draws) :
    ({ b with calculate } : Backoff).next run draws = b.next run draws := by
  cases stopped : run.stopped with
  | true => rw [next_of_stopped _ stopped, next_of_stopped _ stopped]
  | false =>
    have reached : b.countReached run = true := by
      simpa [Calculates, stopped] using h
    have same : ({ b with calculate } : Backoff).countReached run = true := reached
    simp [next, stopped, reached, same]

/-- The only random numbers of a call are those that the calculation takes. -/
theorem next_draws (b : Backoff) (run : Run) (draws : Draws) :
    (b.Calculates run → (b.next run draws).draws = (b.calculate run.attempts draws).2) ∧
      (¬ b.Calculates run → (b.next run draws).draws = draws) := by
  unfold next Calculates
  cases run.stopped with
  | true => simp
  | false =>
    cases b.countReached run with
    | true => simp
    | false =>
      refine ⟨fun _ => ?_, fun h => absurd ⟨rfl, rfl⟩ h⟩
      simp only [Bool.false_eq_true, if_false]
      rcases b.calculate run.attempts draws with ⟨x | d, draws'⟩
      · rfl
      dsimp only
      rcases b.exceeds run d with x | _ | _
      · rfl
      · simp only [grant]
        cases d.addedTo run.elapsed "+=" <;> rfl
      · cases b.elapsedNote run <;> rfl

end

/-! ## One call after another -/

section

variable (b : Backoff)

/-- What the calls come to, each with the random numbers that it finds. -/
def answers : Run → List Draws → List Answer
  | _, [] => []
  | run, draws :: later => b.next run draws :: answers (b.next run draws).run later

def after (run : Run) (asked : List Draws) : Run :=
  asked.foldl (fun run draws => (b.next run draws).run) run

/-- The delay that an answer gives, unless the walk has stopped. -/
def Answer.given? (a : Answer) : Option Delay :=
  if a.run.stopped then none else a.delay.toOption

def given (asked : List Draws) : List Delay :=
  (b.answers .start asked).filterMap Answer.given?

/-- Delays added up, from the first to the last. -/
def total (delays : List Delay) : Except Failure Number :=
  delays.foldlM (fun time d => d.addedTo time "+=") Run.start.elapsed

/-- Every one of the calls can compute what it has to. -/
def Reckoned (asked : List Draws) : Prop :=
  ∀ before draws, before ++ [draws] <+: asked → b.Reckons (b.after .start before) draws

theorem answers_concat (run : Run) (asked : List Draws) (draws : Draws) :
    b.answers run (asked ++ [draws]) =
      b.answers run asked ++ [b.next (b.after run asked) draws] := by
  induction asked generalizing run with
  | nil => rfl
  | cons first later ih => exact congrArg (_ :: ·) (ih _)

theorem after_concat (run : Run) (asked : List Draws) (draws : Draws) :
    b.after run (asked ++ [draws]) = (b.next (b.after run asked) draws).run := by
  simp [after]

/-- The time of a walk is a double, whatever was added to it. -/
theorem elapsed_double (asked : List Draws) :
    ∃ x, (b.after .start asked).elapsed = .double x := by
  induction asked using List.reverseRecOn with
  | nil => exact ⟨_, rfl⟩
  | append_singleton asked draws ih =>
    obtain ⟨x, hx⟩ := ih
    rw [after_concat]
    rcases next_elapsed b (b.after .start asked) draws with same | ⟨d, -, added⟩
    · exact ⟨x, same.trans hx⟩
    · rw [hx] at added
      obtain ⟨-, f, sum⟩ | ⟨-, y, sum⟩ := Delay.addedTo_double x "+=" d
      · exact absurd (added.symm.trans sum) (by simp)
      · exact ⟨y, Except.ok.inj (added.symm.trans sum)⟩

theorem given_concat (asked : List Draws) (draws : Draws) :
    b.given (asked ++ [draws]) =
      b.given asked ++ (b.next (b.after .start asked) draws).given?.toList := by
  rw [given, answers_concat, List.filterMap_append]
  cases h : (b.next (b.after .start asked) draws).given? <;> simp [given, h]

theorem total_concat {delays : List Delay} {t : Number} (h : total delays = .ok t) (d : Delay) :
    total (delays ++ [d]) = d.addedTo t "+=" := by
  rw [total] at h ⊢
  simp only [List.foldlM_append, h, List.foldlM_cons, List.foldlM_nil, bind_pure]
  rfl

end

/-- What the fields of a walk say about the delays that it gave. -/
structure Tally (b : Backoff) (limit : Option Nat) (delays : List Delay) (run : Run) : Prop where
  counted : run.attempts = delays.length
  summed : total delays = .ok run.elapsed
  below : ∀ m, limit = some m → run.attempts ≤ m
  within : ∀ most, b.maxElapsed = some most →
    ∀ part, part <+: delays → ∀ t, total part = .ok t → most.lt t = false

section

variable {b : Backoff} {limit : Option Nat}

/-- A limit on the time that was accepted does not lie below no time at all. -/
theorem not_lt_start (accepted : Limits.elapsed b.maxElapsed = .ok ()) {most : Number}
    (h : b.maxElapsed = some most) : most.lt Run.start.elapsed = false := by
  rw [h] at accepted
  have start : Run.start.elapsed.position? = (0 : Number).position? := by decide +kernel
  rw [Number.lt, start]
  exact Limits.atLeast_ok.mp accepted

theorem tally_start (accepted : Limits.elapsed b.maxElapsed = .ok ()) :
    b.Tally limit [] .start where
  counted := rfl
  summed := rfl
  below _ _ := Nat.zero_le _
  within most hm part hp t ht := by
    obtain rfl := List.prefix_nil.mp hp
    obtain rfl : Run.start.elapsed = t := Except.ok.inj ht
    exact not_lt_start accepted hm

theorem Tally.next (hb : b.maxAttempts = limit.map fun m => .whole m) {delays : List Delay}
    {run : Run} (tally : b.Tally limit delays run) {draws : Draws} {a : Answer}
    (h : b.Answered run draws a) : b.Tally limit (delays ++ a.given?.toList) a.run := by
  cases h with
  | latched stopped => simpa [Answer.given?, stopped] using tally
  | full => simpa [Answer.given?] using ⟨tally.counted, tally.summed, tally.below, tally.within⟩
  | failed calculates => simpa [Answer.given?, calculates.1, Except.toOption] using tally
  | overlong => simpa [Answer.given?] using ⟨tally.counted, tally.summed, tally.below, tally.within⟩
  | @given d draws' t calculates calculated added within =>
    have going : (Answer.given? ⟨.ok d, { run with attempts := run.attempts + 1, elapsed := t },
        draws', []⟩) = some d := by
      simp [Answer.given?, calculates.1, Except.toOption]
    have summed : total (delays ++ [d]) = .ok t :=
      (total_concat tally.summed d).trans (Delay.addedTo_ok added _)
    rw [going]
    refine ⟨by simp [tally.counted], summed, ?_, ?_⟩
    · intro m hm
      exact (below_iff hb run).mp calculates.2 m hm
    · intro most hm part hp u hu
      rcases List.prefix_concat_iff.mp hp with rfl | hp
      · rw [Except.ok.inj (hu.symm.trans summed)]
        exact within most hm
      · exact tally.within most hm part hp u hu

theorem Reckoned.prior {asked : List Draws} {draws : Draws}
    (h : b.Reckoned (asked ++ [draws])) : b.Reckoned asked :=
  fun before d hp => h before d (hp.trans (List.prefix_append _ _))

/-- However often a walk was asked, its fields tell what it gave. -/
theorem tally_after (hb : b.maxAttempts = limit.map fun m => .whole m)
    (accepted : Limits.elapsed b.maxElapsed = .ok ()) {asked : List Draws}
    (reckoned : b.Reckoned asked) :
    b.Tally limit (b.given asked) (b.after .start asked) := by
  induction asked using List.reverseRecOn with
  | nil => exact tally_start accepted
  | append_singleton asked draws ih =>
    rw [given_concat, after_concat]
    exact (ih reckoned.prior).next hb (answered (reckoned asked draws (List.prefix_refl _)))

/-- A call stops the walk for the latch, for the count, or for the time, and for nothing else. -/
theorem next_stops_iff (hb : b.maxAttempts = limit.map fun m => .whole m) {run : Run}
    {draws : Draws} (h : b.Reckons run draws) :
    ((b.next run draws).delay = .ok (some stop) ∧ (b.next run draws).run.stopped = true) ↔
      run.stopped = true ∨ (∃ m, limit = some m ∧ m ≤ run.attempts) ∨
        ∃ d t most, (b.calculate run.attempts draws).1 = .ok d ∧
          d.addedTo run.elapsed "+" = .ok t ∧ b.maxElapsed = some most ∧ most.lt t = true := by
  have full : (∃ m, limit = some m ∧ m ≤ run.attempts) ↔ b.countReached run = true := by
    rw [← Bool.not_eq_false, below_iff hb run]
    simp
  rw [full]
  generalize ha : b.next run draws = a
  cases ha ▸ answered h with
  | latched stopped => simp [stopped]
  | full _ reached => simp [reached]
  | failed calculates calculated => simp [calculates.1, calculates.2, calculated]
  | overlong calculates calculated limited added above =>
    simp [calculates.1, calculates.2, calculated, limited, added, above]
  | given calculates calculated added within =>
    simp only [calculates.1, calculates.2, calculated, Bool.false_eq_true, and_false, false_or,
      false_iff, not_exists]
    rintro d t most ⟨hd, ht, hm, above⟩
    obtain rfl := Except.ok.inj hd
    rw [← Except.ok.inj (added.symm.trans ht), within most hm] at above
    exact absurd above (by simp)

/-- A call that does not stop the walk answers with what it calculated, and one that fails
leaves the walk as it is. -/
theorem next_calculated {run : Run} {draws : Draws} (h : b.Reckons run draws) :
    ((b.next run draws).run.stopped = false →
        (b.next run draws).delay = (b.calculate run.attempts draws).1) ∧
      ∀ x, (b.next run draws).delay = .error x → (b.next run draws).run = run := by
  generalize ha : b.next run draws = a
  cases ha ▸ answered h with
  | latched stopped => simp [stopped]
  | full => simp
  | failed _ calculated => simp [calculated]
  | overlong => simp
  | given _ calculated => simp [calculated]

/-- Once a walk has stopped it gives the same answer for ever, and stays as it is. -/
theorem answers_of_stopped {run : Run} (stopped : run.stopped = true) (asked : List Draws) :
    b.answers run asked = asked.map fun draws => ⟨.ok (some stop), run, draws, []⟩ := by
  induction asked with
  | nil => rfl
  | cons draws later ih =>
    rw [answers, next_of_stopped b stopped]
    exact congrArg (_ :: ·) ih

end

/-! ## The walk as a whole -/

section

variable (b : Backoff) (limit : Option Nat) (run : Run) (draws : Draws)

/-- What the next call of a walk does. -/
structure Moves : Prop where
  /-- It stops the walk for the latch, the count or the time, and for nothing else. -/
  stops : ((b.next run draws).delay = .ok (some stop) ∧ (b.next run draws).run.stopped = true) ↔
    run.stopped = true ∨ (∃ m, limit = some m ∧ m ≤ run.attempts) ∨
      ∃ d t most, (b.calculate run.attempts draws).1 = .ok d ∧
        d.addedTo run.elapsed "+" = .ok t ∧ b.maxElapsed = some most ∧ most.lt t = true
  /-- Otherwise it answers with what was calculated. -/
  gives : (b.next run draws).run.stopped = false →
    (b.next run draws).delay = (b.calculate run.attempts draws).1
  /-- A failure leaves the walk as it is, and so the next call asks for the same index. -/
  fails : ∀ x, (b.next run draws).delay = .error x → (b.next run draws).run = run
  /-- The backoff is asked at the index of the walk, and nowhere else. -/
  asked : ∀ calculate : Int → Draws → Except Failure Delay × Draws,
    calculate run.attempts draws = b.calculate run.attempts draws →
      ({ b with calculate } : Backoff).next run draws = b.next run draws
  /-- It is asked once. -/
  drawn : b.Calculates run → (b.next run draws).draws = (b.calculate run.attempts draws).2
  /-- It is not asked for the latch or the count. -/
  unasked : ¬ b.Calculates run → (b.next run draws).draws = draws ∧
    ∀ calculate, ({ b with calculate } : Backoff).next run draws = b.next run draws
  /-- Once the walk has stopped, every call answers so, draws nothing and changes nothing. -/
  latched : (b.next run draws).run.stopped = true → ∀ later,
    b.answers (b.next run draws).run later =
      later.map fun found => ⟨.ok (some stop), (b.next run draws).run, found, []⟩

variable {b limit run draws}

theorem moves (hb : b.maxAttempts = limit.map fun m => .whole m) (h : b.Reckons run draws) :
    b.Moves limit run draws where
  stops := next_stops_iff hb h
  gives := (next_calculated h).1
  fails := (next_calculated h).2
  asked _ same := next_of_calculate same
  drawn := (next_draws b run draws).1
  unasked idle := ⟨(next_draws b run draws).2 idle, next_of_not_calculates idle⟩
  latched stopped later := answers_of_stopped stopped later

/-- A walk through a backoff whose limits were accepted. -/
theorem limited_walk (b : Backoff) (limit : Option Nat)
    (hb : b.maxAttempts = limit.map fun m => .whole m)
    (accepted : Limits.backoff 0 b.maxAttempts b.maxElapsed = .ok ()) (asked : List Draws)
    (reckoned : b.Reckoned asked) :
    b.Tally limit (b.given asked) (b.after .start asked) ∧
      ∀ draws, b.Reckons (b.after .start asked) draws →
        b.Moves limit (b.after .start asked) draws := by
  obtain ⟨-, -, elapsed⟩ := Limits.backoff_ok.mp accepted
  exact ⟨tally_after hb elapsed reckoned, fun draws h => moves hb h⟩

/-- A backoff that gives a second and a half, then half seconds, and fails whenever one random
number was taken. Its delays may add up to two seconds. -/
def uneven : Backoff where
  calculate index draws :=
    (if draws.taken = 1 then .error (.of .valueError "no delay")
      else .ok (some (.double (if index = 0 then .ofRatio false 3 2 else .ofRatio false 1 2))),
      draws)
  maxAttempts := some (.whole 3)
  maxElapsed := some (.double (.ofRatio false 2 1))
  text := "uneven"

/-- Its delays can be added to a double, which makes a double again. -/
theorem uneven_added {x : Binary64} (h : run.elapsed = .double x) {d : Delay}
    (calculated : (uneven.calculate run.attempts draws).1 = .ok d) :
    ∃ y, d.addedTo run.elapsed "+" = .ok (.double y) := by
  by_cases fails : draws.taken = 1
  · simp [uneven, fails] at calculated
  · simp only [uneven, fails, if_false, Except.ok.injEq] at calculated
    subst calculated
    rw [h]
    exact ⟨_, rfl⟩

theorem uneven_reckons (asked : List Draws) (draws : Draws) :
    uneven.Reckons (uneven.after .start asked) draws := by
  obtain ⟨x, hx⟩ := uneven.elapsed_double asked
  refine ⟨fun _ d hd => ?_, fun _ _ _ _ => ?_⟩
  · obtain ⟨y, hy⟩ := uneven_added hx hd
    exact ⟨_, hy⟩
  · simp only [elapsedNote, hx]
    exact ⟨_, rfl⟩

/-- Two delays are given, with a failure between them that leaves the walk as it is; the third
delay would be too long. -/
theorem limited_walk_uneven :
    let asked := [.zero, ⟨[], 1⟩, .zero]
    let run := uneven.after .start asked
    (uneven.maxAttempts = (some 3).map (fun m : Nat => .whole m) ∧
      Limits.backoff 0 uneven.maxAttempts uneven.maxElapsed = .ok () ∧ uneven.Reckoned asked ∧
      uneven.Reckons run .zero) ∧
    uneven.Tally (some 3) (uneven.given asked) run ∧ uneven.Moves (some 3) run .zero ∧
    run.attempts = 2 ∧ (uneven.next run .zero).run.stopped = true := by
  intro asked run
  have limits : uneven.maxAttempts = (some 3).map (fun m : Nat => .whole m) := rfl
  have accepted : Limits.backoff 0 uneven.maxAttempts uneven.maxElapsed = .ok () :=
    Limits.backoff_ok.mpr ⟨Limits.atLeast_ok.mpr (by decide +kernel),
      Limits.atLeast_ok.mpr (by decide +kernel), Limits.atLeast_ok.mpr (by decide +kernel)⟩
  have reckoned : uneven.Reckoned asked := fun before draws _ => uneven_reckons before draws
  have reckons : uneven.Reckons run .zero := uneven_reckons asked .zero
  obtain ⟨tally, moves⟩ := limited_walk uneven (some 3) limits accepted asked reckoned
  exact ⟨⟨limits, accepted, reckoned, reckons⟩, tally, moves .zero reckons,
    by decide +kernel, by decide +kernel⟩

end

end Backoff

end Retry
