import Retry.Proofs.Attempts
import Retry.Proofs.Walks

/-!
# Three counters in step

Three parts of a call count on their own: the state that the listener sees numbers the
attempts, the execution of the policy counts the failures that it was asked about, and the walk
through the backoff counts the delays that it gave. Each is advanced at another place of a
turn: the execution and the walk before the wait, the number of the attempt after it.

With a policy of the library, a backoff with limits and a listener that only observes, they
stay in step. `InStep` says how they stand whenever the listener is told of an event, and
`AtHead` says where a call stands whenever its loop begins a turn.

A calculated delay that equals `Backoff.stop` ends the retries like a stop, but it was counted
(`Moment.Mistaken`). Then, and only then, the walk is one ahead when the retries run out.

## Hypotheses

* `Stocks`: the call opens a policy of the library and a backoff with limits, and asks them as
  the library does. Records and invocations keep what the opening relies on.
* `Setting.Observed`: the listener neither fails nor changes what it is shown.

Main statement: `counters_in_step`.
-/

namespace Retry

/-! ## One answer -/

namespace Backoff

section

variable {b : Backoff} {run run' : Run} {d : Delay}

/-- A walk that has not stopped yet stops now, or it gives a delay that it counts and adds to the
time. -/
theorem next_going {draws : Draws} (going : run.stopped = false)
    (h : (b.next run draws).delay = .ok d) :
    (d = some stop ∧ (b.next run draws).run = { run with stopped := true }) ∨
      ∃ t, d.addedTo run.elapsed "+=" = .ok t ∧
        (b.next run draws).run = { run with attempts := run.attempts + 1, elapsed := t } := by
  revert h
  unfold next
  rw [going]
  cases b.countReached run with
  | true => exact fun h => .inl ⟨(Except.ok.inj h).symm, rfl⟩
  | false =>
    simp only [Bool.false_eq_true, if_false]
    rcases b.calculate run.attempts draws with ⟨x | d', draws'⟩
    · simp
    dsimp only
    rcases b.exceeds run d' with x | _ | _
    · simp
    · simp only [grant]
      rcases added : d'.addedTo run.elapsed "+=" with x | t
      · simp
      · intro h
        obtain rfl : d' = d := Except.ok.inj h
        exact .inr ⟨t, added, by rw [going]⟩
    · rcases b.elapsedNote run with x | note
      · simp
      · exact fun h => .inl ⟨(Except.ok.inj h).symm, rfl⟩

/-- A delay that is waited for is counted and added to the time, and the walk goes on. -/
theorem Drawn.counts (h : b.Drawn run (.ok d) run') (going : run.stopped = false)
    (hd : isStop d = false) :
    run'.attempts = run.attempts + 1 ∧ run'.stopped = false ∧
      d.addedTo run.elapsed "+=" = .ok run'.elapsed := by
  obtain ⟨calculate, draws, hr, rfl⟩ := h
  obtain ⟨rfl, -⟩ | ⟨t, added, next⟩ := next_going going hr.symm
  · rw [isStop_stop] at hd
    exact absurd hd (by simp)
  · rw [next]
    exact ⟨rfl, going, added⟩

/-- Where the retries end, the walk has stopped and counted nothing, or it has counted a delay
that reads like a stop. -/
theorem Drawn.stops (h : b.Drawn run (.ok d) run') (going : run.stopped = false) :
    run'.attempts = if run'.stopped then run.attempts else run.attempts + 1 := by
  obtain ⟨calculate, draws, hr, rfl⟩ := h
  obtain ⟨-, next⟩ | ⟨t, -, next⟩ := next_going going hr.symm <;> rw [next]
  · rfl
  · simp [going]

end

end Backoff

namespace Simulation

namespace Execution

/-- The failures that an execution has counted. -/
def counted : Execution → Nat
  | .count e => e.attempts
  | .selective e => e.attempts
  | .scripted _ calls => calls

/-- An execution of a policy of the library that has counted `k` failures and is not exhausted. -/
def Going (k : Nat) : Execution → Prop
  | .count e => e.attempts = k
  | .selective e => e.attempts = k ∧ e.exhausted = false
  | .scripted _ _ => False

section

variable {e e' : Execution} {k : Nat} {f : Failure} {r : Except Failure Bool}

theorem Going.counted (h : e.Going k) : e.counted = k := by
  cases e with
  | count e => exact h
  | selective e => exact h.1
  | scripted answers calls => exact h.elim

theorem Going.heeding (h : e.Going k) (accepts : Failure → Except Failure Bool) :
    (e.heeding accepts).Going k := by
  cases e with
  | count e => exact h
  | selective e => exact h
  | scripted answers calls => exact h

/-- A selective execution that is not exhausted counts the failure it is asked about, whatever it
answers; and if it lets it through, it is not exhausted then. -/
theorem selective_counts {e : SelectivePolicy.Execution} (going : e.exhausted = false) :
    (e.shouldRetry f).next.attempts = e.attempts + 1 ∧
      ((e.shouldRetry f).answer = .ok true → (e.shouldRetry f).next.exhausted = false) := by
  unfold SelectivePolicy.Execution.shouldRetry
  rw [going]
  simp only [Bool.false_eq_true, if_false]
  rcases e.policy.isRetryable f with x | _ | _
  · simp
  · rcases f.text with x | t <;> simp
  · dsimp only
    split
    · simp
    · exact ⟨rfl, fun _ => rfl⟩

theorem Going.asked (h : e.Going k) (ha : e.Asked f r e') :
    e'.counted = k + 1 ∧ (r = .ok true → e'.Going (k + 1)) := by
  obtain ⟨accepts, rfl, rfl⟩ := ha
  replace h := h.heeding accepts
  generalize e.heeding accepts = e at h
  cases e with
  | count e =>
    obtain rfl := h
    exact ⟨rfl, fun _ => rfl⟩
  | selective e =>
    obtain ⟨rfl, going⟩ := h
    obtain ⟨counts, through⟩ := selective_counts (f := f) going
    exact ⟨counts, fun answer => ⟨counts, through answer⟩⟩
  | scripted answers calls => exact h.elim

end

end Execution

/-! ## What a call opens -/

/-- The call opens a policy of the library and a backoff with limits, and asks them as the library
does. `Held` is what the opening relies on. -/
structure Stocks {σ α : Type} (S : Setting σ Execution Pace α) (Held : σ → Prop) : Prop where
  emit : ∀ r s, Held s → Held (S.emit r s)
  invoke : ∀ s, Held s → Held (S.invoke.perform s).2
  openPolicy : ∀ s e t, Held s → S.openPolicy.perform s = (.ok e, t) → e.Going 0 ∧ Held t
  openBackoff : ∀ s b t, Held s → S.openBackoff.perform s = (.ok b, t) →
    ∃ backoff, b = .limited backoff .start
  shouldRetry : ∀ f e s r e' t, (S.shouldRetry f).perform (e, s) = (r, e', t) → e.Asked f r e'
  nextDelay : ∀ backoff run s r b t, S.nextDelay.perform (.limited backoff run, s) = (r, b, t) →
    ∃ run', backoff.Drawn run r run' ∧ b = .limited backoff run'

namespace Manner

/-- The template of a call holds a policy of the library and a backoff with limits. -/
def Stocked (m : Manner) (s : Stage) : Prop :=
  (m.source.template s.2).policy.start.Going 0 ∧
    ∃ backoff, (m.source.template s.2).backoff = .limited backoff

theorem Stocked.of_template {m : Manner} {s t : Stage} (h : m.Stocked s)
    (same : t.2.template? = s.2.template?) : m.Stocked t := by
  have template : m.source.template t.2 = m.source.template s.2 :=
    World.template_of_same m.source same
  exact ⟨template ▸ h.1, template ▸ h.2⟩

/-- **A simulated call opens what its template holds**, if its first invocation leaves a policy of
the library and a backoff with limits there. -/
theorem stocks_setting (m : Manner) {invoke : Act Stage Datum}
    (h : ∀ s, m.Stocked s → m.Stocked (invoke.perform s).2) :
    Stocks (m.setting invoke) m.Stocked where
  emit := fun r s hs => hs.of_template (s.2.keep_template r)
  invoke := h
  openPolicy := by
    intro s e t hs opened
    obtain ⟨he, rfl⟩ := Prod.mk.inj opened
    exact ⟨Except.ok.inj he ▸ hs.1, hs⟩
  openBackoff := by
    intro s b t hs opened
    obtain ⟨backoff, held⟩ := hs.2
    obtain ⟨hb, -⟩ := Prod.mk.inj opened
    exact ⟨backoff, (Except.ok.inj hb).symm.trans (congrArg Pacing.start held)⟩
  shouldRetry := by
    intro f e s r e' t asked
    obtain ⟨rfl, hs⟩ := Prod.mk.inj asked
    obtain ⟨rfl, -⟩ := Prod.mk.inj hs
    exact e.asked_self f
  nextDelay := by
    intro backoff run s r b t drawn
    obtain ⟨rfl, hs⟩ := Prod.mk.inj drawn
    obtain ⟨rfl, -⟩ := Prod.mk.inj hs
    exact ⟨_, ⟨backoff.calculate, s.2.draws, rfl, rfl⟩, rfl⟩

end Manner

end Simulation

/-! ## The counters at an event -/

open Simulation

section

variable {ε α : Type}

namespace Moment

/-- The walk that an answer of the backoff left. -/
def walk? : Moment ε Pace α → Option Backoff.Run
  | .drawn _ (.limited _ run) => some run
  | _ => none

/-- A delay was given that reads like a stop, by a walk that did not stop. -/
def Mistaken : Moment ε Pace α → Prop
  | .drawn (.ok d) (.limited _ run) => Backoff.isStop d = true ∧ run.stopped = false
  | _ => False

/-- The backoff was asked or the listener told. -/
def Stirs : Moment ε Pace α → Prop
  | .drawn _ _ => True
  | .told _ _ _ => True
  | _ => False

end Moment

namespace Journal

/-- The walk through the backoff: as the last answer left it, or at its start. -/
def walk (j : Journal ε Pace α) : Backoff.Run := ((pick Moment.walk? j).getLast?).getD .start

theorem walk_concat_drawn (j : Journal ε Pace α) (r : Except Failure Delay) (b : Backoff)
    (run : Backoff.Run) : walk (j ++ [.drawn r (.limited b run)]) = run := by
  simp [walk, Moment.walk?]

/-- Steps that do not ask the backoff leave the walk as it is. -/
theorem walk_append (j : Journal ε Pace α) {l : Journal ε Pace α}
    (h : ∀ m ∈ l, m.walk? = none) : walk (j ++ l) = walk j := by
  have none : pick Moment.walk? l = [] := pick_of_none _ h
  simp [walk, none]

theorem walk_append_of_quiet (j : Journal ε Pace α) {l : Journal ε Pace α}
    (quiet : l.Lacks Moment.Stirs) : walk (j ++ l) = walk j := by
  refine walk_append j fun m hm => ?_
  have still := quiet m hm
  cases m <;> simp_all [Moment.Stirs, Moment.walk?]

theorem walk_of_attempt {j k : Journal ε Pace α} (h : Added Moment.OfAttempt j k) :
    walk k = walk j := by
  obtain ⟨l, rfl, hl⟩ := h
  refine walk_append j fun m hm => ?_
  have attempt := hl m hm
  cases m <;> simp_all [Moment.OfAttempt, Moment.walk?]

@[simp] theorem quiet_moments (name : String) (attempt : Attempt) (phase : Phase) :
    Lacks Moment.Stirs (phase.moments name attempt : Journal ε Pace α) :=
  lacks_moments (fun _ => id) name attempt phase

end Journal

/-- How the counters stand when the listener is told of an event of an attempt. -/
def Moment.InStep (before : Journal Execution Pace α) : Moment Execution Pace α → Prop
  | .told ⟨state, .exhaustion e⟩ _ _ => ∃ a : Nat, state.attempt = .nth a ∧
      state.execution.counted = a ∧ e.attempts? = some a ∧
      (before.Lacks Mistaken → before.walk.attempts + 1 = a) ∧
      (¬ before.Lacks Mistaken → before.walk.attempts = a)
  | .told ⟨state, _⟩ _ _ => ∃ a : Nat, state.attempt = .nth a ∧
      state.execution.counted + 1 = a ∧ before.walk.attempts + 1 = a ∧
      Backoff.total before.slept = .ok before.walk.elapsed
  | _ => True

namespace Journal

/-- The walk gave `c` delays, none of them mistaken for a stop, and goes on. They were all waited
for, except those that are due; and the listener was told of every event in step. -/
structure Even (c : Nat) (due : List Delay) (j : Journal Execution Pace α) : Prop where
  walked : j.walk.attempts = c
  going : j.walk.stopped = false
  summed : Backoff.total (j.slept ++ due) = .ok j.walk.elapsed
  genuine : j.Lacks Moment.Mistaken
  told : j.Each Moment.InStep

section

variable {c : Nat} {due : List Delay} {j k l : Journal Execution Pace α}

theorem told_quietly (h : j.Each Moment.InStep) (hk : k = j ++ l) (quiet : l.Lacks Moment.Stirs) :
    k.Each Moment.InStep := by
  subst hk
  refine each_append.mpr ⟨h, each_of_forall fun m hm before => ?_⟩
  have still := quiet m hm
  cases m <;> simp_all [Moment.Stirs, Moment.InStep]

/-- More of a journal, but no delay and nothing that is told. -/
theorem Even.grow (h : Even c due j) (hk : k = j ++ l) (quiet : l.Lacks Moment.Stirs)
    (rest : List Delay) (waited : due = slept l ++ rest) : Even c rest k := by
  subst hk waited
  have walk := walk_append_of_quiet j quiet
  refine ⟨by rw [walk, h.walked], by rw [walk, h.going], ?_, ?_, ?_⟩
  · rw [walk, ← h.summed]
    simp only [pick_append, List.append_assoc]
  · refine lacks_append.mpr ⟨h.genuine, fun m hm => ?_⟩
    have still := quiet m hm
    cases m <;> simp_all [Moment.Stirs, Moment.Mistaken]
  · exact told_quietly h.told rfl quiet

theorem Even.draw (h : Even c [] j) {b : Backoff} {run : Backoff.Run} {d : Delay}
    (drawn : b.Drawn j.walk (.ok d) run) (go : Backoff.isStop d = false)
    (hk : k = j ++ [.drawn (.ok d) (.limited b run)]) : Even (c + 1) [d] k := by
  subst hk
  obtain ⟨counted, going, added⟩ := drawn.counts h.going go
  have walk := walk_concat_drawn j (.ok d) b run
  refine ⟨by rw [walk, counted, h.walked], by rw [walk, going], ?_, ?_, ?_⟩
  · have summed := h.summed
    rw [List.append_nil] at summed
    rw [walk, ← added, ← Backoff.total_concat summed]
    simp [Moment.slept?]
  · exact lacks_append.mpr ⟨h.genuine, by simp [Moment.Mistaken, go]⟩
  · exact each_append.mpr ⟨h.told, by simp [Moment.InStep]⟩

/-- The listener is told of an event of the attempt after the delays. -/
theorem Even.tell (h : Even c [] j) {n m : Notice Execution α} {r : Except Failure Unit}
    (attempt : n.state.attempt = .nth (c + 1)) (execution : n.state.execution.Going c)
    (other : ∀ e, n.event ≠ .exhaustion e) (hk : k = j ++ [.told n r m]) : Even c [] k := by
  subst hk
  have walk : walk (j ++ [.told n r m]) = j.walk := by simp [walk, Moment.walk?]
  refine ⟨by rw [walk, h.walked], by rw [walk, h.going], ?_, ?_, ?_⟩
  · rw [walk, ← h.summed]
    simp [Moment.slept?]
  · exact lacks_append.mpr ⟨h.genuine, by simp [Moment.Mistaken]⟩
  · refine each_append.mpr ⟨h.told, ?_⟩
    rw [each_cons, List.append_nil]
    refine ⟨?_, each_nil⟩
    have stands : ∃ a : Nat, n.state.attempt = .nth a ∧ n.state.execution.counted + 1 = a ∧
        j.walk.attempts + 1 = a ∧ Backoff.total j.slept = .ok j.walk.elapsed :=
      ⟨c + 1, attempt, congrArg (· + 1) execution.counted, congrArg (· + 1) h.walked,
        by rw [← h.summed, List.append_nil]⟩
    obtain ⟨state, event⟩ := n
    cases event with
    | exhaustion e => exact absurd rfl (other e)
    | beforeRetry => exact stands
    | success x => exact stands
    | failure f => exact stands

end

end Journal

end

/-! ## Turn after turn -/

section

variable {σ α : Type} {S : Setting σ Execution Pace α} {Held : σ → Prop} {w : Waiting σ}
  {name : String} {p q : Progress Execution Pace} {x y : Journal Execution Pace α × σ} {k c : Nat}
  {due : List Delay}

/-- A call made its first attempt and `k` others, and was let through `c` times. -/
structure Level (k c : Nat) (due : List Delay) (p : Progress Execution Pace)
    (j : Journal Execution Pace α) : Prop where
  attempt : p.state.attempt = .nth (k + 1)
  later : p.later.length = k
  execution : p.state.execution.Going c
  walk : ∃ b, p.backoff = .limited b j.walk
  even : j.Even c due

/-- The retries ran out after `k` of them. -/
structure Over (k : Nat) (p : Progress Execution Pace) (j : Journal Execution Pace α) : Prop where
  attempt : p.state.attempt = .nth (k + 1)
  later : p.later.length = k
  counted : p.state.execution.counted = k + 1
  genuine : j.Lacks Moment.Mistaken → j.walk.attempts = k
  mistaken : ¬ j.Lacks Moment.Mistaken → j.walk.attempts = k + 1
  told : j.Each Moment.InStep

/-- Policy and backoff grant a delay: each counts once, and the delay is due. -/
theorem Level.granted (hstock : Stocks S Held) (h : Level k k [] p x.1) {d : Delay}
    (hc : (S.kept w).Consulted name p x (.ok (some d, q), y)) :
    Level k (k + 1) [d] q y.1 := by
  obtain ⟨b, hb⟩ := h.walk
  cases hc with
  | granted ask draw go =>
    obtain ⟨ht, hask⟩ := Setting.journaled_shouldRetry ask
    obtain ⟨hy, hdraw⟩ := Setting.journaled_nextDelay draw
    obtain ⟨-, through⟩ := h.execution.asked (hstock.shouldRetry _ _ _ _ _ _ hask)
    rw [hb] at hdraw
    obtain ⟨run, drawn, rfl⟩ := hstock.nextDelay _ _ _ _ _ _ hdraw
    have asked := h.even.grow ht (by simp [Moment.Stirs]) [] rfl
    have walk : Journal.walk _ = x.1.walk :=
      ht ▸ Journal.walk_append_of_quiet x.1 (by simp [Moment.Stirs])
    refine ⟨h.attempt, h.later, through rfl, ⟨b, ?_⟩, asked.draw (walk.symm ▸ drawn) go hy⟩
    rw [hy, Journal.walk_concat_drawn]
    rfl

theorem Level.refused (hstock : Stocks S Held) (h : Level k k [] p x.1)
    (hc : (S.kept w).Consulted name p x (.ok (none, q), y)) : Over k q y.1 := by
  obtain ⟨b, hb⟩ := h.walk
  cases hc with
  | refused ask =>
    obtain ⟨hy, hask⟩ := Setting.journaled_shouldRetry ask
    obtain ⟨counted, -⟩ := h.execution.asked (hstock.shouldRetry _ _ _ _ _ _ hask)
    have asked := h.even.grow hy (by simp [Moment.Stirs]) [] rfl
    exact ⟨h.attempt, h.later, counted, fun _ => asked.walked,
      fun mistaken => absurd asked.genuine mistaken, asked.told⟩
  | @stopped d e _ t u ask draw stop =>
    obtain ⟨ht, hask⟩ := Setting.journaled_shouldRetry ask
    obtain ⟨hu, hdraw⟩ := Setting.journaled_nextDelay draw
    obtain ⟨counted, -⟩ := h.execution.asked (hstock.shouldRetry _ _ _ _ _ _ hask)
    rw [hb] at hdraw
    obtain ⟨run, drawn, rfl⟩ := hstock.nextDelay _ _ _ _ _ _ hdraw
    have asked := h.even.grow ht (by simp [Moment.Stirs]) [] rfl
    have stops := drawn.stops h.even.going
    rw [h.even.walked] at stops
    rw [Setting.journaled_said]
    have quiet := Journal.quiet_moments (α := α) (ε := Execution) name p.state.attempt
      .backoffStopped
    have walk : Journal.walk (u.1 ++ Phase.backoffStopped.moments name p.state.attempt) = run := by
      rw [Journal.walk_append_of_quiet u.1 quiet, hu, Journal.walk_concat_drawn]
    have genuine : Journal.Lacks Moment.Mistaken
        (u.1 ++ Phase.backoffStopped.moments name p.state.attempt) ↔ run.stopped = true := by
      have recorded := Journal.lacks_moments (P := Moment.Mistaken (ε := Execution) (α := α))
        (fun _ => id) name p.state.attempt .backoffStopped
      simp [hu, asked.genuine, recorded, Moment.Mistaken, stop]
    refine ⟨h.attempt, h.later, counted, ?_, ?_, ?_⟩
    · intro lacks
      rw [walk, stops, if_pos (genuine.mp lacks)]
    · intro lacks
      rw [walk, stops, if_neg (fun stopped => lacks (genuine.mpr stopped))]
    · have told : u.1.Each Moment.InStep := by
        rw [hu, Journal.each_append]
        exact ⟨asked.told, by simp [Moment.InStep]⟩
      exact Journal.told_quietly told rfl quiet

/-- The wait for a delay. If it passes, nothing is due any more. -/
theorem Level.awaited {d : Delay} (h : Level k c [d] p x.1) {r : Except Failure (Option Failure)}
    (ha : (S.kept w).Awaited name p d x (r, y)) :
    y.1.Each Moment.InStep ∧ (r = .ok none → Level k c [] p y.1) := by
  constructor
  · obtain ⟨l, hy, hl⟩ := Setting.journaled_awaited ha
    refine Journal.told_quietly h.even.told hy fun m hm => ?_
    have wait := hl m hm
    cases m <;> simp_all [Moment.OfWait, Moment.Stirs]
  · rintro rfl
    obtain ⟨r, slept, -, hy⟩ := Setting.journaled_passed ha
    have quiet : Journal.Lacks Moment.Stirs
        ([.recorded r, .slept d slept] : Journal Execution Pace α) := by simp [Moment.Stirs]
    obtain ⟨b, hb⟩ := h.walk
    refine ⟨h.attempt, h.later, h.execution, ⟨b, ?_⟩, h.even.grow hy quiet [] rfl⟩
    rw [hb, hy, Journal.walk_append_of_quiet x.1 quiet]

/-- The next attempt, whatever comes of it. If it fails, the call stands as before, one attempt
on. -/
theorem Level.reattempted (hlisten : S.Observed) (h : Level k (k + 1) [] p x.1)
    {r : Except Failure (Turn Execution Pace α)}
    (hr : (S.kept w).Reattempted name p x (r, y)) :
    y.1.Each Moment.InStep ∧ ∀ q, r = .ok (.again q) → Level (k + 1) (k + 1) [] q y.1 := by
  have walk := Journal.walk_of_attempt (Setting.journaled_reattempted hr)
  have said {j : Journal Execution Pace α} (hj : j.Even (k + 1) []) (a : Attempt) (phase : Phase) :
      (j ++ phase.moments name a).Even (k + 1) [] :=
    hj.grow rfl (Journal.quiet_moments name a phase) [] (by simp)
  have announced {a : Attempt} {n : Notice Execution α} {t : Journal Execution Pace α × σ}
      (before : (S.kept w).Announced name p x a n t) :
      n = ⟨{ p.state with attempt := .nth (k + 2) }, .beforeRetry⟩ ∧ t.1.Even (k + 1) [] := by
    have count := before.count
    rw [h.attempt, Attempt.next_nth] at count
    obtain rfl := Except.ok.inj count
    obtain ⟨-, rfl, ht⟩ := hlisten.kept before.tell
    rw [Setting.journaled_said] at ht
    exact ⟨rfl, (said h.even _ _).tell rfl h.execution (by simp) ht⟩
  have invoked {t u : Journal Execution Pace α × σ} {ending : Except Failure α}
      (ht : t.1.Even (k + 1) [])
      (invoke : (S.kept w).invoke.perform t = (ending, u)) : u.1.Even (k + 1) [] :=
    ht.grow (Setting.journaled_invoke invoke).1 (by simp [Moment.Stirs]) [] rfl
  cases hr with
  | uncounted => exact ⟨h.even.told, by simp⟩
  | unkept => exact ⟨h.even.told, by simp⟩
  | unannounced _ tell => exact absurd (hlisten.kept tell).1 (by simp)
  | interrupted before invoke =>
    obtain ⟨-, ht⟩ := announced before
    exact ⟨(invoked ht invoke).told, by simp⟩
  | unpraised _ _ tell => exact absurd (hlisten.kept tell).1 (by simp)
  | unkeptSuccess before invoke tell =>
    obtain ⟨rfl, ht⟩ := announced before
    obtain ⟨-, rfl, hv⟩ := hlisten.kept tell
    exact ⟨((invoked ht invoke).tell rfl h.execution (by simp) hv).told, by simp⟩
  | succeeded before invoke tell =>
    obtain ⟨rfl, ht⟩ := announced before
    obtain ⟨-, rfl, hv⟩ := hlisten.kept tell
    have told := (invoked ht invoke).tell rfl h.execution (by simp) hv
    rw [Setting.journaled_said]
    exact ⟨(said told _ _).told, by simp⟩
  | unblamed _ _ _ tell => exact absurd (hlisten.kept tell).1 (by simp)
  | unkeptFailure before invoke _ tell =>
    obtain ⟨rfl, ht⟩ := announced before
    obtain ⟨-, rfl, hv⟩ := hlisten.kept tell
    exact ⟨((invoked ht invoke).tell rfl h.execution (by simp) hv).told, by simp⟩
  | failed before invoke _ tell =>
    obtain ⟨rfl, ht⟩ := announced before
    obtain ⟨-, rfl, hv⟩ := hlisten.kept tell
    have told := (invoked ht invoke).tell rfl h.execution (by simp) hv
    rw [Setting.journaled_said] at walk ⊢
    refine ⟨(said told _ _).told, ?_⟩
    rintro _ ⟨⟩
    obtain ⟨b, hb⟩ := h.walk
    refine ⟨rfl, ?_, h.execution, ⟨b, ?_⟩, said told _ _⟩
    · simp [Progress.failed, h.later]
    · rw [walk]
      exact hb

theorem Over.gaveUp (h : Over k p x.1) {r : Except Failure Failure}
    (hg : (S.kept w).GaveUp name p x (r, y)) : y.1.Each Moment.InStep := by
  obtain hy | ⟨ending, n, hy⟩ := Setting.journaled_gaveUp hg
  · rw [hy]
    exact h.told
  have quiet := Journal.quiet_moments (α := α) (ε := Execution) name p.state.attempt .exhausted
  rw [hy, ← List.append_assoc]
  refine Journal.each_append.mpr ⟨Journal.told_quietly h.told rfl quiet, ?_⟩
  rw [Journal.each_cons, List.append_nil]
  refine ⟨⟨k + 1, h.attempt, h.counted, ?_, fun lacks => ?_, fun lacks => ?_⟩, Journal.each_nil⟩
  · simp [Failure.exhaustedFor, Failure.exhaustedWith, Failure.attempts?, h.later]
  · rw [Journal.walk_append_of_quiet _ quiet, h.genuine (Journal.lacks_append.mp lacks).1]
  · rw [Journal.walk_append_of_quiet _ quiet]
    refine h.mistaken fun none => lacks (Journal.lacks_append.mpr ⟨none, ?_⟩)
    exact Journal.lacks_moments (fun _ => id) _ _ _

/-- A turn that goes on is one attempt more, let through by policy and backoff. -/
theorem Level.turned (hstock : Stocks S Held) (hlisten : S.Observed) (h : Level k k [] p x.1)
    {r : Except Failure (Turn Execution Pace α)}
    (ht : (S.kept w).Turned name p x (r, y)) :
    y.1.Each Moment.InStep ∧ (∀ q, r = .ok (.again q) → Level (k + 1) (k + 1) [] q y.1) ∧
      ∀ q, r = .ok (.refused q) → Over k q y.1 := by
  cases ht with
  | unconsulted consult =>
    refine ⟨?_, by simp, by simp⟩
    obtain ⟨e, hy⟩ | ⟨e, b, hy⟩ | ⟨d, e, b, -, hy⟩ := Setting.journaled_unconsulted consult
    · exact Journal.told_quietly h.even.told hy (by simp [Moment.Stirs])
    · rw [hy]
      exact Journal.each_append.mpr ⟨h.even.told, by simp [Moment.InStep]⟩
    · rw [hy]
      exact Journal.each_append.mpr ⟨h.even.told, by simp [Moment.InStep]⟩
  | refused consult =>
    have past := h.refused hstock consult
    refine ⟨past.told, by simp, ?_⟩
    rintro _ ⟨⟩
    exact past
  | unawaited consult await =>
    exact ⟨((h.granted hstock consult).awaited await).1, by simp, by simp⟩
  | aborted consult await =>
    exact ⟨((h.granted hstock consult).awaited await).1, by simp, by simp⟩
  | reattempted consult await reattempt =>
    have passed := ((h.granted hstock consult).awaited await).2 rfl
    obtain ⟨told, again⟩ := passed.reattempted hlisten reattempt
    refine ⟨told, again, ?_⟩
    rintro q rfl
    cases reattempt

theorem Level.turns (hstock : Stocks S Held) (hlisten : S.Observed) (fuel : Nat)
    (h : Level 0 0 [] p x.1) :
    (((S.kept w).turns name fuel p).perform x).2.1.Each Moment.InStep := by
  have inv := (S.kept w).turns_invariant name
    (I := fun k p x => Level k k [] p x.1) (Q := fun z => z.2.1.Each Moment.InStep)
    (fun k p x q y hk ht => (hk.turned hstock hlisten ht).2.1 q rfl)
    (fun k p x e y hk ht => (hk.turned hstock hlisten ht).1)
    (fun k p x f y hk ht => (hk.turned hstock hlisten ht).1) ?refused fuel 0 p x h
  case refused =>
    intro k p x q y hk ht
    have past := (hk.turned hstock hlisten ht).2.2 q rfl
    exact ⟨fun f u hg => past.gaveUp hg, fun f u hg => past.gaveUp hg⟩
  obtain told | ⟨q, y, hy, hq⟩ := inv
  · exact told
  · rw [hy]
    exact hq.even.told

theorem Journal.even_nil : Journal.Even 0 [] ([] : Journal Execution Pace α) :=
  ⟨rfl, rfl, rfl, Journal.lacks_nil, Journal.each_nil⟩

theorem Level.begin (hstock : Stocks S Held) {f : Failure} {e : Execution} {b : Pace} {s : σ}
    {z : Journal Execution Pace α × σ} (hs : Held s)
    (invoke : (S.kept w).invoke.perform ((S.kept w).said name 1 .starting ([], s)) =
      (.error f, x))
    (rule : (S.kept w).openPolicy.perform ((S.kept w).said name 1 (.failed f) x) =
      (.ok e, y))
    (pace : (S.kept w).openBackoff.perform y = (.ok b, z)) :
    Level 0 0 [] (.opening name f e b) z.1 := by
  obtain ⟨hz, hpace⟩ := Setting.journaled_openBackoff pace
  obtain ⟨-, hrule⟩ := Setting.journaled_openPolicy rule
  obtain ⟨going, held⟩ := hstock.openPolicy _ _ _
    (Setting.journaled_first_held hstock.emit hstock.invoke hs invoke) hrule
  obtain ⟨backoff, rfl⟩ := hstock.openBackoff _ _ _ held hpace
  have hj := hz.trans (Setting.journaled_first invoke rule)
  have quiet : Journal.Lacks Moment.Stirs (Phase.starting.moments name 1 ++ [.invoked (.error f)] ++
      (Phase.failed f).moments name 1 : Journal Execution Pace α) := by simp [Moment.Stirs]
  refine ⟨rfl, rfl, going, ⟨backoff, ?_⟩,
    Journal.even_nil.grow hj quiet [] (by simp [Moment.slept?])⟩
  rw [hj, Journal.walk_append_of_quiet _ quiet]
  rfl

/-! ## A call -/

/-- Where a call is when its loop begins a turn, after `k` turns that went on. -/
inductive Setting.AtHead {σ ε β α : Type} (S : Setting σ ε β α) (name : String) (s : σ) :
    Nat → Progress ε β → σ → Prop
  | first {f : Failure} {e : ε} {b : β} {t u v : σ}
      (start : (S.say name 1 .starting).perform s = (.ok (), S.said name 1 .starting s))
      (invoke : S.invoke.perform (S.said name 1 .starting s) = (.error f, t))
      (plain : f.ordinary = true)
      (blame : (S.say name 1 (.failed f)).perform t = (.ok (), S.said name 1 (.failed f) t))
      (rule : S.openPolicy.perform (S.said name 1 (.failed f) t) = (.ok e, u))
      (pace : S.openBackoff.perform u = (.ok b, v)) : S.AtHead name s 0 (.opening name f e b) v
  | again {k : Nat} {p q : Progress ε β} {t u : σ} (head : S.AtHead name s k p t)
      (turn : (S.turn name p).perform t = (.ok (.again q), u)) : S.AtHead name s (k + 1) q u

/-- From the head of its loop, a call goes on with the turns that are left. -/
theorem Setting.AtHead.run {σ ε β α : Type} {S : Setting σ ε β α} {name : String} {s t : σ}
    {k : Nat} {p : Progress ε β} (h : S.AtHead name s k p t) (more : Nat) :
    (S.run name (k + more)).perform s = (S.turns name more p).perform t := by
  induction h generalizing more with
  | @first f e b t u v start invoke plain blame rule pace =>
    rw [Nat.zero_add, Setting.run, Act.perform_bind_ok start]
    simp only [Setting.begin, Act.perform_bind, Act.perform_trial, invoke, plain, if_true, blame,
      rule, pace]
    rfl
  | @again k p q t u head turn ih =>
    rw [show k + 1 + more = k + (more + 1) by omega, ih, turns, Act.perform_bind_ok turn]

theorem Level.atHead (hstock : Stocks S Held) (hlisten : S.Observed) {s : σ} (hs : Held s)
    (h : (S.kept w).AtHead name ([], s) k p x) : Level k k [] p x.1 := by
  induction h with
  | first _ invoke plain _ rule pace => exact .begin hstock hs invoke rule pace
  | @again k p q t u head turn ih =>
    have turned := (S.kept w).turned name p t
    rw [turn] at turned
    exact (ih.turned hstock hlisten turned).2.1 q rfl

theorem told_run (hstock : Stocks S Held) (hlisten : S.Observed) (w : Waiting σ) (name : String)
    (fuel : Nat) {s : σ} (hs : Held s) :
    (((S.kept w).run name fuel).perform ([], s)).2.1.Each Moment.InStep := by
  have began := (S.kept w).began name fuel ([], s)
  generalize ((S.kept w).run name fuel).perform ([], s) = z at began
  -- before the first turn nothing is told
  have untold {j : Journal Execution Pace α} (quiet : j.Lacks Moment.Stirs) :
      j.Each Moment.InStep := Journal.told_quietly Journal.each_nil rfl quiet
  have tried {r : Except Failure α} {t : Journal Execution Pace α × σ}
      (invoke : (S.kept w).invoke.perform ((S.kept w).said name 1 .starting ([], s)) = (r, t)) :
      t.1.Lacks Moment.Stirs := by
    simp [Setting.journaled_tried invoke, Moment.Stirs]
  cases began with
  | unkept => exact Journal.each_nil
  | unkeptSuccess invoke => exact untold (tried invoke)
  | unkeptFailure invoke => exact untold (tried invoke)
  | succeeded invoke => exact untold (by simp [Setting.journaled_said, tried invoke])
  | interrupted invoke => exact untold (tried invoke)
  | @unruled f _ _ u invoke _ rule =>
    have hu := Setting.journaled_first invoke rule
    exact untold (by simp [hu, Moment.Stirs])
  | @unpaced f _ _ _ _ v invoke _ rule pace =>
    obtain ⟨hv, -⟩ := Setting.journaled_openBackoff pace
    have hu := Setting.journaled_first invoke rule
    exact untold (by simp [hv, hu, Moment.Stirs])
  | failed invoke plain rule pace =>
    exact Level.turns hstock hlisten fuel (.begin hstock hs invoke rule pace)

end

/-- **The counters stay in step.** Whenever the listener is told of a retry, the execution and the
walk have counted one less than the number of the attempt, and the time of the walk is the sum
of the delays that were waited for. When it is told that the retries ran out, the execution has
counted all attempts, and so has the error; the walk has counted one less, or as many if the
delay that ended the retries was one that it gave. Whenever the loop begins a turn, the attempt
is numbered one above the failures of the retries. -/
theorem counters_in_step {σ α : Type} (S : Setting σ Execution Pace α) (w : Waiting σ)
    (Held : σ → Prop) (hstock : Stocks S Held) (hlisten : S.Observed) (operation : Operation)
    (fuel : Nat) (s : σ) (hs : Held s) :
    ((w.mode.run (S.kept w) operation fuel).perform ([], s)).2.1.Each Moment.InStep ∧
    ∀ name, operation.displayName = .ok name → ∀ k p t,
      (S.kept w).AtHead name ([], s) k p t →
        p.state.attempt = .nth (p.later.length + 1) ∧ p.later.length = k ∧
        p.state.execution.counted = k ∧ t.1.walk.attempts = k ∧
        ∀ more, ((S.kept w).run name (k + more)).perform ([], s) =
          ((S.kept w).turns name more p).perform t := by
  constructor
  · rcases hname : operation.displayName with f | name
    · rw [Mode.perform_run_unnamed _ _ hname]
      exact Journal.each_nil
    · rw [Mode.perform_run _ _ hname]
      exact told_run hstock hlisten w name fuel hs
  · intro name _ k p t head
    have level := Level.atHead hstock hlisten hs head
    exact ⟨level.later ▸ level.attempt, level.later, level.execution.counted, level.even.walked,
      head.run⟩

namespace Simulation

theorem stocks_inOutage (source : Source) :
    Stocks source.inOutage (outage source).Stocked :=
  Manner.stocks_setting _ fun s h => by
    rw [show (outage source).invoke broken = source.inOutage.invoke from rfl, perform_inOutage]
    exact h.of_template rfl

def outageJournal (source : Source) : Journal Execution Pace Datum :=
  (((outage source).waiting.mode.run (source.inOutage.kept (outage source).waiting)
    (.function "fetch") 2).perform ([], [], .blank)).2.1

/-- The listener is told of a retry, of its failure and of the end of the retries, each time in
step. -/
theorem counters_in_step_outage :
    (Stocks solitary.inOutage (outage solitary).Stocked ∧ solitary.inOutage.Observed ∧
      (outage solitary).Stocked ([], .blank)) ∧
    (outageJournal solitary).Each Moment.InStep ∧ (outageJournal solitary).events.length = 3 := by
  have stocks := stocks_inOutage solitary
  have observed : solitary.inOutage.Observed := Manner.observed_setting rfl rfl (.silent 1) _
  have stocked : (outage solitary).Stocked ([], .blank) := ⟨rfl, brief, rfl⟩
  obtain ⟨told, -⟩ := counters_in_step solitary.inOutage (outage solitary).waiting _ stocks observed
    (.function "fetch") 2 ([], .blank) stocked
  exact ⟨⟨stocks, observed, stocked⟩, told, by decide +kernel⟩

/-- A backoff that calculates delays that read like a stop. -/
def negative : Backoff where
  calculate _ draws := (.ok (some Backoff.stop), draws)
  maxAttempts := none
  maxElapsed := none
  text := "negative"

/-- A template with such a backoff, that nobody listens to. -/
def misled : Source := .own ⟨.count ⟨3⟩, .limited negative, .leaf (.silent 1)⟩

/-- Whether the listener was told at the first attempt that the retries ran out. -/
def toldAtOnce : Moment Execution Pace Datum → Bool
  | .told ⟨⟨_, _, .number (.whole 1)⟩, .exhaustion _⟩ _ _ => true
  | _ => false

theorem of_toldAtOnce {m : Moment Execution Pace Datum} (h : toldAtOnce m = true) :
    ∃ state e r left, m = .told ⟨state, .exhaustion e⟩ r left ∧ state.attempt = .nth 1 := by
  unfold toldAtOnce at h
  split at h
  · exact ⟨_, _, _, _, rfl, rfl⟩
  · exact absurd h (by simp)

/-- The delay that ends the retries at the first attempt is counted, so the walk is not one behind
the attempts. -/
theorem stop_counted :
    (Stocks misled.inOutage (outage misled).Stocked ∧ misled.inOutage.Observed ∧
      (outage misled).Stocked ([], .blank)) ∧
    ¬ (outageJournal misled).Each fun before m => ∀ state e r left,
      m = .told ⟨state, .exhaustion e⟩ r left → ∀ a : Nat, state.attempt = .nth a →
        before.walk.attempts + 1 = a := by
  refine ⟨⟨stocks_inOutage misled, Manner.observed_setting rfl rfl (.silent 1) _, rfl, negative,
    rfl⟩, fun h => ?_⟩
  have counted : (Journal.walk ((outageJournal misled).take 7)).attempts = 1 := by decide +kernel
  have told : ((outageJournal misled)[7]?.map toldAtOnce) = some true := by decide +kernel
  obtain ⟨m, here, atOnce⟩ := Option.map_eq_some_iff.mp told
  obtain ⟨state, e, r, left, rfl, first⟩ := of_toldAtOnce atOnce
  obtain ⟨hlt, hm⟩ := List.getElem?_eq_some_iff.mp here
  have split : outageJournal misled = (outageJournal misled).take 7 ++
      .told ⟨state, .exhaustion e⟩ r left :: (outageJournal misled).drop 8 := by
    rw [← hm, List.getElem_cons_drop, List.take_append_drop]
  exact absurd (h _ _ _ split state e r left rfl 1 first) (by rw [counted]; decide)

end Simulation

end Retry
