import Retry.Proofs.Lasting
import Retry.Proofs.Notes
import Retry.Proofs.Twins
import Retry.Proofs.Walks

/-!
# Calls are isolated

Calls of one template follow each other in one world. If its backoff takes no chances and its
listeners only observe (`World.Isolating`), a call of its own leaves the world as it was set up,
whichever way it ends (`runCall_renewed`): only tokens, traces and what listeners remember of the
past differ after it, and that no later call can tell (`runCall_twins`). So every call goes as it
would go alone.

What a call tells its listeners and writes down carries the name of its operation, and its
invocations are given its arguments (`settled_played`).

Main statement: `calls_isolated`.
-/

namespace Retry

/-! ## Backoffs without chance -/

def Backoff.Drawless (b : Backoff) : Prop := ∀ index draws, (b.calculate index draws).2 = draws

namespace Backoff

variable {b : Backoff} {n elapsed : Option Number}

theorem drawless_fixed {interval : Number} (h : fixed interval n elapsed = .ok b) :
    b.Drawless := by
  obtain ⟨⟨⟩, -, h⟩ := Except.of_bind_ok h
  obtain ⟨⟨⟩, -, h⟩ := Except.of_bind_ok h
  obtain rfl := Except.ok.inj h
  exact fun _ _ => rfl

theorem drawless_exponential {g : Growth} (plain : Number.lt 0 g.jitter = false)
    (h : exponential g n elapsed = .ok b) : b.Drawless := by
  obtain ⟨⟨⟩, -, h⟩ := Except.of_bind_ok h
  obtain ⟨⟨⟩, -, h⟩ := Except.of_bind_ok h
  obtain rfl := Except.ok.inj h
  intro index draws
  simp only [Growth.delay, plain, Bool.false_eq_true, if_false]

theorem Drawless.next (h : b.Drawless) (run : Run) (draws : Draws) :
    (b.next run draws).draws = draws := by
  obtain ⟨calculated, idle⟩ := b.next_draws run draws
  by_cases calculates : b.Calculates run
  · exact (calculated calculates).trans (h _ _)
  · exact idle calculates

end Backoff

namespace Simulation

open Retry Act

/-- A walk that takes no random number. -/
inductive Pace.Drawless : Pace → Prop where
  | limited {b : Backoff} (h : b.Drawless) (run : Backoff.Run) : Drawless (.limited b run)
  | scripted (delays : List (Except Failure Delay)) (given : Nat) :
    Drawless (.scripted delays given)

theorem Pace.Drawless.next {p : Pace} (h : p.Drawless) (draws : Draws) :
    (p.next draws).2.1.Drawless ∧ (p.next draws).2.2.1 = draws := by
  cases h with
  | @limited b h run => exact ⟨.limited h _, h.next run draws⟩
  | scripted delays given => exact ⟨.scripted delays _, rfl⟩

/-! ## Worlds in which nothing but calls happened -/

/-- A trace in which events and records name no other operation. -/
structure Trace.Names (named : Datum → Prop) (t : Trace) : Prop where
  events : ∀ e ∈ t.events, named e.operation
  logs : ∀ l ∈ t.logs, ∀ d, l.record.operation? = some d → named d

namespace World

/-- A world set up like another one, in which everything that happened since the last look has a
name. -/
structure Settled (v : World) (named : Datum → Prop) (w : World) : Prop where
  setup : w.renewed = v.renewed
  names : w.trace.Names named

variable {v w u : World} {named : Datum → Prop}

theorem Settled.keep (h : Settled v named w) {r : Record}
    (hr : ∀ d, r.operation? = some d → named d) : Settled v named (w.keep r) where
  setup := (w.keep_renewed r).trans h.setup
  names := by
    unfold World.keep
    split
    · refine ⟨h.names.events, fun l hl => ?_⟩
      rcases List.mem_append.mp hl with hl | hl
      · exact h.names.logs l hl
      · obtain rfl := List.mem_singleton.mp hl
        exact hr
    · exact h.names

theorem Settled.keepAll {notes : List Record} (h : Settled v named w)
    (noted : ∀ r ∈ notes, r.IsNote) : Settled v named (notes.foldl World.keep w) := by
  induction notes generalizing w with
  | nil => exact h
  | cons r notes ih =>
    obtain ⟨hr, hnotes⟩ := List.forall_mem_cons.mp noted
    exact ih (h.keep (by simp [hr.operation?])) hnotes

theorem Settled.drawn (h : Settled v named w) {draws : Draws} (same : draws = w.draws) :
    Settled v named { w with draws } := by
  subst same
  exact h

theorem Settled.waited (h : Settled v named w) (waited : w.Waited u) : Settled v named u where
  setup := waited.renewed.trans h.setup
  names := by
    refine ⟨?_, ?_⟩
    · rw [waited.events]
      exact h.names.events
    · rw [waited.logs]
      exact h.names.logs

theorem steady_act {a : Action} (h : a.Own) : Exact (Steady (Settled v named)) (act a) (act a) := by
  cases h with
  | cancel =>
    refine exact_steady fun w hw => hw.waited ?_
    simp only [act, perform_change]
    cases w.token <;> exact ⟨rfl, rfl, rfl⟩
  | _ => exact exact_result (.error _)

end World

/-! ## Listeners -/

namespace Scene

variable {v : World} {named : Datum → Prop}

/-- A scene whose notice has the name, in a world where everything has. -/
structure Heard (v : World) (named : Datum → Prop) (x : Scene) : Prop where
  notice : named x.1.state.operation
  world : World.Settled v named x.2

theorem Heard.wrote {n : Notice Execution Datum} {w : World} (h : Heard v named (n, w))
    {row : EventRow} (hrow : row.operation = n.state.operation) (key : Nat) (hook : String) :
    Heard v named (n, w.wrote row key hook) where
  notice := h.notice
  world := by
    refine ⟨h.world.setup, fun e he => ?_, h.world.names.logs⟩
    rcases List.mem_append.mp he with he | he
    · exact h.world.names.events e he
    · obtain rfl := List.mem_singleton.mp he
      rw [hrow]
      exact h.notice

theorem steady_hook {leaf : Leaf} (h : leaf.Observing) :
    Exact (Steady (Heard v named)) (hook leaf) (hook leaf) := by
  refine exact_steady fun ⟨n, w⟩ hx => ?_
  obtain idle | ⟨row, key, hrow, writes⟩ := perform_hook_observing h n
  · rw [idle]
    exact hx
  · rw [writes]
    exact hx.wrote hrow key n.event.hook

/-- Listeners that observe write the name down, and leave everything else as it was. -/
theorem steady_tell {l : Listener Leaf} (hv : v.Observed) (h : Observing l) :
    Exact (Steady (Heard v named)) (tell l) (tell l) := by
  refine exact_observing ?_ ?_ (fun _ => steady_hook) h
  · rintro x _ ⟨rfl, -⟩
    rfl
  · rintro x _ ⟨rfl, heard⟩
    exact (hv.of_renewed heard.world.setup).members

end Scene

/-! ## Calls -/

/-- A backoff without chance: a fixed one, or an exponential one without jitter, or a script. -/
inductive Pacing.Plain : Pacing → Prop where
  | fixed {interval : Number} {n elapsed : Option Number} {b : Backoff}
    (made : Backoff.fixed interval n elapsed = .ok b) : Plain (.limited b)
  | exponential {g : Growth} {n elapsed : Option Number} {b : Backoff}
    (plain : Number.lt 0 g.jitter = false) (made : Backoff.exponential g n elapsed = .ok b) :
    Plain (.limited b)
  | scripted (delays : List (Except Failure Delay)) : Plain (.scripted delays)

theorem Pacing.Plain.start {p : Pacing} (h : p.Plain) : p.start.Drawless := by
  cases h with
  | fixed made => exact .limited (Backoff.drawless_fixed made) _
  | exponential plain made => exact .limited (Backoff.drawless_exponential plain made) _
  | scripted delays => exact .scripted delays 0

/-- The template takes no chances, and its listeners only observe. -/
structure World.Isolating (w : World) : Prop where
  backoff : w.template.backoff.Plain
  observed : w.Observed

theorem Manner.perform_invoke_arguments (m : Manner) (plays : List (Act World Datum)) {s : Stage}
    (h : ∀ a ∈ s.1, a = m.arguments) :
    ∀ a ∈ ((m.invoke plays).perform s).2.1, a = m.arguments := by
  simp only [invoke, perform_of]
  cases entryOf plays s.1.length with
  | error f => exact h
  | ok play => exact fun a ha => (List.mem_append.mp ha).elim (h a) List.mem_singleton.mp

namespace CallScript

variable (c : CallScript) (mode : Mode) (token : Option Nat) {v : World}

/-- The name of the operation of a call, if it has one. -/
def Called (d : Datum) : Prop := c.operation.displayName.map .text = .ok d

/-- What holds while a call runs in a world that was set up like this. -/
def course (v : World) : Invariant Stage Pace where
  held s := (∀ a ∈ s.1, a = c.arguments) ∧ v.Settled c.Called s.2
  walk := Pace.Drawless
  granted _ := True
  named := c.Called

theorem keeps_callee (own : c.Own) {s : Stage} (hs : (c.course v).held s) :
    (c.course v).held
      (((c.manner mode token).callee c.operation (playAll mode c.outcomes)).perform s).2 := by
  unfold Manner.callee
  cases c.operation.given? with
  | some r => exact hs
  | none =>
    show (c.course v).held (((c.manner mode token).mode.bounded _).perform s).2
    rw [Mode.perform_bounded]
    refine ⟨(c.manner mode token).perform_invoke_arguments _ hs.1, ?_⟩
    have plays : ∀ play ∈ playAll mode c.outcomes,
        Exact (Steady (World.Settled v c.Called)) play play :=
      World.exact_playAll (fun _ => World.steady_act) mode own.outcomes
    have staged : Exact (Staged (Steady (World.Settled v c.Called)))
        ((c.manner mode token).invoke (playAll mode c.outcomes))
        ((c.manner mode token).invoke (playAll mode c.outcomes)) := Manner.exact_staged rfl plays
    exact (staged s s ⟨rfl, rfl, hs.2⟩).same.2.2.2

theorem keeps_pause (invoke : Act Stage Datum) (name : String) (d : Delay) {s : Stage}
    (hs : (c.course v).held s) :
    (c.course v).held ((((c.manner mode token).setting invoke).pause name d).perform s).2 := by
  have waits := (c.manner mode token).steady_waiting (P := (c.course v).held)
    fun _ _ waited ht => ⟨ht.1, ht.2.waited waited⟩
  have noted (r : Record) (s t : Stage) (hr : Wait.note d = .ok r)
      (hs : Steady (c.course v).held s t) :
      Steady (c.course v).held (((c.manner mode token).setting invoke).emit r s)
        (((c.manner mode token).setting invoke).emit r t) :=
    ⟨by rw [hs.1], hs.2.1, hs.2.2.keep (by simp [(Wait.isNote hr).operation?])⟩
  have steady : Exact (Steady (c.course v).held)
      ((((c.manner mode token).setting invoke).waiting (c.manner mode token).waiting).pause name d)
      ((((c.manner mode token).setting invoke).waiting (c.manner mode token).waiting).pause
        name d) := waits.noting noted name
  rw [Manner.setting_waiting] at steady
  exact (steady s s ⟨rfl, hs⟩).same.2.2

/-- **A call of its own keeps its course**, if it takes no chances and its listeners observe. -/
theorem keeps_course (own : c.Own) (isolating : v.Isolating) :
    ((c.manner mode token).setting
      ((c.manner mode token).callee c.operation (playAll mode c.outcomes))).Keeps (c.course v) where
  emit := fun r s named hs => ⟨hs.1, hs.2.keep named⟩
  invoke := fun s hs => c.keeps_callee mode token own hs
  openPolicy := fun _ hs => hs
  openBackoff := by
    rintro s r t hs ⟨⟩
    refine ⟨hs, ?_⟩
    rintro p ⟨⟩
    show s.2.template.backoff.start.Drawless
    rw [World.template_of_renewed hs.2.setup]
    exact isolating.backoff.start
  shouldRetry := fun f e s hs => ⟨hs.1, hs.2.keepAll (e.isNote f)⟩
  nextDelay := by
    rintro p s r q t walk hs ⟨⟩
    obtain ⟨drawless, draws⟩ := walk.next s.2.draws
    exact ⟨drawless, ⟨hs.1, (hs.2.drawn draws).keepAll (p.isNote s.2.draws)⟩, fun _ _ _ => trivial⟩
  pause := fun name d s _ hs => c.keeps_pause mode token _ name d hs
  notify := by
    rintro n s r m t named hs tell
    have observing := (isolating.observed.of_renewed hs.2.setup).listener
    have told := Scene.steady_tell isolating.observed observing (n, s.2) (n, s.2)
      ⟨rfl, named, hs.2⟩
    obtain ⟨-, -, notice, world⟩ := told.same
    have passed : (m, t) = (((Scene.tell s.2.template.listener).perform (n, s.2)).2.1, s.1,
        ((Scene.tell s.2.template.listener).perform (n, s.2)).2.2) :=
      (congrArg Prod.snd tell).symm
    obtain ⟨rfl, rfl⟩ := Prod.mk.inj passed
    exact ⟨notice, hs.1, world⟩

/-- What a call leaves: its invocations were given its arguments, and its world is settled. -/
theorem settled_played (own : c.Own) {w : World} (isolating : w.Isolating) :
    (c.course w).held (c.played mode (w.begun c)).2 := by
  have begun : (c.course w).held ([], w.begun c) :=
    ⟨fun _ ha => absurd ha (by simp), w.begun_renewed c,
      fun _ he => absurd he (by simp [World.begun]), fun _ hl => absurd hl (by simp [World.begun])⟩
  have called (name : String) (named : c.operation.displayName = .ok name) :
      (c.course w).named (.text name) := by
    show c.operation.displayName.map Datum.text = .ok (Datum.text name)
    rw [named, Except.map]
  have held := (c.keeps_course mode (w.begun c).token own isolating).call mode c.operation called
    Manner.patience begun
  rw [played, Manner.perform_call_snd]
  exact held

end CallScript

namespace World

variable (mode : Mode) {v w : World}

/-- **A call of its own leaves a world as it was set up**, whichever way it ends. -/
theorem runCall_renewed (isolating : w.Isolating) {c : CallScript} (own : c.Own) :
    (w.runCall mode c).2.renewed = w.renewed := by
  have setup := (c.settled_played mode own isolating).2.setup
  cases mode with
  | blocking => exact setup
  | task =>
    show { (c.played .task (w.begun c)).2.2.renewed with
      correlation := (w.begun c).renewed.correlation } = w.renewed
    rw [setup, begun_renewed]

theorem Isolating.of_renewed (h : v.Isolating) (same : w.renewed = v.renewed) : w.Isolating where
  backoff := template_of_renewed same ▸ h.backoff
  observed := h.observed.of_renewed same

/-- Calls that follow each other go as each of them goes where nothing happened before. -/
theorem runCalls_fresh (fresh : v.renewed = w.renewed) (isolating : w.Isolating)
    {cs : List CallScript} (own : ∀ c ∈ cs, c.Own) :
    (w.runCalls mode cs).1 = cs.map (fun c => (v.runCall mode c).1) ∧
      (w.runCalls mode cs).2.renewed = w.renewed := by
  induction cs generalizing w with
  | nil => exact ⟨rfl, rfl⟩
  | cons c cs ih =>
    obtain ⟨hc, hcs⟩ := List.forall_mem_cons.mp own
    have left := runCall_renewed mode isolating hc
    have row := runCall_twins mode fresh (isolating.observed.of_renewed fresh) hc
    obtain ⟨rows, settled⟩ := ih (fresh.trans left.symm) (isolating.of_renewed left) hcs
    refine ⟨?_, settled.trans left⟩
    rw [List.map_cons, row, ← rows]
    rfl

end World

/-- The invocations of a call were given these arguments, under this name. -/
structure CallRow.Binds (row : CallRow) (arguments : Arguments) (name : String) : Prop where
  given : ∀ a ∈ row.invocations, a = arguments
  named : row.trace.Names (· = .text name)

theorem CallScript.binds (mode : Mode) {w : World} (isolating : w.Isolating) {c : CallScript}
    (own : c.Own) {name : String} (display : c.operation.displayName = .ok name) :
    (w.runCall mode c).1.Binds c.arguments name := by
  obtain ⟨given, settled⟩ := c.settled_played mode own isolating
  have called (d : Datum) (h : c.Called d) : d = .text name := by
    rw [Called, display] at h
    exact (Except.ok.inj h).symm
  exact ⟨given, fun e he => called _ (settled.names.events e he),
    fun l hl d hd => called d (settled.names.logs l hl d hd)⟩

/-- **Calls are isolated.** However the calls before it ended, a call has the row that it has alone:
the same ending, invocations, waits, events and records. The template is left as it was. All
invocations are given the arguments of their call, and what is told and written down carries the
name of its operation; for a decorated function that is its qualified name. -/
theorem calls_isolated (mode : Mode) {v w : World} (fresh : v.renewed = w.renewed)
    (isolating : w.Isolating) {cs : List CallScript} (own : ∀ c ∈ cs, c.Own) :
    ((w.runCalls mode cs).1 = cs.map (fun c => (v.runCall mode c).1) ∧
      (w.runCalls mode cs).2.renewed = w.renewed) ∧
    (∀ c ∈ cs, ∀ name, c.operation.displayName = .ok name →
      (v.runCall mode c).1.Binds c.arguments name) ∧
    ∀ (c : CallScript) (qualifiedName : String), c.decorated qualifiedName ∈ cs →
      (v.runCall mode (c.decorated qualifiedName)).1.Binds c.arguments qualifiedName := by
  have alone : v.Isolating := isolating.of_renewed fresh
  refine ⟨World.runCalls_fresh mode fresh isolating own,
    fun c hc name display => c.binds mode alone (own c hc) display, fun c q hc => ?_⟩
  exact (c.decorated q).binds mode alone (own _ hc) (Operation.displayName_decorated q c.operation)

/-- Delays of one, two, four units and so on up to thirty. -/
def doubling : Growth := { jittery with jitter := 0 }

def doubled : Backoff := (Backoff.exponential doubling none none).toOption.getD brief

theorem doubled_made : Backoff.exponential doubling none none = .ok doubled := by
  have accepted : doubling.Accepted := { jittery_accepted with jitter := by decide +kernel }
  obtain ⟨b, made, -⟩ := Backoff.exponential_unlimited accepted
  rw [doubled, made]
  rfl

/-- A world with this backoff, in which a recorder is a member of the group that is told. -/
def audited : World where
  template? := some ⟨.count ⟨3⟩, .limited doubled, .group 0⟩
  groups := [[.leaf (.recorder 1 "audit" [])]]

theorem audited_isolating : audited.Isolating where
  backoff := .exponential (by decide +kernel) doubled_made
  observed := by
    refine ⟨.group 0, fun id l hl => ?_⟩
    rcases id with _ | id
    · obtain rfl := List.mem_singleton.mp hl
      exact .leaf (.recorder 1 "audit")
    · exact absurd hl (by simp [World.members, audited])

/-- A call whose invocations end with these failures in turn, and then with a value. -/
def recovering (failures : List Failure) (token : TokenUse) (n : Number) : CallScript where
  operation := .function "work"
  outcomes := failures.map (fun f => .mk [] (.fails f)) ++ [.mk [] (.value 42)]
  token := token
  cancelOnWait := none
  arguments := { positional := [.number n] }

theorem recovering_own {failures : List Failure} {token : TokenUse} (h : token ≠ .same)
    (n : Number) : (recovering failures token n).Own where
  token := h
  outcomes := by
    intro o ho
    rcases List.mem_append.mp ho with ho | ho
    · obtain ⟨f, -, rfl⟩ := List.mem_map.mp ho
      exact .fails (fun _ ha => absurd ha (by simp)) f
    · obtain rfl := List.mem_singleton.mp ho
      exact .value (fun _ ha => absurd ha (by simp)) 42

/-- Calls of a decorated function that run out of attempts, are interrupted and return, and one of
a plain function whose wait is cancelled. -/
def mixed : List CallScript :=
  let boom := Failure.of .valueError "boom"
  [(recovering [boom, boom, boom] .without 1).decorated "fetch",
    (recovering [World.interruption] .without 2).decorated "fetch",
    recovering [boom] (.fresh ⟨true, none⟩) 3,
    (recovering [boom] .without 4).decorated "fetch"]

theorem decorated_own {failures : List Failure} (n : Number) :
    ((recovering failures .without n).decorated "fetch").Own := by
  have plain : (recovering failures .without n).Own := recovering_own (by simp) n
  exact ⟨plain.token, plain.outcomes⟩

theorem mixed_own : ∀ c ∈ mixed, c.Own := by
  simp only [mixed, List.forall_mem_cons]
  exact ⟨decorated_own 1, decorated_own 2, recovering_own (by simp) 3, decorated_own 4, by simp⟩

/-- In a world where a call was cancelled, they are invoked as often as they would be alone, and the
recorder is told of retries and of running out. -/
theorem calls_isolated_mixed :
    let later := { audited with tokens := [⟨true, none, 1⟩], token := some 0, keys := 7 }
    let rows := (later.runCalls .blocking mixed).1
    let last := recovering [.of .valueError "boom"] .without 4
    (audited.renewed = later.renewed ∧ later.Isolating ∧ ∀ c ∈ mixed, c.Own) ∧
      rows = mixed.map (fun c => (audited.runCall .blocking c).1) ∧
      rows.map (fun r => (r.ending.isOk, r.invocations.length, r.trace.events.length)) =
        [(false, 3, 5), (false, 1, 0), (false, 1, 0), (true, 2, 2)] ∧
      (later.runCalls .blocking mixed).2.renewed = later.renewed ∧
      (audited.runCall .blocking (last.decorated "fetch")).1.Binds last.arguments "fetch" := by
  intro later rows last
  have fresh : audited.renewed = later.renewed := rfl
  have isolating : later.Isolating := audited_isolating.of_renewed rfl
  obtain ⟨⟨alone, left⟩, -, bound⟩ := calls_isolated .blocking fresh isolating mixed_own
  exact ⟨⟨fresh, isolating, mixed_own⟩, alone, by decide +kernel, left,
    bound last "fetch" (by simp [mixed, last])⟩

end Simulation

end Retry
