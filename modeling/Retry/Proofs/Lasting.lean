import Retry.Proofs.Attempts
import Retry.Proofs.Durations
import Retry.Proofs.Keeping
import Retry.Proofs.Renewal

/-!
# Calls that wait for durations

A call that takes its delays from a fixed or an exponential backoff that was accepted (`Paced`)
waits for nothing but what that backoff gave: never for less than no time, and if its settings
are sane, for a number of seconds.

Settings that are not sane break that. A NaN is accepted for every one of them and given as a
delay, and numbers can make one, too (`Backoff.nan_given`).

Main statement: `delays_last`.
-/

namespace Retry.Simulation

open Retry Act

/-- A walk through a fixed or an exponential backoff that was accepted. -/
inductive Pace.Made (sane : Prop) : Pace → Prop where
  | limited {b : Backoff} {run : Backoff.Run} (made : b.Made sane) : Made sane (.limited b run)

/-- The call walks through backoffs that were accepted, with random numbers that are fair, as long
as `Held` says so. -/
structure Paced {σ ε α : Type} (S : Setting σ ε Pace α) (w : Waiting σ) (sane : Prop)
    (Held : σ → Prop) : Prop where
  keeps : (S.waiting w).Keeps ⟨Held, Pace.Made sane, fun _ => True, fun _ => True⟩
  draws : ∀ p s, Held s → ∃ draws : Draws, draws.Fair ∧
    (S.nextDelay.perform (p, s)).1 = (p.next draws).1

section

variable {σ ε α : Type} {S : Setting σ ε Pace α} {w : Waiting σ} {sane : Prop} {Held : σ → Prop}

/-- Whatever such a call grants is a delay that a wait can take. -/
theorem Paced.granted (h : Paced S w sane Held) :
    (S.waiting w).Keeps ⟨Held, Pace.Made sane, Delay.Lasts sane, fun _ => True⟩ :=
  { h.keeps with
    pause := fun name d s _ hs => h.keeps.pause name d s trivial hs
    nextDelay := by
      intro p s r q t walk hs draw
      obtain ⟨walk', held, -⟩ := h.keeps.nextDelay p s r q t walk hs draw
      refine ⟨walk', held, fun d hd going => ?_⟩
      obtain ⟨draws, fair, same⟩ := h.draws p s hs
      cases walk with
      | @limited b run made =>
        have given : (b.next run draws).delay = .ok d := by
          rw [← hd,
            ← show (S.nextDelay.perform (.limited b run, s)).1 = r from congrArg Prod.fst draw]
          exact same.symm
        rcases made.next fair given with rfl | lasts
        · rw [Backoff.isStop_stop] at going
          exact absurd going (by simp)
        · exact lasts }

/-- The template of a call holds a backoff that was accepted, and random numbers are fair. -/
def Manner.Provides (m : Manner) (sane : Prop) (s : Stage) : Prop :=
  s.2.draws.Fair ∧ ∃ b : Backoff, (m.source.template s.2).backoff = .limited b ∧ b.Made sane

theorem Manner.Provides.of_template {m : Manner} {s t : Stage} (h : m.Provides sane s)
    (fair : t.2.draws.Fair) (same : t.2.template? = s.2.template?) : m.Provides sane t := by
  obtain ⟨-, b, backoff, made⟩ := h
  have template : m.source.template t.2 = m.source.template s.2 :=
    World.template_of_same m.source same
  exact ⟨fair, b, template ▸ backoff, made⟩

theorem Manner.Provides.of_renewed {m : Manner} {s t : Stage} (h : m.Provides sane s)
    (same : t.2.renewed = s.2.renewed) : m.Provides sane t := by
  refine h.of_template ?_ (World.template?_of_renewed same)
  rw [World.draws_of_renewed same]
  exact h.1

/-- **A simulated call is paced by its template**, as long as its operation and its listeners
leave a backoff in it that was accepted. -/
theorem paced_setting (m : Manner) {invoke : Act Stage Datum}
    (invoked : ∀ s, m.Provides sane s → m.Provides sane (invoke.perform s).2)
    (told : ∀ n s, m.Provides sane s →
      m.Provides sane ((m.setting invoke).notify.perform (n, s)).2.2) :
    Paced (m.setting invoke) m.waiting sane (m.Provides sane) where
  keeps := {
    emit := fun r s _ hs => hs.of_renewed (m.emit_renewed invoke r s)
    invoke := invoked
    openPolicy := fun _ hs => hs
    openBackoff := by
      rintro s r t hs ⟨⟩
      refine ⟨hs, ?_⟩
      rintro p ⟨⟩
      obtain ⟨-, b, backoff, made⟩ := hs
      show Pace.Made sane (m.source.template s.2).backoff.start
      rw [backoff]
      exact .limited made
    shouldRetry := fun f e s hs => hs.of_renewed (World.keepAll_renewed _ s.2)
    nextDelay := by
      rintro p s r q t walk hs ⟨⟩
      cases walk with
      | limited made =>
        refine ⟨.limited made, hs.of_template ?_ (World.keepAll_template _ _), fun _ _ _ => trivial⟩
        show Draws.Fair (World.draws (List.foldl World.keep _ _))
        rw [World.draws_of_renewed (World.keepAll_renewed _ _)]
        exact made.next_fair hs.1 _
    pause := fun name d s _ hs => hs.of_renewed (m.pause_renewed invoke name d s)
    notify := by
      rintro n s r k t - hs tell
      have kept := told n s hs
      rw [show (m.setting invoke).notify.perform (n, s) = (r, k, t) from tell] at kept
      exact ⟨trivial, kept⟩ }
  draws := fun p s hs => ⟨s.2.draws, hs.1, rfl⟩

/-- A configuration that is accepted makes a backoff that is. -/
theorem made_of_config {κ : Type} {n interval : Number} {elapsed : Option Number}
    {listeners : List κ} {c : Config κ} {t : Template CountPolicy Backoff (List κ)}
    (make : Config.make n interval elapsed listeners = .ok c) (template : c.toTemplate = .ok t) :
    t.backoff.Made (interval ≠ .nan) := by
  obtain ⟨⟨⟩, -, made⟩ := Except.of_bind_ok make
  obtain rfl := Except.ok.inj made
  obtain ⟨policy, -, template⟩ := Except.of_bind_ok template
  obtain ⟨backoff, accepted, template⟩ := Except.of_bind_ok template
  obtain rfl := Except.ok.inj template
  exact .fixed accepted

/-- **Every delay is one that a wait can take.** A walk stops or gives one, however often it is
asked; a call draws and sleeps no other; and a configuration makes no other backoff. -/
theorem delays_last (sane : Prop) :
    (∀ b : Backoff, b.Made sane → ∀ asked : List Draws, (∀ draws ∈ asked, draws.Fair) →
      ∀ a ∈ b.answers .start asked, ∀ d, a.delay = .ok d →
        d = some Backoff.stop ∨ d.Lasts sane) ∧
    (∀ {σ ε α : Type} (S : Setting σ ε Pace α) (w : Waiting σ) (Held : σ → Prop),
      Paced S w sane Held → ∀ (operation : Operation) (fuel : Nat) (s : σ), Held s →
        ((w.mode.call (S.kept w) operation fuel).perform ([], s)).2.1.Granted (Delay.Lasts sane)) ∧
    ∀ {κ : Type} (n interval : Number) (elapsed : Option Number) (listeners : List κ)
      (c : Config κ) (t : Template CountPolicy Backoff (List κ)),
      Config.make n interval elapsed listeners = .ok c → c.toTemplate = .ok t →
        t.backoff.Made (interval ≠ .nan) := by
  refine ⟨fun b made asked fair a ha d hd => made.answers fair ha hd,
    fun S w Held paced operation fuel s hs => ?_, fun _ _ _ _ _ _ => made_of_config⟩
  exact (paced.granted.kept.call w.mode operation (fun _ _ => trivial) fuel
    ⟨Journal.granted_nil, hs⟩).1

end

/-- Delays of one, two, four units and so on up to thirty, each lengthened by up to a half. -/
def jittery : Growth where
  initial := 1
  multiplier := 2
  largest := 30
  jitter := .double (.ofRatio false 1 2)

theorem jittery_accepted : jittery.Accepted where
  initial := by decide +kernel
  multiplier := by decide +kernel
  largest := by decide +kernel
  jitter := by decide +kernel

theorem jittery_sane : jittery.Sane := by
  have half : jittery.jitter.Finite := .double (Binary64.finite_ofUnits (by decide +kernel))
  exact jittery_accepted.sane_of_finite .whole (by decide) .whole half

def jittered : Backoff := (Backoff.exponential jittery none none).toOption.getD brief

theorem jittered_made : Backoff.exponential jittery none none = .ok jittered := by
  obtain ⟨b, accepted, -⟩ := Backoff.exponential_unlimited jittery_accepted
  rw [jittered, accepted]
  rfl

theorem hourly_made : ∃ c t, Config.make 3 3600 none ([] : List Leaf) = .ok c ∧
    c.toTemplate = .ok t := by
  have count : Limits.maxAttempts 3 = .ok () := Limits.atLeast_ok.mpr (by decide +kernel)
  have hour : Limits.backoff 3600 none none = .ok () := Limits.unlimited (by decide +kernel)
  have interval : Limits.interval 3600 = .ok () := (Limits.backoff_ok.mp hour).1
  have unlimited := Limits.unlimited (Number.lt_irrefl 0)
  refine ⟨⟨3, 3600, none, []⟩, ?_⟩
  simp only [Config.make, Config.check, Config.toTemplate, CountPolicy.make, Backoff.fixed, count,
    hour, interval, unlimited, bind, Except.bind, pure, Except.pure, Except.ok.injEq, true_and,
    exists_eq']

/-- A template with a backoff, that nobody listens to. -/
def patient (b : Backoff) : Template Policy Pacing (Listener Leaf) :=
  ⟨.count ⟨3⟩, .limited b, .leaf (.silent 1)⟩

theorem paced_patient (b : Backoff) (sane : Prop) :
    Paced (Source.own (patient b)).inOutage (outage (.own (patient b))).waiting sane
      ((outage (.own (patient b))).Provides sane) := by
  refine paced_setting _ (fun s hs => ?_) fun n s hs => ?_
  · rw [show (outage (.own (patient b))).invoke broken = (Source.own (patient b)).inOutage.invoke
      from rfl, perform_inOutage]
    exact hs.of_renewed rfl
  · obtain ⟨u, told, rest, -⟩ := Manner.perform_notify_observing (m := outage (.own (patient b)))
      rfl rfl (.silent 1) ((outage (.own (patient b))).invoke broken) n s
    rw [told]
    have draws : u.rest.draws = s.2.rest.draws := by rw [rest]
    refine ⟨?_, hs.2⟩
    rw [show u.draws = s.2.draws from draws]
    exact hs.1

theorem fair_zero : Draws.zero.Fair := by
  intro r hr
  obtain rfl : r = .double (.zero false) := by simpa [Draws.zero] using hr
  decide +kernel

theorem provides_patient {b : Backoff} {sane : Prop} (made : b.Made sane) :
    (outage (.own (patient b))).Provides sane ([], .blank) := by
  have draws : World.blank.draws = .zero := rfl
  refine ⟨?_, b, rfl, made⟩
  rw [draws]
  exact fair_zero

/-- The call of an operation that never succeeds is told to wait twice, for durations. A
configuration has its interval for a delay. -/
theorem delays_last_jittered :
    let m := outage (.own (patient jittered))
    let x := (m.waiting.mode.call ((Source.own (patient jittered)).inOutage.kept m.waiting)
      (.function "fetch") 3).perform ([], [], .blank)
    jittery.Sane ∧ jittered.Made jittery.Sane ∧
      (∀ a ∈ jittered.answers .start [.zero, .zero], ∀ d, a.delay = .ok d →
        d = some Backoff.stop ∨ d.Lasts jittery.Sane) ∧
      Paced (Source.own (patient jittered)).inOutage m.waiting jittery.Sane
        (m.Provides jittery.Sane) ∧
      x.2.1.Granted (Delay.Lasts jittery.Sane) ∧ Journal.waits x.2.1 = 2 ∧
      ∃ c t, Config.make 3 3600 none ([] : List Leaf) = .ok c ∧ c.toTemplate = .ok t ∧
        t.backoff.Made ((3600 : Number) ≠ .nan) := by
  dsimp only
  have made : jittered.Made jittery.Sane := .exponential jittered_made
  obtain ⟨answers, calls, configured⟩ := delays_last jittery.Sane
  have fair : ∀ draws ∈ [Draws.zero, .zero], draws.Fair :=
    List.forall_mem_cons.mpr ⟨fair_zero, List.forall_mem_singleton.mpr fair_zero⟩
  have paced := paced_patient jittered jittery.Sane
  have granted := calls _ _ _ paced (.function "fetch") 3 ([], .blank) (provides_patient made)
  obtain ⟨c, t, make, template⟩ := hourly_made
  exact ⟨jittery_sane, made, answers jittered made _ fair, paced, granted, by decide +kernel,
    c, t, make, template, configured 3 3600 none [] c t make template⟩

end Retry.Simulation
