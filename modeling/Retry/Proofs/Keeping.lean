import Retry.Proofs.Journal

/-!
# What a call keeps

An `Invariant` says something of the surroundings of a call, of its walk through the backoff, of
the delays that it waits for and of the name that listeners see and records carry. If every
collaborator keeps it (`Setting.Keeps`), a call does (`Keeps.call`): a walk is only ever continued
from where it was, and only a delay that it granted is waited for.

With a journal the same holds, and the journal shows it: whatever was drawn or slept was granted
(`Keeps.kept`).
-/

namespace Retry

/-- The operation that a record names, if it names one. -/
def Record.operation? (r : Record) : Option Datum :=
  match r.fields.lookup (mark ++ "operation") with
  | some (.datum d) => some d
  | _ => none

theorem Phase.operation?_record {name : String} {attempt : Attempt} {phase : Phase} {r : Record}
    (h : phase.record name attempt = .ok r) : r.operation? = some (.text name) := by
  obtain ⟨message, -, h⟩ := Except.of_bind_ok h
  obtain rfl := Except.ok.inj h
  cases phase.delay? <;> rfl

/-- What holds of the surroundings of a call, of a walk, of a granted delay and of the name of
the operation. -/
structure Invariant (σ β : Type) where
  held : σ → Prop
  walk : β → Prop
  granted : Delay → Prop
  named : Datum → Prop

namespace Setting

variable {σ ε β α : Type}

/-- Every collaborator keeps an invariant. -/
structure Keeps (S : Setting σ ε β α) (I : Invariant σ β) : Prop where
  emit : ∀ r s, (∀ d, r.operation? = some d → I.named d) → I.held s → I.held (S.emit r s)
  invoke : ∀ s, I.held s → I.held (S.invoke.perform s).2
  openPolicy : ∀ s, I.held s → I.held (S.openPolicy.perform s).2
  openBackoff : ∀ s r t, I.held s → S.openBackoff.perform s = (r, t) →
    I.held t ∧ ∀ b, r = .ok b → I.walk b
  shouldRetry : ∀ f e s, I.held s → I.held ((S.shouldRetry f).perform (e, s)).2.2
  nextDelay : ∀ b s r c t, I.walk b → I.held s → S.nextDelay.perform (b, s) = (r, c, t) →
    I.walk c ∧ I.held t ∧ ∀ d, r = .ok d → Backoff.isStop d = false → I.granted d
  pause : ∀ name d s, I.granted d → I.held s → I.held ((S.pause name d).perform s).2
  notify : ∀ n s r m t, I.named n.state.operation → I.held s →
    S.notify.perform (n, s) = (r, m, t) → I.named m.state.operation ∧ I.held t

namespace Keeps

variable {S : Setting σ ε β α} {I : Invariant σ β} {name : String} {p q : Progress ε β} {s t : σ}

/-- What holds of a call between two turns. -/
structure Between (I : Invariant σ β) (p : Progress ε β) (s : σ) : Prop where
  held : I.held s
  walk : I.walk p.backoff
  named : I.named p.state.operation

variable (h : S.Keeps I)

include h

theorem invoked {r : Except Failure α} (hs : I.held s) (invoke : S.invoke.perform s = (r, t)) :
    I.held t := by
  have held := h.invoke s hs
  rwa [invoke] at held

theorem asked {f : Failure} {e e' : ε} {r : Except Failure Bool} (hs : I.held s)
    (ask : (S.shouldRetry f).perform (e, s) = (r, e', t)) : I.held t := by
  have held := h.shouldRetry f e s hs
  rwa [ask] at held

theorem paused {d : Delay} {r : Except Failure (Option Failure)} (hd : I.granted d)
    (hs : I.held s) (pause : (S.pause name d).perform s = (r, t)) : I.held t := by
  have held := h.pause name d s hd hs
  rwa [pause] at held

theorem told {state : CallState ε} {event : Event α} {r : Except Failure Unit} {m : Notice ε α}
    (tell : S.notify.perform (⟨state, event⟩, s) = (r, m, t))
    (named : I.named state.operation) (hs : I.held s) : I.named m.state.operation ∧ I.held t :=
  h.notify _ s r m t named hs tell

/-! ## The parts of a turn -/

section

variable (called : I.named (.text name))

include called

theorem recorded {attempt : Attempt} {phase : Phase} {r : Record}
    (word : phase.record name attempt = .ok r) (hs : I.held s) : I.held (S.emit r s) := by
  refine h.emit r s (fun d hd => ?_) hs
  obtain rfl := Option.some.inj ((Phase.operation?_record word).symm.trans hd)
  exact called

theorem said (attempt : Attempt) (phase : Phase) (hs : I.held s) :
    I.held (S.said name attempt phase s) := by
  unfold Setting.said
  cases word : phase.record name attempt with
  | ok r => exact h.recorded called word hs
  | error f => exact hs

theorem consulted {r : Except Failure (Option Delay × Progress ε β)} (hp : Between I p s)
    (consult : S.Consulted name p s (r, t)) :
    I.held t ∧ ∀ granted q, r = .ok (granted, q) →
      Between I q t ∧ ∀ d, granted = some d → I.granted d := by
  cases consult with
  | unanswered ask => exact ⟨h.asked hp.held ask, by simp⟩
  | refused ask =>
    have held := h.asked hp.held ask
    refine ⟨held, ?_⟩
    rintro _ _ ⟨⟩
    exact ⟨⟨held, hp.walk, hp.named⟩, by simp⟩
  | undrawn ask draw =>
    exact ⟨(h.nextDelay _ _ _ _ _ hp.walk (h.asked hp.held ask) draw).2.1, by simp⟩
  | unkept ask draw =>
    exact ⟨(h.nextDelay _ _ _ _ _ hp.walk (h.asked hp.held ask) draw).2.1, by simp⟩
  | stopped ask draw stop =>
    obtain ⟨walk, held, -⟩ := h.nextDelay _ _ _ _ _ hp.walk (h.asked hp.held ask) draw
    have held : I.held (S.said name p.state.attempt .backoffStopped _) := h.said called _ _ held
    refine ⟨held, ?_⟩
    rintro _ _ ⟨⟩
    exact ⟨⟨held, walk, hp.named⟩, by simp⟩
  | granted ask draw go =>
    obtain ⟨walk, held, granted⟩ := h.nextDelay _ _ _ _ _ hp.walk (h.asked hp.held ask) draw
    refine ⟨held, ?_⟩
    rintro _ _ ⟨⟩
    refine ⟨⟨held, walk, hp.named⟩, ?_⟩
    rintro _ ⟨⟩
    exact granted _ rfl go

theorem awaited {d : Delay} {r : Except Failure (Option Failure)} (hs : I.held s)
    (hd : I.granted d) (await : S.Awaited name p d s (r, t)) : I.held t := by
  cases await with
  | unworded word => exact hs
  | unkept => exact hs
  | unpaused word pause => exact h.paused hd (h.recorded called word hs) pause
  | passed word pause => exact h.paused hd (h.recorded called word hs) pause
  | unkeptEnd word pause => exact h.paused hd (h.recorded called word hs) pause
  | cancelled word pause =>
    have held := h.paused hd (h.recorded called word hs) pause
    exact h.said called _ _ held

theorem reattempted {r : Except Failure (Turn ε β α)} (hp : Between I p s)
    (reattempt : S.Reattempted name p s (r, t)) :
    I.held t ∧ (∀ q, r = .ok (.again q) → Between I q t) ∧ ∀ q, r ≠ .ok (.refused q) := by
  have announced {a : Attempt} {n : Notice ε α} {u : σ} (before : S.Announced name p s a n u) :
      I.named n.state.operation ∧ I.held u :=
    h.told before.tell hp.named (h.said called _ _ hp.held)
  cases reattempt with
  | uncounted count => exact ⟨hp.held, by simp, by simp⟩
  | unkept => exact ⟨hp.held, by simp, by simp⟩
  | unannounced count tell =>
    exact ⟨(h.told tell hp.named (h.said called _ _ hp.held)).2, by simp, by simp⟩
  | interrupted before invoke extra =>
    exact ⟨h.invoked (announced before).2 invoke, by simp, by simp⟩
  | unpraised before invoke tell =>
    have held := h.invoked (announced before).2 invoke
    exact ⟨(h.told tell (announced before).1 held).2, by simp, by simp⟩
  | unkeptSuccess before invoke tell =>
    have held := h.invoked (announced before).2 invoke
    exact ⟨(h.told tell (announced before).1 held).2, by simp, by simp⟩
  | succeeded before invoke tell =>
    have held := h.invoked (announced before).2 invoke
    have praised := h.told tell (announced before).1 held
    exact ⟨h.said called _ _ praised.2, by simp, by simp⟩
  | unblamed before invoke plain tell =>
    have held := h.invoked (announced before).2 invoke
    exact ⟨(h.told tell (announced before).1 held).2, by simp, by simp⟩
  | unkeptFailure before invoke plain tell =>
    have held := h.invoked (announced before).2 invoke
    exact ⟨(h.told tell (announced before).1 held).2, by simp, by simp⟩
  | failed before invoke plain tell =>
    have held := h.invoked (announced before).2 invoke
    have blamed := h.told tell (announced before).1 held
    refine ⟨h.said called _ _ blamed.2, ?_, by simp⟩
    rintro _ ⟨⟩
    exact ⟨h.said called _ _ blamed.2, hp.walk, blamed.1⟩

theorem gaveUp {r : Except Failure Failure} (hp : Between I p s)
    (give : S.GaveUp name p s (r, t)) : I.held t := by
  cases give with
  | unkept => exact hp.held
  | untold tell => exact (h.told tell hp.named (h.said called _ _ hp.held)).2
  | told tell => exact (h.told tell hp.named (h.said called _ _ hp.held)).2

theorem turned {r : Except Failure (Turn ε β α)} (hp : Between I p s)
    (turn : S.Turned name p s (r, t)) :
    I.held t ∧ ∀ q, r = .ok (.again q) ∨ r = .ok (.refused q) → Between I q t := by
  cases turn with
  | unconsulted consult => exact ⟨(h.consulted called hp consult).1, by simp⟩
  | refused consult =>
    obtain ⟨held, begun⟩ := h.consulted called hp consult
    refine ⟨held, ?_⟩
    rintro _ (refused | refused)
    · cases refused
    · cases refused
      exact (begun _ _ rfl).1
  | unawaited consult await =>
    obtain ⟨begun, granted⟩ := (h.consulted called hp consult).2 _ _ rfl
    exact ⟨h.awaited called begun.held (granted _ rfl) await, by simp⟩
  | aborted consult await =>
    obtain ⟨begun, granted⟩ := (h.consulted called hp consult).2 _ _ rfl
    exact ⟨h.awaited called begun.held (granted _ rfl) await, by simp⟩
  | reattempted consult await reattempt =>
    obtain ⟨begun, granted⟩ := (h.consulted called hp consult).2 _ _ rfl
    have waited := h.awaited called begun.held (granted _ rfl) await
    obtain ⟨held, again, unrefused⟩ :=
      h.reattempted called ⟨waited, begun.walk, begun.named⟩ reattempt
    exact ⟨held, fun q => Or.rec (again q) fun refused => absurd refused (unrefused q)⟩

/-! ## Turns and calls -/

theorem turns (fuel : Nat) (hp : Between I p s) :
    I.held ((S.turns name fuel p).perform s).2 := by
  have turns := S.turns_invariant name (I := fun _ p s => Between I p s)
    (Q := fun z => I.held z.2)
    (fun _ p s q t hp turn => (h.turned called hp turn).2 q (.inl rfl))
    (fun _ p s e t hp turn => (h.turned called hp turn).1)
    (fun _ p s f t hp turn => (h.turned called hp turn).1) ?refused fuel 0 p s hp
  case refused =>
    intro _ p s q t hp turn
    have refused := (h.turned called hp turn).2 q (.inr rfl)
    exact ⟨fun _ _ give => h.gaveUp called refused give,
      fun _ _ give => h.gaveUp called refused give⟩
  rcases turns with held | ⟨q, t, ht, between⟩
  · exact held
  · rw [ht]
    exact between.held

theorem run (fuel : Nat) (hs : I.held s) : I.held ((S.run name fuel).perform s).2 := by
  have began := S.began name fuel s
  generalize (S.run name fuel).perform s = z at began
  have started : I.held (S.said name 1 .starting s) := h.said called _ _ hs
  have failed {f : Failure} {u : σ}
      (invoke : S.invoke.perform (S.said name 1 .starting s) = (.error f, u)) :
      I.held (S.said name 1 (.failed f) u) := h.said called _ _ (h.invoked started invoke)
  have opened {u v : σ} {r : Except Failure ε} (hu : I.held u)
      (rule : S.openPolicy.perform u = (r, v)) : I.held v := by
    have held := h.openPolicy u hu
    rwa [rule] at held
  cases began with
  | unkept => exact hs
  | unkeptSuccess invoke => exact h.invoked started invoke
  | unkeptFailure invoke => exact h.invoked started invoke
  | succeeded invoke =>
    have held := h.invoked started invoke
    exact h.said called 1 .succeeded held
  | interrupted invoke extra => exact h.invoked started invoke
  | unruled invoke plain rule => exact opened (failed invoke) rule
  | unpaced invoke plain rule pace =>
    exact (h.openBackoff _ _ _ (opened (failed invoke) rule) pace).1
  | failed invoke plain rule pace =>
    obtain ⟨held, walk⟩ := h.openBackoff _ _ _ (opened (failed invoke) rule) pace
    exact h.turns called fuel ⟨held, walk _ rfl, called⟩

end

/-- **What every collaborator keeps, a call keeps.** -/
theorem call (mode : Mode) (operation : Operation)
    (named : ∀ name, operation.displayName = .ok name → I.named (.text name)) (fuel : Nat)
    (hs : I.held s) : I.held ((mode.call S operation fuel).perform s).2 := by
  rw [Mode.perform_call, Mode.delivered_snd]
  rcases hname : operation.displayName with f | name
  · rw [Mode.perform_run_unnamed _ _ hname]
    exact hs
  · rw [Mode.perform_run _ _ hname]
    exact h.run (named name hname) fuel hs

end Keeps

end Setting

/-! ## With a journal -/

/-- A delay that was slept was granted, and so was one that was drawn and does not stop. -/
def Moment.Granted {ε β α : Type} (granted : Delay → Prop) : Moment ε β α → Prop
  | .slept d _ => granted d
  | .drawn (.ok d) _ => Backoff.isStop d = false → granted d
  | _ => True

def Journal.Granted {ε β α : Type} (granted : Delay → Prop) (j : Journal ε β α) : Prop :=
  ∀ m ∈ j, m.Granted granted

def Invariant.kept {σ β : Type} (ε α : Type) (I : Invariant σ β) :
    Invariant (Journal ε β α × σ) β :=
  { I with held := fun x => x.1.Granted I.granted ∧ I.held x.2 }

section

variable {σ ε β α : Type} {granted : Delay → Prop} {j k : Journal ε β α}

theorem Journal.granted_nil : Journal.Granted granted ([] : Journal ε β α) :=
  fun _ hm => absurd hm (by simp)

theorem Journal.Granted.added {P : Moment ε β α → Prop} (hj : j.Granted granted)
    (h : Added P j k) (hP : ∀ m, P m → m.Granted granted) : k.Granted granted :=
  (h.mono hP).forall hj

theorem Journal.Granted.one {m : Moment ε β α} (hj : j.Granted granted) (h : k = j ++ [m])
    (hm : m.Granted granted) : k.Granted granted :=
  hj.added (P := Moment.Granted granted) (.one h hm) fun _ => id

section

variable {S : Setting σ ε β α} {w : Waiting σ} {I : Invariant σ β} (h : (S.waiting w).Keeps I)

include h

/-- A wait puts down that it slept for the delay it was given, and no other. -/
theorem Setting.Keeps.kept_pause (name : String) {d : Delay} {x : Journal ε β α × σ}
    (hd : I.granted d) (hx : (I.kept ε α).held x) :
    (I.kept ε α).held (((S.kept w).pause name d).perform x).2 := by
  refine ⟨hx.1.added (adds_pause w S.emit name d x) fun m hm => ?_, ?_⟩
  · cases m with
    | slept d' r =>
      obtain rfl : d' = d := hm
      exact hd
    | drawn => exact hm.elim
    | _ => exact trivial
  · have emit (r : Record) (x : Journal ε β α × σ) (t : σ) (h : x.2 = t) :
        Act.Forgets (Journal ε β α) (x.1 ++ [.recorded r], S.emit r x.2) (S.emit r t) :=
      congrArg (S.emit r) h
    have forgets : Act.Exact (Act.Forgets (Journal ε β α)) ((S.kept w).pause name d)
        ((S.waiting w).pause name d) := (forgets_kept w).pause emit name d
    have held := h.pause name d x.2 hd hx.2
    rw [← Journal.forget forgets x.1 x.2] at held
    exact held

/-- **A call with a journal keeps what it keeps without**, and its delays were granted. -/
theorem Setting.Keeps.kept : (S.kept w).Keeps (I.kept ε α) := by
  exact {
    emit := fun r x named hx => ⟨hx.1.one rfl trivial, h.emit r x.2 named hx.2⟩
    invoke := fun x hx => ⟨hx.1.one rfl trivial, h.invoke x.2 hx.2⟩
    openPolicy := fun x hx => ⟨hx.1, h.openPolicy x.2 hx.2⟩
    openBackoff := by
      intro x r y hx pace
      obtain ⟨held, walk⟩ := h.openBackoff x.2 _ _ hx.2 rfl
      obtain ⟨rfl, rfl⟩ := Prod.mk.inj pace
      exact ⟨⟨hx.1, held⟩, walk⟩
    shouldRetry := fun f e x hx => ⟨hx.1.one rfl trivial, h.shouldRetry f e x.2 hx.2⟩
    nextDelay := by
      intro b x r c y hb hx draw
      obtain ⟨walk, held, granted⟩ := h.nextDelay b x.2 _ _ _ hb hx.2 rfl
      obtain ⟨rfl, hy⟩ := Prod.mk.inj draw
      obtain ⟨rfl, rfl⟩ := Prod.mk.inj hy
      refine ⟨walk, ⟨hx.1.one rfl ?_, held⟩, granted⟩
      rcases hr : (S.nextDelay.perform (b, x.2)).1 with f | d
      · exact trivial
      · exact granted d hr
    pause := fun name _ _ hd hx => h.kept_pause name hd hx
    notify := by
      intro n x r m y hn hx tell
      obtain ⟨named, held⟩ := h.notify n x.2 _ _ _ hn hx.2 rfl
      obtain ⟨rfl, hy⟩ := Prod.mk.inj tell
      obtain ⟨rfl, rfl⟩ := Prod.mk.inj hy
      exact ⟨named, hx.1.one rfl trivial, held⟩ }

end

end

end Retry
