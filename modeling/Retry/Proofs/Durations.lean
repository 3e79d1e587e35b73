import Retry.Config
import Retry.Proofs.Signs
import Retry.Proofs.Steps
import Retry.Proofs.Walks

/-!
# Delays that a wait can take

What are the delays of a backoff whose settings were accepted? The checks let a setting pass
unless it lies below its bound. Then no delay lies below zero (`Growth.Accepted.delay`): sums,
products, powers and the smaller of two numbers do not get below zero again.

A NaN passes every check, and it is no delay that could be waited for. It comes from a setting
that is one, or from an infinity that meets a zero: an infinite jitter, a random share of nothing
of an infinite interval, or an infinite initial interval. `Growth.Sane` rules these out, and
nothing but these: settings that are finite are sane (`sane_of_finite`).

`Backoff.Made sane b` says that `b` is a fixed or an exponential backoff that was accepted, with
`sane` for its settings.

Main statements: `Made.next`, `Made.answers` (what a walk through it gives).
-/

namespace Retry

/-- A number that is not below zero; if `sane`, it is a number of seconds, zero or more. -/
def Number.Lasts (sane : Prop) (v : Number) : Prop :=
  v.lt 0 = false ∧ (sane → Number.le 0 v = true)

def Delay.Lasts (sane : Prop) (d : Delay) : Prop := ∃ v, d = some v ∧ v.Lasts sane

theorem Number.Nonneg.lasts {sane : Prop} {v : Number} (h : v.Nonneg) (hv : sane → v ≠ .nan) :
    v.Lasts sane :=
  ⟨nonneg_iff.mp h, fun s => h.le (hv s)⟩

/-- Every random number lies between zero and one. -/
def Draws.Fair (d : Draws) : Prop :=
  ∀ r, some r ∈ d.values → Number.le 0 r = true ∧ r.le 1 = true

theorem Draws.Fair.next {d : Draws} (h : d.Fair) :
    (∀ r, d.next.1 = some r → Number.le 0 r = true ∧ r.le 1 = true) ∧ d.next.2.Fair := by
  refine ⟨fun r hr => ?_, h⟩
  unfold Draws.next at hr
  cases found : d.values[d.taken % d.values.length]? with
  | none =>
    obtain rfl : .double (.zero false) = r := by simpa [found] using hr
    decide +kernel
  | some value =>
    obtain rfl : value = some r := by simpa [found] using hr
    exact h r (List.mem_of_getElem? found)

theorem Number.orTooLarge_ok {α : Type} {result : Option α} {a : α} :
    orTooLarge result = .ok a ↔ result = some a := by
  cases result <;> simp [orTooLarge]

theorem Limits.unlimited {interval : Number} (h : interval.lt 0 = false) :
    Limits.backoff interval none none = .ok () :=
  Limits.backoff_ok.mpr ⟨Limits.atLeast_ok.mpr h, rfl, rfl⟩

/-! ## Exponential growth -/

namespace Growth

open Number (nan)

variable {g : Growth} {i v : Number} {n : Int} {random : Option Number} {draws : Draws}

/-- Each setting starts at its bound, as far as the checks can tell. -/
structure Accepted (g : Growth) : Prop where
  initial : g.initial.lt 0 = false
  multiplier : g.multiplier.lt 1 = false
  largest : g.largest.lt g.initial = false
  jitter : g.jitter.lt 0 = false

theorem check_ok : g.check = .ok () ↔ g.Accepted := by
  have parts : g.check = .ok () ↔ checkInitial g.initial = .ok () ∧
      checkMultiplier g.multiplier = .ok () ∧ checkLargest g.initial g.largest = .ok () ∧
      checkJitter g.jitter = .ok () := by
    rw [check, Except.both_ok, Except.both_ok, Except.both_ok]
  rw [parts]
  unfold checkInitial checkMultiplier checkLargest checkJitter
  simp only [Limits.atLeast_ok]
  exact ⟨fun ⟨a, b, c, d⟩ => ⟨a, b, c, d⟩, fun h => ⟨h.initial, h.multiplier, h.largest, h.jitter⟩⟩

/-- No step makes a NaN: no setting that is multiplied is one, and no infinity meets a zero. -/
structure Sane (g : Growth) : Prop where
  initial : g.initial ≠ nan
  multiplier : g.multiplier ≠ nan
  largest : g.largest ≠ nan
  powers : g.initial.Finite ∨ ∀ n p, g.multiplier.pow? n = some p → ¬ p.IsZero
  jitter : Number.lt 0 g.jitter = true → g.jitter.Finite ∧ ∀ n, (g.interval n).Finite

/-! ### Intervals -/

/-- An interval that grows is the smaller of a grown one and the largest. -/
theorem interval_cases (g : Growth) (n : Int) :
    (Number.lt 0 g.initial = false ∧ g.interval n = g.initial) ∨
      Number.lt 0 g.initial = true ∧ (g.interval n = g.largest ∨
        ∃ p v, g.multiplier.pow? n = some p ∧ g.initial.mul? p = some v ∧
          g.interval n = v.min g.largest) := by
  unfold interval grown?
  cases Number.lt 0 g.initial with
  | false => exact .inl ⟨rfl, rfl⟩
  | true =>
    refine .inr ⟨rfl, ?_⟩
    rw [if_pos rfl]
    have capped : Number.min g.largest g.largest = g.largest := by
      rcases Number.min_cases g.largest g.largest with h | h
      · exact h
      · exact h.1
    cases hp : g.multiplier.pow? n with
    | none => exact .inl (by simpa using capped)
    | some p =>
      cases hv : g.initial.mul? p with
      | none => exact .inl (by simpa [hv] using capped)
      | some v => exact .inr ⟨p, v, rfl, hv, by simp [hv]⟩

theorem ne_nan_of_pos (h : Number.lt 0 i = true) : i ≠ nan := by
  rintro rfl
  exact absurd (Number.lt_nan 0) (by simp [h])

namespace Accepted

variable (h : g.Accepted)

include h

theorem initial_nonneg : g.initial.Nonneg := Number.nonneg_iff.mpr h.initial

theorem largest_nonneg (number : g.initial ≠ nan) : g.largest.Nonneg :=
  .of_not_lt h.largest h.initial_nonneg number

theorem interval (n : Int) : (g.interval n).Nonneg := by
  rcases interval_cases g n with ⟨-, same⟩ | ⟨grows, same | ⟨p, v, hp, hv, same⟩⟩ <;> rw [same]
  · exact h.initial_nonneg
  · exact h.largest_nonneg (ne_nan_of_pos grows)
  · rcases Number.min_cases v g.largest with smaller | ⟨smaller, -⟩ <;> rw [smaller]
    · exact h.initial_nonneg.mul? (Number.nonneg_pow? h.multiplier hp) hv
    · exact h.largest_nonneg (ne_nan_of_pos grows)

end Accepted

theorem Sane.interval (sane : g.Sane) (n : Int) : g.interval n ≠ nan := by
  rcases interval_cases g n with ⟨-, same⟩ | ⟨grows, same | ⟨p, v, hp, hv, same⟩⟩ <;> rw [same]
  · exact sane.initial
  · exact sane.largest
  · rcases Number.min_cases v g.largest with smaller | ⟨smaller, -⟩ <;> rw [smaller]
    · exact Number.mul?_ne_nan sane.initial (Number.pow?_ne_nan sane.multiplier hp)
        (sane.powers.imp_right fun nonzero => nonzero n p hp)
        (.inr fun zero => absurd grows (by simp [zero.not_pos])) hv
    · exact sane.largest

/-! ### Jitter -/

/-- The share of the jitter that a random number takes. -/
def Takes (g : Growth) (r share : Number) : Prop :=
  ∃ width part, g.jitter.sub? 0 = some width ∧ width.mul? r = some part ∧
    Number.add? 0 part = some share

/-- How a random number lengthens an interval. -/
def Lengthens (g : Growth) (i r v : Number) : Prop :=
  ∃ share more longer, g.Takes r share ∧ share.mul? i = some more ∧ i.add? more = some longer ∧
    v = longer.min g.largest

theorem lengthened_ok (h : g.lengthened i random = .ok v) :
    ∃ r, random = some r ∧ g.Lengthens i r v := by
  obtain ⟨share, hshare, h⟩ := Except.of_bind_ok h
  obtain ⟨longer, hlonger, capped⟩ := Except.of_bind_ok h
  obtain ⟨more, hmore, sum⟩ := Option.bind_eq_some_iff.mp (Number.orTooLarge_ok.mp hlonger)
  obtain ⟨width, hwidth, hshare⟩ := Except.of_bind_ok hshare
  cases random with
  | none => exact absurd hshare (by simp [throw, throwThe, MonadExceptOf.throw])
  | some r =>
    obtain ⟨part, hpart, shared⟩ := Option.bind_eq_some_iff.mp (Number.orTooLarge_ok.mp hshare)
    exact ⟨r, rfl, share, more, longer,
      ⟨width, part, Number.orTooLarge_ok.mp hwidth, hpart, shared⟩, hmore, sum,
      (Except.ok.inj capped).symm⟩

section

variable {r share : Number} (low : Number.le 0 r = true)

include low

theorem Takes.nonneg (h : g.Takes r share) (jitter : g.jitter.Nonneg) : share.Nonneg := by
  obtain ⟨width, part, hw, hp, hs⟩ := h
  have random : r.Nonneg := Number.nonneg_iff.mpr (Number.not_lt_of_le low)
  have zero : Number.Nonneg 0 := .whole (Int.le_refl 0)
  exact zero.add? ((jitter.sub_zero hw).mul? random hp) hs

theorem Takes.finite (h : g.Takes r share) (jitter : g.jitter.Finite) (high : r.le 1 = true) :
    share.Finite := by
  obtain ⟨width, part, hw, hp, hs⟩ := h
  exact ((jitter.sub_zero hw).mul_share (Number.atMostOne_of_le low high) hp).zero_add hs

/-- An interval that is not below zero stays so. Only a NaN may lie past the largest. -/
theorem Lengthens.nonneg (h : g.Lengthens i r v) (jitter : g.jitter.Nonneg) (hi : i.Nonneg)
    (largest : i ≠ nan → g.largest.Nonneg) : v.Nonneg := by
  obtain ⟨share, more, longer, taken, hm, hl, rfl⟩ := h
  rcases Number.min_cases longer g.largest with smaller | ⟨smaller, below⟩ <;> rw [smaller]
  · exact hi.add? ((taken.nonneg low jitter).mul? hi hm) hl
  · refine largest ?_
    rintro rfl
    rw [Number.nan_add? hl, Number.lt_nan] at below
    exact absurd below (by simp)

theorem Lengthens.ne_nan (h : g.Lengthens i r v) (jitter : g.jitter.Nonneg) (hi : i.Nonneg)
    (jitter_finite : g.jitter.Finite) (hf : i.Finite) (largest : g.largest ≠ nan)
    (high : r.le 1 = true) : v ≠ nan := by
  obtain ⟨share, more, longer, taken, hm, hl, rfl⟩ := h
  have finite : share.Finite := taken.finite low jitter_finite high
  have number : more ≠ nan := Number.mul?_ne_nan finite.ne_nan hf.ne_nan (.inl finite) (.inl hf) hm
  rcases Number.min_cases longer g.largest with smaller | ⟨smaller, -⟩ <;> rw [smaller]
  · exact Number.add?_ne_nan hi ((taken.nonneg low jitter).mul? hi hm) hf.ne_nan number hl
  · exact largest

end

/-- **No delay lies below zero**, and if the settings are sane it is zero or more. -/
theorem Accepted.delay (h : g.Accepted) (fair : draws.Fair)
    (given : (g.delay n draws).1 = .ok v) : v.Lasts g.Sane := by
  have jitter : g.jitter.Nonneg := Number.nonneg_iff.mpr h.jitter
  unfold Growth.delay at given
  cases jitters : Number.lt 0 g.jitter with
  | false =>
    rw [jitters] at given
    obtain rfl : g.interval n = v := Except.ok.inj given
    exact (h.interval n).lasts fun sane => sane.interval n
  | true =>
    rw [jitters] at given
    obtain ⟨r, hr, lengthens⟩ := lengthened_ok given
    obtain ⟨low, high⟩ := fair.next.1 r hr
    have largest (number : g.interval n ≠ nan) : g.largest.Nonneg := by
      refine h.largest_nonneg fun none => number ?_
      rcases interval_cases g n with ⟨-, same⟩ | ⟨grows, -⟩
      · exact same.trans none
      · exact absurd none (ne_nan_of_pos grows)
    refine (lengthens.nonneg low jitter (h.interval n) largest).lasts fun sane => ?_
    obtain ⟨finite, intervals⟩ := sane.jitter jitters
    exact lengthens.ne_nan low jitter (h.interval n) finite (intervals n) sane.largest high

/-- Numbers are sane, if all but the multiplier are finite. -/
theorem Accepted.sane_of_finite (h : g.Accepted) (initial : g.initial.Finite)
    (multiplier : g.multiplier ≠ nan) (largest : g.largest.Finite) (jitter : g.jitter.Finite) :
    g.Sane where
  initial := initial.ne_nan
  multiplier := multiplier
  largest := largest.ne_nan
  powers := .inl initial
  jitter := by
    refine fun _ => ⟨jitter, fun n => ?_⟩
    rcases interval_cases g n with ⟨-, same⟩ | ⟨grows, same | ⟨p, v, hp, hv, same⟩⟩ <;> rw [same]
    · exact initial
    · exact largest
    · have number : v ≠ nan := Number.mul?_ne_nan initial.ne_nan (Number.pow?_ne_nan multiplier hp)
        (.inl initial) (.inr fun zero => absurd grows (by simp [zero.not_pos])) hv
      have nonneg : v.Nonneg := h.initial_nonneg.mul? (Number.nonneg_pow? h.multiplier hp) hv
      -- What is past the doubles is past the largest interval.
      exact largest.min nonneg number

end Growth

namespace Backoff

/-- A fixed or an exponential backoff that was accepted; it is `sane` if no step that it
calculates makes a NaN. -/
inductive Made : Prop → Backoff → Prop where
  | fixed {interval : Number} {count time : Option Number} {b : Backoff}
      (made : fixed interval count time = .ok b) : Made (interval ≠ .nan) b
  | exponential {g : Growth} {count time : Option Number} {b : Backoff}
      (made : exponential g count time = .ok b) : Made g.Sane b

variable {sane : Prop} {b : Backoff} {run : Run} {draws : Draws} {d : Delay}

/-- A delay that was calculated is a number, and it is not below zero. -/
theorem Made.calculated (made : b.Made sane) (fair : draws.Fair) {index : Int}
    (h : (b.calculate index draws).1 = .ok d) : d.Lasts sane := by
  cases made with
  | @fixed interval count time _ made =>
    obtain ⟨⟨⟩, accepted, made⟩ := Except.of_bind_ok made
    obtain ⟨⟨⟩, -, made⟩ := Except.of_bind_ok made
    obtain rfl := Except.ok.inj made
    obtain rfl : some interval = d := Except.ok.inj h
    have nonneg : interval.Nonneg := Number.nonneg_iff.mpr (Limits.atLeast_ok.mp accepted)
    exact ⟨interval, rfl, nonneg.lasts id⟩
  | @exponential g count time _ made =>
    obtain ⟨⟨⟩, accepted, made⟩ := Except.of_bind_ok made
    obtain ⟨⟨⟩, -, made⟩ := Except.of_bind_ok made
    obtain rfl := Except.ok.inj made
    rcases given : (g.delay index draws).1 with x | v
    · simp [given, Except.map] at h
    · obtain rfl : some v = d := by simpa [given, Except.map] using h
      exact ⟨v, rfl, (Growth.check_ok.mp accepted).delay fair given⟩

theorem Made.calculated_fair (made : b.Made sane) (fair : draws.Fair) (index : Int) :
    (b.calculate index draws).2.Fair := by
  cases made with
  | fixed made =>
    obtain ⟨⟨⟩, -, made⟩ := Except.of_bind_ok made
    obtain ⟨⟨⟩, -, made⟩ := Except.of_bind_ok made
    obtain rfl := Except.ok.inj made
    exact fair
  | @exponential g count time _ made =>
    obtain ⟨⟨⟩, -, made⟩ := Except.of_bind_ok made
    obtain ⟨⟨⟩, -, made⟩ := Except.of_bind_ok made
    obtain rfl := Except.ok.inj made
    show (g.delay index draws).2.Fair
    unfold Growth.delay
    cases Number.lt 0 g.jitter with
    | false => exact fair
    | true => exact fair.next.2

theorem next_delay (h : (b.next run draws).delay = .ok d) :
    d = some stop ∨ (b.calculate run.attempts draws).1 = .ok d := by
  revert h
  unfold next
  cases run.stopped with
  | true => exact fun h => .inl (Except.ok.inj h).symm
  | false =>
    cases b.countReached run with
    | true => exact fun h => .inl (Except.ok.inj h).symm
    | false =>
      simp only [Bool.false_eq_true, if_false]
      rcases b.calculate run.attempts draws with ⟨x | d', draws'⟩
      · simp
      dsimp only
      rcases b.exceeds run d' with x | _ | _
      · simp
      · simp only [grant]
        rcases d'.addedTo run.elapsed "+=" with x | t
        · simp
        · exact .inr
      · rcases b.elapsedNote run with x | note
        · simp
        · exact fun h => .inl (Except.ok.inj h).symm

/-- **What a walk gives**: it stops, or a number that is not below zero. -/
theorem Made.next (made : b.Made sane) (fair : draws.Fair)
    (h : (b.next run draws).delay = .ok d) : d = some stop ∨ d.Lasts sane :=
  (next_delay h).imp_right (made.calculated fair)

theorem Made.answers (made : b.Made sane) {asked : List Draws}
    (fair : ∀ draws ∈ asked, draws.Fair) {a : Answer} (ha : a ∈ b.answers run asked)
    (h : a.delay = .ok d) : d = some stop ∨ d.Lasts sane := by
  induction asked generalizing run with
  | nil => exact absurd ha (by simp [Backoff.answers])
  | cons draws later ih =>
    rcases List.mem_cons.mp ha with rfl | ha
    · exact made.next (fair draws (List.mem_cons_self ..)) h
    · exact ih (fun draws h => fair draws (List.mem_cons_of_mem _ h)) ha

theorem Made.next_fair (made : b.Made sane) (fair : draws.Fair) (run : Run) :
    (b.next run draws).draws.Fair := by
  obtain ⟨calculated, unasked⟩ := b.next_draws run draws
  by_cases calculates : b.Calculates run
  · rw [calculated calculates]
    exact made.calculated_fair fair _
  · rw [unasked calculates]
    exact fair

/-- The first delay of a backoff without limits is the one it calculates. -/
theorem next_start {x : Binary64} (count : b.maxAttempts = none) (time : b.maxElapsed = none)
    (h : (b.calculate 0 draws).1 = .ok (some (.double x))) :
    (b.next .start draws).delay = .ok (some (.double x)) := by
  rcases hc : b.calculate 0 draws with ⟨r, draws'⟩
  rw [hc] at h
  obtain rfl : r = .ok (some (.double x)) := h
  have added : Delay.addedTo Run.start.elapsed "+=" (some (.double x)) =
      .ok (.double (.add (.zero false) x)) := rfl
  have going : Run.start.stopped = false := rfl
  have first : ((Run.start.attempts : Nat) : Int) = 0 := rfl
  simp [Backoff.next, going, countReached, count, first, hc, exceeds, time, grant, added]

/-- Settings that are accepted make a backoff that calculates their delays. -/
theorem exponential_unlimited {g : Growth} (h : g.Accepted) :
    ∃ b, exponential g none none = .ok b ∧ b.maxAttempts = none ∧ b.maxElapsed = none ∧
      ∀ index draws, (b.calculate index draws).1 = (g.delay index draws).1.map some := by
  unfold exponential
  rw [Growth.check_ok.mpr h, Limits.unlimited (Number.lt_irrefl 0)]
  exact ⟨_, rfl, rfl, rfl, fun _ _ => rfl⟩

/-- A NaN is accepted for an interval, and given as a delay. So is one that numbers make: a
random share of an infinite jitter lengthens an interval of nothing to it. -/
theorem nan_given :
    (∃ b, fixed .nan none none = .ok b ∧ (b.next .start .zero).delay = .ok (some .nan)) ∧
    (∃ b, exponential ⟨0, 2, 1, .double (.infinite false)⟩ none none = .ok b ∧
      (b.next .start .zero).delay = .ok (some .nan)) ∧
    isStop (some .nan) = false ∧ Number.le 0 .nan = false := by
  have accepted : Growth.Accepted ⟨0, 2, 1, .double (.infinite false)⟩ :=
    ⟨by decide +kernel, by decide +kernel, by decide +kernel, by decide +kernel⟩
  have delay : (Growth.delay ⟨0, 2, 1, .double (.infinite false)⟩ 0 .zero).1.toOption =
      some .nan := by
    decide +kernel
  refine ⟨?_, ?_, by decide +kernel, by decide +kernel⟩
  · unfold fixed
    rw [show Limits.interval .nan = .ok () from Limits.atLeast_ok.mpr (Number.nan_lt 0),
      Limits.unlimited (Number.lt_irrefl 0)]
    exact ⟨_, rfl, next_start rfl rfl rfl⟩
  · obtain ⟨b, made, count, time, calculate⟩ := exponential_unlimited accepted
    refine ⟨b, made, next_start count time ?_⟩
    rw [calculate]
    revert delay
    generalize (Growth.delay ⟨0, 2, 1, .double (.infinite false)⟩ 0 .zero).1 = given
    intro delay
    cases given with
    | error x => exact absurd delay (by simp [Except.toOption])
    | ok v =>
      obtain rfl : v = .nan := Option.some.inj delay
      rfl

end Backoff

end Retry
