import Mathlib.Data.List.ReduceOption
import Retry.Proofs.Durations
import Retry.Simulation.Archive

/-!
# Merging configurations

A configuration is constructed from what is given by name, or merged from one that exists and
from what is given to override it. Each way ends in the same checks, so every configuration
that there is has passed them (`Admissible`), and merging is a matter of the four fields alone:
`merge_ok` says which configuration comes of it, and when.

**What is given.** A field may be left out, given as nothing, or given a value (`Config.Given`);
the first two do the same. `Given.overriddenBy` sets some entries after others, of which those
that give nothing are dropped. A configuration is `Made` if it was constructed or merged, however
often, from numbers of which none is a NaN.

**Results.**
* `Made.valid`: a configuration that was made keeps its bounds.
* `merge_overriddenBy`: merging twice is merging once.
* `construct_toGiven`, `merge_toGiven`: what a configuration has, given again.
* `merges_kept`: merges leave the configurations that were kept before as they are.
* `merging_lawful`: all of it, for a configuration that was made.
-/

namespace Retry

namespace Config

open Number (nan)
open Simulation (Archive Kept)

variable {κ : Type} {c d e : Config κ} {a b g : Given κ}

/-! ## What the checks let pass -/

/-- No field lies below its bound, as far as the checks can tell. -/
structure Admissible (c : Config κ) : Prop where
  attempts : c.maxAttempts.lt 1 = false
  interval : c.interval.lt 0 = false
  elapsed : ∀ t, c.maxElapsed = some t → t.lt 0 = false

theorem check_ok : c.check = .ok () ↔ c.Admissible := by
  have elapsed : Limits.elapsed c.maxElapsed = .ok () ↔
      ∀ t, c.maxElapsed = some t → t.lt 0 = false := by
    cases c.maxElapsed with
    | none => simp [Limits.elapsed]
    | some t => simpa [Limits.elapsed] using Limits.atLeast_ok
  have parts : c.check = .ok () ↔ Limits.maxAttempts c.maxAttempts = .ok () ∧
      Limits.backoff c.interval none c.maxElapsed = .ok () := by
    rw [check, Except.both_ok]
  rw [parts, Limits.backoff_ok, elapsed]
  unfold Limits.maxAttempts Limits.interval
  rw [Limits.atLeast_ok, Limits.atLeast_ok]
  exact ⟨fun ⟨n, i, _, t⟩ => ⟨n, i, t⟩, fun h => ⟨h.attempts, h.interval, rfl, h.elapsed⟩⟩

theorem make_ok {n i : Number} {t : Option Number} {listeners : List κ} :
    make n i t listeners = .ok c ↔ c = ⟨n, i, t, listeners⟩ ∧ c.Admissible := by
  constructor
  · intro h
    obtain ⟨⟨⟩, checked, made⟩ := Except.of_bind_ok h
    obtain rfl := Except.ok.inj made
    exact ⟨rfl, check_ok.mp checked⟩
  · rintro ⟨rfl, admissible⟩
    simp only [make, check_ok.mpr admissible]
    rfl

/-! ## Overriding -/

/-- The fields of a configuration with those that are overridden. -/
def overridden (c : Config κ) (o : Overrides κ) : Config κ where
  maxAttempts := o.maxAttempts.getD c.maxAttempts
  interval := o.interval.getD c.interval
  maxElapsed := o.maxElapsed <|> c.maxElapsed
  listeners := o.listeners.getD c.listeners

/-- A merge succeeds if every name is known and the outcome passes the checks. -/
theorem merge_ok {o : Overrides κ} :
    c.merge o = .ok d ↔ o.unknown = none ∧ d = c.overridden o ∧ d.Admissible := by
  unfold merge
  cases o.unknown with
  | some name => simp
  | none => rw [make_ok, and_iff_right rfl]; rfl

/-- What the later entries give, and where they give nothing, what the earlier ones give. -/
def Given.overriddenBy (a b : Given κ) : Given κ where
  maxAttempts := if b.maxAttempts.join.isSome then b.maxAttempts else a.maxAttempts
  interval := if b.interval.join.isSome then b.interval else a.interval
  maxElapsed := if b.maxElapsed.join.isSome then b.maxElapsed else a.maxElapsed
  listeners := if b.listeners.join.isSome then b.listeners else a.listeners
  others := a.others ++ b.others.filter (·.2)

/-- No value is given, under any name. -/
structure Given.Void (g : Given κ) : Prop where
  attempts : g.maxAttempts.join = none
  interval : g.interval.join = none
  elapsed : g.maxElapsed.join = none
  listeners : g.listeners.join = none
  others : ∀ name, (name, true) ∉ g.others

theorem unknown_eq_none : g.overrides.unknown = none ↔ ∀ name, (name, true) ∉ g.others := by
  unfold Given.overrides
  rw [Option.map_eq_none_iff, List.find?_eq_none]
  refine ⟨fun h name hn => h _ hn rfl, ?_⟩
  rintro h ⟨name, given⟩ hn
  cases given with
  | true => exact absurd hn (h name)
  | false => simp

theorem join_override {α : Type} (later earlier : Option (Option α)) :
    (if later.join.isSome then later else earlier).join = (later.join <|> earlier.join) := by
  cases h : later.join <;> simp [h]

/-- Overriding with some entries and then with others is overriding with both. -/
theorem overridden_overriddenBy (c : Config κ) (a b : Given κ) :
    c.overridden (a.overriddenBy b).overrides =
      (c.overridden a.overrides).overridden b.overrides := by
  simp only [overridden, Given.overrides, Given.overriddenBy, join_override, Config.mk.injEq]
  refine ⟨?_, ?_, ?_, ?_⟩
  · cases b.maxAttempts.join <;> rfl
  · cases b.interval.join <;> rfl
  · cases b.maxElapsed.join <;> rfl
  · cases b.listeners.join <;> rfl

theorem merge_overriddenBy (first : c.merge a.overrides = .ok d)
    (second : d.merge b.overrides = .ok e) : c.merge (a.overriddenBy b).overrides = .ok e := by
  obtain ⟨knownA, rfl, -⟩ := merge_ok.mp first
  obtain ⟨knownB, rfl, admissible⟩ := merge_ok.mp second
  refine merge_ok.mpr ⟨?_, (overridden_overriddenBy c a b).symm, admissible⟩
  rw [unknown_eq_none] at knownA knownB ⊢
  intro name h
  rcases List.mem_append.mp h with h | h
  · exact knownA name h
  · exact knownB name (List.mem_filter.mp h).1

theorem merge_void (admissible : c.Admissible) (void : g.Void) :
    c.merge g.overrides = .ok c := by
  refine merge_ok.mpr ⟨unknown_eq_none.mpr void.others, ?_, admissible⟩
  simp [overridden, Given.overrides, void.attempts, void.interval, void.elapsed, void.listeners]

/-- A configuration overridden with what another one has is that one, but it keeps a limit on
the time if the other one has none. -/
theorem merge_toGiven (admissible : c.Admissible) (other : d.Admissible) :
    c.merge d.toGiven.overrides = .ok { d with maxElapsed := d.maxElapsed <|> c.maxElapsed } := by
  refine merge_ok.mpr ⟨rfl, rfl, other.attempts, other.interval, fun t ht => ?_⟩
  cases limit : d.maxElapsed with
  | none => exact admissible.elapsed t (by simpa [limit] using ht)
  | some u => exact other.elapsed t (by simpa [limit] using ht)

theorem ofGiven_ok {n i t : Option Number} {l : Option (List κ)} :
    ofGiven none n i t l = .ok c ↔
      (n = some c.maxAttempts ∧ i = some c.interval ∧ t = c.maxElapsed ∧ l = some c.listeners) ∧
        c.Admissible := by
  constructor
  · intro h
    obtain ⟨n, given, h⟩ := Except.of_bind_ok h
    obtain ⟨⟨⟩, -, h⟩ := Except.of_bind_ok h
    obtain ⟨i, given', h⟩ := Except.of_bind_ok h
    obtain ⟨d, made, h⟩ := Except.of_bind_ok h
    obtain ⟨rfl, admissible⟩ := make_ok.mp made
    cases l with
    | none => exact absurd h (by simp [throw, throwThe, MonadExceptOf.throw])
    | some l =>
      obtain rfl := Except.ok.inj h
      refine ⟨⟨?_, ?_, rfl, rfl⟩, admissible.attempts, admissible.interval, admissible.elapsed⟩
      · exact Limits.given_ok.mp given
      · exact Limits.given_ok.mp given'
  · rintro ⟨⟨rfl, rfl, rfl, rfl⟩, admissible⟩
    have attempts : Limits.maxAttempts c.maxAttempts = .ok () :=
      Limits.atLeast_ok.mpr admissible.attempts
    have made : make c.maxAttempts c.interval c.maxElapsed ([] : List κ) =
        .ok { c with listeners := [] } :=
      make_ok.mpr ⟨rfl, admissible.attempts, admissible.interval, admissible.elapsed⟩
    show (Limits.maxAttempts c.maxAttempts >>= fun _ =>
      make c.maxAttempts c.interval c.maxElapsed [] >>= fun (d : Config κ) => .ok { d with listeners := c.listeners }) = _
    rw [attempts, made]
    rfl

/-- What is given, with a standard value where it is left out, is a value. -/
theorem getD_eq_some {α : Type} {given : Option (Option α)} {standard value : α} :
    given.getD (some standard) = some value ↔
      given ≠ some none ∧ value = given.join.getD standard := by
  rcases given with _ | _ | v <;> simp [eq_comm]

/-- A configuration is constructed if only its fields are named, those that must not be nothing
are not given as nothing, and it passes the checks. What is given overrides the standard one. -/
theorem construct_ok : construct g = .ok c ↔
    (g.others = [] ∧ g.maxAttempts ≠ some none ∧ g.interval ≠ some none ∧
      g.listeners ≠ some none) ∧ c = standard.overridden g.overrides ∧ c.Admissible := by
  cases named : g.others with
  | cons other others =>
    simp [construct, named, ofGiven, throw, throwThe, MonadExceptOf.throw, bind, Except.bind]
  | nil =>
    have fields : c = standard.overridden g.overrides ↔
        c.maxAttempts = g.maxAttempts.join.getD (standard : Config κ).maxAttempts ∧
          c.interval = g.interval.join.getD (standard : Config κ).interval ∧
          g.maxElapsed.join = c.maxElapsed ∧
          c.listeners = g.listeners.join.getD (standard : Config κ).listeners := by
      obtain ⟨n, i, t, l⟩ := c
      simp [overridden, Given.overrides, standard, eq_comm]
    rw [construct, named, List.head?_nil, Option.map_none, ofGiven_ok, getD_eq_some, getD_eq_some,
      getD_eq_some, fields]
    tauto

theorem construct_toGiven (admissible : c.Admissible) : construct c.toGiven = .ok c := by
  refine construct_ok.mpr ⟨by simp [toGiven], ?_, admissible⟩
  obtain ⟨n, i, t, l⟩ := c
  cases t <;> rfl

/-! ## Configurations that were made -/

def Given.numbers (g : Given κ) : List Number :=
  [g.maxAttempts.join, g.interval.join, g.maxElapsed.join].reduceOption

/-- A configuration that was constructed, and merged any number of times, from numbers. -/
inductive Made : Config κ → Prop
  | constructed {g : Given κ} {c : Config κ} (numbers : ∀ n ∈ g.numbers, n ≠ nan)
      (made : construct g = .ok c) : Made c
  | merged {g : Given κ} {c d : Config κ} (numbers : ∀ n ∈ g.numbers, n ≠ nan) (before : Made c)
      (made : c.merge g.overrides = .ok d) : Made d

/-- None of the numbers of a configuration is a NaN. -/
structure Numeric (c : Config κ) : Prop where
  attempts : c.maxAttempts ≠ nan
  interval : c.interval ≠ nan
  elapsed : ∀ t, c.maxElapsed = some t → t ≠ nan

theorem Numeric.overridden (h : c.Numeric) (numbers : ∀ n ∈ g.numbers, n ≠ nan) :
    (c.overridden g.overrides).Numeric := by
  have given {n : Number} (hn : some n ∈ [g.maxAttempts.join, g.interval.join, g.maxElapsed.join]) :
      n ≠ nan := numbers n (List.reduceOption_mem_iff.mpr hn)
  refine ⟨?_, ?_, fun t ht => ?_⟩
  · cases found : g.maxAttempts.join with
    | none => simpa [Config.overridden, Given.overrides, found] using h.attempts
    | some n => simpa [Config.overridden, Given.overrides, found] using given (by simp [found])
  · cases found : g.interval.join with
    | none => simpa [Config.overridden, Given.overrides, found] using h.interval
    | some n => simpa [Config.overridden, Given.overrides, found] using given (by simp [found])
  · cases found : g.maxElapsed.join with
    | none => exact h.elapsed t (by simpa [Config.overridden, Given.overrides, found] using ht)
    | some n =>
      obtain rfl : n = t := by simpa [Config.overridden, Given.overrides, found] using ht
      exact given (by simp [found])

theorem standard_numeric : (standard : Config κ).Numeric where
  attempts := Number.noConfusion
  interval h := Binary64.ofRatio_ne_nan _ _ _ (Number.double.inj h)
  elapsed _ h := nomatch h

/-- Whatever was made is numeric and has passed the checks. -/
theorem Made.sound (h : c.Made) : c.Numeric ∧ c.Admissible := by
  induction h with
  | constructed numbers made =>
    obtain ⟨-, rfl, admissible⟩ := construct_ok.mp made
    exact ⟨standard_numeric.overridden numbers, admissible⟩
  | merged numbers _ made before =>
    obtain ⟨-, rfl, admissible⟩ := merge_ok.mp made
    exact ⟨before.1.overridden numbers, admissible⟩

/-- The fields of a configuration keep their bounds. -/
structure Valid (c : Config κ) : Prop where
  attempts : Number.le 1 c.maxAttempts = true
  interval : Number.le 0 c.interval = true
  elapsed : ∀ t, c.maxElapsed = some t → Number.le 0 t = true

theorem Made.valid (h : c.Made) : c.Valid := by
  obtain ⟨numeric, admissible⟩ := h.sound
  exact ⟨Number.le_of_not_lt numeric.attempts (by decide) admissible.attempts,
    Number.le_of_not_lt numeric.interval (by decide) admissible.interval,
    fun t ht => Number.le_of_not_lt (numeric.elapsed t ht) (by decide) (admissible.elapsed t ht)⟩

/-- A configuration of numbers is equal to itself, whatever it shares with itself. -/
theorem Numeric.same (h : c.Numeric) {sameListener : κ → κ → Bool}
    (reflexive : ∀ l, sameListener l l = true) (shared : String → Bool) :
    Config.same sameListener shared c c = true := by
  have elapsed : sameOption Number.same c.maxElapsed c.maxElapsed = true := by
    cases limit : c.maxElapsed with
    | none => rfl
    | some t => exact Number.same_self (h.elapsed t limit)
  have listeners (ls : List κ) : sameList sameListener ls ls = true := by
    induction ls with
    | nil => rfl
    | cons l ls ih => simp [sameList, reflexive, ih]
  simp [Config.same, Number.same_self h.attempts, Number.same_self h.interval, elapsed, listeners]

/-! ## Configurations that are kept -/

theorem merge_kept (archive : Archive (Config κ)) (base : Kept (Config κ)) (g : Given κ) :
    archive <+: (Archive.merge archive base g).2 := by
  unfold Archive.merge
  cases base.value.merge g.overrides with
  | error f => exact List.prefix_refl _
  | ok merged => exact List.prefix_append _ _

/-- However many merges there are, and whether or not they succeed, what was kept before stays. -/
theorem merges_kept (archive : Archive (Config κ)) (steps : List (Kept (Config κ) × Given κ)) :
    archive <+: steps.foldl (fun kept step => (Archive.merge kept step.1 step.2).2) archive := by
  induction steps generalizing archive with
  | nil => exact List.prefix_refl _
  | cons step later ih => exact (merge_kept archive step.1 step.2).trans (ih _)

/-! ## The laws together -/

/-- What holds of merging at a configuration. -/
structure Lawful (c : Config κ) : Prop where
  /-- It keeps its bounds. -/
  valid : c.Valid
  /-- It is equal to itself, if listeners are, and whatever it shares with itself. What is said to
  be the same configuration below is also equal. -/
  reflexive : ∀ sameListener : κ → κ → Bool, (∀ l, sameListener l l = true) →
    ∀ shared, Config.same sameListener shared c c = true
  /-- Merging twice is merging once, with the later values in the place of the earlier ones. -/
  once : ∀ (a b : Given κ) (d e : Config κ), c.merge a.overrides = .ok d →
    d.merge b.overrides = .ok e → c.merge (a.overriddenBy b).overrides = .ok e
  /-- Merging with nothing changes nothing. -/
  void : ∀ g : Given κ, g.Void → c.merge g.overrides = .ok c
  /-- What it has constructs it again. -/
  again : construct c.toGiven = .ok c
  /-- Merging with what another one has makes that one, but for a limit on the time that only
  this one has. -/
  given : ∀ d : Config κ, d.Made →
    c.merge d.toGiven.overrides = .ok { d with maxElapsed := d.maxElapsed <|> c.maxElapsed }
  /-- Merges change nothing of what is kept already. -/
  kept : ∀ (archive : Archive (Config κ)) (steps : List (Kept (Config κ) × Given κ)),
    archive <+: steps.foldl (fun kept step => (Archive.merge kept step.1 step.2).2) archive

theorem merging_lawful (h : c.Made) : c.Lawful where
  valid := h.valid
  reflexive _ listeners shared := h.sound.1.same listeners shared
  once _ _ _ _ := merge_overriddenBy
  void _ := merge_void h.sound.2
  again := construct_toGiven h.sound.2
  given _ other := merge_toGiven h.sound.2 other.sound.2
  kept := merges_kept

/-- Five attempts half a second apart, no more than a minute of waiting, and two listeners. -/
def hurried : Config Nat := ⟨5, .double (.ofRatio false 1 2), some 60, [1, 2]⟩

/-- It is constructed without a limit on the time and with the standard interval, and then merged
with what gives both, and nothing for the listeners. -/
theorem hurried_made : hurried.Made := by
  let first : Given Nat := ⟨some (some 5), none, some none, some (some [1, 2]), []⟩
  let second : Given Nat :=
    ⟨none, some (some (.double (.ofRatio false 1 2))), some (some 60), some none, []⟩
  have constructed : construct first = .ok (standard.overridden first.overrides) :=
    construct_ok.mpr ⟨by simp [first], rfl, by decide +kernel, by decide +kernel, fun t ht =>
      absurd ht (by simp [overridden, Given.overrides, first, standard])⟩
  have merged : (standard.overridden first.overrides).merge second.overrides = .ok hurried :=
    merge_ok.mpr ⟨rfl, rfl, by decide +kernel, by decide +kernel, fun t ht => by
      obtain rfl := Option.some.inj ht
      decide +kernel⟩
  refine .merged (g := second) ?_ (.constructed (g := first) ?_ constructed) merged
  · simp [Given.numbers, second, List.reduceOption, Binary64.ofRatio_ne_nan]
  · simp [Given.numbers, first, List.reduceOption]

theorem merging_lawful_hurried : hurried.Made ∧ hurried.Lawful ∧
    hurried.merge (Given.overrides ⟨none, some none, some none, none, []⟩) = .ok hurried := by
  have lawful : hurried.Lawful := merging_lawful hurried_made
  exact ⟨hurried_made, lawful, lawful.void _ ⟨rfl, rfl, rfl, rfl, by simp⟩⟩

end Config

end Retry
