import Retry.Proofs.Merging
import Retry.Simulation.World

/-!
# What a configuration furnishes

A configuration stands for a counting policy and a fixed backoff, and these have checks of their
own. The checks are the same: of all numbers, a configuration takes those that its parts take, and
otherwise fails like the first part that cannot be made. So the parts of a configuration that there
is can always be made, however it came about: by construction or by merges (`Obtained`), from
numbers of any kind, a NaN among them.

**Results.**
* `parts_eq`: policy and backoff, one after the other, against the checks of a configuration.
* `construct_eq_parts`: a configuration is constructed as its parts are made.
* `Admissible.toTemplate`: the template of a configuration has its three numbers and its listeners.
* `World.perform_useConfig`: so has that of a simulation, where listeners make a group.
* `configurations_furnish`: all of it.
-/

namespace Retry

/-! ## Policy and backoff -/

namespace Backoff

/-- A backoff waits this interval, any number of times, within a limit on the time. -/
structure Waits (b : Backoff) (interval : Number) (elapsed : Option Number) : Prop where
  interval : ∀ attempt draws, b.calculate attempt draws = (.ok (some interval), draws)
  count : b.maxAttempts = none
  elapsed : b.maxElapsed = elapsed

/-- A fixed backoff checks what a configuration checks of it: the interval, and then its limits
beside an interval of zero. -/
theorem fixed_eq (i : Number) (t : Option Number) : ∃ b : Backoff, b.Waits i t ∧
    fixed i none t = (Limits.backoff i none t).map fun _ => b := by
  refine ⟨{ calculate := fun _ draws => (.ok (some i), draws), maxAttempts := none, maxElapsed := t
            text := s!"FixedBackOff(interval={i.text}, {Backoff.limitsText none t})" },
    ⟨fun _ _ => rfl, rfl, rfl⟩, ?_⟩
  have zero : Limits.interval 0 = .ok () := Limits.atLeast_ok.mpr (Number.lt_irrefl 0)
  unfold fixed Limits.backoff
  rw [zero]
  rcases Limits.interval i with f | ⟨⟩
  · rfl
  · rcases Limits.elapsed t with f | ⟨⟩ <;> rfl

end Backoff

namespace Config

variable {κ : Type} {c : Config κ} {n i : Number} {t : Option Number}

/-- The counting policy and the fixed backoff of three numbers, made in this order. -/
def parts (n i : Number) (t : Option Number) : Except Failure (CountPolicy × Backoff) := do
  let policy ← CountPolicy.make n
  let backoff ← Backoff.fixed i none t
  return (policy, backoff)

/-- **The parts have the checks of a configuration.** -/
theorem parts_eq (c : Config κ) : ∃ b : Backoff, b.Waits c.interval c.maxElapsed ∧
    parts c.maxAttempts c.interval c.maxElapsed = c.check.map fun _ => (⟨c.maxAttempts⟩, b) := by
  obtain ⟨b, waits, fixed⟩ := Backoff.fixed_eq c.interval c.maxElapsed
  refine ⟨b, waits, ?_⟩
  unfold parts check CountPolicy.make
  rw [fixed]
  rcases Limits.maxAttempts c.maxAttempts with f | ⟨⟩
  · rfl
  · rcases Limits.backoff c.interval none c.maxElapsed with f | ⟨⟩ <;> rfl

theorem toTemplate_eq_parts (c : Config κ) : c.toTemplate =
    (parts c.maxAttempts c.interval c.maxElapsed).map fun made =>
      ⟨made.1, made.2, c.listeners⟩ := by
  unfold toTemplate parts
  rcases CountPolicy.make c.maxAttempts with f | policy
  · rfl
  · rcases Backoff.fixed c.interval none c.maxElapsed with f | backoff <;> rfl

/-! ## Construction -/

/-- What is given where all numbers are, and perhaps listeners. -/
def Given.ofNumbers (n i : Number) (t : Option Number) (listeners : Option (List κ)) : Given κ where
  maxAttempts := some (some n)
  interval := some (some i)
  maxElapsed := some t
  listeners := listeners.map some

/-- **A configuration is constructed from what its parts are made from**, and otherwise fails like
the first of them. -/
theorem construct_eq_parts (listeners : Option (List κ)) :
    construct (.ofNumbers n i t listeners) =
      (parts n i t).map fun _ => ⟨n, i, t, listeners.getD []⟩ := by
  obtain ⟨b, -, made⟩ := parts_eq ⟨n, i, t, ([] : List κ)⟩
  have given : construct (.ofNumbers n i t listeners) =
      (Limits.maxAttempts n >>= fun _ => make n i t ([] : List κ) >>=
        fun c => .ok { c with listeners := listeners.getD [] }) := by
    cases listeners <;> rfl
  dsimp only at made
  rw [given, made]
  simp only [make, check]
  rcases Limits.maxAttempts n with f | ⟨⟩
  · rfl
  · rcases Limits.backoff i none t with f | ⟨⟩ <;> rfl

theorem parts_ok : (∃ made, parts n i t = .ok made) ↔
    (∃ policy, CountPolicy.make n = .ok policy) ∧
      ∃ backoff, Backoff.fixed i none t = .ok backoff := by
  unfold parts
  rcases CountPolicy.make n with f | policy
  · simp [bind, Except.bind]
  · rcases Backoff.fixed i none t with f | backoff <;> simp [bind, Except.bind, pure, Except.pure]

theorem parts_error {f : Failure} : parts n i t = .error f ↔
    CountPolicy.make n = .error f ∨
      (∃ policy, CountPolicy.make n = .ok policy) ∧ Backoff.fixed i none t = .error f := by
  unfold parts
  rcases CountPolicy.make n with g | policy
  · simp [bind, Except.bind]
  · rcases Backoff.fixed i none t with g | backoff <;>
      simp [bind, Except.bind, pure, Except.pure]

/-! ## Templates -/

/-- A configuration that was constructed, and merged any number of times. -/
inductive Obtained : Config κ → Prop
  | constructed {g : Given κ} {c : Config κ} (made : construct g = .ok c) : Obtained c
  | merged {g : Given κ} {c d : Config κ} (before : Obtained c)
      (made : c.merge g.overrides = .ok d) : Obtained d

theorem Obtained.admissible (h : c.Obtained) : c.Admissible := by
  cases h with
  | constructed made => exact (construct_ok.mp made).2.2
  | merged _ made => exact (merge_ok.mp made).2.2

/-- A template has the numbers of a configuration and its listeners, in order. -/
structure Furnishes (c : Config κ) (template : Template CountPolicy Backoff (List κ)) : Prop where
  attempts : template.policy.maxAttempts = c.maxAttempts
  waits : template.backoff.Waits c.interval c.maxElapsed
  listeners : template.listener = c.listeners

theorem Admissible.toTemplate (h : c.Admissible) :
    ∃ template, c.toTemplate = .ok template ∧ c.Furnishes template := by
  obtain ⟨b, waits, made⟩ := parts_eq c
  refine ⟨⟨⟨c.maxAttempts⟩, b, c.listeners⟩, ?_, rfl, waits, rfl⟩
  rw [toTemplate_eq_parts, made, check_ok.mpr h]
  rfl

end Config

namespace Simulation

open Act

/-- The listener of a template stands for these listeners: a silent one for none, and otherwise a
group of them, in order. -/
def World.Gathers (w : World) (l : Listener Leaf) : List (Listener Leaf) → Prop
  | [] => ∃ key, l = .leaf (.silent key)
  | listeners => ∃ id, l = .group id ∧ w.members id = listeners

/-- In any world, a configuration whose template can be made is used from then on. -/
theorem World.perform_useConfig {c : Config (Listener Leaf)}
    {t : Template CountPolicy Backoff (List (Listener Leaf))} (made : c.toTemplate = .ok t)
    (w : World) : ∃ u l, (World.useConfig c).perform w = (.ok (), u) ∧
      u.template? = some ⟨.count t.policy, .limited t.backoff, l⟩ ∧ u.Gathers l t.listener := by
  obtain ⟨policy, backoff, listeners⟩ := t
  unfold useConfig
  rw [made]
  cases listeners with
  | nil => exact ⟨_, _, rfl, rfl, _, rfl⟩
  | cons first others =>
    refine ⟨_, _, rfl, rfl, _, rfl, ?_⟩
    simp [members]

open Config

/-- **A configuration has the checks of the parts that it stands for.** Whatever its numbers are, it
is constructed if and only if its policy and then its backoff can be made, and it fails like the
first of them that cannot. So a configuration that was constructed, and merged any number of times,
has a template, with these numbers and with its listeners; and in a simulation it is used without
failure. -/
theorem configurations_furnish {κ : Type} :
    (∀ (n i : Number) (t : Option Number) (listeners : Option (List κ)),
      let made : Except Failure (Config κ) := construct (.ofNumbers n i t listeners)
      (∀ c, made = .ok c ↔ c = ⟨n, i, t, listeners.getD []⟩ ∧
        (∃ policy, CountPolicy.make n = .ok policy) ∧
        ∃ backoff, Backoff.fixed i none t = .ok backoff) ∧
      ∀ f, made = .error f ↔ CountPolicy.make n = .error f ∨
        (∃ policy, CountPolicy.make n = .ok policy) ∧ Backoff.fixed i none t = .error f) ∧
    (∀ c : Config κ, c.Obtained →
      ∃ template, c.toTemplate = .ok template ∧ c.Furnishes template) ∧
    ∀ c : Config (Listener Leaf), c.Obtained → ∀ w : World, ∃ u template l,
      (World.useConfig c).perform w = (.ok (), u) ∧ c.Furnishes template ∧
      u.template? = some ⟨.count template.policy, .limited template.backoff, l⟩ ∧
      u.Gathers l c.listeners := by
  refine ⟨fun n i t listeners => ?_, fun c h => h.admissible.toTemplate, fun c h w => ?_⟩
  · dsimp only
    rw [construct_eq_parts, ← parts_ok]
    refine ⟨fun c => ?_, fun f => ?_⟩
    · rcases parts n i t with f | made
      · simp [Except.map]
      · simp [Except.map, eq_comm]
    · rw [← parts_error]
      rcases parts n i t with f | made <;> simp [Except.map]
  · obtain ⟨template, made, furnishes⟩ := h.admissible.toTemplate
    obtain ⟨u, l, used, holds, gathers⟩ := World.perform_useConfig made w
    exact ⟨u, template, l, used, furnishes, holds, furnishes.listeners ▸ gathers⟩

/-- A NaN passes every check, and so do an infinite interval and a truth value; but a false one is
no number of attempts, and that is what is said also if the other numbers are wrong. -/
theorem configurations_furnish_odd :
    let endless : Number := .double (.infinite false)
    let later : Config.Given (Listener Leaf) :=
      { maxElapsed := some (some (.truth true)), listeners := some (some [.leaf (.silent 7)]) }
    let odd : Config (Listener Leaf) :=
      ⟨.nan, endless, some (.truth true), [.leaf (.silent 7)]⟩
    (∃ c : Config (Listener Leaf), construct (.ofNumbers .nan endless none none) = .ok c ∧
      c.merge later.overrides = .ok odd) ∧
    (∃ template, odd.toTemplate = .ok template ∧ odd.Furnishes template) ∧
    (∃ u template l, (World.useConfig odd).perform World.blank = (.ok (), u) ∧
      odd.Furnishes template ∧
      u.template? = some ⟨.count template.policy, .limited template.backoff, l⟩ ∧
      u.Gathers l odd.listeners) ∧
    (construct (.ofNumbers (.truth false) (.whole (-1)) (some (.whole (-2))) none) :
      Except Failure (Config (Listener Leaf))) =
      .error (.of .valueError "max_attempts must be >= 1, got False") := by
  intro endless later odd
  obtain ⟨constructed, furnished, used⟩ := configurations_furnish (κ := Listener Leaf)
  have attempts : Number.lt .nan 1 = false := Number.nan_lt 1
  have interval : endless.lt 0 = false := by decide +kernel
  have first : construct (.ofNumbers .nan endless none none) =
      .ok ⟨.nan, endless, none, ([] : List (Listener Leaf))⟩ :=
    construct_ok.mpr ⟨by simp [Given.ofNumbers], rfl, attempts, interval, by simp⟩
  have merged : Config.merge ⟨.nan, endless, none, []⟩ later.overrides = .ok odd :=
    merge_ok.mpr ⟨rfl, rfl, attempts, interval, fun t ht => by
      obtain rfl := Option.some.inj ht
      decide +kernel⟩
  have obtained : odd.Obtained := .merged (.constructed first) merged
  refine ⟨⟨_, first, merged⟩, furnished odd obtained, used odd obtained World.blank, ?_⟩
  have below : Number.lt (.truth false) 1 = true := by decide +kernel
  refine ((constructed _ _ _ _).2 _).mpr (.inl ?_)
  have written : (Number.writable 1 && Number.writable (.truth false)) = true := by decide +kernel
  rw [CountPolicy.make, Limits.maxAttempts, Limits.atLeast, if_pos below, Limits.below,
    if_pos written]
  rfl

end Simulation

end Retry
