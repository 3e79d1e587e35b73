import Mathlib.Data.List.Induction
import Retry.Failure.Catalogue
import Retry.Proofs.Counts

/-!
# What a policy answers, failure after failure

One execution is shown one failure after another. A counting policy answers by the number of
failures alone; a selective one counts too, but its first refusal, for whatever reason, is
final, and nothing is counted after it.

**What can be asked (hypotheses of the result).** The predicate of the policy, if it has one,
answers for every failure that is shown, and every failure has a text.

**Results.**
* `CountPolicy.answers_eq`: the answer to the i-th failure says whether i is below the number.
* `SelectivePolicy.stands_after`: an execution has let all failures through so far, or it has
  refused one and is as it was then (`Stands`).
* `SelectivePolicy.answers_closed`: its answers in closed form, where its counter ends up, and
  where the two policies agree.
-/

namespace Retry

/-- A whole number from one on is accepted as a number of attempts. -/
theorem Limits.maxAttempts_whole {n : Nat} (hn : 1 ≤ n) :
    Limits.maxAttempts (.whole n) = .ok () := by
  have notBelow : Number.lt (.whole n) (.whole 1) = false := by
    rw [Number.lt_whole, decide_eq_false_iff_not]
    omega
  exact atLeast_ok.mpr notBelow

namespace Consultation

/-! ## One execution, asked again and again -/

section

variable {ε : Type} (ask : ε → Failure → Consultation ε)

/-- The answers to failures that are shown one after another. -/
def answers : ε → List Failure → List (Except Failure Bool)
  | _, [] => []
  | e, f :: later => (ask e f).answer :: answers (ask e f).next later

def after (e : ε) (shown : List Failure) : ε := shown.foldl (fun e f => (ask e f).next) e

theorem after_append (e : ε) (shown later : List Failure) :
    after ask e (shown ++ later) = after ask (after ask e shown) later := List.foldl_append

theorem after_concat (e : ε) (shown : List Failure) (f : Failure) :
    after ask e (shown ++ [f]) = (ask (after ask e shown) f).next :=
  after_append ask e shown [f]

theorem answers_length (e : ε) (shown : List Failure) :
    (answers ask e shown).length = shown.length := by
  induction shown generalizing e with
  | nil => rfl
  | cons f later ih => exact congrArg (· + 1) (ih _)

/-- An answer is what the execution says that was shown the failures before. -/
theorem answers_getElem? (e : ε) {shown : List Failure} {i : Nat} {f : Failure}
    (h : shown[i]? = some f) :
    (answers ask e shown)[i]? = some (ask (after ask e (shown.take i)) f).answer := by
  induction shown generalizing e i with
  | nil => simp at h
  | cons g later ih =>
    cases i with
    | zero =>
      obtain rfl : g = f := by simpa using h
      rfl
    | succ i => exact ih _ (by simpa using h)

/-- What an execution answers to the last failure is what it answers there in a longer run. -/
theorem answers_last (e : ε) {shown : List Failure} {i : Nat} (h : i < shown.length) :
    ∃ f, shown.take (i + 1) = shown.take i ++ [f] ∧
      (answers ask e shown)[i]? = some (ask (after ask e (shown.take i)) f).answer :=
  ⟨shown[i], (List.take_append_getElem h).symm,
    answers_getElem? ask e (List.getElem?_eq_getElem h)⟩

end

def refuses : Except Failure Bool → Bool
  | .ok false => true
  | _ => false

theorem refuses_iff {answer : Except Failure Bool} :
    refuses answer = true ↔ answer = .ok false := by
  rcases answer with x | _ | _ <;> simp [refuses]

end Consultation

open Consultation

/-! ## Counting -/

namespace CountPolicy

theorem after_eq (p : CountPolicy) (shown : List Failure) :
    after Execution.shouldRetry p.start shown = ⟨p, shown.length⟩ := by
  induction shown using List.reverseRecOn with
  | nil => rfl
  | append_singleton shown f ih =>
    rw [after_concat, ih]
    simp [Execution.shouldRetry]

theorem answers_eq {p : CountPolicy} {n : Nat} (h : p.maxAttempts = .whole n)
    {shown : List Failure} {i : Nat} (hi : i < shown.length) :
    (answers Execution.shouldRetry p.start shown)[i]? = some (.ok (decide (i + 1 < n))) := by
  obtain ⟨f, -, answer⟩ := answers_last Execution.shouldRetry p.start hi
  rw [answer, after_eq, Execution.answer_eq h, List.length_take_of_le (Nat.le_of_lt hi)]

end CountPolicy

/-! ## Looking at the failure -/

namespace SelectivePolicy

/-- The rules of a policy let a failure be retried. -/
def Retries (p : SelectivePolicy) (f : Failure) : Prop :=
  (∃ kind ∈ p.retryOn, f.isA kind = true) ∧ (∀ kind ∈ p.ignore, f.isA kind = false) ∧
    ∀ accepts, p.predicate = some accepts → accepts f = .ok true

/-- The predicate of a policy, if it has one, answers for a failure. -/
def Decides (p : SelectivePolicy) (f : Failure) : Prop :=
  ∀ accepts, p.predicate = some accepts → ∃ b, accepts f = .ok b

/-- Where the predicate answers, the policy does, and by its rules. -/
theorem isRetryable_eq {p : SelectivePolicy} {f : Failure} (h : p.Decides f) :
    ∃ b, p.isRetryable f = .ok b ∧ (b = true ↔ p.Retries f) := by
  unfold isRetryable
  cases ignored : p.ignore.any f.isA with
  | true =>
    refine ⟨false, rfl, by simp, fun ⟨_, spared, _⟩ => ?_⟩
    obtain ⟨kind, hk, isA⟩ := List.any_eq_true.mp ignored
    exact absurd isA (by simp [spared kind hk])
  | false =>
    have spared : ∀ kind ∈ p.ignore, f.isA kind = false := fun kind hk =>
      Bool.eq_false_iff.mpr (List.any_eq_false.mp ignored kind hk)
    cases named : p.retryOn.any f.isA with
    | false =>
      refine ⟨false, rfl, by simp, fun ⟨⟨kind, hk, isA⟩, _⟩ => ?_⟩
      exact absurd isA (List.any_eq_false.mp named kind hk)
    | true =>
      have listed : ∃ kind ∈ p.retryOn, f.isA kind = true := List.any_eq_true.mp named
      cases asked : p.predicate with
      | none => exact ⟨true, rfl, fun _ => ⟨listed, spared, by simp [asked]⟩, fun _ => rfl⟩
      | some accepts =>
        obtain ⟨b, hb⟩ := h accepts asked
        refine ⟨b, hb, ?_, fun ⟨_, _, accepted⟩ => ?_⟩
        · rintro rfl
          refine ⟨listed, spared, fun other h => ?_⟩
          rwa [← Option.some.inj (asked.symm.trans h)]
        · exact Except.ok.inj (hb.symm.trans (accepted accepts asked))

/-- A policy for `n` attempts lets these failures through: they are fewer than `n`, and its
rules let each of them be retried. -/
def Passes (p : SelectivePolicy) (n : Nat) (shown : List Failure) : Prop :=
  shown.length < n ∧ ∀ f ∈ shown, p.Retries f

section

variable {p : SelectivePolicy} {n : Nat} {shown : List Failure} {f : Failure}

/-- What lets some failures through has let those before them through. -/
theorem Passes.of_prefix {part : List Failure} (h : p.Passes n shown) (hp : part <+: shown) :
    p.Passes n part :=
  ⟨Nat.lt_of_le_of_lt hp.length_le h.1, fun f hf => h.2 f (hp.subset hf)⟩

/-- An execution that let all failures through lets the next one through, or refuses it and is
exhausted. Either way it counts it. -/
theorem shouldRetry_going (hp : p.maxAttempts = .whole n) (decides : p.Decides f)
    (worded : ∃ t, f.text = .ok t) (before : p.Passes n shown) :
    ∃ b, (b = true ↔ p.Passes n (shown ++ [f])) ∧
      (Execution.shouldRetry ⟨p, shown.length, false⟩ f).answer = .ok b ∧
      (Execution.shouldRetry ⟨p, shown.length, false⟩ f).next = ⟨p, shown.length + 1, !b⟩ := by
  obtain ⟨-, retried⟩ := before
  obtain ⟨b, hb, rules⟩ := isRetryable_eq decides
  obtain ⟨t, ht⟩ := worded
  have passes : p.Passes n (shown ++ [f]) ↔ shown.length + 1 < n ∧ p.Retries f := by
    simp only [Passes, List.length_append, List.length_singleton, List.mem_append,
      List.mem_singleton, or_imp, forall_and, forall_eq]
    exact and_congr_right' (and_iff_right retried)
  cases b with
  | false =>
    refine ⟨false, ?_, ?_, ?_⟩
    · rw [passes]
      exact ⟨fun h => absurd h (by simp), fun ⟨_, retries⟩ => rules.mpr retries⟩
    all_goals simp [Execution.shouldRetry, hb, ht]
  | true =>
    refine ⟨decide (shown.length + 1 < n), ?_, ?_, ?_⟩
    · rw [passes, decide_eq_true_iff]
      exact (and_iff_left (rules.mp rfl)).symm
    all_goals rw [Execution.shouldRetry_of_retryable hp rfl hb]
    simp [← decide_not]

/-- What becomes of an execution. -/
inductive Stands (p : SelectivePolicy) (n : Nat) : List Failure → Execution → Prop
  /-- All failures so far were let through. -/
  | going {shown : List Failure} (passes : p.Passes n shown) :
      Stands p n shown ⟨p, shown.length, false⟩
  /-- A failure was refused, and since then nothing has changed. -/
  | refused {before later : List Failure} {f : Failure} (passes : p.Passes n before)
      (stops : ¬ p.Passes n (before ++ [f])) :
      Stands p n (before ++ f :: later) ⟨p, before.length + 1, true⟩

/-- What an execution that stands so answers to one more failure, and how it stands then. -/
theorem Stands.next {e : Execution} (hp : p.maxAttempts = .whole n) (decides : p.Decides f)
    (worded : ∃ t, f.text = .ok t) (h : p.Stands n shown e) :
    ∃ b, (e.shouldRetry f).answer = .ok b ∧ (b = true ↔ p.Passes n (shown ++ [f])) ∧
      p.Stands n (shown ++ [f]) (e.shouldRetry f).next := by
  cases h with
  | going passes =>
    obtain ⟨b, through, answer, next⟩ := shouldRetry_going hp decides worded passes
    refine ⟨b, answer, through, ?_⟩
    rw [next]
    cases b with
    | true =>
      have stands := Stands.going (through.mp rfl)
      rwa [List.length_append] at stands
    | false => exact .refused passes fun h => absurd (through.mpr h) (by simp)
  | @refused before later g passes stops =>
    rw [Execution.shouldRetry_of_exhausted rfl, List.append_assoc, List.cons_append]
    refine ⟨false, rfl, ⟨fun h => absurd h (by simp), fun h => absurd (h.of_prefix ?_) stops⟩,
      .refused passes stops⟩
    exact ⟨later ++ [f], by simp⟩

theorem Stands.exhausted {e : Execution} (h : p.Stands n shown e) (stopped : ¬ p.Passes n shown) :
    e.exhausted = true := by
  cases h with
  | going passes => exact absurd passes stopped
  | refused => rfl

end

/-! ## The answers in closed form -/

section

variable {p : SelectivePolicy} {n : Nat} {shown : List Failure}
  (hp : p.maxAttempts = .whole n) (hn : 1 ≤ n) (decides : ∀ f ∈ shown, p.Decides f)
  (worded : ∀ f ∈ shown, ∃ t, f.text = .ok t)

include hp hn decides worded

/-- Whatever an execution was shown, it stands in one of two ways. -/
theorem stands_after : p.Stands n shown (after Execution.shouldRetry p.start shown) := by
  induction shown using List.reverseRecOn with
  | nil => exact .going ⟨hn, by simp⟩
  | append_singleton shown f ih =>
    have stands := ih (fun f hf => decides f (List.mem_append_left _ hf))
      (fun f hf => worded f (List.mem_append_left _ hf))
    obtain ⟨b, -, -, next⟩ := stands.next hp (decides f (by simp)) (worded f (by simp))
    rw [after_concat]
    exact next

/-- It lets a failure through as long as it let all before through, and this one. -/
theorem answers_eq {i : Nat} (hi : i < shown.length) :
    ∃ b, (answers Execution.shouldRetry p.start shown)[i]? = some (.ok b) ∧
      (b = true ↔ p.Passes n (shown.take (i + 1))) := by
  obtain ⟨f, taken, answer⟩ := answers_last Execution.shouldRetry p.start hi
  have mem : ∀ g ∈ shown.take i ++ [f], g ∈ shown := fun g hg =>
    List.mem_of_mem_take (taken ▸ hg)
  have stands : p.Stands n (shown.take i) _ := stands_after hp hn
    (fun g hg => decides g (mem g (List.mem_append_left _ hg)))
    (fun g hg => worded g (mem g (List.mem_append_left _ hg)))
  obtain ⟨b, hb, through, -⟩ := stands.next hp (decides f (mem f (by simp)))
    (worded f (mem f (by simp)))
  exact ⟨b, answer.trans (congrArg some hb), taken ▸ through⟩

/-- An answer is a refusal exactly where the failures so far are not let through. -/
theorem refused_iff {i : Nat} (hi : i < shown.length) :
    (answers Execution.shouldRetry p.start shown)[i]? = some (.ok false) ↔
      ¬ p.Passes n (shown.take (i + 1)) := by
  obtain ⟨b, answer, through⟩ := answers_eq hp hn decides worded hi
  rw [answer, ← through]
  simp

/-- The counter has gone as far as the first refusal, and no further than the failures. -/
theorem attempts_after :
    (after Execution.shouldRetry p.start shown).attempts =
      min shown.length ((answers Execution.shouldRetry p.start shown).findIdx refuses + 1) := by
  have length := answers_length Execution.shouldRetry p.start shown
  have refused : ∀ i (hi : i < (answers Execution.shouldRetry p.start shown).length),
      refuses (answers Execution.shouldRetry p.start shown)[i] = true ↔
        ¬ p.Passes n (shown.take (i + 1)) := fun i hi => by
    rw [refuses_iff, ← refused_iff hp hn decides worded (length ▸ hi),
      List.getElem?_eq_getElem hi, Option.some_inj]
  generalize answers Execution.shouldRetry p.start shown = said at refused length
  have stands := stands_after hp hn decides worded
  generalize after Execution.shouldRetry p.start shown = e at stands
  cases stands with
  | going passes =>
    have none : said.findIdx refuses = said.length := by
      refine List.findIdx_eq_length.mpr fun a ha => ?_
      obtain ⟨i, hi, rfl⟩ := List.getElem_of_mem ha
      refine Bool.eq_false_iff.mpr fun h => (refused i hi).mp h ?_
      exact passes.of_prefix (List.take_prefix _ _)
    rw [none, length]
    exact (Nat.min_eq_left (Nat.le_succ _)).symm
  | @refused before later f passes stops =>
    have here : before.length < said.length := by rw [length]; simp
    have first : said.findIdx refuses = before.length := by
      refine (List.findIdx_eq here).mpr ⟨(refused _ here).mpr ?_, fun j hj => ?_⟩
      · rwa [List.append_cons, List.take_left' (by simp)]
      · refine Bool.eq_false_iff.mpr fun h => (refused j (Nat.lt_trans hj here)).mp h ?_
        rw [List.take_append_of_le_length hj]
        exact passes.of_prefix (List.take_prefix _ _)
    rw [first]
    exact (Nat.min_eq_right (by simp)).symm

end

theorem after_of_exhausted {e : Execution} (h : e.exhausted = true) (later : List Failure) :
    after Execution.shouldRetry e later = e := by
  induction later with
  | nil => rfl
  | cons f later ih =>
    rw [after, List.foldl_cons, Execution.shouldRetry_of_exhausted h]
    exact ih

/-- What an execution of a policy for `n` attempts answers to these failures. -/
structure Settled (p : SelectivePolicy) (n : Nat) (shown : List Failure) : Prop where
  /-- The i-th answer is yes if fewer than `n` failures were shown by then and the rules let each
  of them be retried, and no otherwise. -/
  through : ∀ i < shown.length, ∃ b,
    (answers Execution.shouldRetry p.start shown)[i]? = some (.ok b) ∧
      (b = true ↔ i + 1 < n ∧ ∀ f ∈ shown.take (i + 1), p.Retries f)
  /-- The counter ends at the number of failures or at the first refusal. -/
  counted : (after Execution.shouldRetry p.start shown).attempts =
    min shown.length ((answers Execution.shouldRetry p.start shown).findIdx refuses + 1)
  /-- After a refusal every answer is a refusal, and the execution stays as it is. -/
  latched : ∀ i k, i + k < shown.length →
    (answers Execution.shouldRetry p.start shown)[i]? = some (.ok false) →
    (answers Execution.shouldRetry p.start shown)[i + k]? = some (.ok false) ∧
      after Execution.shouldRetry p.start (shown.take (i + k + 1)) =
        after Execution.shouldRetry p.start (shown.take (i + 1))
  /-- Where the rules let every failure be retried, only their number counts. -/
  agrees : (∀ f ∈ shown, p.Retries f) →
    answers Execution.shouldRetry p.start shown =
      answers CountPolicy.Execution.shouldRetry (CountPolicy.start ⟨p.maxAttempts⟩) shown

section

variable {p : SelectivePolicy} {n : Nat} {shown : List Failure}

theorem passes_take {i : Nat} (hi : i < shown.length) :
    p.Passes n (shown.take (i + 1)) ↔ i + 1 < n ∧ ∀ f ∈ shown.take (i + 1), p.Retries f := by
  rw [Passes, List.length_take_of_le hi]

theorem settled (hp : p.maxAttempts = .whole n) (hn : 1 ≤ n) (decides : ∀ f ∈ shown, p.Decides f)
    (worded : ∀ f ∈ shown, ∃ t, f.text = .ok t) : p.Settled n shown where
  through i hi := by
    rw [← passes_take hi]
    exact answers_eq hp hn decides worded hi
  counted := attempts_after hp hn decides worded
  latched i k hk refused := by
    have hi : i < shown.length := by omega
    have stopped := (refused_iff hp hn decides worded hi).mp refused
    have more : shown.take (i + k + 1) = shown.take (i + 1) ++ (shown.drop (i + 1)).take k := by
      rw [← List.take_add, Nat.add_right_comm]
    constructor
    · refine (refused_iff hp hn decides worded hk).mpr fun h => stopped (h.of_prefix ?_)
      exact ⟨_, more.symm⟩
    · have stands : p.Stands n (shown.take (i + 1)) _ := stands_after hp hn
        (fun f hf => decides f (List.mem_of_mem_take hf))
        (fun f hf => worded f (List.mem_of_mem_take hf))
      rw [more, after_append, after_of_exhausted (stands.exhausted stopped)]
  agrees retried := by
    refine List.ext_getElem? fun i => ?_
    by_cases hi : i < shown.length
    · obtain ⟨b, answer, through⟩ := answers_eq hp hn decides worded hi
      rw [passes_take hi, and_iff_left fun f hf => retried f (List.mem_of_mem_take hf)] at through
      rw [answer, CountPolicy.answers_eq (p := ⟨p.maxAttempts⟩) hp hi,
        Bool.eq_iff_iff.mpr (through.trans decide_eq_true_iff.symm)]
    · rw [List.getElem?_eq_none (by rw [answers_length]; omega),
        List.getElem?_eq_none (by rw [answers_length]; omega)]

/-- Policies for a number of attempts from one on can be made, and this is what executions of
them answer to any failures, one after another. -/
theorem answers_closed (n : Nat) (hn : 1 ≤ n) (retryOn ignore : List String)
    (predicate : Option (Failure → Except Failure Bool)) (shown : List Failure)
    (returns : ∀ accepts, predicate = some accepts → ∀ f ∈ shown, ∃ b, accepts f = .ok b)
    (worded : ∀ f ∈ shown, ∃ t, f.text = .ok t) :
    let p : SelectivePolicy := ⟨.whole n, retryOn, ignore, predicate⟩
    let q : CountPolicy := ⟨.whole n⟩
    SelectivePolicy.make (.whole n) retryOn ignore predicate = .ok p ∧
      CountPolicy.make (.whole n) = .ok q ∧ p.Settled n shown ∧
      ∀ (others : List Failure), ∀ i < others.length,
        (answers CountPolicy.Execution.shouldRetry q.start others)[i]? =
          some (.ok (decide (i + 1 < n))) := by
  intro p q
  have accepted := Limits.maxAttempts_whole hn
  refine ⟨?_, ?_, ?_, fun others i hi => CountPolicy.answers_eq (p := q) rfl hi⟩
  · rw [SelectivePolicy.make, accepted]
    rfl
  · rw [CountPolicy.make, accepted]
    rfl
  · exact settled (p := p) rfl hn (fun f hf accepts h => returns accepts h f hf) worded

end

/-- Retries failures of the system and of the application that have a message, except those of a
connection. -/
def cautious : SelectivePolicy where
  maxAttempts := .whole 4
  retryOn := ["OSError", "CustomError"]
  ignore := ["ConnectionError"]
  predicate := some fun f => .ok f.message?.isSome

/-- Failures of which the third is ignored; the second descends from two kinds. -/
def mishaps : List Failure :=
  [.of .timeoutError "slow", .of (.below "CustomChildError" [.customError, .timeoutError]) "late",
    .of .connectionError "reset", .of .timeoutError "slow"]

/-- The ignored failure is refused, and so is the one after it, which is not counted. -/
theorem answers_closed_cautious :
    (1 ≤ 4 ∧ (∀ accepts, cautious.predicate = some accepts →
        ∀ f ∈ mishaps, ∃ b, accepts f = .ok b) ∧ ∀ f ∈ mishaps, ∃ t, f.text = .ok t) ∧
      cautious.Settled 4 mishaps ∧
      (answers Execution.shouldRetry cautious.start mishaps).map refuses =
        [false, false, true, true] ∧
      (after Execution.shouldRetry cautious.start mishaps).attempts = 3 := by
  have returns : ∀ accepts, cautious.predicate = some accepts →
      ∀ f ∈ mishaps, ∃ b, accepts f = .ok b := by
    intro accepts h f _
    obtain rfl := Option.some.inj h
    exact ⟨_, rfl⟩
  have worded : ∀ f ∈ mishaps, ∃ t, f.text = .ok t := by
    simp only [mishaps, List.forall_mem_cons]
    exact ⟨⟨_, rfl⟩, ⟨_, rfl⟩, ⟨_, rfl⟩, ⟨_, rfl⟩, by simp⟩
  obtain ⟨-, -, settled, -⟩ := answers_closed 4 (by decide) cautious.retryOn cautious.ignore
    cautious.predicate mishaps returns worded
  exact ⟨⟨by decide, returns, worded⟩, settled, by decide +kernel, by decide +kernel⟩

end SelectivePolicy

end Retry
