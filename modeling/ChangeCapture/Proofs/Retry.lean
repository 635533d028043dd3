import ChangeCapture.Retry
import Mathlib.Algebra.GroupWithZero.Nat
import Mathlib.Logic.Relation
import Mathlib.Order.Bounds.Defs

/-!
# What trying again leads to

An operation that is tried again runs on the state that its last failure left
behind.  Which attempt is the last one is settled by the outcomes: it is the
first that no other one follows (`run_eq_first_end`).  So what a retried
operation ends with is what one attempt ends with, after any number of attempts
that failed (`run_eq_attempt`).
-/

namespace ChangeCapture

/-- The outcome of tries and the time spent in pauses, beside the state. -/
def Tried.told {α σ : Type} (t : Tried α σ) : (Outcome α × Nat) × σ :=
  ((t.outcome, t.paused), t.state)

namespace RetryPolicy

variable {α σ : Type}

/-- What follows an attempt. -/
def goOn (p : RetryPolicy) (op : Nat → σ → Outcome α × σ) (attempt paused : Nat) :
    Outcome α → σ → Tried α σ
  | .ok a, s => ⟨.ok a, s, attempt + 1, paused⟩
  | .error f, s =>
    if p.goesOn attempt f then p.runFrom op (attempt + 1) (paused + p.backoff.pause attempt) s
    else ⟨.error f, s, attempt + 1, paused⟩

theorem runFrom_eq_goOn (p : RetryPolicy) (op : Nat → σ → Outcome α × σ) (attempt paused : Nat)
    (s : σ) : p.runFrom op attempt paused s =
      p.goOn op attempt paused (op attempt s).1 (op attempt s).2 := by
  rw [runFrom]
  cases op attempt s with
  | mk outcome s' =>
    cases outcome with
    | ok a => rfl
    | error f => by_cases goes : p.goesOn attempt f <;> simp [goOn, goes]

/-! ## The last attempt -/

/-- The state that an attempt finds when all attempts before it were made. -/
def stateBefore (op : Nat → σ → Outcome α × σ) (s : σ) : Nat → σ
  | 0 => s
  | n + 1 => (op n (stateBefore op s n)).2

/-- The outcome of an attempt when all attempts before it were made. -/
def outcomeAt (op : Nat → σ → Outcome α × σ) (s : σ) (n : Nat) : Outcome α :=
  (op n (stateBefore op s n)).1

/-- No attempt follows this one.  It succeeded, or its fault will not go away, or it is the last one
that is allowed.  Attempts are counted from zero, and one is always allowed. -/
def EndsAt (isRetryable : Fault → Bool) (maxAttempts : Nat) (outcomes : Nat → Outcome α)
    (n : Nat) : Prop :=
  (∃ a, outcomes n = .ok a) ∨ (∃ f, outcomes n = .error f ∧ isRetryable f = false) ∨
    n + 1 = max maxAttempts 1

/-- What the attempts up to one lead to. -/
def upTo (p : RetryPolicy) (op : Nat → σ → Outcome α × σ) (s : σ) (n : Nat) : Tried α σ :=
  ⟨outcomeAt op s n, stateBefore op s (n + 1), n + 1,
    ((List.range n).map p.backoff.pause).sum⟩

section LastAttempt

variable {p : RetryPolicy} {op : Nat → σ → Outcome α × σ} {s : σ} {outcomes : Nat → Outcome α}
  {n : Nat}

theorem endsAt_of_ok {a : α} (h : outcomes n = .ok a) :
    EndsAt p.isRetryable p.maxAttempts outcomes n :=
  .inl ⟨a, h⟩

theorem endsAt_iff_of_error {f : Fault} (h : outcomes n = .error f) (left : n < p.maxAttempts) :
    EndsAt p.isRetryable p.maxAttempts outcomes n ↔ p.goesOn n f = false := by
  have last : n + 1 = max p.maxAttempts 1 ↔ ¬ n + 1 < p.maxAttempts := by omega
  simp only [EndsAt, h, last, goesOn, Bool.and_eq_false_iff, decide_eq_false_iff_not]
  constructor
  · rintro (⟨a, h⟩ | ⟨f', h, hopeless⟩ | none)
    · cases h
    · cases h
      exact .inr hopeless
    · exact .inl none
  · rintro (none | hopeless)
    · exact .inr (.inr none)
    · exact .inr (.inl ⟨f, rfl, hopeless⟩)

/-- From an attempt on, the tries end with the first attempt that no other one follows. -/
theorem runFrom_eq_first_end {attempt paused : Nat} {state : σ} (left : attempt < p.maxAttempts)
    (found : state = stateBefore op s attempt)
    (spent : paused = ((List.range attempt).map p.backoff.pause).sum) :
    ∃ n, IsLeast {m | attempt ≤ m ∧ EndsAt p.isRetryable p.maxAttempts (outcomeAt op s) m} n ∧
      p.runFrom op attempt paused state = p.upTo op s n := by
  induction attempt, paused, state using runFrom.induct p op with
  | case1 attempt paused state a state' h =>
    subst found spent
    have outcome : outcomeAt op s attempt = .ok a := congrArg Prod.fst h
    refine ⟨attempt, ⟨⟨Nat.le_refl _, endsAt_of_ok outcome⟩, fun m hm => hm.1⟩, ?_⟩
    rw [runFrom, h, upTo, outcome, stateBefore, h]
  | case2 attempt paused state f state' h goes ih =>
    subst found spent
    have outcome : outcomeAt op s attempt = .error f := congrArg Prod.fst h
    have next : attempt + 1 < p.maxAttempts := by
      simp only [goesOn, Bool.and_eq_true, decide_eq_true_eq] at goes
      exact goes.1
    obtain ⟨n, least, ends⟩ := ih next (by rw [stateBefore, h])
      (by simp [List.range_succ])
    refine ⟨n, ⟨⟨by have := least.1.1; omega, least.1.2⟩, fun m hm => least.2 ⟨?_, hm.2⟩⟩, ?_⟩
    · rcases Nat.eq_or_lt_of_le hm.1 with rfl | lt
      · rw [(endsAt_iff_of_error outcome left).1 hm.2] at goes
        cases goes
      · exact lt
    · rw [runFrom, h]
      simpa [goes] using ends
  | case3 attempt paused state f state' h ends =>
    subst found spent
    have outcome : outcomeAt op s attempt = .error f := congrArg Prod.fst h
    refine ⟨attempt, ⟨⟨Nat.le_refl _, ?_⟩, fun m hm => hm.1⟩, ?_⟩
    · rwa [endsAt_iff_of_error outcome left, ← Bool.not_eq_true]
    · rw [runFrom, h, upTo, outcome, stateBefore, h]
      simp [ends]

/-- The tries end with the first attempt that no other one follows. -/
theorem run_eq_first_end (p : RetryPolicy) (op : Nat → σ → Outcome α × σ) (s : σ) :
    ∃ n, IsLeast {n | EndsAt p.isRetryable p.maxAttempts (outcomeAt op s) n} n ∧
      p.run op s = p.upTo op s n := by
  obtain ⟨n, least, ends⟩ := runFrom_eq_first_end p.maxAttempts_pos
    (rfl : s = stateBefore op s 0) rfl
  refine ⟨n, ?_, ends⟩
  simpa using least

/-- The first attempt that no other one follows is within the number that is allowed. -/
theorem lt_maxAttempts_of_isLeast
    (least : IsLeast {n | EndsAt p.isRetryable p.maxAttempts outcomes n} n) :
    n < p.maxAttempts := by
  have pos := p.maxAttempts_pos
  have le : n ≤ p.maxAttempts - 1 := least.2 (.inr (.inr (by omega)))
  omega

/-- The attempts before the first one that no other one follows failed. -/
theorem exists_error_of_lt_isLeast
    (least : IsLeast {n | EndsAt p.isRetryable p.maxAttempts outcomes n} n) {m : Nat} (lt : m < n) :
    ∃ f, outcomes m = .error f := by
  cases outcome : outcomes m with
  | error f => exact ⟨f, rfl⟩
  | ok a => exact absurd (least.2 (endsAt_of_ok outcome)) (by omega)

/-- Outcomes that are given beforehand.  Beside them, the numbers of the attempts are noted. -/
def noting (outcomes : Nat → Outcome α) (n : Nat) (made : List Nat) : Outcome α × List Nat :=
  (outcomes n, made ++ [n])

theorem stateBefore_noting (outcomes : Nat → Outcome α) (n : Nat) :
    stateBefore (noting outcomes) [] n = List.range n := by
  induction n with
  | zero => rfl
  | succ n ih => rw [stateBefore, ih, noting, List.range_succ]

/-- The attempts that are made are those up to the first that no other one follows, in order, and
its outcome is the result. -/
theorem run_noting (p : RetryPolicy) (outcomes : Nat → Outcome α) :
    ∃ n, IsLeast {n | EndsAt p.isRetryable p.maxAttempts outcomes n} n ∧
      p.run (noting outcomes) [] =
        ⟨outcomes n, List.range (n + 1), n + 1, ((List.range n).map p.backoff.pause).sum⟩ := by
  obtain ⟨n, least, ends⟩ := p.run_eq_first_end (noting outcomes) []
  refine ⟨n, least, ?_⟩
  rw [ends, upTo, stateBefore_noting]
  rfl

end LastAttempt

/-! ## The attempts before it -/

/-- An attempt that fails leads from the first state to the second. -/
def FailsTo (op : Nat → σ → Outcome α × σ) (s s' : σ) : Prop :=
  ∃ n f, op n s = (.error f, s')

/-- Attempts that all fail lead from the first state to the one that the next attempt finds. -/
theorem reflTransGen_failsTo {op : Nat → σ → Outcome α × σ} {s : σ} {n : Nat}
    (fail : ∀ m < n, ∃ f, outcomeAt op s m = .error f) :
    Relation.ReflTransGen (FailsTo op) s (stateBefore op s n) := by
  induction n with
  | zero => exact .refl
  | succ n ih =>
    obtain ⟨f, last⟩ := fail n (Nat.lt_succ_self n)
    exact (ih fun m lt => fail m (by omega)).tail ⟨n, f, Prod.ext last rfl⟩

/-- A retried operation ends as its last attempt does, and all attempts before that failed. -/
theorem run_eq_attempt (p : RetryPolicy) (op : Nat → σ → Outcome α × σ) (s : σ) :
    ∃ n s', Relation.ReflTransGen (FailsTo op) s s' ∧
      op n s' = ((p.run op s).outcome, (p.run op s).state) := by
  obtain ⟨n, least, ends⟩ := p.run_eq_first_end op s
  rw [ends]
  exact ⟨n, stateBefore op s n, reflTransGen_failsTo fun _ => exists_error_of_lt_isLeast least, rfl⟩

/-! ## Other states -/

/-- What a state carries along and no attempt looks at makes no difference. -/
theorem runFrom_map {τ : Type} (p : RetryPolicy) {op : Nat → σ → Outcome α × σ}
    {op' : Nat → τ → Outcome α × τ} {f : σ → τ}
    (same : ∀ n s, op' n (f s) = ((op n s).1, f (op n s).2)) (attempt paused : Nat) (s : σ) :
    p.runFrom op' attempt paused (f s) =
      ⟨(p.runFrom op attempt paused s).outcome, f (p.runFrom op attempt paused s).state,
        (p.runFrom op attempt paused s).attempts, (p.runFrom op attempt paused s).paused⟩ := by
  induction attempt, paused, s using runFrom.induct p op with
  | case1 attempt paused s a s' h =>
    rw [runFrom, runFrom, same, h]
  | case2 attempt paused s f s' h goes ih =>
    rw [runFrom, runFrom, same, h]
    simpa [goes] using ih
  | case3 attempt paused s f s' h ends =>
    rw [runFrom, runFrom, same, h]
    simp [ends]

theorem run_map {τ : Type} (p : RetryPolicy) (op : Nat → σ → Outcome α × σ)
    (op' : Nat → τ → Outcome α × τ) (f : σ → τ)
    (same : ∀ n s, op' n (f s) = ((op n s).1, f (op n s).2)) (s : σ) :
    p.run op' (f s) =
      ⟨(p.run op s).outcome, f (p.run op s).state, (p.run op s).attempts, (p.run op s).paused⟩ :=
  p.runFrom_map same 0 0 s

/-- An operation that does not fail is tried once. -/
theorem run_of_ok (p : RetryPolicy) {op : Nat → σ → Outcome α × σ} {s s' : σ} {a : α}
    (h : op 0 s = (.ok a, s')) : p.run op s = ⟨.ok a, s', 1, 0⟩ := by
  rw [run, runFrom, h]

end RetryPolicy

end ChangeCapture
