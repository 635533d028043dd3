import ChangeCapture.Proofs.Engine.Transcript

/-!
# The tries of a flush

Tries go on up to the first attempt that no other one follows
(`RetryPolicy.run_noting`).  A flush asks about a table and writes its window
with tries, so the calls about the table stay within the attempts that are
allowed (`Engine.tries_exact`).
-/

namespace ChangeCapture

/-- The number of attempts, as it was asked for or as it is kept, ends the tries at the same one. -/
theorem RetryPolicy.endsAt_new_iff {α : Type} (baseMillis maxMillis maxAttempts : Nat)
    (isRetryable : Fault → Bool) (outcomes : Nat → Outcome α) (n : Nat) :
    EndsAt isRetryable (new baseMillis maxMillis maxAttempts isRetryable).maxAttempts outcomes n ↔
      EndsAt isRetryable maxAttempts outcomes n := by
  simp only [EndsAt, new, Nat.max_assoc, Nat.max_self]

namespace Engine

variable {δ κ : Type} [Destination δ] [Source κ]

/-- Tries are made from the first attempt up to the one that no other follows, and its outcome is
the result.  In a reachable state, a flush does not ask about a table more often than the attempts
that are allowed.  It does not write a window of the table more often than that, and at most one of
the writes does not fail. -/
theorem tries_exact :
    (∀ (α : Type) (baseMillis maxMillis maxAttempts : Nat) (isRetryable : Fault → Bool)
      (outcomes : Nat → Outcome α),
      ∃ n, IsLeast {n | RetryPolicy.EndsAt isRetryable maxAttempts outcomes n} n ∧
        n < max maxAttempts 1 ∧
        (RetryPolicy.new baseMillis maxMillis maxAttempts isRetryable).run
            (RetryPolicy.noting outcomes) [] =
          ⟨outcomes n, List.range (n + 1), n + 1,
            ((List.range n).map (Backoff.pause ⟨baseMillis, maxMillis⟩)).sum⟩) ∧
    ∀ e : Engine δ κ, e.Reachable → ∀ (order : FlushOrder) (now : Nat) (t : TableId),
      Call.Within e.retry.maxAttempts (Call.about t (e.calls order now)) := by
  refine ⟨fun α baseMillis maxMillis maxAttempts isRetryable outcomes => ?_,
    fun e h order now t => within_flush h order now t⟩
  obtain ⟨n, least, ends⟩ :=
    (RetryPolicy.new baseMillis maxMillis maxAttempts isRetryable).run_noting outcomes
  have lt := RetryPolicy.lt_maxAttempts_of_isLeast least
  have same := RetryPolicy.endsAt_new_iff baseMillis maxMillis maxAttempts isRetryable outcomes
  exact ⟨n, ⟨(same n).1 least.1, fun m hm => least.2 ((same m).2 hm)⟩, lt, ends⟩

/-- An operation that fails twice is tried three times.  Both writes of a table fail, and that is as
often as it is written. -/
theorem tries_exact_trialFailing :
    (RetryPolicy.new 10 100 5 fun _ => true).run (RetryPolicy.noting fun n =>
          if n < 2 then .error (.plain .mergeFailed "transient") else .ok n) [] =
        ⟨.ok 2, [0, 1, 2], 3, 15⟩ ∧
      trialFailing.Reachable ∧ trialFailing.retry.maxAttempts = 2 ∧
      (Call.about ⟨"public", "items"⟩ (trialFailing.calls .shutdown 0)).countP Call.isWrite = 2 ∧
      Call.Within trialFailing.retry.maxAttempts
        (Call.about ⟨"public", "items"⟩ (trialFailing.calls .shutdown 0)) := by
  obtain ⟨tried, within⟩ := tries_exact (δ := TrialStore) (κ := MessageQueue)
  refine ⟨?_, reachable_trialFailing, by decide +kernel, by decide +kernel,
    within _ reachable_trialFailing _ _ _⟩
  obtain ⟨n, ⟨ends, first⟩, -, run⟩ := tried Nat 10 100 5 (fun _ => true) fun n =>
    if n < 2 then .error (.plain .mergeFailed "transient") else .ok n
  have le : n ≤ 2 := first (.inl ⟨2, rfl⟩)
  have ge : 2 ≤ n := by
    by_contra lt
    have fails : n < 2 := by omega
    rcases ends with ⟨a, ok⟩ | ⟨f, -, hopeless⟩ | last
    · simp only [if_pos fails] at ok
      cases ok
    · cases hopeless
    · omega
  obtain rfl : n = 2 := Nat.le_antisymm le ge
  exact run

end Engine

end ChangeCapture
