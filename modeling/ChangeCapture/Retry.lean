import ChangeCapture.Fault

/-!
# Retries

An operation that fails is tried again, up to a number of attempts, unless its
fault says that trying again is of no use.  Before the next attempt there is a
pause.  It is drawn from a range that doubles from attempt to attempt up to a
bound; the middle of the range stands for the draw.
-/

namespace ChangeCapture

/-! ## Pauses -/

/-- The range of pauses between attempts, in milliseconds. -/
structure Backoff where
  /-- The longest first pause. -/
  baseMillis : Nat
  /-- The longest pause of all. -/
  maxMillis : Nat
  deriving DecidableEq, Repr

namespace Backoff

/-- The greatest number of milliseconds that can be counted. -/
def greatestMillis : Nat := 1 <<< 64 - 1

/-- The attempt from which on the range no longer doubles. -/
def lastDoubling : Nat := 32

/-- The longest pause after an attempt that failed, counted from zero. -/
def longest (b : Backoff) (attempt : Nat) : Nat :=
  min (min (b.baseMillis <<< min attempt lastDoubling) greatestMillis) b.maxMillis

/-- The pause after an attempt that failed. -/
def pause (b : Backoff) (attempt : Nat) : Nat := (b.longest attempt + 1) / 2

/-- Whether there are no pauses at all. -/
def isImmediate (b : Backoff) : Bool := b.baseMillis == 0 || b.maxMillis == 0

end Backoff

/-! ## Attempts -/

/-- How often and at what distance an operation is tried. -/
structure RetryPolicy where
  /-- The pauses between attempts. -/
  backoff : Backoff
  /-- The number of attempts. -/
  maxAttempts : Nat
  /-- There is at least one attempt. -/
  maxAttempts_pos : 0 < maxAttempts
  /-- Whether a fault may go away. -/
  isRetryable : Fault → Bool

/-- What trying an operation led to. -/
structure Tried (α : Type) (σ : Type) where
  /-- The outcome of the last attempt. -/
  outcome : Outcome α
  /-- The state after it. -/
  state : σ
  /-- The number of attempts made. -/
  attempts : Nat
  /-- The milliseconds spent in pauses. -/
  paused : Nat

namespace RetryPolicy

variable {α : Type} {σ : Type}

/-- A policy.  Zero attempts count as one. -/
def new (baseMillis maxMillis maxAttempts : Nat) (isRetryable : Fault → Bool) : RetryPolicy :=
  ⟨⟨baseMillis, maxMillis⟩, max maxAttempts 1, by omega, isRetryable⟩

/-- The policy of a flush: fifteen attempts, whatever the fault. -/
def flush : RetryPolicy := new 1000 30000 15 fun _ => true

/-- The text of a policy. -/
def text (p : RetryPolicy) : String :=
  "RetryConfig \x7b base_ms: " ++ toString p.backoff.baseMillis
    ++ ", max_ms: " ++ toString p.backoff.maxMillis
    ++ ", max_attempts: " ++ toString p.maxAttempts ++ ", .. \x7d"

/-- Whether an attempt, counted from zero, that failed this way is followed by another. -/
def goesOn (p : RetryPolicy) (attempt : Nat) (f : Fault) : Bool :=
  attempt + 1 < p.maxAttempts && p.isRetryable f

/-- Tries an operation from an attempt on. -/
def runFrom (p : RetryPolicy) (op : Nat → σ → Outcome α × σ) (attempt paused : Nat) (state : σ) :
    Tried α σ :=
  match op attempt state with
  | (.ok a, state) => ⟨.ok a, state, attempt + 1, paused⟩
  | (.error f, state) =>
    if h : p.goesOn attempt f then
      p.runFrom op (attempt + 1) (paused + p.backoff.pause attempt) state
    else ⟨.error f, state, attempt + 1, paused⟩
termination_by p.maxAttempts - attempt
decreasing_by
  simp only [goesOn, Bool.and_eq_true, decide_eq_true_eq] at h
  omega

/-- Tries an operation, which is told the number of its attempt, counted from zero. -/
def run (p : RetryPolicy) (op : Nat → σ → Outcome α × σ) (state : σ) : Tried α σ :=
  p.runFrom op 0 0 state

end RetryPolicy

end ChangeCapture
