/-
  Where the scheduler backs off.

  Four things are tried again after a delay: a cycle that a full pool refuses, a
  cycle that failed, a permit that was not free, and a statement that a busy
  database refuses.  The delays of the first three double from one failure to the
  next (`Doubles`); those of the last have a random part on top.

  * `Store.Busy.growing`: the random part never makes a delay longer than the
    next one;
  * `Backoffs` collects what the four of them keep to, and `backoffs_double`
    proves it;
  * `doubling_stops_short`: after sixteen doublings the delay stays where it is,
    even if the bound is further up.
-/
import DueWork.Proofs.Actor.Suspension
import DueWork.Proofs.Schedule.Setbacks
import DueWork.Store.Busy
import Mathlib.Order.Monotone.Basic

namespace DueWork

open Time

/-! ## Busy databases -/

namespace Store.Busy

variable {α : Type}

/-- The nanoseconds to wait before the retries of a statement, with some random
    parts. -/
def waits (answer : Nat → Except Error α) (jitter : Nat → Nat) : List Nat :=
  (List.range ((run answer).1 - 1)).map fun n => (delay (.ofNat n) (jitter n)).nanos

/-- The delay before retry `n` without its random part. -/
def least (n : Nat) : Nat := min (baseDelay.nanos * Nat.pow 2 n) maxDelay.nanos

theorem retry_le (answer : Nat → Except Error α) (left n : Nat) :
    (retry answer left n).1 ≤ n + left + 1 := by
  induction left generalizing n with
  | zero => exact Nat.le_refl _
  | succ left ih =>
    rw [retry]
    split
    next => simp only; omega
    next e _ =>
      split
      next =>
        have := ih (n + 1)
        omega
      next => simp only; omega

theorem length_waits_le (answer : Nat → Except Error α) (jitter : Nat → Nat) :
    (waits answer jitter).length ≤ maxRetries := by
  have := retry_le answer maxRetries 0
  rw [waits, List.length_map, List.length_range, run]
  omega

theorem nanos_baseDelay : baseDelay.nanos = 10000000 := by decide

theorem nanos_maxDelay : maxDelay.nanos = 1000000000 := by decide

theorem backoff_eq_least (n : Nat) : Duration.backoff baseDelay maxDelay n = least n :=
  (Duration.backoff_eq_iff baseDelay maxDelay n).2 (.inr (.inr (by decide)))

/-- The delay before retry `n`, with its random part. -/
def withJitter (jitter : Nat → Nat) (n : Nat) : Nat :=
  min (least n + min (jitter n) (least n / 4000000) * 1000000) maxDelay.nanos

theorem nanos_delay {n : Nat} (hn : n < Nat.pow 2 32) (jitter : Nat → Nat) :
    (delay (.ofNat n) (jitter n)).nanos = withJitter jitter n := by
  have hcount : (UInt32.ofNat n).toNat = n := UInt32.toNat_ofNat_of_lt' hn
  have hleast : (Duration.cappedExponential baseDelay maxDelay (.ofNat n)).nanos = least n := by
    rw [Duration.nanos_cappedExponential, hcount]
    exact backoff_eq_least n
  rw [delay, Duration.nanos_min, hleast, withJitter]
  show min (min _ maxDurationNanos) maxDelay.nanos = _
  rw [Nat.min_assoc, Nat.min_eq_right maxDelay.nanos_le]

/-- The random part is at most a quarter. -/
theorem withJitter_le (jitter : Nat → Nat) (n : Nat) :
    withJitter jitter n ≤ min (least n + least n / 4) maxDelay.nanos := by
  rw [withJitter]
  omega

theorem least_le (jitter : Nat → Nat) (n : Nat) : least n ≤ withJitter jitter n := by
  have : least n ≤ maxDelay.nanos := Nat.min_le_right ..
  rw [withJitter]
  omega

/-- The random part never makes a delay longer than the next one. -/
theorem growing (jitter : Nat → Nat) : Monotone (withJitter jitter) := by
  refine monotone_nat_of_le_succ fun n => ?_
  have hnext := least_le jitter (n + 1)
  have hthis := withJitter_le jitter n
  have hdouble : least n + least n / 4 ≤ least (n + 1) ∨ least (n + 1) = maxDelay.nanos := by
    rw [least, least, nanos_baseDelay, nanos_maxDelay, Nat.pow_eq, Nat.pow_eq, Nat.pow_succ]
    omega
  omega

/-- What holds of the waits before the retries of a statement. -/
structure Retries (ws : List Nat) : Prop where
  /-- each is the delay and at most a quarter of it, up to the bound, -/
  within : ∀ i (h : i < ws.length),
    least i ≤ ws[i] ∧ ws[i] ≤ min (least i + least i / 4) maxDelay.nanos
  /-- and none is shorter than one before it; -/
  sorted : ws.Pairwise (· ≤ ·)
  /-- there are no more retries than these, and the last one is at the bound -/
  length_le : ws.length ≤ maxRetries
  reaches : ∀ i (h : i < ws.length), i + 1 = maxRetries → ws[i] = maxDelay.nanos

theorem waits_eq (answer : Nat → Except Error α) (jitter : Nat → Nat) :
    waits answer jitter =
      (List.range (waits answer jitter).length).map (withJitter jitter) := by
  have hlength := length_waits_le answer jitter
  have hmax : maxRetries < Nat.pow 2 32 := by decide
  rw [waits, List.length_map, List.length_range] at hlength ⊢
  refine List.map_congr_left fun n hn => nanos_delay ?_ jitter
  rw [List.mem_range] at hn
  omega

theorem retries_waits (answer : Nat → Except Error α) (jitter : Nat → Nat) :
    Retries (waits answer jitter) := by
  have hget (i : Nat) (h : i < (waits answer jitter).length) :
      (waits answer jitter)[i] = withJitter jitter i := by
    rw [List.getElem_of_eq (waits_eq answer jitter) h, List.getElem_map, List.getElem_range]
  constructor
  case within =>
    intro i h
    rw [hget i h]
    exact ⟨least_le jitter i, withJitter_le jitter i⟩
  case sorted =>
    rw [waits_eq, List.pairwise_map]
    exact List.pairwise_le_range.imp fun h => growing jitter h
  case length_le => exact length_waits_le answer jitter
  case reaches =>
    intro i h hi
    have hlongest : least i = maxDelay.nanos := by
      obtain rfl : i = 7 := by simpa [maxRetries] using hi
      decide
    have := least_le jitter i
    have := withJitter_le jitter i
    rw [hget i h]
    omega

/-- A statement that is refused each time, without a random part. -/
example :
    waits (fun _ => (.error (.query (.refused (some "5") "")) : Except Error Unit)) (fun _ => 0) =
      [10000000, 20000000, 40000000, 80000000, 160000000, 320000000, 640000000, 1000000000] := by
  decide +kernel

end Store.Busy

/-! ## All backoffs -/

open Schedule

/-- What the backoffs of a scheduler keep to, for one configuration of its loop. -/
structure Backoffs (c : DispatchConfig) : Prop where
  /-- a delay is exact: the base doubled for each attempt, but no more than
      sixteen times, or the bound; -/
  delay (base max : Duration) (attempt : UInt32) :
    (Duration.cappedExponential base max attempt).nanos =
      min (base.nanos * Nat.pow 2 (min attempt.toNat Duration.maxDoublings)) max.nanos
  /-- without the limit it is the same only where so many doublings are enough -/
  law (base max : Duration) (attempt : UInt32) :
    (Duration.cappedExponential base max attempt).nanos =
        min (base.nanos * Nat.pow 2 attempt.toNat) max.nanos ↔
      attempt.toNat ≤ Duration.maxDoublings ∨ base.nanos = 0 ∨
        max.nanos ≤ base.nanos * Nat.pow 2 Duration.maxDoublings
  /-- whatever the loop takes, a slot that a full pool refused again and again, -/
  refusals (partition : Nat → String) (clock : Clock) (stopped : Nat → Bool) (xs : List Input)
    (slot : Nat) :
    Loop.Permits c partition { clock := clock, stopped := stopped } xs →
    Doubles c.submitBase c.submitMax
      (Loop.waits c partition Turnout.refusal slot { clock := clock, stopped := stopped } [] xs)
  /-- or whose cycles failed again and again, waits so, -/
  failures (partition : Nat → String) (clock : Clock) (stopped : Nat → Bool) (xs : List Input)
    (slot : Nat) :
    Loop.Permits c partition { clock := clock, stopped := stopped } xs →
    Doubles c.storeBase c.storeMax
      (Loop.waits c partition Turnout.failure slot { clock := clock, stopped := stopped } [] xs)
  /-- and so does a cycle for a permit, whatever happens around it; -/
  suspensions {σ : Type} [JobStore σ] (x : Mate) (es : List (Shared σ × Doing)) :
    x.isBusy = false → Doubles x.config.suspendBase x.config.suspendMax (x.suspensions [] es)
  /-- a statement is retried with a random part on top -/
  retries {α : Type} (answer : Nat → Except Error α) (jitter : Nat → Nat) :
    Store.Busy.Retries (Store.Busy.waits answer jitter)

/-- **Backoffs double up to their bound.**  Delays are exact, they double with
    every failure in a row and never get shorter, and they reach their bound if
    sixteen doublings are enough for that; if they are not, the last doubling is
    where the delays stay. -/
theorem backoffs_double (c : DispatchConfig) : Backoffs c where
  delay := Duration.nanos_cappedExponential
  law := Duration.nanos_cappedExponential_eq_iff
  refusals _ clock stopped _ _ hp :=
    Loop.doubles_waits Turnout.Effect.refusal (.init clock stopped) hp .none
  failures _ clock stopped _ _ hp :=
    Loop.doubles_waits Turnout.Effect.failure (.init clock stopped) hp .none
  suspensions x es hrest := by
    refine Mate.doubles_suspensions es ?_
    rw [Mate.attempts?_of_not_busy hrest]
    exact .none
  retries := Store.Busy.retries_waits

/-- A pool that is full three times, with the clock at the times in between. -/
def refusedThrice : List Input :=
  [.command (.register 0 (some .epoch)), .timer, .offer (some .saturated), .offer none,
    .clock ⟨.epoch, 50000000⟩, .timer, .offer (some .saturated), .offer none,
    .clock ⟨.epoch, 150000000⟩, .timer, .offer (some .saturated), .offer none]

/-- The waits of a slot with the delays of a scheduler that is not told any. -/
theorem backoffs_double_after_refusals :
    Doubles (.ofMillis 50) (.ofMillis 5000)
      (Loop.waits (.ofScheduler {}) (fun _ => "jobs") Turnout.refusal 0 { clock := ⟨.epoch, 0⟩ } []
        refusedThrice) ∧
    Loop.waits (.ofScheduler {}) (fun _ => "jobs") Turnout.refusal 0 { clock := ⟨.epoch, 0⟩ } []
      refusedThrice = [50000000, 100000000, 200000000] := by
  refine ⟨(backoffs_double (.ofScheduler {})).refusals (fun _ => "jobs") ⟨.epoch, 0⟩
    (fun _ => false) refusedThrice 0 ?_, by decide +kernel⟩
  -- the timer waits for the end of a dispatching, the pool is never closed
  have hidle {l : Loop} (h : l.dispatcher.dispatching.isNone) : l.Allows .timer :=
    Option.isNone_iff_eq_none.1 h
  exact ⟨⟨rfl, by simp [Loop.Expects, Loop.Registered]⟩, rfl, nofun, nofun, trivial,
    hidle (by decide +kernel), nofun, nofun, trivial, hidle (by decide +kernel), nofun, nofun,
    trivial⟩

/-- A scheduler may be told to double a millisecond up to 200 seconds.  The
    seventeenth doubling is not made, and no delay is as long as that. -/
theorem doubling_stops_short :
    (SchedulerConfig.ofSource (.ofList [("scheduler.partitions", "jobs"),
        ("scheduler.submit_backoff_base_ms", "1"),
        ("scheduler.submit_backoff_max_ms", "200000")])).toOption.map
      (fun c => (c.submitBackoffBase, c.submitBackoffMax)) =
        some (.ofMillis 1, .ofMillis 200000) ∧
    (Duration.cappedExponential (.ofMillis 1) (.ofMillis 200000) 17).nanos ≠
      min ((Duration.ofMillis 1).nanos * Nat.pow 2 17) (Duration.ofMillis 200000).nanos ∧
    ∀ attempt, Duration.cappedExponential (.ofMillis 1) (.ofMillis 200000) attempt <
      .ofMillis 200000 := by
  refine ⟨by decide +kernel, by decide, fun attempt => ?_⟩
  show (Duration.cappedExponential _ _ attempt).nanos < _
  have hbase : (Duration.ofMillis 1).nanos = 1000000 := by decide
  have hmax : (Duration.ofMillis 200000).nanos = 200000000000 := by decide
  have hpow : Nat.pow 2 (min attempt.toNat Duration.maxDoublings) ≤ 65536 :=
    Nat.pow_le_pow_right (by decide) (Nat.min_le_right ..)
  rw [Duration.nanos_cappedExponential, hbase, hmax]
  omega

end DueWork
