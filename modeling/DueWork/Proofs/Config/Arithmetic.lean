/-
  What is computed of a configuration.

  Most of what is computed of the values of a configuration stops at the ends of
  its range: doubled delays, instants, and what is added to the clock.  Two sums
  do not, and no value is refused for being too large: the slots of the pool are
  added up in a word (`WorkerPool.build?`), and so are a delay and its random part.

  * `build?_of_fits` and `freeSlots_lt_of_build?`: the pool that is built has the
    slots that it is to have exactly if the semaphores may be as large;
  * `RetryPolicy.fits_iff`: every delay has room for its random part exactly if
    the longest one has;
  * `accepted_arithmetic` collects what holds of every accepted configuration,
    and `accepted_sizes_overflow` has those for which the sums go wrong.
-/
import DueWork.Proofs.Config.Accepted
import DueWork.Proofs.Pool.Life
import DueWork.Proofs.Schedule.Loop

namespace DueWork

open Time Schedule PoolLife

/-! ## Words -/

theorem toNat_add_eq_iff (a b : UInt64) :
    (a + b).toNat = a.toNat + b.toNat ↔ a.toNat + b.toNat < Nat.pow 2 64 := by
  rw [UInt64.toNat_add, Nat.mod_eq_iff_lt (by decide)]

namespace WorkerPool

variable {p : WorkerPool} {c : PoolConfig}

theorem build?_eq_some : build? c = some p ↔
    (c.workers ≤ maxPermits ∧ c.slots % Nat.pow 2 64 ≤ maxPermits ∧ c.permits ≤ maxPermits) ∧
      p = { ofConfig c with freeSlots := c.slots % Nat.pow 2 64 } := by
  have hslots : (UInt64.ofNat c.workers + UInt64.ofNat c.queueCapacity).toNat =
      c.slots % Nat.pow 2 64 := by
    rw [UInt64.toNat_add, UInt64.toNat_ofNat', UInt64.toNat_ofNat', ← Nat.add_mod]
    rfl
  simp only [build?, hslots, Option.ite_none_right_eq_some, Option.some.injEq]
  rw [eq_comm (b := p)]

theorem build?_of_fits (hslots : c.slots ≤ maxPermits) (hpermits : c.permits ≤ maxPermits) :
    build? c = some (ofConfig c) := by
  have hmax : maxPermits < Nat.pow 2 64 := by decide
  have hexact : c.slots % Nat.pow 2 64 = c.slots := Nat.mod_eq_of_lt (by omega)
  rw [build?_eq_some, hexact]
  exact ⟨⟨Nat.le_trans (Nat.le_add_right ..) hslots, hslots, hpermits⟩, rfl⟩

/-- Beyond the limits a pool has fewer slots than it is to have, if it is built. -/
theorem freeSlots_lt_of_build? (h : build? c = some p)
    (hfits : ¬(c.slots ≤ maxPermits ∧ c.permits ≤ maxPermits)) : p.freeSlots < c.slots := by
  obtain ⟨⟨-, hslots, hpermits⟩, rfl⟩ := build?_eq_some.1 h
  have hmore : maxPermits < c.slots := Nat.lt_of_not_le fun hle => hfits ⟨hle, hpermits⟩
  exact Nat.lt_of_le_of_lt hslots hmore

end WorkerPool

/-! ## Delays -/

namespace RetryPolicy

variable {r : RetryPolicy}

/-- The longest delay leaves room for its random part. -/
def Fits (r : RetryPolicy) : Prop := r.maxDelayMs.toNat + r.maxDelayMs.toNat / 4 < Nat.pow 2 64

instance (r : RetryPolicy) : Decidable r.Fits := inferInstanceAs (Decidable (_ < _))

theorem fits_iff : r.Fits ↔
    ∀ d j : UInt64, d ≤ r.maxDelayMs → j ≤ d / 4 → (d + j).toNat = d.toNat + j.toNat := by
  have hdiv (d : UInt64) : (d / 4).toNat = d.toNat / 4 := UInt64.toNat_div ..
  constructor
  · intro h d j hd hj
    rw [toNat_add_eq_iff]
    rw [UInt64.le_iff_toNat_le] at hd hj
    rw [hdiv] at hj
    rw [Fits] at h
    omega
  · intro h
    have hmax := h r.maxDelayMs (r.maxDelayMs / 4) (UInt64.le_refl _) (UInt64.le_refl _)
    rw [toNat_add_eq_iff, hdiv] at hmax
    exact hmax

/-- The random part is at most a quarter. -/
theorem min_maxJitterMs_le (r : RetryPolicy) (attempt : UInt32) (jitter : UInt64) :
    min jitter (r.maxJitterMs attempt) ≤ r.baseDelayMs attempt / 4 := by
  refine UInt64.le_trans Std.min_le_right ?_
  rw [maxJitterMs]
  split
  · exact UInt64.le_refl _
  · exact UInt64.zero_le

/-- A delay is the sum of its parts. -/
theorem nanos_delayFor (h : r.Fits) {attempt : UInt32}
    (hbase : r.baseDelayMs attempt ≤ r.maxDelayMs) (jitter : UInt64) :
    (r.delayFor attempt jitter).nanos = ((r.baseDelayMs attempt).toNat +
      (min jitter (r.maxJitterMs attempt)).toNat) * 1000000 := by
  rw [delayFor, Duration.nanos_ofMillis (UInt64.toNat_lt _)]
  rw [fits_iff.1 h _ _ hbase (r.min_maxJitterMs_le attempt jitter)]

end RetryPolicy

/-! ## Configurations -/

/-- The end of the clock that timers run by: its seconds are integers of 64 bits. -/
def clockEnd : Nat := Nat.pow 2 63 * nanosPerSecond

namespace SchedulerConfig

variable {c : SchedulerConfig} {source : Source}

/-- The pool that is asked for. -/
def pool (c : SchedulerConfig) : PoolConfig := ⟨c.poolSize, c.queueCapacity, c.maxInFlight⟩

/-- The pool is not larger than its semaphores may be. -/
def FitsPool (c : SchedulerConfig) : Prop :=
  c.poolSize + c.queueCapacity ≤ maxPermits ∧ c.maxInFlight ≤ maxPermits

instance (c : SchedulerConfig) : Decidable c.FitsPool := inferInstanceAs (Decidable (_ ∧ _))

/-- The bases and the bounds of its backoffs. -/
def backoffs (c : SchedulerConfig) : List (Duration × Duration) :=
  [(c.submitBackoffBase, c.submitBackoffMax), (c.suspendBackoffBase, c.suspendBackoffMax),
    (c.storeBackoffBase, c.storeBackoffMax)]

/-- What is computed of a configuration. -/
structure Arithmetic (c : SchedulerConfig) : Prop where
  /-- within the limits the pool is built that is asked for, and accepts as many
      tasks as it has workers and places to wait; -/
  built : c.FitsPool → WorkerPool.build? c.pool = some (.ofConfig c.pool) ∧
    ∀ acts, .shutdown ∉ acts → (lived c.pool acts).shows .submit =
      if (lived c.pool acts).pool.unfinished < c.poolSize + c.queueCapacity then
        [.accepted (lived c.pool acts).pool.nextTask]
      else [.refused .saturated]
  /-- beyond them it is smaller, if it is built at all -/
  smaller (p : WorkerPool) : ¬c.FitsPool → WorkerPool.build? c.pool = some p →
    p.freeSlots < c.poolSize + c.queueCapacity
  /-- a delay and its random part fit a word if those of the longest delay do, -/
  retry : c.retry.Fits ↔ ∀ d j : UInt64, d ≤ c.retry.maxDelayMs → j ≤ d / 4 →
    (d + j).toNat = d.toNat + j.toNat
  /-- and then they are added -/
  delay (attempt : UInt32) (jitter : UInt64) : c.retry.Fits →
    c.retry.baseDelayMs attempt ≤ c.retry.maxDelayMs →
    (c.retry.delayFor attempt jitter).nanos = ((c.retry.baseDelayMs attempt).toNat +
      (min jitter (c.retry.maxJitterMs attempt)).toNat) * 1000000
  /-- a backoff is doubled by a factor of 32 bits, exactly up to its bound -/
  backoff (b : Duration × Duration) (attempt : UInt32) : b ∈ c.backoffs →
    Nat.pow 2 (min attempt.toNat Duration.maxDoublings) < Nat.pow 2 32 ∧
    (Duration.cappedExponential b.1 b.2 attempt).nanos =
      min (b.1.nanos * Nat.pow 2 (min attempt.toNat Duration.maxDoublings)) b.2.nanos
  /-- a clock that has room for 64 bits of milliseconds has room for every delay -/
  timer (clock : Clock) : clock.time + Nat.pow 2 64 * 1000000 ≤ clockEnd →
    (∀ b ∈ c.backoffs, ∀ attempt,
      clock.time + (Duration.cappedExponential b.1 b.2 attempt).nanos < clockEnd) ∧
    ∀ due t, wakeTime c.pollInterval clock due = some t → t < clockEnd
  /-- stale claims are those before an instant of the calendar, -/
  cutoff (now : Instant) (age : Duration) : ¬now.IsLeap → c.staleClaimTimeout = some age →
    (now.minus age).toNanos = max (now.toNanos - age.nanos) Instant.first.toNanos
  /-- and a retry is due at one -/
  due (now : Instant) (attempt : UInt32) (jitter : UInt64) : ¬now.IsLeap →
    (now.plus (c.retry.delayFor attempt jitter)).toNanos =
      min (now.toNanos + (c.retry.delayFor attempt jitter).nanos) Instant.last.toNanos

theorem Bounded.backoff_lt (hb : c.Bounded) {b : Duration × Duration} (h : b ∈ c.backoffs)
    (attempt : UInt32) :
    (Duration.cappedExponential b.1 b.2 attempt).nanos < Nat.pow 2 64 * 1000000 := by
  have hbound : b.2.IsMillis := by
    simp only [backoffs, List.mem_cons, List.not_mem_nil, or_false] at h
    rcases h with rfl | rfl | rfl
    · exact hb.submitBackoff.2
    · exact hb.suspendBackoff.2
    · exact hb.storeBackoff.2
  obtain ⟨ms, hms, heq⟩ := hbound
  have hle : (Duration.cappedExponential b.1 b.2 attempt).nanos ≤ b.2.nanos := by
    rw [Duration.nanos_cappedExponential]
    exact Nat.min_le_right ..
  omega

/-- **The arithmetic of accepted configurations.**  Delays, instants and timers
    keep to their ranges, or stop at the end of them, for every configuration
    that is accepted.  The slots of the pool and the delays of retries do so if
    the sizes of the pool are within the limits of its semaphores, and if the
    longest delay leaves room for a quarter of it; acceptance sees to neither. -/
theorem accepted_arithmetic (h : ofSource source = .ok c) : c.Arithmetic := by
  have hb := bounded_ofSource source c h
  have hworkers : c.pool.workers = c.poolSize := Nat.max_eq_left hb.poolSize.1
  have hpermits : c.pool.permits = c.maxInFlight := Nat.max_eq_left hb.maxInFlight.1
  have hslots : c.pool.slots = c.poolSize + c.queueCapacity :=
    congrArg (· + c.queueCapacity) hworkers
  constructor
  case built =>
    rintro ⟨hsum, hflight⟩
    refine ⟨WorkerPool.build?_of_fits (hslots ▸ hsum) (hpermits ▸ hflight), fun acts hopen => ?_⟩
    rw [← hworkers]
    exact shows_submit_open (balanced_lived c.pool acts) (open_lived hopen)
  case smaller =>
    intro p hfits hp
    rw [← hslots]
    refine WorkerPool.freeSlots_lt_of_build? hp ?_
    rwa [hslots, hpermits]
  case retry => exact RetryPolicy.fits_iff
  case delay => exact fun _ jitter hfits hbase => RetryPolicy.nanos_delayFor hfits hbase jitter
  case backoff =>
    exact fun b attempt _ =>
      ⟨Duration.two_pow_doublings_lt attempt, Duration.nanos_cappedExponential ..⟩
  case timer =>
    intro clock hroom
    refine ⟨fun b hmem attempt => ?_, fun due t ht => ?_⟩
    · have := hb.backoff_lt hmem attempt
      omega
    · have hday : dayNanos < Nat.pow 2 64 * 1000000 := by decide
      have := wakeTime_le ht
      omega
  case cutoff => exact fun now age hnow _ => Instant.toNanos_minus hnow age
  case due => exact fun now attempt jitter hnow => Instant.toNanos_plus hnow _

/-- The properties of a service with one partition and one worker. -/
def oneWorkerSource (properties : List (String × String)) : Source :=
  .ofList ([("scheduler.partitions", "jobs"), ("scheduler.pool_size", "1")] ++ properties)

/-- What is read of them. -/
def oneWorker (queueCapacity : Nat) (retry : RetryPolicy) : SchedulerConfig where
  partitions := [{ key := { name := "jobs" } }]
  poolSize := 1
  queueCapacity := queueCapacity
  maxInFlight := 1
  retry := retry

/-- With a queue of this length the semaphore of the slots is as large as it may
    be. -/
theorem accepted_arithmetic_of_longest_queue :
    ofSource (oneWorkerSource [("scheduler.queue_capacity", "2305843009213693950")]) =
      .ok (oneWorker 2305843009213693950 {}) ∧
    WorkerPool.build? (oneWorker 2305843009213693950 {}).pool =
      some (.ofConfig (oneWorker 2305843009213693950 {}).pool) ∧
    (RetryPolicy.delayFor {} 0 250).nanos = 1250000000 := by
  have haccepted :
      ofSource (oneWorkerSource [("scheduler.queue_capacity", "2305843009213693950")]) =
        .ok (oneWorker 2305843009213693950 {}) := by decide +kernel
  have harith := accepted_arithmetic haccepted
  have hbuilt := (harith.built (by decide)).1
  have hdelay := harith.delay 0 250 (by decide) (by decide +kernel)
  exact ⟨haccepted, hbuilt, hdelay.trans (by decide +kernel)⟩

/-- Nothing is too large to be accepted: with a queue without a limit the slots
    come to none, and every task is refused; with a queue one place longer than
    the longest one no pool is built; and with a random part on top of the
    longest delay a retry is due at once. -/
theorem accepted_sizes_overflow :
    (ofSource (oneWorkerSource [("scheduler.queue_capacity", "18446744073709551615")]) =
        .ok (oneWorker 18446744073709551615 {}) ∧
      ∃ p, WorkerPool.build? (oneWorker 18446744073709551615 {}).pool = some p ∧
        p.submit.1 = .error .saturated) ∧
    (ofSource (oneWorkerSource [("scheduler.queue_capacity", "2305843009213693951")]) =
        .ok (oneWorker 2305843009213693951 {}) ∧
      WorkerPool.build? (oneWorker 2305843009213693951 {}).pool = none) ∧
    ∃ r : RetryPolicy,
      ofSource (oneWorkerSource [("retry.initial_delay_ms", "18446744073709551615"),
        ("retry.max_delay_ms", "18446744073709551615")]) = .ok (oneWorker 64 r) ∧
      r.baseDelayMs 0 = 18446744073709551615 ∧ 1 ≤ r.maxJitterMs 0 ∧ r.delayFor 0 1 = .zero := by
  refine ⟨⟨by decide +kernel, _, rfl, by decide⟩, ⟨by decide +kernel, by decide⟩,
    { initialDelayMs := 18446744073709551615, maxDelayMs := 18446744073709551615 }, ?_⟩
  exact ⟨by decide +kernel, by decide +kernel, by decide +kernel, by decide +kernel⟩

end SchedulerConfig

end DueWork
