/-
  Backoffs: how long to wait after failures in a row.

  The first delay is the base of a backoff, and each delay is twice the one
  before until the bound is reached; after sixteen doublings a delay no longer
  grows.  A `Mark` says what an event means to a count of failures in a row.

  * `nanos_cappedExponential_eq_iff`: a delay is the base doubled once for each
    failure, up to the bound, exactly where sixteen doublings are enough for it;
  * `Doubles` collects what holds of the delays after failures in a row;
  * `Counted` is what an event does to a count that is kept properly, and
    `Counted.inStep` has the delays stay in step with the count.
-/
import DueWork.Proofs.Time.Delays
import Mathlib.Data.List.Basic

namespace DueWork.Time

namespace Duration

/-- The nanoseconds to wait after one more failure than `n` in a row. -/
def backoff (base max : Duration) (n : Nat) : Nat :=
  min (base.nanos * Nat.pow 2 (min n maxDoublings)) max.nanos

/-- A backoff does not go down. -/
theorem backoff_mono {m n : Nat} (base max : Duration) (h : m ≤ n) :
    backoff base max m ≤ backoff base max n := by
  have hpow : Nat.pow 2 (min m maxDoublings) ≤ Nat.pow 2 (min n maxDoublings) :=
    Nat.pow_le_pow_right (by decide) (by omega)
  have := Nat.mul_le_mul_left base.nanos hpow
  rw [backoff, backoff]
  omega

/-- The base doubled once for each failure, up to the bound: this is the delay as
    long as the doublings last, and beyond if they are enough for the bound. -/
theorem backoff_eq_iff (base max : Duration) (n : Nat) :
    backoff base max n = min (base.nanos * Nat.pow 2 n) max.nanos ↔
      n ≤ maxDoublings ∨ base.nanos = 0 ∨ max.nanos ≤ base.nanos * Nat.pow 2 maxDoublings := by
  rw [backoff]
  by_cases hn : n ≤ maxDoublings
  · rw [Nat.min_eq_left hn]
    exact iff_of_true rfl (.inl hn)
  · rw [Nat.min_eq_right (Nat.le_of_not_le hn), or_iff_right hn]
    by_cases hbase : base.nanos = 0
    · rw [hbase, Nat.zero_mul, Nat.zero_mul]
      exact iff_of_true rfl (.inl rfl)
    · have hpow : Nat.pow 2 maxDoublings < Nat.pow 2 n :=
        Nat.pow_lt_pow_right (by decide) (Nat.lt_of_not_le hn)
      have := Nat.mul_lt_mul_of_pos_left hpow (Nat.pos_of_ne_zero hbase)
      rw [or_iff_right hbase]
      omega

theorem nanos_cappedExponential_eq_iff (base max : Duration) (attempt : UInt32) :
    (cappedExponential base max attempt).nanos =
        min (base.nanos * Nat.pow 2 attempt.toNat) max.nanos ↔
      attempt.toNat ≤ maxDoublings ∨ base.nanos = 0 ∨
        max.nanos ≤ base.nanos * Nat.pow 2 maxDoublings := by
  rw [nanos_cappedExponential]
  exact backoff_eq_iff base max attempt.toNat

/-- A count of 32 bits goes on for as long as it matters. -/
theorem min_nextCount {n : UInt32} {m : Nat}
    (h : min n.toNat maxDoublings = min m maxDoublings) :
    min (nextCount n).toNat maxDoublings = min (m + 1) maxDoublings := by
  unfold nextCount
  split
  next hlt =>
    have hnext : (n + 1).toNat = n.toNat + 1 := by
      rw [UInt32.toNat_add]
      exact Nat.mod_eq_of_lt hlt
    omega
  next hge =>
    simp only [Nat.pow_eq, maxDoublings] at *
    omega

end Duration

open Duration

variable {base max : Duration}

/-- What holds of the waits after failures in a row, from the first one on. -/
structure Doubles (base max : Duration) (ws : List Nat) : Prop where
  /-- each is the base doubled for each failure before it, but no more than
      sixteen times, or the bound, -/
  wait : ∀ i (h : i < ws.length),
    ws[i] = min (base.nanos * Nat.pow 2 (min i maxDoublings)) max.nanos
  /-- and none is shorter than one before it -/
  sorted : ws.Pairwise (· ≤ ·)
  /-- where sixteen doublings are enough for the bound, there is no limit to them, -/
  unlimited : max.nanos ≤ base.nanos * Nat.pow 2 maxDoublings →
    ∀ i (h : i < ws.length), ws[i] = min (base.nanos * Nat.pow 2 i) max.nanos
  /-- and only there the waits come to the bound, after sixteen failures at the
      latest -/
  reaches : ∀ i (h : i < ws.length), maxDoublings ≤ i →
    (ws[i] = max.nanos ↔ max.nanos ≤ base.nanos * Nat.pow 2 maxDoublings)

theorem doubles_backoffs (base max : Duration) (n : Nat) :
    Doubles base max ((List.range n).map (backoff base max)) where
  wait i h := by
    rw [List.getElem_map, List.getElem_range]
    rfl
  sorted := by
    rw [List.pairwise_map]
    exact List.pairwise_le_range.imp fun h => backoff_mono base max h
  unlimited hbound i h := by
    rw [List.getElem_map, List.getElem_range]
    exact (backoff_eq_iff base max i).2 (.inr (.inr hbound))
  reaches i h hi := by
    rw [List.getElem_map, List.getElem_range, backoff, Nat.min_eq_right hi]
    omega

/-! ## Counts of failures in a row -/

/-- What an event means to a count of failures in a row. -/
inductive Mark where
  /-- the count begins anew -/
  | anew
  /-- one more failure, and how many nanoseconds to wait after it -/
  | failure (wait : Nat)
  | nothing
deriving DecidableEq, Repr

/-- The waits after the failures in a row, after one more event. -/
def Mark.note (ws : List Nat) : Mark → List Nat
  | anew => []
  | failure wait => ws ++ [wait]
  | nothing => ws

/-- What an event does to a count, which is there while it is needed. -/
inductive Counted (base max : Duration) : Option UInt32 → Mark → Option UInt32 → Prop
  | anew (n : Option UInt32) : Counted base max n .anew (some 0)
  | failure (n : UInt32) :
    Counted base max (some n) (.failure (cappedExponential base max n).nanos) (some (nextCount n))
  | kept (n : Option UInt32) : Counted base max n .nothing n
  | dropped (n : Option UInt32) : Counted base max n .nothing none

/-- The waits after failures in a row are those of the backoff, and a count that
    is kept goes with them. -/
def InStep (base max : Duration) (n : Option UInt32) (ws : List Nat) : Prop :=
  ∃ m, ws = (List.range m).map (backoff base max) ∧
    ∀ k ∈ n, min k.toNat maxDoublings = min m maxDoublings

theorem InStep.none : InStep base max none [] := ⟨0, rfl, nofun⟩

theorem InStep.doubles {n : Option UInt32} {ws : List Nat} (h : InStep base max n ws) :
    Doubles base max ws := by
  obtain ⟨m, rfl, -⟩ := h
  exact doubles_backoffs base max m

theorem Counted.inStep {n n' : Option UInt32} {t : Mark} {ws : List Nat}
    (h : Counted base max n t n') (hws : InStep base max n ws) :
    InStep base max n' (t.note ws) := by
  obtain ⟨m, rfl, hn⟩ := hws
  cases h with
  | anew => exact ⟨0, rfl, fun k hk => by cases hk; rfl⟩
  | failure n =>
    have hcount := hn n rfl
    refine ⟨m + 1, ?_, fun k hk => by cases hk; exact min_nextCount hcount⟩
    rw [Mark.note, List.range_succ, List.map_append, List.map_singleton, nanos_cappedExponential,
      hcount]
    rfl
  | kept => exact ⟨m, rfl, hn⟩
  | dropped => exact ⟨m, rfl, nofun⟩

end DueWork.Time
