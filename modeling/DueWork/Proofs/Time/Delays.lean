/-
  Delays, and what they lead to.

  Delays and instants end somewhere, and what would lead beyond the end stops
  there: a doubled delay is the exact one below its bound
  (`nanos_cappedExponential`), and outside of leap seconds adding and going back
  are exact up to the ends of the calendar (`toNanos_plus`, `toNanos_minus`).
-/
import DueWork.Proofs.Time.DueTimes

namespace DueWork.Time

namespace Duration

theorem nanos_min (a b : Duration) : (min a b).nanos = min a.nanos b.nanos := by
  show (if a ≤ b then a else b).nanos = _
  by_cases h : a ≤ b
  · rw [if_pos h, Nat.min_eq_left h]
  · rw [if_neg h, Nat.min_eq_right (Nat.le_of_not_le h)]

/-- Milliseconds of 64 bits are a duration. -/
theorem nanos_ofMillis {ms : Nat} (h : ms < Nat.pow 2 64) : (ofMillis ms).nanos = ms * 1000000 := by
  show min (ms * 1000000) maxDurationNanos = ms * 1000000
  simp only [Nat.pow_eq] at h
  simp only [maxDurationNanos, nanosPerSecond, Nat.pow_eq]
  omega

/-- Doubling is exact: where it stops at the largest duration, the bound is
    reached before. -/
theorem nanos_cappedExponential (base max : Duration) (attempt : UInt32) :
    (cappedExponential base max attempt).nanos =
      min (base.nanos * Nat.pow 2 (min attempt.toNat maxDoublings)) max.nanos := by
  have hle := max.nanos_le
  rw [cappedExponential, nanos_min]
  show min (min (base.nanos * Nat.pow 2 (min attempt.toNat maxDoublings)) maxDurationNanos) max.nanos = _
  omega

/-- The factor of a doubled delay fits 32 bits. -/
theorem two_pow_doublings_lt (attempt : UInt32) :
    Nat.pow 2 (min attempt.toNat maxDoublings) < Nat.pow 2 32 :=
  Nat.pow_lt_pow_right (by decide) (by simp only [maxDoublings]; omega)

end Duration

namespace Instant

variable {t : Instant}

/-- Seconds and nanoseconds give an instant, unless it is outside of the calendar. -/
theorem of?_cases (s : Int) {n : Nat} (hn : n < nanosPerSecond) :
    (∃ u, of? s n = some u ∧ u.seconds = s ∧ u.nanos = n) ∨
      of? s n = none ∧ (s < minSeconds ∨ maxSeconds < s) := by
  by_cases h : minSeconds ≤ s ∧ s ≤ maxSeconds ∧ n < 2 * nanosPerSecond
  · exact .inl ⟨_, dif_pos h, rfl, rfl⟩
  · exact .inr ⟨dif_neg h, by omega⟩

theorem toNanos_first : first.toNanos = minSeconds * nanosPerSecond := by decide

theorem toNanos_last : last.toNanos = maxSeconds * nanosPerSecond + (nanosPerSecond - 1 : Nat) := by
  decide

theorem first_le_toNanos (t : Instant) : first.toNanos ≤ t.toNanos := by
  have := t.le_seconds
  rw [toNanos_first, toNanos]
  simp only [nanosPerSecond]
  omega

theorem toNanos_le_last (h : ¬t.IsLeap) : t.toNanos ≤ last.toNanos :=
  (le_iff_toNanos h (by decide)).1 (le_last_of_not_isLeap h)

/-- Outside of a leap second there is an instant after a delay, unless the
    calendar ends before. -/
theorem lt_of_plus?_eq_none {d : Duration} (h : ¬t.IsLeap) (hnone : t.plus? d = none) :
    last.toNanos < t.toNanos + d.nanos := by
  rw [plus?, if_neg fun hleap => h hleap.1] at hnone
  have hs := t.le_seconds
  obtain ⟨u, hu, -⟩ | ⟨-, hout⟩ := of?_cases
    (t.seconds + d.seconds + ((t.nanos % nanosPerSecond + d.subsecNanos) / nanosPerSecond : Nat))
    (Nat.mod_lt (t.nanos % nanosPerSecond + d.subsecNanos) (by decide : 0 < nanosPerSecond))
  · rw [hu] at hnone
    cases hnone
  · rw [toNanos_last, toNanos]
    simp only [IsLeap, Duration.seconds, Duration.subsecNanos, nanosPerSecond] at *
    omega

/-- A delay leads to the instant after it, or to the last one. -/
theorem toNanos_plus (h : ¬t.IsLeap) (d : Duration) :
    (t.plus d).toNanos = min (t.toNanos + d.nanos) last.toNanos := by
  rw [plus]
  cases hp : t.plus? d with
  | some u =>
    obtain ⟨hu, hsum⟩ := toNanos_of_plus? h hp
    have := toNanos_le_last hu
    rw [Option.getD_some]
    omega
  | none =>
    have := lt_of_plus?_eq_none h hp
    rw [Option.getD_none]
    omega

/-- Going back leads to the instant before, or to the first one. -/
theorem toNanos_minus (h : ¬t.IsLeap) (d : Duration) :
    (t.minus d).toNanos = max (t.toNanos - d.nanos) first.toNanos := by
  have hlast := toNanos_le_last h
  generalize hn : t.toNanos - d.nanos = n
  have hlt : (n % nanosPerSecond).toNat < nanosPerSecond := by
    simp only [nanosPerSecond]
    omega
  rw [minus, hn]
  obtain ⟨u, hu, hseconds, hnanos⟩ | ⟨hnone, hout⟩ := of?_cases (n / nanosPerSecond) hlt
  · have hu' : u.toNanos = n := by
      rw [toNanos, hseconds, hnanos]
      simp only [nanosPerSecond]
      omega
    have := first_le_toNanos u
    simp only [hu, Option.getD_some]
    omega
  · have hbefore : n < first.toNanos := by
      rw [toNanos_last] at hlast
      rw [toNanos_first]
      simp only [nanosPerSecond] at *
      omega
    simp only [hnone, Option.getD_none]
    omega

end Instant

end DueWork.Time
