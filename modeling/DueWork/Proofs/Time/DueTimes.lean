/-
  Due times that are stored in milliseconds.

  Outside of leap seconds an instant is its number of nanoseconds, so all that
  is done to due times is arithmetic of nanoseconds: `toMillis` is the floor of
  a division (`toMillis_bounds`), `dueMillis` is its ceiling
  (`dueMillis_bounds`), `ofMillis` is exact within the calendar
  (`toNanos_ofMillis`), and a delay is a sum (`toNanos_of_plus?`).

  * `stored_due_times_keep`: a stored due time is never early, less than a
    millisecond late, and stays what it is when it is stored again.
-/
import DueWork.Proofs.Time.Millis

namespace DueWork.Time.Instant

variable {t u : Instant} {d : Duration} {ms : Int}

/-! ## Nanoseconds -/

theorem le_iff_toNanos (ht : ¬t.IsLeap) (hu : ¬u.IsLeap) : t ≤ u ↔ t.toNanos ≤ u.toNanos := by
  simp only [IsLeap, nanosPerSecond] at ht hu
  simp only [le_def, toNanos, nanosPerSecond]
  omega

theorem lt_iff_toNanos (ht : ¬t.IsLeap) (hu : ¬u.IsLeap) : t < u ↔ t.toNanos < u.toNanos := by
  rw [← Instant.not_le, le_iff_toNanos hu ht, Int.not_le]

/-- Only a leap second comes after the last instant. -/
theorem le_last_of_not_isLeap (h : ¬t.IsLeap) : t ≤ last := by
  have hs : last.seconds = maxSeconds := rfl
  have hn : last.nanos = nanosPerSecond - 1 := rfl
  have := t.seconds_le
  rw [IsLeap] at h
  rw [le_def, hs, hn]
  omega

/-- Rounded down, to less than a millisecond before. -/
theorem toMillis_bounds (t : Instant) :
    t.toMillis * 1000000 ≤ t.toNanos ∧ t.toNanos < t.toMillis * 1000000 + 1000000 := by
  simp only [toMillis, toNanos, nanosPerSecond]
  omega

/-- Rounded up, to less than a millisecond after. -/
theorem dueMillis_bounds (t : Instant) :
    t.toNanos ≤ t.dueMillis * 1000000 ∧ t.dueMillis * 1000000 < t.toNanos + 1000000 := by
  simp only [dueMillis, toMillis, toNanos, nanosPerSecond]
  split_ifs <;> omega

/-- Milliseconds of the calendar are read exactly, and not as a leap second. -/
theorem toNanos_ofMillis (h : InCalendar ms) :
    ¬(ofMillis ms).IsLeap ∧ (ofMillis ms).toNanos = ms * 1000000 := by
  obtain ⟨hs, hn⟩ := ofMillis_of_inCalendar h
  simp only [IsLeap, toNanos, hs, hn, nanosPerSecond]
  omega

/-- A delay that does not lead out of the calendar is added. -/
theorem toNanos_of_plus? (ht : ¬t.IsLeap) (h : t.plus? d = some u) :
    ¬u.IsLeap ∧ u.toNanos = t.toNanos + d.nanos := by
  rw [plus?, if_neg fun hleap => ht hleap.1] at h
  simp only [of?] at h
  split at h
  case isFalse => cases h
  case isTrue =>
    obtain rfl := Option.some.inj h
    simp only [IsLeap, nanosPerSecond] at ht
    simp only [IsLeap, toNanos, Duration.seconds, Duration.subsecNanos, nanosPerSecond]
    omega

/-! ## The end of the calendar -/

/-- A due time is at most rounded up to the first millisecond that the calendar
    does not have. -/
theorem dueMillis_le (h : ¬t.IsLeap) : t.dueMillis ≤ maxMillis + 1 := by
  have := t.seconds_le
  have hbounds := t.dueMillis_bounds
  simp only [IsLeap, nanosPerSecond] at h
  simp only [toNanos, nanosPerSecond] at hbounds
  simp only [maxMillis]
  omega

/-- Where a due time goes in milliseconds: into the calendar, or to its end. -/
theorem dueMillis_cases (h : ¬t.IsLeap) :
    InCalendar t.dueMillis ∨ t.dueMillis = maxMillis + 1 ∧ ofMillis t.dueMillis = last := by
  have hle := dueMillis_le h
  by_cases hin : t.dueMillis ≤ maxMillis
  · exact .inl ⟨t.minMillis_le_dueMillis, hin⟩
  · exact .inr ⟨by omega, ofMillis_of_gt (by omega)⟩

theorem dueMillis_last : last.dueMillis = maxMillis + 1 := rfl

/-! ## Due times -/

/-- No due time and no reading of the clock comes near the ends of 64 bits. -/
theorem millis_fit (h : ¬t.IsLeap) :
    -(Nat.pow 2 63 : Nat) ≤ t.toMillis ∧ t.dueMillis < (Nat.pow 2 63 : Nat) := by
  have hlo := t.minMillis_le_toMillis
  have hhi := dueMillis_le h
  simp only [minMillis, minSeconds] at hlo
  simp only [maxMillis, maxSeconds] at hhi
  simp only [Nat.pow_eq]
  omega

theorem le_ofMillis_dueMillis (h : ¬t.IsLeap) : t ≤ ofMillis t.dueMillis := by
  rcases dueMillis_cases h with hin | ⟨-, hlast⟩
  · obtain ⟨hleap, hnanos⟩ := toNanos_ofMillis hin
    rw [le_iff_toNanos h hleap, hnanos]
    exact t.dueMillis_bounds.1
  · rw [hlast]
    exact le_last_of_not_isLeap h

/-- What is read is less than a millisecond late, if the calendar has the
    instant that is a millisecond late. -/
theorem ofMillis_dueMillis_lt (h : ¬t.IsLeap) (hu : t.plus? (.ofMillis 1) = some u) :
    ofMillis t.dueMillis < u := by
  obtain ⟨huleap, hunanos⟩ := toNanos_of_plus? h hu
  have hone : (Duration.ofMillis 1).nanos = 1000000 := rfl
  rw [hone] at hunanos
  have hbounds := t.dueMillis_bounds
  rcases dueMillis_cases h with hin | ⟨heq, -⟩
  · obtain ⟨hleap, hnanos⟩ := toNanos_ofMillis hin
    rw [lt_iff_toNanos hleap huleap, hnanos]
    omega
  · -- a millisecond later would be after the end of the calendar
    have := (le_iff_toNanos huleap (by decide)).1 (le_last_of_not_isLeap huleap)
    have hend : last.toNanos = maxMillis * 1000000 + 999999 := rfl
    omega

/-- What is read is stored as before. -/
theorem dueMillis_ofMillis_dueMillis (h : ¬t.IsLeap) :
    (ofMillis t.dueMillis).dueMillis = t.dueMillis := by
  rcases dueMillis_cases h with hin | ⟨heq, hlast⟩
  · obtain ⟨-, hnanos⟩ := toNanos_ofMillis hin
    have := (ofMillis t.dueMillis).dueMillis_bounds
    omega
  · rw [hlast, heq, dueMillis_last]

/-- What a due time and a reading of the clock are in milliseconds. -/
structure Kept (due now : Instant) : Prop where
  /-- no count comes near the ends of 64 bits -/
  fits : -(Nat.pow 2 63 : Nat) ≤ due.toMillis ∧ due.dueMillis < (Nat.pow 2 63 : Nat)
  /-- what is due in milliseconds is due, -/
  never_early : due.dueMillis ≤ now.toMillis → due ≤ now
  /-- and what has been due for a millisecond is due in milliseconds -/
  hardly_late (later : Instant) : due.plus? (.ofMillis 1) = some later → later ≤ now →
    due.dueMillis ≤ now.toMillis
  /-- what is read back is not before the due time, -/
  le_read : due ≤ ofMillis due.dueMillis
  /-- less than a millisecond after it, -/
  read_lt (later : Instant) : due.plus? (.ofMillis 1) = some later →
    ofMillis due.dueMillis < later
  /-- and stored again as before -/
  stored_again : (ofMillis due.dueMillis).dueMillis = due.dueMillis
  /-- both ways to milliseconds keep the order -/
  mono : due ≤ now → due.toMillis ≤ now.toMillis ∧ due.dueMillis ≤ now.dueMillis

/-- **A stored due time is never early and does not drift.**  Outside of leap
    seconds, also before the epoch and at the ends of the calendar; and reading
    milliseconds keeps the order, is exact within the calendar and gives the
    nearer end of the calendar outside of it. -/
theorem stored_due_times_keep {due now : Instant} (hdue : ¬due.IsLeap) (hnow : ¬now.IsLeap) :
    Kept due now ∧
    (∀ m n : Int, m ≤ n → ofMillis m ≤ ofMillis n) ∧
    ∀ ms : Int, (InCalendar ms → (ofMillis ms).toMillis = ms) ∧
      (ms < minMillis → ofMillis ms = first) ∧ (maxMillis < ms → ofMillis ms = last) := by
  have hd := due.toMillis_bounds
  have hd' := due.dueMillis_bounds
  have hn := now.toMillis_bounds
  have hn' := now.dueMillis_bounds
  have hkept : Kept due now :=
    { fits := millis_fit hdue
      never_early := by
        intro h
        rw [le_iff_toNanos hdue hnow]
        omega
      hardly_late := by
        intro later hlater h
        obtain ⟨hleap, hnanos⟩ := toNanos_of_plus? hdue hlater
        have hone : (Duration.ofMillis 1).nanos = 1000000 := rfl
        rw [le_iff_toNanos hleap hnow, hnanos, hone] at h
        omega
      le_read := le_ofMillis_dueMillis hdue
      read_lt := fun _ => ofMillis_dueMillis_lt hdue
      stored_again := dueMillis_ofMillis_dueMillis hdue
      mono := by
        intro h
        rw [le_iff_toNanos hdue hnow] at h
        omega }
  exact ⟨hkept, fun _ _ => ofMillis_mono,
    fun _ => ⟨toMillis_ofMillis, ofMillis_of_lt, ofMillis_of_gt⟩⟩

/-- A bit more than half a millisecond before the epoch. -/
def beforeEpoch : Instant := ⟨-1, 999400000, by decide, by decide, by decide⟩

/-- Stored it is the epoch, and due then, when the clock last showed the
    millisecond before. -/
theorem stored_due_times_keep_before_the_epoch :
    ¬beforeEpoch.IsLeap ∧ ¬epoch.IsLeap ∧ beforeEpoch.toMillis = -1 ∧
      beforeEpoch.dueMillis ≤ epoch.toMillis ∧ beforeEpoch ≤ epoch ∧
      beforeEpoch ≤ ofMillis beforeEpoch.dueMillis ∧
      (∃ later, beforeEpoch.plus? (.ofMillis 1) = some later ∧
        ofMillis beforeEpoch.dueMillis < later) ∧
      (ofMillis beforeEpoch.dueMillis).dueMillis = beforeEpoch.dueMillis := by
  have hbefore : ¬beforeEpoch.IsLeap := by decide
  have hepoch : ¬epoch.IsLeap := by decide
  have hdue : beforeEpoch.dueMillis ≤ epoch.toMillis := by decide
  have hlater : beforeEpoch.plus? (.ofMillis 1) =
      some ⟨0, 400000, by decide, by decide, by decide⟩ := by decide
  obtain ⟨hkept, -⟩ := stored_due_times_keep hbefore hepoch
  exact ⟨hbefore, hepoch, by decide, hdue, hkept.never_early hdue, hkept.le_read,
    ⟨_, hlater, hkept.read_lt _ hlater⟩, hkept.stored_again⟩

end DueWork.Time.Instant
