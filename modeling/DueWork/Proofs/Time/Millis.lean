/-
  Instants in milliseconds.

  Milliseconds of the calendar are read back as they were written
  (`toMillis_ofMillis`), and every other count is the nearer end of the
  calendar, so reading is monotone (`ofMillis_mono`).  A count within the
  calendar is not before another one exactly if its instant is not
  (`ofMillis_le_ofMillis_iff`); beyond the last millisecond this fails, since
  all counts there are one instant.
-/
import Mathlib.Tactic.SplitIfs
import DueWork.Time.Instant

namespace DueWork.Time

/-- The first millisecond of the calendar. -/
def minMillis : Int := minSeconds * 1000

/-- The last millisecond of the calendar. -/
def maxMillis : Int := maxSeconds * 1000 + 999

/-- A millisecond of the calendar. -/
def InCalendar (ms : Int) : Prop := minMillis ≤ ms ∧ ms ≤ maxMillis

instance (ms : Int) : Decidable (InCalendar ms) := inferInstanceAs (Decidable (_ ∧ _))

namespace Instant

theorem minMillis_le_toMillis (t : Instant) : minMillis ≤ t.toMillis := by
  have := t.le_seconds
  simp only [minMillis, toMillis]
  omega

theorem toMillis_le_dueMillis (t : Instant) : t.toMillis ≤ t.dueMillis := by
  unfold dueMillis
  split_ifs <;> omega

theorem minMillis_le_dueMillis (t : Instant) : minMillis ≤ t.dueMillis :=
  Int.le_trans t.minMillis_le_toMillis t.toMillis_le_dueMillis

/-- The clock shows a millisecond of the calendar, unless it is in the leap
    second after its end. -/
theorem toMillis_le_maxMillis {t : Instant} (h : t ≤ last) : t.toMillis ≤ maxMillis := by
  have hn : last.nanos = 999999999 := rfl
  have hs : last.seconds = maxSeconds := rfl
  rw [le_def, hn, hs] at h
  have := t.seconds_le
  have hlt := t.nanos_lt
  simp only [nanosPerSecond] at hlt
  simp only [maxMillis, toMillis]
  rcases h with h | ⟨h, hn⟩ <;> omega

/-! ## Reading milliseconds -/

theorem ofMillis_of_inCalendar {ms : Int} (h : InCalendar ms) :
    (ofMillis ms).seconds = ms / 1000 ∧ (ofMillis ms).nanos = (ms % 1000).toNat * 1000000 := by
  obtain ⟨h₁, h₂⟩ := h
  simp only [minMillis, maxMillis, minSeconds, maxSeconds] at h₁ h₂
  have hin : minSeconds ≤ ms / 1000 ∧ ms / 1000 ≤ maxSeconds ∧
      (ms % 1000).toNat * 1000000 < 2 * nanosPerSecond := by
    simp only [minSeconds, maxSeconds, nanosPerSecond]
    omega
  have hof : ofMillis ms = ⟨_, _, hin.1, hin.2.1, hin.2.2⟩ := by
    rw [ofMillis, of?, dif_pos hin]
  rw [hof]
  exact ⟨rfl, rfl⟩

theorem of?_eq_none_of_not_inCalendar {ms : Int} (h : ¬InCalendar ms) :
    of? (ms / 1000) ((ms % 1000).toNat * 1000000) = none := by
  rw [of?, dif_neg]
  intro hin
  apply h
  simp only [InCalendar, minMillis, maxMillis]
  omega

theorem ofMillis_of_lt {ms : Int} (h : ms < minMillis) : ofMillis ms = first := by
  have hneg : ms < 0 := by simp only [minMillis, minSeconds] at h; omega
  rw [ofMillis, of?_eq_none_of_not_inCalendar fun hin => absurd hin.1 (by omega)]
  simp only [if_pos hneg]

theorem ofMillis_of_gt {ms : Int} (h : maxMillis < ms) : ofMillis ms = last := by
  have hpos : ¬ms < 0 := by simp only [maxMillis, maxSeconds] at h; omega
  rw [ofMillis, of?_eq_none_of_not_inCalendar fun hin => absurd hin.2 (by omega)]
  simp only [if_neg hpos]

/-- A millisecond of the calendar is read as written. -/
theorem toMillis_ofMillis {ms : Int} (h : InCalendar ms) : (ofMillis ms).toMillis = ms := by
  obtain ⟨hs, hn⟩ := ofMillis_of_inCalendar h
  rw [toMillis, hs, hn]
  omega

/-- Within the calendar the order of milliseconds is that of their instants. -/
theorem ofMillis_le_ofMillis {m n : Int} (hm : InCalendar m) (hn : InCalendar n) :
    ofMillis m ≤ ofMillis n ↔ m ≤ n := by
  obtain ⟨hms, hmn⟩ := ofMillis_of_inCalendar hm
  obtain ⟨hns, hnn⟩ := ofMillis_of_inCalendar hn
  rw [le_def, hms, hmn, hns, hnn]
  omega

theorem first_le (t : Instant) : first ≤ t := by
  have := t.le_seconds
  have hs : first.seconds = minSeconds := rfl
  have hn : first.nanos = 0 := rfl
  rw [le_def, hs, hn]
  omega

/-- No millisecond of the calendar is the last instant. -/
theorem ofMillis_lt_last {ms : Int} (h : InCalendar ms) : ofMillis ms < last := by
  obtain ⟨hs, hn⟩ := ofMillis_of_inCalendar h
  have hls : last.seconds = maxSeconds := rfl
  have hln : last.nanos = 999999999 := rfl
  obtain ⟨h₁, h₂⟩ := h
  simp only [minMillis, maxMillis] at h₁ h₂
  rw [lt_def, hs, hn, hls, hln]
  omega

/-- A count of the calendar against any count. -/
theorem ofMillis_le_ofMillis_iff {m n : Int} (hn : InCalendar n) :
    ofMillis m ≤ ofMillis n ↔ m ≤ n := by
  by_cases hlo : m < minMillis
  · rw [ofMillis_of_lt hlo]
    exact iff_of_true (first_le _) (by have := hn.1; omega)
  · by_cases hhi : maxMillis < m
    · rw [ofMillis_of_gt hhi, ← Decidable.not_iff_not, Instant.not_le]
      exact iff_of_true (ofMillis_lt_last hn) (by have := hn.2; omega)
    · exact ofMillis_le_ofMillis ⟨by omega, by omega⟩ hn

theorem ofMillis_le_last (ms : Int) : ofMillis ms ≤ last := by
  by_cases hlo : ms < minMillis
  · rw [ofMillis_of_lt hlo]; exact first_le _
  · by_cases hhi : maxMillis < ms
    · rw [ofMillis_of_gt hhi]; exact Instant.le_refl _
    · have : ofMillis ms < last := ofMillis_lt_last ⟨by omega, by omega⟩
      rw [lt_def] at this
      rw [le_def]
      omega

/-- Reading milliseconds keeps the order. -/
theorem ofMillis_mono {m n : Int} (h : m ≤ n) : ofMillis m ≤ ofMillis n := by
  by_cases hlo : n < minMillis
  · rw [ofMillis_of_lt hlo, ofMillis_of_lt (Int.lt_of_le_of_lt h hlo)]
    exact Instant.le_refl _
  · by_cases hhi : maxMillis < n
    · rw [ofMillis_of_gt hhi]; exact ofMillis_le_last m
    · exact (ofMillis_le_ofMillis_iff ⟨by omega, by omega⟩).2 h

end Instant

end DueWork.Time
