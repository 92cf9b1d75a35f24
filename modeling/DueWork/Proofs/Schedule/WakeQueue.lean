/-
  Wake times under the operations of the wake queue.

  * `time?_schedule_self`: scheduling a slot leaves it at the earlier of two
    times; `time?_schedule_of_ne`: no other slot moves;
  * `popDue_some`, `popDue_none`: popping unschedules the slot that it answers
    and no other.
-/
import DueWork.Proofs.Lookup
import DueWork.Schedule.WakeQueue

namespace DueWork.Schedule.WakeQueue

variable {q q' : WakeQueue} {slot i now time : Nat}

@[simp] theorem time?_insert_self : (q.insert slot time).time? slot = some time := by
  simp [time?, insert]

theorem time?_insert_of_ne (h : i ≠ slot) : (q.insert slot time).time? i = q.time? i := by
  have hi : (i == slot) = false := by simp [h]
  simp [time?, insert, List.lookup_cons, hi, eraseKey, lookup_filter_of_ne h]

/-- A scheduled slot only moves forward. -/
theorem time?_schedule_self :
    (q.schedule slot time).2.time? slot = some ((q.time? slot).elim time (min · time)) := by
  unfold schedule
  split
  case h_1 current h =>
    split <;> rename_i hle
    · simp [h, Nat.min_eq_left hle]
    · simp [h, Nat.min_eq_right (Nat.le_of_not_le hle)]
  case h_2 h => simp [h]

theorem time?_schedule_of_ne (h : i ≠ slot) :
    (q.schedule slot time).2.time? i = q.time? i := by
  unfold schedule
  split
  · split
    · rfl
    · exact time?_insert_of_ne h
  · exact time?_insert_of_ne h

theorem popDue_none (h : q.popDue now = (none, q')) : q'.time? i = q.time? i := by
  simp only [popDue] at h
  split at h
  · split at h
    · cases h
    · cases h; rfl
  · cases h; rfl

theorem popDue_some (h : q.popDue now = (some slot, q')) :
    q'.time? slot = none ∧ ∀ i, i ≠ slot → q'.time? i = q.time? i := by
  simp only [popDue] at h
  split at h
  · split at h
    · obtain ⟨h₁, rfl⟩ := Prod.mk.inj h
      obtain rfl := Option.some.inj h₁
      refine ⟨by simp [time?, eraseKey], ?_⟩
      intro i hi
      simp only [time?, eraseKey, lookup_filter_of_ne hi]
      rfl
    · cases h
  · cases h

end DueWork.Schedule.WakeQueue
