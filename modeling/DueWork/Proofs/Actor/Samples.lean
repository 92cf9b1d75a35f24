/-
  The ring of cycle times, and what it averages.

  Read once around from where the next duration goes, a ring shows what it holds
  from the oldest to the latest (`inOrder`): a recorded duration takes the place
  of the first and comes last.  So a ring always shows the end of the zeros that
  it began with and the durations that came after them.

  * `Recorded.record` is what every duration keeps, `recorded_after` what a ring
    has recorded after any number of them;
  * `Recorded.perm_recent`: the filled part of the ring are the last durations;
  * `averages_recent`: these are added up and divided, and no sum leaves its
    word.
-/
import DueWork.Actor.Metrics
import Mathlib.Algebra.Order.BigOperators.Group.List
import Mathlib.Algebra.Order.Ring.Nat
import Mathlib.Data.List.DropRight

namespace DueWork

open Number (Double)

/-- Words are added up exactly as long as the sum is a word. -/
theorem toNat_foldl_add {l : List UInt64} {acc : UInt64}
    (h : acc.toNat + (l.map UInt64.toNat).sum < Nat.pow 2 64) :
    (l.foldl (· + ·) acc).toNat = acc.toNat + (l.map UInt64.toNat).sum := by
  induction l generalizing acc with
  | nil => rfl
  | cons x l ih =>
    rw [List.map_cons, List.sum_cons, ← Nat.add_assoc] at h ⊢
    have hadd : (acc + x).toNat = acc.toNat + x.toNat := by
      rw [UInt64.toNat_add]
      exact Nat.mod_eq_of_lt (Nat.lt_of_le_of_lt (Nat.le_add_right ..) h)
    rw [← hadd] at h ⊢
    exact ih h

namespace CycleSamples

variable {c : CycleSamples} {capacity : Nat} {ds : List UInt64}

/-- What the ring holds, from the oldest to the latest. -/
def inOrder (c : CycleSamples) : List UInt64 :=
  c.samples.drop c.position ++ c.samples.take c.position

/-- The ring after some durations. -/
def after (capacity : Nat) (ds : List UInt64) : CycleSamples :=
  ds.foldl record (ofCapacity capacity)

/-- The last durations, all of them if there is room. -/
def recent (capacity : Nat) (ds : List UInt64) : List UInt64 := ds.rtake (min ds.length capacity)

/-! ## Recording -/

/-- The oldest duration gives way, and the new one is the latest. -/
theorem inOrder_record (h : c.position < c.samples.length) (d : UInt64) :
    (c.record d).inOrder = c.inOrder.tail ++ [d] := by
  have hset : c.samples.set c.position d =
      c.samples.take c.position ++ d :: c.samples.drop (c.position + 1) := by
    rw [List.set_eq_take_append_cons_drop, if_pos h]
  have hlen : (c.samples.take c.position).length = c.position :=
    List.length_take_of_le (Nat.le_of_lt h)
  have htail : c.inOrder.tail = c.samples.drop (c.position + 1) ++ c.samples.take c.position := by
    rw [inOrder, List.drop_eq_getElem_cons h]
    rfl
  rw [htail]
  simp only [inOrder, record, hset]
  by_cases hlast : c.position + 1 < c.samples.length
  · rw [Nat.mod_eq_of_lt hlast, List.drop_append, List.take_append, hlen, Nat.add_sub_cancel_left,
      List.drop_of_length_le (by omega), List.take_of_length_le (by omega)]
    simp
  · -- the position goes around
    have hround : c.position + 1 = c.samples.length := by omega
    rw [hround, Nat.mod_self]
    simp

/-- What holds of a ring that has recorded these durations. -/
structure Recorded (capacity : Nat) (ds : List UInt64) (c : CycleSamples) : Prop where
  position : c.position = ds.length % capacity
  count : c.count = ds.length
  inOrder : c.inOrder = (List.replicate capacity 0 ++ ds).drop ds.length
  last : c.last = ds.getLast?.getD 0
  le_max : ∀ d ∈ ds, d ≤ c.max
  max_mem : c.max ∈ 0 :: ds

namespace Recorded

theorem length (h : Recorded capacity ds c) : c.samples.length = capacity := by
  have hlen := congrArg List.length h.inOrder
  simp only [CycleSamples.inOrder, List.length_append, List.length_drop, List.length_take,
    List.length_replicate] at hlen
  omega

/-- There is a place for the next duration. -/
theorem position_lt (h : Recorded capacity ds c) (hc : 0 < capacity) :
    c.position < c.samples.length := by
  rw [h.length, h.position]
  exact Nat.mod_lt _ hc

theorem empty (capacity : Nat) : Recorded capacity [] (ofCapacity capacity) where
  position := (Nat.zero_mod capacity).symm
  count := rfl
  inOrder := by simp [CycleSamples.inOrder, ofCapacity]
  last := rfl
  le_max := nofun
  max_mem := List.mem_cons_self

theorem record (h : Recorded capacity ds c) (hc : 0 < capacity) (d : UInt64) :
    Recorded capacity (ds ++ [d]) (c.record d) where
  position := by
    show (c.position + 1) % c.samples.length = _
    rw [h.length, h.position, List.length_append, List.length_singleton, Nat.mod_add_mod]
  count := by
    show c.count + 1 = _
    rw [h.count, List.length_append, List.length_singleton]
  inOrder := by
    have hroom : ds.length + 1 ≤ (List.replicate capacity (0 : UInt64) ++ ds).length := by
      rw [List.length_append, List.length_replicate]
      omega
    rw [inOrder_record (h.position_lt hc), h.inOrder, List.tail_drop, ← List.append_assoc,
      List.length_append, List.length_singleton, List.drop_append_of_le_length hroom]
  last := by
    rw [List.getLast?_concat]
    rfl
  le_max := by
    intro x hx
    show x ≤ if c.max < d then d else c.max
    rcases List.mem_append.1 hx with hx | hx
    · split
      next hlt => exact UInt64.le_trans (h.le_max x hx) (UInt64.le_of_lt hlt)
      next => exact h.le_max x hx
    · obtain rfl := List.mem_singleton.1 hx
      split
      next => exact UInt64.le_refl _
      next hle => exact UInt64.not_lt.1 hle
  max_mem := by
    show (if c.max < d then d else c.max) ∈ 0 :: (ds ++ [d])
    split
    next => simp
    next => exact List.mem_append_left [d] h.max_mem

end Recorded

theorem recorded_after (hc : 0 < capacity) (ds : List UInt64) :
    Recorded capacity ds (after capacity ds) := by
  induction ds using List.reverseRecOn with
  | nil => exact .empty capacity
  | append_singleton ds d ih =>
    rw [after, List.foldl_append]
    exact ih.record hc d

/-! ## Averaging -/

theorem perm_inOrder (c : CycleSamples) : c.inOrder.Perm c.samples := by
  have hcomm : (c.samples.drop c.position ++ c.samples.take c.position).Perm
      (c.samples.take c.position ++ c.samples.drop c.position) := List.perm_append_comm
  rwa [List.take_append_drop] at hcomm

namespace Recorded

theorem filled_eq (h : Recorded capacity ds c) : c.filled = min ds.length capacity := by
  rw [filled, h.count, h.length]

/-- The filled part of the ring are the last durations. -/
theorem perm_recent (h : Recorded capacity ds c) :
    (c.samples.take c.filled).Perm (recent capacity ds) := by
  rw [h.filled_eq, recent, List.rtake]
  by_cases hfull : capacity ≤ ds.length
  · -- once around: all that the ring holds
    rw [Nat.min_eq_right hfull, List.take_of_length_le (by rw [h.length])]
    have hdrop : c.inOrder = ds.drop (ds.length - capacity) := by
      rw [h.inOrder, List.drop_append, List.length_replicate,
        List.drop_of_length_le (by rw [List.length_replicate]; exact hfull), List.nil_append]
    rw [← hdrop]
    exact (perm_inOrder c).symm
  · -- not once around: the zeros are still ahead of the durations
    have hroom : ds.length < capacity := by omega
    have hposition : c.position = ds.length := h.position.trans (Nat.mod_eq_of_lt hroom)
    rw [Nat.min_eq_left (Nat.le_of_lt hroom), Nat.sub_self, List.drop_zero]
    have hinOrder := h.inOrder
    rw [CycleSamples.inOrder, hposition, List.drop_append_of_le_length
      (by rw [List.length_replicate]; exact Nat.le_of_lt hroom)] at hinOrder
    have hlen : (c.samples.drop ds.length).length =
        ((List.replicate capacity (0 : UInt64)).drop ds.length).length := by
      rw [List.length_drop, List.length_drop, h.length, List.length_replicate]
    rw [(List.append_inj hinOrder hlen).2]

end Recorded

/-- Durations that fit a word as often as there is room fit it together. -/
theorem sum_recent_lt (hc : 0 < capacity)
    (hfit : ∀ d ∈ ds, d.toNat * capacity < Nat.pow 2 64) :
    ((recent capacity ds).map UInt64.toNat).sum < Nat.pow 2 64 := by
  have hle : ∀ n ∈ (recent capacity ds).map UInt64.toNat, n ≤ (Nat.pow 2 64 - 1) / capacity := by
    intro n hn
    obtain ⟨d, hd, rfl⟩ := List.mem_map.1 hn
    have := hfit d (List.mem_of_mem_drop hd)
    rw [Nat.le_div_iff_mul_le hc]
    omega
  have hlength : ((recent capacity ds).map UInt64.toNat).length ≤ capacity := by
    rw [List.length_map, recent, List.rtake, List.length_drop]
    omega
  calc ((recent capacity ds).map UInt64.toNat).sum
      ≤ ((recent capacity ds).map UInt64.toNat).length * ((Nat.pow 2 64 - 1) / capacity) :=
        List.sum_le_card_nsmul _ _ hle
    _ ≤ capacity * ((Nat.pow 2 64 - 1) / capacity) := Nat.mul_le_mul_right _ hlength
    _ ≤ Nat.pow 2 64 - 1 := Nat.mul_div_le ..
    _ < Nat.pow 2 64 := by decide

/-- What a ring tells of the durations that it has recorded. -/
structure Tells (capacity : Nat) (ds : List UInt64) (c : CycleSamples) : Prop where
  /-- every duration was recorded in a place of the ring -/
  written : ∀ pre, pre <+: ds → (after capacity pre).position < (after capacity pre).samples.length
  /-- what is added up is all in the ring, -/
  read : c.filled ≤ c.samples.length
  /-- and are the last durations, -/
  summed : (c.samples.take c.filled).Perm (recent capacity ds)
  /-- their sum is exact, -/
  sum : c.recentSum.toNat = ((recent capacity ds).map UInt64.toNat).sum
  /-- and divided by their number -/
  average : c.recentAverage = if ds.length = 0 then .ofNat 0
    else (Double.ofNat ((recent capacity ds).map UInt64.toNat).sum).div
      (.ofNat (min ds.length capacity))
  last : c.last = ds.getLast?.getD 0
  le_max : ∀ d ∈ ds, d ≤ c.max
  max_mem : ds ≠ [] → c.max ∈ ds

/-- **A ring averages the last durations.**  With room for `capacity` durations,
    of which that many fit a word, it adds up the last `min n capacity` of the
    `n` that were recorded, each once, and divides by that number; it knows the
    latest and the longest of all.  This is so before the ring is full and after
    any number of rounds, and no place outside of it is used. -/
theorem averages_recent (hc : 0 < capacity)
    (hfit : ∀ d ∈ ds, d.toNat * capacity < Nat.pow 2 64) :
    Tells capacity ds (after capacity ds) := by
  have h := recorded_after hc ds
  have hsum : (after capacity ds).recentSum.toNat =
      ((recent capacity ds).map UInt64.toNat).sum := by
    have hperm := (h.perm_recent.map UInt64.toNat).sum_eq
    have hlt := sum_recent_lt hc hfit
    rw [recentSum, toNat_foldl_add, hperm]
    · exact Nat.zero_add _
    · rw [hperm]
      exact (Nat.zero_add _).trans_lt hlt
  constructor
  case written => exact fun pre _ => (recorded_after hc pre).position_lt hc
  case read => exact Nat.min_le_right ..
  case summed => exact h.perm_recent
  case sum => exact hsum
  case average =>
    have hempty : min ds.length capacity = 0 ↔ ds.length = 0 := by omega
    simp only [recentAverage, h.filled_eq, hempty, hsum]
  case last => exact h.last
  case le_max => exact h.le_max
  case max_mem =>
    intro hne
    rcases List.mem_cons.1 h.max_mem with hzero | hmem
    · -- the longest is zero, and so is any other
      obtain ⟨d, hd⟩ := List.exists_mem_of_ne_nil ds hne
      have hle := h.le_max d hd
      rw [hzero] at hle ⊢
      rwa [UInt64.le_zero_iff.1 hle] at hd
    · exact hmem

/-- In the second round of a ring with two places the longest duration is no
    longer among those that are averaged. -/
theorem averages_recent_in_second_round :
    0 < 2 ∧ (∀ d ∈ ([10, 90, 40, 30, 50] : List UInt64), d.toNat * 2 < Nat.pow 2 64) ∧
    Tells 2 [10, 90, 40, 30, 50] (after 2 [10, 90, 40, 30, 50]) ∧
    recent 2 [10, 90, 40, 30, 50] = [30, 50] ∧
    (after 2 [10, 90, 40, 30, 50]).samples = [50, 30] ∧
    (after 2 [10, 90, 40, 30, 50]).recentAverage = .ofNat 40 ∧
    (after 2 [10, 90, 40, 30, 50]).max = 90 := by
  have hfit : ∀ d ∈ ([10, 90, 40, 30, 50] : List UInt64), d.toNat * 2 < Nat.pow 2 64 := by simp
  have h : Tells 2 [10, 90, 40, 30, 50] (after 2 [10, 90, 40, 30, 50]) :=
    averages_recent (by decide) hfit
  exact ⟨by decide, hfit, h, by decide, by decide, h.average.trans (by decide +kernel), by decide⟩

end CycleSamples

end DueWork
