/-
  Lists in the order of ids, each id once.

  Looking up an id in such a list finds the one element that has it, a change
  that keeps the ids is seen by looking up, and a condition that holds for one
  id only holds at most once.  A change of one element changes a sum over all
  by what it changes of that one.
-/
import Mathlib.Algebra.Ring.Nat
import Mathlib.Data.List.Basic

namespace DueWork

section

variable {α : Type} {key : α → Int} {l : List α} {p : α → Bool} {i : Int}

/-- The element with an id is the one that is found under it. -/
theorem find?_key_eq_some (hl : l.Pairwise fun a b => key a < key b) {a : α} :
    l.find? (key · == i) = some a ↔ a ∈ l ∧ key a = i := by
  constructor
  · intro h
    exact ⟨List.mem_of_find?_eq_some h, by simpa using List.find?_some h⟩
  · rintro ⟨ha, rfl⟩
    induction l with
    | nil => cases ha
    | cons b l ih =>
      obtain ⟨hb, hl⟩ := List.pairwise_cons.1 hl
      rcases List.mem_cons.1 ha with rfl | ha
      · simp
      · have hne : key b ≠ key a := Int.ne_of_lt (hb a ha)
        rw [List.find?_cons_of_neg (by simpa using hne), ih hl ha]

theorem find?_map_key {f : α → α} (hf : ∀ a, key (f a) = key a) :
    (l.map f).find? (key · == i) = (l.find? (key · == i)).map f := by
  rw [List.find?_map]
  simp only [Function.comp_def, hf]

/-- A condition that one id alone can meet is met once or not at all. -/
theorem countP_beq_one (hl : l.Pairwise fun a b => key a < key b) (hp : ∀ a, p a → key a = i) :
    (l.countP p == 1) = l.any p := by
  induction l with
  | nil => rfl
  | cons a l ih =>
    obtain ⟨ha, hl⟩ := List.pairwise_cons.1 hl
    by_cases hpa : p a = true
    · have hnone : l.countP p = 0 := by
        rw [List.countP_eq_zero]
        intro b hb hpb
        have := ha b hb
        rw [hp a hpa, hp b hpb] at this
        omega
      simp [hpa, hnone]
    · simp only [Bool.not_eq_true] at hpa
      simp [hpa, ih hl]

/-- Some element with an id meets a condition if the one that is found does. -/
theorem any_key (hl : l.Pairwise fun a b => key a < key b) :
    l.any (fun a => key a == i && p a) = (l.find? (key · == i)).any p := by
  cases h : l.find? (key · == i) with
  | none =>
    rw [List.find?_eq_none] at h
    simp only [Option.any_none, List.any_eq_false]
    intro a ha
    simp [h a ha]
  | some a =>
    obtain ⟨ha, hi⟩ := (find?_key_eq_some hl).1 h
    rw [Option.any_some, Bool.eq_iff_iff, List.any_eq_true]
    constructor
    · rintro ⟨b, hb, hpb⟩
      rw [Bool.and_eq_true, beq_iff_eq] at hpb
      have := (find?_key_eq_some hl).2 ⟨hb, hpb.1⟩
      rw [h] at this
      cases this
      exact hpb.2
    · intro hpa
      exact ⟨a, ha, by simp [hi, hpa]⟩

/-- A sum over the list after a change of the element with an id. -/
theorem sum_update_key (hl : l.Pairwise fun a b => key a < key b) {a : α}
    (ha : l.find? (key · == i) = some a) (f : α → α) (w : α → Nat) :
    (l.map fun b => w (if key b = i then f b else b)).sum + w a = (l.map w).sum + w (f a) := by
  rw [find?_key_eq_some hl] at ha
  obtain ⟨ha, rfl⟩ := ha
  induction l with
  | nil => cases ha
  | cons b l ih =>
    obtain ⟨hb, hl⟩ := List.pairwise_cons.1 hl
    rw [List.map_cons, List.map_cons, List.sum_cons, List.sum_cons]
    rcases List.mem_cons.1 ha with rfl | ha
    · have hrest : (l.map fun b => w (if key b = key a then f b else b)) = l.map w :=
        List.map_congr_left fun b hmem => by rw [if_neg (Int.ne_of_gt (hb b hmem))]
      rw [if_pos rfl, hrest]
      omega
    · rw [if_neg (Int.ne_of_lt (hb a ha))]
      have := ih hl ha
      omega

/-- An id above all others is not found. -/
theorem find?_key_of_lt (h : ∀ a ∈ l, key a < i) : l.find? (key · == i) = none := by
  rw [List.find?_eq_none]
  intro a ha
  have := h a ha
  simp only [beq_iff_eq]
  omega

/-- What is added under an id above all others is found there. -/
theorem find?_concat_key {a : α} (h : ∀ b ∈ l, key b < key a) :
    (l ++ [a]).find? (key · == i) = if i = key a then some a else l.find? (key · == i) := by
  rw [List.find?_append]
  split
  case isTrue hi =>
    rw [hi, find?_key_of_lt h]
    simp
  case isFalse hi =>
    have hne : ¬key a = i := fun he => hi he.symm
    simp [hne]

end

end DueWork
