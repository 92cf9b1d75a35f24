/-
  Trimming, splitting and cutting a text.

  * `exists_trimChars` and `trimChars_append_left`, `trimChars_append_right`:
    trimming takes off blanks at both ends, and blanks there make no
    difference to it;
  * `split_eq_splitOn` and `splitList_eq`: the parts of a list are those of the
    library's `splitOn` that are not blank;
  * `exists_cutAt`, `takeWhile_cut` and `dropWhile_cut`: a text is cut where the
    separator stands first, if it has one.
-/
import Mathlib.Data.List.TakeWhile
import DueWork.Text.Blank

namespace DueWork.Text

variable {cs l r before after : List Char} {sep : Char}

/-! ## Trimming -/

theorem trimChars_append_left (h : ∀ c ∈ l, isBlank c = true) :
    trimChars (l ++ cs) = trimChars cs := by
  rw [trimChars, trimStartChars, trimStartChars, List.dropWhile_append_of_pos h]
  rfl

theorem trimChars_append_right (h : ∀ c ∈ r, isBlank c = true) :
    trimChars (cs ++ r) = trimChars cs := by
  simp only [trimChars, trimStartChars, List.dropWhile_append]
  split
  case isTrue hnil =>
    have hcs : cs.dropWhile isBlank = [] := by simpa using hnil
    rw [hcs, List.dropWhile_eq_nil_iff.2 h]
  case isFalse =>
    rw [List.reverse_append, List.dropWhile_append_of_pos fun c hc => h c (by simpa using hc)]

/-- What trimming takes off is blank. -/
theorem exists_trimChars (cs : List Char) : ∃ l r, cs = l ++ trimChars cs ++ r ∧
    (∀ c ∈ l, isBlank c = true) ∧ ∀ c ∈ r, isBlank c = true := by
  refine ⟨cs.takeWhile isBlank, ((trimStartChars cs).reverse.takeWhile isBlank).reverse, ?_,
    fun _ => List.mem_takeWhile_imp, fun c hc => List.mem_takeWhile_imp (List.mem_reverse.1 hc)⟩
  have hend : trimChars cs ++ ((trimStartChars cs).reverse.takeWhile isBlank).reverse =
      trimStartChars cs := by
    rw [trimChars, trimStartChars, ← List.reverse_append, List.takeWhile_append_dropWhile,
      List.reverse_reverse]
  rw [List.append_assoc, hend, trimStartChars, List.takeWhile_append_dropWhile]

theorem trimChars_eq_nil : trimChars cs = [] ↔ ∀ c ∈ cs, isBlank c = true := by
  constructor
  · intro h
    obtain ⟨l, r, hcs, hl, hr⟩ := exists_trimChars cs
    rw [h, List.append_nil] at hcs
    rw [hcs]
    exact List.forall_mem_append.2 ⟨hl, hr⟩
  · intro h
    rw [← List.append_nil cs, trimChars_append_left h]
    rfl

theorem trimChars_of_not_isBlank (h : ∀ c ∈ cs, isBlank c = false) : trimChars cs = cs := by
  obtain ⟨l, r, hcs, hl, hr⟩ := exists_trimChars cs
  have hnil {m : List Char} (hm : m ⊆ cs) (hblank : ∀ c ∈ m, isBlank c = true) : m = [] :=
    List.eq_nil_iff_forall_not_mem.2 fun c hc => by simpa [h c (hm hc)] using hblank c hc
  have hleft : l = [] := hnil (by rw [hcs]; intro c hc; simp [hc]) hl
  have hright : r = [] := hnil (by rw [hcs]; intro c hc; simp [hc]) hr
  rw [hleft, hright, List.nil_append, List.append_nil] at hcs
  exact hcs.symm

/-- A text is blank if nothing is left of it. -/
theorem trim_eq_empty {s : String} : trim s = "" ↔ IsBlank s := by
  rw [trim, String.ofList_eq_empty_iff, trimChars_eq_nil, IsBlank]

/-! ## Splitting -/

theorem split_eq_splitOn (sep : Char) (cs : List Char) : split sep cs = cs.splitOn sep := by
  induction cs with
  | nil => rfl
  | cons c cs ih =>
    rw [split, ih, List.splitOn, List.splitOn, List.splitOnP_cons_eq_if_modifyHead]
    by_cases hc : c = sep
    · rw [if_pos hc, if_pos (beq_iff_eq.2 hc)]
    · rw [if_neg hc, if_neg (by simpa using hc)]
      split
      case h_1 hnil => exact absurd hnil (List.splitOnP_ne_nil _ _)
      case h_2 part parts hcons => rw [hcons]; rfl

/-- The parts of a text between separators, without the blank ones. -/
def parts (sep : Char) (s : String) : List (List Char) :=
  (s.toList.splitOn sep).filter fun part => part.any fun c => !isBlank c

theorem splitList_eq (sep : Char) (s : String) :
    splitList sep s = (parts sep s).map fun part => String.ofList (trimChars part) := by
  rw [splitList, parts, split_eq_splitOn, List.filterMap_map]
  induction s.toList.splitOn sep with
  | nil => rfl
  | cons part rest ih =>
    rw [List.filterMap_cons, List.filter_cons, ih]
    by_cases hblank : ∀ c ∈ part, isBlank c = true
    · have hany : (part.any fun c => !isBlank c) = false := by simpa using hblank
      rw [hany, Function.comp_apply, trimChars_eq_nil.2 hblank]
      rfl
    · have hany : (part.any fun c => !isBlank c) = true := by simpa using hblank
      have hne : (trimChars part).isEmpty = false := by
        rw [List.isEmpty_eq_false_iff]
        exact fun hnil => hblank (trimChars_eq_nil.1 hnil)
      rw [hany, Function.comp_apply, hne]
      rfl

/-! ## Cutting -/

theorem exists_cutAt (h : sep ∈ cs) : ∃ before after, cutAt sep cs = some (before, after) := by
  induction cs with
  | nil => cases h
  | cons c cs ih =>
    by_cases hc : c = sep
    · exact ⟨[], cs, by rw [cutAt, if_pos hc]⟩
    · obtain ⟨before, after, hcut⟩ := ih ((List.mem_cons.1 h).resolve_left (Ne.symm hc))
      exact ⟨c :: before, after, by rw [cutAt, if_neg hc, hcut]; rfl⟩

theorem cutAt_eq_none (h : sep ∉ cs) : cutAt sep cs = none := by
  cases hcut : cutAt sep cs with
  | none => rfl
  | some cut => exact absurd (by rw [(cutAt_eq_some hcut).1]; simp) h

/-- Characters before the first separator are not the separator. -/
theorem bne_of_mem (h : sep ∉ before) : ∀ c ∈ before, (c != sep) = true :=
  fun _ hc => bne_iff_ne.2 fun heq => h (heq ▸ hc)

theorem takeWhile_cut (h : sep ∉ before) :
    (before ++ sep :: after).takeWhile (· != sep) = before := by
  rw [List.takeWhile_append_of_pos (bne_of_mem h)]
  simp

theorem dropWhile_cut (h : sep ∉ before) :
    ((before ++ sep :: after).dropWhile (· != sep)).tail = after := by
  rw [List.dropWhile_append_of_pos (bne_of_mem h)]
  simp

end DueWork.Text
