/-
  Identifiers, letter by letter.

  * `isIdentifier_iff`: an identifier is a letter or an underscore, followed by
    letters, digits and underscores;
  * `not_isBlank_of_isWord` and `notMem_of_isWord`: no blank stands in one, and
    no mark.
-/
import DueWork.Proofs.Text.Blank
import DueWork.Text.Identifier

namespace DueWork.Text

variable {c : Char} {cs : List Char} {s : String}

/-- The class `[A-Za-z_]`. -/
def IsWordStart (c : Char) : Prop := 'A' ≤ c ∧ c ≤ 'Z' ∨ 'a' ≤ c ∧ c ≤ 'z' ∨ c = '_'

/-- The class `[A-Za-z0-9_]`. -/
def IsWordRest (c : Char) : Prop := IsWordStart c ∨ '0' ≤ c ∧ c ≤ '9'

/-- The texts `[A-Za-z_][A-Za-z0-9_]*`. -/
def IsWord : List Char → Prop
  | [] => False
  | c :: cs => IsWordStart c ∧ ∀ d ∈ cs, IsWordRest d

instance (c : Char) : Decidable (IsWordStart c) := inferInstanceAs (Decidable (_ ∨ _ ∨ _))
instance (c : Char) : Decidable (IsWordRest c) := inferInstanceAs (Decidable (_ ∨ _))

instance : (cs : List Char) → Decidable (IsWord cs)
  | [] => inferInstanceAs (Decidable False)
  | _ :: _ => inferInstanceAs (Decidable (_ ∧ _))

theorem within_iff {a b : Char} : (decide (c.val ≥ a.val) && decide (c.val ≤ b.val)) = true ↔
    a ≤ c ∧ c ≤ b := by
  rw [Bool.and_eq_true, decide_eq_true_eq, decide_eq_true_eq]
  rfl

theorem isIdentifierStart_iff : isIdentifierStart c = true ↔ IsWordStart c := by
  have hupper : c.isUpper = true ↔ 'A' ≤ c ∧ c ≤ 'Z' := decide_eq_true_iff
  have hlower : c.isLower = true ↔ 'a' ≤ c ∧ c ≤ 'z' := within_iff
  show ((c.isUpper || c.isLower) || c == '_') = true ↔ _
  rw [Bool.or_eq_true, Bool.or_eq_true, hupper, hlower, beq_iff_eq, or_assoc, IsWordStart]

theorem isIdentifierRest_iff : isIdentifierRest c = true ↔ IsWordRest c := by
  have hdigit : c.isDigit = true ↔ '0' ≤ c ∧ c ≤ '9' := within_iff
  show ((c.isAlpha || c.isDigit) || c == '_') = true ↔ _
  rw [Bool.or_right_comm, Bool.or_eq_true, hdigit, IsWordRest, ← isIdentifierStart_iff]
  rfl

theorem isIdentifier_iff : isIdentifier s = true ↔ IsWord s.toList := by
  rw [isIdentifier]
  cases s.toList with
  | nil => exact iff_of_false nofun id
  | cons c cs =>
    rw [isIdentifierChars, IsWord, Bool.and_eq_true, List.all_eq_true, isIdentifierStart_iff]
    simp only [isIdentifierRest_iff]

/-- Where the characters of a word are. -/
theorem IsWordRest.toNat (h : IsWordRest c) :
    48 ≤ c.toNat ∧ c.toNat ≤ 57 ∨ 65 ≤ c.toNat ∧ c.toNat ≤ 90 ∨ c.toNat = 95 ∨
      97 ≤ c.toNat ∧ c.toNat ≤ 122 := by
  rcases h with (⟨h₁, h₂⟩ | ⟨h₁, h₂⟩ | rfl) | ⟨h₁, h₂⟩
  · exact .inr (.inl ⟨h₁, h₂⟩)
  · exact .inr (.inr (.inr ⟨h₁, h₂⟩))
  · exact .inr (.inr (.inl rfl))
  · exact .inl ⟨h₁, h₂⟩

theorem IsWord.forall_mem (h : IsWord cs) : ∀ c ∈ cs, IsWordRest c := by
  cases cs with
  | nil => exact List.forall_mem_nil _
  | cons c cs => exact List.forall_mem_cons.2 ⟨.inl h.1, h.2⟩

theorem not_isBlank_of_isWord (h : IsWord cs) : ∀ c ∈ cs, isBlank c = false := by
  intro c hc
  have := (h.forall_mem c hc).toNat
  rw [← Bool.not_eq_true]
  simp only [isBlank, Bool.or_eq_true, Bool.and_eq_true, decide_eq_true_eq, beq_iff_eq]
  omega

theorem notMem_of_isWord (h : IsWord cs) (hc : ¬IsWordRest c) : c ∉ cs :=
  fun hmem => hc (h.forall_mem c hmem)

end DueWork.Text
