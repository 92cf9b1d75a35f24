/-
  The leaves of a JSON text read back: integers of 64 bits and strings.

  * `Number.ofText?_toString`: the decimal text of an integer of 64 bits is
    read as that integer, and `isNumber_toString` says that it is a number of
    the grammar;
  * `decodeChars?_encode`: a string read between its quotes is the string that
    was written, whatever characters were escaped.
-/
import Mathlib.Data.List.Basic
import Mathlib.Tactic.IntervalCases
import DueWork.Json.Printer
import DueWork.Json.Reader

namespace DueWork.Json

/-! ## Decimal digits -/

theorem digitValue_eq (c : Char) : Number.digitValue c = c.toNat - '0'.toNat := rfl

/-- Only zero is written with a leading zero. -/
theorem head_toDigits {n : Nat} (h : 0 < n) :
    ∃ c cs, Nat.toDigits 10 n = c :: cs ∧ c.isDigit = true ∧ c ≠ '0' := by
  induction n using Nat.strongRecOn with
  | ind n ih =>
    by_cases hn : n < 10
    · rw [Nat.toDigits_of_lt_base hn]
      refine ⟨n.digitChar, [], rfl, ?_, ?_⟩
      · interval_cases n <;> decide
      · interval_cases n <;> decide
    · obtain ⟨c, cs, hcs, hd, h0⟩ := ih (n / 10) (by omega) (by omega)
      rw [Nat.toDigits_of_base_le (by omega) (by omega), hcs]
      exact ⟨c, _, rfl, hd, h0⟩

theorem all_isDigit_toDigits (n : Nat) : (Nat.toDigits 10 n).all Char.isDigit = true := by
  rw [List.all_eq_true]
  exact fun c hc => Nat.isDigit_of_mem_toDigits (by omega) (by omega) hc

theorem dropWhile_isDigit {cs : List Char} (h : cs.all Char.isDigit = true) :
    cs.dropWhile Char.isDigit = [] := by
  induction cs with
  | nil => rfl
  | cons c cs ih =>
    rw [List.all_cons, Bool.and_eq_true] at h
    rw [List.dropWhile_cons, if_pos h.1]
    exact ih h.2

theorem takeWhile_isDigit {cs : List Char} (h : cs.all Char.isDigit = true) :
    cs.takeWhile Char.isDigit = cs := by
  have := List.takeWhile_append_dropWhile (p := Char.isDigit) (l := cs)
  rwa [dropWhile_isDigit h, List.append_nil] at this

theorem isUnsigned_toDigits (n : Nat) : Token.isUnsigned (Nat.toDigits 10 n) = true := by
  have hall := all_isDigit_toDigits n
  rcases Nat.eq_zero_or_pos n with rfl | hn
  · rfl
  · obtain ⟨c, cs, hcs, hd, h0⟩ := head_toDigits hn
    rw [hcs, List.all_cons, Bool.and_eq_true] at hall
    have hrest : cs.dropWhile Char.isDigit = [] := dropWhile_isDigit hall.2
    rw [hcs]
    unfold Token.isUnsigned
    split
    · rename_i heq; cases heq; exact absurd rfl h0
    · rename_i heq; cases heq; simp [hd, hrest, Token.isNumberTail, Token.isExponent]
    · rename_i heq; cases heq

/-- The digits of a number add up from the left, as long as 64 bits hold them. -/
theorem foldl_integerDigit {ds : List Char} {k : Nat} (h : Nat.ofDigitChars 10 ds k < Nat.pow 2 64) :
    ds.foldl Number.Digits.integerDigit ⟨k, 0, false⟩ = ⟨Nat.ofDigitChars 10 ds k, 0, false⟩ := by
  induction ds generalizing k with
  | nil => rfl
  | cons c ds ih =>
    rw [Nat.ofDigitChars_cons] at h ⊢
    have hk : k * 10 + Number.digitValue c = 10 * k + (c.toNat - '0'.toNat) := by
      rw [digitValue_eq]; omega
    have hlt : k * 10 + Number.digitValue c < Nat.pow 2 64 := by
      rw [Nat.ofDigitChars_eq_ofDigitChars_zero] at h
      have hpos : 1 * (10 * k + (c.toNat - '0'.toNat)) ≤
          10 ^ ds.length * (10 * k + (c.toNat - '0'.toNat)) :=
        Nat.mul_le_mul_right _ (Nat.one_le_pow _ _ (by omega))
      omega
    rw [List.foldl_cons, Number.Digits.integerDigit, if_neg (by simp)]
    simp only [if_pos hlt]
    rw [hk]
    exact ih h

theorem ofUnsigned?_toDigits {n : Nat} (negative : Bool) (h : n < Nat.pow 2 64) :
    Number.ofUnsigned? negative (Nat.toDigits 10 n) =
      Number.ofParts? negative ⟨n, 0, false⟩ true [] := by
  have hall := all_isDigit_toDigits n
  rw [Number.ofUnsigned?, takeWhile_isDigit hall, dropWhile_isDigit hall,
    foldl_integerDigit (by rwa [Nat.ofDigitChars_ten_toDigits]),
    Nat.ofDigitChars_ten_toDigits]

/-- An integer that is neither below a signed nor above an unsigned word. -/
def IsWord (n : Int) : Prop := -(Nat.pow 2 63 : Nat) ≤ n ∧ n < (Nat.pow 2 64 : Nat)

instance (n : Int) : Decidable (IsWord n) := inferInstanceAs (Decidable (_ ∧ _))

theorem toList_toString_ofNat (n : Nat) : (toString (n : Int)).toList = Nat.toDigits 10 n := by
  show (Nat.repr n).toList = _
  rw [Nat.repr_eq_ofList_toDigits, String.toList_ofList]

theorem toList_toString_negSucc (n : Nat) :
    (toString (Int.negSucc n)).toList = '-' :: Nat.toDigits 10 (n + 1) := by
  show ("-" ++ Nat.repr (n + 1)).toList = _
  rw [String.toList_append, Nat.repr_eq_ofList_toDigits, String.toList_ofList]
  simp

/-- The decimal text of an integer is a number of the grammar. -/
theorem isNumber_toString (n : Int) : Token.isNumber (toString n).toList = true := by
  cases n with
  | ofNat n =>
    have h : (toString (Int.ofNat n)).toList = Nat.toDigits 10 n := toList_toString_ofNat n
    rw [h]
    have hall := all_isDigit_toDigits n
    unfold Token.isNumber
    split
    · rename_i heq
      rw [heq] at hall
      exact absurd hall (by simp [show Char.isDigit '-' = false from by decide])
    · exact isUnsigned_toDigits n
  | negSucc n =>
    rw [toList_toString_negSucc]
    exact isUnsigned_toDigits (n + 1)

/-- The decimal text of an integer of 64 bits is read as that integer. -/
theorem Number.ofText?_toString {n : Int} (h : IsWord n) :
    Number.ofText? (toString n) = some (.integer n) := by
  unfold Number.ofText?
  cases n with
  | ofNat n =>
    have htext : (toString (Int.ofNat n)).toList = Nat.toDigits 10 n := toList_toString_ofNat n
    rw [htext]
    have hall := all_isDigit_toDigits n
    split
    · rename_i heq
      rw [heq] at hall
      exact absurd hall (by simp [show Char.isDigit '-' = false from by decide])
    · have hn : n < Nat.pow 2 64 := by have := h.2; simp at this ⊢; omega
      rw [ofUnsigned?_toDigits false hn]
      simp [ofParts?]
  | negSucc n =>
    rw [toList_toString_negSucc]
    have hn : n + 1 ≤ Nat.pow 2 63 := by have := h.1; simp at this ⊢; omega
    have hlt : n + 1 < Nat.pow 2 64 := by simp at hn ⊢; omega
    simp only [ofUnsigned?_toDigits true hlt, ofParts?]
    simp [show ¬Nat.pow 2 63 < n + 1 from by omega]
    omega

/-! ## Strings -/

theorem decodeChars?_cons {c : Char} (h : c ≠ '\\') (cs : List Char) :
    decodeChars? (c :: cs) = (decodeChars? cs).map (c :: ·) := by
  rw [decodeChars?]
  · intro a b c' d rest heq; exact absurd heq h
  · intro c' rest heq; exact absurd heq h

/-- A character written by its number, outside the surrogates. -/
theorem decodeChars?_hex {a b c d : Char} (h : hexNumber a b c d < 0xD800) (cs : List Char) :
    decodeChars? ('\\' :: 'u' :: a :: b :: c :: d :: cs) =
      (decodeChars? cs).map (Char.ofNat (hexNumber a b c d) :: ·) := by
  rw [decodeChars?.eq_def]
  simp only
  rw [if_neg (by omega), if_neg (by omega)]

theorem hexNumber_hexDigit :
    ∀ n < 0x20, hexNumber '0' '0' (hexDigit (n / 16)) (hexDigit (n % 16)) = n := by
  decide

/-- A character is read back, escaped or not. -/
theorem decodeChars?_encodeChar (c : Char) (cs : List Char) :
    decodeChars? (encodeChar c ++ cs) = (decodeChars? cs).map (c :: ·) := by
  unfold encodeChar
  split_ifs with hquote hslash hn hr ht hb hf hcontrol
  · rw [hquote]; rfl
  · rw [hslash]; rfl
  · rw [hn]; rfl
  · rw [hr]; rfl
  · rw [ht]; rfl
  · rw [hb]; rfl
  · rw [hf]; rfl
  · have hnum := hexNumber_hexDigit c.toNat hcontrol
    show decodeChars? ('\\' :: 'u' :: '0' :: '0' :: _ :: _ :: cs) = _
    rw [decodeChars?_hex (by omega), hnum, Char.ofNat_toNat]
  · exact decodeChars?_cons hslash cs

theorem decodeChars?_encode (cs : List Char) :
    decodeChars? (cs.flatMap encodeChar) = some cs := by
  induction cs with
  | nil => rfl
  | cons c cs ih => rw [List.flatMap_cons, decodeChars?_encodeChar, ih]; rfl

/-- What stands between the quotes of a string is read as the string. -/
theorem decodeString?_encode (s : String) :
    decodeString? (s.toList.flatMap encodeChar) = some s := by
  rw [decodeString?, decodeChars?_encode, Option.map_some, String.ofList_toList]

end DueWork.Json
