/-
  How deep a value nests.

  The writer writes a value however deep it nests, and the reader gives up at
  `maxDepth`.  So a value of 64 bit integers is read back from its text if it
  nests no deeper than that, and only then.

  * `fits_iff`: for such a value to fit into a depth is to nest no deeper;
  * `parse?_text_eq`: what becomes of its text.
-/
import DueWork.Proofs.Json.RoundTrip

namespace DueWork.Json

mutual
/-- The number of arrays and objects around the innermost part of a value. -/
def nesting : Json → Nat
  | .null | .bool _ | .number _ | .string _ => 0
  | .array es => elementsNesting es + 1
  | .object fs => fieldsNesting fs + 1

def elementsNesting : List Json → Nat
  | [] => 0
  | j :: js => max j.nesting (elementsNesting js)

def fieldsNesting : List (String × Json) → Nat
  | [] => 0
  | f :: fs => max (fieldNesting f) (fieldsNesting fs)

def fieldNesting : String × Json → Nat
  | (_, j) => j.nesting
end

/-- The numbers of the value are integers of 64 bits, and the fields of its
    objects are in the order of their names. -/
def IsExact (j : Json) : Prop := ∃ depth, j.fits depth = true

mutual
/-- A value that fits into some depth fits into another one if it nests no
    deeper. -/
theorem fits_iff {d depth : Nat} :
    (j : Json) → j.fits d = true → (j.fits depth = true ↔ j.nesting ≤ depth)
  | .null, _ | .bool _, _ | .string _, _ => iff_of_true rfl (Nat.zero_le _)
  | .number (.integer _), h => iff_of_true h (Nat.zero_le _)
  | .array es, h => by
    rw [fits, Bool.and_eq_true, decide_eq_true_eq] at h
    rw [fits, Bool.and_eq_true, decide_eq_true_eq, elementsFit_iff es h.2, nesting]
    omega
  | .object fs, h => by
    rw [fits, Bool.and_eq_true, Bool.and_eq_true, decide_eq_true_eq] at h
    rw [fits, Bool.and_eq_true, Bool.and_eq_true, decide_eq_true_eq, fieldsFit_iff fs h.2,
      and_iff_left h.1.2, nesting]
    omega

theorem elementsFit_iff {d depth : Nat} : (es : List Json) → elementsFit d es = true →
    (elementsFit depth es = true ↔ elementsNesting es ≤ depth)
  | [], _ => iff_of_true rfl (Nat.zero_le _)
  | j :: js, h => by
    rw [elementsFit, Bool.and_eq_true] at h
    rw [elementsFit, Bool.and_eq_true, fits_iff j h.1, elementsFit_iff js h.2, elementsNesting]
    omega

theorem fieldsFit_iff {d depth : Nat} : (fs : List (String × Json)) → fieldsFit d fs = true →
    (fieldsFit depth fs = true ↔ fieldsNesting fs ≤ depth)
  | [], _ => iff_of_true rfl (Nat.zero_le _)
  | f :: fs, h => by
    rw [fieldsFit, Bool.and_eq_true] at h
    rw [fieldsFit, Bool.and_eq_true, fieldFits_iff f h.1, fieldsFit_iff fs h.2, fieldsNesting]
    omega

theorem fieldFits_iff {d depth : Nat} : (f : String × Json) → fieldFits d f = true →
    (fieldFits depth f = true ↔ fieldNesting f ≤ depth)
  | (_, j), h => fits_iff j h
end

mutual
/-- The tree of a value that nests deeper has no value. -/
theorem value?_node_of_lt {depth : Nat} :
    (j : Json) → depth < j.nesting → j.node.value? depth = none
  | .array es, h => by
    rw [nesting] at h
    rw [node, Node.value?]
    split
    case isTrue => rfl
    case isFalse => rw [elements?_nodes_of_lt es (by omega), Option.map_none]
  | .object fs, h => by
    rw [nesting] at h
    rw [node, Node.value?]
    split
    case isTrue => rfl
    case isFalse => rw [fields?_nodes_of_lt fs (by omega), Option.map_none]

theorem elements?_nodes_of_lt {depth : Nat} : (es : List Json) → depth < elementsNesting es →
    Node.elements? depth (elementNodes es) = none
  | j :: js, h => by
    rw [elementsNesting] at h
    rw [elementNodes, Node.elements?]
    by_cases hj : depth < j.nesting
    · rw [value?_node_of_lt j hj]
      rfl
    · rw [elements?_nodes_of_lt js (by omega)]
      cases j.node.value? depth <;> rfl

theorem fields?_nodes_of_lt {depth : Nat} : (fs : List (String × Json)) → depth < fieldsNesting fs →
    Node.fields? depth (fieldNodes fs) = none
  | f :: fs, h => by
    rw [fieldsNesting] at h
    rw [fieldNodes, Node.fields?]
    by_cases hf : depth < fieldNesting f
    · rw [field?_node_of_lt f hf]
      rfl
    · rw [fields?_nodes_of_lt fs (by omega)]
      cases Node.field? depth (fieldNode f) <;> rfl

theorem field?_node_of_lt {depth : Nat} : (f : String × Json) → depth < fieldNesting f →
    Node.field? depth (fieldNode f) = none
  | (name, j), h => by
    rw [fieldNode, Node.field?, value?_node_of_lt j h]
    cases decodeString? (rawString name) <;> rfl
end

/-- What becomes of a value that is written and read. -/
theorem parse?_text_eq {j : Json} (h : j.IsExact) :
    parse? j.text = if j.nesting ≤ maxDepth then some j else none := by
  obtain ⟨d, hd⟩ := h
  split
  case isTrue hle => exact parse?_text ((fits_iff j hd).2 hle)
  case isFalse hlt =>
    rw [parse?, Node.parse?_text hd, Option.bind_some, value?_node_of_lt j (Nat.not_le.1 hlt)]

end DueWork.Json
