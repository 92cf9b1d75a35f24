/-
  A JSON value reads back from its text.

  A value is written character by character, read as tokens, put together as a
  tree and evaluated; each of the three readers is inverse to its part of the
  writing.

  * `Json.tokens` and `Json.node` are the tokens and the tree of a value's
    text: `scan_chars` and `ofTokens?_tokens` say so;
  * `Json.fits` says that a value nests at most so deep and holds integers of
    64 bits only: `parse?_text` reads such a value back.
-/
import DueWork.Proofs.Json.Leaves

namespace DueWork.Json

/-! ## Tokens and trees of a value -/

/-- The characters between the quotes of a string. -/
def rawString (s : String) : List Char := s.toList.flatMap encodeChar

mutual
/-- The tokens of a value's text. -/
def tokens : Json → List Token
  | .null => [.null]
  | .bool b => [.bool b]
  | .number n => [.number n.text]
  | .string s => [.string (rawString s)]
  | .array es => .openArray :: elementTokens es ++ [.closeArray]
  | .object fs => .openObject :: fieldsTokens fs ++ [.closeObject]

def elementTokens : List Json → List Token
  | [] => []
  | [j] => j.tokens
  | j :: js => j.tokens ++ .comma :: elementTokens js

def fieldsTokens : List (String × Json) → List Token
  | [] => []
  | [f] => fieldTokens f
  | f :: fs => fieldTokens f ++ .comma :: fieldsTokens fs

def fieldTokens : String × Json → List Token
  | (name, j) => .string (rawString name) :: .colon :: j.tokens
end

mutual
/-- The tree of a value's text. -/
def node : Json → Node
  | .null => .null
  | .bool b => .bool b
  | .number n => .number n.text
  | .string s => .string (rawString s)
  | .array es => .array (elementNodes es)
  | .object fs => .object (fieldNodes fs)

def elementNodes : List Json → List Node
  | [] => []
  | j :: js => j.node :: elementNodes js

def fieldNodes : List (String × Json) → List (List Char × Node)
  | [] => []
  | f :: fs => fieldNode f :: fieldNodes fs

def fieldNode : String × Json → List Char × Node
  | (name, j) => (rawString name, j.node)
end

mutual
/-- The value nests at most `depth` deep, its numbers are integers of 64 bits,
    and the fields of its objects are in the order of their names. -/
def fits (depth : Nat) : Json → Bool
  | .null | .bool _ | .string _ => true
  | .number (.integer n) => decide (IsWord n)
  | .number (.real _) => false
  | .array es => decide (0 < depth) && elementsFit (depth - 1) es
  | .object fs => decide (0 < depth) && decide (fs.Pairwise fun f g => f.1 < g.1) &&
      fieldsFit (depth - 1) fs

def elementsFit (depth : Nat) : List Json → Bool
  | [] => true
  | j :: js => j.fits depth && elementsFit depth js

def fieldsFit (depth : Nat) : List (String × Json) → Bool
  | [] => true
  | f :: fs => fieldFits depth f && fieldsFit depth fs

def fieldFits (depth : Nat) : String × Json → Bool
  | (_, j) => j.fits depth
end

theorem elementChars_cons₂ (j k : Json) (js : List Json) :
    elementChars (j :: k :: js) = j.chars ++ ',' :: elementChars (k :: js) := rfl

theorem fieldsChars_cons₂ (f g : String × Json) (fs : List (String × Json)) :
    fieldsChars (f :: g :: fs) = fieldChars f ++ ',' :: fieldsChars (g :: fs) := rfl

theorem elementTokens_cons₂ (j k : Json) (js : List Json) :
    elementTokens (j :: k :: js) = j.tokens ++ .comma :: elementTokens (k :: js) := rfl

theorem fieldsTokens_cons₂ (f g : String × Json) (fs : List (String × Json)) :
    fieldsTokens (f :: g :: fs) = fieldTokens f ++ .comma :: fieldsTokens (g :: fs) := rfl

/-! ## Scanning -/

namespace Token

/-- The tokens of the rest of a text. -/
def Scanner.rest? (s : Scanner) (cs : List Char) : Option (List Token) :=
  (cs.foldlM Scanner.step? s).bind Scanner.finish?

theorem Scanner.rest?_nil (s : Scanner) : s.rest? [] = s.finish? := rfl

theorem Scanner.rest?_cons (s : Scanner) (c : Char) (cs : List Char) :
    s.rest? (c :: cs) = (s.step? c).bind fun t => t.rest? cs := by
  rw [rest?, List.foldlM_cons]
  cases s.step? c <;> rfl

/-- What may follow a value. -/
def isFollow (c : Char) : Bool := c == ',' || c == ']' || c == '\x7d'

/-- The text is at its end, or at a character that ends a value. -/
def Delimited : List Char → Prop
  | [] => True
  | c :: _ => isFollow c = true

theorem isFollow_iff {c : Char} : isFollow c = true ↔ c = ',' ∨ c = ']' ∨ c = '\x7d' := by
  simp [isFollow, or_assoc]

/-- A scanner that has a whole token goes on as if it stood after it. -/
theorem rest?_pending {s : Scanner} {ts : List Token} {cs : List Char}
    (hfinish : s.finish? = some ts) (hstep : ∀ c, isFollow c = true → s.step? c = startToken? ts c)
    (hcs : Delimited cs) : s.rest? cs = Scanner.rest? ⟨.between, ts⟩ cs := by
  cases cs with
  | nil => rw [Scanner.rest?_nil, hfinish]; rfl
  | cons c cs => rw [Scanner.rest?_cons, Scanner.rest?_cons, hstep c hcs]; rfl

variable {ts : List Token} {cs : List Char}

theorem rest?_null (hcs : Delimited cs) :
    Scanner.rest? ⟨.between, ts⟩ ("null".toList ++ cs) = Scanner.rest? ⟨.between, .null :: ts⟩ cs := by
  have h : Scanner.rest? ⟨.between, ts⟩ ("null".toList ++ cs) =
      Scanner.rest? ⟨.word ['l', 'l', 'u', 'n'], ts⟩ cs := rfl
  rw [h]
  refine rest?_pending rfl (fun c hc => ?_) hcs
  rcases isFollow_iff.1 hc with rfl | rfl | rfl <;> rfl

theorem rest?_bool (b : Bool) (hcs : Delimited cs) :
    Scanner.rest? ⟨.between, ts⟩ ((if b then "true" else "false").toList ++ cs) =
      Scanner.rest? ⟨.between, .bool b :: ts⟩ cs := by
  cases b with
  | true =>
    have h : Scanner.rest? ⟨.between, ts⟩ ("true".toList ++ cs) =
        Scanner.rest? ⟨.word ['e', 'u', 'r', 't'], ts⟩ cs := rfl
    rw [if_pos rfl, h]
    refine rest?_pending rfl (fun c hc => ?_) hcs
    rcases isFollow_iff.1 hc with rfl | rfl | rfl <;> rfl
  | false =>
    have h : Scanner.rest? ⟨.between, ts⟩ ("false".toList ++ cs) =
        Scanner.rest? ⟨.word ['e', 's', 'l', 'a', 'f'], ts⟩ cs := rfl
    rw [if_neg (by simp), h]
    refine rest?_pending rfl (fun c hc => ?_) hcs
    rcases isFollow_iff.1 hc with rfl | rfl | rfl <;> rfl

/-- Digits are collected one by one. -/
theorem rest?_digits {ds acc : List Char} (h : ds.all Char.isDigit = true) :
    Scanner.rest? ⟨.number acc, ts⟩ (ds ++ cs) =
      Scanner.rest? ⟨.number (ds.reverse ++ acc), ts⟩ cs := by
  induction ds generalizing acc with
  | nil => rfl
  | cons d ds ih =>
    rw [List.all_cons, Bool.and_eq_true] at h
    have hstep : Scanner.step? ⟨.number acc, ts⟩ d = some ⟨.number (d :: acc), ts⟩ := by
      show (if isNumberChar d = true then _ else _) = _
      rw [if_pos (by simp [isNumberChar, h.1])]
    rw [List.cons_append, Scanner.rest?_cons, hstep, Option.bind_some, ih h.2, List.reverse_cons,
      List.append_assoc, List.singleton_append]

theorem startToken?_digit {c : Char} (h : c.isDigit = true) :
    startToken? ts c = some ⟨.number [c], ts⟩ := by
  have hne : ∀ d : Char, d.isDigit = false → c ≠ d := by
    rintro d hd rfl; rw [h] at hd; cases hd
  have hspace : isSpace c = false := by
    simp [isSpace, hne ' ' rfl, hne '\t' rfl, hne '\n' rfl, hne '\r' rfl]
  rw [startToken?, if_neg (by simp [hspace]), if_neg (hne '"' rfl), if_pos (by simp [h])]

theorem rest?_number (n : Int) (hcs : Delimited cs) :
    Scanner.rest? ⟨.between, ts⟩ ((toString n).toList ++ cs) =
      Scanner.rest? ⟨.between, .number (toString n) :: ts⟩ cs := by
  have hnumber := isNumber_toString n
  obtain ⟨c, ds, hc, hstart, hds⟩ : ∃ c ds, (toString n).toList = c :: ds ∧
      startToken? ts c = some ⟨.number [c], ts⟩ ∧ ds.all Char.isDigit = true := by
    cases n with
    | ofNat n =>
      have h : (toString (Int.ofNat n)).toList = Nat.toDigits 10 n := toList_toString_ofNat n
      have hall := all_isDigit_toDigits n
      rw [h]
      cases hd : Nat.toDigits 10 n with
      | nil => exact absurd hd Nat.toDigits_ne_nil
      | cons c ds =>
        rw [hd, List.all_cons, Bool.and_eq_true] at hall
        exact ⟨c, ds, rfl, startToken?_digit hall.1, hall.2⟩
    | negSucc n =>
      rw [toList_toString_negSucc]
      exact ⟨'-', _, rfl, rfl, all_isDigit_toDigits _⟩
  have hcollect : Scanner.rest? ⟨.between, ts⟩ ((toString n).toList ++ cs) =
      Scanner.rest? ⟨.number (toString n).toList.reverse, ts⟩ cs := by
    rw [hc, List.cons_append, Scanner.rest?_cons]
    show (startToken? ts c).bind _ = _
    rw [hstart, Option.bind_some, rest?_digits hds, List.reverse_cons]
  rw [hcollect]
  refine rest?_pending ?_ (fun c hc => ?_) hcs
  · show (if isNumber (toString n).toList.reverse.reverse = true then _ else _) = _
    rw [List.reverse_reverse, if_pos hnumber, String.ofList_toList]
  · have hno : isNumberChar c = false := by
      rcases isFollow_iff.1 hc with rfl | rfl | rfl <;> rfl
    show (if isNumberChar c = true then _ else _) = _
    rw [if_neg (by simp [hno])]
    show Option.bind (if isNumber (toString n).toList.reverse.reverse = true then _ else _) _ = _
    rw [List.reverse_reverse, if_pos hnumber, Option.bind_some, String.ofList_toList]

/-- A written character of a string is collected whole. -/
theorem rest?_encodeChar (c : Char) (acc : List Char) :
    Scanner.rest? ⟨.string acc, ts⟩ (encodeChar c ++ cs) =
      Scanner.rest? ⟨.string ((encodeChar c).reverse ++ acc), ts⟩ cs := by
  unfold encodeChar
  split_ifs with hquote hslash hn hr ht hb hf hcontrol
  iterate 7 rfl
  · have hhex : ∀ n < 0x20, isHexDigit (hexDigit (n / 16)) = true ∧
        isHexDigit (hexDigit (n % 16)) = true := by decide
    obtain ⟨h₁, h₂⟩ := hhex c.toNat hcontrol
    have hstep (acc : List Char) (left : Nat) (d : Char) (h : isHexDigit d = true) :
        Scanner.step? ⟨.hex acc left, ts⟩ d = some ⟨if left ≤ 1 then .string (d :: acc)
          else .hex (d :: acc) (left - 1), ts⟩ := by
      show (if isHexDigit d = true then _ else _) = _
      rw [if_pos h]
    show Scanner.rest? ⟨.hex ('0' :: '0' :: 'u' :: '\\' :: acc) 2, ts⟩
      (hexDigit (c.toNat / 16) :: hexDigit (c.toNat % 16) :: cs) = _
    rw [Scanner.rest?_cons, hstep _ _ _ h₁, Option.bind_some]
    show Scanner.rest? ⟨.hex _ 1, ts⟩ _ = _
    rw [Scanner.rest?_cons, hstep _ _ _ h₂]
    rfl
  · show Scanner.rest? _ (c :: cs) = _
    have hstep : Scanner.step? ⟨.string acc, ts⟩ c = some ⟨.string (c :: acc), ts⟩ := by
      show (if c = '"' then _ else if c = '\\' then _ else if c.toNat < 0x20 then _ else _) = _
      rw [if_neg hquote, if_neg hslash, if_neg hcontrol]
    rw [Scanner.rest?_cons, hstep]
    rfl

theorem rest?_raw (s acc : List Char) :
    Scanner.rest? ⟨.string acc, ts⟩ (s.flatMap encodeChar ++ cs) =
      Scanner.rest? ⟨.string ((s.flatMap encodeChar).reverse ++ acc), ts⟩ cs := by
  induction s generalizing acc with
  | nil => rfl
  | cons c s ih =>
    rw [List.flatMap_cons, List.append_assoc, rest?_encodeChar, ih, List.reverse_append,
      List.append_assoc]

theorem rest?_string (s : String) :
    Scanner.rest? ⟨.between, ts⟩ (encodeString s ++ cs) =
      Scanner.rest? ⟨.between, .string (rawString s) :: ts⟩ cs := by
  have hopen : Scanner.rest? ⟨.between, ts⟩ (encodeString s ++ cs) =
      Scanner.rest? ⟨.string [], ts⟩ (s.toList.flatMap encodeChar ++ ('"' :: cs)) := by
    simp only [encodeString, List.cons_append, List.append_assoc, List.nil_append]
    rfl
  rw [hopen, rest?_raw, List.append_nil, Scanner.rest?_cons]
  show Scanner.rest? ⟨.between, .string (rawString s).reverse.reverse :: ts⟩ cs = _
  rw [List.reverse_reverse]

end Token

open Token in
mutual
/-- The text of a value is scanned as its tokens, whatever follows. -/
theorem rest?_chars {depth : Nat} (ts : List Token) (cs : List Char) :
    (j : Json) → j.fits depth = true → Delimited cs →
      Scanner.rest? ⟨.between, ts⟩ (j.chars ++ cs) =
        Scanner.rest? ⟨.between, j.tokens.reverse ++ ts⟩ cs
  | .null, _, hcs => rest?_null hcs
  | .bool b, _, hcs => rest?_bool b hcs
  | .number (.integer n), _, hcs => rest?_number n hcs
  | .string s, _, _ => rest?_string s
  | .array es, h, _ => by
    rw [fits, Bool.and_eq_true] at h
    have hes := rest?_elementChars (.openArray :: ts) (']' :: cs) es h.2 rfl
    rw [chars, tokens, List.cons_append, List.cons_append, List.append_assoc, List.cons_append,
      List.nil_append, Scanner.rest?_cons]
    show Scanner.rest? ⟨.between, .openArray :: ts⟩ _ = _
    rw [hes, Scanner.rest?_cons]
    show Scanner.rest? ⟨.between, .closeArray :: ((elementTokens es).reverse ++ .openArray :: ts)⟩ cs = _
    simp
  | .object fs, h, _ => by
    rw [fits, Bool.and_eq_true] at h
    have hfs := rest?_fieldsChars (.openObject :: ts) ('\x7d' :: cs) fs h.2 rfl
    rw [chars, tokens, List.cons_append, List.cons_append, List.append_assoc, List.cons_append,
      List.nil_append, Scanner.rest?_cons]
    show Scanner.rest? ⟨.between, .openObject :: ts⟩ _ = _
    rw [hfs, Scanner.rest?_cons]
    show Scanner.rest? ⟨.between, .closeObject :: ((fieldsTokens fs).reverse ++ .openObject :: ts)⟩ cs = _
    simp

theorem rest?_elementChars {depth : Nat} (ts : List Token) (cs : List Char) :
    (es : List Json) → elementsFit depth es = true → Delimited cs →
      Scanner.rest? ⟨.between, ts⟩ (elementChars es ++ cs) =
        Scanner.rest? ⟨.between, (elementTokens es).reverse ++ ts⟩ cs
  | [], _, _ => rfl
  | [j], h, hcs => by
    rw [elementsFit, Bool.and_eq_true] at h
    exact rest?_chars ts cs j h.1 hcs
  | j :: k :: js, h, hcs => by
    rw [elementsFit, Bool.and_eq_true] at h
    have hj := rest?_chars ts (',' :: (elementChars (k :: js) ++ cs)) j h.1 rfl
    have hjs := rest?_elementChars (.comma :: (j.tokens.reverse ++ ts)) cs (k :: js) h.2 hcs
    rw [elementChars_cons₂, List.append_assoc, List.cons_append, hj, Scanner.rest?_cons]
    show Scanner.rest? ⟨.between, .comma :: (j.tokens.reverse ++ ts)⟩ _ = _
    rw [hjs, elementTokens_cons₂]
    simp

theorem rest?_fieldsChars {depth : Nat} (ts : List Token) (cs : List Char) :
    (fs : List (String × Json)) → fieldsFit depth fs = true → Delimited cs →
      Scanner.rest? ⟨.between, ts⟩ (fieldsChars fs ++ cs) =
        Scanner.rest? ⟨.between, (fieldsTokens fs).reverse ++ ts⟩ cs
  | [], _, _ => rfl
  | [f], h, hcs => by
    rw [fieldsFit, Bool.and_eq_true] at h
    exact rest?_fieldChars ts cs f h.1 hcs
  | f :: g :: fs, h, hcs => by
    rw [fieldsFit, Bool.and_eq_true] at h
    have hf := rest?_fieldChars ts (',' :: (fieldsChars (g :: fs) ++ cs)) f h.1 rfl
    have hfs := rest?_fieldsChars (.comma :: ((fieldTokens f).reverse ++ ts)) cs (g :: fs) h.2 hcs
    rw [fieldsChars_cons₂, List.append_assoc, List.cons_append, hf, Scanner.rest?_cons]
    show Scanner.rest? ⟨.between, .comma :: ((fieldTokens f).reverse ++ ts)⟩ _ = _
    rw [hfs, fieldsTokens_cons₂]
    simp

theorem rest?_fieldChars {depth : Nat} (ts : List Token) (cs : List Char) :
    (f : String × Json) → fieldFits depth f = true → Delimited cs →
      Scanner.rest? ⟨.between, ts⟩ (fieldChars f ++ cs) =
        Scanner.rest? ⟨.between, (fieldTokens f).reverse ++ ts⟩ cs
  | (name, j), h, hcs => by
    have hj := rest?_chars (.colon :: .string (rawString name) :: ts) cs j h hcs
    rw [fieldChars, List.append_assoc, rest?_string, List.cons_append, Scanner.rest?_cons]
    show Scanner.rest? ⟨.between, .colon :: .string (rawString name) :: ts⟩ _ = _
    rw [hj, fieldTokens]
    simp
end

/-- The tokens of a value's text. -/
theorem scan_chars {depth : Nat} {j : Json} (h : j.fits depth = true) :
    Token.scan j.chars = some j.tokens := by
  have hscan : Token.scan j.chars =
      (Token.Scanner.rest? ⟨.between, []⟩ (j.chars ++ [])).map List.reverse := by
    rw [List.append_nil]; rfl
  rw [hscan, rest?_chars [] [] j h trivial, Token.Scanner.rest?_nil]
  simp [Token.Scanner.finish?]

/-! ## Building the tree -/

namespace Node

/-- The builder after some more tokens. -/
def Builder.after? (b : Builder) (ts : List Token) : Option Builder := ts.foldlM Builder.step? b

theorem Builder.after?_cons (b : Builder) (t : Token) (ts : List Token) :
    b.after? (t :: ts) = (b.step? t).bind fun b => b.after? ts := by
  rw [after?, List.foldlM_cons]
  rfl

/-- Where a value may start, a token that starts one is taken so. -/
theorem step?_value {frames : List Frame} {e : Expecting} (he : e = .value ∨ e = .elementOrClose)
    (t : Token) (ht : t ≠ .closeArray) :
    Builder.step? ⟨frames, e, none⟩ t = Builder.value? frames t := by
  rcases he with rfl | rfl
  · rfl
  · cases t
    case closeArray => exact absurd rfl ht
    all_goals cases frames with
    | nil => rfl
    | cons f fs => cases f <;> rfl

end Node

open Node in
mutual
/-- The tokens of a value build its tree, wherever a value may stand. -/
theorem after?_tokens {frames : List Frame} {e : Expecting} {ts : List Token}
    (he : e = .value ∨ e = .elementOrClose) :
    (j : Json) → Builder.after? ⟨frames, e, none⟩ (j.tokens ++ ts) =
      (Builder.deliver j.node frames).after? ts
  | .null => by
    rw [tokens, List.singleton_append, Builder.after?_cons, step?_value he .null nofun]; rfl
  | .bool b => by
    rw [tokens, List.singleton_append, Builder.after?_cons, step?_value he (.bool b) nofun]; rfl
  | .number n => by
    rw [tokens, List.singleton_append, Builder.after?_cons, step?_value he (.number n.text) nofun]; rfl
  | .string s => by
    rw [tokens, List.singleton_append, Builder.after?_cons,
      step?_value he (.string (rawString s)) nofun]; rfl
  | .array [] => by
    rw [tokens, List.cons_append, List.cons_append, Builder.after?_cons, step?_value he .openArray nofun]
    rfl
  | .array (j :: js) => by
    have hjs := @after?_elementTokens frames .elementOrClose ts (.inr rfl) [] (j :: js) nofun
    rw [tokens, List.cons_append, List.cons_append, List.append_assoc, List.singleton_append,
      Builder.after?_cons, step?_value he .openArray nofun]
    exact hjs
  | .object [] => by
    rw [tokens, List.cons_append, List.cons_append, Builder.after?_cons, step?_value he .openObject nofun]
    rfl
  | .object (f :: fs) => by
    have hfs := @after?_fieldsTokens frames .fieldOrClose ts (.inl rfl) [] [] (f :: fs) nofun
    rw [tokens, List.cons_append, List.cons_append, List.append_assoc, List.singleton_append,
      Builder.after?_cons, step?_value he .openObject nofun]
    exact hfs

theorem after?_elementTokens {frames : List Frame} {e : Expecting} {ts : List Token}
    (he : e = .value ∨ e = .elementOrClose) (before : List Node) :
    (js : List Json) → js ≠ [] →
      Builder.after? ⟨.array before :: frames, e, none⟩ (elementTokens js ++ .closeArray :: ts) =
        (Builder.deliver (.array (before.reverse ++ elementNodes js)) frames).after? ts
  | [], h => absurd rfl h
  | [j], _ => by
    show Builder.after? _ (j.tokens ++ _) = _
    rw [after?_tokens he j, Builder.after?_cons]
    show (Builder.deliver (.array (j.node :: before).reverse) frames).after? ts = _
    rw [List.reverse_cons]
    rfl
  | j :: k :: js, _ => by
    rw [elementTokens_cons₂, List.append_assoc, after?_tokens he j, List.cons_append,
      Builder.after?_cons]
    show Builder.after? ⟨.array (j.node :: before) :: frames, .value, none⟩ _ = _
    rw [after?_elementTokens (.inl rfl) (j.node :: before) (k :: js) nofun, List.reverse_cons,
      List.append_assoc]
    rfl

theorem after?_fieldsTokens {frames : List Frame} {e : Expecting} {ts : List Token}
    (he : e = .fieldOrClose ∨ e = .field) (before : List (List Char × Node)) (last : List Char) :
    (fs : List (String × Json)) → fs ≠ [] →
      Builder.after? ⟨.object before last :: frames, e, none⟩ (fieldsTokens fs ++ .closeObject :: ts) =
        (Builder.deliver (.object (before.reverse ++ fieldNodes fs)) frames).after? ts
  | [], h => absurd rfl h
  | [f], _ => by
    show Builder.after? _ (fieldTokens f ++ _) = _
    rw [after?_fieldTokens he before last f, Builder.after?_cons]
    show (Builder.deliver (.object (fieldNode f :: before).reverse) frames).after? ts = _
    rw [List.reverse_cons]
    rfl
  | f :: g :: fs, _ => by
    rw [fieldsTokens_cons₂, List.append_assoc, after?_fieldTokens he before last f,
      List.cons_append, Builder.after?_cons]
    show Builder.after? ⟨.object (fieldNode f :: before) _ :: frames, .field, none⟩ _ = _
    rw [after?_fieldsTokens (.inr rfl) (fieldNode f :: before) _ (g :: fs) nofun, List.reverse_cons,
      List.append_assoc]
    rfl

theorem after?_fieldTokens {frames : List Frame} {e : Expecting} {ts : List Token}
    (he : e = .fieldOrClose ∨ e = .field) (before : List (List Char × Node)) (last : List Char) :
    (f : String × Json) →
      Builder.after? ⟨.object before last :: frames, e, none⟩ (fieldTokens f ++ ts) =
        Builder.after? ⟨.object (fieldNode f :: before) (rawString f.1) :: frames, .commaOrClose, none⟩
          ts
  | (name, j) => by
    have hname : Builder.step? ⟨.object before last :: frames, e, none⟩ (.string (rawString name)) =
        some ⟨.object before (rawString name) :: frames, .colon, none⟩ := by
      rcases he with rfl | rfl <;> rfl
    rw [fieldTokens, List.cons_append, List.cons_append, Builder.after?_cons, hname,
      Option.bind_some, Builder.after?_cons]
    show Builder.after? ⟨.object before (rawString name) :: frames, .value, none⟩ _ = _
    rw [after?_tokens (.inl rfl) j]
    rfl
end

/-- The tree of a value's tokens. -/
theorem ofTokens?_tokens (j : Json) : Node.ofTokens? j.tokens = some j.node := by
  have h := @after?_tokens [] .value [] (.inl rfl) j
  rw [List.append_nil] at h
  show (Node.Builder.after? ⟨[], .value, none⟩ j.tokens).bind Node.Builder.root = _
  rw [h]
  rfl

/-- The tree of a value's text. -/
theorem Node.parse?_text {depth : Nat} {j : Json} (h : j.fits depth = true) :
    Node.parse? j.text = some j.node := by
  rw [Node.parse?, text, String.toList_ofList, scan_chars h, Option.bind_some, ofTokens?_tokens]

/-! ## Reading the value -/

/-- A field of a greater name goes to the end. -/
theorem insertField_of_lt {name : String} {value : Json} {fs : List (String × Json)}
    (h : ∀ f ∈ fs, f.1 < name) : insertField name value fs = fs ++ [(name, value)] := by
  induction fs with
  | nil => rfl
  | cons f fs ih =>
    have hf := h f List.mem_cons_self
    rw [insertField, if_neg (String.lt_asymm hf), if_neg (String.ne_of_lt hf).symm,
      ih fun g hg => h g (List.mem_cons_of_mem _ hg), List.cons_append]

/-- Fields in order are an object as they are. -/
theorem ofFields_of_pairwise {fs : List (String × Json)} (h : fs.Pairwise fun f g => f.1 < g.1) :
    ofFields fs = .object fs := by
  have hfold : ∀ (before fs : List (String × Json)),
      (before ++ fs).Pairwise (fun f g => f.1 < g.1) →
      fs.foldl (fun fs (n, v) => insertField n v fs) before = before ++ fs := by
    intro before fs
    induction fs generalizing before with
    | nil => intro _; simp
    | cons f fs ih =>
      intro h
      obtain ⟨name, value⟩ := f
      have hlt : ∀ g ∈ before, g.1 < name := fun g hg =>
        (List.pairwise_append.1 h).2.2 g hg _ List.mem_cons_self
      rw [List.foldl_cons]
      show List.foldl _ (insertField name value before) fs = _
      rw [insertField_of_lt hlt, ih _ (by rwa [List.append_assoc]), List.append_assoc]
      rfl
  rw [ofFields, hfold [] fs h, List.nil_append]

mutual
/-- The tree of a value that is not nested too deep has that value. -/
theorem value?_node {depth : Nat} : (j : Json) → j.fits depth = true → j.node.value? depth = some j
  | .null, _ | .bool _, _ => rfl
  | .number (.integer n), h => by
    rw [fits, decide_eq_true_eq] at h
    show (Number.ofText? (toString n)).map Json.number = _
    rw [Number.ofText?_toString h]
    rfl
  | .string s, _ => by
    show (decodeString? (s.toList.flatMap encodeChar)).map Json.string = _
    rw [decodeString?_encode]
    rfl
  | .array es, h => by
    rw [fits, Bool.and_eq_true, decide_eq_true_eq] at h
    rw [node, Node.value?, if_neg (by omega), elements?_nodes es h.2]
    rfl
  | .object fs, h => by
    rw [fits, Bool.and_eq_true, Bool.and_eq_true, decide_eq_true_eq, decide_eq_true_eq] at h
    rw [node, Node.value?, if_neg (by omega), fields?_nodes fs h.2, Option.map_some,
      ofFields_of_pairwise h.1.2]

theorem elements?_nodes {depth : Nat} :
    (es : List Json) → elementsFit depth es = true → Node.elements? depth (elementNodes es) = some es
  | [], _ => rfl
  | j :: js, h => by
    rw [elementsFit, Bool.and_eq_true] at h
    rw [elementNodes, Node.elements?, value?_node j h.1, elements?_nodes js h.2]
    rfl

theorem fields?_nodes {depth : Nat} :
    (fs : List (String × Json)) → fieldsFit depth fs = true →
      Node.fields? depth (fieldNodes fs) = some fs
  | [], _ => rfl
  | f :: fs, h => by
    rw [fieldsFit, Bool.and_eq_true] at h
    rw [fieldNodes, Node.fields?, field?_node f h.1, fields?_nodes fs h.2]
    rfl

theorem field?_node {depth : Nat} :
    (f : String × Json) → fieldFits depth f = true → Node.field? depth (fieldNode f) = some f
  | (name, j), h => by
    rw [fieldNode, Node.field?, rawString, decodeString?_encode, value?_node j h]
    rfl
end

/-- A value of bounded depth and integers of 64 bits is read back from its text. -/
theorem parse?_text {j : Json} (h : j.fits maxDepth = true) : parse? j.text = some j := by
  rw [parse?, Node.parse?_text h, Option.bind_some, value?_node j h]

end DueWork.Json
