/-
  The grammar of written predicates.

  A text is cut at its semicolons, and each part that is not blank has to stand
  for a clause: a name, an equals sign and a value (`Clause.IsPart`,
  `Clause.ofPart`).  The parser trims a part before it cuts it, the grammar
  trims what it is cut into (`cutAt_trimChars`).

  * `addPart_of_isPart` and `addPart_of_not_isPart`: what one part adds, or
    that it is refused;
  * `parse_of_isPart` and `parse_of_not_isPart`: the same of a whole text;
  * `parse_written`: a predicate is read back from its clauses;
  * `predicates_are_read_by_their_grammar` collects this.
-/
import DueWork.Proofs.Partition.Clauses
import DueWork.Proofs.Text.Identifier

namespace DueWork

open Text

variable {p : Predicate} {c : Clause} {cs : List Clause} {s : String} {part : List Char}
variable {ps : List (List Char)}

namespace Clause

/-- The clause that a part of a text stands for: what is before and after its
    first equals sign, trimmed. -/
def ofPart (part : List Char) : Clause where
  name := .ofList (trimChars (part.takeWhile (· != '=')))
  value := .ofList (trimChars (part.dropWhile (· != '=')).tail)

/-- A part that stands for a clause: it has an equals sign, and before it an
    identifier. -/
def IsPart (part : List Char) : Prop :=
  '=' ∈ part ∧ IsWord (trimChars (part.takeWhile (· != '=')))

instance (part : List Char) : Decidable (IsPart part) := inferInstanceAs (Decidable (_ ∧ _))

/-- A clause as it is written. -/
def written (c : Clause) : String := c.name ++ "=" ++ c.value

/-- A clause that is read as it is written: its name is an identifier, and its
    value has no semicolon in it and no blank at its ends. -/
def IsPlain (c : Clause) : Prop :=
  isIdentifier c.name = true ∧ ';' ∉ c.value.toList ∧ trim c.value = c.value

instance (c : Clause) : Decidable c.IsPlain := inferInstanceAs (Decidable (_ ∧ _))

end Clause

/-- The clauses as they are written, with semicolons between them. -/
def Predicate.written (p : Predicate) : String :=
  String.intercalate ";" (p.clauses.map Clause.written)

namespace Predicate

/-! ## One part -/

theorem isIdentifier_ofPart :
    isIdentifier (Clause.ofPart part).name = true ↔
      IsWord (trimChars (part.takeWhile (· != '='))) := by
  rw [isIdentifier_iff, Clause.ofPart, String.toList_ofList]

/-- It makes no difference whether a part is trimmed before it is cut. -/
theorem cutAt_trimChars (h : '=' ∈ part) :
    ∃ before after, cutAt '=' (trimChars part) = some (before, after) ∧
      String.ofList (trimChars before) = (Clause.ofPart part).name ∧
      String.ofList (trimChars after) = (Clause.ofPart part).value := by
  obtain ⟨l, r, hpart, hl, hr⟩ := exists_trimChars part
  have hnot {cs : List Char} (hblank : ∀ c ∈ cs, isBlank c = true) : '=' ∉ cs :=
    fun hmem => absurd (hblank _ hmem) (by decide)
  have hmem : '=' ∈ trimChars part := by
    rw [hpart, List.mem_append, List.mem_append] at h
    exact (h.resolve_right (hnot hr)).resolve_left (hnot hl)
  obtain ⟨before, after, hcut⟩ := exists_cutAt hmem
  obtain ⟨htrim, hbefore⟩ := cutAt_eq_some hcut
  have hfirst : '=' ∉ l ++ before := List.mem_append.not.2 (not_or.2 ⟨hnot hl, hbefore⟩)
  have hsplit : part = (l ++ before) ++ '=' :: (after ++ r) := by
    rw [hpart, htrim]
    simp
  refine ⟨before, after, hcut, ?_, ?_⟩
  · rw [Clause.ofPart, hsplit, takeWhile_cut hfirst, trimChars_append_left hl]
  · rw [Clause.ofPart, hsplit, dropWhile_cut hfirst, trimChars_append_right hr]

/-- Reading one part of a text, which was trimmed. -/
def addPart (p : Predicate) (part : List Char) : Except Error Predicate :=
  p.addClause (.ofList (trimChars part))

theorem addPart_of_isPart (h : Clause.IsPart part) :
    p.addPart part = .ok (p.and (Clause.ofPart part).name (Clause.ofPart part).value) := by
  obtain ⟨before, after, hcut, hname, hvalue⟩ := cutAt_trimChars h.1
  rw [addPart, addClause, String.toList_ofList, hcut]
  simp only [hname, hvalue, requireIdentifier, isIdentifier_ofPart.2 h.2, if_true]
  rfl

theorem addPart_of_not_isPart (h : ¬Clause.IsPart part) :
    ∃ m, p.addPart part = .error (.configuration m) := by
  rw [addPart, addClause, String.toList_ofList]
  by_cases hmem : '=' ∈ part
  · obtain ⟨before, after, hcut, hname, hvalue⟩ := cutAt_trimChars hmem
    have hword : ¬isIdentifier (Clause.ofPart part).name = true :=
      fun hid => h ⟨hmem, isIdentifier_ofPart.1 hid⟩
    rw [hcut]
    simp only [hname, requireIdentifier, if_neg hword]
    exact ⟨_, rfl⟩
  · obtain ⟨l, r, hpart, -, -⟩ := exists_trimChars part
    have hnone : cutAt '=' (trimChars part) = none :=
      cutAt_eq_none fun hin => hmem (by rw [hpart]; simp [hin])
    rw [hnone]
    exact ⟨_, rfl⟩

/-! ## All parts -/

theorem foldlM_of_isPart (h : ∀ part ∈ ps, Clause.IsPart part) :
    ps.foldlM addPart p = .ok (p.andAll (ps.map Clause.ofPart)) := by
  induction ps generalizing p with
  | nil => rfl
  | cons part ps ih =>
    obtain ⟨hpart, hps⟩ := List.forall_mem_cons.1 h
    rw [List.foldlM_cons, addPart_of_isPart hpart]
    exact ih hps

theorem foldlM_of_not_isPart (h : ∃ part ∈ ps, ¬Clause.IsPart part) :
    ∃ m, ps.foldlM addPart p = .error (.configuration m) := by
  induction ps generalizing p with
  | nil => simp at h
  | cons part ps ih =>
    rw [List.foldlM_cons]
    by_cases hpart : Clause.IsPart part
    · rw [addPart_of_isPart hpart]
      exact ih (by simpa [hpart] using h)
    · obtain ⟨m, hm⟩ := addPart_of_not_isPart (p := p) hpart
      rw [hm]
      exact ⟨m, rfl⟩

theorem parse_eq (s : String) : parse s = (parts ';' s).foldlM addPart all := by
  rw [parse, splitList_eq, List.foldlM_map]
  rfl

theorem parse_of_isPart (h : ∀ part ∈ parts ';' s, Clause.IsPart part) :
    parse s = .ok (all.andAll ((parts ';' s).map Clause.ofPart)) := by
  rw [parse_eq, foldlM_of_isPart h]

theorem parse_of_not_isPart (h : ∃ part ∈ parts ';' s, ¬Clause.IsPart part) :
    ∃ m, parse s = .error (.configuration m) := by
  rw [parse_eq]
  exact foldlM_of_not_isPart h

theorem parse_iff : parse s = .ok p ↔
    (∀ part ∈ parts ';' s, Clause.IsPart part) ∧
      p = all.andAll ((parts ';' s).map Clause.ofPart) := by
  by_cases h : ∀ part ∈ parts ';' s, Clause.IsPart part
  · rw [parse_of_isPart h, and_iff_right h, Except.ok.injEq, eq_comm]
  · obtain ⟨m, hm⟩ := parse_of_not_isPart (by simpa using h)
    rw [hm]
    exact iff_of_false nofun fun hp => h hp.1

/-! ## Reading back -/

/-- A clause that is plain stands in its own part. -/
theorem isPart_written (h : c.IsPlain) :
    Clause.IsPart c.written.toList ∧ Clause.ofPart c.written.toList = c ∧
      ';' ∉ c.written.toList ∧ (c.written.toList.any fun d => !isBlank d) = true := by
  obtain ⟨hname, hvalue, htrim⟩ := h
  rw [isIdentifier_iff] at hname
  have hwritten : c.written.toList = c.name.toList ++ '=' :: c.value.toList := by
    simp [Clause.written]
  have hmark : ¬IsWordRest '=' := fun h => by have := h.toNat; simp at this
  have hsemicolon : ¬IsWordRest ';' := fun h => by have := h.toNat; simp at this
  have heq : '=' ∉ c.name.toList := notMem_of_isWord hname hmark
  have hblank : trimChars c.name.toList = c.name.toList :=
    trimChars_of_not_isBlank (not_isBlank_of_isWord hname)
  rw [hwritten]
  refine ⟨⟨by simp, ?_⟩, ?_, ?_, ?_⟩
  · rw [takeWhile_cut heq, hblank]
    exact hname
  · rw [Clause.ofPart, takeWhile_cut heq, dropWhile_cut heq, hblank, String.ofList_toList]
    exact congrArg (Clause.mk c.name) htrim
  · simp [notMem_of_isWord hname hsemicolon, hvalue]
  · rw [List.any_append, List.any_cons]
    simp [isBlank]

theorem parts_written (h : ∀ c ∈ p.clauses, c.IsPlain) :
    parts ';' p.written = p.clauses.map fun c => c.written.toList := by
  rw [parts, written, String.toList_intercalate, List.map_map]
  cases hcs : p.clauses with
  | nil => rfl
  | cons c cs =>
    have hsep : ∀ l ∈ (c :: cs).map (String.toList ∘ Clause.written), ';' ∉ l := by
      intro l hl
      obtain ⟨d, hd, rfl⟩ := List.mem_map.1 hl
      exact (isPart_written (h d (hcs ▸ hd))).2.2.1
    rw [show (";" : String).toList = [';'] from rfl, List.splitOn_intercalate _ hsep (by simp)]
    refine List.filter_eq_self.2 fun l hl => ?_
    obtain ⟨d, hd, rfl⟩ := List.mem_map.1 hl
    exact (isPart_written (h d (hcs ▸ hd))).2.2.2

theorem parse_written (hp : p = all.andAll cs) (h : ∀ c ∈ p.clauses, c.IsPlain) :
    parse p.written = .ok p := by
  have hparts := parts_written h
  refine parse_iff.2 ⟨?_, ?_⟩
  · rw [hparts]
    intro part hpart
    obtain ⟨c, hc, rfl⟩ := List.mem_map.1 hpart
    exact (isPart_written (h c hc)).1
  · have hclauses : (parts ';' p.written).map Clause.ofPart = p.clauses := by
      rw [hparts, List.map_map]
      refine (List.map_congr_left fun c hc => ?_).trans (List.map_id _)
      exact (isPart_written (h c hc)).2.1
    rw [hclauses, hp, andAll_clauses]

/-- **Predicates are read by their grammar.**  A text is a predicate if each of
    its parts stands for a clause, and no other text is; its clauses are those
    of the parts, each where it comes first; and what is read of the clauses of
    a predicate is that predicate. -/
theorem predicates_are_read_by_their_grammar :
    (∀ s, (∃ p, parse s = .ok p) ↔ ∀ part ∈ parts ';' s, Clause.IsPart part) ∧
    (∀ s, (∃ p, parse s = .ok p) ∨ ∃ m, parse s = .error (.configuration m)) ∧
    (∀ s p, parse s = .ok p →
      p.clauses = ((parts ';' s).map Clause.ofPart).eraseDups ∧
      ∀ a, p.accepts a = true ↔ ∀ part ∈ parts ';' s,
        a.get? (Clause.ofPart part).name = some (Clause.ofPart part).value) ∧
    ∀ p cs, p = all.andAll cs → (∀ c ∈ p.clauses, c.IsPlain) → parse p.written = .ok p := by
  refine ⟨fun s => ?_, fun s => ?_, fun s p h => ?_, fun p cs => parse_written⟩
  · exact ⟨fun ⟨_, h⟩ => (parse_iff.1 h).1, fun h => ⟨_, parse_of_isPart h⟩⟩
  · by_cases h : ∀ part ∈ parts ';' s, Clause.IsPart part
    · exact .inl ⟨_, parse_of_isPart h⟩
    · exact .inr (parse_of_not_isPart (by simpa using h))
  · obtain ⟨-, rfl⟩ := parse_iff.1 h
    have hnone : all.clauses = ([] : List Clause).eraseDups := rfl
    refine ⟨clauses_andAll hnone, fun a => ?_⟩
    · have hall : all.accepts a = true := accepts_iff.2 (by simp [all])
      rw [accepts_andAll, and_iff_right hall, List.forall_mem_map]

/-- A value may have an equals sign in it or be empty; the second of two equal
    clauses is left out when the predicate is written again, and what stands
    before the equals sign is needed. -/
theorem predicates_are_read_by_their_grammar_again :
    (∃ p, parse " tenant = a=b ;; x=; tenant=a=b" = .ok p ∧
      p.clauses = [⟨"tenant", "a=b"⟩, ⟨"x", ""⟩] ∧ p.written = "tenant=a=b;x=" ∧
      parse p.written = .ok p) ∧
    ¬∃ p, parse "tenant=a; =b" = .ok p := by
  obtain ⟨hiff, -, hread, hback⟩ := predicates_are_read_by_their_grammar
  constructor
  · have hp : parse " tenant = a=b ;; x=; tenant=a=b" =
        .ok (all.andAll [⟨"tenant", "a=b"⟩, ⟨"x", ""⟩]) := by decide +kernel
    have hclauses := (hread _ _ hp).1
    exact ⟨_, hp, hclauses.trans (by decide +kernel), by decide +kernel,
      hback _ _ rfl (by decide +kernel)⟩
  · rw [hiff]
    intro h
    have hpart : " =b".toList ∈ parts ';' "tenant=a; =b" := by decide +kernel
    exact absurd (h _ hpart) (by decide)

end Predicate

end DueWork
