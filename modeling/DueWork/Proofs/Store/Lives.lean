/-
  The life of instances in memory and in a database.

  Both stores behave as `Behaves` asks, each for reasons of its own: the one in
  memory changes the fields of an instance, the other writes cells of a row.
  So both have the same `Lifecycle` from the empty store on.  That the database
  is `Lawful` as well follows from the same statements.
-/
import DueWork.Proofs.Store.Lifecycle
import DueWork.Proofs.Store.Memory
import DueWork.Proofs.Store.Statements

namespace DueWork

open Time Store

/-- No state that follows on running is running. -/
theorem State.CanBecome.ne_running {t : State} (h : State.running.CanBecome t) :
    (t == .running) = false := by
  cases h with
  | claim h => cases h
  | _ => rfl

/-! ## In memory -/

namespace MemoryStore

/-- Instances in memory are their own records. -/
def view :
    View MemoryStore Job (Int × String × String × Attributes × Option Json × Instant) where
  find? := find?
  state? j := some j.state
  isClaimed j := j.claimedAt.isSome
  origin j := (j.id, j.instanceType, j.jobRef, j.attributes, j.payload, j.createdAt)

variable {s s' : MemoryStore} {k : Key} {id : Int} {now : Instant}

/-- Changing one instance moves it and no other. -/
theorem moves_updateAt {f : Job → Job} {keepsId : ∀ j, (f j).id = j.id} {j : Job} {t : State}
    (hj : s.find? id = some j) (hmove : IsMove view j (f j) j.state t) :
    Moves view id s (s.updateAt id f keepsId) j.state t := by
  refine ⟨⟨j, f j, hj, ?_, hmove⟩, fun i hi => ?_⟩
  · show (s.updateAt id f keepsId).find? id = _
    rw [find?_updateAt, if_pos rfl, hj, Option.map_some]
  · show (s.updateAt id f keepsId).find? i = _
    rw [find?_updateAt, if_neg hi]
    rfl

theorem behaves : Behaves view (fun _ => True) fun _ => True where
  inv _ _ _ := trivial
  failed {s s' c e now} _ _ h := by
    cases c with
    | countReady | fetchReady | nextDue | get => exact (Prod.mk.inj h).2.symm
    | claim k id e => exact claim_error (answering_eq_error h)
    | commit k id t => exact commit_error (answering_eq_error h)
    | insert | resetStale => cases answering_eq_error h
  claim {s s' now k id e won} _ _ h := by
    obtain ⟨rfl, rfl, -⟩ | ⟨rfl, hready, j, hj, rfl, -, rfl⟩ := claim_ok h
    · exact .inl ⟨rfl, rfl⟩
    · exact .inr ⟨rfl, hready, moves_updateAt hj ⟨rfl, rfl, rfl, rfl⟩⟩
  commit {s s' now k id t} _ _ h := by
    obtain ⟨ht, j, hj, hrun, rfl⟩ := commit_ok h
    have hnext := canBecome_of_require ht
    exact ⟨hnext, hrun ▸ moves_updateAt hj ⟨rfl, rfl, hnext.ne_running.symm, rfl⟩⟩
  insert {s s' now job id} _ _ h := by
    cases h
    refine ⟨find?_of_lastId_lt (Int.lt_succ _), ⟨job.toJob (s.lastId + 1) now, ?_, rfl, rfl⟩,
      fun i hi => ?_⟩
    · exact find?_append.trans (if_pos rfl)
    · exact find?_append.trans (if_neg hi)
  resetStale {s s' now k cutoff n} _ _ h := by
    cases h
    refine ⟨fun hzero => ?_, fun i => ?_⟩
    · show s.update (fun j => if isStale k cutoff j then unclaim j else j)
        (fun j => by split <;> rfl) = s
      exact update_of_none hzero
    · show (s.resetStale k cutoff).2.find? i = s.find? i ∨ _
      rw [find?_resetStale]
      cases hj : s.find? i with
      | none => exact .inl rfl
      | some j =>
        by_cases hstale : isStale k cutoff j = true
        · refine .inr ⟨j, unclaim j, hj, ?_, ?_, rfl, rfl, rfl⟩
          · exact find?_resetStale.trans (by rw [hj, Option.map_some, if_pos hstale])
          · simp only [isStale, Bool.and_eq_true, beq_iff_eq] at hstale
            exact congrArg some hstale.1.1
        · exact .inl (by rw [Option.map_some, if_neg hstale])

end MemoryStore

/-! ## In a database -/

/-- The key of a call that goes by one. -/
def Store.Call.key? : Call → Option Key
  | .countReady k _ | .fetchReady k _ _ | .claim k _ _ | .commit k _ _ | .nextDue k
  | .resetStale k _ => some k
  | .insert _ | .get _ _ => none

/-- The columns of the key go by their usual names. -/
def Store.Call.HasUsualColumns (c : Call) : Prop := ∀ k, c.key? = some k → k.UsualColumns

/-- A call that only asks. -/
def Store.Call.IsRead : Call → Prop
  | .countReady _ _ | .fetchReady _ _ _ | .nextDue _ | .get _ _ => True
  | .claim _ _ _ | .commit _ _ _ | .insert _ | .resetStale _ _ => False

namespace Database

/-- The records of a database are the rows of the table of job instances. -/
def view : View Database Row (Cell × Cell × Cell × Cell × Cell) where
  find? d id := (d.table? defaultInstanceType).bind fun t => t.rows.find? fun r => r .id == .int id
  state? r := match r .state with
    | .text s => State.ofName? s
    | _ => none
  isClaimed r := r .claimedAt != .null
  origin r := (r .id, r .jobRef, r .attributes, r .payload, r .createdAt)

variable {s : Entries} {d d' : Database} {k : Key} {id : Int} {now : Instant}

theorem view_find? (s : Entries) (id : Int) :
    view.find? s.database id = (s.find? id).map Entry.row := by
  show (s.database.table? defaultInstanceType).bind _ = _
  rw [table?_database, if_pos isDefaultTable_default]
  exact find?_rows id

theorem view_state? (e : Entry) : view.state? e.row = some e.state := State.ofName?_name e.state

theorem view_isClaimed (e : Entry) : view.isClaimed e.row = e.claimedAt.isSome := by
  show (Cell.ofInt e.claimedAt != .null) = _
  cases e.claimedAt <;> rfl

/-- A database with entries in the table of job instances. -/
def HasEntries (d : Database) : Prop := ∃ s : Entries, d = s.database

/-- An entry in another state, with its origin. -/
theorem isMove_row {e f : Entry} (hclaimed : f.claimedAt.isSome = (f.state == .running))
    (horigin : view.origin f.row = view.origin e.row) :
    IsMove view e.row f.row e.state f.state :=
  ⟨view_state? e, view_state? f, (view_isClaimed f).trans hclaimed, horigin⟩

/-- Changing the entry with an id moves it and no other. -/
theorem moves_update {p : Entry → Bool} {g : Entry → Entry} {keepsId : ∀ e, (g e).id = e.id}
    {e : Entry} {t : State} (hp : ∀ e, p e = true → e.id = id) (he : s.find? id = some e)
    (hpe : p e = true) (hmove : IsMove view e.row (g e).row e.state t) :
    Moves view id s.database (s.update p g keepsId).database e.state t := by
  refine ⟨⟨e.row, (g e).row, ?_, ?_, hmove⟩, fun i hi => ?_⟩
  · rw [view_find?, he, Option.map_some]
  · rw [view_find?, Entries.find?_update, he, Option.map_some, if_pos hpe, Option.map_some]
  · rw [view_find?, view_find?, Entries.find?_update]
    cases hf : s.find? i with
    | none => rfl
    | some f =>
      have hid : f.id = i := (Entries.find?_eq_some.1 hf).2
      rw [Option.map_some, if_neg fun hpf => hi (hid.symm.trans (hp f hpf))]

/-! What the statements leave behind. -/

/-- Only in the table of job instances a claim is won or lost. -/
theorem isDefaultTable_of_claim {expected : State} {won : Bool}
    (h : JobStore.claim s.database k id expected now = (.ok won, d')) :
    isDefaultTable k.instanceType = true := by
  by_contra hn
  obtain ⟨u, -, h⟩ := bind_eq_ok (execute_ok h)
  rw [table_database_of_not hn] at h
  cases h

theorem claim_ok {expected : State} {won : Bool} (hk : k.UsualColumns)
    (h : JobStore.claim s.database k id expected now = (.ok won, d')) :
    won = false ∧ d' = s.database ∧
      (∀ e, s.find? id = some e → k.predicate.accepts e.attributes = true → e.state ≠ expected) ∨
    won = true ∧ expected.isClaimable = true ∧ ∃ e, s.find? id = some e ∧
      Entry.isClaimable k id expected e = true ∧
      d' = (s.update (Entry.isClaimable k id expected) (Entry.claim now)
        (Entry.id_claim now)).database := by
  rw [claim_database hk (isDefaultTable_of_claim h)] at h
  cases hready : requireClaimable id expected with
  | error e =>
    rw [hready] at h
    cases h
  | ok u =>
    rw [hready] at h
    cases h
    cases hwon : s.list.any (Entry.isClaimable k id expected) with
    | false =>
      refine .inl ⟨rfl, by rw [Entries.update_of_none hwon], fun e he haccepts hstate => ?_⟩
      obtain ⟨hmem, hid⟩ := Entries.find?_eq_some.1 he
      exact List.any_eq_false.1 hwon e hmem (Entry.isClaimable_iff.2 ⟨hid, hstate, haccepts⟩)
    | true =>
      obtain ⟨e, hmem, he⟩ := List.any_eq_true.1 hwon
      exact .inr ⟨rfl, isClaimable_of_require hready, e,
        Entries.find?_eq_some.2 ⟨hmem, (Entry.isClaimable_iff.1 he).1⟩, he, rfl⟩

/-- What a commit may be answered, and what it leaves. -/
theorem commit_cases {t : Transition} {r : Except Error Unit} (hk : k.UsualColumns)
    (h : JobStore.commit s.database k id t now = (r, d')) :
    (∃ e, r = .error e) ∧ d' = s.database ∨
    r = .ok () ∧ State.running.CanBecome t.state ∧ (∃ e, s.find? id = some e ∧ e.state = .running) ∧
      d' = (s.update (Entry.isRunning id) (Entry.commit t now) (Entry.id_commit t now)).database := by
  by_cases htable : isDefaultTable k.instanceType = true
  · rw [commit_database hk htable] at h
    cases hnext : requireOutcome t with
    | error e =>
      rw [hnext] at h
      cases h
      exact .inl ⟨⟨_, rfl⟩, rfl⟩
    | ok u =>
      rw [hnext] at h
      cases he : s.find? id with
      | none =>
        simp only [he] at h
        cases h
        exact .inl ⟨⟨_, rfl⟩, rfl⟩
      | some e =>
        simp only [he] at h
        split at h
        case isTrue hrun =>
          cases h
          exact .inr ⟨rfl, canBecome_of_require hnext, ⟨e, rfl, hrun⟩, rfl⟩
        case isFalse =>
          cases h
          exact .inl ⟨⟨_, rfl⟩, rfl⟩
  · have hrefused : ∃ e, s.database.writeOutcome k id t now = .error e := by
      rw [writeOutcome]
      cases requireOutcome t with
      | error e => exact ⟨e, rfl⟩
      | ok u =>
        rw [table_database_of_not htable]
        exact ⟨_, rfl⟩
    obtain ⟨e, he⟩ := hrefused
    have hcommit : JobStore.commit s.database k id t now = (.error e, s.database) := by
      show s.database.commit k id t now = _
      rw [commit, he]
      rfl
    cases hcommit.symm.trans h
    exact .inl ⟨⟨e, rfl⟩, rfl⟩

theorem commit_ok {t : Transition} (hk : k.UsualColumns)
    (h : JobStore.commit s.database k id t now = (.ok (), d')) :
    State.running.CanBecome t.state ∧ (∃ e, s.find? id = some e ∧ e.state = .running) ∧
      d' = (s.update (Entry.isRunning id) (Entry.commit t now) (Entry.id_commit t now)).database := by
  obtain ⟨⟨e, he⟩, -⟩ | ⟨-, h⟩ := commit_cases hk h
  · cases he
  · exact h

/-- A commit that is refused changes nothing. -/
theorem commit_error {t : Transition} {e : Error} (hk : k.UsualColumns)
    (h : JobStore.commit s.database k id t now = (.error e, d')) : d' = s.database := by
  obtain ⟨-, h⟩ | ⟨he, -⟩ := commit_cases hk h
  · exact h
  · cases he

theorem insert_ok {job : NewJob} (h : JobStore.insert s.database job now = (.ok id, d')) :
    id = s.lastId + 1 ∧ d' = (s.append job now).database := by
  replace h : s.database.insert job now = .ok (id, d') := execute_ok h
  have htable : isDefaultTable job.instanceType = true := by
    by_contra hn
    obtain ⟨u, -, h⟩ := bind_eq_ok h
    rw [table_database_of_not hn] at h
    cases h
  rw [insert_database htable] at h
  obtain ⟨u, -, h⟩ := bind_eq_ok h
  split at h
  case isTrue => cases h
  case isFalse =>
    cases h
    exact ⟨rfl, rfl⟩

theorem resetStale_ok {cutoff : Instant} {n : Nat} (hk : k.UsualColumns)
    (h : JobStore.resetStale s.database k cutoff now = (.ok n, d')) :
    n = s.list.countP (Entry.isStale k cutoff) ∧
      d' = (s.update (Entry.isStale k cutoff) (Entry.unclaim now) (Entry.id_unclaim now)).database := by
  have htable : isDefaultTable k.instanceType = true := by
    by_contra hn
    have h : s.database.resetStale k cutoff now = .ok (n, d') := execute_ok h
    rw [resetStale, table_database_of_not hn] at h
    cases h
  rw [resetStale_database hk htable] at h
  cases h
  exact ⟨rfl, rfl⟩

/-- A call that fails leaves the entries as they were. -/
theorem step_error {c : Call} {e : Error} (hc : c.HasUsualColumns)
    (h : step s.database now c = (.error e, d')) : d' = s.database := by
  cases c with
  | countReady | fetchReady | nextDue | get => exact (Prod.mk.inj h).2.symm
  | commit k id t => exact commit_error (hc k rfl) (answering_eq_error h)
  | claim | insert | resetStale => exact (execute_error (answering_eq_error h)).2

/-- What one call makes of the entries, by its answer. -/
inductive Change (s : Entries) (now : Instant) : Call → Except Error Answer → Entries → Prop
  | refused {c : Call} {e : Error} : Change s now c (.error e) s
  | read {c : Call} {a : Answer} (h : c.IsRead) : Change s now c (.ok a) s
  | lost {k : Key} {id : Int} {e : State} : Change s now (.claim k id e) (.ok (.won false)) s
  | won {k : Key} {id : Int} {e : State} : Change s now (.claim k id e) (.ok (.won true))
      (s.update (Entry.isClaimable k id e) (Entry.claim now) (Entry.id_claim now))
  | committed {k : Key} {id : Int} {t : Transition} {e : Entry} (he : s.find? id = some e)
    (hrun : e.state = .running) : Change s now (.commit k id t) (.ok .committed)
      (s.update (Entry.isRunning id) (Entry.commit t now) (Entry.id_commit t now))
  | inserted {job : NewJob} : Change s now (.insert job) (.ok (.inserted (s.lastId + 1)))
      (s.append job now)
  | reset {k : Key} {cutoff : Instant} {n : Nat} :
    Change s now (.resetStale k cutoff) (.ok (.reset n))
      (s.update (Entry.isStale k cutoff) (Entry.unclaim now) (Entry.id_unclaim now))

/-- One call leaves entries in the table. -/
theorem step_change (s : Entries) (now : Instant) {c : Call} (hc : c.HasUsualColumns) :
    ∃ s' : Entries, (step s.database now c).2 = s'.database ∧
      Change s now c (step s.database now c).1 s' := by
  cases hstep : step s.database now c with
  | mk answer d' =>
    cases answer with
    | error e => exact ⟨s, step_error hc hstep, .refused⟩
    | ok a =>
      cases c with
      | countReady | fetchReady | nextDue | get => exact ⟨s, (Prod.mk.inj hstep).2.symm, .read trivial⟩
      | claim k id e =>
        obtain ⟨won, hclaim, rfl⟩ := answering_eq_ok hstep
        obtain ⟨rfl, rfl, -⟩ | ⟨rfl, -, e, -, -, rfl⟩ := claim_ok (hc k rfl) hclaim
        · exact ⟨s, rfl, .lost⟩
        · exact ⟨_, rfl, .won⟩
      | commit k id t =>
        obtain ⟨_, hcommit, rfl⟩ := answering_eq_ok hstep
        obtain ⟨-, ⟨e, he, hrun⟩, rfl⟩ := commit_ok (hc k rfl) hcommit
        exact ⟨_, rfl, .committed he hrun⟩
      | insert job =>
        obtain ⟨id, hinsert, rfl⟩ := answering_eq_ok hstep
        obtain ⟨rfl, rfl⟩ := insert_ok hinsert
        exact ⟨_, rfl, .inserted⟩
      | resetStale k cutoff =>
        obtain ⟨n, hreset, rfl⟩ := answering_eq_ok hstep
        obtain ⟨-, rfl⟩ := resetStale_ok (hc k rfl) hreset
        exact ⟨_, rfl, .reset⟩

/-- One call uses one id at most. -/
theorem step_database (s : Entries) (now : Instant) {c : Call} (hc : c.HasUsualColumns) :
    ∃ s' : Entries, (step s.database now c).2 = s'.database ∧ s'.lastId ≤ s.lastId + 1 := by
  obtain ⟨s', hs', hchange⟩ := step_change s now hc
  refine ⟨s', hs', ?_⟩
  generalize (step s.database now c).1 = a at hchange
  cases hchange with
  | inserted => exact Int.le_refl _
  | refused | read | lost | won | committed | reset => exact Int.le_add_one (Int.le_refl _)

theorem after_database (s : Entries) {cs : List (Instant × Call)}
    (hcs : ∀ x ∈ cs, x.2.HasUsualColumns) :
    ∃ s' : Entries, after s.database cs = s'.database ∧ s'.lastId ≤ s.lastId + cs.length := by
  induction cs generalizing s with
  | nil => exact ⟨s, rfl, by simp⟩
  | cons x cs ih =>
    obtain ⟨s₁, h₁, hle₁⟩ := step_database s x.1 (hcs x List.mem_cons_self)
    obtain ⟨s₂, h₂, hle₂⟩ := ih s₁ fun y hy => hcs y (List.mem_cons_of_mem _ hy)
    refine ⟨s₂, ?_, by simp only [List.length_cons]; omega⟩
    rw [after_cons, h₁, h₂]

theorem behaves : Behaves view Call.HasUsualColumns HasEntries where
  inv := by
    rintro _ c now ⟨s, rfl⟩ hc
    obtain ⟨s', h, -⟩ := step_database s now hc
    exact ⟨s', h⟩
  failed := by
    rintro _ d' c e now ⟨s, rfl⟩ hc h
    exact step_error hc h
  claim := by
    rintro _ d' now k id e won ⟨s, rfl⟩ hc h
    obtain ⟨rfl, rfl, -⟩ | ⟨rfl, hready, f, hf, hpf, rfl⟩ := claim_ok (hc k rfl) h
    · exact .inl ⟨rfl, rfl⟩
    · obtain ⟨-, rfl, -⟩ := Entry.isClaimable_iff.1 hpf
      exact .inr ⟨rfl, hready, moves_update (fun g hg => (Entry.isClaimable_iff.1 hg).1) hf hpf
        (isMove_row rfl rfl)⟩
  commit := by
    rintro _ d' now k id t ⟨s, rfl⟩ hc h
    obtain ⟨hnext, ⟨e, he, hrun⟩, rfl⟩ := commit_ok (hc k rfl) h
    refine ⟨hnext, hrun ▸ moves_update (fun f hf => (Entry.isRunning_iff.1 hf).1) he ?_
      (isMove_row hnext.ne_running.symm rfl)⟩
    exact Entry.isRunning_iff.2 ⟨(Entries.find?_eq_some.1 he).2, hrun⟩
  insert := by
    rintro _ d' now job id ⟨s, rfl⟩ hc h
    obtain ⟨rfl, rfl⟩ := insert_ok h
    refine ⟨?_, ⟨(Entry.ofNew job (s.lastId + 1) now).row, ?_, ?_, ?_⟩, fun i hi => ?_⟩
    · rw [view_find?, Entries.find?_of_lastId_lt (Int.lt_succ _)]
      rfl
    · rw [view_find?, Entries.find?_append, if_pos rfl, Option.map_some]
    · exact view_state? _
    · exact view_isClaimed _
    · rw [view_find?, view_find?, Entries.find?_append, if_neg hi]
  resetStale := by
    rintro _ d' now k cutoff n ⟨s, rfl⟩ hc h
    obtain ⟨rfl, rfl⟩ := resetStale_ok (hc k rfl) h
    refine ⟨fun hzero => ?_, fun i => ?_⟩
    · rw [Entries.update_of_none]
      rw [List.countP_eq_zero] at hzero
      exact List.any_eq_false.2 hzero
    · rw [view_find?, view_find?, Entries.find?_update]
      cases he : s.find? i with
      | none => exact .inl rfl
      | some e =>
        by_cases hstale : Entry.isStale k cutoff e = true
        · have hrun : e.state = .running := by
            simp only [Entry.isStale, Bool.and_eq_true, beq_iff_eq] at hstale
            exact hstale.1.1
          refine .inr ⟨e.row, (e.unclaim now).row, rfl, ?_, hrun ▸ isMove_row rfl rfl⟩
          rw [Option.map_some, if_pos hstale, Option.map_some]
        · exact .inl (by rw [Option.map_some, if_neg hstale])

/-! The states of the entries, and their claims. -/

/-- The table that has the instances of a type. -/
def tableOf (type : String) : String := if isDefaultTable type then defaultInstanceType else type

/-- The state of an instance in a table. -/
def state? (d : Database) (table : String) (id : Int) : Option State :=
  if table = defaultInstanceType then (view.find? d id).bind view.state? else none

theorem state?_database (s : Entries) (id : Int) :
    s.database.state? defaultInstanceType id = (s.find? id).map (·.state) := by
  rw [state?, if_pos rfl, view_find?]
  cases s.find? id with
  | none => rfl
  | some e => exact view_state? e

/-- The update of an instance is not seen at another one. -/
theorem state?_update_of_ne {p : Entry → Bool} {g : Entry → Entry}
    {keepsId : ∀ e, (g e).id = e.id} (hp : ∀ e, p e = true → e.id = id) {t : String} {i : Int}
    (h : (t, i) ≠ (defaultInstanceType, id)) :
    (s.update p g keepsId).database.state? t i = s.database.state? t i := by
  by_cases ht : t = defaultInstanceType
  · subst ht
    rw [state?_database, state?_database, Entries.find?_update]
    cases he : s.find? i with
    | none => rfl
    | some e =>
      have hi : i ≠ id := fun hi => h (by rw [hi])
      have hpe : ¬p e = true := fun hpe => hi ((Entries.find?_eq_some.1 he).2.symm.trans (hp e hpe))
      rw [Option.map_some, if_neg hpe]
  · rw [state?, state?, if_neg ht, if_neg ht]

instance : Lawful Database where
  table := tableOf
  state? := state?
  Holds := HasEntries
  Serves := Key.UsualColumns
  claim_won := by
    rintro _ d' key id expected now ⟨s, rfl⟩ hk h
    have htable : tableOf key.instanceType = defaultInstanceType :=
      if_pos (isDefaultTable_of_claim h)
    obtain ⟨hw, -⟩ | ⟨-, hready, e, he, hpe, rfl⟩ := claim_ok hk h
    · cases hw
    · obtain ⟨-, rfl, -⟩ := Entry.isClaimable_iff.1 hpe
      have hne : e.state ≠ .running := fun hrun => by
        rw [hrun] at hready
        cases hready
      rw [htable]
      refine ⟨⟨_, rfl⟩, hne, ?_, ?_, fun t i hi =>
        state?_update_of_ne (fun f hf => (Entry.isClaimable_iff.1 hf).1) hi⟩
      · rw [state?_database, he]
        rfl
      · rw [state?_database, Entries.find?_update, he, Option.map_some, if_pos hpe]
        rfl
  claim_lost := by
    rintro _ d' key id expected now r ⟨s, rfl⟩ hk h hr
    suffices hsame : d' = s.database by
      rw [hsame]
      exact ⟨⟨_, rfl⟩, fun _ _ => rfl⟩
    cases r with
    | error e => exact (execute_error h).2
    | ok won =>
      obtain ⟨-, hsame, -⟩ | ⟨rfl, -⟩ := claim_ok hk h
      · exact hsame
      · exact absurd rfl hr
  commit := by
    rintro _ d' key id t now r ⟨s, rfl⟩ hk hrun h
    have htable : tableOf key.instanceType = defaultInstanceType := by
      by_contra hne
      rw [state?, if_neg hne] at hrun
      cases hrun
    rw [htable]
    obtain ⟨-, rfl⟩ | ⟨-, -, -, rfl⟩ := commit_cases hk h
    · exact ⟨⟨_, rfl⟩, fun _ _ _ => rfl⟩
    · exact ⟨⟨_, rfl⟩, fun t i hi =>
        state?_update_of_ne (fun f hf => (Entry.isRunning_iff.1 hf).1) hi⟩
  insert := by
    rintro _ d' job now r ⟨s, rfl⟩ h
    cases r with
    | error e =>
      obtain ⟨-, rfl⟩ := execute_error h
      exact ⟨⟨_, rfl⟩, fun _ _ _ hi => hi⟩
    | ok id =>
      obtain ⟨rfl, rfl⟩ := insert_ok h
      refine ⟨⟨_, rfl⟩, fun t i state hi => ?_⟩
      by_cases ht : t = defaultInstanceType
      · subst ht
        rw [state?_database] at hi ⊢
        obtain ⟨e, he, rfl⟩ := Option.map_eq_some_iff.1 hi
        rw [Entries.find?_append_of_some he]
        rfl
      · rw [state?, if_neg ht] at hi
        cases hi

/-- After some calls the database takes a job for its table, unless all ids
    may be used up. -/
structure Accepts (cs : List (Instant × Call)) (job : NewJob) : Prop where
  table : isDefaultTable job.instanceType = true
  name : Text.isIdentifier job.instanceType = true
  room : cs.length < Nat.pow 2 63 - 1

theorem insert_answers {cs : List (Instant × Call)} (now : Instant) {job : NewJob}
    (hcs : ∀ x ∈ cs, x.2.HasUsualColumns) (h : Accepts cs job) :
    ∃ id, (step (after migrated cs) now (.insert job)).1 = .ok (.inserted id) := by
  obtain ⟨s, hs, hle⟩ := after_database .empty hcs
  have hroom : ¬isFull s := by
    have := h.room
    have hzero : Entries.empty.lastId = 0 := rfl
    unfold isFull
    omega
  have hinsert : JobStore.insert s.database job now = _ :=
    insert_room h.table (if_pos h.name) hroom
  refine ⟨s.lastId + 1, ?_⟩
  rw [← Entries.database_empty, hs, step, hinsert]
  rfl

end Database

/-- Whatever is called, with whatever ids, keys, states and transitions, the
    instances in memory keep to the lifecycle, and so do those in a database as
    long as keys name its columns. -/
theorem instances_keep_to_the_lifecycle :
    Lifecycle MemoryStore.view .empty (fun _ => True) (fun _ _ => True) ∧
    Lifecycle Database.view .migrated Call.HasUsualColumns Database.Accepts := by
  constructor
  · refine MemoryStore.behaves.lifecycle trivial (fun _ => rfl) fun cs now job _ _ _ => ?_
    exact ⟨(after MemoryStore.empty cs).lastId + 1, rfl⟩
  · refine Database.behaves.lifecycle ⟨.empty, rfl⟩ (fun id => ?_) fun cs now job hcs _ h => ?_
    · exact Database.view_find? .empty id
    · exact Database.insert_answers now hcs h

end DueWork
