/-
  A database reads back what was written last.

  The values of an instance are written as text, however deep they nest, and
  are read by a reader that gives up at a depth.

  * `lastWritten` are the contents of all instances after some calls, by the
    arguments and the answers of the calls alone;
  * `Holds` says that the entries have these contents, and each call keeps it;
  * so an instance is read back as it was written last if its values do not
    nest too deep, and a fetch fails only where such an instance is ready.
-/
import DueWork.Proofs.Json.Nesting
import DueWork.Proofs.Store.Standing

namespace DueWork

open Time Store

/-- What calls write of an instance, apart from its state and its times. -/
structure Contents where
  attributes : Attributes
  payload : Option Json
  result : Option Json
  failureCount : UInt32
  lastError : Option String
deriving DecidableEq, Repr

def Job.contents (j : Job) : Contents :=
  ⟨j.attributes, j.payload, j.result, j.failureCount, j.lastError⟩

def Entry.contents (e : Entry) : Contents :=
  ⟨e.attributes, e.payload, e.result, e.failureCount, e.lastError⟩

namespace Contents

/-- The contents of a new instance. -/
def ofNew (job : NewJob) : Contents := ⟨job.attributes, job.payload, none, 0, none⟩

/-- The contents after a commit. -/
def commit (t : Transition) (c : Contents) : Contents :=
  { c with
    result := t.result.or c.result
    failureCount := t.failureCount.getD c.failureCount
    lastError := t.lastError.or c.lastError }

/-- The numbers of the values are integers of 64 bits. -/
structure IsExact (c : Contents) : Prop where
  payload : ∀ j, c.payload = some j → j.IsExact
  result : ∀ j, c.result = some j → j.IsExact

/-- The values nest no deeper than the reader goes. -/
structure IsReadable (c : Contents) : Prop where
  payload : ∀ j, c.payload = some j → j.nesting ≤ Json.maxDepth
  result : ∀ j, c.result = some j → j.nesting ≤ Json.maxDepth

theorem IsExact.commit {c : Contents} (h : c.IsExact) {t : Transition}
    (ht : ∀ j, t.result = some j → j.IsExact) : (c.commit t).IsExact where
  payload := h.payload
  result j hj := by
    rcases Option.or_eq_some_iff.1 hj with hj | ⟨-, hj⟩
    · exact ht j hj
    · exact h.result j hj

end Contents

namespace Store

/-- The values that a call writes hold integers of 64 bits only. -/
def Call.WritesExact : Call → Prop
  | .insert job => ∀ j, job.payload = some j → j.IsExact
  | .commit _ _ t => ∀ j, t.result = some j → j.IsExact
  | _ => True

/-- The contents of instances after a call, by its answer. -/
def Call.writes (c : Call) (a : Except Error Answer) (w : Int → Option Contents) :
    Int → Option Contents :=
  match c, a with
  | .insert job, .ok (.inserted id) => fun i => if i = id then some (.ofNew job) else w i
  | .commit _ id t, .ok .committed => fun i => if i = id then (w i).map (.commit t) else w i
  | _, _ => w

/-- The contents of instances after some calls. -/
def lastWritten {σ : Type} [JobStore σ] (s : σ) (w : Int → Option Contents) :
    List (Instant × Call) → Int → Option Contents
  | [] => w
  | (now, c) :: cs => lastWritten (step s now c).2 (c.writes (step s now c).1 w) cs

end Store

/-! ## One instance -/

namespace Entry

variable {e : Entry} {j : Job} {type : String}

/-- A value that nests no deeper can be read. -/
theorem isReadable_of_nesting {o : Option Json} (h : ∀ j, o = some j → j.IsExact)
    (hle : ∀ j, o = some j → j.nesting ≤ Json.maxDepth) : Json.IsReadable o := by
  intro j hj
  obtain ⟨d, hd⟩ := h j hj
  exact (Json.fits_iff j hd).2 (hle j hj)

theorem readValue_of_not {o : Option Json} (h : ∀ j, o = some j → j.IsExact)
    (hlt : ¬∀ j, o = some j → j.nesting ≤ Json.maxDepth) :
    ∃ text, StoredJob.readValue (o.map Json.text) = .error (.serialization text) := by
  cases o with
  | none => exact absurd (fun j hj => by cases hj) hlt
  | some j =>
    have hj : ¬j.nesting ≤ Json.maxDepth := fun hle => hlt fun _ hj => Option.some.inj hj ▸ hle
    rw [Option.map_some, StoredJob.readValue, Json.parse?_text_eq (h j rfl), if_neg hj]
    exact ⟨_, rfl⟩

/-- An entry is read back if its values do not nest too deep. -/
theorem toJob_eq (h : e.contents.IsExact) (type : String) :
    e.contents.IsReadable ∧ e.stored.toJob type = .ok (e.job type) ∨
      ¬e.contents.IsReadable ∧ ∃ text, e.stored.toJob type = .error (.serialization text) := by
  have hstate : State.ofName? e.stored.state = some e.state := State.ofName?_name e.state
  have hattributes : StoredJob.readAttributes e.stored.attributes = .ok e.attributes :=
    readAttributes_text e.attributes
  by_cases hpayload : ∀ j, e.payload = some j → j.nesting ≤ Json.maxDepth
  · have hp : Json.IsReadable e.payload := isReadable_of_nesting h.payload hpayload
    by_cases hresult : ∀ j, e.result = some j → j.nesting ≤ Json.maxDepth
    · have hr : Json.IsReadable e.result := isReadable_of_nesting h.result hresult
      exact .inl ⟨⟨hpayload, hresult⟩, stored_toJob ⟨hp, hr⟩ type⟩
    · obtain ⟨text, hr⟩ : ∃ text, StoredJob.readValue e.stored.result =
        .error (.serialization text) := readValue_of_not h.result hresult
      have hp : StoredJob.readValue e.stored.payload = .ok e.payload := readValue_text hp
      refine .inr ⟨fun hc => hresult hc.result, text, ?_⟩
      simp only [StoredJob.toJob, hstate, hattributes, hp, hr]
      rfl
  · obtain ⟨text, hp⟩ : ∃ text, StoredJob.readValue e.stored.payload =
      .error (.serialization text) := readValue_of_not h.payload hpayload
    refine .inr ⟨fun hc => hpayload hc.payload, text, ?_⟩
    simp only [StoredJob.toJob, hstate, hattributes, hp]
    rfl

end Entry

/-! ## Lists that are read as a whole -/

namespace Store

variable {α β ε : Type} {f : α → Except ε β} {l : List α}

/-- A list is read by reading its elements. -/
theorem mem_of_mapM {l' : List β} (h : l.mapM f = .ok l') :
    (∀ b ∈ l', ∃ a ∈ l, f a = .ok b) ∧ ∀ a ∈ l, ∃ b, f a = .ok b := by
  induction l generalizing l' with
  | nil =>
    cases h
    exact ⟨nofun, nofun⟩
  | cons a l ih =>
    rw [List.mapM_cons] at h
    obtain ⟨b, hb, h⟩ := bind_eq_ok h
    obtain ⟨bs, hbs, h⟩ := bind_eq_ok h
    cases h
    obtain ⟨hread, hall⟩ := ih hbs
    refine ⟨fun b' hb' => ?_, List.forall_mem_cons.2 ⟨⟨b, hb⟩, hall⟩⟩
    rcases List.mem_cons.1 hb' with rfl | hb'
    · exact ⟨a, List.mem_cons_self, hb⟩
    · obtain ⟨a', ha', hread⟩ := hread b' hb'
      exact ⟨a', List.mem_cons_of_mem _ ha', hread⟩

/-- A list is read, unless one of its elements is not. -/
theorem mapM_answers (l : List α) (f : α → Except ε β) :
    (∃ l', l.mapM f = .ok l') ∨ ∃ a ∈ l, ∃ e, f a = .error e ∧ l.mapM f = .error e := by
  induction l with
  | nil => exact .inl ⟨[], rfl⟩
  | cons a l ih =>
    rw [List.mapM_cons]
    cases ha : f a with
    | error e => exact .inr ⟨a, List.mem_cons_self, e, ha, rfl⟩
    | ok b =>
      rcases ih with ⟨bs, hbs⟩ | ⟨a', ha', e, he, herror⟩
      · rw [hbs]
        exact .inl ⟨_, rfl⟩
      · rw [herror]
        exact .inr ⟨a', List.mem_cons_of_mem _ ha', e, he, rfl⟩

end Store

/-! ## All instances -/

/-- The entries have the contents that were written last. -/
structure Entries.Holds (s : Entries) (w : Int → Option Contents) : Prop where
  contents : ∀ i, (s.find? i).map Entry.contents = w i
  exact : ∀ i c, w i = some c → c.IsExact

namespace Entries.Holds

variable {s : Entries} {w : Int → Option Contents} {id : Int} {now : Instant}

theorem empty : Holds .empty fun _ => none := ⟨fun _ => rfl, nofun⟩

theorem isExact (h : s.Holds w) {e : Entry} (he : e ∈ s.list) : e.contents.IsExact := by
  refine h.exact e.id e.contents ?_
  rw [← h.contents, find?_eq_some.2 ⟨he, rfl⟩]
  rfl

/-- A change of other things. -/
theorem update (h : s.Holds w) {p : Entry → Bool} {g : Entry → Entry}
    {keepsId : ∀ e, (g e).id = e.id} (hg : ∀ e, (g e).contents = e.contents) :
    (s.update p g keepsId).Holds w where
  contents i := by
    rw [find?_update, Option.map_map, ← h.contents i]
    refine congrArg (Option.map · (s.find? i)) (funext fun e => ?_)
    rw [Function.comp_apply]
    split
    · exact hg e
    · rfl
  exact := h.exact

theorem commit (h : s.Holds w) {t : Transition} (ht : ∀ j, t.result = some j → j.IsExact) {e : Entry}
    (he : s.find? id = some e) (hrun : e.state = .running) :
    (s.update (Entry.isRunning id) (Entry.commit t now) (Entry.id_commit t now)).Holds
      fun i => if i = id then (w i).map (.commit t) else w i where
  contents i := by
    rw [find?_update, ← h.contents i]
    by_cases hi : i = id
    · subst hi
      have hpe := Entry.isRunning_iff.2 ⟨(find?_eq_some.1 he).2, hrun⟩
      rw [if_pos rfl, he, Option.map_some, if_pos hpe]
      rfl
    · rw [if_neg hi]
      cases hf : s.find? i with
      | none => rfl
      | some f =>
        have hpf : ¬f.isRunning id = true := fun hpf =>
          hi ((find?_eq_some.1 hf).2.symm.trans (Entry.isRunning_iff.1 hpf).1)
        rw [Option.map_some, if_neg hpf]
  exact i c hc := by
    split at hc
    · obtain ⟨c₀, hc₀, rfl⟩ := Option.map_eq_some_iff.1 hc
      exact (h.exact i c₀ hc₀).commit ht
    · exact h.exact i c hc

theorem append (h : s.Holds w) {job : NewJob} (hjob : ∀ j, job.payload = some j → j.IsExact) :
    (s.append job now).Holds fun i => if i = s.lastId + 1 then some (.ofNew job) else w i where
  contents i := by
    rw [find?_append, ← h.contents i]
    split <;> rfl
  exact i c hc := by
    split at hc
    · cases hc
      exact ⟨hjob, nofun⟩
    · exact h.exact i c hc

end Entries.Holds

namespace Database

variable {s : Entries} {w : Int → Option Contents} {key : Key} {id : Int} {now : Instant}

/-- One call leaves entries with the contents that were written last. -/
theorem step_holds (h : s.Holds w) (now : Instant) {c : Call} (hc : c.HasUsualColumns)
    (hv : c.WritesExact) : ∃ s' : Entries, (step s.database now c).2 = s'.database ∧
      s'.Holds (c.writes (step s.database now c).1 w) := by
  obtain ⟨s', hs', hchange⟩ := step_change s now hc
  refine ⟨s', hs', ?_⟩
  generalize (step s.database now c).1 = a at hchange ⊢
  cases hchange with
  | refused => cases c <;> exact h
  | read hread =>
    cases c with
    | countReady | fetchReady | nextDue | get => exact h
    | claim | commit | insert | resetStale => cases hread
  | lost => exact h
  | won | reset => exact h.update fun _ => rfl
  | committed he hrun => exact h.commit hv he hrun
  | inserted => exact h.append hv

/-- And so do all calls. -/
theorem run_holds {cs : List (Instant × Call)} (h : s.Holds w) (hcs : ∀ x ∈ cs, x.2.HasUsualColumns)
    (hv : ∀ x ∈ cs, x.2.WritesExact) : ∃ s' : Entries, after s.database cs = s'.database ∧
      s'.Holds (lastWritten s.database w cs) := by
  induction cs generalizing s w with
  | nil => exact ⟨s, rfl, h⟩
  | cons x cs ih =>
    obtain ⟨now, c⟩ := x
    obtain ⟨hc, hcs⟩ := List.forall_mem_cons.1 hcs
    obtain ⟨hvc, hv⟩ := List.forall_mem_cons.1 hv
    obtain ⟨s₁, h₁, hholds⟩ := step_holds h now hc hvc
    obtain ⟨s₂, h₂, hholds'⟩ := ih hholds hcs hv
    refine ⟨s₂, ?_, ?_⟩
    · rw [after_cons, h₁, h₂]
    · rw [lastWritten, h₁]
      exact hholds'

/-! ## Reading -/

/-- What a database answers to those who read, by the contents that were written
    last. -/
structure ReadsBack (d : Database) (w : Int → Option Contents) : Prop where
  absent : ∀ type id, isDefaultTable type = true → requireTableName type = .ok () →
    w id = none → JobStore.get d type id = .ok none
  /-- an instance is read back as it was written last -/
  readable : ∀ type id c, isDefaultTable type = true → requireTableName type = .ok () →
    w id = some c → c.IsReadable →
    ∃ j, JobStore.get d type id = .ok (some j) ∧ j.id = id ∧ j.contents = c
  /-- unless its values nest too deep -/
  unreadable : ∀ type id c, isDefaultTable type = true → requireTableName type = .ok () →
    w id = some c → ¬c.IsReadable →
    ∃ text, JobStore.get d type id = .error (.serialization text)
  fetched : ∀ key now limit js, key.UsualColumns → isDefaultTable key.instanceType = true →
    JobStore.fetchReady d key now limit = .ok js → ∀ j ∈ js, w j.id = some j.contents
  /-- a fetch fails only where an instance is ready that nests too deep -/
  fetches : ∀ key now limit, key.UsualColumns → isDefaultTable key.instanceType = true →
    (∃ js, JobStore.fetchReady d key now limit = .ok js) ∨
      ∃ id c r text, w id = some c ∧ ¬c.IsReadable ∧ standing? key d id = some r ∧
        key.isReadyState r.state = true ∧ r.isDue now ∧
        JobStore.fetchReady d key now limit = .error (.serialization text)
  /-- and there every fetch fails that has room for all that is ready -/
  blocked : ∀ key now limit id c r n, key.UsualColumns → isDefaultTable key.instanceType = true →
    w id = some c → ¬c.IsReadable → standing? key d id = some r →
    key.isReadyState r.state = true → r.isDue now →
    JobStore.countReady d key now = .ok n → n ≤ limit →
    ∃ text, JobStore.fetchReady d key now limit = .error (.serialization text)

/-- One instance is looked up, if it was ever written. -/
theorem get_of_holds (h : s.Holds w) {type : String} (ht : isDefaultTable type = true)
    (hname : requireTableName type = .ok ()) :
    w id = none ∧ JobStore.get s.database type id = .ok none ∨
    ∃ e : Entry, w id = some e.contents ∧ e.id = id ∧ e.contents.IsExact ∧
      JobStore.get s.database type id = (e.stored.toJob type).map some := by
  have hget : JobStore.get s.database type id = _ := get_stored ht
  have hcontents := h.contents id
  rw [hname] at hget
  cases he : s.find? id with
  | none =>
    rw [he] at hget hcontents
    exact .inl ⟨hcontents.symm, hget⟩
  | some e =>
    rw [he] at hget hcontents
    obtain ⟨hmem, hid⟩ := Entries.find?_eq_some.1 he
    exact .inr ⟨e, hcontents.symm, hid, h.isExact hmem, hget⟩

/-- What a fetch comes to is ready. -/
theorem ready_of_fetched {limit : Nat} {e : Entry}
    (he : e ∈ (s.ready key now).take limit) :
    e ∈ s.list ∧ key.isReadyState e.state = true ∧ key.predicate.accepts e.attributes = true ∧
      e.dueAt ≤ now.toMillis := by
  obtain ⟨hmem, hready⟩ := Entries.mem_ready.1 (List.mem_of_mem_take he)
  simp only [Entry.isReady, Entry.isWaiting, Bool.and_eq_true, decide_eq_true_eq] at hready
  exact ⟨hmem, hready.1.1, hready.1.2, hready.2⟩

theorem reads_back (h : s.Holds w) : ReadsBack s.database w where
  absent type id ht hname hw := by
    obtain ⟨-, hget⟩ | ⟨e, he, -⟩ := get_of_holds h ht hname
    · exact hget
    · cases hw.symm.trans he
  readable type id c ht hname hw hc := by
    obtain ⟨hnone, -⟩ | ⟨e, he, hid, hexact, hget⟩ := get_of_holds h ht hname
    · cases hw.symm.trans hnone
    · cases hw.symm.trans he
      obtain ⟨-, hread⟩ | ⟨hnot, -⟩ := Entry.toJob_eq hexact type
      · rw [hread] at hget
        exact ⟨_, hget, hid, rfl⟩
      · exact absurd hc hnot
  unreadable type id c ht hname hw hc := by
    obtain ⟨hnone, -⟩ | ⟨e, he, -, hexact, hget⟩ := get_of_holds h ht hname
    · cases hw.symm.trans hnone
    · cases hw.symm.trans he
      obtain ⟨hread, -⟩ | ⟨-, text, hnot⟩ := Entry.toJob_eq hexact type
      · exact absurd hread hc
      · rw [hnot] at hget
        exact ⟨text, hget⟩
  fetched key now limit js hk ht hjs j hj := by
    rw [show JobStore.fetchReady s.database key now limit = _ from fetchReady_stored hk ht] at hjs
    obtain ⟨e, he, hread⟩ := (mem_of_mapM hjs).1 j hj
    obtain ⟨hmem, -⟩ := ready_of_fetched he
    obtain ⟨-, hjob⟩ | ⟨-, text, herror⟩ := Entry.toJob_eq (h.isExact hmem) key.instanceType
    · cases hjob.symm.trans hread
      rw [← h.contents, show (e.job key.instanceType).id = e.id from rfl,
        Entries.find?_eq_some.2 ⟨hmem, rfl⟩]
      rfl
    · cases herror.symm.trans hread
  fetches key now limit hk ht := by
    rw [show JobStore.fetchReady s.database key now limit = _ from fetchReady_stored hk ht]
    refine (mapM_answers _ _).imp id ?_
    rintro ⟨e, he, error, hread, herror⟩
    obtain ⟨hmem, hready, haccepts, hdue⟩ := ready_of_fetched he
    have hfind := Entries.find?_eq_some.2 ⟨hmem, rfl⟩
    obtain ⟨-, hjob⟩ | ⟨hnot, text, htext⟩ := Entry.toJob_eq (h.isExact hmem) key.instanceType
    · cases hjob.symm.trans hread
    · cases htext.symm.trans hread
      refine ⟨e.id, e.contents, _, text, ?_, hnot, standing?_of_find? hfind haccepts, hready, hdue,
        herror⟩
      rw [← h.contents, hfind]
      rfl
  blocked key now limit id c r n hk ht hw hc hr hready hdue hcount hn := by
    obtain ⟨e, he, haccepts, rfl⟩ := standing?_eq_some hr
    obtain ⟨hmem, -⟩ := Entries.find?_eq_some.1 he
    have hcontents : e.contents = c := by
      have hid := h.contents id
      rw [he, hw] at hid
      exact Option.some.inj hid
    rw [show JobStore.countReady s.database key now = _ from countReady_database hk ht] at hcount
    cases hcount
    have hall : e ∈ (s.ready key now).take limit := by
      rw [List.take_of_length_le (by rwa [Entries.length_ready])]
      refine Entries.mem_ready.2 ⟨hmem, ?_⟩
      rw [Entry.isReady, Entry.isWaiting, hready, haccepts]
      exact decide_eq_true hdue
    rw [show JobStore.fetchReady s.database key now limit = _ from fetchReady_stored hk ht]
    obtain ⟨js, hjs⟩ | ⟨f, hf, error, hread, herror⟩ := mapM_answers
      ((s.ready key now).take limit)
      fun e => e.stored.toJob key.instanceType
    · obtain ⟨j, hj⟩ := (mem_of_mapM hjs).2 e hall
      obtain ⟨hread, -⟩ | ⟨-, text, htext⟩ := Entry.toJob_eq (h.isExact hmem) key.instanceType
      · exact absurd (hcontents ▸ hread) hc
      · cases htext.symm.trans hj
    · obtain ⟨-, hjob⟩ | ⟨-, text, htext⟩ :=
        Entry.toJob_eq (h.isExact (ready_of_fetched hf).1) key.instanceType
      · cases hjob.symm.trans hread
      · cases htext.symm.trans hread
        exact ⟨text, herror⟩

/-- Whatever is called with keys that name the columns, and whatever values of 64
    bit integers are written: an instance is read back as it was written last,
    unless its values nest deeper than the reader goes; and only a partition in
    which such an instance is ready cannot be fetched. -/
theorem contents_are_read_back {cs : List (Instant × Call)}
    (hcs : ∀ x ∈ cs, x.2.HasUsualColumns) (hvalues : ∀ x ∈ cs, x.2.WritesExact) :
    ReadsBack (after migrated cs) (lastWritten migrated (fun _ => none) cs) := by
  obtain ⟨s, hs, hholds⟩ := run_holds .empty hcs hvalues
  rw [Entries.database_empty] at hs hholds
  rw [hs]
  exact reads_back hholds

/-- A job that is deferred after its first try. -/
def firstRetry : List (Instant × Call) :=
  let key : Key := { name := "all" }
  [(.epoch, .insert { jobRef := "job", dueAt := .epoch, payload := some (.array [.ofInt 7]) }),
    (.epoch, .claim key 1 .new), (.epoch, .commit key 1 (.deferred .last 1 "later"))]

/-- It is read back with its payload, and with what the commit wrote. -/
theorem contents_are_read_back_after_a_retry :
    (∀ x ∈ firstRetry, x.2.HasUsualColumns) ∧ (∀ x ∈ firstRetry, x.2.WritesExact) ∧
    ∃ j, JobStore.get (after migrated firstRetry) "job_instance" 1 = .ok (some j) ∧ j.id = 1 ∧
      j.contents = ⟨∅, some (.array [.ofInt 7]), none, 1, some "later"⟩ := by
  have hcs : ∀ x ∈ firstRetry, x.2.HasUsualColumns := by
    simp only [firstRetry, List.forall_mem_cons]
    refine ⟨nofun, ?_, ?_, List.forall_mem_nil _⟩ <;> rintro k ⟨⟩ <;> exact ⟨rfl, rfl, rfl⟩
  have hvalues : ∀ x ∈ firstRetry, x.2.WritesExact := by
    simp only [firstRetry, List.forall_mem_cons]
    refine ⟨?_, trivial, nofun, List.forall_mem_nil _⟩
    rintro j ⟨⟩
    exact ⟨1, by decide +kernel⟩
  refine ⟨hcs, hvalues, ?_⟩
  refine (contents_are_read_back hcs hvalues).readable "job_instance" 1 _ isDefaultTable_default
    (by decide +kernel) (by decide +kernel) ⟨?_, nofun⟩
  rintro j ⟨⟩
  decide

/-- Arrays in arrays. -/
def nested : Nat → Json
  | 0 => .null
  | n + 1 => .array [nested n]

/-- A job with a payload that nests deeper than the reader goes. -/
def deepJob : NewJob := { jobRef := "deep", dueAt := .epoch, payload := some (nested 128) }

/-- A job without a payload. -/
def plainJob : NewJob := { jobRef := "plain", dueAt := .epoch }

/-- One of each. -/
def deepAndPlain : List (Instant × Call) :=
  [(.epoch, .insert deepJob), (.epoch, .insert plainJob)]

theorem step_insert {job : NewJob} (htype : job.instanceType = defaultInstanceType)
    (hroom : ¬isFull s) : step s.database now (.insert job) =
      (.ok (.inserted (s.lastId + 1)), (s.append job now).database) := by
  have hname : requireTableName job.instanceType = .ok () := by
    rw [htype]
    decide +kernel
  rw [step, insert_room (htype ▸ isDefaultTable_default) hname hroom]
  rfl

/-- Both are stored and only the second one can be read; their partition cannot
    be fetched. -/
theorem deep_values_are_not_read_back :
    (∀ x ∈ deepAndPlain, x.2.HasUsualColumns) ∧ (∀ x ∈ deepAndPlain, x.2.WritesExact) ∧
    (run migrated deepAndPlain).1 = [.ok (.inserted 1), .ok (.inserted 2)] ∧
    (∃ text, JobStore.get (after migrated deepAndPlain) "job_instance" 1 =
      .error (.serialization text)) ∧
    (JobStore.get (after migrated deepAndPlain) "job_instance" 2).isOk = true ∧
    ∃ text, JobStore.fetchReady (after migrated deepAndPlain) { name := "all" } .epoch 10 =
      .error (.serialization text) := by
  have hcs : ∀ x ∈ deepAndPlain, x.2.HasUsualColumns := by
    simp only [deepAndPlain, List.forall_mem_cons]
    exact ⟨nofun, nofun, List.forall_mem_nil _⟩
  have hexact : ∀ j, deepJob.payload = some j → j.IsExact := by
    rintro j ⟨⟩
    exact ⟨128, by decide +kernel⟩
  have hvalues : ∀ x ∈ deepAndPlain, x.2.WritesExact := by
    simp only [deepAndPlain, List.forall_mem_cons]
    exact ⟨hexact, nofun, List.forall_mem_nil _⟩
  let stored := (Entries.empty.append deepJob .epoch).append plainJob .epoch
  have hafter : after migrated deepAndPlain = stored.database := by
    rw [deepAndPlain, after_cons, after_cons, ← Entries.database_empty, step_insert rfl (by decide),
      step_insert rfl (by decide)]
    rfl
  have hdeep : ¬(Contents.ofNew deepJob).IsReadable := by
    intro hread
    exact absurd (hread.payload _ rfl) (by decide +kernel)
  have hholds : stored.Holds _ := (Entries.Holds.empty.append hexact).append nofun
  have h := reads_back hholds
  obtain ⟨r, hr, hready, hdue⟩ : ∃ r : Standing,
      standing? { name := "all" } (after migrated deepAndPlain) 1 = some r ∧
        Key.isReadyState { name := "all" } r.state = true ∧ r.isDue .epoch := by
    rw [hafter]
    exact ⟨_, standing?_of_find? rfl rfl, rfl, show (0 : Int) ≤ 0 by decide⟩
  rw [← hafter] at h
  refine ⟨hcs, hvalues, by decide +kernel, ?_, by decide +kernel, ?_⟩
  · exact h.unreadable _ 1 _ isDefaultTable_default (by decide +kernel) rfl hdeep
  · exact h.blocked _ _ 10 1 _ r 2 ⟨rfl, rfl, rfl⟩ isDefaultTable_default rfl hdeep hr hready hdue
      (by decide +kernel) (by decide)

end Database

end DueWork
