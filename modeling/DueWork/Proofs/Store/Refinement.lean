/-
  A database refines a store in memory, at the grain of milliseconds.

  `Represents s m` says that the instances `m` in memory are those of the
  entries `s`, times read back from milliseconds.  One call on both sides
  keeps this and is answered alike (`step_refines`), if the times of the call
  are rounded for the store in memory: due times up, clocks down.

  * the clock of a query and the cutoff of a reset have to be in the calendar
    of milliseconds.  In the leap second after its end they are not, and there
    every time that is read back is the last instant;
  * a commit of an unknown id is refused under the name of the table by one
    store and under a name of its own by the other, so errors are compared
    without that name.
-/
import DueWork.Proofs.Store.Lives
import DueWork.Proofs.Store.Queries
import DueWork.Proofs.Time.Millis

namespace DueWork

open Time Store

/-! ## Calls in milliseconds -/

/-- The clock as a database stores it. -/
def Time.Instant.roundDown (t : Instant) : Instant := .ofMillis t.toMillis

/-- A due time as a database stores it. -/
def Time.Instant.roundUp (t : Instant) : Instant := .ofMillis t.dueMillis

def NewJob.rounded (n : NewJob) : NewJob := { n with dueAt := n.dueAt.roundUp }

def Transition.rounded (t : Transition) : Transition :=
  { t with dueAt := t.dueAt.map Instant.roundUp }

/-- The call with its times in milliseconds. -/
def Store.Call.rounded : Call → Call
  | .countReady k now => .countReady k now.roundDown
  | .fetchReady k now limit => .fetchReady k now.roundDown limit
  | .commit k id t => .commit k id t.rounded
  | .insert job => .insert job.rounded
  | .resetStale k cutoff => .resetStale k cutoff.roundDown
  | c => c

/-- The error without the name of what was not found. -/
def Error.unnamed : Error → Error
  | .notFound _ id => .notFound "" id
  | e => e

/-- A key for the table of job instances. -/
structure Key.IsUsual (k : Key) : Prop extends k.UsualColumns where
  type : k.instanceType = defaultInstanceType

/-- A call on the table of job instances, with values that can be read back. -/
def Store.Call.IsPlain : Call → Prop
  | .countReady k _ | .fetchReady k _ _ | .claim k _ _ | .nextDue k | .resetStale k _ => k.IsUsual
  | .commit k _ t => k.IsUsual ∧ Json.IsReadable t.result
  | .insert job => job.instanceType = defaultInstanceType ∧ Json.IsReadable job.payload
  | .get type _ => type = defaultInstanceType

/-- The clock of a query and the cutoff of a reset are not in the leap second
    after the calendar. -/
def Store.Call.IsTimely : Call → Prop
  | .countReady _ now | .fetchReady _ now _ => now ≤ .last
  | .resetStale _ cutoff => cutoff ≤ .last
  | _ => True

/-! ## The order of times -/

namespace Time.Instant

theorem inCalendar_toMillis {t : Instant} (h : t ≤ last) : InCalendar t.toMillis :=
  ⟨t.minMillis_le_toMillis, toMillis_le_maxMillis h⟩

theorem ofMillis_lt_ofMillis_iff {m n : Int} (hm : minMillis ≤ m) (hn : InCalendar n) :
    ofMillis m < ofMillis n ↔ m < n := by
  by_cases hhi : m ≤ maxMillis
  · rw [← Instant.not_le, ofMillis_le_ofMillis_iff ⟨hm, hhi⟩]
    omega
  · rw [ofMillis_of_gt (by omega), ← Instant.not_le]
    have := ofMillis_le_last n
    have := hn.2
    exact iff_of_false (fun h => h (ofMillis_le_last n)) (by omega)

theorem min_ofMillis (m n : Int) : min (ofMillis m) (ofMillis n) = ofMillis (min m n) := by
  show (if ofMillis m ≤ ofMillis n then ofMillis m else ofMillis n) = _
  rcases Int.le_total m n with h | h
  · rw [if_pos (ofMillis_mono h), Int.min_eq_left h]
  · rw [Int.min_eq_right h]
    split
    case isTrue hle => exact Instant.le_antisymm hle (ofMillis_mono h)
    case isFalse => rfl

end Time.Instant

/-! ## Entries as instances in memory -/

/-- An entry as the statements write it. -/
structure Entry.IsKept (e : Entry) : Prop extends e.IsReadable where
  due : minMillis ≤ e.dueAt
  claimed : ∀ n, e.claimedAt = some n → minMillis ≤ n

/-- The instances in memory are those of the entries. -/
structure Represents (s : Entries) (m : MemoryStore) : Prop where
  jobs : m.jobs = s.list.map (Entry.job defaultInstanceType)
  lastId : m.lastId = s.lastId
  kept : ∀ e ∈ s.list, e.IsKept

section Entry

variable {e f : Entry} {k : Key} {now cutoff : Instant}

theorem owns_job (hk : k.IsUsual) : k.owns (e.job defaultInstanceType) =
    k.predicate.accepts e.attributes := by
  show (defaultInstanceType == k.instanceType && _) = _
  rw [hk.type, beq_self_eq_true, Bool.true_and]
  rfl

theorem isReady_job (hk : k.IsUsual) (hnow : now ≤ .last) :
    k.isReady (e.job defaultInstanceType) now.roundDown = e.isReady k now := by
  have hdue : decide ((e.job defaultInstanceType).dueAt ≤ now.roundDown) =
      decide (e.dueAt ≤ now.toMillis) :=
    decide_eq_decide.2 (Instant.ofMillis_le_ofMillis_iff (Instant.inCalendar_toMillis hnow))
  rw [Key.isReady, owns_job hk, hdue, Entry.isReady, Entry.isWaiting,
    Bool.and_comm (k.predicate.accepts e.attributes)]
  rfl

/-- What is ready is due within the calendar, if it is not due before. -/
theorem Entry.inCalendar_of_isReady (hdue : minMillis ≤ e.dueAt) (hnow : now ≤ .last)
    (he : e.isReady k now = true) : InCalendar e.dueAt := by
  rw [Entry.isReady, Bool.and_eq_true, decide_eq_true_eq] at he
  exact ⟨hdue, Int.le_trans he.2 (Instant.toMillis_le_maxMillis hnow)⟩

/-- The time of a claim lies before a cutoff on both sides alike. -/
theorem claimedBefore_job (hcut : cutoff ≤ .last) (he : e.IsKept) :
    (match (e.job defaultInstanceType).claimedAt with
      | some claimed => decide (claimed < cutoff.roundDown)
      | none => true) = match e.claimedAt with
        | none => true
        | some claimed => decide (claimed < cutoff.toMillis) := by
  show (match e.claimedAt.map Instant.ofMillis with
    | some claimed => decide (claimed < cutoff.roundDown)
    | none => true) = _
  cases hc : e.claimedAt with
  | none => rfl
  | some n =>
    exact decide_eq_decide.2 (Instant.ofMillis_lt_ofMillis_iff (he.claimed n hc)
      (Instant.inCalendar_toMillis hcut))

theorem isStale_job (hk : k.IsUsual) (hcut : cutoff ≤ .last) (he : e.IsKept) :
    MemoryStore.isStale k cutoff.roundDown (e.job defaultInstanceType) = e.isStale k cutoff := by
  rw [MemoryStore.isStale, owns_job hk, Bool.and_right_comm]
  exact congrArg (fun b => e.state == .running && b && k.predicate.accepts e.attributes)
    (claimedBefore_job hcut he)

theorem ofMillis_inj {m n : Int} (hm : InCalendar m) (hn : InCalendar n) :
    Instant.ofMillis m = .ofMillis n ↔ m = n := by
  constructor
  · intro h
    rw [← Instant.toMillis_ofMillis hm, h, Instant.toMillis_ofMillis hn]
  · exact congrArg _

/-- Within the calendar entries are fetched in the order of their instances. -/
theorem earlier_job (he : InCalendar e.dueAt) (hf : InCalendar f.dueAt) :
    MemoryStore.earlier (e.job defaultInstanceType) (f.job defaultInstanceType) = e.le f := by
  have hlt : decide (Instant.ofMillis e.dueAt < .ofMillis f.dueAt) = decide (e.dueAt < f.dueAt) :=
    decide_eq_decide.2 (Instant.ofMillis_lt_ofMillis_iff he.1 hf)
  have heq : decide (Instant.ofMillis e.dueAt = .ofMillis f.dueAt) = decide (e.dueAt = f.dueAt) :=
    decide_eq_decide.2 (ofMillis_inj he hf)
  show (decide (Instant.ofMillis e.dueAt < .ofMillis f.dueAt) ||
    (Instant.ofMillis e.dueAt == .ofMillis f.dueAt) && decide (e.id ≤ f.id)) = _
  rw [Entry.le, beq_eq_decide, hlt, heq]
  split
  case isTrue h => simp [h]
  case isFalse h =>
    rw [decide_eq_false h, Bool.false_and, Bool.or_false, Bool.eq_iff_iff, decide_eq_true_eq,
      decide_eq_true_eq]
    omega

theorem job_commit (t : Transition) (now : Instant) (e : Entry) :
    (e.commit t now).job defaultInstanceType = t.rounded.apply (e.job defaultInstanceType) := by
  have hdue : Instant.ofMillis ((t.dueAt.map Instant.dueMillis).getD e.dueAt) =
      (t.dueAt.map Instant.roundUp).getD (.ofMillis e.dueAt) := by
    cases t.dueAt <;> rfl
  simp only [Entry.job, Entry.commit, Transition.apply, Transition.rounded, hdue]
  rfl

theorem Entry.IsKept.commit {t : Transition} (he : e.IsKept) (hresult : Json.IsReadable t.result)
    (now : Instant) : (e.commit t now).IsKept where
  payload := he.payload
  result := by
    intro j hj
    rcases Option.or_eq_some_iff.1 hj with hj | ⟨-, hj⟩
    · exact hresult j hj
    · exact he.result j hj
  due := by
    show minMillis ≤ (t.dueAt.map Instant.dueMillis).getD e.dueAt
    cases t.dueAt with
    | none => exact he.due
    | some due => exact due.minMillis_le_dueMillis
  claimed := nofun

end Entry

/-! ## Queries -/

namespace Represents

variable {s : Entries} {m : MemoryStore} {k : Key} {now cutoff : Instant} {id : Int}

theorem empty : Represents .empty .empty := ⟨rfl, rfl, by simp [Entries.empty]⟩

theorem find? (h : Represents s m) :
    m.find? id = (s.find? id).map (Entry.job defaultInstanceType) := by
  rw [MemoryStore.find?, h.jobs, List.find?_map]
  rfl

theorem filter_isReady (h : Represents s m) (hk : k.IsUsual) (hnow : now ≤ .last) :
    m.jobs.filter (fun j => k.isReady j now.roundDown) =
      (s.list.filter (Entry.isReady k now)).map (Entry.job defaultInstanceType) := by
  rw [h.jobs, List.filter_map]
  congr 1
  exact List.filter_congr fun e _ => isReady_job hk hnow

theorem ready (h : Represents s m) (hk : k.IsUsual) (hnow : now ≤ .last) :
    m.ready k now.roundDown = (s.ready k now).map (Entry.job defaultInstanceType) := by
  have hcalendar : ∀ e ∈ s.list.filter (Entry.isReady k now), InCalendar e.dueAt := by
    intro e he
    obtain ⟨hmem, hready⟩ := List.mem_filter.1 he
    exact Entry.inCalendar_of_isReady (h.kept e hmem).due hnow hready
  rw [MemoryStore.ready, h.filter_isReady hk hnow, Entries.ready]
  exact (List.map_mergeSort fun e he f hf =>
    (earlier_job (hcalendar e he) (hcalendar f hf)).symm).symm

theorem nextDue (h : Represents s m) (hk : k.IsUsual) : m.nextDue k =
    ((s.list.filter (Entry.isWaiting k)).map (·.dueAt)).min?.map .ofMillis := by
  have hfold : ∀ (es : List Entry) (n : Int),
      (es.map (Entry.job defaultInstanceType)).foldl
        (fun d j => MemoryStore.earliest d (some j.dueAt)) (some (.ofMillis n)) =
      some (.ofMillis ((es.map (·.dueAt)).foldl min n)) := by
    intro es
    induction es with
    | nil => intro n; rfl
    | cons e es ih =>
      intro n
      rw [List.map_cons, List.foldl_cons, List.map_cons, List.foldl_cons, ← ih,
        ← Instant.min_ofMillis]
      rfl
  have hfilter : m.jobs.filter (fun j => k.owns j && k.isReadyState j.state) =
      (s.list.filter (Entry.isWaiting k)).map (Entry.job defaultInstanceType) := by
    rw [h.jobs, List.filter_map]
    congr 1
    refine List.filter_congr fun e _ => ?_
    rw [Function.comp_apply, owns_job hk, Bool.and_comm]
    rfl
  rw [MemoryStore.nextDue, hfilter]
  cases s.list.filter (Entry.isWaiting k) with
  | nil => rfl
  | cons e es =>
    rw [List.map_cons, List.map_cons, List.min?_cons', Option.map_some, ← hfold]
    rfl

/-! ## Changes -/

/-- A change of entries that is one of their instances. -/
theorem update (h : Represents s m) {p : Entry → Bool} {g : Entry → Entry}
    {keepsId : ∀ e, (g e).id = e.id} {f : Job → Job} {keepsId' : ∀ j, (f j).id = j.id}
    (hjob : ∀ e ∈ s.list, f (e.job defaultInstanceType) =
      (if p e then g e else e).job defaultInstanceType)
    (hkept : ∀ e ∈ s.list, p e = true → e.IsKept → (g e).IsKept) :
    Represents (s.update p g keepsId) (m.update f keepsId') where
  jobs := by
    show m.jobs.map f = (s.list.map _).map _
    rw [h.jobs, List.map_map, List.map_map]
    exact List.map_congr_left hjob
  lastId := h.lastId
  kept := by
    intro e he
    obtain ⟨e, hmem, rfl⟩ := List.mem_map.1 he
    split
    case isTrue hp => exact hkept e hmem hp (h.kept e hmem)
    case isFalse => exact h.kept e hmem

/-- A change of the entry with one id. -/
theorem updateAt (h : Represents s m) {p : Entry → Bool} {g : Entry → Entry}
    {keepsId : ∀ e, (g e).id = e.id} {f : Job → Job} {keepsId' : ∀ j, (f j).id = j.id}
    {e : Entry} (he : s.find? id = some e) (hpe : p e = true) (hp : ∀ e, p e = true → e.id = id)
    (hjob : ∀ e, (g e).job defaultInstanceType = f (e.job defaultInstanceType))
    (hkept : ∀ e, e.IsKept → (g e).IsKept) :
    Represents (s.update p g keepsId) (m.updateAt id f keepsId') := by
  refine h.update (fun e' he' => ?_) fun e' _ _ => hkept e'
  show (if e'.id = id then f (e'.job defaultInstanceType) else e'.job defaultInstanceType) = _
  by_cases hid : e'.id = id
  · have : s.find? id = some e' := Entries.find?_eq_some.2 ⟨he', hid⟩
    rw [he] at this
    cases this
    rw [if_pos hid, if_pos hpe, hjob]
  · rw [if_neg hid, if_neg fun hpe' => hid (hp e' hpe')]

theorem append (h : Represents s m) {job : NewJob} (htype : job.instanceType = defaultInstanceType)
    (hread : Json.IsReadable job.payload) :
    Represents (s.append job now) (m.append job.rounded now.roundDown) where
  jobs := by
    show m.jobs ++ _ = (s.list ++ _).map _
    rw [List.map_append, h.jobs, h.lastId, ← htype]
    rfl
  lastId := by
    show m.lastId + 1 = s.lastId + 1
    rw [h.lastId]
  kept := by
    intro e he
    rcases List.mem_append.1 he with he | he
    · exact h.kept e he
    · rw [List.mem_singleton.1 he]
      exact ⟨⟨hread, nofun⟩, job.dueAt.minMillis_le_dueMillis, nofun⟩

end Represents

/-! ## Calls -/

/-- Answers and stores that are alike, with at most one more id in use. -/
structure Alike (s : Entries) (x : Except Error Answer × Database)
    (y : Except Error Answer × MemoryStore) : Prop where
  answers : x.1.mapError Error.unnamed = y.1.mapError Error.unnamed
  stores : ∃ s' : Entries, x.2 = s'.database ∧ Represents s' y.2 ∧ s'.lastId ≤ s.lastId + 1

section Calls

variable {s s' : Entries} {m m' : MemoryStore} {now now' : Instant} {c c' : Call} {a : Answer}

theorem alike_ok (hd : step s.database now c = (.ok a, s'.database))
    (hm : step m now' c' = (.ok a, m')) (h : Represents s' m') (hle : s'.lastId ≤ s.lastId + 1) :
    Alike s (step s.database now c) (step m now' c') := by
  rw [hd, hm]
  exact ⟨rfl, s', rfl, h, hle⟩

/-- Two calls that only ask and are answered with the same value. -/
theorem alike_read {α : Type} {f : α → Answer} {x y : Except Error α} {v : α} (hx : x = .ok v)
    (hy : y = .ok v) (h : Represents s m) : Alike s (x.map f, s.database) (y.map f, m) := by
  rw [hx, hy]
  exact ⟨rfl, s, rfl, h, Int.le_add_one (Int.le_refl _)⟩

theorem alike_error {e e' : Error} (hd : step s.database now c = (.error e, s.database))
    (hm : step m now' c' = (.error e', m)) (h : Represents s m) (he : e.unnamed = e'.unnamed) :
    Alike s (step s.database now c) (step m now' c') := by
  rw [hd, hm]
  exact ⟨congrArg Except.error he, s, rfl, h, Int.le_add_one (Int.le_refl _)⟩

theorem isDefaultTable_of_isUsual {k : Key} (hk : k.IsUsual) :
    isDefaultTable k.instanceType = true := hk.type ▸ Database.isDefaultTable_default

theorem requireTableName_default {type : String} (h : type = defaultInstanceType) :
    requireTableName type = .ok () := by
  rw [h]
  decide +kernel

theorem claim_refines (h : Represents s m) {k : Key} {id : Int} {e : State} (hk : k.IsUsual) :
    Alike s (step s.database now (.claim k id e)) (step m now.roundDown (.claim k id e)) := by
  have hle : s.lastId ≤ s.lastId + 1 := Int.le_add_one (Int.le_refl _)
  have hd : JobStore.claim s.database k id e now = _ :=
    Database.claim_database hk.toUsualColumns (isDefaultTable_of_isUsual hk)
  have hm : JobStore.claim m k id e now.roundDown = _ := MemoryStore.claim_eq
  cases hreq : requireClaimable id e with
  | error err =>
    rw [hreq] at hd hm
    exact alike_error (congrArg (answering _) hd) (congrArg (answering _) hm) h rfl
  | ok u =>
    have hany : (m.find? id).any (fun j => j.state == e && k.owns j) =
        s.list.any (Entry.isClaimable k id e) := by
      rw [h.find?, Option.any_map, Entries.any_isClaimable]
      congr 1
      funext f
      rw [owns_job hk]
      rfl
    rw [hreq] at hd hm
    rw [hany] at hm
    cases hwon : s.list.any (Entry.isClaimable k id e) with
    | false =>
      rw [hwon, Entries.update_of_none hwon] at hd
      rw [hwon] at hm
      exact alike_ok (congrArg (answering _) hd) (congrArg (answering _) hm) h hle
    | true =>
      rw [hwon] at hd hm
      obtain ⟨f, hf, hpf⟩ := List.any_eq_true.1 hwon
      have hp : ∀ f, Entry.isClaimable k id e f = true → f.id = id :=
        fun f hf => (Entry.isClaimable_iff.1 hf).1
      have hclaimed : Represents
          (s.update (Entry.isClaimable k id e) (Entry.claim now) (Entry.id_claim now))
          (m.updateAt id (MemoryStore.markClaimed now.roundDown) fun _ => rfl) := by
        refine h.updateAt (Entries.find?_eq_some.2 ⟨hf, hp f hpf⟩) hpf hp (fun _ => rfl) ?_
        intro f hf
        exact ⟨⟨hf.payload, hf.result⟩, hf.due,
          fun n hn => Option.some.inj hn ▸ now.minMillis_le_toMillis⟩
      exact alike_ok (congrArg (answering _) hd) (congrArg (answering _) hm) hclaimed hle

theorem commit_refines (h : Represents s m) {k : Key} {id : Int} {t : Transition} (hk : k.IsUsual)
    (hresult : Json.IsReadable t.result) :
    Alike s (step s.database now (.commit k id t))
      (step m now.roundDown (.commit k id t.rounded)) := by
  have hd : JobStore.commit s.database k id t now = _ :=
    Database.commit_database hk.toUsualColumns (isDefaultTable_of_isUsual hk)
  have hm : JobStore.commit m k id t.rounded now.roundDown = m.commit id t.rounded := rfl
  have houtcome : requireOutcome t.rounded = requireOutcome t := rfl
  rw [MemoryStore.commit, houtcome, h.find?] at hm
  cases hreq : requireOutcome t with
  | error err =>
    rw [hreq] at hd hm
    exact alike_error (congrArg (answering _) hd) (congrArg (answering _) hm) h rfl
  | ok u =>
    rw [hreq] at hd hm
    cases he : s.find? id with
    | none =>
      simp only [he, Option.map_none] at hd hm
      exact alike_error (congrArg (answering _) hd) (congrArg (answering _) hm) h rfl
    | some e =>
      simp only [he, Option.map_some] at hd hm
      by_cases hrun : e.state = .running
      · have hp : ∀ f, Entry.isRunning id f = true → f.id = id :=
          fun f hf => (Entry.isRunning_iff.1 hf).1
        have hpe : Entry.isRunning id e = true :=
          Entry.isRunning_iff.2 ⟨(Entries.find?_eq_some.1 he).2, hrun⟩
        rw [if_pos hrun] at hd
        have hcommitted : Represents
            (s.update (Entry.isRunning id) (Entry.commit t now) (Entry.id_commit t now))
            (m.updateAt id t.rounded.apply fun _ => rfl) :=
          h.updateAt he hpe hp (job_commit t now) fun f hf => hf.commit hresult now
        exact alike_ok (congrArg (answering _) hd)
          (congrArg (answering _) (hm.trans (if_pos hrun))) hcommitted
          (Int.le_add_one (Int.le_refl _))
      · rw [if_neg hrun] at hd
        exact alike_error (congrArg (answering _) hd)
          (congrArg (answering _) (hm.trans (if_neg hrun))) h rfl

theorem insert_refines (h : Represents s m) (hroom : s.lastId < (Nat.pow 2 63 - 1 : Nat))
    {job : NewJob} (htype : job.instanceType = defaultInstanceType)
    (hread : Json.IsReadable job.payload) :
    Alike s (step s.database now (.insert job)) (step m now.roundDown (.insert job.rounded)) := by
  have hfull : ¬Database.isFull s := fun hfull => by
    unfold Database.isFull at hfull
    omega
  have hd : JobStore.insert s.database job now = _ :=
    Database.insert_room (htype ▸ Database.isDefaultTable_default) (requireTableName_default htype)
      hfull
  refine alike_ok (congrArg (answering _) hd) ?_ (h.append htype hread) (Int.le_refl _)
  rw [← h.lastId]
  rfl

theorem resetStale_refines (h : Represents s m) {k : Key} {cutoff : Instant} (hk : k.IsUsual)
    (hcut : cutoff ≤ .last) :
    Alike s (step s.database now (.resetStale k cutoff))
      (step m now.roundDown (.resetStale k cutoff.roundDown)) := by
  have hd : JobStore.resetStale s.database k cutoff now = _ :=
    Database.resetStale_database hk.toUsualColumns (isDefaultTable_of_isUsual hk)
  have hcount : m.jobs.countP (MemoryStore.isStale k cutoff.roundDown) =
      s.list.countP (Entry.isStale k cutoff) := by
    rw [h.jobs, List.countP_map]
    exact List.countP_congr fun e he => by
      rw [Function.comp_apply, isStale_job hk hcut (h.kept e he)]
  have hm : step m now.roundDown (.resetStale k cutoff.roundDown) =
      (.ok (.reset (s.list.countP (Entry.isStale k cutoff))),
        (m.resetStale k cutoff.roundDown).2) := by
    rw [← hcount]
    rfl
  have hjob : ∀ e ∈ s.list,
      (if MemoryStore.isStale k cutoff.roundDown (e.job defaultInstanceType) then
        MemoryStore.unclaim (e.job defaultInstanceType) else e.job defaultInstanceType) =
      (if Entry.isStale k cutoff e then e.unclaim now else e).job defaultInstanceType := by
    intro e he
    rw [isStale_job hk hcut (h.kept e he)]
    split <;> rfl
  have hreset : Represents
      (s.update (Entry.isStale k cutoff) (Entry.unclaim now) (Entry.id_unclaim now))
      (m.update (fun j => if MemoryStore.isStale k cutoff.roundDown j then MemoryStore.unclaim j
        else j) fun j => by split <;> rfl) :=
    h.update hjob fun e _ _ he => ⟨⟨he.payload, he.result⟩, he.due, nofun⟩
  exact alike_ok (congrArg (answering _) hd) hm hreset (Int.le_add_one (Int.le_refl _))

/-- One call is answered alike on both sides. -/
theorem step_refines (h : Represents s m) (hroom : s.lastId < (Nat.pow 2 63 - 1 : Nat))
    (now : Instant) (hc : c.IsPlain) (ht : c.IsTimely) :
    Alike s (step s.database now c) (step m now.roundDown c.rounded) := by
  have hread : ∀ e ∈ s.list, e.IsReadable := fun e he => (h.kept e he).toIsReadable
  cases c with
  | countReady k ready =>
    refine alike_read (Database.countReady_database hc.toUsualColumns (isDefaultTable_of_isUsual hc))
      ?_ h
    show Except.ok (m.jobs.countP fun j => k.isReady j ready.roundDown) = _
    rw [List.countP_eq_length_filter, h.filter_isReady hc ht, List.length_map,
      List.countP_eq_length_filter]
  | fetchReady k ready limit =>
    refine alike_read (Database.fetchReady_database hc.toUsualColumns
      (isDefaultTable_of_isUsual hc) hread) ?_ h
    show Except.ok ((m.ready k ready.roundDown).take limit) = _
    rw [h.ready hc ht, List.map_take, hc.type]
  | claim k id e => exact claim_refines h hc
  | commit k id t => exact commit_refines h hc.1 hc.2
  | nextDue k =>
    refine alike_read (Database.nextDue_database hc.toUsualColumns (isDefaultTable_of_isUsual hc))
      ?_ h
    show Except.ok (m.nextDue k) = _
    rw [h.nextDue hc]
  | insert job => exact insert_refines h hroom hc.1 hc.2
  | get type id =>
    have hd : JobStore.get s.database type id = _ :=
      Database.get_database (hc ▸ Database.isDefaultTable_default) hread
    rw [requireTableName_default hc, hc] at hd
    refine alike_read (hc ▸ hd) ?_ h
    show Except.ok ((m.find? id).filter (·.instanceType == type)) = _
    rw [h.find?, hc]
    cases s.find? id with
    | none => rfl
    | some e => rw [Option.map_some, Option.filter_some, if_pos (by simp [Entry.job])]
  | resetStale k cutoff => exact resetStale_refines h hc ht

/-- Runs of calls are answered alike. -/
theorem run_refines {cs : List (Instant × Call)} (h : Represents s m)
    (hroom : s.lastId + cs.length < (Nat.pow 2 63 : Nat)) (hplain : ∀ x ∈ cs, x.2.IsPlain)
    (htimely : ∀ x ∈ cs, x.2.IsTimely) :
    (run s.database cs).1.map (·.mapError Error.unnamed) =
      (run m (cs.map fun x => (x.1.roundDown, x.2.rounded))).1.map (·.mapError Error.unnamed) := by
  induction cs generalizing s m with
  | nil => rfl
  | cons x cs ih =>
    obtain ⟨now, c⟩ := x
    obtain ⟨hc, hplain⟩ := List.forall_mem_cons.1 hplain
    obtain ⟨ht, htimely⟩ := List.forall_mem_cons.1 htimely
    simp only [List.length_cons] at hroom
    have hstep := step_refines h (by omega) now hc ht
    obtain ⟨s', hs', h', hle⟩ := hstep.stores
    have hrest := ih h' (by omega) hplain htimely
    rw [List.map_cons, run, run, List.map_cons, List.map_cons, hstep.answers, hs', hrest]

end Calls

/-- A database answers calls as a store in memory does that sees their times
    in milliseconds, both empty at first. -/
def AnswersAlike (cs : List (Instant × Call)) : Prop :=
  (run Database.migrated cs).1.map (·.mapError Error.unnamed) =
    (run MemoryStore.empty (cs.map fun x => (x.1.roundDown, x.2.rounded))).1.map
      (·.mapError Error.unnamed)

/-- A database refines a store in memory, as long as no clock is in the leap
    second after the calendar and ids have 64 bits. -/
theorem database_refines_memory (cs : List (Instant × Call)) (hplain : ∀ x ∈ cs, x.2.IsPlain)
    (htimely : ∀ x ∈ cs, x.2.IsTimely) (hroom : cs.length < Nat.pow 2 63) : AnswersAlike cs := by
  refine run_refines .empty ?_ hplain htimely
  have hzero : Entries.empty.lastId = 0 := rfl
  omega

/-- A job is claimed and deferred, and two clocks are read around its due
    time. -/
def deferral : List (Instant × Call) :=
  let k : Key := { name := "all" }
  [(.epoch, .insert { jobRef := "job", dueAt := .epoch, payload := some (.array [.null]) }),
    (.epoch, .claim k 1 .new), (.epoch, .commit k 1 (.deferred .last 1 "later")),
    (.epoch, .commit k 2 .dropped), (.epoch, .fetchReady k .epoch 5), (.epoch, .countReady k .last)]

theorem database_refines_memory_on_a_deferral :
    (∀ x ∈ deferral, x.2.IsPlain) ∧ (∀ x ∈ deferral, x.2.IsTimely) ∧ AnswersAlike deferral := by
  have hk : Key.IsUsual { name := "all" } := ⟨⟨rfl, rfl, rfl⟩, rfl⟩
  have hplain : ∀ x ∈ deferral, x.2.IsPlain := by
    simp only [deferral, List.forall_mem_cons]
    refine ⟨⟨rfl, ?_⟩, hk, ⟨hk, ?_⟩, ⟨hk, ?_⟩, hk, hk, List.forall_mem_nil _⟩ <;> rintro j ⟨⟩
    decide
  have htimely : ∀ x ∈ deferral, x.2.IsTimely := by
    simp only [deferral, List.forall_mem_cons]
    exact ⟨trivial, trivial, trivial, trivial, (by decide : Instant.epoch ≤ .last), Instant.le_refl _,
      List.forall_mem_nil _⟩
  exact ⟨hplain, htimely, database_refines_memory deferral hplain htimely (by decide)⟩

theorem clockNanos_lt : 1500000000 < 2 * nanosPerSecond := by decide

theorem dueNanos_lt : 1600000000 < 2 * nanosPerSecond := by decide

/-- A clock in the leap second after the calendar, before a due time in the
    same second. -/
def lastLeapSecond : List (Instant × Call) :=
  [(.epoch, .insert { jobRef := "job", dueAt :=
      ⟨maxSeconds, 1600000000, Instant.last.le_seconds, Instant.last.seconds_le, dueNanos_lt⟩ }),
    (.epoch, .countReady { name := "k" }
      ⟨maxSeconds, 1500000000, Instant.last.le_seconds, Instant.last.seconds_le, clockNanos_lt⟩)]

/-- In the leap second after the calendar a database tells times apart that
    are one instant when they are read back. -/
theorem database_tells_leap_seconds_apart :
    ¬∀ cs : List (Instant × Call), (∀ x ∈ cs, x.2.IsPlain) →
      (∀ x ∈ cs, ∀ k, x.2.key? = some k → k.build = .ok k) → cs.length < Nat.pow 2 63 →
      AnswersAlike cs := by
  intro h
  have hplain : ∀ x ∈ lastLeapSecond, x.2.IsPlain := by
    simp only [lastLeapSecond, List.forall_mem_cons]
    refine ⟨⟨rfl, ?_⟩, ⟨⟨rfl, rfl, rfl⟩, rfl⟩, List.forall_mem_nil _⟩
    rintro j ⟨⟩
  have hbuilt : ∀ x ∈ lastLeapSecond, ∀ k, x.2.key? = some k → k.build = .ok k := by
    simp only [lastLeapSecond, List.forall_mem_cons]
    refine ⟨?_, ?_, List.forall_mem_nil _⟩ <;> rintro k ⟨⟩
    decide +kernel
  have hdatabase : (run Database.migrated lastLeapSecond).1 =
      [.ok (.inserted 1), .ok (.count 0)] := by
    decide +kernel
  have hmemory : (run MemoryStore.empty
      (lastLeapSecond.map fun x => (x.1.roundDown, x.2.rounded))).1 =
      [.ok (.inserted 1), .ok (.count 1)] := by
    decide +kernel
  have := h lastLeapSecond hplain hbuilt (by decide)
  rw [AnswersAlike, hdatabase, hmemory] at this
  exact absurd this (by decide)

end DueWork
