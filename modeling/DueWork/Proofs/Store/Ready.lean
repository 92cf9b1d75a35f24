/-
  What is ready in memory.

  The ready list holds the instances of a partition that are ready, in
  strictly increasing order of due time and id, and it is the only list that
  does (`ready_eq`).  So when the first of them is no longer ready, and
  nothing else changed, the rest is what is left (`ready_updateAt`).
-/
import Mathlib.Data.List.Perm.Basic
import DueWork.Proofs.Store.Lifecycle
import DueWork.Proofs.Store.Memory

namespace DueWork

open Time

/-- Strictly earlier by due time, then by id. -/
def Job.Before (a b : Job) : Prop := a.dueAt < b.dueAt ∨ a.dueAt = b.dueAt ∧ a.id < b.id

instance (a b : Job) : Decidable (a.Before b) := inferInstanceAs (Decidable (_ ∨ _))

theorem Time.Instant.eq_iff {a b : Instant} : a = b ↔ a.seconds = b.seconds ∧ a.nanos = b.nanos := by
  cases a
  cases b
  rw [Instant.mk.injEq]

namespace Job

/-- The order by seconds, nanoseconds and ids. -/
theorem before_iff {a b : Job} : a.Before b ↔ a.dueAt.seconds < b.dueAt.seconds ∨
    a.dueAt.seconds = b.dueAt.seconds ∧ (a.dueAt.nanos < b.dueAt.nanos ∨
      a.dueAt.nanos = b.dueAt.nanos ∧ a.id < b.id) := by
  rw [Before, Instant.lt_def, Instant.eq_iff]
  omega

theorem Before.irrefl (a : Job) : ¬a.Before a := by
  rw [before_iff]
  omega

theorem Before.asymm {a b : Job} (h : a.Before b) : ¬b.Before a := by
  rw [before_iff] at *
  omega

end Job

namespace Key

/-- The ready state of a key is one to claim from. -/
theorem isClaimable_readyState {key key' : Key} (h : key.build = .ok key') :
    key.readyState.isClaimable = true := by
  by_cases hname : Text.IsBlank key.name
  · simp only [build, hname, if_true] at h
    cases h
  · simp only [build, hname, if_false] at h
    iterate 6 obtain ⟨_, -, h⟩ := Store.bind_eq_ok h
    cases hc : key.readyState.isClaimable with
    | true => rfl
    | false =>
      simp only [hc, Bool.not_false, if_true] at h
      cases h

theorem isReadyState_iff {key : Key} {st : State} :
    key.isReadyState st = true ↔ st = key.readyState ∨ st = .deferred := by
  rw [isReadyState, Bool.or_eq_true, beq_iff_eq, beq_iff_eq]

/-- What is in a ready state can be claimed. -/
theorem isClaimable_of_isReadyState {key key' : Key} (h : key.build = .ok key') {st : State}
    (hst : key.isReadyState st = true) : st.isClaimable = true := by
  rcases isReadyState_iff.1 hst with rfl | rfl
  · exact isClaimable_readyState h
  · rfl

end Key

namespace MemoryStore

variable {s : MemoryStore} {key : Key} {now : Instant}

/-- The ready list is sorted by what is not after. -/
theorem earlier_iff {a b : Job} : earlier a b = true ↔ ¬b.Before a := by
  rw [Job.before_iff]
  simp only [earlier, Bool.or_eq_true, decide_eq_true_eq, Bool.and_eq_true, beq_iff_eq,
    Instant.lt_def, Instant.eq_iff]
  omega

theorem earlier_trans (a b c : Job) (hab : earlier a b = true) (hbc : earlier b c = true) :
    earlier a c = true := by
  rw [earlier_iff, Job.before_iff] at *
  omega

theorem earlier_total (a b : Job) : (earlier a b || earlier b a) = true := by
  rw [Bool.or_eq_true, earlier_iff, earlier_iff, Job.before_iff, Job.before_iff]
  omega

theorem mem_ready {j : Job} : j ∈ s.ready key now ↔ j ∈ s.jobs ∧ key.isReady j now = true := by
  rw [ready, List.mem_mergeSort, List.mem_filter]

theorem length_ready : (s.ready key now).length = s.jobs.countP (key.isReady · now) := by
  rw [ready, List.length_mergeSort, List.countP_eq_length_filter]

theorem inj_of_mem {j j' : Job} (h : j ∈ s.jobs) (h' : j' ∈ s.jobs) (hid : j.id = j'.id) :
    j = j' := by
  have hj := find?_eq_some.2 ⟨h, hid⟩
  rw [find?_eq_some.2 ⟨h', rfl⟩] at hj
  exact (Option.some.inj hj).symm

/-- The ready list is in strict order. -/
theorem ready_pairwise : (s.ready key now).Pairwise Job.Before := by
  have hsorted : (s.ready key now).Pairwise fun a b => earlier a b = true :=
    List.pairwise_mergeSort earlier_trans earlier_total _
  have hnodup : (s.ready key now).Pairwise fun a b => a ≠ b := by
    have hjobs : s.jobs.Nodup := s.sorted.imp fun {a b} h hab => by
      rw [hab] at h
      omega
    exact (List.mergeSort_perm ..).nodup_iff.2 (hjobs.filter _)
  refine (hsorted.and hnodup).imp_of_mem fun {a b} ha hb h => ?_
  have hid : a.id ≠ b.id := fun hid => h.2 (inj_of_mem (mem_ready.1 ha).1 (mem_ready.1 hb).1 hid)
  have hle := earlier_iff.1 h.1
  rw [Job.before_iff] at *
  omega

theorem nodup_of_pairwise {js : List Job} (h : js.Pairwise Job.Before) : js.Nodup := by
  refine h.imp fun {a b} hab => ?_
  rintro rfl
  exact Job.Before.irrefl a hab

/-- There is one list in strict order with these elements. -/
theorem ready_eq {js : List Job} (horder : js.Pairwise Job.Before)
    (hmem : ∀ j, j ∈ js ↔ j ∈ s.jobs ∧ key.isReady j now = true) : s.ready key now = js := by
  have hperm : (s.ready key now).Perm js := by
    rw [List.perm_ext_iff_of_nodup (nodup_of_pairwise ready_pairwise) (nodup_of_pairwise horder)]
    exact fun j => mem_ready.trans (hmem j).symm
  refine hperm.eq_of_pairwise (fun a b _ _ hab hba => ?_) ready_pairwise horder
  exact absurd hba hab.asymm

/-- When the first of the ready instances is no longer ready, the others are
    left. -/
theorem ready_updateAt {f : Job → Job} {keepsId : ∀ j, (f j).id = j.id} {j : Job} {js : List Job}
    (h : s.ready key now = j :: js) (hf : key.isReady (f j) now = false) :
    (s.updateAt j.id f keepsId).ready key now = js := by
  have horder : (j :: js).Pairwise Job.Before := h ▸ ready_pairwise
  obtain ⟨hfirst, hrest⟩ := List.pairwise_cons.1 horder
  have hj : j ∈ s.jobs := (mem_ready.1 (h ▸ List.mem_cons_self : j ∈ s.ready key now)).1
  have hmem : ∀ i, i ∈ j :: js ↔ i ∈ s.jobs ∧ key.isReady i now = true := by
    intro i
    rw [← h, mem_ready]
  refine ready_eq hrest fun i => ?_
  show _ ↔ i ∈ s.jobs.map (fun j' => if j'.id = j.id then f j' else j') ∧ _
  rw [List.mem_map]
  constructor
  · intro hi
    obtain ⟨his, hready⟩ := (hmem i).1 (List.mem_cons_of_mem _ hi)
    have hne : i.id ≠ j.id := by
      intro hid
      rw [inj_of_mem his hj hid] at hi
      exact Job.Before.irrefl j (hfirst j hi)
    exact ⟨⟨i, his, if_neg hne⟩, hready⟩
  · rintro ⟨⟨i', hi', rfl⟩, hready⟩
    by_cases hid : i'.id = j.id
    · rw [if_pos hid, inj_of_mem hi' hj hid, hf] at hready
      cases hready
    · rw [if_neg hid] at hready ⊢
      rcases List.mem_cons.1 ((hmem i').2 ⟨hi', hready⟩) with rfl | hi
      · exact absurd rfl hid
      · exact hi

/-! ## The next due time -/

/-- An instance in a ready state of the partition, due or not. -/
def IsWaiting (s : MemoryStore) (key : Key) (j : Job) : Prop :=
  j ∈ s.jobs ∧ key.owns j = true ∧ key.isReadyState j.state = true

/-- The least of a due time and those of some instances. -/
theorem foldl_earliest (js : List Job) (d : Instant) :
    ∃ d', js.foldl (fun d j => earliest d (some j.dueAt)) (some d) = some d' ∧ d' ≤ d ∧
      (∀ j ∈ js, d' ≤ j.dueAt) ∧ (d' = d ∨ ∃ j ∈ js, j.dueAt = d') := by
  induction js generalizing d with
  | nil => exact ⟨d, rfl, Instant.le_refl d, by simp, .inl rfl⟩
  | cons j js ih =>
    obtain ⟨d', hd', hle, hall, hattained⟩ := ih (min d j.dueAt)
    have hmin : min d j.dueAt ≤ d ∧ min d j.dueAt ≤ j.dueAt ∧
        (min d j.dueAt = d ∨ min d j.dueAt = j.dueAt) := by
      show (if d ≤ j.dueAt then d else j.dueAt) ≤ d ∧ (if d ≤ j.dueAt then d else j.dueAt) ≤ _ ∧
        ((if d ≤ j.dueAt then d else j.dueAt) = d ∨ (if d ≤ j.dueAt then d else j.dueAt) = _)
      rcases Instant.le_total d j.dueAt with h | h
      · rw [if_pos h]
        exact ⟨Instant.le_refl d, h, .inl rfl⟩
      · split
        case isTrue h' => exact ⟨Instant.le_refl d, h', .inl rfl⟩
        case isFalse => exact ⟨h, Instant.le_refl _, .inr rfl⟩
    refine ⟨d', hd', Instant.le_trans hle hmin.1, ?_, ?_⟩
    · intro j' hj'
      rcases List.mem_cons.1 hj' with rfl | hj'
      · exact Instant.le_trans hle hmin.2.1
      · exact hall j' hj'
    · rcases hattained with h | ⟨j', hj', h⟩
      · rcases hmin.2.2 with hm | hm
        · exact .inl (h.trans hm)
        · exact .inr ⟨j, List.mem_cons_self, (h.trans hm).symm⟩
      · exact .inr ⟨j', List.mem_cons_of_mem _ hj', h⟩

theorem mem_filter_waiting {j : Job} :
    j ∈ (s.jobs.filter fun j => key.owns j && key.isReadyState j.state) ↔ s.IsWaiting key j := by
  rw [List.mem_filter, Bool.and_eq_true, IsWaiting]

/-- The next due time is the least one of the instances in a ready state. -/
theorem nextDue_eq_some {d : Instant} (h : s.nextDue key = some d) :
    (∃ j, s.IsWaiting key j ∧ j.dueAt = d) ∧ ∀ j, s.IsWaiting key j → d ≤ j.dueAt := by
  simp only [← mem_filter_waiting]
  rw [nextDue] at h
  generalize s.jobs.filter (fun j => key.owns j && key.isReadyState j.state) = js at h ⊢
  cases js with
  | nil => cases h
  | cons j js =>
    obtain ⟨d', hd', hle, hall, hattained⟩ := foldl_earliest js j.dueAt
    rw [List.foldl_cons, show earliest none (some j.dueAt) = some j.dueAt from rfl, hd'] at h
    cases h
    refine ⟨?_, ?_⟩
    · rcases hattained with h | ⟨j', hj', h⟩
      · exact ⟨j, List.mem_cons_self, h.symm⟩
      · exact ⟨j', List.mem_cons_of_mem _ hj', h⟩
    · intro j' hj'
      rcases List.mem_cons.1 hj' with rfl | hj'
      · exact hle
      · exact hall j' hj'

theorem nextDue_eq_none (h : s.nextDue key = none) (j : Job) : ¬s.IsWaiting key j := by
  rw [← mem_filter_waiting]
  rw [nextDue] at h
  generalize s.jobs.filter (fun j => key.owns j && key.isReadyState j.state) = js at h ⊢
  cases js with
  | nil => simp
  | cons j' js =>
    obtain ⟨d', hd', -⟩ := foldl_earliest js j'.dueAt
    rw [List.foldl_cons, show earliest none (some j'.dueAt) = some j'.dueAt from rfl, hd'] at h
    cases h

/-- When nothing is ready, what is left in a ready state is due later. -/
theorem lt_dueAt_of_ready_nil (h : s.ready key now = []) {j : Job} (hj : s.IsWaiting key j) :
    now < j.dueAt := by
  rw [← Instant.not_le]
  intro hle
  have hready : key.isReady j now = true := by
    rw [Key.isReady, hj.2.1, hj.2.2]
    exact decide_eq_true hle
  have := mem_ready.2 ⟨hj.1, hready⟩
  rw [h] at this
  cases this

end MemoryStore

end DueWork
