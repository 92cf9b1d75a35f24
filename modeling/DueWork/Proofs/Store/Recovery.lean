/-
  Recovery of stale claims, partition by partition.

  `Store.recover` is what a start does for one partition: a reset that fails
  is passed over.  `RecoveringStore` says that the recovery of one partition is
  not seen in another that is disjoint from it; the store in memory is such a
  store, and so is a database for keys that name its table and columns.

  * `recoverAll_perm`: the order of the partitions does not matter;
  * `recoverAll_eq_self_iff`: a store stays as it is only if none of them has
    a stale claim.
-/
import DueWork.Proofs.Partition.Overlap
import DueWork.Proofs.Store.Lives
import DueWork.Proofs.Store.Memory
import DueWork.Proofs.Store.Queries

namespace DueWork

open Time

namespace Store

variable {σ : Type} [JobStore σ]

/-- Defer the stale claims of a partition, if the store can, and count them. -/
def recover (s : σ) (key : Key) (cutoff now : Instant) : Nat × σ :=
  match JobStore.resetStale s key cutoff now with
  | (.ok n, s) => (n, s)
  | (.error _, s) => (0, s)

/-- Recover some partitions one after another. -/
def recoverAll (s : σ) (keys : List Key) (cutoff now : Instant) : σ :=
  keys.foldl (fun s key => (recover s key cutoff now).2) s

variable {s : σ} {key a : Key} {ks ls : List Key} {cutoff now : Instant}

theorem recover_of_ok {n : Nat} {s' : σ} (h : JobStore.resetStale s key cutoff now = (.ok n, s')) :
    recover s key cutoff now = (n, s') := by
  rw [recover, h]

theorem recoverAll_cons : recoverAll s (a :: ks) cutoff now =
    recoverAll (recover s a cutoff now).2 ks cutoff now := rfl

theorem recoverAll_append : recoverAll s (ks ++ ls) cutoff now =
    recoverAll (recoverAll s ks cutoff now) ls cutoff now := List.foldl_append

end Store

open Store

/-- A store in which the recovery of a partition concerns that partition alone. -/
class RecoveringStore (σ : Type) [JobStore σ] where
  /-- the store can be used with the key -/
  Serves : Key → σ → Prop
  serves : ∀ {a b : Key} {s : σ} {cutoff now : Instant}, Serves a s → Serves b s →
    Serves b (recover s a cutoff now).2
  /-- without a stale claim nothing changes -/
  unchanged : ∀ {a : Key} {s : σ} {cutoff now : Instant}, Serves a s →
    (recover s a cutoff now).1 = 0 → (recover s a cutoff now).2 = s
  /-- no stale claim is left -/
  again : ∀ {a : Key} {s : σ} {cutoff now : Instant}, Serves a s →
    (recover (recover s a cutoff now).2 a cutoff now).1 = 0
  /-- a disjoint partition is recovered alike before and after -/
  beside : ∀ {a b : Key} {s : σ} {cutoff now : Instant}, Serves a s → Serves b s →
    a.isDisjointFrom b = true → recover (recover s a cutoff now).2 b cutoff now =
      ((recover s b cutoff now).1, (recover (recover s b cutoff now).2 a cutoff now).2)
  /-- and is due at the same time -/
  nextDue_beside : ∀ {a b : Key} {s : σ} {cutoff now : Instant}, Serves a s → Serves b s →
    a.isDisjointFrom b = true →
      JobStore.nextDue (recover s a cutoff now).2 b = JobStore.nextDue s b

/-! ## Several partitions -/

namespace RecoveringStore

variable {σ : Type} [JobStore σ] [RecoveringStore σ]
variable {s : σ} {key a : Key} {ks ls : List Key} {cutoff now : Instant}

theorem serves_recoverAll (hks : ∀ k ∈ ks, Serves k s) (hkey : Serves key s) :
    Serves key (recoverAll s ks cutoff now) := by
  induction ks generalizing s with
  | nil => exact hkey
  | cons k ks ih =>
    obtain ⟨hk, hks⟩ := List.forall_mem_cons.1 hks
    exact ih (fun l hl => serves hk (hks l hl)) (serves hk hkey)

/-- The recovery of others does not change what there is to recover. -/
theorem recover_recoverAll (hks : ∀ k ∈ ks, Serves k s) (hkey : Serves key s)
    (hdisjoint : ∀ k ∈ ks, k.isDisjointFrom key = true) :
    recover (recoverAll s ks cutoff now) key cutoff now =
      ((recover s key cutoff now).1,
        recoverAll (recover s key cutoff now).2 ks cutoff now) := by
  induction ks generalizing s with
  | nil => rfl
  | cons k ks ih =>
    obtain ⟨hk, hks⟩ := List.forall_mem_cons.1 hks
    obtain ⟨hdk, hdks⟩ := List.forall_mem_cons.1 hdisjoint
    rw [recoverAll_cons, ih (fun l hl => serves hk (hks l hl)) (serves hk hkey) hdks,
      beside hk hkey hdk, recoverAll_cons]

/-- The recovery of others does not change when a partition is due. -/
theorem nextDue_recoverAll (hks : ∀ k ∈ ks, Serves k s) (hkey : Serves key s)
    (hdisjoint : ∀ k ∈ ks, k.isDisjointFrom key = true) :
    JobStore.nextDue (recoverAll s ks cutoff now) key = JobStore.nextDue s key := by
  induction ks generalizing s with
  | nil => rfl
  | cons k ks ih =>
    obtain ⟨hk, hks⟩ := List.forall_mem_cons.1 hks
    obtain ⟨hdk, hdks⟩ := List.forall_mem_cons.1 hdisjoint
    rw [recoverAll_cons, ih (fun l hl => serves hk (hks l hl)) (serves hk hkey) hdks,
      nextDue_beside hk hkey hdk]

/-- Disjoint partitions may be recovered in any order. -/
theorem recoverAll_perm (hperm : ks.Perm ls)
    (hdisjoint : ks.Pairwise fun a b => a.isDisjointFrom b = true)
    (hserves : ∀ k ∈ ks, Serves k s) :
    recoverAll s ks cutoff now = recoverAll s ls cutoff now := by
  induction hperm generalizing s with
  | nil => rfl
  | cons k _ ih =>
    obtain ⟨hk, hks⟩ := List.forall_mem_cons.1 hserves
    exact ih hdisjoint.of_cons fun l hl => serves hk (hks l hl)
  | swap a b ks =>
    obtain ⟨hb, hserves⟩ := List.forall_mem_cons.1 hserves
    obtain ⟨ha, -⟩ := List.forall_mem_cons.1 hserves
    have hba : b.isDisjointFrom a = true := List.rel_of_pairwise_cons hdisjoint List.mem_cons_self
    rw [recoverAll_cons, recoverAll_cons, beside hb ha hba]
    rfl
  | trans hkl _ ih₁ ih₂ =>
    rw [ih₁ hdisjoint hserves]
    exact ih₂ ((hkl.pairwise_iff Key.isDisjointFrom_comm).1 hdisjoint)
      fun k hk => hserves k (hkl.mem_iff.2 hk)

/-- A partition without stale claims is due at the same time after a recovery
    that it was part of. -/
theorem nextDue_recoverAll_of_none (hdisjoint : ks.Pairwise fun a b => a.isDisjointFrom b = true)
    (hserves : ∀ k ∈ ks, Serves k s) (hkey : key ∈ ks) (hnone : (recover s key cutoff now).1 = 0) :
    JobStore.nextDue (recoverAll s ks cutoff now) key = JobStore.nextDue s key := by
  have hperm := List.perm_cons_erase hkey
  obtain ⟨hdk, -⟩ :=
    List.pairwise_cons.1 ((hperm.pairwise_iff Key.isDisjointFrom_comm).1 hdisjoint)
  rw [recoverAll_perm hperm hdisjoint hserves, recoverAll_cons, unchanged (hserves key hkey) hnone]
  exact nextDue_recoverAll (fun l hl => hserves l (List.mem_of_mem_erase hl)) (hserves key hkey)
    fun l hl => Key.isDisjointFrom_comm (hdk l hl)

/-- A recovery leaves the store as it is only if no partition has a stale
    claim. -/
theorem recoverAll_eq_self_iff (hdisjoint : ks.Pairwise fun a b => a.isDisjointFrom b = true)
    (hserves : ∀ k ∈ ks, Serves k s) :
    recoverAll s ks cutoff now = s ↔ ∀ k ∈ ks, (recover s k cutoff now).1 = 0 := by
  constructor
  · intro h k hk
    have hperm := List.perm_cons_erase hk
    obtain ⟨hdk, hdks⟩ :=
      List.pairwise_cons.1 ((hperm.pairwise_iff Key.isDisjointFrom_comm).1 hdisjoint)
    have hserved : ∀ l ∈ ks.erase k, Serves l (recover s k cutoff now).2 :=
      fun l hl => serves (hserves k hk) (hserves l (List.mem_of_mem_erase hl))
    rw [recoverAll_perm hperm hdisjoint hserves, recoverAll_cons] at h
    -- of what was recovered nothing is left, and the others do not add to it
    rw [← h, recover_recoverAll hserved (serves (hserves k hk) (hserves k hk))
      fun l hl => Key.isDisjointFrom_comm (hdk l hl)]
    exact again (hserves k hk)
  · intro h
    induction ks with
    | nil => rfl
    | cons k ks ih =>
      obtain ⟨hk, hks⟩ := List.forall_mem_cons.1 hserves
      obtain ⟨hnone, hnones⟩ := List.forall_mem_cons.1 h
      rw [recoverAll_cons, unchanged hk hnone]
      exact ih hdisjoint.of_cons hks hnones

/-! A recovery in two parts, of which the first is the recovery of `ks` and the
    second that of `ls`. -/

section

variable (hserves : ∀ k ∈ ks ++ ls, Serves k s)
include hserves

theorem serves_later (hkey : key ∈ ks ++ ls) : Serves key (recoverAll s ks cutoff now) :=
  serves_recoverAll (fun k hk => hserves k (List.mem_append_left _ hk)) (hserves key hkey)

variable (hdisjoint : (ks ++ ls).Pairwise fun a b => a.isDisjointFrom b = true)
include hdisjoint

/-- What is stale in the second part was stale before the first. -/
theorem count_later (hkey : key ∈ ls) : (recover (recoverAll s ks cutoff now) key cutoff now).1 =
    (recover s key cutoff now).1 := by
  obtain ⟨-, -, hcross⟩ := List.pairwise_append.1 hdisjoint
  rw [recover_recoverAll (fun k hk => hserves k (List.mem_append_left _ hk))
    (hserves key (List.mem_append_right _ hkey)) fun k hk => hcross k hk key hkey]

theorem recoverAll_later_eq_iff :
    recoverAll (recoverAll s ks cutoff now) ls cutoff now = recoverAll s ks cutoff now ↔
      ∀ k ∈ ls, (recover s k cutoff now).1 = 0 := by
  obtain ⟨-, hdls, -⟩ := List.pairwise_append.1 hdisjoint
  rw [recoverAll_eq_self_iff hdls fun k hk =>
    serves_later hserves (List.mem_append_right _ hk)]
  exact forall₂_congr fun k hk => by rw [count_later hserves hdisjoint hk]

/-- The second part matters to a partition that had stale claims and is in it. -/
theorem nextDue_recoverAll_later (hkey : key ∈ ks ++ ls)
    (hnone : key ∈ ls → (recover s key cutoff now).1 = 0) :
    JobStore.nextDue (recoverAll (recoverAll s ks cutoff now) ls cutoff now) key =
      JobStore.nextDue (recoverAll s ks cutoff now) key := by
  obtain ⟨-, hdls, hcross⟩ := List.pairwise_append.1 hdisjoint
  have hserved : ∀ k ∈ ls, Serves k (recoverAll s ks cutoff now) :=
    fun k hk => serves_later hserves (List.mem_append_right _ hk)
  rcases List.mem_append.1 hkey with hk | hk
  · exact nextDue_recoverAll hserved (serves_later hserves hkey)
      fun l hl => Key.isDisjointFrom_comm (hcross key hk l hl)
  · refine nextDue_recoverAll_of_none hdls hserved hk ?_
    rw [count_later hserves hdisjoint hk]
    exact hnone hk

end

end RecoveringStore

/-! ## Changes of selected elements -/

section

variable {α : Type} {p q : α → Bool} {f g : α → α}

/-- A change of what one condition selects is not seen by another, which holds
    neither before nor after it. -/
def Unseen (p q : α → Bool) (f : α → α) : Prop := ∀ x, p x = true → q x = false ∧ q (f x) = false

theorem Unseen.filter_map (h : Unseen p q f) (l : List α) :
    (l.map fun x => if p x then f x else x).filter q = l.filter q := by
  induction l with
  | nil => rfl
  | cons x l ih =>
    rw [List.map_cons, List.filter_cons, List.filter_cons, ih]
    by_cases hp : p x = true
    · rw [if_pos hp, (h x hp).1, (h x hp).2]
      rfl
    · rw [if_neg hp]

theorem Unseen.countP_map (h : Unseen p q f) (l : List α) :
    (l.map fun x => if p x then f x else x).countP q = l.countP q := by
  rw [List.countP_eq_length_filter, h.filter_map, List.countP_eq_length_filter]

/-- Two changes that do not see each other may be made in any order. -/
theorem Unseen.map_comm (hpq : Unseen p q f) (hqp : Unseen q p g) (l : List α) :
    ((l.map fun x => if p x then f x else x).map fun x => if q x then g x else x) =
      (l.map fun x => if q x then g x else x).map fun x => if p x then f x else x := by
  rw [List.map_map, List.map_map]
  refine List.map_congr_left fun x _ => ?_
  simp only [Function.comp]
  by_cases hp : p x = true
  · simp [hp, hpq x hp]
  · by_cases hq : q x = true
    · simp [hq, hqp x hq]
    · simp [hp, hq]

/-- A change after which its condition does not hold leaves nothing selected. -/
theorem countP_map_self (h : ∀ x, p (f x) = false) (l : List α) :
    (l.map fun x => if p x then f x else x).countP p = 0 := by
  rw [List.countP_eq_zero]
  intro y hy
  obtain ⟨x, -, rfl⟩ := List.mem_map.1 hy
  split
  case isTrue => rw [h x]; exact Bool.false_ne_true
  case isFalse hp => exact hp

end

/-! ## In memory -/

namespace MemoryStore

variable {s : MemoryStore} {a b : Key} {cutoff now : Instant} {j : Job}

theorem isStale_unclaim : isStale a cutoff (unclaim j) = false := rfl

theorem owns_of_isStale (h : isStale a cutoff j = true) : a.owns j = true := by
  rw [isStale, Bool.and_eq_true, Bool.and_eq_true] at h
  exact h.1.2

/-- What is stale in one partition is not in a disjoint one. -/
theorem not_owns_of_isStale (hab : a.isDisjointFrom b = true) (h : isStale a cutoff j = true) :
    b.owns j = false := by
  rw [← Bool.not_eq_true]
  exact fun hb => Key.not_both_own hab ⟨owns_of_isStale h, hb⟩

theorem unseen_isStale (hab : a.isDisjointFrom b = true) :
    Unseen (isStale a cutoff) (isStale b cutoff) unclaim := by
  intro j h
  refine ⟨?_, isStale_unclaim⟩
  rw [isStale, not_owns_of_isStale hab h, Bool.and_false, Bool.false_and]

theorem unseen_isWaiting (hab : a.isDisjointFrom b = true) :
    Unseen (isStale a cutoff) (fun j => b.owns j && b.isReadyState j.state) unclaim := by
  intro j h
  have hnot : b.owns j = false := not_owns_of_isStale hab h
  have hnot' : b.owns (unclaim j) = false := hnot
  simp only [hnot, hnot', Bool.false_and, and_self]

theorem recover_eq : recover s a cutoff now = s.resetStale a cutoff := rfl

instance : RecoveringStore MemoryStore where
  Serves _ _ := True
  serves _ _ := trivial
  unchanged _ h := by
    simp only [recover_eq, resetStale] at h ⊢
    exact update_of_none h
  again _ := countP_map_self (fun _ => isStale_unclaim) _
  beside {a b s cutoff now} _ _ hab := by
    have hba := Key.isDisjointFrom_comm hab
    refine Prod.ext ((unseen_isStale hab).countP_map s.jobs) ?_
    simp only [recover_eq, resetStale, update, mk.injEq, and_true]
    exact (unseen_isStale hab).map_comm (unseen_isStale hba) s.jobs
  nextDue_beside {a b s cutoff now} _ _ hab :=
    congrArg (fun js => Except.ok (js.foldl (fun d j => earliest d (some j.dueAt)) none))
      ((unseen_isWaiting hab).filter_map s.jobs)

end MemoryStore

/-! ## In a database -/

namespace Entry

variable {a b : Key} {cutoff now : Instant} {e : Entry}

theorem isStale_unclaim : (e.unclaim now).isStale a cutoff = false := rfl

theorem not_accepts_of_isStale (hab : a.predicate.isDisjointFrom b.predicate = true)
    (h : e.isStale a cutoff = true) : b.predicate.accepts e.attributes = false := by
  rw [isStale, Bool.and_eq_true] at h
  rw [← Bool.not_eq_true]
  exact fun hb => Predicate.not_both_accept hab ⟨h.2, hb⟩

theorem unseen_isStale (hab : a.predicate.isDisjointFrom b.predicate = true) :
    Unseen (isStale a cutoff) (isStale b cutoff) (unclaim now) := by
  intro e h
  refine ⟨?_, isStale_unclaim⟩
  rw [isStale, not_accepts_of_isStale hab h, Bool.and_false]

theorem unseen_isWaiting (hab : a.predicate.isDisjointFrom b.predicate = true) :
    Unseen (isStale a cutoff) (isWaiting b) (unclaim now) := by
  intro e h
  have hnot : b.predicate.accepts e.attributes = false := not_accepts_of_isStale hab h
  have hnot' : b.predicate.accepts (e.unclaim now).attributes = false := hnot
  simp only [isWaiting, hnot, hnot', Bool.and_false, and_self]

end Entry

namespace Database

/-- A database with entries, and a key that names its table and columns. -/
structure Keeps (key : Key) (d : Database) : Prop where
  entries : d.HasEntries
  columns : key.UsualColumns
  type : key.instanceType = defaultInstanceType

variable {s : Entries} {a b : Key} {cutoff now : Instant}

theorem predicates_disjoint (ha : a.instanceType = defaultInstanceType)
    (hb : b.instanceType = defaultInstanceType) (h : a.isDisjointFrom b = true) :
    a.predicate.isDisjointFrom b.predicate = true := by
  rw [Key.isDisjointFrom, ha, hb] at h
  simpa using h

theorem recover_database (hk : a.UsualColumns) (ha : a.instanceType = defaultInstanceType) :
    recover s.database a cutoff now = (s.list.countP (Entry.isStale a cutoff),
      (s.update (Entry.isStale a cutoff) (Entry.unclaim now) (Entry.id_unclaim now)).database) :=
  recover_of_ok (resetStale_database hk (ha ▸ isDefaultTable_default))

instance : RecoveringStore Database where
  Serves := Keeps
  serves := by
    rintro a b _ cutoff now ⟨⟨s, rfl⟩, hka, ha⟩ ⟨-, hkb, hb⟩
    rw [recover_database hka ha]
    exact ⟨⟨_, rfl⟩, hkb, hb⟩
  unchanged := by
    rintro a _ cutoff now ⟨⟨s, rfl⟩, hk, ha⟩ h
    rw [recover_database hk ha] at h ⊢
    have hnone : s.list.any (Entry.isStale a cutoff) = false := by
      rw [List.any_eq_false]
      exact List.countP_eq_zero.1 h
    exact congrArg Entries.database (Entries.update_of_none hnone)
  again := by
    rintro a _ cutoff now ⟨⟨s, rfl⟩, hk, ha⟩
    rw [recover_database hk ha, recover_database hk ha]
    exact countP_map_self (fun _ => Entry.isStale_unclaim) s.list
  beside := by
    rintro a b _ cutoff now ⟨⟨s, rfl⟩, hka, ha⟩ ⟨-, hkb, hb⟩ hab
    have hpab := predicates_disjoint ha hb hab
    have hpba := predicates_disjoint hb ha (Key.isDisjointFrom_comm hab)
    simp only [recover_database hka ha, recover_database hkb hb]
    refine Prod.ext ((Entry.unseen_isStale hpab).countP_map s.list) ?_
    simp only [Entries.update, Entries.database]
    rw [(Entry.unseen_isStale hpab).map_comm (Entry.unseen_isStale hpba)]
  nextDue_beside := by
    rintro a b _ cutoff now ⟨⟨s, rfl⟩, hka, ha⟩ ⟨-, hkb, hb⟩ hab
    have hpab := predicates_disjoint ha hb hab
    have htable : Store.isDefaultTable b.instanceType = true := hb ▸ isDefaultTable_default
    rw [recover_database hka ha]
    show Database.nextDue _ b = Database.nextDue _ b
    rw [nextDue_database hkb htable, nextDue_database hkb htable]
    simp only [Entries.update]
    rw [(Entry.unseen_isWaiting hpab).filter_map]

end Database

end DueWork
