/-
  The partitions of a fan-out base, all at once and in two parts.

  A configuration with a fan-out passes its checks with fewer values if it
  does with all of them, and the values that are left out can still be derived
  from the base then (`ofConfig_of_split`).

  * `Key.mapM_derive`: the partitions of all values at once;
  * `ofConfig_iff` says what the checks of a configuration ask for, and
    `foldlM_addPartition` that a declaration adds its keys to those before it.
-/
import DueWork.Proofs.Manager.Registration
import DueWork.Proofs.Partition.Derivation
import DueWork.Proofs.Store.Entry

namespace DueWork

/-- Only values that are not blank have a part. -/
theorem Key.mapM_derive {k : Key} {values : List String} {ks : List Key}
    (h : values.mapM k.derive = .ok ks) :
    (∀ v ∈ values, ¬Text.IsBlank v) ∧ ks = values.map k.part := by
  have hblank : ∀ v ∈ values, ¬Text.IsBlank v := by
    induction values generalizing ks with
    | nil => exact nofun
    | cons v values ih =>
      rw [List.mapM_cons] at h
      obtain ⟨key, hkey, h⟩ := Store.bind_eq_ok h
      obtain ⟨rest, hrest, -⟩ := Store.bind_eq_ok h
      refine List.forall_mem_cons.2 ⟨fun hv => ?_, ih hrest⟩
      rw [derive, if_pos hv] at hkey
      cases hkey
  refine ⟨hblank, ?_⟩
  rw [Store.mapM_eq_ok fun v hv => derive_of_not_blank (hblank v hv)] at h
  exact (Except.ok.inj h).symm

/-- The configuration with a fan-out of a base into these values among its
    partitions. -/
def SchedulerConfig.fannedOut (c : SchedulerConfig) (before : List PartitionConfig) (base : Key)
    (after : List PartitionConfig) (values : List String) : SchedulerConfig :=
  { c with partitions := before ++ ⟨base, some values⟩ :: after }

/-- The base of a fan-out by its name. -/
def PartitionConfig.bases (p : PartitionConfig) : List (String × Key) :=
  if p.fanOut.isSome then [(p.key.name, p.key)] else []

namespace Startup

variable {s s' : Startup} {p : PartitionConfig} {ps : List PartitionConfig}
variable {c : SchedulerConfig} {processors : Processors}

/-- What the checks of a configuration ask for. -/
theorem ofConfig_iff : ofConfig c processors = .ok s ↔
    c.validate = .ok () ∧ c.partitions.foldlM addPartition ⟨[], []⟩ = .ok s ∧
      validateDisjoint s.keys = .ok () ∧
      ∀ k ∈ s.keys, processors.require k.instanceType = .ok () := by
  constructor
  · intro h
    obtain ⟨_, hvalid, h⟩ := Store.bind_eq_ok h
    obtain ⟨s, hadded, h⟩ := Store.bind_eq_ok h
    obtain ⟨_, hdisjoint, h⟩ := Store.bind_eq_ok h
    obtain ⟨_, hprocessors, h⟩ := Store.bind_eq_ok h
    cases h
    exact ⟨hvalid, hadded, hdisjoint, forM_eq_ok.1 hprocessors⟩
  · rintro ⟨hvalid, hadded, hdisjoint, hprocessors⟩
    have hchecked : (s.keys.forM fun k => processors.require k.instanceType) = .ok () :=
      forM_eq_ok.2 hprocessors
    simp only [ofConfig, hvalid, hadded, hdisjoint, hchecked, bind, Except.bind]
    rfl

/-- A declaration adds its keys, and if it is a fan-out its base. -/
theorem addPartition_iff : s.addPartition p = .ok s' ↔
    (p.fanOut.isSome && s.bases.any (·.1 == p.key.name)) = false ∧
    ∃ ks, p.expand = .ok ks ∧ s' = ⟨s.keys ++ ks, s.bases ++ p.bases⟩ := by
  have hbases : s.bases ++ p.bases =
      if p.fanOut.isSome then s.bases ++ [(p.key.name, p.key)] else s.bases := by
    rw [PartitionConfig.bases]
    split <;> simp
  rw [addPartition, hbases]
  cases p.fanOut.isSome && s.bases.any (·.1 == p.key.name) with
  | true => exact iff_of_false nofun (fun h => nomatch h.1)
  | false =>
    show p.expand.bind _ = _ ↔ _
    cases p.expand with
    | error e => exact iff_of_false nofun (fun h => nomatch h.2.choose_spec.1)
    | ok ks =>
      constructor
      · intro h
        cases h
        exact ⟨rfl, ks, rfl, rfl⟩
      · rintro ⟨-, ks', hks, rfl⟩
        cases hks
        rfl

/-- Declarations add their keys and bases, whatever the keys before them. -/
theorem foldlM_addPartition (h : ps.foldlM addPartition s = .ok s') : ∃ ks bs,
    s' = ⟨s.keys ++ ks, s.bases ++ bs⟩ ∧
    ∀ keys, ps.foldlM addPartition ⟨keys, s.bases⟩ = .ok ⟨keys ++ ks, s.bases ++ bs⟩ := by
  induction ps generalizing s with
  | nil =>
    cases h
    refine ⟨[], [], ?_, fun keys => ?_⟩
    · rw [List.append_nil, List.append_nil]
    · rw [List.append_nil, List.append_nil]
      rfl
  | cons p ps ih =>
    obtain ⟨s₁, hadd, h⟩ := Store.bind_eq_ok h
    obtain ⟨hnew, ks₁, hks₁, rfl⟩ := addPartition_iff.1 hadd
    obtain ⟨ks, bs, rfl, hall⟩ := ih h
    refine ⟨ks₁ ++ ks, p.bases ++ bs, ?_, fun keys => ?_⟩
    · rw [List.append_assoc, List.append_assoc]
    · have hadd' : addPartition ⟨keys, s.bases⟩ p = .ok ⟨keys ++ ks₁, s.bases ++ p.bases⟩ :=
        addPartition_iff.2 ⟨hnew, ks₁, hks₁, rfl⟩
      rw [List.foldlM_cons, hadd', ← List.append_assoc, ← List.append_assoc]
      exact hall (keys ++ ks₁)

/-- The base of a fan-out is found by its name. -/
theorem lookup_base {base : Key} {bases bs : List (String × Key)}
    (hnew : (bases.any (·.1 == base.name)) = false) :
    (bases ++ [(base.name, base)] ++ bs).lookup base.name = some base := by
  have hnone : bases.lookup base.name = none := by
    rw [List.lookup_eq_none_iff]
    intro x hx
    have := List.any_eq_false.1 hnew x hx
    simpa using fun h => this (beq_iff_eq.2 h.symm)
  rw [List.append_assoc, List.lookup_append, hnone, Option.none_or, List.singleton_append,
    List.lookup_cons, beq_self_eq_true]

variable {before after : List PartitionConfig} {base : Key} {values configured late : List String}

/-- A fan-out with some of its values passes the checks that it passes with all
    of them, and leaves the others to be derived. -/
theorem ofConfig_of_split
    (h : ofConfig (c.fannedOut before base after values) processors = .ok s)
    (hsplit : (configured ++ late).Perm values) :
    ∃ start, ofConfig (c.fannedOut before base after configured) processors = .ok start ∧
      (start.keys ++ late.map base.part).Perm s.keys ∧
      start.bases.lookup base.name = some base ∧ ∀ v ∈ late, ¬Text.IsBlank v := by
  obtain ⟨hvalid, hadded, hdisjoint, hprocessors⟩ := ofConfig_iff.1 h
  rw [SchedulerConfig.fannedOut, List.foldlM_append] at hadded
  obtain ⟨s₁, hbefore, hadded⟩ := Store.bind_eq_ok hadded
  obtain ⟨s₂, hbase, hafter⟩ := Store.bind_eq_ok hadded
  obtain ⟨hnew, ks, hderived, rfl⟩ := addPartition_iff.1 hbase
  obtain ⟨hblank, rfl⟩ := Key.mapM_derive hderived
  obtain ⟨ks, bs, rfl, hall⟩ := foldlM_addPartition hafter
  have hlate : ∀ v ∈ late, ¬Text.IsBlank v :=
    fun v hv => hblank v (hsplit.mem_iff.1 (List.mem_append_right _ hv))
  have hconfigured : configured.mapM base.derive = .ok (configured.map base.part) :=
    Store.mapM_eq_ok fun v hv =>
      Key.derive_of_not_blank (hblank v (hsplit.mem_iff.1 (List.mem_append_left _ hv)))
  have hperm : (s₁.keys ++ configured.map base.part ++ ks ++ late.map base.part).Perm
      (s₁.keys ++ values.map base.part ++ ks) := by
    have hparts := hsplit.map base.part
    rw [List.map_append] at hparts
    rw [List.append_assoc, List.append_assoc, List.append_assoc]
    refine List.Perm.append_left _ ?_
    refine (List.Perm.append_left _ List.perm_append_comm).trans ?_
    rw [← List.append_assoc]
    exact hparts.append_right ks
  refine ⟨⟨s₁.keys ++ configured.map base.part ++ ks,
      s₁.bases ++ [(base.name, base)] ++ bs⟩, ofConfig_iff.2 ⟨hvalid, ?_, ?_, ?_⟩,
    hperm, lookup_base hnew, hlate⟩
  · have hadd : s₁.addPartition ⟨base, some configured⟩ =
        .ok ⟨s₁.keys ++ configured.map base.part, s₁.bases ++ [(base.name, base)]⟩ :=
      addPartition_iff.2 ⟨hnew, _, hconfigured, rfl⟩
    rw [SchedulerConfig.fannedOut, List.foldlM_append, hbefore]
    show List.foldlM addPartition s₁ (⟨base, some configured⟩ :: after) = _
    rw [List.foldlM_cons, hadd]
    exact hall _
  · have hapart := (hperm.pairwise_iff Key.Apart.symm).2 (validateDisjoint_iff.1 hdisjoint)
    exact validateDisjoint_iff.2 (List.pairwise_append.1 hapart).1
  · exact fun k hk => hprocessors k (hperm.mem_iff.1 (List.mem_append_left _ hk))

end Startup

end DueWork
