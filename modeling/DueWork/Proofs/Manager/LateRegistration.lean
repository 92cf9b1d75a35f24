/-
  Values of a fan-out that are registered after the start.

  A start recovers stale claims and then adds its partitions; a registration
  only adds one.  So a manager that gets some values of a fan-out later on ends
  up as one that was started with all of them, but for stale claims: those of
  the later partitions stay as they are.

  * `startManager_enrolled` and `registerValue_enrolled` say what the two ways
    leave, in terms of `Enrolled`;
  * `registered_late_as_at_start` compares them, `late_claim_stays_stale`
    is the case of a claim that only a start takes back.
-/
import DueWork.Proofs.Manager.Enrolment
import DueWork.Proofs.Manager.FanOut
import DueWork.Proofs.Store.Recovery
import Mathlib.Data.List.Pairwise

namespace DueWork

open Time Signal Schedule

namespace SchedulerConfig

variable {σ : Type} [JobStore σ]

/-- How many claims of a partition a start takes back. -/
def staleClaims (c : SchedulerConfig) (clock : Clock) (store : σ) (key : Key) : Nat :=
  match c.staleClaimTimeout with
  | some age => (Store.recover store key (clock.wall.minus age) clock.wall).1
  | none => 0

/-- The store after a start took back the stale claims of some partitions. -/
def recovered (c : SchedulerConfig) (clock : Clock) (store : σ) (keys : List Key) : σ :=
  match c.staleClaimTimeout with
  | some age => Store.recoverAll store keys (clock.wall.minus age) clock.wall
  | none => store

variable [RecoveringStore σ] {store : σ} {early later ks : List Key}

/-- A start without some partitions leaves their stale claims for a later
    recovery, and what is not stale as it is. -/
theorem recovered_split (c : SchedulerConfig) (clock : Clock)
    (hperm : (early ++ later).Perm ks) (hapart : ks.Pairwise Key.Apart)
    (hserves : c.staleClaimTimeout ≠ none → ∀ k ∈ ks, RecoveringStore.Serves k store) :
    c.recovered clock store ks = c.recovered clock (c.recovered clock store early) later ∧
    (c.recovered clock store ks = c.recovered clock store early ↔
      ∀ k ∈ later, c.staleClaims clock store k = 0) ∧
    ∀ k ∈ early ++ later, (k ∈ later → c.staleClaims clock store k = 0) →
      JobStore.nextDue (c.recovered clock store ks) k =
        JobStore.nextDue (c.recovered clock store early) k := by
  simp only [recovered, staleClaims]
  cases hage : c.staleClaimTimeout with
  | none => exact ⟨rfl, iff_of_true rfl fun _ _ => rfl, fun _ _ _ => rfl⟩
  | some age =>
    have hdisjoint : (early ++ later).Pairwise fun a b => a.isDisjointFrom b = true :=
      ((hperm.pairwise_iff Key.Apart.symm).2 hapart).imp Key.Apart.disjoint
    have hserved : ∀ k ∈ early ++ later, RecoveringStore.Serves k store :=
      fun k hk => hserves (by rw [hage]; exact nofun) k (hperm.mem_iff.1 hk)
    dsimp only
    rw [← RecoveringStore.recoverAll_perm hperm hdisjoint hserved, Store.recoverAll_append]
    exact ⟨rfl, RecoveringStore.recoverAll_later_eq_iff hserved hdisjoint,
      fun k hk => RecoveringStore.nextDue_recoverAll_later hserved hdisjoint hk⟩

end SchedulerConfig

namespace Simulation

namespace Run

variable {σ : Type} {r : Run σ}

/-- Nothing is made to fail. -/
def Quiet (r : Run σ) : Prop := r.failures = []

theorem Quiet.takeFailure (h : r.Quiet) (m : Method) : r.takeFailure m = (none, r) := by
  obtain ⟨_, _, failures⟩ := r
  cases h
  rfl

variable [ScriptedStore σ] {g : Ground σ} {ks ls : List Key} {key : Key}

/-! ## What a start and a registration leave -/

theorem Quiet.recover (h : r.Quiet) (cutoff : Instant) (ks : List Key) :
    r.recover cutoff ks =
      r.setStore (Store.recoverAll r.system.shared.store ks cutoff r.system.clock.wall) := by
  induction ks generalizing r with
  | nil => rfl
  | cons k ks ih =>
    have hstep : r.system.recover k cutoff = (r.setStore
        (Store.recover r.system.shared.store k cutoff r.system.clock.wall).2).system := by
      rw [System.recover, Store.recover]
      rcases JobStore.resetStale r.system.shared.store k cutoff r.system.clock.wall with
        ⟨_ | _, _⟩ <;> rfl
    have hcons : r.recover cutoff (k :: ks) =
        ({ r with system := r.system.recover k cutoff } : Run σ).recover cutoff ks := by
      rw [Run.recover, List.foldl_cons, h.takeFailure]
      rfl
    rw [hcons, hstep]
    exact ih h

/-- A partition gets the next slot, whatever becomes of the call of the store. -/
theorem addPartition_eq (r : Run σ) (key : Key) (halive : r.system.loopAlive = true)
    (hidle : r.system.registrations = []) : ∃ registry, ∃ r' : Run σ,
    r.addPartition key = (.ok r.system.posts.length, r') ∧
    r'.failures = (r.takeFailure .nextDue).2.failures ∧
    r'.system = { r.system.enlisted key
        (r.system.dueBy key ((r.takeFailure .nextDue).1.map failureError)) registry with
      registrations := [⟨r.system.posts.length, .attached⟩] } := by
  let claimed : Run σ := { r with system := r.system.claimKey key }
  obtain ⟨s', registry, hsend, hattach⟩ := r.system.register_eq key
    ((r.takeFailure .nextDue).1.map failureError) halive hidle
  refine ⟨registry, (claimed.takeFailure .nextDue).2.withSystem
    ((s'.publish r.system.posts.length).attach r.system.posts.length), ?_, ?_, ?_⟩
  · have hfailure : (claimed.takeFailure .nextDue).1 = (r.takeFailure .nextDue).1 := rfl
    have hsystem : (claimed.takeFailure .nextDue).2.system = r.system.claimKey key := rfl
    simp only [addPartition]
    rw [hfailure, hsystem, hsend]
  · simp only [withSystem, enqueue]
    split
    · rfl
    · split <;> rfl
  · rw [withSystem_system, hattach]

/-- A partition is added. -/
theorem addPartition_enrolled (r : Run σ) (key : Key) (hquiet : r.Quiet)
    (h : r.system.Enrolled g ks) : ∃ r' : Run σ,
    r.addPartition key = (.ok r.system.posts.length, r') ∧ r'.Quiet ∧
    (r'.system.forget r.system.posts.length).Enrolled g (ks ++ [key]) ∧
    (r'.system.announce r.system.posts.length).Enrolled g (ks ++ [key]) := by
  obtain ⟨registry, r', hadd, hfailures, hsystem⟩ := r.addPartition_eq key h.alive h.idle
  rw [hquiet.takeFailure] at hfailures hsystem
  rw [Option.map_none, System.dueBy_none] at hsystem
  have hadded : (r.system.added key registry).Enrolled g (ks ++ [key]) := h.added
  refine ⟨r', hadd, hfailures.trans hquiet, ?_, ?_⟩
  · rw [hsystem]
    exact (System.forget_self (r.system.added key registry) _ _ hadded.idle).symm ▸ hadded
  · rw [hsystem]
    have hpublished := hadded.publishAll [.partitionRegistered
      (System.partitionName { r.system.added key registry with
        registrations := [⟨r.system.posts.length, .attached⟩] } r.system.posts.length)]
    rw [← System.forget_self _ r.system.posts.length .attached hpublished.idle] at hpublished
    exact hpublished

/-- Add partitions one after the other. -/
def addAll (r : Run σ) (ks : List Key) : Run σ :=
  ks.foldl (fun r k =>
    let (slot, r) := r.addPartition k
    match slot with
    | .ok slot => { r with system := r.system.forget slot }
    | .error _ => r) r

theorem addAll_enrolled (hquiet : r.Quiet) (h : r.system.Enrolled g ks) :
    (r.addAll ls).Quiet ∧ (r.addAll ls).system.Enrolled g (ks ++ ls) := by
  induction ls generalizing r ks with
  | nil =>
    rw [List.append_nil]
    exact ⟨hquiet, h⟩
  | cons k ls ih =>
    obtain ⟨r₁, hadd, hquiet₁, hforgotten, -⟩ := r.addPartition_enrolled k hquiet h
    have hcons : r.addAll (k :: ls) =
        addAll { r₁ with system := r₁.system.forget r.system.posts.length } ls := by
      rw [addAll, List.foldl_cons, hadd]
      rfl
    rw [hcons, List.append_cons]
    exact ih hquiet₁ hforgotten

/-- A start recovers stale claims and adds the partitions of the
    configuration. -/
theorem startManager_enrolled {config : SchedulerConfig} {processors : Processors}
    {startup : Startup} (hquiet : r.Quiet)
    (h : Startup.ofConfig config processors = .ok startup) : ∃ r' : Run σ,
    r.startManager config processors = .ok r' ∧ r'.Quiet ∧
    r'.system.Enrolled ⟨config.recovered r.system.clock r.store startup.keys, r.system.clock,
      config.pollInterval⟩ startup.keys := by
  let built : Run σ :=
    { r with system := System.ofConfig config processors startup r.store r.system.clock }
  let base : Run σ := match config.staleClaimTimeout with
    | some age => built.recover (r.system.clock.wall.minus age) startup.keys
    | none => built
  have hbase : base = built.setStore (config.recovered r.system.clock r.store startup.keys) := by
    show (match config.staleClaimTimeout with | some age => _ | none => _) = _
    rw [SchedulerConfig.recovered]
    cases config.staleClaimTimeout with
    | none => rfl
    | some age => exact Quiet.recover (show built.Quiet from hquiet) _ _
  have hstart : r.startManager config processors = .ok { base.addAll startup.keys with
      subscriber := (base.addAll startup.keys).system.shared.events.subscribe } := by
    rw [startManager, h]
    rfl
  have hquiet' : base.Quiet := by
    rw [hbase]
    exact hquiet
  have henrolled : base.system.Enrolled ⟨config.recovered r.system.clock r.store startup.keys,
      r.system.clock, config.pollInterval⟩ [] := by
    rw [hbase]
    exact System.Enrolled.start config processors startup _ _
  exact ⟨_, hstart, addAll_enrolled hquiet' henrolled⟩

/-- A value of a base is added if its partition is new. -/
theorem registerValue_enrolled {base : Key} {name value : String} (hquiet : r.Quiet)
    (h : r.system.Enrolled g ks) (hbase : r.system.bases.lookup name = some base)
    (hblank : ¬Text.IsBlank value) (hnew : r.system.requireNew (base.part value) = .ok ()) :
    ∃ slot, ∃ r' : Run σ, r.registerValue name value = (.ok slot, r') ∧ r'.Quiet ∧
      r'.system.Enrolled g (ks ++ [base.part value]) ∧
      r'.system.terms = r.system.terms.take (base.part value) := by
  obtain ⟨r₁, hadd, hquiet₁, -, hannounced⟩ := r.addPartition_enrolled (base.part value) hquiet h
  have hregister : r.register (base.part value) = (.ok r.system.posts.length,
      { r₁ with system := r₁.system.announce r.system.posts.length }) := by
    rw [register, hnew]
    simp only
    rw [hadd]
  refine ⟨r.system.posts.length, { r₁ with system := r₁.system.announce r.system.posts.length },
    ?_, hquiet₁, hannounced, ?_⟩
  · rw [registerValue, hbase]
    simp only
    rw [Key.derive_of_not_blank hblank]
    exact hregister
  · obtain ⟨e, hrefused, -⟩ | ⟨-, hterms, -⟩ := r.register_cases (base.part value)
    · rw [hnew] at hrefused
      cases hrefused
    · rw [hregister] at hterms
      exact hterms

/-- The moves register these values of a base in this order, and in between the
    dispatcher handles commands. -/
inductive Registers (base : String) : List Move → List String → Prop
  | nil : Registers base [] []
  | value {ms : List Move} {values : List String} (value : String)
    (rest : Registers base ms values) :
    Registers base (.registerValue base value :: ms) (value :: values)
  | handle {ms : List Move} {values : List String} (h : ∀ key, Action.handle ≠ .claimKey key)
    (rest : Registers base ms values) : Registers base (.meanwhile .handle h :: ms) values

/-- Values that are registered one after the other. -/
theorem moves_enrolled {base : Key} {ms : List Move} {late : List String}
    {bases : List (String × Key)} {processors : Processors}
    (hms : Registers base.name ms late) (hquiet : r.Quiet) (h : r.system.Enrolled g ks)
    (hterms : r.system.terms = ⟨ks, bases, processors, false, true⟩)
    (hbase : bases.lookup base.name = some base) (hblank : ∀ v ∈ late, ¬Text.IsBlank v)
    (hprocessor : ∀ v ∈ late, processors.require base.instanceType = .ok ())
    (hapart : (ks ++ late.map base.part).Pairwise Key.Apart) :
    (∀ a ∈ (r.moves ms).1, ∃ slot, a = .ok slot) ∧
    (r.moves ms).2.system.Enrolled g (ks ++ late.map base.part) := by
  induction hms generalizing r ks with
  | nil =>
    rw [List.map_nil, List.append_nil]
    exact ⟨List.forall_mem_nil _, h⟩
  | handle _ rest ih =>
    refine ih (r := { r with system := r.system.handleCommand }) hquiet h.handle ?_ hblank
      hprocessor hapart
    exact (System.terms_next r.system .handle).trans hterms
  | value v rest ih =>
    obtain ⟨hv, hblank⟩ := List.forall_mem_cons.1 hblank
    obtain ⟨hpv, hprocessor⟩ := List.forall_mem_cons.1 hprocessor
    rw [List.map_cons, List.append_cons] at hapart ⊢
    have hpair := (List.pairwise_append.1 (List.pairwise_append.1 hapart).1).2.2
    have hprocessors : r.system.processors = processors := congrArg Terms.processors hterms
    have hbases : r.system.bases = bases := congrArg Terms.bases hterms
    have hnew : r.system.requireNew (base.part v) = .ok () := by
      refine System.requireNew_iff.2 ⟨congrArg Terms.stopped hterms, ?_, ?_⟩
      · rw [hprocessors]
        exact hpv
      · rw [h.keys, requireNewKey_iff]
        exact fun l hl => hpair l hl _ List.mem_cons_self
    obtain ⟨slot, r₁, hregister, hquiet₁, h₁, hterms₁⟩ :=
      registerValue_enrolled hquiet h (hbases ▸ hbase) hv hnew
    rw [hterms] at hterms₁
    obtain ⟨hanswers, henrolled⟩ := ih hquiet₁ h₁ hterms₁ hblank hprocessor hapart
    rw [moves, move, hregister]
    exact ⟨List.forall_mem_cons.2 ⟨⟨slot, rfl⟩, hanswers⟩, henrolled⟩

end Run

end Simulation

/-! ## The comparison -/

/-- Managers that differ at most by stale claims of some partitions: the first
    took them back when it started, the second did not. -/
structure SameBut {σ : Type} [JobStore σ] (config : SchedulerConfig) (clock : Clock)
    (original : σ) (later : List Key) (s t : System σ) : Prop where
  partitions : s.partitions = t.partitions
  keys : ∀ name, (s.partition? name).map (·.1) = (t.partition? name).map (·.1)
  /-- partitions are looked at at the same time, but for stale claims -/
  wakes : ∀ name, (∀ k ∈ later, k.name = name → config.staleClaims clock original k = 0) →
    s.partition? name = t.partition? name
  /-- the recovery of the later partitions is what the stores differ by -/
  store : s.shared.store = config.recovered clock t.shared.store later
  /-- so they are the same exactly if these had no stale claims -/
  same : s.shared.store = t.shared.store ↔ ∀ k ∈ later, config.staleClaims clock original k = 0

theorem name_of_find? {ks : List Key} {k : Key} {name : String}
    (h : ks.find? (·.name == name) = some k) : k.name = name := by
  simpa using List.find?_some h

/-- Keys are found by name in any order. -/
theorem find?_name_of_perm {ks ls : List Key} (hperm : ks.Perm ls) (hapart : ks.Pairwise Key.Apart)
    (name : String) : ks.find? (·.name == name) = ls.find? (·.name == name) := by
  have hfind {ms : List Key} (hms : ms.Pairwise Key.Apart) (k : Key) :
      ms.find? (·.name == name) = some k ↔ k ∈ ms ∧ k.name = name := by
    constructor
    · intro h
      exact ⟨List.mem_of_find?_eq_some h, name_of_find? h⟩
    · rintro ⟨hk, rfl⟩
      have hfound : (ms.find? (·.name == k.name)).isSome :=
        List.find?_isSome.2 ⟨k, hk, by rw [beq_self_eq_true]⟩
      obtain ⟨l, hl⟩ := Option.isSome_iff_exists.1 hfound
      by_cases hlk : l = k
      · rw [hl, hlk]
      · exact absurd (name_of_find? hl)
          (hms.forall (List.mem_of_find?_eq_some hl) hk hlk).name
  ext k
  rw [hfind hapart, hfind ((hperm.pairwise_iff Key.Apart.symm).1 hapart), hperm.mem_iff]

theorem Ground.wake?_congr {σ : Type} [JobStore σ] {g g' : Ground σ} {k : Key}
    (hclock : g.clock = g'.clock) (hpoll : g.poll = g'.poll)
    (hdue : JobStore.nextDue g.store k = JobStore.nextDue g'.store k) : g.wake? k = g'.wake? k := by
  rw [wake?, wake?, due?, due?, hclock, hpoll, hdue]

/-- Managers that enrolled the same partitions, all of them at the start or
    some of them later. -/
theorem System.Enrolled.sameBut {σ : Type} [JobStore σ] [RecoveringStore σ] {s t : System σ}
    (config : SchedulerConfig) {clock : Clock} {store : σ} {poll : Option Duration}
    {ks early later : List Key}
    (hs : s.Enrolled ⟨config.recovered clock store ks, clock, poll⟩ ks)
    (ht : t.Enrolled ⟨config.recovered clock store early, clock, poll⟩ (early ++ later))
    (hperm : (early ++ later).Perm ks) (hapart : ks.Pairwise Key.Apart)
    (hserves : config.staleClaimTimeout ≠ none → ∀ k ∈ ks, RecoveringStore.Serves k store) :
    SameBut config clock store later s.caughtUp t.caughtUp := by
  obtain ⟨hstore, hsame, hdue⟩ := config.recovered_split clock hperm hapart hserves
  have hstore_s : s.caughtUp.shared.store = config.recovered clock store ks :=
    congrArg Ground.store hs.caughtUp.ground
  have hstore_t : t.caughtUp.shared.store = config.recovered clock store early :=
    congrArg Ground.store ht.caughtUp.ground
  have hfind (name : String) := find?_name_of_perm hperm.symm hapart name
  constructor
  · exact hs.caughtUp.partitions_of_perm ht.caughtUp hperm.symm
  · intro name
    rw [hs.partition?_caughtUp, ht.partition?_caughtUp, hfind, Option.map_map, Option.map_map]
    rfl
  · intro name hnone
    rw [hs.partition?_caughtUp, ht.partition?_caughtUp, hfind]
    cases hk : (early ++ later).find? (·.name == name) with
    | none => rfl
    | some k =>
      have hwake : Ground.wake? ⟨config.recovered clock store ks, clock, poll⟩ k =
          Ground.wake? ⟨config.recovered clock store early, clock, poll⟩ k :=
        Ground.wake?_congr rfl rfl
          (hdue k (List.mem_of_find?_eq_some hk) fun hlater => hnone k hlater (name_of_find? hk))
      rw [Option.map_some, Option.map_some, hwake]
  · rw [hstore_s, hstore_t]
    exact hstore
  · rw [hstore_s, hstore_t]
    exact hsame

namespace Simulation.Run

/-- A start with some values of a fan-out succeeds if one with all of them does,
    and so does the registration of the others.  The manager ends up like the
    one that was started with all values, but for stale claims of the others. -/
theorem registered_late_as_at_start {σ : Type} [ScriptedStore σ] [RecoveringStore σ]
    (r whole : Run σ) (config : SchedulerConfig) (before : List PartitionConfig) (base : Key)
    (after : List PartitionConfig) (values configured late : List String)
    (processors : Processors) (hquiet : r.Quiet) (hsplit : (configured ++ late).Perm values)
    (hwhole : r.startManager (config.fannedOut before base after values) processors = .ok whole)
    (hserves : config.staleClaimTimeout ≠ none →
      ∀ k ∈ whole.system.keys, RecoveringStore.Serves k r.store) :
    ∃ start, r.startManager (config.fannedOut before base after configured) processors = .ok start ∧
      ∀ ms, Registers base.name ms late →
        (∀ a ∈ (start.moves ms).1, ∃ slot, a = .ok slot) ∧
        SameBut config r.system.clock r.store (late.map base.part) whole.system.caughtUp
          (start.moves ms).2.system.caughtUp := by
  obtain ⟨all, hall, -⟩ := startManager_terms hwhole
  obtain ⟨some, hsome, hperm, hbase, hblank⟩ := Startup.ofConfig_of_split hall hsplit
  obtain ⟨whole', hwhole', -, henrolled⟩ := startManager_enrolled hquiet hall
  cases hwhole.symm.trans hwhole'
  obtain ⟨start, hstart, hquiet', hstarted⟩ := startManager_enrolled hquiet hsome
  have hapart : all.keys.Pairwise Key.Apart :=
    validateDisjoint_iff.1 (Startup.validateDisjoint_keys hall)
  refine ⟨start, hstart, fun ms hms => ?_⟩
  obtain ⟨some', hsome', hterms⟩ := startManager_terms hstart
  cases hsome.symm.trans hsome'
  have hprocessor : ∀ v ∈ late, processors.require base.instanceType = .ok () :=
    fun v hv => (Startup.ofConfig_iff.1 hall).2.2.2 (base.part v)
      (hperm.mem_iff.1 (List.mem_append_right _ (List.mem_map_of_mem hv)))
  obtain ⟨hanswers, hlate⟩ := moves_enrolled hms hquiet' hstarted hterms hbase hblank hprocessor
    ((hperm.pairwise_iff Key.Apart.symm).2 hapart)
  rw [henrolled.keys] at hserves
  exact ⟨hanswers, henrolled.sameBut config hlate hperm hapart hserves⟩

/-- A text message that was claimed ten seconds ago and not handled since. -/
def stuckText : MemoryStore := MemoryStore.put .empty
  { NewJob.toJob { jobRef := "text", dueAt := .epoch,
                   attributes := .ofList [("channel_type", "text")] } 1 .epoch with
    state := .running, claimedAt := some .epoch }

/-- A service that is to be started on that store. -/
def stuckRun : Run MemoryStore :=
  { system := .ofConfig {} ⟨[]⟩ ⟨[], []⟩ stuckText ⟨.ofMillis 10000, 0⟩ }

/-- Claims are stale after a second. -/
def impatient : SchedulerConfig := { staleClaimTimeout := some (.ofSeconds 1) }

/-- Start the service with a partition for each of these channels. -/
def startChannels (channels : List String) : Except Error (Run MemoryStore) :=
  stuckRun.startManager (impatient.fannedOut [] { name := "jobs" } [] channels)
    ⟨[defaultInstanceType]⟩

/-- The state of the message, and when its partition is looked at. -/
def textIn (r : Run MemoryStore) : Option State × Option (Option Nat) :=
  ((r.system.caughtUp.shared.store.find? 1).map (·.state),
    (r.system.caughtUp.partition? "jobs/text").map (·.2))

theorem startChannels_ok {channels : List String} {α : Type} {f : Run MemoryStore → α} {a : α}
    (h : (startChannels channels).toOption.map f = some a) :
    ∃ r, startChannels channels = .ok r ∧ f r = a := by
  cases hstart : startChannels channels with
  | error e => rw [hstart] at h; cases h
  | ok r =>
    rw [hstart] at h
    exact ⟨r, rfl, Option.some.inj h⟩

/-- Texts get a partition beside that for mails, in which the stuck message is
    the only difference to a start with both. -/
theorem texts_registered_late : ∃ whole start : Run MemoryStore,
    startChannels ["mail", "text"] = .ok whole ∧ startChannels ["mail"] = .ok start ∧
    SameBut impatient stuckRun.system.clock stuckText [Key.part { name := "jobs" } "text"]
      whole.system.caughtUp
      (start.moves [.registerValue "jobs" "text"]).2.system.caughtUp := by
  have hwhole : (startChannels ["mail", "text"]).toOption.map (fun _ => ()) = some () := by
    decide +kernel
  obtain ⟨whole, hwhole, -⟩ := startChannels_ok hwhole
  obtain ⟨start, hstart, hlate⟩ := registered_late_as_at_start stuckRun whole impatient []
    { name := "jobs" } [] ["mail", "text"] ["mail"] ["text"] _ rfl (.refl _) hwhole
    fun _ _ _ => trivial
  exact ⟨whole, start, hwhole, hstart, (hlate _ (.value "text" .nil)).2⟩

/-- A start takes back the claim of the stuck message and looks at its partition
    at once.  When the partition is registered late, the message stays claimed
    and the partition is looked at after the poll interval. -/
theorem late_claim_stays_stale : ∃ whole start : Run MemoryStore,
    startChannels ["mail", "text"] = .ok whole ∧ startChannels ["mail"] = .ok start ∧
    textIn whole = (some .deferred, some (some 0)) ∧
    textIn (start.registerValue "jobs" "text").2 = (some .running, some (some 30000000000)) := by
  have hwhole : (startChannels ["mail", "text"]).toOption.map textIn =
      some (some .deferred, some (some 0)) := by
    decide +kernel
  have hlate : ((startChannels ["mail"]).toOption.map fun r =>
      textIn (r.registerValue "jobs" "text").2) =
      some (some .running, some (some 30000000000)) := by
    decide +kernel
  obtain ⟨whole, hwhole, htext⟩ := startChannels_ok hwhole
  obtain ⟨start, hstart, htext'⟩ := startChannels_ok hlate
  exact ⟨whole, start, hwhole, hstart, htext, htext'⟩

end Simulation.Run

end DueWork
