/-
  Registrations of a started manager.

  A registration goes by a few fields of the system, its `Terms`: the keys that
  are taken, the bases of fan-outs, the processors, and whether the manager
  still runs.  Of all actions only the begin of a registration takes a key.

  * `Run.startManager_terms`: a started manager runs, and has taken the keys
    of its configuration;
  * `Run.register_cases`: a registration is refused and changes nothing at
    all, or takes its key;
  * so the keys that are taken stay apart, and a sequence of registrations
    succeeds if and only if all keys together pass the check.
-/
import DueWork.Proofs.Manager.Step
import DueWork.Proofs.Partition.Disjoint
import DueWork.Proofs.Store.Lifecycle
import DueWork.Simulation.Run

namespace DueWork

open Time Signal Schedule

/-- What a registration goes by. -/
structure Terms where
  keys : List Key
  bases : List (String × Key)
  processors : Processors
  stopped : Bool
  loopAlive : Bool

namespace Terms

/-- One more key is taken. -/
def take (t : Terms) (key : Key) : Terms := { t with keys := t.keys ++ [key] }

/-- What an action does to them. -/
def next (t : Terms) : Action → Terms
  | .claimKey key => t.take key
  | .beginStop => { t with stopped := true }
  | .endLoop => { t with loopAlive := false }
  | _ => t

/-- The manager was not stopped, and its dispatcher takes commands. -/
def Running (t : Terms) : Prop := t.stopped = false ∧ t.loopAlive = true

variable {t : Terms} {a : Action}

/-- Only the begin of a registration takes a key. -/
theorem keys_next (h : ∀ key, a ≠ .claimKey key) : (t.next a).keys = t.keys := by
  cases a <;> first | rfl | exact absurd rfl (h _)

/-- Only the end of a manager changes anything else. -/
theorem next_eq (h : ∀ key, a ≠ .claimKey key) (hstop : a ≠ .beginStop) (hend : a ≠ .endLoop) :
    t.next a = t := by
  cases a <;> first | rfl | exact absurd rfl (h _) | exact absurd rfl hstop | exact absurd rfl hend

end Terms

namespace System

variable {σ : Type} {s : System σ}

def terms (s : System σ) : Terms := ⟨s.keys, s.bases, s.processors, s.stopped, s.loopAlive⟩

/-- The checks of a new partition ask that the manager was not stopped, for a
    processor, and for a key that is apart from those that are taken. -/
theorem requireNew_iff {key : Key} : s.requireNew key = .ok () ↔
    s.stopped = false ∧ s.processors.require key.instanceType = .ok () ∧
      requireNewKey s.keys key = .ok () := by
  rw [requireNew]
  cases s.stopped with
  | true => simp [throw, throwThe, MonadExceptOf.throw, bind, Except.bind]
  | false => cases s.processors.require key.instanceType <;> simp [bind, Except.bind]

variable [JobStore σ]

theorem terms_next (s : System σ) (a : Action) : (s.next a).terms = s.terms.next a := by
  have he := s.effect_next a
  generalize s.next a = s' at he ⊢
  cases he with
  | idle ha => cases a <;> first | rfl | cases ha
  | _ => rfl

theorem terms_recover (s : System σ) (key : Key) (cutoff : Instant) :
    (s.recover key cutoff).terms = s.terms := by
  rfl

end System

/-- The keys of a configuration that passed its checks are apart. -/
theorem Startup.validateDisjoint_keys {config : SchedulerConfig} {processors : Processors}
    {startup : Startup} (h : Startup.ofConfig config processors = .ok startup) :
    validateDisjoint startup.keys = .ok () := by
  obtain ⟨-, -, h⟩ := Store.bind_eq_ok h
  obtain ⟨s, -, h⟩ := Store.bind_eq_ok h
  obtain ⟨_, hdisjoint, h⟩ := Store.bind_eq_ok h
  obtain ⟨-, -, h⟩ := Store.bind_eq_ok h
  cases h
  exact hdisjoint

namespace Simulation.Run

variable {σ : Type}

theorem withSystem_system (r : Run σ) (s : System σ) : (r.withSystem s).system = s := by
  simp only [withSystem, enqueue]
  split
  · rfl
  · split <;> rfl

variable [ScriptedStore σ]

/-- A partition that is added takes its key, and is added if the dispatcher
    takes commands. -/
theorem addPartition_spec (r : Run σ) (key : Key) :
    (r.addPartition key).2.system.terms = r.system.terms.take key ∧
    (r.system.loopAlive = true → ∃ slot, (r.addPartition key).1 = .ok slot) := by
  simp only [addPartition]
  generalize hread : (System.readDue _ _ _ : System σ) = s
  have hterms : s.terms = r.system.terms.take key := by
    rw [← hread]
    exact (System.terms_next _ (.readDue _ _)).trans (System.terms_next r.system (.claimKey key))
  have hpublished (s' : System σ) (slot : Nat) : ((s'.publish slot).attach slot).terms = s'.terms :=
    (System.terms_next _ (.attach slot)).trans (System.terms_next s' (.publish slot))
  obtain heq | ⟨due, -, ⟨-, heq⟩ | ⟨hdead, e, heq⟩⟩ := s.sendRegister_cases r.system.posts.length
  · rw [heq]
    simp only [withSystem_system, hpublished]
    exact ⟨hterms, fun _ => ⟨_, rfl⟩⟩
  · rw [heq]
    simp only [withSystem_system, hpublished]
    exact ⟨hterms, fun _ => ⟨_, rfl⟩⟩
  · rw [heq]
    refine ⟨System.terms_next r.system (.claimKey key), fun halive => ?_⟩
    have := congrArg Terms.loopAlive hterms
    exact absurd (this.symm.trans hdead) (by simp [System.terms, Terms.take, halive])

/-- A registration is refused by its checks and changes nothing, or takes its
    key. -/
theorem register_cases (r : Run σ) (key : Key) :
    (∃ e, r.system.requireNew key = .error e ∧ r.register key = (.error e, r)) ∨
    r.system.requireNew key = .ok () ∧
      (r.register key).2.system.terms = r.system.terms.take key ∧
      (r.system.loopAlive = true → ∃ slot, (r.register key).1 = .ok slot) := by
  simp only [register]
  cases hnew : r.system.requireNew key with
  | error e => exact .inl ⟨e, rfl, rfl⟩
  | ok u =>
    refine .inr ⟨rfl, ?_⟩
    obtain ⟨hterms, halive⟩ := r.addPartition_spec key
    generalize r.addPartition key = added at hterms halive
    obtain ⟨answer, r'⟩ := added
    cases answer with
    | ok slot => exact ⟨(System.terms_next r'.system (.announce slot)).trans hterms, halive⟩
    | error e => exact ⟨hterms, halive⟩

/-- A value is refused and changes nothing, or registered as a key. -/
theorem registerValue_cases (r : Run σ) (base value : String) :
    (∃ e, r.registerValue base value = (.error e, r)) ∨
    ∃ key, r.registerValue base value = r.register key := by
  simp only [registerValue]
  split
  · exact .inl ⟨_, rfl⟩
  · split
    · exact .inl ⟨_, rfl⟩
    · exact .inr ⟨_, rfl⟩

/-! ## The start -/

theorem recover_terms (r : Run σ) (cutoff : Instant) (ks : List Key) :
    (r.recover cutoff ks).system.terms = r.system.terms := by
  rw [recover]
  induction ks generalizing r with
  | nil => rfl
  | cons k ks ih =>
    refine (ih _).trans ?_
    beta_reduce
    have htaken : (r.takeFailure .resetStale).2.system = r.system := rfl
    generalize r.takeFailure .resetStale = taken at htaken
    obtain ⟨f, r'⟩ := taken
    rw [← htaken]
    dsimp only
    split
    · exact System.terms_recover r'.system k cutoff
    · rfl

/-- The keys of a configuration are taken one after the other. -/
theorem addPartitions_terms (r : Run σ) (ks : List Key) :
    (ks.foldl (fun r k =>
      let (slot, r) := r.addPartition k
      match slot with
      | .ok slot => { r with system := r.system.forget slot }
      | .error _ => r) r).system.terms = { r.system.terms with keys := r.system.keys ++ ks } := by
  induction ks generalizing r with
  | nil => rw [List.append_nil]; rfl
  | cons k ks ih =>
    have hterms := (r.addPartition_spec k).1
    rw [List.foldl_cons, ih]
    generalize r.addPartition k = added at hterms
    obtain ⟨answer, r'⟩ := added
    have hkeys : r'.system.keys = r.system.keys ++ [k] := congrArg Terms.keys hterms
    cases answer <;>
      (show ({ r'.system.terms with keys := r'.system.keys ++ ks } : Terms) = _
       rw [hterms, hkeys, List.append_assoc]
       rfl)

/-- A started manager runs, and has taken the keys of its configuration. -/
theorem startManager_terms {r r' : Run σ} {config : SchedulerConfig} {processors : Processors}
    (h : r.startManager config processors = .ok r') :
    ∃ startup, Startup.ofConfig config processors = .ok startup ∧
      r'.system.terms = ⟨startup.keys, startup.bases, processors, false, true⟩ := by
  obtain ⟨startup, hstartup, h⟩ := Store.bind_eq_ok h
  cases h
  refine ⟨startup, hstartup, ?_⟩
  have hadded (b : Run σ) (hb : b.system.terms = ⟨[], startup.bases, processors, false, true⟩) :
      ({ b.system.terms with keys := b.system.keys ++ startup.keys } : Terms) =
        ⟨startup.keys, startup.bases, processors, false, true⟩ := by
    rw [hb, show b.system.keys = [] from congrArg Terms.keys hb]
    rfl
  refine (addPartitions_terms _ startup.keys).trans (hadded _ ?_)
  cases config.staleClaimTimeout with
  | none => rfl
  | some age => exact recover_terms _ _ startup.keys

end Simulation.Run

namespace Simulation

/-! ## Runs of a started manager -/

/-- What may happen next to a started manager: a registration, or whatever
    another party does in between. -/
inductive Move where
  | register (key : Key)
  | registerValue (base value : String)
  | meanwhile (a : Action) (h : ∀ key, a ≠ .claimKey key)

namespace Move

/-- The key that a move registers. -/
def key? : Move → Option Key
  | .register key => some key
  | _ => none

/-- A registration of a key, or something that does not end the manager. -/
def IsOrdinary : Move → Prop
  | .register _ => True
  | .registerValue _ _ => False
  | .meanwhile a _ => a ≠ .beginStop ∧ a ≠ .endLoop

end Move

variable {σ : Type} [ScriptedStore σ]

namespace Run

/-- A move and the answer of a registration. -/
def move (r : Run σ) : Move → Option (Except Error Nat) × Run σ
  | .register key => let (a, r) := r.register key; (some a, r)
  | .registerValue base value => let (a, r) := r.registerValue base value; (some a, r)
  | .meanwhile a _ => (none, { r with system := r.system.next a })

/-- Some moves, and the answers of the registrations among them. -/
def moves (r : Run σ) : List Move → List (Except Error Nat) × Run σ
  | [] => ([], r)
  | m :: ms =>
    let (a, r) := r.move m
    let (as, r) := r.moves ms
    (a.toList ++ as, r)

variable {r : Run σ} {m : Move} {ms : List Move} {key : Key}

theorem apart_register (h : r.system.keys.Pairwise Key.Apart) :
    (r.register key).2.system.keys.Pairwise Key.Apart := by
  obtain ⟨e, -, heq⟩ | ⟨hnew, hterms, -⟩ := r.register_cases key
  · rw [heq]
    exact h
  · have hkeys : (r.register key).2.system.keys = r.system.keys ++ [key] :=
      congrArg Terms.keys hterms
    rw [hkeys, ← validateDisjoint_iff, validateDisjoint_concat]
    exact ⟨validateDisjoint_iff.2 h, (System.requireNew_iff.1 hnew).2.2⟩

/-- The keys that are taken stay apart. -/
theorem apart_move (h : r.system.keys.Pairwise Key.Apart) :
    (r.move m).2.system.keys.Pairwise Key.Apart := by
  cases m with
  | register key => exact apart_register h
  | registerValue base value =>
    obtain ⟨e, heq⟩ | ⟨key, heq⟩ := r.registerValue_cases base value
    · simp only [move, heq]
      exact h
    · simp only [move, heq]
      exact apart_register h
  | meanwhile a ha =>
    have hkeys : (r.move (.meanwhile a ha)).2.system.keys = r.system.keys :=
      (congrArg Terms.keys (System.terms_next r.system a)).trans (Terms.keys_next ha)
    rw [hkeys]
    exact h

theorem apart_moves (h : r.system.keys.Pairwise Key.Apart) :
    (r.moves ms).2.system.keys.Pairwise Key.Apart := by
  induction ms generalizing r with
  | nil => exact h
  | cons m ms ih => exact ih (apart_move h)

/-- A registration that is refused by its checks changes nothing; only one that
    comes after the end of the dispatcher is refused later. -/
theorem unchanged_of_refused {e : Error} (h : (r.move m).1 = some (.error e))
    (hrun : r.system.stopped = true ∨ r.system.loopAlive = true) : (r.move m).2 = r := by
  have hregister (key : Key) (h : (r.register key).1 = .error e) : (r.register key).2 = r := by
    obtain ⟨e, -, heq⟩ | ⟨hnew, -, halive⟩ := r.register_cases key
    · rw [heq]
    · rcases hrun with hstopped | hrun
      · rw [(System.requireNew_iff.1 hnew).1] at hstopped
        cases hstopped
      · obtain ⟨slot, hslot⟩ := halive hrun
        rw [hslot] at h
        cases h
  cases m with
  | register key => exact hregister key (Option.some.inj h)
  | registerValue base value =>
    obtain ⟨e, heq⟩ | ⟨key, heq⟩ := r.registerValue_cases base value
    · simp only [move, heq]
    · simp only [move, heq] at h ⊢
      exact hregister key (Option.some.inj h)
  | meanwhile => cases h

/-- On a running manager registrations succeed if and only if the keys that are
    taken and those that are registered are apart. -/
theorem succeed_iff {t : Terms} (hterms : r.system.terms = t) (hrun : t.Running)
    (hapart : t.keys.Pairwise Key.Apart) (hordinary : ∀ m ∈ ms, m.IsOrdinary)
    (hprocessors : ∀ k ∈ ms.filterMap Move.key?, t.processors.require k.instanceType = .ok ()) :
    (∀ a ∈ (r.moves ms).1, ∃ slot, a = .ok slot) ↔
      validateDisjoint (t.keys ++ ms.filterMap Move.key?) = .ok () := by
  induction ms generalizing r t with
  | nil =>
    rw [List.filterMap_nil, List.append_nil]
    exact iff_of_true (List.forall_mem_nil _) (validateDisjoint_iff.2 hapart)
  | cons m ms ih =>
    obtain ⟨hm, hms⟩ := List.forall_mem_cons.1 hordinary
    cases m with
    | registerValue => cases hm
    | meanwhile a ha =>
      have hsame : (r.move (.meanwhile a ha)).2.system.terms = t :=
        (System.terms_next r.system a).trans (hterms ▸ Terms.next_eq ha hm.1 hm.2)
      exact ih hsame hrun hapart hms hprocessors
    | register key =>
      rw [List.filterMap_cons] at hprocessors ⊢
      obtain ⟨hprocessor, hprocessors⟩ := List.forall_mem_cons.1 hprocessors
      have hnew : r.system.requireNew key = .ok () ↔ requireNewKey t.keys key = .ok () := by
        subst hterms
        rw [System.requireNew_iff]
        exact ⟨fun h => h.2.2, fun h => ⟨hrun.1, hprocessor, h⟩⟩
      have hall : t.keys ++ key :: ms.filterMap Move.key? =
          (t.take key).keys ++ ms.filterMap Move.key? := List.append_cons ..
      show (∀ a ∈ (r.register key).1 :: ((r.register key).2.moves ms).1, _) ↔
        validateDisjoint (t.keys ++ key :: ms.filterMap Move.key?) = .ok ()
      rw [List.forall_mem_cons, hall]
      obtain ⟨e, hrefused, heq⟩ | ⟨haccepted, htaken, halive⟩ := r.register_cases key
      · rw [heq]
        refine iff_of_false (fun h => ?_) fun h => ?_
        · obtain ⟨slot, hslot⟩ := h.1
          cases hslot
        · have hpre := (List.pairwise_append.1 (validateDisjoint_iff.1 h)).1
          have hok := hnew.2 (validateDisjoint_concat.1 (validateDisjoint_iff.2 hpre)).2
          rw [hrefused] at hok
          cases hok
      · have htake : (t.take key).keys.Pairwise Key.Apart := validateDisjoint_iff.1
          (validateDisjoint_concat.2 ⟨validateDisjoint_iff.2 hapart, hnew.1 haccepted⟩)
        subst hterms
        rw [← ih htaken hrun htake hms hprocessors]
        exact and_iff_right (halive hrun.2)

/-- From here on partitions stay apart, and registrations agree with the check
    of all keys at once. -/
structure KeepsApart (r : Run σ) : Prop where
  /-- names are distinct, and no instance is in two partitions -/
  apart : ∀ ms, (r.moves ms).2.system.keys.Pairwise fun a b =>
    a.name ≠ b.name ∧ ∀ j, ¬(a.owns j = true ∧ b.owns j = true)
  /-- registrations succeed exactly if all keys pass the check together -/
  agrees : ∀ ms ns, (r.moves ms).2.system.terms.Running → (∀ m ∈ ns, m.IsOrdinary) →
    (∀ k ∈ ns.filterMap Move.key?,
      (r.moves ms).2.system.processors.require k.instanceType = .ok ()) →
    ((∀ a ∈ ((r.moves ms).2.moves ns).1, ∃ slot, a = .ok slot) ↔
      validateDisjoint ((r.moves ms).2.system.keys ++ ns.filterMap Move.key?) = .ok ())
  /-- a refused registration changes nothing -/
  refused : ∀ ms m e,
    (r.moves ms).2.system.stopped = true ∨ (r.moves ms).2.system.loopAlive = true →
    ((r.moves ms).2.move m).1 = some (.error e) → ((r.moves ms).2.move m).2 = (r.moves ms).2

/-- A started manager runs with the keys of its configuration, and keeps its
    partitions apart in every run that follows. -/
theorem registered_partitions_stay_apart (r r' : Run σ) (config : SchedulerConfig)
    (processors : Processors) (h : r.startManager config processors = .ok r') :
    (∃ startup, Startup.ofConfig config processors = .ok startup ∧
      r'.system.keys = startup.keys) ∧
    r'.system.terms.Running ∧ r'.KeepsApart := by
  obtain ⟨startup, hstartup, hterms⟩ := startManager_terms h
  have hkeys : r'.system.keys = startup.keys := congrArg Terms.keys hterms
  have hrun : r'.system.terms.Running := by
    rw [hterms]
    exact ⟨rfl, rfl⟩
  have hapart (ms : List Move) : (r'.moves ms).2.system.keys.Pairwise Key.Apart := by
    refine apart_moves ?_
    rw [hkeys]
    exact validateDisjoint_iff.1 (Startup.validateDisjoint_keys hstartup)
  refine ⟨⟨startup, hstartup, hkeys⟩, hrun, ?_, ?_, ?_⟩
  · intro ms
    exact (hapart ms).imp fun hab => ⟨hab.name, fun j => Key.not_both_own hab.disjoint⟩
  · intro ms ns hrunning hordinary hprocessors
    exact succeed_iff rfl hrunning (hapart ms) hordinary hprocessors
  · intro ms m e hrunning hrefused
    exact unchanged_of_refused hrefused hrunning

/-- The part of all jobs that goes out by one channel. -/
def channelKey (channel : String) : Key :=
  { name := "jobs/" ++ channel, predicate := ⟨[⟨"channel_type", channel⟩]⟩ }

/-- A manager with a partition for mails takes one for texts as well, and not
    one for all jobs. -/
theorem partitions_beside_mails_stay_apart :
    ∃ r : Run MemoryStore,
      startManager { system := .blank } { partitions := [⟨{ name := "jobs" }, some ["mail"]⟩] }
        ⟨[defaultInstanceType]⟩ = .ok r ∧
      (∃ slot, (r.register (channelKey "text")).1 = .ok slot) ∧
      ∃ e, r.register { name := "all" } = (.error e, r) := by
  let jobs : PartitionConfig := ⟨{ name := "jobs" }, some ["mail"]⟩
  have hsome : (startManager { system := System.blank } { partitions := [jobs] }
      ⟨[defaultInstanceType]⟩).toOption.isSome = true := by decide +kernel
  cases hstart : startManager { system := System.blank } { partitions := [jobs] }
      ⟨[defaultInstanceType]⟩ with
  | error e => rw [hstart] at hsome; cases hsome
  | ok r =>
    have hstartup : Startup.ofConfig { partitions := [jobs] } ⟨[defaultInstanceType]⟩ =
        .ok ⟨[channelKey "mail"], [("jobs", { name := "jobs" })]⟩ := by decide +kernel
    obtain ⟨startup, hs, hterms⟩ := startManager_terms hstart
    cases hs.symm.trans hstartup
    obtain ⟨-, hrun, hapart⟩ := registered_partitions_stay_apart _ r _ _ hstart
    have hkeys : r.system.keys = [channelKey "mail"] := congrArg Terms.keys hterms
    have hprocessors : r.system.processors = ⟨[defaultInstanceType]⟩ :=
      congrArg Terms.processors hterms
    have hagrees (key : Key) (htype : key.instanceType = defaultInstanceType) :
        (∀ a ∈ [(r.register key).1], ∃ slot, a = .ok slot) ↔
          validateDisjoint [channelKey "mail", key] = .ok () := by
      have h := hapart.agrees [] [.register key] hrun (List.forall_mem_singleton.2 trivial)
        (List.forall_mem_singleton.2 (by rw [htype]; exact hprocessors ▸ rfl))
      rw [show (r.moves []).2.system.keys = _ from hkeys] at h
      exact h
    refine ⟨r, rfl, (hagrees (channelKey "text") rfl).2 rfl _ List.mem_cons_self, ?_⟩
    have hoverlap := mt (hagrees { name := "all" } rfl).1 (by decide)
    rw [List.forall_mem_singleton] at hoverlap
    cases hanswer : r.register { name := "all" } with
    | mk answer r' =>
      cases answer with
      | ok slot => exact absurd ⟨slot, congrArg Prod.fst hanswer⟩ hoverlap
      | error e =>
        have hsame := hapart.refused [] (.register { name := "all" }) e (.inr hrun.2)
          (congrArg (some ∘ Prod.fst) hanswer)
        rw [show r' = r from (congrArg Prod.snd hanswer).symm.trans hsame]
        exact ⟨e, rfl⟩

end Run

end Simulation

end DueWork
