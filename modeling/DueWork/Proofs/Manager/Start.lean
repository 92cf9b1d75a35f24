/-
  The start of a manager: all checks come before the first call of the store,
  and nothing that comes after them can fail.

  * `SchedulerConfig.Unfit` lists what is wrong with a configuration that is
    refused, and `Startup.ofConfig_ok_iff` says that the checks find exactly
    that; `ofConfig_fault` has them fail with a configuration error only;
  * `Run.tracedStart` is the start with the calls of the store that it makes,
    and ends with the first step that fails;
  * `System.Staffed` is what holds between two partitions that are added: it is
    kept whatever the store answers (`Run.after_addTraced`).
-/
import DueWork.Proofs.Manager.LateRegistration

namespace DueWork

open Time Signal Schedule

/-! ## Checks that fail with a configuration error -/

/-- If a check fails, the configuration is at fault. -/
def Faults {α : Type} (x : Except Error α) : Prop := ∀ e, x = .error e → ∃ m, e = .configuration m

namespace Faults

variable {α β : Type} {x : Except Error α} {f : α → Except Error β}

theorem ok (a : α) : Faults (.ok a) := nofun

theorem configuration (m : String) : Faults (.error (.configuration m) : Except Error α) := by
  rintro e ⟨⟩
  exact ⟨m, rfl⟩

theorem bind (hx : Faults x) (hf : ∀ a, Faults (f a)) : Faults (x >>= f) := by
  cases x with
  | error e =>
    rintro _ ⟨⟩
    exact hx e rfl
  | ok a => exact hf a

theorem ite {p : Prop} [Decidable p] {y : Except Error α} (hx : Faults x) (hy : Faults y) :
    Faults (if p then x else y) := by
  split
  · exact hx
  · exact hy

theorem mapM (hf : ∀ a, Faults (f a)) : (as : List α) → Faults (as.mapM f)
  | [] => ok []
  | a :: as => by
    rw [List.mapM_cons]
    exact (hf a).bind fun b => (mapM hf as).bind fun bs => ok (b :: bs)

theorem foldlM {g : β → α → Except Error β} (hg : ∀ b a, Faults (g b a)) :
    (as : List α) → (b : β) → Faults (as.foldlM g b)
  | [], b => ok b
  | a :: as, b => by
    rw [List.foldlM_cons]
    exact (hg b a).bind fun b => foldlM hg as b

theorem forM {f : α → Except Error Unit} (hf : ∀ a, Faults (f a)) :
    (as : List α) → Faults (as.forM f)
  | [] => ok ()
  | a :: as => (hf a).bind fun _ => forM hf as

end Faults

/-! ## What is wrong with a configuration -/

/-- The keys of a declaration. -/
def PartitionConfig.keys (p : PartitionConfig) : List Key :=
  match p.fanOut with
  | some values => values.map p.key.part
  | none => [p.key]

/-- Some value of the fan-out is blank. -/
def PartitionConfig.HasBlank (p : PartitionConfig) : Prop :=
  ∃ values, p.fanOut = some values ∧ ∃ v ∈ values, Text.IsBlank v

namespace SchedulerConfig

/-- The keys of all declarations, in their order. -/
def keys (c : SchedulerConfig) : List Key := c.partitions.flatMap PartitionConfig.keys

/-- The names of the fan-outs. -/
def baseNames (c : SchedulerConfig) : List String :=
  (c.partitions.filter (·.fanOut.isSome)).map (·.key.name)

/-- A manager must not be started with this configuration. -/
inductive Unfit (c : SchedulerConfig) (processors : Processors) : Prop
  | value {e : Error} : c.validate = .error e → Unfit c processors
  | base : ¬c.baseNames.Nodup → Unfit c processors
  | blank {p : PartitionConfig} : p ∈ c.partitions → p.HasBlank → Unfit c processors
  | name : ¬(c.keys.map (·.name)).Nodup → Unfit c processors
  | overlap : ¬c.keys.Pairwise (fun a b => a.isDisjointFrom b = true) → Unfit c processors
  | processor {k : Key} : k ∈ c.keys → k.instanceType ∉ processors.types → Unfit c processors

/-- The calls that recover some partitions. -/
def recoveries (c : SchedulerConfig) (now : Instant) (ks : List Key) : List Store.Call :=
  match c.staleClaimTimeout with
  | some age => ks.map (.resetStale · (now.minus age))
  | none => []

theorem validate_fault (c : SchedulerConfig) : Faults c.validate := by
  have hpositive (name : String) (n : Nat) : Faults (requirePositive name n) :=
    .ite (.configuration _) (.ok ())
  refine (hpositive _ _).bind fun _ => (hpositive _ _).bind fun _ => (hpositive _ _).bind fun _ =>
    (hpositive _ _).bind fun _ => ?_
  split
  · exact .configuration _
  · exact .ok ()

end SchedulerConfig

theorem PartitionConfig.expand_iff {p : PartitionConfig} {ks : List Key} :
    p.expand = .ok ks ↔ ¬p.HasBlank ∧ ks = p.keys := by
  rw [expand, HasBlank, keys]
  cases p.fanOut with
  | none =>
    constructor
    · rintro ⟨⟩
      refine ⟨?_, rfl⟩
      rintro ⟨_, ⟨⟩, -⟩
    · rintro ⟨-, rfl⟩
      rfl
  | some values =>
    constructor
    · intro h
      obtain ⟨hblank, rfl⟩ := Key.mapM_derive h
      refine ⟨?_, rfl⟩
      rintro ⟨_, ⟨⟩, v, hv, hb⟩
      exact hblank v hv hb
    · rintro ⟨hblank, rfl⟩
      exact Store.mapM_eq_ok fun v hv =>
        Key.derive_of_not_blank fun hb => hblank ⟨values, rfl, v, hv, hb⟩

namespace Startup

variable {s s' : Startup} {ps : List PartitionConfig} {c : SchedulerConfig}
variable {processors : Processors}

/-- The names of the bases of some declarations. -/
theorem names_bases (ps : List PartitionConfig) :
    (ps.flatMap PartitionConfig.bases).map (·.1) =
      (ps.filter (·.fanOut.isSome)).map (·.key.name) := by
  induction ps with
  | nil => rfl
  | cons p ps ih =>
    rw [List.flatMap_cons, List.map_append, ih, List.filter_cons, PartitionConfig.bases]
    split <;> rfl

/-- The base of a declaration is new if all names are still distinct with it. -/
theorem nodup_bases_iff {p : PartitionConfig} (h : (s.bases.map (·.1)).Nodup) :
    ((s.bases ++ p.bases).map (·.1)).Nodup ↔
      (p.fanOut.isSome && s.bases.any (·.1 == p.key.name)) = false := by
  rw [PartitionConfig.bases]
  cases p.fanOut.isSome with
  | false => simpa using h
  | true =>
    rw [if_pos rfl, List.map_append, List.nodup_append]
    simp only [h, Bool.true_and, List.any_eq_false, true_and]
    simp

/-- A declaration is added if its base is new and no value is blank. -/
theorem addPartition_ok_iff {p : PartitionConfig} (h : (s.bases.map (·.1)).Nodup) :
    s.addPartition p = .ok s' ↔ ((s.bases ++ p.bases).map (·.1)).Nodup ∧ ¬p.HasBlank ∧
      s' = ⟨s.keys ++ p.keys, s.bases ++ p.bases⟩ := by
  rw [addPartition_iff, nodup_bases_iff h]
  simp only [PartitionConfig.expand_iff, and_assoc, exists_and_left, exists_eq_left]

/-- Declarations are added if their bases have names of their own and no value
    is blank; this adds their keys and bases. -/
theorem foldlM_addPartition_iff (h : (s.bases.map (·.1)).Nodup) :
    ps.foldlM addPartition s = .ok s' ↔
      ((s.bases ++ ps.flatMap PartitionConfig.bases).map (·.1)).Nodup ∧ (∀ p ∈ ps, ¬p.HasBlank) ∧
      s' = ⟨s.keys ++ ps.flatMap PartitionConfig.keys,
        s.bases ++ ps.flatMap PartitionConfig.bases⟩ := by
  induction ps generalizing s with
  | nil =>
    simp only [List.foldlM_nil, List.flatMap_nil, List.append_nil]
    constructor
    · rintro ⟨⟩
      exact ⟨h, nofun, rfl⟩
    · rintro ⟨-, -, rfl⟩
      rfl
  | cons p ps ih =>
    rw [List.foldlM_cons, List.forall_mem_cons, List.flatMap_cons, List.flatMap_cons,
      ← List.append_assoc, ← List.append_assoc]
    constructor
    · intro hadded
      obtain ⟨s₁, hp, hps⟩ := Store.bind_eq_ok hadded
      obtain ⟨hnodup, hblank, rfl⟩ := (addPartition_ok_iff h).1 hp
      obtain ⟨hall, hblanks, rfl⟩ := (ih hnodup).1 hps
      exact ⟨hall, ⟨hblank, hblanks⟩, rfl⟩
    · rintro ⟨hall, ⟨hblank, hblanks⟩, hs'⟩
      have hnodup : ((s.bases ++ p.bases).map (·.1)).Nodup := by
        rw [List.map_append] at hall
        exact (List.nodup_append.1 hall).1
      rw [(addPartition_ok_iff h).2 ⟨hnodup, hblank, rfl⟩]
      exact (ih hnodup).2 ⟨hall, hblanks, hs'⟩

theorem addPartition_fault (s : Startup) (p : PartitionConfig) : Faults (s.addPartition p) := by
  have hderive (k : Key) (v : String) : Faults (k.derive v) := .ite (.configuration _) (.ok _)
  have hexpand : Faults p.expand := by
    rw [PartitionConfig.expand]
    split
    · exact .mapM (hderive _) _
    · exact .ok _
  rw [addPartition]
  split
  · exact .configuration _
  · exact hexpand.bind fun _ => .ok _

theorem require_iff {type : String} :
    processors.require type = .ok () ↔ type ∈ processors.types := by
  rw [Processors.require]
  split
  case isTrue h => exact iff_of_true rfl (List.contains_iff_mem.1 h)
  case isFalse h => exact iff_of_false nofun (mt List.contains_iff_mem.2 h)

/-- The checks of a configuration find what is wrong with it. -/
theorem ofConfig_ok_iff : ofConfig c processors = .ok s ↔
    ¬c.Unfit processors ∧ s = ⟨c.keys, c.partitions.flatMap PartitionConfig.bases⟩ := by
  rw [ofConfig_iff, foldlM_addPartition_iff (s := ⟨[], []⟩) List.nodup_nil, validateDisjoint_iff]
  simp only [List.nil_append, names_bases, require_iff]
  constructor
  · rintro ⟨hvalid, ⟨hbases, hblank, rfl⟩, hapart, hprocessors⟩
    refine ⟨?_, rfl⟩
    rintro (he | hn | ⟨hp, hb⟩ | hn | hn | ⟨hk, ht⟩)
    · rw [hvalid] at he
      cases he
    · exact hn hbases
    · exact hblank _ hp hb
    · exact hn (List.pairwise_map.2 (hapart.imp Key.Apart.name))
    · exact hn (hapart.imp Key.Apart.disjoint)
    · exact ht (hprocessors _ hk)
  · rintro ⟨hfit, rfl⟩
    have hvalid : c.validate = .ok () := by
      cases h : c.validate with
      | error e => exact absurd (.value h) hfit
      | ok _ => rfl
    have hnames : (c.keys.map (·.name)).Nodup := by_contra fun h => hfit (.name h)
    have hdisjoint : c.keys.Pairwise fun a b => a.isDisjointFrom b = true :=
      by_contra fun h => hfit (.overlap h)
    refine ⟨hvalid, ⟨by_contra fun h => hfit (.base h), fun p hp hb => hfit (.blank hp hb), rfl⟩,
      ?_, fun k hk => by_contra fun h => hfit (.processor hk h)⟩
    exact ((List.pairwise_map.1 hnames).and hdisjoint).imp fun h => ⟨h.1, h.2⟩

theorem validateDisjoint_fault (ks : List Key) : Faults (validateDisjoint ks) := by
  rw [validateDisjoint]
  split
  · exact .configuration _
  · split
    · exact .configuration _
    · exact .ok ()

/-- Whatever is wrong with a configuration is a configuration error. -/
theorem ofConfig_fault (c : SchedulerConfig) (processors : Processors) :
    Faults (ofConfig c processors) :=
  c.validate_fault.bind fun _ => (Faults.foldlM addPartition_fault _ _).bind fun s =>
    (validateDisjoint_fault s.keys).bind fun _ =>
      (Faults.forM (fun _ => .ite (.ok ()) (.configuration _)) s.keys).bind fun _ => .ok s

/-- A configuration is refused if something is wrong with it. -/
theorem ofConfig_error_iff :
    (∃ m, ofConfig c processors = .error (.configuration m)) ↔ c.Unfit processors := by
  constructor
  · rintro ⟨m, hm⟩
    by_contra hfit
    rw [ofConfig_ok_iff.2 ⟨hfit, rfl⟩] at hm
    cases hm
  · intro hunfit
    cases h : ofConfig c processors with
    | ok s => exact absurd hunfit (ofConfig_ok_iff.1 h).1
    | error e =>
      obtain ⟨m, rfl⟩ := ofConfig_fault c processors e h
      exact ⟨m, rfl⟩

end Startup

/-! ## Partitions that were added -/

namespace System

variable {σ : Type} [JobStore σ] {s : System σ} {ks : List Key} {key : Key} {due : Option Instant}

/-- A partition is registered: its name leads to a slot with an actor of its
    own that did nothing yet, and the dispatcher is told when the partition is
    due, by the answer of the store or else now. -/
structure Registered (s : System σ) (slot : Nat) (key : Key) : Prop where
  found : s.slot? key.name = some slot
  actor : s.actor? slot = some { key := key }
  told : ∃ due, .register slot due ∈ s.commands ∧
    (JobStore.nextDue s.shared.store key = .ok due ∨ due = some s.clock.wall)

/-- The system holds these partitions, slot by slot, and no registration is
    under way. -/
structure Staffed (ks : List Key) (s : System σ) : Prop where
  keys : s.keys = ks
  alive : s.loopAlive = true
  uncancelled : s.cancelled = false
  idle : s.registrations = []
  posts : s.posts.map (·.actor) = ks.map fun k => { key := k }
  actors : s.actors = ks.zipIdx.map fun x => (x.1.name, x.2)
  told : ∀ slot k, ks[slot]? = some k → ∃ due, .register slot due ∈ s.commands ∧
    (JobStore.nextDue s.shared.store k = .ok due ∨ due = some s.clock.wall)

/-- The due time comes from the store, or it is now. -/
theorem dueBy_cases (s : System σ) (key : Key) (failure : Option Error) :
    JobStore.nextDue s.shared.store key = .ok (s.dueBy key failure) ∨
      s.dueBy key failure = some s.clock.wall := by
  unfold dueBy
  split
  case h_1 hdue => exact .inl hdue
  case h_2 => exact .inr rfl

namespace Staffed

theorem length_posts (h : Staffed ks s) : s.posts.length = ks.length := by
  rw [← List.length_map, h.posts, List.length_map]

/-- A partition is added with whatever due time its call leads to. -/
theorem enlisted (h : Staffed ks s) (registry : Registry)
    (hdue : JobStore.nextDue s.shared.store key = .ok due ∨ due = some s.clock.wall) :
    Staffed (ks ++ [key]) (s.enlisted key due registry) where
  keys := congrArg (· ++ [key]) h.keys
  alive := h.alive
  uncancelled := h.uncancelled
  idle := h.idle
  posts := by
    rw [System.enlisted, List.map_append, h.posts, h.uncancelled, List.map_append]
    rfl
  actors := by
    rw [System.enlisted, h.actors, h.length_posts, List.zipIdx_append, List.map_append,
      Nat.zero_add]
    rfl
  told := by
    intro slot k hk
    rw [List.getElem?_append] at hk
    split at hk
    case isTrue =>
      obtain ⟨due, hmem, hdue⟩ := h.told slot k hk
      exact ⟨due, List.mem_append_left _ hmem, hdue⟩
    case isFalse hge =>
      rw [List.getElem?_singleton] at hk
      split at hk
      case isTrue hzero =>
        obtain rfl := Option.some.inj hk
        obtain rfl : slot = s.posts.length := by
          rw [h.length_posts]
          omega
        exact ⟨due, List.mem_append_right _ List.mem_cons_self, hdue⟩
      case isFalse => cases hk

/-- With names of their own all partitions are registered. -/
theorem registered (h : Staffed ks s) (hnames : (ks.map (·.name)).Nodup) {slot : Nat}
    (hkey : ks[slot]? = some key) : s.Registered slot key where
  found := by
    have hfirst : ks.findIdx? (·.name == key.name) = some slot := by
      obtain ⟨hlt, rfl⟩ := List.getElem?_eq_some_iff.1 hkey
      refine List.findIdx?_eq_some_iff_getElem.2 ⟨hlt, beq_self_eq_true _, fun j hj hsame => ?_⟩
      have hne := List.pairwise_iff_getElem.1 (List.pairwise_map.1 hnames) j slot (by omega) hlt hj
      exact hne (beq_iff_eq.1 hsame)
    rw [slot?, h.actors, Enrolled.lookup_zipIdx, hfirst]
    rfl
  actor := by
    have hactor : s.actor? slot = (s.posts.map (·.actor))[slot]? := (List.getElem?_map ..).symm
    rw [hactor, h.posts, List.getElem?_map, hkey]
    rfl
  told := h.told slot key hkey

end Staffed

end System

/-! ## The start with its calls of the store -/

namespace Simulation

/-- Something that calls the store: it ends with the first failure, and its
    calls are kept, first to last. -/
abbrev Traced := ExceptT Error (StateM (List Store.Call))

namespace Traced

variable {α β : Type} {x : Traced α} {f : α → Traced β} {calls calls' : List Store.Call}

/-- Note a call of the store. -/
def note (call : Store.Call) : Traced Unit := modify (· ++ [call])

/-- How it ends, and all calls after some calls. -/
def after (x : Traced α) (calls : List Store.Call) : Except Error α × List Store.Call :=
  (ExceptT.run x).run calls

theorem after_note (call : Store.Call) : (note call).after calls = (.ok (), calls ++ [call]) := rfl

theorem after_bind {a : α} (h : x.after calls = (.ok a, calls')) :
    (x >>= f).after calls = (f a).after calls' := by
  rw [after, ExceptT.run_bind, StateT.run_bind, show (ExceptT.run x).run calls = _ from h]
  rfl

end Traced

namespace Run

variable {σ : Type} [ScriptedStore σ]

/-- Recover the stale claims of a partition. -/
def recoverTraced (cutoff : Instant) (r : Run σ) (key : Key) : Traced (Run σ) := do
  .note (.resetStale key cutoff)
  return r.recover cutoff [key]

/-- Add a partition. -/
def addTraced (r : Run σ) (key : Key) : Traced (Run σ) := do
  .note (.nextDue key)
  let (slot, r) := r.addPartition key
  match slot with
  | .ok slot => return { r with system := r.system.forget slot }
  | .error e => throw e

/-- Recover all partitions, if claims can be stale. -/
def recoverAllTraced (r : Run σ) (config : SchedulerConfig) (ks : List Key) : Traced (Run σ) :=
  match config.staleClaimTimeout with
  | some age => ks.foldlM (recoverTraced (r.system.clock.wall.minus age)) r
  | none => pure r

/-- A start in which every failure ends it, with the calls that it makes. -/
def tracedStart (r : Run σ) (config : SchedulerConfig) (processors : Processors) :
    Traced (Run σ) := do
  let startup ← (Startup.ofConfig config processors : Except Error Startup)
  let r := { r with system := .ofConfig config processors startup r.store r.system.clock }
  let r ← r.recoverAllTraced config startup.keys
  let r ← startup.keys.foldlM addTraced r
  return { r with subscriber := r.system.shared.events.subscribe }

variable {r : Run σ} {ks : List Key} {calls : List Store.Call}

theorem after_foldlM_recover (cutoff : Instant) (ks : List Key) :
    (ks.foldlM (recoverTraced cutoff) r).after calls =
      (.ok (r.recover cutoff ks), calls ++ ks.map (.resetStale · cutoff)) := by
  induction ks generalizing r calls with
  | nil =>
    rw [List.map_nil, List.append_nil]
    rfl
  | cons k ks ih =>
    have hone : (recoverTraced cutoff r k).after calls =
        (.ok (r.recover cutoff [k]), calls ++ [.resetStale k cutoff]) := rfl
    rw [List.foldlM_cons, Traced.after_bind hone, ih, List.append_assoc]
    rfl

/-- A recovery changes nothing but the contents of the store. -/
theorem recover_system (cutoff : Instant) (ks : List Key) : ∃ store,
    (r.recover cutoff ks).system =
      { r.system with shared := { r.system.shared with store := store } } := by
  induction ks generalizing r with
  | nil => exact ⟨r.system.shared.store, rfl⟩
  | cons k ks ih =>
    have hone : ∃ store, (r.recover cutoff [k]).system =
        { r.system with shared := { r.system.shared with store := store } } := by
      show ∃ store, (if (r.takeFailure .resetStale).1.isNone then
        ({ (r.takeFailure .resetStale).2 with system := r.system.recover k cutoff } : Run σ)
        else (r.takeFailure .resetStale).2).system = _
      cases (r.takeFailure .resetStale).1 with
      | none =>
        rw [Option.isNone_none, if_pos rfl, System.recover]
        exact ⟨_, rfl⟩
      | some f => exact ⟨r.system.shared.store, rfl⟩
    obtain ⟨store, hstore⟩ := hone
    obtain ⟨store', hstore'⟩ := ih (r := r.recover cutoff [k])
    rw [hstore] at hstore'
    exact ⟨store', hstore'⟩

/-- A partition is added, whatever becomes of the call of the store. -/
theorem after_addTraced (key : Key) (calls : List Store.Call) (h : r.system.Staffed ks) :
    (r.addTraced key).after calls = (.ok (r.addAll [key]), calls ++ [.nextDue key]) ∧
    (r.addAll [key]).system.Staffed (ks ++ [key]) := by
  obtain ⟨registry, r', hadd, -, hsystem⟩ := r.addPartition_eq key h.alive h.idle
  have hall : r.addAll [key] =
      { r' with system := r'.system.forget r.system.posts.length } := by
    rw [addAll, List.foldl_cons, List.foldl_nil, hadd]
  constructor
  · rw [addTraced, Traced.after_bind (Traced.after_note _), hadd, hall]
    rfl
  · have hadded := h.enlisted registry
      (r.system.dueBy_cases key ((r.takeFailure .nextDue).1.map failureError))
    rw [hall, hsystem, System.forget_self _ _ _ hadded.idle]
    exact hadded

theorem after_foldlM_add (ls : List Key) (calls : List Store.Call)
    (h : r.system.Staffed ks) :
    (ls.foldlM addTraced r).after calls = (.ok (r.addAll ls), calls ++ ls.map .nextDue) ∧
    (r.addAll ls).system.Staffed (ks ++ ls) := by
  induction ls generalizing r ks calls with
  | nil =>
    rw [List.map_nil, List.append_nil, List.append_nil]
    exact ⟨rfl, h⟩
  | cons k ls ih =>
    obtain ⟨hone, hk⟩ := after_addTraced k calls h
    obtain ⟨hrest, hall⟩ := ih (calls ++ [.nextDue k]) hk
    rw [List.foldlM_cons, Traced.after_bind hone, hrest, List.append_assoc,
      List.append_cons ks]
    exact ⟨rfl, hall⟩

/-- A start of a configuration that passes its checks recovers the partitions,
    and then adds them. -/
theorem after_tracedStart {config : SchedulerConfig} {processors : Processors} {startup : Startup}
    (h : Startup.ofConfig config processors = .ok startup) : ∃ r' : Run σ,
    r.startManager config processors = .ok r' ∧
    (r.tracedStart config processors).after [] = (.ok r',
      config.recoveries r.system.clock.wall startup.keys ++ startup.keys.map .nextDue) ∧
    r'.system.Staffed startup.keys := by
  let built : Run σ :=
    { r with system := System.ofConfig config processors startup r.store r.system.clock }
  have hbuilt : built.system.Staffed [] := ⟨rfl, rfl, rfl, rfl, rfl, rfl, nofun⟩
  obtain ⟨base, hbase, hrecover, hstart⟩ : ∃ base : Run σ, base.system.Staffed [] ∧
      (built.recoverAllTraced config startup.keys).after [] =
        (.ok base, config.recoveries r.system.clock.wall startup.keys) ∧
      r.startManager config processors = .ok { base.addAll startup.keys with
        subscriber := (base.addAll startup.keys).system.shared.events.subscribe } := by
    simp only [startManager, h, SchedulerConfig.recoveries, recoverAllTraced]
    cases config.staleClaimTimeout with
    | none => exact ⟨built, hbuilt, rfl, rfl⟩
    | some age =>
      refine ⟨built.recover (r.system.clock.wall.minus age) startup.keys, ?_,
        after_foldlM_recover _ _, rfl⟩
      obtain ⟨store, hsystem⟩ :=
        built.recover_system (r.system.clock.wall.minus age) startup.keys
      rw [hsystem]
      exact ⟨rfl, rfl, rfl, rfl, rfl, rfl, nofun⟩
  obtain ⟨hadd, hstaffed⟩ := after_foldlM_add startup.keys
    (config.recoveries r.system.clock.wall startup.keys) hbase
  refine ⟨_, hstart, ?_, hstaffed⟩
  rw [tracedStart, h]
  refine (Traced.after_bind (show Traced.after _ [] = (.ok startup, []) from rfl)).trans ?_
  refine (Traced.after_bind hrecover).trans ?_
  exact (Traced.after_bind hadd).trans rfl

/-- A start makes all checks before its first call of the store: it fails with a
    configuration error if and only if something is wrong with the configuration,
    and no call was made then.  Otherwise all partitions get registered,
    whatever the store answers. -/
theorem start_checks_first (r : Run σ) (config : SchedulerConfig) (processors : Processors) :
    ((r.tracedStart config processors).after []).1 = r.startManager config processors ∧
    ((∃ m, r.startManager config processors = .error (.configuration m)) ↔
      config.Unfit processors) ∧
    (config.Unfit processors → ((r.tracedStart config processors).after []).2 = []) ∧
    (¬config.Unfit processors → ∃ r' : Run σ, r.startManager config processors = .ok r' ∧
      ((r.tracedStart config processors).after []).2 =
        config.recoveries r.system.clock.wall config.keys ++ config.keys.map .nextDue ∧
      r'.system.keys = config.keys ∧ r'.system.loopAlive = true ∧
      ∀ slot key, config.keys[slot]? = some key → r'.system.Registered slot key) := by
  by_cases hfit : config.Unfit processors
  · obtain ⟨m, hm⟩ := Startup.ofConfig_error_iff.2 hfit
    have hstart : r.startManager config processors = .error (.configuration m) := by
      rw [startManager, hm]
      rfl
    have htraced : (r.tracedStart config processors).after [] =
        (.error (.configuration m), []) := by
      rw [tracedStart, hm]
      rfl
    rw [htraced, hstart]
    exact ⟨rfl, iff_of_true ⟨m, rfl⟩ hfit, fun _ => rfl, absurd hfit⟩
  · have hok := Startup.ofConfig_ok_iff.2 ⟨hfit, rfl⟩
    obtain ⟨r', hstart, htraced, hstaffed⟩ := after_tracedStart (r := r) hok
    have hnames : (config.keys.map (·.name)).Nodup := by_contra fun h => hfit (.name h)
    rw [htraced, hstart]
    have hnot : ¬∃ m, Except.ok r' = Except.error (Error.configuration m) := by
      rintro ⟨_, h⟩
      cases h
    exact ⟨rfl, iff_of_false hnot hfit, fun h => absurd h hfit, fun _ =>
      ⟨r', rfl, rfl, hstaffed.keys, hstaffed.alive, fun _ _ => hstaffed.registered hnames⟩⟩

/-- The store fails whatever it is asked, and both partitions are registered. -/
example :
    let failing : Run MemoryStore := { stuckRun with
      failures := [(.resetStale, some (.error (.database "gone"))),
        (.resetStale, some (.error (.database "gone"))),
        (.nextDue, some (.error (.database "gone"))),
        (.nextDue, some (.error (.database "gone")))] }
    (failing.startManager (impatient.fannedOut [] { name := "jobs" } [] ["mail", "text"])
      ⟨[defaultInstanceType]⟩).toOption.map (fun r => r.system.actors) =
      some [("jobs/mail", 0), ("jobs/text", 1)] := by
  decide +kernel

end Run

end Simulation

end DueWork
