/-
  What a manager holds of partitions that were registered and not drained yet.

  As long as no cycle is dispatched, every registration does the same to a
  manager, at the start and later: the partition gets the next slot, and the
  dispatcher is told when it is due.

  * `Enrolled` says this of a list of keys; a new partition and a command that
    is handled keep it (`added`, `handle`);
  * `partition?_caughtUp` and `partitions_eq` read off what can be asked of
    such a manager: it depends on the keys, the store and the clock alone.
-/
import DueWork.Proofs.Manager.Step

namespace DueWork

open Time Signal Schedule

/-- Names are put in one order, whatever order they come in. -/
theorem mergeSort_of_perm {xs ys : List String} (h : xs.Perm ys) :
    (xs.mergeSort fun a b => a ≤ b) = ys.mergeSort fun a b => a ≤ b := by
  have htrans (a b c : String) (hab : decide (a ≤ b) = true) (hbc : decide (b ≤ c) = true) :
      decide (a ≤ c) = true :=
    decide_eq_true (String.le_trans (of_decide_eq_true hab) (of_decide_eq_true hbc))
  have htotal (a b : String) : (decide (a ≤ b) || decide (b ≤ a)) = true := by
    simpa using String.le_total a b
  refine List.Perm.eq_of_pairwise (fun a b _ _ hab hba => ?_)
    (List.pairwise_mergeSort htrans htotal xs) (List.pairwise_mergeSort htrans htotal ys)
    ((List.mergeSort_perm ..).trans (h.trans (List.mergeSort_perm ..).symm))
  exact String.le_antisymm (of_decide_eq_true hab) (of_decide_eq_true hba)

/-- What partitions are scheduled by before they are drained. -/
structure Ground (σ : Type) where
  store : σ
  clock : Clock
  poll : Option Duration

namespace Ground

variable {σ : Type} [JobStore σ]

/-- When a partition is due; one that cannot be read is due now. -/
def due? (g : Ground σ) (key : Key) : Option Instant :=
  match JobStore.nextDue g.store key with
  | .ok due => due
  | .error _ => some g.clock.wall

/-- When a partition is looked at first. -/
def wake? (g : Ground σ) (key : Key) : Option Nat :=
  wakeTime g.poll g.clock (g.due? key)

end Ground

namespace System

variable {σ : Type}

def ground (s : System σ) : Ground σ := ⟨s.shared.store, s.clock, s.config.pollInterval⟩

/-- The key of a partition, and the time at which it is looked at next. -/
def partition? (s : System σ) (name : String) : Option (Key × Option Nat) :=
  (s.slot? name).bind fun slot => (s.actor? slot).map fun a => (a.key, s.dispatcher.time? slot)

/-- Registrations as commands. -/
def registers (rs : List (Nat × Option Instant)) : List Command := rs.map fun x => .register x.1 x.2

/-- The dispatcher after some registrations. -/
def told (s : System σ) (rs : List (Nat × Option Instant)) : Dispatcher :=
  rs.foldl (fun d x => d.register s.dispatchConfig s.clock x.1 x.2) s.dispatcher

theorem handle_registers {s : System σ} {x : Nat × Option Instant}
    {rs : List (Nat × Option Instant)} (h : s.commands = registers (x :: rs)) :
    s.handleCommand = { s with commands := registers rs, dispatcher := s.told [x] } :=
  handle_register h

variable [JobStore σ]

/-- When a partition is due by the call of the store; after a failure, now. -/
def dueBy (s : System σ) (key : Key) (failure : Option Error) : Option Instant :=
  match failure, JobStore.nextDue s.shared.store key with
  | none, .ok due => due
  | _, _ => some s.clock.wall

omit [JobStore σ] in
/-- The system with one more partition that is due then. -/
def enlisted (s : System σ) (key : Key) (due : Option Instant) (registry : Registry) : System σ :=
  { s with
    keys := s.keys ++ [key]
    posts := s.posts ++ [{ actor := { key := key, stopRequested := s.cancelled } }]
    actors := s.actors ++ [(key.name, s.posts.length)]
    commands := s.commands ++ [.register s.posts.length due]
    registry := registry }

/-- The system with one more partition. -/
def added (s : System σ) (key : Key) (registry : Registry) : System σ :=
  { s with
    keys := s.keys ++ [key]
    posts := s.posts ++ [{ actor := { key := key, stopRequested := s.cancelled } }]
    actors := s.actors ++ [(key.name, s.posts.length)]
    commands := s.commands ++ [.register s.posts.length (s.ground.due? key)]
    registry := registry }

/-- The dispatcher has handled what is on its way to it. -/
def caughtUp (s : System σ) : System σ := s.after (List.replicate s.commands.length .handle)

theorem caughtUp_of_registers {s : System σ} {rs : List (Nat × Option Instant)}
    (h : s.commands = registers rs) :
    s.caughtUp = { s with commands := [], dispatcher := s.told rs } := by
  rw [caughtUp, h, registers, List.length_map]
  induction rs generalizing s with
  | nil =>
    show s = { s with commands := [] }
    rw [← show s.commands = [] from h]
  | cons x rs ih =>
    show s.handleCommand.after (List.replicate rs.length .handle) = _
    rw [handle_registers h]
    exact ih rfl

/-- The system holds these partitions, and has not drained any of them. -/
structure Enrolled (g : Ground σ) (ks : List Key) (s : System σ) : Prop where
  ground : s.ground = g
  keys : s.keys = ks
  alive : s.loopAlive = true
  /-- no registration is under way -/
  idle : s.registrations = []
  posts : s.posts.map (·.actor.key) = ks
  actors : s.actors = ks.zipIdx.map fun x => (x.1.name, x.2)
  /-- the dispatcher knows, or is told by what is on its way, when to look at
      each of them -/
  told : ∃ rs, s.commands = registers rs ∧
    ∀ slot, (s.told rs).time? slot = (ks[slot]?).bind g.wake?

namespace Enrolled

variable {s : System σ} {g : Ground σ} {ks : List Key} {key : Key}

/-- A manager without partitions. -/
theorem start (config : SchedulerConfig) (processors : Processors) (startup : Startup) (store : σ)
    (clock : Clock) : Enrolled ⟨store, clock, config.pollInterval⟩ []
      (System.ofConfig config processors startup store clock) where
  ground := rfl
  keys := rfl
  alive := rfl
  idle := rfl
  posts := rfl
  actors := rfl
  told := ⟨[], rfl, fun _ => rfl⟩

/-- A command that is handled. -/
theorem handle (h : Enrolled g ks s) : Enrolled g ks s.handleCommand := by
  obtain ⟨rs, hcommands, htime⟩ := h.told
  cases rs with
  | nil =>
    rw [handle_nil hcommands]
    exact h
  | cons x rs =>
    rw [handle_registers hcommands]
    exact { h with told := ⟨rs, rfl, htime⟩ }

theorem caughtUp (h : Enrolled g ks s) : Enrolled g ks s.caughtUp := by
  rw [System.caughtUp]
  generalize s.commands.length = n
  induction n generalizing s with
  | zero => exact h
  | succ n ih => exact ih h.handle

theorem length_posts (h : Enrolled g ks s) : s.posts.length = ks.length := by
  rw [← h.posts, List.length_map]

/-- A new slot is looked at when its partition is due. -/
theorem time?_register {d : Dispatcher} {c : DispatchConfig} {slot : Nat}
    (htime : ∀ slot, d.time? slot = (ks[slot]?).bind g.wake?)
    (hpoll : c.pollInterval = g.poll) :
    (d.register c g.clock ks.length (g.due? key)).time? slot =
      ((ks ++ [key])[slot]?).bind g.wake? := by
  have hnew : (d.setSlot ks.length {}).time? ks.length = none := by
    rw [Dispatcher.time?_setSlot, htime, List.getElem?_eq_none (Nat.le_refl _), Option.bind_none]
  rw [Dispatcher.register, hpoll]
  rcases Nat.lt_trichotomy slot ks.length with hlt | rfl | hgt
  · rw [Dispatcher.time?_scheduleIf_of_ne (Nat.ne_of_lt hlt), Dispatcher.time?_setSlot, htime,
      List.getElem?_append_left hlt]
  · rw [Dispatcher.time?_scheduleIf_self hnew, List.getElem?_concat_length]
    rfl
  · have hout : (ks ++ [key])[slot]? = none :=
      List.getElem?_eq_none (by rw [List.length_append]; exact hgt)
    rw [Dispatcher.time?_scheduleIf_of_ne (Nat.ne_of_gt hgt), Dispatcher.time?_setSlot, htime,
      List.getElem?_eq_none (Nat.le_of_lt hgt), hout]

/-- A partition is added. -/
theorem added {registry : Registry} (h : Enrolled g ks s) :
    Enrolled g (ks ++ [key]) (s.added key registry) := by
  obtain ⟨rs, hcommands, htime⟩ := h.told
  refine { h with ground := h.ground, keys := ?_, posts := ?_, actors := ?_, told := ?_ }
  · rw [System.added, h.keys]
  · rw [System.added, List.map_append, h.posts]
    rfl
  · rw [System.added, h.actors, h.length_posts, List.zipIdx_append, List.map_append, Nat.zero_add]
    rfl
  · refine ⟨rs ++ [(ks.length, g.due? key)], ?_, fun slot => ?_⟩
    · rw [System.added, h.ground, h.length_posts, hcommands, registers, registers,
        List.map_append]
      rfl
    · have hclock : s.clock = g.clock := congrArg Ground.clock h.ground
      have happend : s.told (rs ++ [(ks.length, g.due? key)]) =
          (s.told rs).register s.dispatchConfig g.clock ks.length (g.due? key) := by
        rw [System.told, List.foldl_append, ← hclock]
        rfl
      show (s.told (rs ++ [(ks.length, g.due? key)])).time? slot = _
      rw [happend]
      exact time?_register htime (congrArg Ground.poll h.ground)

/-- Events that are published. -/
theorem publishAll (h : Enrolled g ks s) (events : List Event) :
    Enrolled g ks (s.publishAll events) :=
  { h with ground := h.ground, told := h.told }

/-! ## What can be asked -/

/-- The slot of a name is the place of the first key with that name. -/
theorem lookup_zipIdx (name : String) (ks : List Key) (n : Nat) :
    ((ks.zipIdx n).map fun x => (x.1.name, x.2)).lookup name =
      (ks.findIdx? (·.name == name)).map (· + n) := by
  induction ks generalizing n with
  | nil => rfl
  | cons k ks ih =>
    rw [List.zipIdx_cons, List.map_cons, List.lookup_cons, List.findIdx?_cons, ih]
    by_cases h : k.name = name
    · simp [h]
    · rw [beq_false_of_ne (Ne.symm h), beq_false_of_ne h]
      simp [Option.map_map, Function.comp_def, Nat.add_assoc, Nat.add_comm 1 n]

/-- A partition is looked at by the store and the clock that the manager was
    built on. -/
theorem partition?_caughtUp (h : Enrolled g ks s) (name : String) :
    s.caughtUp.partition? name = (ks.find? (·.name == name)).map fun k => (k, g.wake? k) := by
  obtain ⟨rs, hcommands, htime⟩ := h.told
  rw [caughtUp_of_registers hcommands]
  show (s.actors.lookup name).bind (fun slot =>
    (s.actor? slot).map fun a => (a.key, (s.told rs).time? slot)) = _
  have hactor (slot : Nat) : (s.actor? slot).map (fun a => (a.key, (s.told rs).time? slot)) =
      (ks[slot]?).map fun k => (k, g.wake? k) := by
    have hkey : (s.actor? slot).map (·.key) = ks[slot]? := by
      rw [← h.posts, List.getElem?_map, actor?, Option.map_map]
      rfl
    rw [htime, ← hkey]
    cases s.actor? slot <;> rfl
  rw [h.actors, lookup_zipIdx, List.find?_eq_bind_findIdx?_getElem?]
  cases ks.findIdx? (·.name == name) with
  | none => rfl
  | some slot => exact hactor slot

theorem partitions_eq (h : Enrolled g ks s) :
    s.partitions = (ks.map (·.name)).mergeSort fun a b => a ≤ b := by
  have hnames : s.actors.map (·.1) = ks.map (·.name) := by
    rw [h.actors, List.map_map]
    conv_rhs => rw [← List.zipIdx_map_fst 0 ks, List.map_map]
    rfl
  rw [partitions, hnames]

/-- Managers with the same partitions in another order have the same names. -/
theorem partitions_of_perm {t : System σ} {g' : Ground σ} {ls : List Key} (h : Enrolled g ks s)
    (h' : Enrolled g' ls t) (hperm : ks.Perm ls) : s.partitions = t.partitions := by
  rw [h.partitions_eq, h'.partitions_eq]
  exact mergeSort_of_perm (hperm.map _)

end Enrolled

/-! ## Registrations -/

section

variable {s : System σ} {key : Key} {slot : Nat} {due : Option Instant}

theorem readDue_claimKey (failure : Option Error) (hidle : s.registrations = []) :
    (s.claimKey key).readDue s.posts.length failure = { s.claimKey key with
      registrations := [⟨s.posts.length, .read (s.dueBy key failure)⟩] } := by
  rw [readDue, actor?, claimKey, List.getElem?_concat_length]
  simp only [setStage, hidle, List.nil_append, List.map_cons, List.map_nil, if_true,
    Option.map_some]
  rfl

/-- A call that is let through has the partition due by the store. -/
theorem dueBy_none : s.dueBy key none = s.ground.due? key := by
  simp only [dueBy, Ground.due?, ground]
  cases JobStore.nextDue s.shared.store key <;> rfl

omit [JobStore σ] in
theorem sendRegister_of_read (halive : s.loopAlive = true)
    (h : s.registrations = [⟨slot, .read due⟩]) : s.sendRegister slot = .ok { s with
      commands := s.commands ++ [.register slot due]
      registrations := [⟨slot, .sent⟩] } := by
  simp [sendRegister, send, setStage, halive, h]

omit [JobStore σ] in
theorem attach_publish (h : s.registrations = [⟨slot, .sent⟩]) :
    ∃ registry, (s.publish slot).attach slot = { s with
      actors := s.actors ++ [(s.partitionName slot, slot)]
      registry := registry
      registrations := [⟨slot, .attached⟩] } := by
  obtain ⟨registry, hattach⟩ := attach_eq (s.publish slot) slot
  refine ⟨registry, hattach.trans ?_⟩
  simp [publish, setStage, h]

omit [JobStore σ] in
theorem partitionName_claimKey : (s.claimKey key).partitionName s.posts.length = key.name := by
  rw [partitionName, actor?, claimKey, List.getElem?_concat_length]
  rfl

end

/-- The steps of a registration, one after the other. -/
theorem register_eq (s : System σ) (key : Key) (failure : Option Error)
    (halive : s.loopAlive = true) (hidle : s.registrations = []) : ∃ s' registry,
    ((s.claimKey key).readDue s.posts.length failure).sendRegister s.posts.length = .ok s' ∧
    (s'.publish s.posts.length).attach s.posts.length =
      { s.enlisted key (s.dueBy key failure) registry with
        registrations := [⟨s.posts.length, .attached⟩] } := by
  let sent : System σ := { s.claimKey key with
    commands := s.commands ++ [.register s.posts.length (s.dueBy key failure)]
    registrations := [⟨s.posts.length, .sent⟩] }
  have hname : sent.partitionName s.posts.length = key.name := partitionName_claimKey
  obtain ⟨registry, hattach⟩ := attach_publish (show sent.registrations = _ from rfl)
  refine ⟨sent, registry, ?_, ?_⟩
  · rw [readDue_claimKey failure hidle]
    exact sendRegister_of_read halive rfl
  · rw [hattach, hname]
    rfl

omit [JobStore σ] in
/-- A registration that is over is forgotten. -/
theorem forget_self (s : System σ) (slot : Nat) (stage : RegistrationStage)
    (hidle : s.registrations = []) :
    forget { s with registrations := [⟨slot, stage⟩] } slot = s := by
  have hnone : [(⟨slot, stage⟩ : Registration)].filter (·.slot != slot) = s.registrations := by
    simp [hidle]
  rw [forget, hnone]

end System

end DueWork
