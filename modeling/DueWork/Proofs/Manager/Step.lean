/-
  What each step of a manager can do.

  Every step function is a case distinction that ends in an update of a few
  fields.  Here each is opened once: the lemmas below give the cases with
  their guards, and the fields that change.

  * `ring_cases`, `deliver_cases`: the two halves of a signal;
  * `handle_cases` and `dispatch_cases`: the dispatcher;
  * `stepTask_cases`, `reportTask_cases`, `releaseWorker_cases`,
    `releaseSlot_cases`: the tasks;
  * `sendRegister_cases`, `attach_eq`, `registerListener_eq`: registrations.

  `System.Effect` puts the cases of all actions together, and `effect_next`
  says that there are no others: whatever is kept by every effect is kept by
  every action.
-/
import DueWork.Proofs.Manager.Run
import DueWork.Proofs.Pool.WorkerPool
import DueWork.Proofs.Schedule.Dispatcher

namespace DueWork

open Time Signal Schedule

/-- The flag of a post goes up. -/
def Post.raise (p : Post) : Post := { p with pending := true }

/-- The flag of a post goes down. -/
def Post.lower (p : Post) : Post := { p with pending := false }

/-- An early wake is counted. -/
def Actor.countWake (a : Actor) : Actor :=
  a.count fun m => { m with earlyWakes := m.earlyWakes + 1 }

/-- An action that may find nothing to do. -/
def Action.mayIdle : Action → Bool
  | .deliver _ | .handle | .report _ | .releaseWorker _ | .releaseSlot _ | .readDue ..
  | .sendRegister _ => true
  | _ => false

namespace System

variable {σ : Type} {s : System σ} {slot n : Nat} {cs : List Command}

/-! ## Listeners -/

theorem ring_cases (s : System σ) (slot : Nat) :
    s.isPending slot = true ∧ (s.ring slot).2 = s ∨
    s.isPending slot = false ∧
      (s.ring slot).2 = { s.modifyPost slot Post.raise with ringing := slot :: s.ringing } := by
  unfold ring
  cases h : s.isPending slot with
  | true => exact .inl ⟨rfl, rfl⟩
  | false => exact .inr ⟨rfl, rfl⟩

theorem deliver_cases (s : System σ) (slot : Nat) :
    slot ∉ s.ringing ∧ (s.deliver slot).2 = s ∨
    slot ∈ s.ringing ∧ s.loopAlive = true ∧ (s.deliver slot).2 =
      { s with ringing := s.ringing.erase slot, commands := s.commands ++ [.wake slot] } ∨
    slot ∈ s.ringing ∧ s.loopAlive = false ∧ (s.deliver slot).2 =
      { s.modifyPost slot Post.lower with ringing := s.ringing.erase slot } := by
  by_cases hr : slot ∈ s.ringing
  · by_cases h : s.loopAlive = true
    · exact .inr (.inl ⟨hr, h, by simp [deliver, hr, send, h]⟩)
    · refine .inr (.inr ⟨hr, by simpa using h, ?_⟩)
      simp only [deliver, if_pos hr, if_neg h]; rfl
  · exact .inl ⟨hr, by simp only [deliver, if_neg hr]⟩

/-! ## Dispatcher -/

theorem handle_nil (h : s.commands = []) : s.handleCommand = s := by
  simp [handleCommand, h]

theorem handle_register {due : Option Instant} (h : s.commands = .register slot due :: cs) :
    s.handleCommand =
      { s with
        commands := cs
        dispatcher := s.dispatcher.register s.dispatchConfig s.clock slot due } := by
  simp only [handleCommand, h]; rfl

/-- A wake of a known slot lowers its flag, and counts if the actor is not
    stopped. -/
theorem handle_wake (h : s.commands = .wake slot :: cs) :
    s.dispatcher.slot? slot = none ∧ s.handleCommand = { s with commands := cs } ∨
    s.dispatcher.slot? slot ≠ none ∧ s.isStopped slot = true ∧
      s.handleCommand = { s.modifyPost slot Post.lower with commands := cs } ∨
    s.dispatcher.slot? slot ≠ none ∧ s.isStopped slot = false ∧
      s.handleCommand =
        { (s.modifyPost slot Post.lower).modifyActor slot Actor.countWake with
          commands := cs
          dispatcher := s.dispatcher.wake s.clock slot } := by
  cases hs : s.dispatcher.slot? slot with
  | none => exact .inl ⟨rfl, by simp [handleCommand, h, hs]⟩
  | some st =>
    have hstop : ({ s with commands := cs }.modifyPost slot fun p =>
        { p with pending := false }).isStopped slot = s.isStopped slot := by
      simp only [isStopped, actor?, modifyPost, List.getElem?_modify_eq]
      cases s.posts[slot]? <;> rfl
    cases hb : s.isStopped slot with
    | true =>
      refine .inr (.inl ⟨nofun, rfl, ?_⟩)
      simp only [handleCommand, h, hs, hstop, hb]; rfl
    | false =>
      refine .inr (.inr ⟨nofun, rfl, ?_⟩)
      simp only [handleCommand, h, hs, hstop, hb]; rfl

theorem handle_finished {r : CycleResult} (h : s.commands = .finished slot r :: cs) :
    ∃ events, s.handleCommand =
      { s with
        commands := cs
        dispatcher := (s.dispatcher.finished s.dispatchConfig s.clock (s.partitionName slot)
          (s.isStopped slot) slot r).1
        shared := { s.shared with events := events } } := by
  simp only [handleCommand, h]; exact ⟨_, rfl⟩

/-- The command is a wake of a slot that the dispatcher knows. -/
def wakes (s : System σ) (cmd : Command) : Bool :=
  cmd.isWake cmd.slot && (s.dispatcher.slot? cmd.slot).isSome

/-- What a handled command does to the post of its slot: a wake lowers the
    flag, and counts if the actor is not stopped. -/
structure Handles (s : System σ) (cmd : Command) (f : Post → Post) : Prop where
  persists : ∀ p : Post, p.actor.Persists (f p).actor
  pending : ∀ p : Post, (f p).pending = if s.wakes cmd then false else p.pending
  earlyWakes : ∀ p : Post, (f p).actor.metrics.earlyWakes =
    p.actor.metrics.earlyWakes + (s.wakes cmd && !s.isStopped cmd.slot).toNat

/-- A command goes to the dispatcher; of the posts only that of its slot may
    change, if it is woken. -/
theorem handle_cases {cmd : Command} (h : s.commands = cmd :: cs) :
    ∃ f events, s.handleCommand =
      { s with
        commands := cs
        dispatcher := s.dispatcher.handle s.dispatchConfig s.clock s.partitionName s.isStopped cmd
        posts := s.posts.modify cmd.slot f
        shared := { s.shared with events := events } } ∧ s.Handles cmd f := by
  have hid (slot : Nat) : s.posts.modify slot id = s.posts := List.modify_id ..
  cases cmd with
  | register slot due =>
    refine ⟨id, s.shared.events, ?_, ⟨fun _ => .refl _, fun _ => rfl, fun _ => rfl⟩⟩
    rw [handle_register h, hid]; rfl
  | finished slot r =>
    obtain ⟨events, heq⟩ := handle_finished h
    refine ⟨id, events, ?_, ⟨fun _ => .refl _, fun _ => rfl, fun _ => rfl⟩⟩
    rw [heq, hid]; rfl
  | wake slot =>
    obtain ⟨hs, heq⟩ | ⟨hs, hb, heq⟩ | ⟨hs, hb, heq⟩ := handle_wake h
    · have hw : s.wakes (.wake slot) = false := by simp [wakes, Command.slot, hs]
      refine ⟨id, s.shared.events, ?_, ⟨fun _ => .refl _, fun p => by simp [hw],
        fun p => by simp [hw]⟩⟩
      rw [heq, hid]
      simp [Dispatcher.handle, Dispatcher.wake_of_none hs]
    · have hw : s.wakes (.wake slot) = true := by
        simpa [wakes, Command.slot, Command.isWake, Option.isSome_iff_ne_none] using hs
      refine ⟨Post.lower, s.shared.events, ?_, ⟨fun _ => .refl _, fun p => by simp [hw, Post.lower],
        fun p => by simp [hw, hb, Command.slot, Post.lower]⟩⟩
      rw [heq]
      simp [Dispatcher.handle, hb, modifyPost, Command.slot]
    · have hw : s.wakes (.wake slot) = true := by
        simpa [wakes, Command.slot, Command.isWake, Option.isSome_iff_ne_none] using hs
      refine ⟨fun p => { p.lower with actor := p.actor.countWake }, s.shared.events, ?_,
        ⟨fun _ => ⟨rfl, id⟩, fun p => by simp [hw, Post.lower],
          fun p => by simp [hw, hb, Command.slot, Actor.countWake, Actor.count]⟩⟩
      rw [heq]
      simp [Dispatcher.handle, hb, modifyActor, modifyPost, Command.slot, List.modify_modify_eq]
      rfl

/-- What the pool would answer to a submission. -/
def answer (s : System σ) : Option SubmitError :=
  match s.shared.pool.submit.1 with
  | .ok _ => none
  | .error e => some e

/-- The next due slot as it is offered to the pool. -/
def offered (s : System σ) : Option Nat × Dispatcher :=
  s.dispatcher.offer s.dispatchConfig s.clock s.partitionName s.isStopped s.answer

theorem dispatch_cases (s : System σ) :
    (∃ slot pool, s.offered.1 = some slot ∧
      s.shared.pool.submit = (.ok s.shared.pool.nextTask, pool) ∧
      s.dispatchNext =
        { s with
          dispatcher := s.offered.2
          tasks := s.tasks ++ [{ task := s.shared.pool.nextTask, slot := slot }]
          shared := { s.shared with pool := pool } }) ∨
    ∃ pool events, s.offered.1 = none ∧
      (pool = s.shared.pool ∨ ∃ e, s.shared.pool.submit = (.error e, pool)) ∧
      s.dispatchNext =
        { s with
          dispatcher := s.offered.2
          shared := { s.shared with pool := pool, events := events } } := by
  unfold offered Dispatcher.offer dispatchNext
  cases hn : s.dispatcher.nextSlot with
  | mk next d =>
    cases next with
    | none => exact .inr ⟨_, _, rfl, .inl rfl, rfl⟩
    | some slot =>
      cases hw : d.wantsSubmit slot (s.isStopped slot) with
      | false =>
        exact .inr ⟨s.shared.pool, s.shared.events, by simp [hw], .inl rfl, by simp [hw]⟩
      | true =>
        cases hsub : s.shared.pool.submit with
        | mk result pool =>
          cases result with
          | ok m =>
            obtain ⟨-, rfl, -⟩ := WorkerPool.submit_ok hsub
            exact .inl ⟨slot, pool, by simp [hw, answer, hsub], rfl, by simp [hw, answer, hsub]⟩
          | error e =>
            exact .inr ⟨pool, _, by simp [hw, answer, hsub], .inr ⟨e, rfl⟩,
              by simp [hw, answer, hsub]; rfl⟩

/-! ## Tasks -/

theorem mem_of_task? {t : CycleTask} (h : s.task? n = some t) : t ∈ s.tasks ∧ t.task = n :=
  ⟨List.mem_of_find?_eq_some h, by simpa using List.find?_some h⟩

/-- A task of a system in which no number occurs twice is found by its number. -/
theorem task?_of_mem {t : CycleTask} (hnd : (s.tasks.map (·.task)).Nodup) (h : t ∈ s.tasks) :
    s.task? t.task = some t := by
  unfold task?
  generalize s.tasks = ts at hnd h
  induction ts with
  | nil => cases h
  | cons x ts ih =>
    rw [List.map_cons, List.nodup_cons] at hnd
    rcases List.mem_cons.1 h with rfl | h
    · simp
    · have hne : ¬ x.task = t.task := fun he => hnd.1 (he ▸ List.mem_map_of_mem h)
      rw [List.find?_cons_of_neg (by simpa using hne)]
      exact ih hnd.2 h

theorem eq_of_task_eq {t t' : CycleTask} (hnd : (s.tasks.map (·.task)).Nodup) (h : t ∈ s.tasks)
    (h' : t' ∈ s.tasks) (heq : t.task = t'.task) : t = t' := by
  have := task?_of_mem hnd h
  rw [heq, task?_of_mem hnd h'] at this
  exact (Option.some.inj this).symm

/-- A step of the cycle of a running task, unless there is nothing to step. -/
theorem stepTask_cases [JobStore σ] (hnd : (s.tasks.map (·.task)).Nodup) (n : Nat) (m : Moment) :
    s.stepTask n m = s ∧
      (s.runningPoint? n = none ∨ ∃ t, s.task? n = some t ∧ s.actor? t.slot = none) ∨
    ∃ t a shared a' c, s.task? n = some t ∧ s.shared.pool.stage? n = some .running ∧
      s.actor? t.slot = some a ∧
      t.cycle.step s.actorConfig { m with now := s.clock.wall } s.shared a = (shared, a', c) ∧
      s.stepTask n m =
        { s.modifyActor t.slot fun _ => a' with
          shared := shared
          tasks := s.tasks.map fun t => if t.task = n then { t with cycle := c } else t } := by
  unfold stepTask
  cases ht : s.task? n with
  | none => exact .inl ⟨rfl, .inl (by simp [runningPoint?, ht])⟩
  | some t =>
    by_cases hrun : s.shared.pool.stage? n = some .running
    · obtain ⟨htm, rfl⟩ := mem_of_task? ht
      simp only [if_pos hrun, stepCycle]
      cases ha : s.actor? t.slot with
      | none =>
        refine .inl ⟨?_, .inr ⟨t, rfl, ha⟩⟩
        have hmap : s.tasks.map (fun t' => if t'.task = t.task then { t' with cycle := t.cycle }
            else t') = s.tasks.map id := by
          refine List.map_congr_left ?_
          intro t' ht'
          by_cases he : t'.task = t.task
          · obtain rfl := eq_of_task_eq hnd ht' htm he
            simp
          · rw [if_neg he]; rfl
        rw [List.map_id] at hmap
        simp only [modifyTask, hmap]
      | some a => exact .inr ⟨t, a, _, _, _, rfl, hrun, ha, rfl, rfl⟩
    · exact .inl ⟨by simp only [if_neg hrun], .inl (by rw [runningPoint?, if_neg hrun])⟩

/-- The task that stepped has another cycle, and the others are as they were. -/
theorem mem_map_cycle {ts : List CycleTask} {c : Cycle} {t' : CycleTask}
    (h : t' ∈ ts.map fun t => if t.task = n then { t with cycle := c } else t) :
    ∃ t ∈ ts, t.task = n ∧ t' = { t with cycle := c } ∨ t.task ≠ n ∧ t' = t := by
  obtain ⟨t, ht, rfl⟩ := List.mem_map.1 h
  refine ⟨t, ht, ?_⟩
  by_cases hn : t.task = n
  · exact .inl ⟨hn, if_pos hn⟩
  · exact .inr ⟨hn, if_neg hn⟩

/-- What is reported of a task that is over, and the posts then: the actor of a
    cycle that panicked is left idle. -/
inductive Reports (s : System σ) (t : CycleTask) : CycleResult → List Post → Prop
  | ended {r : CycleResult} (h : t.cycle.point = .ended r) : s.Reports t r s.posts
  | panicked {message : Option String} {a : Actor} (h : t.cycle.point = .panicked message)
    (ha : s.actor? t.slot = some a) :
    s.Reports t (Cycle.panicResult a message)
      (s.posts.modify t.slot fun p => { p with actor := p.actor.setState .idle })

/-- The end of a cycle is reported once. -/
theorem reportTask_cases (s : System σ) (n : Nat) :
    s.reportTask n = s ∨
    ∃ t r posts, s.task? n = some t ∧ t.reported = false ∧ s.Reports t r posts ∧
      s.reportTask n =
        { s with
          posts := posts
          tasks := s.tasks.map fun t => if t.task = n then { t with reported := true } else t
          commands := if s.loopAlive then s.commands ++ [.finished t.slot r] else s.commands } := by
  unfold reportTask
  cases ht : s.task? n with
  | none => exact .inl rfl
  | some t =>
    cases hr : t.reported with
    | true => exact .inl (by simp [hr])
    | false =>
      cases hp : t.cycle.point
      case ended r =>
        refine .inr ⟨t, r, s.posts, rfl, hr, .ended hp, ?_⟩
        simp only [hr, hp, send, modifyTask, Bool.false_eq_true, if_false]
        split <;> rfl
      case panicked message =>
        cases ha : s.actor? t.slot with
        | none => exact .inl (by simp [hr, hp, ha])
        | some a =>
          refine .inr ⟨t, Cycle.panicResult a message, _, rfl, hr, .panicked hp ha, ?_⟩
          simp only [hr, hp, ha, send, modifyTask, modifyActor, modifyPost, Bool.false_eq_true,
            if_false]
          split <;> rfl
      all_goals exact .inl (by simp [hr, hp])

theorem releaseWorker_cases (s : System σ) (n : Nat) :
    s.releaseWorker n = s ∨
    ∃ t, s.task? n = some t ∧ t.reported = true ∧
      s.releaseWorker n = s.modifyPool (·.releaseWorker n) := by
  unfold releaseWorker
  cases h : s.task? n with
  | none => exact .inl rfl
  | some t =>
    cases hr : t.reported with
    | false => exact .inl (by simp [hr])
    | true => exact .inr ⟨t, rfl, hr, by simp [hr]⟩

theorem releaseSlot_cases (s : System σ) (n : Nat) :
    s.releaseSlot n = s ∨
    s.shared.pool.stage? n = some .leaving ∧ s.releaseSlot n =
      { s.modifyPool (·.releaseSlot n) with tasks := s.tasks.filter (·.task != n) } := by
  unfold releaseSlot
  split
  case isTrue h => exact .inr ⟨h, rfl⟩
  case isFalse => exact .inl rfl

/-! ## Registrations -/

theorem sendRegister_cases (s : System σ) (slot : Nat) :
    s.sendRegister slot = .ok s ∨
    ∃ due, s.stage? slot = some (.read due) ∧
      (s.loopAlive = true ∧ s.sendRegister slot =
        .ok ({ s with commands := s.commands ++ [Command.register slot due] }.setStage slot .sent) ∨
      s.loopAlive = false ∧ ∃ e, s.sendRegister slot = .error e) := by
  unfold sendRegister
  split
  case h_1 i due h =>
    refine .inr ⟨due, by simp [stage?, stageAt, h], ?_⟩
    by_cases hl : s.loopAlive = true
    · exact .inl ⟨hl, by simp [hl, send]⟩
    · exact .inr ⟨by simpa using hl, _, if_neg hl⟩
  case h_2 => exact .inl rfl

theorem attachUnder_eq (s : System σ) (slot : Nat) (discriminator : String) :
    ∃ registry, s.attachUnder slot discriminator = { s with registry := registry } := by
  unfold attachUnder
  split
  · exact ⟨s.registry, rfl⟩
  · split
    · exact ⟨_, rfl⟩
    · exact ⟨s.registry, rfl⟩

/-- Attaching listeners concerns the registry alone. -/
theorem foldl_attachUnder_eq {α : Type} (slot : α → Nat) (discriminator : α → String)
    (xs : List α) (s : System σ) :
    ∃ registry, xs.foldl (fun s x => s.attachUnder (slot x) (discriminator x)) s =
      { s with registry := registry } := by
  induction xs generalizing s with
  | nil => exact ⟨s.registry, rfl⟩
  | cons x xs ih =>
    obtain ⟨r, hr⟩ := attachUnder_eq s (slot x) (discriminator x)
    obtain ⟨r', hr'⟩ := ih { s with registry := r }
    exact ⟨r', by rw [List.foldl_cons, hr, hr']⟩

theorem attach_eq (s : System σ) (slot : Nat) :
    ∃ registry, s.attach slot = { s with registry := registry }.setStage slot .attached := by
  obtain ⟨r, hr⟩ := foldl_attachUnder_eq (fun _ => slot) id s.discriminators s
  exact ⟨r, by unfold attach; rw [← hr]; rfl⟩

theorem registerListener_eq (s : System σ) (discriminator : String) :
    ∃ registry, (s.registerListener discriminator).2 =
      { s with discriminators := s.discriminators ++ [discriminator], registry := registry } := by
  let s' : System σ := { s with discriminators := s.discriminators ++ [discriminator] }
  exact foldl_attachUnder_eq id (fun _ => discriminator) (s'.selected discriminator) s'

/-! ## All actions -/

variable [JobStore σ]

/-- A step of a cycle changes its task, its actor, and what is shared. -/
theorem stepTask_eq (s : System σ) (n : Nat) (m : Moment) : ∃ posts tasks shared,
    s.stepTask n m = { s with posts := posts, tasks := tasks, shared := shared } := by
  unfold stepTask
  cases s.task? n with
  | none => exact ⟨s.posts, s.tasks, s.shared, rfl⟩
  | some t =>
    by_cases hrun : s.shared.pool.stage? n = some .running
    · simp only [if_pos hrun, stepCycle]
      cases s.actor? t.slot <;> exact ⟨_, _, _, rfl⟩
    · simp only [if_neg hrun]
      exact ⟨s.posts, s.tasks, s.shared, rfl⟩

/-- What an action does: the fields that change, and when they do. -/
inductive Effect (s : System σ) : Action → System σ → Prop
  | clock (clock : Clock) : s.Effect (.clock clock) { s with clock := clock }
  | insert {job : NewJob} {r : Except Error Int} {store : σ}
    (h : JobStore.insert s.shared.store job s.clock.wall = (r, store)) :
    s.Effect (.insert job) { s with shared := { s.shared with store := store } }
  | ring {slot : Nat} (hp : s.isPending slot = false) :
    s.Effect (.ring slot)
      { s.modifyPost slot Post.raise with ringing := slot :: s.ringing }
  /-- the flag is up already -/
  | rung {slot : Nat} (hp : s.isPending slot = true) : s.Effect (.ring slot) s
  | deliver {slot : Nat} (hr : slot ∈ s.ringing) (hl : s.loopAlive = true) :
    s.Effect (.deliver slot)
      { s with ringing := s.ringing.erase slot, commands := s.commands ++ [.wake slot] }
  /-- the dispatcher has ended -/
  | lower {slot : Nat} (hr : slot ∈ s.ringing) (hl : s.loopAlive = false) :
    s.Effect (.deliver slot)
      { s.modifyPost slot Post.lower with ringing := s.ringing.erase slot }
  | handle {cmd : Command} {cs : List Command} {f : Post → Post} {events : Broadcast Event}
    (hc : s.commands = cmd :: cs) (hf : s.Handles cmd f) :
    s.Effect .handle
      { s with
        commands := cs
        dispatcher := s.dispatcher.handle s.dispatchConfig s.clock s.partitionName s.isStopped cmd
        posts := s.posts.modify cmd.slot f
        shared := { s.shared with events := events } }
  | timer : s.Effect .timer s.beginDispatch
  | submit {slot : Nat} {pool : WorkerPool} (ho : s.offered.1 = some slot)
    (hp : s.shared.pool.submit = (.ok s.shared.pool.nextTask, pool)) :
    s.Effect .dispatch
      { s with
        dispatcher := s.offered.2
        tasks := s.tasks ++ [{ task := s.shared.pool.nextTask, slot := slot }]
        shared := { s.shared with pool := pool } }
  /-- nothing is submitted -/
  | pass {pool : WorkerPool} {events : Broadcast Event} (ho : s.offered.1 = none)
    (hp : pool = s.shared.pool ∨ ∃ e, s.shared.pool.submit = (.error e, pool)) :
    s.Effect .dispatch
      { s with
        dispatcher := s.offered.2
        shared := { s.shared with pool := pool, events := events } }
  | endLoop : s.Effect .endLoop s.endLoop
  | start (n : Nat) : s.Effect (.start n) (s.startTask n)
  | step {n : Nat} {m : Moment} {posts : List Post} {tasks : List CycleTask} {shared : Shared σ}
    (h : s.stepTask n m = { s with posts := posts, tasks := tasks, shared := shared }) :
    s.Effect (.step n m) { s with posts := posts, tasks := tasks, shared := shared }
  | report {t : CycleTask} {r : CycleResult} {posts : List Post} (ht : s.task? t.task = some t)
    (hr : t.reported = false) (h : s.Reports t r posts) :
    s.Effect (.report t.task)
      { s with
        posts := posts
        tasks := s.tasks.map fun u => if u.task = t.task then { u with reported := true } else u
        commands := if s.loopAlive then s.commands ++ [.finished t.slot r] else s.commands }
  | releaseWorker {t : CycleTask} (ht : s.task? t.task = some t) (hr : t.reported = true) :
    s.Effect (.releaseWorker t.task) (s.modifyPool (·.releaseWorker t.task))
  | releaseSlot {n : Nat} (h : s.shared.pool.stage? n = some .leaving) :
    s.Effect (.releaseSlot n)
      { s.modifyPool (·.releaseSlot n) with tasks := s.tasks.filter (·.task != n) }
  | claimKey (key : Key) : s.Effect (.claimKey key) (s.claimKey key)
  | readDue (slot : Nat) (failure : Option Error) (due : Option Instant) :
    s.Effect (.readDue slot failure) (s.setStage slot (.read due))
  | register {slot : Nat} {due : Option Instant} (hs : s.stage? slot = some (.read due))
    (hl : s.loopAlive = true) :
    s.Effect (.sendRegister slot)
      ({ s with commands := s.commands ++ [Command.register slot due] }.setStage slot .sent)
  /-- the dispatcher has ended -/
  | abandon {slot : Nat} (hl : s.loopAlive = false) : s.Effect (.sendRegister slot) (s.forget slot)
  | publish (slot : Nat) : s.Effect (.publish slot) (s.publish slot)
  | attach (slot : Nat) (registry : Registry) :
    s.Effect (.attach slot) ({ s with registry := registry }.setStage slot .attached)
  | announce (slot : Nat) : s.Effect (.announce slot) (s.announce slot)
  | registerListener (discriminator : String) (registry : Registry) :
    s.Effect (.registerListener discriminator)
      { s with discriminators := s.discriminators ++ [discriminator], registry := registry }
  | beginStop : s.Effect .beginStop s.beginStop
  | markStopped (slot : Nat) :
    s.Effect (.markStopped slot) (s.modifyActor slot Actor.markStopped)
  | requestStop (slot : Nat) :
    s.Effect (.requestStop slot) (s.modifyActor slot Actor.requestStop)
  | cancelAll : s.Effect .cancelAll s.cancelAll
  | closePool : s.Effect .closePool s.closePool
  | finishShutdown : s.Effect .finishShutdown s.finishShutdown.2
  /-- there is nothing to do -/
  | idle {a : Action} (ha : a.mayIdle = true) (ho : s.observe a = []) : s.Effect a s

/-- Every action has one of these effects. -/
theorem effect_next (s : System σ) (a : Action) : s.Effect a (s.next a) := by
  cases a with
  | clock | timer | endLoop | start | claimKey | publish | announce | beginStop | markStopped
  | requestStop | cancelAll | closePool | finishShutdown => constructor
  | insert job => exact .insert rfl
  | ring slot =>
    obtain ⟨hp, heq⟩ | ⟨hp, heq⟩ := s.ring_cases slot
    · simp only [next, heq]; exact .rung hp
    · simp only [next, heq]; exact .ring hp
  | deliver slot =>
    obtain ⟨-, heq⟩ | ⟨hr, hl, heq⟩ | ⟨hr, hl, heq⟩ := s.deliver_cases slot
    · simp only [next, heq]; exact .idle rfl rfl
    · simp only [next, heq]; exact .deliver hr hl
    · simp only [next, heq]; exact .lower hr hl
  | handle =>
    cases hc : s.commands with
    | nil => simp only [next, handle_nil hc]; exact .idle rfl (by simp only [observe, hc])
    | cons cmd cs =>
      obtain ⟨f, events, heq, hf⟩ := handle_cases hc
      simp only [next, heq]; exact .handle hc hf
  | dispatch =>
    obtain ⟨slot, pool, ho, hp, heq⟩ | ⟨pool, events, ho, hp, heq⟩ := s.dispatch_cases
    · simp only [next, heq]; exact .submit ho hp
    · simp only [next, heq]; exact .pass ho hp
  | step n m =>
    obtain ⟨posts, tasks, shared, heq⟩ := s.stepTask_eq n m
    simp only [next, heq]; exact .step heq
  | report n =>
    obtain heq | ⟨t, r, posts, ht, hr, h, heq⟩ := s.reportTask_cases n
    · simp only [next, heq]; exact .idle rfl rfl
    · obtain ⟨-, rfl⟩ := mem_of_task? ht
      simp only [next, heq]; exact .report ht hr h
  | releaseWorker n =>
    obtain heq | ⟨t, ht, hr, heq⟩ := s.releaseWorker_cases n
    · simp only [next, heq]; exact .idle rfl rfl
    · obtain ⟨-, rfl⟩ := mem_of_task? ht
      simp only [next, heq]; exact .releaseWorker ht hr
  | releaseSlot n =>
    obtain heq | ⟨h, heq⟩ := s.releaseSlot_cases n
    · simp only [next, heq]; exact .idle rfl rfl
    · simp only [next, heq]; exact .releaseSlot h
  | readDue slot failure =>
    simp only [next, System.readDue]
    split
    · exact .idle rfl rfl
    · exact .readDue slot failure _
  | sendRegister slot =>
    obtain heq | ⟨due, hs, ⟨hl, heq⟩ | ⟨hl, e, heq⟩⟩ := s.sendRegister_cases slot
    · simp only [next, heq]; exact .idle rfl rfl
    · simp only [next, heq]; exact .register hs hl
    · simp only [next, heq]; exact .abandon hl
  | attach slot =>
    obtain ⟨registry, heq⟩ := s.attach_eq slot
    simp only [next, heq]; exact .attach slot registry
  | registerListener discriminator =>
    obtain ⟨registry, heq⟩ := s.registerListener_eq discriminator
    simp only [next, heq]; exact .registerListener discriminator registry

end System

end DueWork
