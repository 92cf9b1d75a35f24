/-
  Who holds which instance.

  * `Spares`: apart from the steps of cycles, an action leaves the cycles
    where they are, and adds fresh ones at most;
  * `Exclusive`: an instance that a cycle holds is running in the store, and
    no other cycle holds it;
  * `Exclusive.next`: as long as the store is one that claims are lawful on,
    and the keys are served, it is kept by every action.
-/
import DueWork.Proofs.Manager.Actors
import DueWork.Proofs.Store.Lawful

namespace DueWork

open Time Signal Schedule

namespace System

variable {σ : Type} {s s' : System σ}

/-! ## Actions that are no steps of cycles -/

/-- The cycles are where they were, and those that are new are about to
    start. -/
structure Spares (s s' : System σ) : Prop where
  tasks : ∀ t' ∈ s'.tasks,
    (∃ t ∈ s.tasks, t'.task = t.task ∧ t'.slot = t.slot ∧ t'.cycle = t.cycle) ∨
      t'.task = s.shared.pool.nextTask ∧ t'.cycle.point = .start ∧
        s.shared.pool.nextTask < s'.shared.pool.nextTask
  nextTask : s.shared.pool.nextTask ≤ s'.shared.pool.nextTask

/-- No new task. -/
theorem spares_of_tasks (ht : ∀ t' ∈ s'.tasks,
      ∃ t ∈ s.tasks, t'.task = t.task ∧ t'.slot = t.slot ∧ t'.cycle = t.cycle)
    (hp : s'.shared.pool.nextTask = s.shared.pool.nextTask) : s.Spares s' :=
  ⟨fun t' h => .inl (ht t' h), Nat.le_of_eq hp.symm⟩

theorem spares_of_eq (ht : s'.tasks = s.tasks)
    (hp : s'.shared.pool.nextTask = s.shared.pool.nextTask) : s.Spares s' :=
  spares_of_tasks (fun t h => ⟨t, ht ▸ h, rfl, rfl, rfl⟩) hp

theorem spares_submit {slot : Nat} {pool : WorkerPool}
    (hp : s.shared.pool.submit = (.ok s.shared.pool.nextTask, pool))
    (ht : s'.tasks = s.tasks ++ [{ task := s.shared.pool.nextTask, slot := slot }])
    (hp' : s'.shared.pool = pool) : s.Spares s' := by
  obtain ⟨-, -, -, hnext, -⟩ := WorkerPool.submit_ok hp
  rw [← hp'] at hnext
  refine ⟨fun t' hmem => ?_, hnext ▸ Nat.le_succ _⟩
  rw [ht] at hmem
  rcases List.mem_append.1 hmem with hmem | hmem
  · exact .inl ⟨t', hmem, rfl, rfl, rfl⟩
  · obtain rfl := List.mem_singleton.1 hmem
    exact .inr ⟨rfl, rfl, hnext ▸ Nat.lt_succ_self _⟩

section Effects

variable [JobStore σ] {a : Action}

theorem Effect.spares (he : s.Effect a s') (ha : ∀ n m, a ≠ .step n m) : s.Spares s' := by
  cases he with
  | step => exact absurd rfl (ha _ _)
  | submit _ hp => exact spares_submit hp rfl rfl
  | pass _ hp =>
    refine spares_of_eq rfl ?_
    rcases hp with rfl | ⟨e, hsub⟩
    · rfl
    · exact WorkerPool.nextTask_of_error hsub
  | start => exact spares_of_eq rfl (WorkerPool.nextTask_start ..)
  | report =>
    refine spares_of_tasks (fun t' ht' => ?_) rfl
    obtain ⟨u, hu, rfl⟩ := List.mem_map.1 ht'
    refine ⟨u, hu, ?_⟩
    split <;> exact ⟨rfl, rfl, rfl⟩
  | releaseWorker => exact spares_of_eq rfl (WorkerPool.nextTask_releaseWorker ..)
  | releaseSlot =>
    exact spares_of_tasks (fun t h => ⟨t, (List.mem_filter.1 h).1, rfl, rfl, rfl⟩)
      (WorkerPool.nextTask_releaseSlot ..)
  | finishShutdown => exact spares_of_tasks (fun _ h => absurd h List.not_mem_nil) rfl
  | _ => exact spares_of_eq rfl rfl

/-- Apart from the steps of cycles, only a producer changes the store. -/
theorem Effect.store (he : s.Effect a s') (ha : ∀ n m, a ≠ .step n m) :
    s'.shared.store = s.shared.store ∨
      ∃ job r, JobStore.insert s.shared.store job s.clock.wall = (r, s'.shared.store) := by
  cases he with
  | step => exact absurd rfl (ha _ _)
  | insert h => exact .inr ⟨_, _, h⟩
  | _ => exact .inl rfl

/-- A new post is that of a key that is claimed. -/
theorem Effect.length_posts (hn : s.Numbered) (he : s.Effect a s') :
    s'.posts.length = s.posts.length ∨
      ∃ key p, a = .claimKey key ∧ p.actor.key = key ∧ s'.posts = s.posts ++ [p] := by
  cases he with
  | ring | lower | handle | markStopped | requestStop => exact .inl (List.length_modify ..)
  | @step n m posts _ _ heq =>
    refine .inl ?_
    rw [← heq]
    obtain ⟨hsame, -⟩ | ⟨t, a, shared, a', c, -, -, -, -, hsame⟩ := stepTask_cases hn.nodup n m
    · rw [hsame]
    · rw [hsame]; exact List.length_modify ..
  | report _ _ hp =>
    cases hp with
    | ended => exact .inl rfl
    | panicked => exact .inl (List.length_modify ..)
  | claimKey key => exact .inr ⟨key, _, rfl, rfl, rfl⟩
  | cancelAll => exact .inl (List.length_map ..)
  | _ => exact .inl rfl

/-- An actor was there before, with its key, or its key is claimed now. -/
theorem Effect.key_eq (hn : s.Numbered) (he : s.Effect a s') {slot : Nat} {b' : Actor}
    (hb' : s'.actor? slot = some b') :
    (∃ b, s.actor? slot = some b ∧ b'.key = b.key) ∨ a = .claimKey b'.key := by
  by_cases hlt : slot < s.posts.length
  · obtain ⟨c, hc, hp⟩ := he.carries hn slot s.posts[slot].actor (by simp [actor?, hlt])
    obtain rfl : c = b' := Option.some.inj (hc.symm.trans hb')
    exact .inl ⟨_, by simp [actor?, hlt], hp.key⟩
  · obtain ⟨p', hp', rfl⟩ := Option.map_eq_some_iff.1 hb'
    obtain ⟨hlt', hget⟩ := List.getElem?_eq_some_iff.1 hp'
    obtain hlen | ⟨key, p, rfl, rfl, hposts⟩ := he.length_posts hn
    · omega
    · have hslot : slot = s.posts.length := by
        rw [hposts, List.length_append, List.length_singleton] at hlt'
        omega
      subst hslot
      rw [hposts, List.getElem?_concat_length] at hp'
      cases hp'
      exact .inr rfl

end Effects

/-! ## Instances that are held -/

section Held

variable [JobStore σ] [Lawful σ]

/-- The table with the instances of a slot's partition. -/
def instanceTable (s : System σ) (slot : Nat) : String :=
  Lawful.table σ (((s.actor? slot).map (·.key.instanceType)).getD "")

/-- The instance that a task has claimed and not committed, by its table and its
    id: its processor is running or is done. -/
def claimed? (s : System σ) (t : CycleTask) : Option (String × Int) :=
  t.cycle.point.claimed?.map fun j => (s.instanceTable t.slot, j.id)

theorem claimed?_eq {t : CycleTask} {a : Actor} (ha : s.actor? t.slot = some a) :
    s.claimed? t =
      t.cycle.point.phase.id?.map fun id => (Lawful.table σ a.key.instanceType, id) := by
  rw [claimed?, instanceTable, ha, Point.id?_phase, Option.map_map]; rfl

/-- A cycle that did not move holds what it held. -/
theorem claimed?_of_carries (h : s.Manned) (hc : s.Carries s') {t t' : CycleTask}
    (ht : t ∈ s.tasks) (hslot : t'.slot = t.slot) (hcycle : t'.cycle = t.cycle) :
    s'.claimed? t' = s.claimed? t := by
  obtain ⟨a, ha, -⟩ := h.task t ht
  obtain ⟨a', ha', hp⟩ := hc _ a ha
  rw [claimed?_eq ha, claimed?_eq (by rw [hslot]; exact ha'), hcycle, hp.key]

/-- A held instance is running in the store, and held by one cycle; the laws of
    claims cover the store and all keys. -/
structure Exclusive (s : System σ) : Prop where
  holds : Lawful.Holds s.shared.store
  serves : ∀ slot a, s.actor? slot = some a → Lawful.Serves σ a.key
  running : ∀ t ∈ s.tasks, ∀ table id, s.claimed? t = some (table, id) →
    Lawful.state? s.shared.store table id = some .running
  unique : ∀ t ∈ s.tasks, ∀ t' ∈ s.tasks, ∀ x, s.claimed? t = some x → s.claimed? t' = some x →
    t.task = t'.task

/-- A task that is new holds nothing, and the others hold what they held. -/
theorem Spares.claimed? (h : s.Spares s') (hm : s.Manned) (hc : s.Carries s') {t' : CycleTask}
    (ht' : t' ∈ s'.tasks) {x : String × Int} (hx : s'.claimed? t' = some x) :
    ∃ t ∈ s.tasks, t'.task = t.task ∧ s.claimed? t = some x := by
  rcases h.tasks t' ht' with ⟨t, ht, htask, hslot, hcycle⟩ | ⟨-, hstart, -⟩
  · exact ⟨t, ht, htask, (claimed?_of_carries hm hc ht hslot hcycle) ▸ hx⟩
  · rw [System.claimed?, hstart] at hx; cases hx

/-- The keys of the actors are served if those that are claimed are. -/
theorem Exclusive.serves_next (h : s.Exclusive) (hn : s.Numbered) {a : Action}
    (he : s.Effect a s') (hkey : ∀ key, a = .claimKey key → Lawful.Serves σ key) (slot : Nat)
    (b : Actor) (hb : s'.actor? slot = some b) : Lawful.Serves σ b.key := by
  obtain ⟨b₀, hb₀, heq⟩ | hclaim := he.key_eq hn hb
  · exact heq ▸ h.serves slot b₀ hb₀
  · exact hkey b.key hclaim

theorem Exclusive.of_spares (h : s.Exclusive) (hm : s.Manned) (hn : s.Numbered) {a : Action}
    (he : s.Effect a s') (ha : ∀ n m, a ≠ .step n m)
    (hkey : ∀ key, a = .claimKey key → Lawful.Serves σ key) : s'.Exclusive := by
  have hspares := he.spares ha
  have hcarries := he.carries hn
  have hstore : Lawful.Holds s'.shared.store ∧ ∀ table id,
      Lawful.state? s.shared.store table id = some .running →
        Lawful.state? s'.shared.store table id = some .running := by
    obtain hsame | ⟨job, r, hins⟩ := he.store ha
    · rw [hsame]; exact ⟨h.holds, fun _ _ hrun => hrun⟩
    · obtain ⟨hholds, hkept⟩ := Lawful.insert h.holds hins
      exact ⟨hholds, fun table id hrun => hkept table id .running hrun⟩
  constructor
  case holds => exact hstore.1
  case serves => exact h.serves_next hn he hkey
  case running =>
    intro t' ht' table id hx
    obtain ⟨t, ht, -, hx⟩ := hspares.claimed? hm hcarries ht' hx
    exact hstore.2 table id (h.running t ht table id hx)
  case unique =>
    intro t' ht' u' hu' x hx hx'
    obtain ⟨t, ht, htask, hx⟩ := hspares.claimed? hm hcarries ht' hx
    obtain ⟨u, hu, hutask, hx'⟩ := hspares.claimed? hm hcarries hu' hx'
    rw [htask, hutask]
    exact h.unique t ht u hu x hx hx'

end Held

end System

/-! ## Steps of cycles -/

/-- A step takes hold of an instance only if it did not run, and takes no other
    running instance away. -/
theorem Move.claims {σ : Type} [JobStore σ] [Lawful σ] {key : Key} {store store' : σ}
    {p p' : Point} (h : Move key store p store' p') (hs : Lawful.Holds store)
    (hk : Lawful.Serves σ key)
    (hrun : ∀ id, p.phase.id? = some id →
      Lawful.state? store (Lawful.table σ key.instanceType) id = some .running) :
    Lawful.Holds store' ∧
    (∀ id, p'.phase.id? = some id → p.phase.id? = some id ∨
      Lawful.state? store (Lawful.table σ key.instanceType) id ≠ some .running ∧
        Lawful.state? store' (Lawful.table σ key.instanceType) id = some .running) ∧
    ∀ table id, Lawful.state? store table id = some .running →
      p.phase.id?.map (fun id => (Lawful.table σ key.instanceType, id)) = some (table, id) ∧
        p'.phase.id? = none ∨
      Lawful.state? store' table id = some .running := by
  -- a commit concerns the instance that was held, however it is answered
  have hcommit {j : Job} {t : Transition} {b : Batch} {now : Instant} {r : Except Error Unit}
      (hj : p = .committing j t b) (h : JobStore.commit store key j.id t now = (r, store')) :
      Lawful.Holds store' ∧ ∀ table id, Lawful.state? store table id = some .running →
        some (Lawful.table σ key.instanceType, j.id) = some (table, id) ∨
          Lawful.state? store' table id = some .running := by
    obtain ⟨hholds, hothers⟩ := Lawful.commit hs hk (hrun j.id (by rw [hj]; rfl)) h
    refine ⟨hholds, fun table id hid => ?_⟩
    by_cases hi : (table, id) = (Lawful.table σ key.instanceType, j.id)
    · exact .inl (congrArg some hi.symm)
    · exact .inr ((hothers table id hi).trans hid)
  cases h with
  | quiet hp => rw [hp]; exact ⟨hs, fun id hid => .inl hid, fun _ _ hid => .inr hid⟩
  | lost h =>
    obtain ⟨hholds, hsame⟩ := Lawful.claim_lost hs hk h nofun
    exact ⟨hholds, nofun, fun table id hid => .inr ((hsame table id).trans hid)⟩
  | unclaimed h hp =>
    obtain ⟨hholds, hsame⟩ := Lawful.claim_lost hs hk h nofun
    rw [hp]
    exact ⟨hholds, nofun, fun table id hid => .inr ((hsame table id).trans hid)⟩
  | @won _ j b now h =>
    obtain ⟨hholds, hne, hold, hnew, hothers⟩ := Lawful.claim_won hs hk h
    refine ⟨hholds, fun id hid => ?_, fun table id hid => .inr ?_⟩
    · obtain rfl : j.id = id := Option.some.inj hid
      exact .inr ⟨by rw [hold]; exact fun he => hne (Option.some.inj he), hnew⟩
    · by_cases hi : (table, id) = (Lawful.table σ key.instanceType, j.id)
      · cases hi; exact hnew
      · rw [hothers table id hi]; exact hid
  | processed j t b => exact ⟨hs, fun id hid => .inl hid, fun _ _ hid => .inr hid⟩
  | committed h =>
    obtain ⟨hholds, hkept⟩ := hcommit rfl h
    exact ⟨hholds, nofun, fun table i hid => (hkept table i hid).imp_left (⟨·, rfl⟩)⟩
  | refused h hp =>
    obtain ⟨hholds, hkept⟩ := hcommit rfl h
    rw [hp]
    exact ⟨hholds, nofun, fun table i hid => (hkept table i hid).imp_left (⟨·, rfl⟩)⟩
  | uncommitted j t b hp =>
    rw [hp]; exact ⟨hs, nofun, fun _ _ hid => .inr hid⟩

namespace System

variable {σ : Type} [JobStore σ] [Lawful σ] {s : System σ}

/-- A step of a task leaves a store that claims are lawful on. -/
theorem Exclusive.holds_stepTask (h : s.Exclusive) (hn : s.Numbered) (n : Nat) (m : Moment) :
    Lawful.Holds (s.stepTask n m).shared.store := by
  obtain ⟨heq, -⟩ | ⟨t, a, shared, a', c, ht, -, ha, hstep, heq⟩ := stepTask_cases hn.nodup n m
  · rw [heq]; exact h.holds
  · have hstepped := t.cycle.step_stepped s.actorConfig { m with now := s.clock.wall } s.shared a
    rw [hstep] at hstepped
    rw [heq]
    refine (hstepped.move.claims h.holds (h.serves _ a ha) fun i hi => ?_).1
    exact h.running t (mem_of_task? ht).1 _ i (by rw [claimed?_eq ha, hi]; rfl)

/-- After a step of a task every held instance runs; it was held before, or it
    did not run before and the task took hold of it. -/
theorem claimed?_stepTask (h : s.Exclusive) (hm : s.Manned) (hn : s.Numbered) (n : Nat)
    (m : Moment) {t' : CycleTask} (ht' : t' ∈ (s.stepTask n m).tasks) {table : String} {id : Int}
    (hx : (s.stepTask n m).claimed? t' = some (table, id)) :
    Lawful.state? (s.stepTask n m).shared.store table id = some .running ∧
      ∃ t ∈ s.tasks, t'.task = t.task ∧ (s.claimed? t = some (table, id) ∨
        Lawful.state? s.shared.store table id ≠ some .running ∧ t.task = n) := by
  have hcarries := carries_step hn n m
  obtain ⟨heq, -⟩ | ⟨t, a, shared, a', c, ht, -, ha, hstep, heq⟩ := stepTask_cases hn.nodup n m
  · rw [heq] at ht' hx ⊢
    exact ⟨h.running t' ht' table id hx, t', ht', rfl, .inl hx⟩
  · obtain ⟨hmem, rfl⟩ := mem_of_task? ht
    have hstepped := t.cycle.step_stepped s.actorConfig { m with now := s.clock.wall } s.shared a
    rw [hstep] at hstepped
    have hstore : (s.stepTask t.task m).shared.store = shared.store := by rw [heq]
    obtain ⟨-, hnew, hold⟩ := hstepped.move.claims h.holds (h.serves _ a ha) fun i hi =>
      h.running t hmem _ i (by rw [claimed?_eq ha, hi]; rfl)
    rw [hstore]
    have htasks := ht'
    rw [heq] at htasks
    obtain ⟨u, hu, ⟨hut, rfl⟩ | ⟨hut, rfl⟩⟩ := mem_map_cycle htasks
    · -- the task that made the step
      obtain rfl := eq_of_task_eq hn.nodup hu hmem hut
      have ha' : (s.stepTask u.task m).actor? u.slot = some a' := by
        rw [heq]; exact actor?_modifyActor (f := fun _ => a') ha
      rw [claimed?_eq (t := { u with cycle := c }) ha', hstepped.actor.key] at hx
      obtain ⟨i, hi, hpair⟩ := Option.map_eq_some_iff.1 hx
      cases hpair
      rcases hnew id hi with hi' | ⟨hfree, hrun⟩
      · have hx' : s.claimed? u = some (Lawful.table σ a.key.instanceType, id) := by
          rw [claimed?_eq ha, hi']; rfl
        rcases hold _ id (h.running u hu _ id hx') with ⟨-, hnone⟩ | hrun
        · rw [show c.point.phase.id? = some id from hi] at hnone; cases hnone
        · exact ⟨hrun, u, hu, rfl, .inl hx'⟩
      · exact ⟨hrun, u, hu, rfl, .inr ⟨hfree, rfl⟩⟩
    · -- another task
      rw [claimed?_of_carries hm hcarries hu rfl rfl] at hx
      rcases hold table id (h.running t' hu table id hx) with ⟨hx', -⟩ | hrun
      · have hx' : s.claimed? t = some (table, id) := by rw [claimed?_eq ha]; exact hx'
        exact absurd (h.unique t' hu t hmem _ hx hx') hut
      · exact ⟨hrun, t', hu, rfl, .inl hx⟩

theorem Exclusive.stepTask (h : s.Exclusive) (hm : s.Manned) (hn : s.Numbered) (n : Nat)
    (m : Moment) : (s.stepTask n m).Exclusive where
  holds := h.holds_stepTask hn n m
  serves := h.serves_next hn (s.effect_next (.step n m)) nofun
  running t' ht' _ _ hx := (claimed?_stepTask h hm hn n m ht' hx).1
  unique t' ht' u' hu' x hx hx' := by
    obtain ⟨-, t, ht, htask, hold | ⟨hfree, hn'⟩⟩ := claimed?_stepTask h hm hn n m ht' hx
    · obtain ⟨-, u, hu, hutask, hold' | ⟨hfree, -⟩⟩ := claimed?_stepTask h hm hn n m hu' hx'
      · rw [htask, hutask]; exact h.unique t ht u hu x hold hold'
      · exact absurd (h.running t ht _ _ hold) hfree
    · obtain ⟨-, u, hu, hutask, hold' | ⟨-, hn''⟩⟩ := claimed?_stepTask h hm hn n m hu' hx'
      · exact absurd (h.running u hu _ _ hold') hfree
      · rw [htask, hutask, hn', hn'']

/-- A manager that was just started has no actors and no cycles. -/
theorem exclusive_of_isNew (h : s.IsNew) (hs : Lawful.Holds s.shared.store) : s.Exclusive := by
  obtain ⟨config, processors, startup, store, clock, rfl⟩ := h
  exact ⟨hs, fun slot a ha => by simp [actor?, ofConfig] at ha,
    fun _ ht => absurd ht List.not_mem_nil, fun _ ht => absurd ht List.not_mem_nil⟩

theorem Exclusive.next (h : s.Exclusive) (hm : s.Manned) (hn : s.Numbered) (a : Action)
    (hkey : ∀ key, a = .claimKey key → Lawful.Serves σ key) : (s.next a).Exclusive := by
  by_cases ha : ∃ n m, a = .step n m
  · obtain ⟨n, m, rfl⟩ := ha
    exact h.stepTask hm hn n m
  · exact h.of_spares hm hn (s.effect_next a) (fun n m he => ha ⟨n, m, he⟩) hkey

/-- After any actions that claim served keys, an instance is held by one
    cycle. -/
theorem Exclusive.after (h : s.Exclusive) (hr : Reachable s) {as : List Action}
    (hp : s.Permits as) (hkeys : ∀ key, .claimKey key ∈ as → Lawful.Serves σ key) :
    (s.after as).Exclusive := by
  induction as generalizing s with
  | nil => exact h
  | cons a as ih =>
    refine ih (h.next hr.manned hr.numbered a fun key he => hkeys key ?_) (hr.next a hp.1) hp.2
      fun key hmem => hkeys key (List.mem_cons_of_mem _ hmem)
    rw [he]; exact List.mem_cons_self

end System

end DueWork
