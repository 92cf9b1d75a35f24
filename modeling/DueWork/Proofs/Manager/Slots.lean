/-
  The ledger of every slot is in order.

  * `System.ledger` reads off a system what is held on a slot;
  * `Reachable.ledger_ok`: as long as the dispatcher lives, the ledger of each
    slot is in order, whatever came before.
-/
import DueWork.Proofs.Manager.Ledger
import DueWork.Proofs.Manager.Tasks

namespace DueWork

open Time Signal Schedule

/-! ## Registrations -/

theorem stageAt_set (rs : List Registration) (i slot : Nat) (st : RegistrationStage) :
    stageAt (rs.map fun r => if r.slot = i then { r with stage := st } else r) slot =
      if slot = i then (stageAt rs slot).map fun _ => st else stageAt rs slot := by
  have hslot : (fun r : Registration =>
      (if r.slot = i then { r with stage := st } else r).slot == slot) =
      fun r => r.slot == slot := by
    funext r; split <;> rfl
  simp only [stageAt, List.find?_map, Function.comp_def, hslot, Option.map_map]
  cases hf : rs.find? (·.slot == slot) with
  | none => simp
  | some r =>
    have hr : r.slot = slot := by simpa using List.find?_some hf
    by_cases h : slot = i
    · simp [hr, h]
    · simp [hr, h]

theorem stageAt_forget (rs : List Registration) (i slot : Nat) :
    stageAt (rs.filter (·.slot != i)) slot = if slot = i then none else stageAt rs slot := by
  simp only [stageAt, List.find?_filter]
  by_cases h : slot = i
  · subst h
    simp
  · rw [if_neg h]
    congr 2
    funext r
    by_cases hr : r.slot = slot
    · simp [hr, h]
    · simp [hr]

theorem stageAt_append (rs : List Registration) (i slot : Nat) (st : RegistrationStage) :
    stageAt (rs ++ [⟨i, st⟩]) slot = (stageAt rs slot).or (if slot = i then some st else none) := by
  simp only [stageAt, List.find?_append, List.find?_singleton]
  cases rs.find? (·.slot == slot) with
  | some r => rfl
  | none =>
    by_cases h : slot = i
    · simp [h]
    · simp [h, Ne.symm h]

namespace System

variable {σ : Type} {s s' : System σ} {slot i : Nat}

/-- What is held on a slot. -/
def ledger (s : System σ) (slot : Nat) : Ledger where
  slot := slot
  state := s.dispatcher.slot? slot
  time := s.dispatcher.time? slot
  unreported := s.tasks.countP fun t => t.slot == slot && !t.reported
  commands := s.commands
  stage := stageAt s.registrations slot
  posted := decide (slot < s.posts.length)
  published := (s.actors.map (·.2)).contains slot
  pending := flagAt s.posts slot
  ringing := s.ringing.count slot

/-- A slot that is known, or will be, has a post. -/
theorem posted_of_announced (h : (s.ledger i).Ok) (ha : (s.ledger i).Announced) :
    i < s.posts.length := by
  by_contra hlt
  exact (h.absent (by simpa [ledger] using hlt)).2 ha

theorem published_of_mem (ha : i ∈ s.actors.map (·.2)) : (s.ledger i).published = true :=
  List.contains_iff_mem.2 ha

/-! ## Tasks -/

/-- A step of a cycle leaves the reports alone. -/
theorem countP_step (p : CycleTask → Bool) {f : CycleTask → CycleTask}
    (hf : ∀ t, p (f t) = p t) (ts : List CycleTask) : (ts.map f).countP p = ts.countP p := by
  rw [List.countP_map]
  exact List.countP_congr fun t _ => by simp [hf t]

/-- A task that is reported no longer counts for its slot. -/
theorem countP_report {ts : List CycleTask} (hnd : (ts.map (·.task)).Nodup) {t : CycleTask}
    (ht : t ∈ ts) (hr : t.reported = false) (slot : Nat) :
    ts.countP (fun t => t.slot == slot && !t.reported) =
      (ts.map fun u => if u.task = t.task then { u with reported := true } else u).countP
        (fun t => t.slot == slot && !t.reported) + (t.slot == slot).toNat := by
  induction ts with
  | nil => cases ht
  | cons u ts ih =>
    rw [List.map_cons, List.nodup_cons] at hnd
    rw [List.map_cons, List.countP_cons, List.countP_cons]
    rcases List.mem_cons.1 ht with rfl | ht
    · -- the other tasks have other numbers
      have hrest : ts.map (fun u => if u.task = t.task then { u with reported := true } else u) =
          ts := by
        have hne : ∀ u ∈ ts, u.task ≠ t.task :=
          fun u hu he => hnd.1 (he ▸ List.mem_map_of_mem hu)
        exact (List.map_congr_left fun u hu => if_neg (hne u hu)).trans ts.map_id
      rw [hrest, if_pos rfl]
      cases t.slot == slot <;> simp [hr]
    · have hne : u.task ≠ t.task := fun he => hnd.1 (he ▸ List.mem_map_of_mem ht)
      rw [if_neg hne, ih hnd.2 ht]
      omega

/-- A task that gives back its slot was reported before. -/
theorem countP_release {ts : List CycleTask} {n : Nat}
    (h : ∀ t ∈ ts, t.task = n → t.reported = true) (slot : Nat) :
    (ts.filter (·.task != n)).countP (fun t => t.slot == slot && !t.reported) =
      ts.countP fun t => t.slot == slot && !t.reported := by
  rw [List.countP_filter]
  refine List.countP_congr ?_
  intro t ht
  by_cases hn : t.task = n
  · simp [h t ht hn]
  · simp [hn]

/-! ## Steps -/

theorem ledger_ok_ring (h : ∀ i, (s.ledger i).Ok) (ha : i ∈ s.actors.map (·.2))
    (hp : s.isPending i = false)
    (hs : s' = { s.modifyPost i Post.raise with ringing := i :: s.ringing }) (slot : Nat) :
    (s'.ledger slot).Ok := by
  have hpub := published_of_mem ha
  have hposted := posted_of_announced (h i) ((h i).published hpub)
  by_cases hi : slot = i
  · subst hi
    have hledger : s'.ledger slot =
        { s.ledger slot with pending := true, ringing := (s.ledger slot).ringing + 1 } := by
      simp [hs, ledger, modifyPost, flagAt_modify_raise hposted]
    rw [hledger]
    exact (h slot).ring hp hpub
  · have hledger : s'.ledger slot = s.ledger slot := by
      simp [hs, ledger, modifyPost, flagAt, readAt_modify_of_ne hi, Ne.symm hi]
    rw [hledger]
    exact h slot

theorem ledger_ok_deliver (h : ∀ i, (s.ledger i).Ok) (hr : i ∈ s.ringing)
    (hs : s' = { s with ringing := s.ringing.erase i, commands := s.commands ++ [.wake i] })
    (slot : Nat) : (s'.ledger slot).Ok := by
  by_cases hi : slot = i
  · subst hi
    have hledger : s'.ledger slot =
        { s.ledger slot with
          ringing := (s.ledger slot).ringing - 1
          commands := (s.ledger slot).commands ++ [.wake slot] } := by
      simp [hs, ledger]
    rw [hledger]
    exact (h slot).deliver (List.count_pos_iff.2 hr)
  · have hledger : s'.ledger slot =
        { s.ledger slot with commands := (s.ledger slot).commands ++ [.wake i] } := by
      simp [hs, ledger, List.count_erase_of_ne hi]
    rw [hledger]
    exact (h slot).append rfl rfl (by simpa [Command.isWake, ledger] using Ne.symm hi)

/-- The flag of a slot is lowered by its wakes alone. -/
theorem flagAt_handle {cmd : Command} {cs : List Command} {f : Post → Post}
    (h : (s.ledger slot).Ok) (hc : s.commands = cmd :: cs) (hf : s.Handles cmd f) :
    flagAt (s.posts.modify cmd.slot f) slot =
      if cmd.isWake slot then false else flagAt s.posts slot := by
  by_cases hslot : slot = cmd.slot
  · subst hslot
    cases hw : cmd.isWake cmd.slot with
    | true =>
      have hwakes : s.wakes cmd = true := by
        rw [wakes, hw, Bool.true_and]; exact h.known_of_wake hc hw
      exact flagAt_modify_lower fun p => by simp [hf.pending, hwakes]
    | false => exact readAt_modify fun p _ => by simp [hf.pending, wakes, hw]
  · rw [flagAt, readAt_modify_of_ne hslot, Command.isWake_of_ne hslot]; rfl

theorem ledger_ok_handle {cmd : Command} {cs : List Command} {f : Post → Post}
    {events : Broadcast Event} (h : ∀ i, (s.ledger i).Ok) (hc : s.commands = cmd :: cs)
    (hf : s.Handles cmd f)
    (hs : s' = { s with
      commands := cs
      dispatcher := s.dispatcher.handle s.dispatchConfig s.clock s.partitionName s.isStopped cmd
      posts := s.posts.modify cmd.slot f
      shared := { s.shared with events := events } }) (slot : Nat) : (s'.ledger slot).Ok := by
  have hledger : s'.ledger slot =
      { s.ledger slot with
        commands := cs
        state := (s.dispatcher.handle s.dispatchConfig s.clock s.partitionName s.isStopped
          cmd).slot? slot
        time := (s.dispatcher.handle s.dispatchConfig s.clock s.partitionName s.isStopped
          cmd).time? slot
        pending := if cmd.isWake slot then false else (s.ledger slot).pending } := by
    simp [hs, ledger, flagAt_handle (h slot) hc hf]
  rw [hledger]
  refine (h slot).handle hc (Dispatcher.isSome_handle ..) ?_
  intro n hn
  exact Dispatcher.handle_fits _ _ _ _ ((h slot).unknown_of_register hc) hn

/-- A turn of the dispatcher, whether it submits a cycle or not. -/
theorem ledger_ok_dispatch (h : (s.ledger slot).Ok)
    (hl : s'.ledger slot =
      { s.ledger slot with
        state := s.offered.2.slot? slot
        time := s.offered.2.time? slot
        unreported := (s.ledger slot).unreported + (s.offered.1 == some slot).toNat }) :
    (s'.ledger slot).Ok := by
  rw [hl]
  exact h.turn (Dispatcher.offer_at s.dispatchConfig s.clock s.partitionName s.isStopped s.answer
    s.dispatcher slot)

theorem ledger_ok_step [JobStore σ] (hn : s.Numbered) (h : ∀ i, (s.ledger i).Ok) (n : Nat)
    (m : Moment) (slot : Nat) : ((s.stepTask n m).ledger slot).Ok := by
  obtain ⟨heq, -⟩ | ⟨t, a, shared, a', c, -, -, -, -, heq⟩ := stepTask_cases hn.nodup n m
  · rw [heq]; exact h slot
  · have hledger : (s.stepTask n m).ledger slot = s.ledger slot := by
      rw [heq, ledger, ledger]
      congr 1
      · exact countP_step _ (fun t => by split <;> rfl) s.tasks
      · simp [modifyActor, modifyPost]
      · exact readAt_modify fun p _ => rfl
    rw [hledger]; exact h slot

theorem ledger_ok_report {t : CycleTask} {r : CycleResult} {posts : List Post}
    (hn : s.Numbered) (h : ∀ i, (s.ledger i).Ok) (ht : s.task? t.task = some t)
    (hr : t.reported = false) (hp : s.Reports t r posts)
    (hs : s' = { s with
      posts := posts
      tasks := s.tasks.map fun u => if u.task = t.task then { u with reported := true } else u
      commands := s.commands ++ [.finished t.slot r] }) (slot : Nat) : (s'.ledger slot).Ok := by
  obtain ⟨hmem, -⟩ := mem_of_task? ht
  have hposts : posts.length = s.posts.length ∧ flagAt posts slot = flagAt s.posts slot := by
    cases hp with
    | ended => exact ⟨rfl, rfl⟩
    | panicked => exact ⟨by simp, readAt_modify fun p _ => rfl⟩
  have hcount := countP_report hn.nodup hmem hr slot
  by_cases hi : slot = t.slot
  · subst hi
    simp only [beq_self_eq_true, Bool.toNat_true] at hcount
    have hledger : s'.ledger t.slot =
        { s.ledger t.slot with
          unreported := (s.ledger t.slot).unreported - 1
          commands := (s.ledger t.slot).commands ++ [.finished t.slot r] } := by
      simp [hs, ledger, hposts, hcount]
    rw [hledger]
    refine (h t.slot).report ?_ r
    simp only [ledger, hcount]; rfl
  · simp only [beq_eq_false_iff_ne.2 (Ne.symm hi), Bool.toNat_false, Nat.add_zero] at hcount
    have hledger : s'.ledger slot =
        { s.ledger slot with commands := (s.ledger slot).commands ++ [.finished t.slot r] } := by
      simp [hs, ledger, hposts, hcount]
    rw [hledger]
    exact (h slot).append (by simpa [Command.isFinished, ledger] using Ne.symm hi) rfl rfl

theorem ledger_ok_releaseSlot {n : Nat} (hn : s.Numbered) (h : ∀ i, (s.ledger i).Ok)
    (hleave : s.shared.pool.stage? n = some .leaving)
    (hs : s' = { s.modifyPool (·.releaseSlot n) with tasks := s.tasks.filter (·.task != n) })
    (slot : Nat) : (s'.ledger slot).Ok := by
  have hreported : ∀ t ∈ s.tasks, t.task = n → t.reported = true := by
    rintro t ht rfl
    exact hn.reported t ht (WorkerPool.mem_of_stage? hleave)
  have hledger : s'.ledger slot = s.ledger slot := by
    rw [hs, ledger, ledger]
    congr 1
    exact countP_release hreported slot
  rw [hledger]; exact h slot

/-- The actor of a slot is none of its ledger. -/
theorem ledger_modifyActor (s : System σ) (i : Nat) (f : Actor → Actor) (slot : Nat) :
    (s.modifyActor i f).ledger slot = s.ledger slot := by
  rw [ledger, ledger]
  congr 1
  · simp [modifyActor, modifyPost]
  · exact readAt_modify fun p _ => rfl

theorem ledger_cancelAll (s : System σ) (slot : Nat) :
    s.cancelAll.ledger slot = s.ledger slot := by
  rw [ledger, ledger]
  congr 1
  · simp [cancelAll]
  · exact readAt_map fun p => rfl

/-! ## Registrations -/

/-- A registration of a slot goes on. -/
theorem ledger_setStage (st : RegistrationStage) (i slot : Nat) :
    (s.setStage i st).ledger slot =
      if slot = i then { s.ledger slot with stage := (s.ledger slot).stage.map fun _ => st }
      else s.ledger slot := by
  by_cases hi : slot = i
  · simp [ledger, setStage, stageAt_set, hi]
  · rw [if_neg hi, ledger, ledger]
    simp only [setStage, stageAt_set, if_neg hi]; rfl

theorem ledger_ok_setStage {st old : RegistrationStage} (h : ∀ i, (s.ledger i).Ok)
    (hold : s.stage? i = some old) (he : st.isEarly = true → old.isEarly = true)
    (hl : st.isEarly = false → (s.ledger i).Announced) (slot : Nat) :
    ((s.setStage i st).ledger slot).Ok := by
  rw [ledger_setStage]
  split
  case isTrue hi =>
    subst hi
    have hstage : (s.ledger slot).stage = some old := hold
    rw [hstage]
    refine (h slot).stage (by simp [hstage]) (fun hst => ?_) hl
    simp [Ledger.isEarly, hstage, he hst]
  case isFalse => exact h slot

theorem ledger_ok_claimKey (h : ∀ i, (s.ledger i).Ok) (key : Key) (slot : Nat) :
    ((s.claimKey key).ledger slot).Ok := by
  by_cases hi : slot = s.posts.length
  · have hposted : (s.ledger slot).posted = false := by simp [ledger, hi]
    have hstage : stageAt s.registrations slot = none := ((h slot).absent hposted).1
    have hledger : (s.claimKey key).ledger slot =
        { s.ledger slot with posted := true, stage := some .claimed } := by
      rw [ledger, ledger]
      simp only [claimKey, stageAt_append, hstage, if_pos hi, Option.none_or, List.length_append]
      congr 1
      · simp [hi]
      · exact readAt_append rfl
    rw [hledger]; exact (h slot).post hposted
  · have hledger : (s.claimKey key).ledger slot = s.ledger slot := by
      rw [ledger, ledger]
      simp only [claimKey, stageAt_append, if_neg hi, Option.or_none, List.length_append]
      congr 1
      · simp only [List.length_singleton, decide_eq_decide]; omega
      · exact readAt_append rfl
    rw [hledger]; exact h slot

theorem ledger_ok_register {due : Option Instant} (h : ∀ i, (s.ledger i).Ok)
    (hstage : s.stage? i = some (.read due)) (slot : Nat) :
    (({ s with commands := s.commands ++ [Command.register i due] }.setStage i .sent).ledger
      slot).Ok := by
  rw [ledger_setStage]
  split
  case isTrue hi =>
    subst hi
    have hread : (s.ledger slot).stage = some (.read due) := hstage
    have hmap : (ledger { s with commands := s.commands ++ [Command.register slot due] }
        slot).stage.map (fun _ => RegistrationStage.sent) = some .sent := by
      rw [show (ledger { s with commands := s.commands ++ [Command.register slot due] }
        slot).stage = some (.read due) from hread]; rfl
    rw [hmap]
    exact (h slot).register hread
  case isFalse hi =>
    exact (h slot).append rfl (by simpa [Command.isRegister, ledger] using Ne.symm hi) rfl

theorem ledger_ok_publish (h : ∀ i, (s.ledger i).Ok) (hstage : s.stage? i = some .sent)
    (slot : Nat) : ((s.publish i).ledger slot).Ok := by
  have hann (j : Nat) (hj : j = i) : (s.ledger j).Announced :=
    (h j).late .sent (hj ▸ hstage) rfl
  have hpub : ∀ j, (ledger { s with actors := s.actors ++ [(s.partitionName i, i)] } j).Ok := by
    intro j
    by_cases hj : j = i
    · have hledger : ledger { s with actors := s.actors ++ [(s.partitionName i, i)] } j =
          { s.ledger j with published := true } := by
        simp [ledger, hj]
      rw [hledger]; exact (h j).publish (hann j hj)
    · have hledger : ledger { s with actors := s.actors ++ [(s.partitionName i, i)] } j =
          s.ledger j := by
        simp [ledger, hj]
      rw [hledger]; exact h j
  exact ledger_ok_setStage hpub hstage (fun he => by cases he) (fun _ => hann i rfl) slot

theorem ledger_ok_forget (h : ∀ i, (s.ledger i).Ok) (slot : Nat) :
    ((s.forget i).ledger slot).Ok := by
  by_cases hi : slot = i
  · have hledger : (s.forget i).ledger slot = { s.ledger slot with stage := none } := by
      simp [ledger, forget, stageAt_forget, hi]
    rw [hledger]; exact (h slot).forget
  · have hledger : (s.forget i).ledger slot = s.ledger slot := by
      rw [ledger, ledger]
      simp only [forget, stageAt_forget, if_neg hi]; rfl
    rw [hledger]; exact h slot

/-! ## Every action -/

theorem ledger_ok_ofConfig (config : SchedulerConfig) (processors : Processors) (startup : Startup)
    (store : σ) (clock : Clock) (slot : Nat) :
    ((System.ofConfig config processors startup store clock).ledger slot).Ok where
  fits := ⟨rfl, rfl⟩
  one := Nat.zero_le _
  absent _ := ⟨rfl, fun h => h.elim (fun hs => by cases hs) fun hr => by cases hr⟩
  late _ hst := by cases hst
  published hp := by cases hp
  ordered := trivial
  flag := rfl
  rung hr := by cases hr

theorem ledger_ok_next [JobStore σ] (hn : s.Numbered) (h : ∀ i, (s.ledger i).Ok) {a : Action}
    (ha : s.Allows a) (he : s.Effect a s') (hl : s'.loopAlive = true) (slot : Nat) :
    (s'.ledger slot).Ok := by
  have hs := he.loopAlive hl
  cases he with
  | clock | insert | rung | timer | start | releaseWorker | registerListener | beginStop | idle =>
    exact h slot
  | ring hp => exact ledger_ok_ring h ha hp rfl slot
  | deliver hr => exact ledger_ok_deliver h hr rfl slot
  | handle hc hf => exact ledger_ok_handle h hc hf rfl slot
  | @submit i _ ho =>
    refine ledger_ok_dispatch (h slot) ?_
    by_cases hi : i = slot
    · simp [ledger, ho, hi]
    · simp [ledger, ho, hi]
  | pass ho => exact ledger_ok_dispatch (h slot) (by simp [ledger, ho])
  | endLoop => cases hl
  | @step n m _ _ _ heq => exact heq ▸ ledger_ok_step hn h n m slot
  | report ht hr hp =>
    simp only [hs, if_true]
    exact ledger_ok_report hn h ht hr hp rfl slot
  | releaseSlot hleave => exact ledger_ok_releaseSlot hn h hleave rfl slot
  | claimKey key => exact ledger_ok_claimKey h key slot
  | readDue i failure due =>
    exact ledger_ok_setStage h ha (fun _ => rfl) (fun he => by cases he) slot
  | register hstage => exact ledger_ok_register h hstage slot
  | publish i => exact ledger_ok_publish h ha slot
  | attach i registry =>
    have hr : ∀ j, (ledger { s with registry := registry } j).Ok := h
    exact ledger_ok_setStage hr ha (fun he => by cases he) (fun _ => (h i).late _ ha rfl) slot
  | announce i => exact ledger_ok_forget (s := s.publishAll _) h slot
  | markStopped i | requestStop i => rw [ledger_modifyActor]; exact h slot
  | cancelAll => rw [ledger_cancelAll]; exact h slot
  | lower _ hdead | abandon hdead => rw [hs] at hdead; cases hdead
  | closePool => rw [show s.loopAlive = false from ha] at hs; cases hs
  | finishShutdown =>
    have hopen := hn.isOpen hs
    rw [show s.shared.pool.closed = true from ha] at hopen; cases hopen

end System

/-- As long as the dispatcher lives, the ledger of every slot is in order. -/
theorem Reachable.ledger_ok {σ : Type} [JobStore σ] {s : System σ} (h : Reachable s)
    (hl : s.loopAlive = true) (slot : Nat) : (s.ledger slot).Ok := by
  induction h generalizing slot with
  | init config processors startup store clock =>
    exact System.ledger_ok_ofConfig ..
  | @next s a hr ha ih =>
    have he := s.effect_next a
    exact System.ledger_ok_next hr.numbered (ih (he.loopAlive hl)) ha he hl slot

end DueWork
