/-
  Single flight: no cycle and no processor call twice at a time.

  * `Rounds` are the calls of a task: each claim that is won leads to one call
    of the processor and one commit at most, one instance after another;
  * `Tracked`: the calls of a task so far lead to the phase that its cycle is
    in;
  * `single_flight`: in every run a slot has one cycle in flight at most, an
    instance is held by one task at most, and the calls of a task are rounds.
-/
import DueWork.Proofs.Manager.Claims

namespace DueWork

open Time Signal Schedule

/-! ## Rounds -/

/-- The phase after some calls, if each of them may come when it does. -/
def Phase.after? : Phase → List JobCall → Option Phase
  | p, [] => some p
  | p, c :: cs => (p.next? c).bind fun p' => p'.after? cs

theorem Phase.after?_append (p : Phase) (cs ds : List JobCall) :
    p.after? (cs ++ ds) = (p.after? cs).bind fun p' => p'.after? ds := by
  induction cs generalizing p with
  | nil => rfl
  | cons c cs ih => simp only [List.cons_append, after?, ih, Option.bind_assoc]

/-- The calls for one instance after another, the last perhaps not finished. -/
inductive Rounds : List JobCall → Prop
  | nil : Rounds []
  | won (id : Int) : Rounds [.won id]
  | processed (id : Int) : Rounds [.won id, .processed id]
  | committed (id : Int) {cs : List JobCall} (h : Rounds cs) :
    Rounds (.won id :: .processed id :: .committed id :: cs)

/-- The calls that were made for the instance in hand. -/
def Phase.opening : Phase → List JobCall
  | .free => []
  | .held id => [.won id]
  | .decided id => [.won id, .processed id]

/-- A call in time is one more for the instance in hand, or its commit. -/
theorem Phase.next?_eq_some {p p' : Phase} {c : JobCall} (h : p.next? c = some p') :
    p'.opening = p.opening ++ [c] ∨
      ∃ id, p.opening = [.won id, .processed id] ∧ c = .committed id ∧ p' = .free := by
  unfold Phase.next? at h
  split at h
  · cases h
    exact .inl rfl
  · obtain ⟨rfl, hp⟩ := Option.ite_none_right_eq_some.1 h
    cases hp
    exact .inl rfl
  · obtain ⟨rfl, hp⟩ := Option.ite_none_right_eq_some.1 h
    cases hp
    exact .inr ⟨_, rfl, rfl, rfl⟩
  · cases h

/-- Calls in time, after those for the instance in hand, are rounds. -/
theorem rounds_of_after? {p p' : Phase} {cs : List JobCall} (h : p.after? cs = some p') :
    Rounds (p.opening ++ cs) := by
  induction cs generalizing p with
  | nil => cases p with
    | free => exact .nil
    | held id => exact .won id
    | decided id => exact .processed id
  | cons c cs ih =>
    obtain ⟨q, hq, h⟩ := Option.bind_eq_some_iff.1 h
    have hrounds := ih h
    obtain hopening | ⟨id, hopening, rfl, rfl⟩ := Phase.next?_eq_some hq
    · rwa [hopening, List.append_assoc] at hrounds
    · rw [hopening]
      exact .committed id hrounds

/-- A step makes its call in time. -/
theorem Move.after? {σ : Type} [JobStore σ] {key : Key} {store store' : σ} {p p' : Point}
    (h : Move key store p store' p') :
    p.phase.after? (p.call? p').toList = some p'.phase := by
  have hphase := h.phase
  cases hc : p.call? p' with
  | none => rw [hc] at hphase; exact congrArg some hphase.symm
  | some call =>
    rw [hc] at hphase
    simp only [Option.toList_some, Phase.after?, hphase, Option.bind_some]

/-- The calls that a task makes. -/
def calls (n : Nat) (os : List Observation) : List JobCall :=
  os.filterMap fun
    | .called m call => if m = n then some call else none
    | _ => none

theorem calls_append (n : Nat) (os os' : List Observation) :
    calls n (os ++ os') = calls n os ++ calls n os' :=
  List.filterMap_append ..

theorem calls_called (n m : Nat) (cs : List JobCall) :
    calls n (cs.map (.called m)) = if m = n then cs else [] := by
  simp only [calls, List.filterMap_map, Function.comp_def]
  split <;> simp

namespace System

variable {σ : Type} {s s' : System σ} {n : Nat} {cs : List JobCall}

/-! ## Calls of a task -/

/-- The calls of a task lead to where its cycle stands, and one that does not
    exist yet made none. -/
structure Tracked (s : System σ) (n : Nat) (cs : List JobCall) : Prop where
  phase : ∃ p, Phase.free.after? cs = some p ∧
    ∀ t ∈ s.tasks, t.task = n → t.cycle.point.phase = p
  fresh : s.shared.pool.nextTask ≤ n → cs = []

theorem Tracked.of_spares (h : s.Tracked n cs) (hs : s.Spares s') :
    s'.Tracked n cs where
  phase := by
    obtain ⟨p, hp, ht⟩ := h.phase
    refine ⟨p, hp, ?_⟩
    intro t' ht' hn
    rcases hs.tasks t' ht' with ⟨t, hmem, htask, -, hcycle⟩ | ⟨htask, hstart, -⟩
    · rw [hcycle]; exact ht t hmem (htask ▸ hn)
    · -- a new task made no calls
      rw [h.fresh (by omega)] at hp
      rw [hstart]; exact Option.some.inj hp
  fresh hle := h.fresh (Nat.le_trans hs.nextTask hle)

/-- The task that stepped stands elsewhere. -/
theorem task?_map {t : CycleTask} {c : Cycle} {ts : List CycleTask}
    (h : ts.find? (·.task == n) = some t) :
    (ts.map fun t => if t.task = n then { t with cycle := c } else t).find? (·.task == n) =
      some { t with cycle := c } := by
  have hnum : (fun t : CycleTask =>
      (if t.task = n then { t with cycle := c } else t).task == n) = fun t => t.task == n := by
    funext t; split <;> rfl
  have ht : t.task = n := by simpa using List.find?_some h
  simp only [List.find?_map, Function.comp_def, hnum, h, Option.map_some, ht, if_true]

theorem runningPoint?_eq {t : CycleTask} (ht : s.task? n = some t)
    (hrun : s.shared.pool.stage? n = some .running) : s.runningPoint? n = some t.cycle.point := by
  rw [runningPoint?, if_pos hrun, ht]; rfl

variable [JobStore σ]

/-- What a step shows of the calls of a task. -/
theorem calls_observeStep {k : Nat} {m : Moment} {t : CycleTask} {c : Cycle}
    (ht : s.task? k = some t) (hrun : s.shared.pool.stage? k = some .running)
    (ht' : (s.stepTask k m).task? k = some { t with cycle := c })
    (hrun' : (s.stepTask k m).shared.pool.stage? k = some .running) :
    calls n (s.observeStep k m) =
      if k = n then (t.cycle.point.call? c.point).toList else [] := by
  simp only [observeStep, ht, runningPoint?_eq ht hrun, runningPoint?_eq ht' hrun']
  cases t.cycle.point with
  | start => simp [calls, Point.call?]
  | _ => exact calls_called ..

theorem Tracked.stepTask (h : s.Tracked n cs) (hm : s.Manned) (hn : s.Numbered) (k : Nat)
    (m : Moment) : (s.stepTask k m).Tracked n (cs ++ calls n (s.observeStep k m)) := by
  obtain ⟨heq, hidle⟩ | ⟨t, a, shared, a', c, ht, hrun, ha, hstep, heq⟩ :=
    stepTask_cases hn.nodup k m
  · have hnone : s.observeStep k m = [] := by
      rcases hidle with hidle | ⟨t, ht, ha⟩
      · unfold observeStep; rw [hidle]
        cases s.task? k <;> rfl
      · obtain ⟨a, ha', -⟩ := hm.task t (mem_of_task? ht).1
        rw [ha] at ha'; cases ha'
    rw [heq, hnone]
    simpa [calls] using h
  · have hstepped := t.cycle.step_stepped s.actorConfig { m with now := s.clock.wall } s.shared a
    rw [hstep] at hstepped
    obtain ⟨permits, hpool⟩ := hstepped.pool
    have hcalls : calls n (s.observeStep k m) =
        if k = n then (t.cycle.point.call? c.point).toList else [] := by
      refine calls_observeStep ht hrun ?_ ?_
      · rw [heq]; exact task?_map ht
      · rw [heq]
        show shared.pool.stage? k = _
        rw [show shared.pool = _ from hpool]; exact hrun
    obtain ⟨p, hp, hphase⟩ := h.phase
    obtain ⟨hmem, hk⟩ := mem_of_task? ht
    rw [hcalls]
    constructor
    case phase =>
      by_cases hkn : k = n
      · rw [if_pos hkn]
        refine ⟨c.point.phase, ?_, fun t' ht' hn' => ?_⟩
        · rw [Phase.after?_append, hp, Option.bind_some, ← hphase t hmem (hk.trans hkn)]
          exact hstepped.move.after?
        · rw [heq] at ht'
          obtain ⟨u, hu, ⟨-, rfl⟩ | ⟨hne, rfl⟩⟩ := mem_map_cycle ht'
          · rfl
          · exact absurd (hn'.trans hkn.symm) hne
      · rw [if_neg hkn, List.append_nil]
        refine ⟨p, hp, ?_⟩
        intro t' ht' hn'
        rw [heq] at ht'
        obtain ⟨u, hu, ⟨he, rfl⟩ | ⟨-, rfl⟩⟩ := mem_map_cycle ht'
        · exact absurd (he.symm.trans hn') hkn
        · exact hphase t' hu hn'
    case fresh =>
      have hnext : (s.stepTask k m).shared.pool.nextTask = s.shared.pool.nextTask := by
        rw [heq]
        show shared.pool.nextTask = _
        rw [show shared.pool = _ from hpool]
      rw [hnext]
      intro hle
      have hlt := hn.lt t hmem
      rw [if_neg (by omega), List.append_nil]
      exact h.fresh hle

theorem calls_observe {a : Action} (ha : ∀ k m, a ≠ .step k m) : calls n (s.observe a) = [] := by
  cases a with
  | step k m => exact absurd rfl (ha k m)
  | handle =>
    cases hc : s.commands with
    | nil => simp [observe, hc, calls]
    | cons cmd cs => cases cmd <;> simp [observe, hc, calls]
  | _ => rfl

theorem Tracked.next (h : s.Tracked n cs) (hm : s.Manned) (hn : s.Numbered)
    (a : Action) : (s.next a).Tracked n (cs ++ calls n (s.observe a)) := by
  by_cases ha : ∃ k m, a = .step k m
  · obtain ⟨k, m, rfl⟩ := ha
    exact h.stepTask hm hn k m
  · replace ha : ∀ k m, a ≠ .step k m := fun k m he => ha ⟨k, m, he⟩
    rw [calls_observe ha, List.append_nil]
    exact h.of_spares ((s.effect_next a).spares ha)

theorem Tracked.after {as : List Action} (h : s.Tracked n cs) (hr : Reachable s)
    (hp : s.Permits as) : (s.after as).Tracked n (cs ++ calls n (s.trace as)) := by
  induction as generalizing s cs with
  | nil => simpa [after, trace, calls] using h
  | cons a as ih =>
    have hnext := ih (h.next hr.manned hr.numbered a) (hr.next a hp.1) hp.2
    rwa [List.append_assoc, ← calls_append] at hnext

/-! ## Single flight -/

omit [JobStore σ] in
/-- Cycles of a slot that were submitted and whose end was not handled. -/
def inFlight (s : System σ) (slot : Nat) : Nat :=
  s.tasks.countP (fun t => t.slot == slot && !t.reported) +
    s.commands.countP (·.isFinished slot)

omit [JobStore σ] in
/-- While the dispatcher lives, a slot has one cycle in flight at most; it is
    running if there is one, and then not scheduled. -/
theorem inFlight_of_ledger {slot : Nat} (h : (s.ledger slot).Ok) :
    s.inFlight slot ≤ 1 ∧ (s.dispatcher.isRunning slot = true ↔ s.inFlight slot = 1) ∧
      (s.dispatcher.isRunning slot = true → s.dispatcher.time? slot = none) := by
  have hfits : Dispatcher.Fits (s.dispatcher.slot? slot) (s.dispatcher.time? slot)
      (s.inFlight slot) := h.fits
  refine ⟨hfits.le_one, ?_⟩
  unfold Dispatcher.isRunning
  cases hs : s.dispatcher.slot? slot with
  | none =>
    rw [hs] at hfits
    obtain ⟨hn, ht⟩ := hfits
    simp [hn, ht]
  | some st =>
    rw [hs] at hfits
    obtain ⟨hn, ht⟩ := hfits
    refine ⟨?_, ht⟩
    rw [hn]
    cases h : st.running <;> simp [h]

/-- **Single flight.**  Whatever the order of the steps, as long as the
    dispatcher lives every slot has at most one cycle in flight, runs just if
    it has one, and is not scheduled then; at no time do two tasks hold the
    same instance; and each claim that a task wins leads to at most one call
    of the processor and at most one commit, before the next claim.

    What is asked of the store is what `Lawful` is about: the one in memory has
    it with any keys, a database that has entries with keys that name its
    columns. -/
theorem single_flight [Lawful σ] {as : List Action} (h : s.IsNew) (hp : s.Permits as) :
    ((s.after as).loopAlive = true → ∀ slot,
      (s.after as).inFlight slot ≤ 1 ∧
      ((s.after as).dispatcher.isRunning slot = true ↔ (s.after as).inFlight slot = 1) ∧
      ((s.after as).dispatcher.isRunning slot = true →
        (s.after as).dispatcher.time? slot = none)) ∧
    (Lawful.Holds s.shared.store → (∀ key, .claimKey key ∈ as → Lawful.Serves σ key) →
      ∀ t ∈ (s.after as).tasks, ∀ t' ∈ (s.after as).tasks, ∀ x,
        (s.after as).claimed? t = some x → (s.after as).claimed? t' = some x → t = t') ∧
    ∀ n, Rounds (calls n (s.trace as)) := by
  have hreach := h.reachable.after hp
  refine ⟨fun hl slot => ?cycles, fun hstore hkeys t ht t' ht' x hx hx' => ?instances,
    fun n => ?calls⟩
  case cycles => exact inFlight_of_ledger (hreach.ledger_ok hl slot)
  case instances =>
    have hexclusive := (exclusive_of_isNew h hstore).after h.reachable hp hkeys
    exact eq_of_task_eq hreach.numbered.nodup ht ht' (hexclusive.unique t ht t' ht' x hx hx')
  case calls =>
    have hstart : s.Tracked n [] := by
      obtain ⟨config, processors, startup, store, clock, rfl⟩ := h
      exact ⟨⟨.free, rfl, fun _ ht => absurd ht List.not_mem_nil⟩, fun _ => rfl⟩
    obtain ⟨p, hafter, -⟩ := (hstart.after h.reachable hp).phase
    exact rounds_of_after? hafter

/-- A slot that is woken again while the processor of its instance is running:
    no second cycle is submitted, and the calls are those of one round. -/
theorem single_flight_of_second_wake :
    let run := registration ++ wakeUp ++ List.replicate 6 (.step 0 { now := .epoch }) ++
      [.ring 0, .deliver 0, .handle, .timer, .dispatch, .dispatch] ++
      List.replicate 2 (.step 0 { now := .epoch })
    (blank.after run).inFlight 0 = 1 ∧ (blank.after run).dispatcher.time? 0 = none ∧
      (∀ t ∈ (blank.after run).tasks, ∀ t' ∈ (blank.after run).tasks, ∀ x,
        (blank.after run).claimed? t = some x → (blank.after run).claimed? t' = some x → t = t') ∧
      Rounds [.won 1, .processed 1, .committed 1] := by
  intro run
  obtain ⟨hcycles, hheld, hrounds⟩ := single_flight isNew_blank
    (show blank.Permits run by decide +kernel)
  obtain ⟨-, hiff, htime⟩ := hcycles (by decide +kernel) 0
  have hrun : (blank.after run).dispatcher.isRunning 0 = true := by decide +kernel
  have htrace : calls 0 (blank.trace run) = [.won 1, .processed 1, .committed 1] := by
    decide +kernel
  exact ⟨hiff.1 hrun, htime hrun, hheld trivial fun _ _ => trivial, htrace ▸ hrounds 0⟩

end System

end DueWork
