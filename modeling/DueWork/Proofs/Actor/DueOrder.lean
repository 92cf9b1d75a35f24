/-
  The order in which a cycle in memory hands instances over.

  While nobody else changes the store, the due times of what was handed over
  and of what is ahead form one line that never falls (`InOrder`): what else
  waits is behind it, and a deferral goes behind it as well, for the clock has
  passed the whole line.  So the order holds across the borders of batches and
  for instances that are deferred and handed over again in the same cycle.
-/
import DueWork.Proofs.Actor.Handover
import DueWork.Proofs.Actor.RetryCourse

namespace DueWork

open Time

/-! ## What waits in memory -/

namespace MemoryStore

variable {s : MemoryStore} {key : Key} {id : Int} {now : Instant} {f : Job → Job}
  {keepsId : ∀ j, (f j).id = j.id} {i j : Job}

theorem IsWaiting.find? (h : s.IsWaiting key j) : s.find? j.id = some j :=
  find?_eq_some.2 ⟨h.1, rfl⟩

/-- Other instances wait as they did. -/
theorem isWaiting_updateAt_of_ne (h : j.id ≠ id) :
    (s.updateAt id f keepsId).IsWaiting key j ↔ s.IsWaiting key j := by
  have mem_iff (s : MemoryStore) : j ∈ s.jobs ↔ s.find? j.id = some j :=
    (and_iff_left rfl).symm.trans find?_eq_some.symm
  have hmem : j ∈ (s.updateAt id f keepsId).jobs ↔ j ∈ s.jobs := by
    rw [mem_iff, find?_updateAt, if_neg h, mem_iff]
  rw [IsWaiting, IsWaiting, hmem]

/-- The changed instance is what the change made of it. -/
theorem IsWaiting.of_updateAt (h : (s.updateAt id f keepsId).IsWaiting key j) (hid : j.id = id) :
    ∃ i, s.find? id = some i ∧ j = f i := by
  have hj := h.find?
  rw [find?_updateAt, if_pos hid, hid] at hj
  obtain ⟨i, hi, rfl⟩ := Option.map_eq_some_iff.1 hj
  exact ⟨i, hi, rfl⟩

/-- What a fetch passes over is due no earlier than what it fetches. -/
theorem dueAt_le_of_passed {limit : Nat} (hi : i ∈ (s.ready key now).take limit)
    (hj : s.IsWaiting key j) (hpassed : j ∉ (s.ready key now).take limit) : i.dueAt ≤ j.dueAt := by
  have horder : ((s.ready key now).take limit ++ (s.ready key now).drop limit).Pairwise
      Job.Before := by
    rw [List.take_append_drop]
    exact ready_pairwise
  by_cases hdue : j.dueAt ≤ now
  · -- it is due, so it is ready and comes after the limit
    have hready : key.isReady j now = true := by
      rw [Key.isReady, hj.2.1, hj.2.2]
      exact decide_eq_true hdue
    have hmem : j ∈ (s.ready key now).take limit ++ (s.ready key now).drop limit := by
      rw [List.take_append_drop]
      exact mem_ready.2 ⟨hj.1, hready⟩
    have hdrop := (List.mem_append.1 hmem).resolve_left hpassed
    have hbefore := (List.pairwise_append.1 horder).2.2 i hi j hdrop
    rw [Job.before_iff] at hbefore
    rw [Instant.le_def]
    omega
  · have hready := (mem_ready.1 (List.mem_of_mem_take hi)).2
    simp only [Key.isReady, Bool.and_eq_true, decide_eq_true_eq] at hready
    have hi := hready.2
    rw [Instant.not_le, Instant.lt_def] at hdue
    rw [Instant.le_def] at *
    omega

end MemoryStore

/-! ## The line -/

/-- The due times of what was handed over, and of what is ahead. -/
def Point.line (past : List Instant) (p : Point) : List Instant := past ++ p.ahead.map (·.dueAt)

/-- A cycle in memory keeps the order of due times; the clock will show
    `clock`. -/
structure InOrder (key : Key) (s : MemoryStore) (past clock : List Instant) (p : Point) : Prop where
  distinct : (p.copies.map (·.id)).Nodup
  /-- a copy that is ahead is the stored instance -/
  ahead : ∀ j ∈ p.ahead, s.IsWaiting key j
  sorted : (p.line past).Pairwise (· ≤ ·)
  /-- the clock has passed the line -/
  passed : ∀ t ∈ p.line past, ∀ now ∈ clock, t ≤ now
  /-- what else waits is behind the line -/
  behind : ∀ j, s.IsWaiting key j → j ∈ p.ahead ∨ ∀ t ∈ p.line past, t ≤ j.dueAt
  /-- and so is a deferral -/
  deferral : ∀ j t b, p = .committing j t b → key.isReadyState t.state = true →
    ∃ due, t.dueAt = some due ∧ ∀ u ∈ p.line past, u ≤ due

/-- The processor does not ask for another try before the present time. -/
def Moment.NeverEarly (k : ActorConfig) (m : Moment) : Prop :=
  ∀ reason t, m.processing.outcome k.processorTimeout = .retry reason (some t) → m.now ≤ t

/-- A deferral is not to a time before the clock. -/
theorem Outcome.deferral_le {k : ActorConfig} {m : Moment} (hlast : m.now ≤ .last)
    (hearly : m.NeverEarly k) {j : Job} {t : Transition}
    (ht : t = (m.processing.outcome k.processorTimeout).transition k.retry m.now m.jitter j)
    (hstate : t.state = .deferred) : ∃ due, t.dueAt = some due ∧ m.now ≤ due := by
  cases ho : m.processing.outcome k.processorTimeout with
  | done result =>
    rw [ho] at ht
    rw [ht] at hstate
    cases hstate
  | failed reason =>
    rw [ho] at ht
    rw [ht] at hstate
    cases hstate
  | retry reason notBefore =>
    rw [ho] at ht
    obtain ⟨due, hdue⟩ : ∃ due, t.dueAt = some due := by
      rcases Outcome.transition_cases (.retry reason notBefore) k.retry m.now m.jitter j with
        h | h | ⟨-, hdue, -⟩
      · rw [ht, h] at hstate
        cases hstate
      · rw [ht, h] at hstate
        cases hstate
      · rwa [← ht] at hdue
    refine ⟨due, hdue, ?_⟩
    rw [ht] at hdue
    cases notBefore with
    | none => exact Outcome.le_of_retry hlast hdue
    | some u =>
      simp only [Outcome.transition] at hdue
      split at hdue
      · cases hdue
      · cases hdue
        exact hearly reason u ho

section

variable {k : ActorConfig} {key : Key} {m : Moment} {stop : Bool} {s s' : MemoryStore} {p p' : Point}
  {past clock : List Instant} {i j : Job}

namespace InOrder

theorem start : InOrder key s [] clock .start where
  distinct := .nil
  ahead _ hj := by cases hj
  sorted := .nil
  passed _ ht := by cases ht
  behind _ _ := .inr fun _ ht => by cases ht
  deferral _ _ _ hp := by cases hp

/-- What waits is due no earlier than what was handed over. -/
theorem past_le (h : InOrder key s past clock p) (hj : s.IsWaiting key j) {t : Instant}
    (ht : t ∈ past) : t ≤ j.dueAt := by
  rcases h.behind j hj with hahead | hbehind
  · exact (List.pairwise_append.1 h.sorted).2.2 t ht _ (List.mem_map_of_mem hahead)
  · exact hbehind t (List.mem_append_left _ ht)

theorem tick {now : Instant} (h : InOrder key s past (now :: clock) p) : InOrder key s past clock p :=
  { h with passed := fun t ht now hnow => h.passed t ht now (List.mem_cons_of_mem _ hnow) }

/-- Where nothing is claimed, the cycle goes on with what is ahead or gives it
    up. -/
theorem quiet (h : InOrder key s past clock p) (hclaimed : p'.claimed? = none)
    (hahead : p'.ahead = p.ahead ∨ p'.ahead = []) : InOrder key s past clock p' := by
  have hcopies : p'.copies.Sublist p.copies := by
    rw [Point.copies, Point.copies, hclaimed]
    rcases hahead with he | he <;> rw [he]
    · exact List.sublist_append_right ..
    · exact List.nil_sublist _
  have hline : (p'.line past).Sublist (p.line past) := by
    rw [Point.line, Point.line]
    rcases hahead with he | he <;> rw [he]
    exact (List.nil_sublist _).append_left past
  refine ⟨h.distinct.sublist (hcopies.map _), fun j hj => ?_, h.sorted.sublist hline,
    fun t ht => h.passed t (hline.subset ht), fun j hj => ?_, fun j t b hp => ?_⟩
  · rcases hahead with he | he <;> rw [he] at hj
    · exact h.ahead j hj
    · cases hj
  · rcases hahead with he | he
    · rw [Point.line, he]
      exact h.behind j hj
    · refine .inr fun t ht => h.past_le hj ?_
      rwa [Point.line, he, List.map_nil, List.append_nil] at ht
  · rw [hp] at hclaimed
    cases hclaimed

/-- What a fetch brings is in order behind what was handed over. -/
theorem fetched {now : Instant} {limit : Nat} {full : Bool}
    (h : InOrder key s past (now :: clock) .fetching) (hclock : ∀ t ∈ clock, now ≤ t) :
    InOrder key s past clock (.picking ⟨(s.ready key now).take limit, full⟩) := by
  have hready {j : Job} (hj : j ∈ (s.ready key now).take limit) :
      s.IsWaiting key j ∧ j.dueAt ≤ now := by
    obtain ⟨hmem, hready⟩ := MemoryStore.mem_ready.1 (List.mem_of_mem_take hj)
    simp only [Key.isReady, Bool.and_eq_true, decide_eq_true_eq] at hready
    exact ⟨⟨hmem, hready.1⟩, hready.2⟩
  have hpast : past.Pairwise (· ≤ ·) := (List.pairwise_append.1 h.sorted).1
  refine ⟨?_, fun j hj => (hready hj).1, ?_, ?_, fun j hj => ?_, fun _ _ _ hp => by cases hp⟩
  · rw [show (Point.picking _).copies = (s.ready key now).take limit from rfl, List.map_take]
    exact MemoryStore.nodup_ids_ready.sublist (List.take_sublist ..)
  · refine List.pairwise_append.2 ⟨hpast, ?_, ?_⟩
    · rw [List.pairwise_map]
      refine (MemoryStore.ready_pairwise.sublist (List.take_sublist ..)).imp fun {a b} hab => ?_
      rw [Job.before_iff] at hab
      rw [Instant.le_def]
      omega
    · rintro t ht _ hu
      obtain ⟨j, hj, rfl⟩ := List.mem_map.1 hu
      exact h.past_le (hready hj).1 ht
  · intro t ht u hu
    refine Instant.le_trans ?_ (hclock u hu)
    rcases List.mem_append.1 ht with ht | ht
    · exact h.passed t (List.mem_append_left _ ht) now List.mem_cons_self
    · obtain ⟨j, hj, rfl⟩ := List.mem_map.1 ht
      exact (hready hj).2
  · by_cases hmem : j ∈ (s.ready key now).take limit
    · exact .inl hmem
    · right
      intro t ht
      rcases List.mem_append.1 ht with ht | ht
      · exact h.past_le hj ht
      · obtain ⟨i, hi, rfl⟩ := List.mem_map.1 ht
        exact MemoryStore.dueAt_le_of_passed hi hj hmem

/-- The instance in hand and the first of those ahead are not ahead as well. -/
theorem ne_of_mem {js : List Job} (h : InOrder key s past clock p) (hp : p.copies = j :: js)
    (hi : i ∈ js) : i.id ≠ j.id := by
  have hdistinct := h.distinct
  rw [hp, List.map_cons, List.nodup_cons] at hdistinct
  intro he
  exact hdistinct.1 (he ▸ List.mem_map_of_mem hi)

/-- The instance in hand is changed, and what is ahead is left. -/
theorem updateAt {f : Job → Job} {keepsId : ∀ j, (f j).id = j.id} {past' : List Instant} {b : Batch}
    (h : InOrder key s past clock p) (hp : p.copies = j :: b.jobs) (hrest : ∀ i ∈ b.jobs, i ∈ p.ahead)
    (hcopies : (p'.copies.map (·.id)).Sublist (p.copies.map (·.id))) (hahead : p'.ahead = b.jobs)
    (hline : p'.line past' = p.line past) (hp' : ∀ j t b, p' ≠ .committing j t b)
    (hj : ∀ i, (s.updateAt j.id f keepsId).IsWaiting key i → i.id = j.id →
      ∀ t ∈ p.line past, t ≤ i.dueAt) :
    InOrder key (s.updateAt j.id f keepsId) past' clock p' where
  distinct := h.distinct.sublist hcopies
  ahead i hi := by
    rw [hahead] at hi
    exact (MemoryStore.isWaiting_updateAt_of_ne (h.ne_of_mem hp hi)).2 (h.ahead i (hrest i hi))
  sorted := hline ▸ h.sorted
  passed := hline ▸ h.passed
  behind i hi := by
    rw [hahead, hline]
    by_cases hid : i.id = j.id
    · exact .inr (hj i hi hid)
    · rcases h.behind i ((MemoryStore.isWaiting_updateAt_of_ne hid).1 hi) with hmem | hbehind
      · have hcopy : i ∈ j :: b.jobs := hp ▸ (List.mem_append_right _ hmem : i ∈ p.copies)
        refine .inl ((List.mem_cons.1 hcopy).resolve_left ?_)
        rintro rfl
        exact hid rfl
      · exact .inr hbehind
  deferral j t b he := absurd he (hp' j t b)

end InOrder

/-- A step keeps the order. -/
theorem Edge.inOrder (he : Edge k key m stop s p s' p') (hkey : key.build = .ok key)
    (h : InOrder key s past (m.now :: clock) p) (hclaim : m.claimLost = false)
    (hclock : ∀ t ∈ clock, m.now ≤ t) (hlast : m.now ≤ .last)
    (hearly : ∀ j b, p = .processing j b → m.NeverEarly k) :
    InOrder key s' (past ++ (p.handed? p').toList.map (·.dueAt)) clock p' := by
  have hrunning : key.isReadyState .running = false := by
    by_contra hr
    cases Key.isClaimable_of_isReadyState hkey (Bool.not_eq_false _ ▸ hr)
  have hready {st : State} (hst : key.isReadyState st = true) : st.isClaimable = true :=
    Key.isClaimable_of_isReadyState hkey hst
  cases he with
  | quiet hp hp' hahead =>
    rw [Point.handed?_eq_none hp', Option.toList_none, List.map_nil, List.append_nil]
    exact h.tick.quiet hp' hahead
  | cut hp hp' =>
    obtain rfl := hp.same trivial
    have hclaimed := Point.claimed?_of_isFinal hp'
    rw [Point.handed?_eq_none hclaimed, Option.toList_none, List.map_nil, List.append_nil]
    exact h.tick.quiet hclaimed (.inr (Point.ahead_of_isFinal hp'))
  | fetched hfetch =>
    cases hfetch
    simpa [Point.handed?] using h.fetched hclock
  | @lost s' j b hlost =>
    exfalso
    have hj := h.ahead j List.mem_cons_self
    rcases hlost with ⟨hlost, -⟩ | hlost
    · rw [hclaim] at hlost
      cases hlost
    · obtain ⟨-, -, hnone⟩ | ⟨hw, -⟩ := MemoryStore.claim_ok hlost
      · exact hnone j hj.find? hj.2.1 rfl
      · cases hw
  | @won s' j b hwon =>
    obtain ⟨hw, -⟩ | ⟨-, -, i, hi, -, -, rfl⟩ := MemoryStore.claim_ok hwon
    · cases hw
    · refine h.tick.updateAt (b := b) rfl (fun _ => List.mem_cons_of_mem _) (List.Sublist.refl _) rfl ?_
        (fun _ _ _ => by simp) ?_
      · simp [Point.line, Point.ahead, Point.handed?]
      · intro x hx hid
        obtain ⟨y, -, rfl⟩ := hx.of_updateAt hid
        have := hx.2.2
        rw [show (MemoryStore.markClaimed m.now y).state = .running from rfl, hrunning] at this
        cases this
  | settled j b =>
    have h' := h.tick
    simp only [Point.handed?, Option.toList_none, List.map_nil, List.append_nil]
    refine ⟨h'.distinct, h'.ahead, h'.sorted, h'.passed, h'.behind, ?_⟩
    intro j' t' b' hp hst
    cases hp
    have hdeferred : (Outcome.transition k.retry m.now m.jitter j
        (m.processing.outcome k.processorTimeout)).state = .deferred := by
      rcases Outcome.transition_cases (m.processing.outcome k.processorTimeout) k.retry m.now
        m.jitter j with hs | hs | ⟨hs, -⟩
      · rw [hs] at hst
        cases hready hst
      · rw [hs] at hst
        cases hready hst
      · exact hs
    obtain ⟨due, hdue, hle⟩ := Outcome.deferral_le hlast (hearly j b rfl) rfl hdeferred
    exact ⟨due, hdue, fun u hu => Instant.le_trans (h.passed u hu _ List.mem_cons_self) hle⟩
  | @committed s' j t b _ hcommit =>
    obtain ⟨-, i, hi, -, rfl⟩ := MemoryStore.commit_ok hcommit
    simp only [Point.handed?, Option.toList_none, List.map_nil, List.append_nil]
    refine h.tick.updateAt (b := b) rfl (fun _ => id) (List.sublist_cons_self ..) rfl rfl
      (fun _ _ _ => by simp) ?_
    intro x hx hid u hu
    obtain ⟨y, -, rfl⟩ := hx.of_updateAt hid
    obtain ⟨due, hdue, hle⟩ := h.deferral j t b rfl hx.2.2
    rw [show (t.apply y).dueAt = t.dueAt.getD y.dueAt from rfl, hdue]
    exact hle u hu
  | refused hrefused =>
    obtain rfl := hrefused.same trivial
    have h' := h.tick
    simp only [Point.handed?, Option.toList_none, List.map_nil, List.append_nil]
    exact ⟨h'.distinct.sublist (List.sublist_cons_self ..), h'.ahead, h'.sorted, h'.passed, h'.behind,
      fun _ _ _ hp => by cases hp⟩

end

/-! ## Runs -/

/-- There is one cycle, and nobody else changes the store. -/
def Act.IsUndisturbed : Act → Prop
  | .step _ m => m.claimLost = false
  | .begin | .insert _ _ => False
  | _ => True

namespace Drain

/-- If a call ends in this act, its answer is never early. -/
def IsNeverEarly {σ : Type} (k : ActorConfig) (d : Drain σ) : Act → Prop
  | .step _ m => ∀ j b, d.cycle.point = .processing j b → m.NeverEarly k
  | _ => True

variable {k : ActorConfig} {key : Key} {d : Drain MemoryStore} {past clock : List Instant}
  {a : Act} {acts : List Act}

/-- An act keeps the order, and hands over what is stored and due. -/
theorem inOrder_act (hkey : key.build = .ok key) (hofkey : d.actor.key = key)
    (h : InOrder key d.shared.store past (readings (a :: acts)) d.cycle.point)
    (hundisturbed : a.IsUndisturbed) (hclock : (readings (a :: acts)).Pairwise (· ≤ ·))
    (hlast : ∀ t ∈ readings (a :: acts), t ≤ .last) (hearly : d.IsNeverEarly k a) :
    InOrder key (d.act k a).shared.store
      (past ++ (d.handover? k a).toList.map (·.copy.dueAt)) (readings acts)
      (d.act k a).cycle.point ∧
    ∀ h ∈ d.handover? k a, h.written = some h.copy.written ∧ h.copy.dueAt ≤ h.now := by
  cases a with
  | step n m =>
    have hreadings : readings (.step n m :: acts) = m.now :: readings acts := rfl
    rw [hreadings] at h hclock hlast
    have hedge := d.edge k n m
    rw [hofkey] at hedge
    have hnext := hedge.inOrder hkey h hundisturbed (List.pairwise_cons.1 hclock).1
      (hlast m.now List.mem_cons_self) hearly
    rw [handover?]
    cases hj : d.cycle.point.handed? (d.act k (.step n m)).cycle.point with
    | none =>
      rw [hj] at hnext
      exact ⟨hnext, by simp⟩
    | some j' =>
      rw [hj] at hnext
      refine ⟨hnext, ?_⟩
      rintro x hx
      cases hx
      obtain ⟨j, b, hp, rfl⟩ := hedge.handed hj
      have hahead : j ∈ d.cycle.point.ahead := by
        rw [hp]
        exact List.mem_cons_self
      exact ⟨congrArg (Option.map Job.written) (h.ahead j hahead).find?,
        h.passed j.dueAt (List.mem_append_right _ (List.mem_map_of_mem hahead)) m.now
          List.mem_cons_self⟩
  | begin | insert => cases hundisturbed
  | around | markStopped | requestStop =>
    refine ⟨?_, by simp [handover?]⟩
    show InOrder key d.shared.store (past ++ []) (readings acts) d.cycle.point
    rw [List.append_nil]
    exact h

/-- A run keeps the order from where it starts. -/
theorem inOrder_run (hkey : key.build = .ok key) (hofkey : d.actor.key = key)
    (h : InOrder key d.shared.store past (readings acts) d.cycle.point)
    (hundisturbed : ∀ a ∈ acts, a.IsUndisturbed) (hclock : (readings acts).Pairwise (· ≤ ·))
    (hlast : ∀ t ∈ readings acts, t ≤ .last) (hearly : Along k (IsNeverEarly k) d acts) :
    (past ++ (d.handovers k acts).map (·.copy.dueAt)).Pairwise (· ≤ ·) ∧
    ∀ h ∈ d.handovers k acts, h.written = some h.copy.written ∧ h.copy.dueAt ≤ h.now := by
  induction acts generalizing d past with
  | nil =>
    rw [handovers, List.map_nil, List.append_nil]
    exact ⟨(List.pairwise_append.1 h.sorted).1, by simp⟩
  | cons a acts ih =>
    obtain ⟨ha, hacts⟩ := List.forall_mem_cons.1 hundisturbed
    have hsub : (readings acts).Sublist (readings (a :: acts)) :=
      (List.sublist_cons_self a acts).filterMap _
    obtain ⟨h', hstored⟩ := inOrder_act hkey hofkey h ha hclock hlast hearly.1
    obtain ⟨hsorted, hall⟩ := ih ((key_act a).trans hofkey) h' hacts (hclock.sublist hsub)
      (fun t ht => hlast t (hsub.subset ht)) hearly.2
    rw [handovers, List.map_append, ← List.append_assoc]
    refine ⟨hsorted, fun x hx => ?_⟩
    rcases List.mem_append.1 hx with hx | hx
    · exact hstored x (Option.mem_toList.1 hx)
    · exact hall x hx

/-- Within a cycle in memory, instances are handed over in the order of their
    stored due times and none before its due time, as long as nobody else
    changes the store, the clock does not go back and stays in the calendar, and
    the processor never defers to a time before the clock.  This holds as well
    for instances that are deferred and handed over again in the same cycle. -/
theorem handed_over_in_due_order (k : ActorConfig) (d : Drain MemoryStore) (acts : List Act)
    (hkey : d.actor.key.build = .ok d.actor.key) (hstart : d.cycle.point = .start)
    (hhanded : d.handed = []) (hundisturbed : ∀ a ∈ acts, a.IsUndisturbed)
    (hclock : (readings acts).Pairwise (· ≤ ·)) (hlast : ∀ t ∈ readings acts, t ≤ .last)
    (hearly : Along k (IsNeverEarly k) d acts) :
    (d.handovers k acts).map (·.copy) = (d.run k acts).handed ∧
    (∀ h ∈ d.handovers k acts, h.written = some h.copy.written ∧ h.copy.dueAt ≤ h.now) ∧
    ((d.handovers k acts).map (·.copy.dueAt)).Pairwise (· ≤ ·) := by
  have h : InOrder d.actor.key d.shared.store [] (readings acts) d.cycle.point := by
    rw [hstart]
    exact .start
  obtain ⟨hsorted, hstored⟩ := inOrder_run hkey rfl h hundisturbed hclock hlast hearly
  refine ⟨?_, hstored, hsorted⟩
  rw [handed_run, hhanded]
  rfl

/-- Steps of a cycle at a time, with batches of one, in the course of which calls
    end in one way. -/
def stepsAt (millis : Int) (n : Nat) (processing : Processing := .answered (.done none)) :
    List Act :=
  List.replicate n (.step 1 { now := .ofMillis millis, processing := processing })

/-- The first of two instances is deferred past the second and handed over again
    in the same cycle. -/
theorem handed_over_again_in_due_order :
    let job (millis : Int) : NewJob := { jobRef := "job", dueAt := .ofMillis millis }
    let store := (MemoryStore.empty.append (job 1000) .epoch).append (job 5000) .epoch
    let d : Drain MemoryStore :=
      { shared := ⟨store, .ofConfig {}, {}⟩, actor := { key := { name := "jobs" } }, handed := [] }
    let acts := stepsAt 2000 6 ++
      stepsAt 3000 1 (.answered (.retry "later" (some (.ofMillis 12000)))) ++ stepsAt 3000 3 ++
      stepsAt 10000 8 ++ stepsAt 15000 12
    (d.run {} acts).cycle.point.isFinal = true ∧
    (d.handovers {} acts).map (fun h => (h.copy.id, h.copy.dueAt.toMillis, h.now.toMillis)) =
      [(1, 1000, 2000), (2, 5000, 10000), (1, 12000, 15000)] ∧
    ((d.handovers {} acts).map (·.copy.dueAt)).Pairwise (· ≤ ·) := by
  intro job store d acts
  have hacts (a : Act) (ha : a ∈ acts) : ∃ m : Moment, a = .step 1 m ∧ m.claimLost = false ∧
      m.NeverEarly {} := by
    simp only [acts, stepsAt, List.mem_append, List.mem_replicate] at ha
    rcases ha with (((⟨-, rfl⟩ | ⟨-, rfl⟩) | ⟨-, rfl⟩) | ⟨-, rfl⟩) | ⟨-, rfl⟩ <;>
      exact ⟨_, rfl, rfl, by rintro _ _ ⟨⟩ <;> decide⟩
  refine ⟨by decide +kernel, by decide +kernel,
    (handed_over_in_due_order {} d acts (by decide +kernel) rfl rfl ?_ (by decide +kernel)
      (by decide +kernel) ?_).2.2⟩
  · intro a ha
    obtain ⟨m, rfl, hclaim, -⟩ := hacts a ha
    exact hclaim
  · refine along_of_forall fun a ha d => ?_
    obtain ⟨m, rfl, -, hearly⟩ := hacts a ha
    exact fun _ _ _ => hearly

end Drain

end DueWork
