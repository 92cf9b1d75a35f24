/-
  Attempts at an instance in the cycles of one actor.

  A run is a list of `Act`s: steps of the cycle with whatever the moment
  brings, new cycles, inserts, and what the rest of the system does to the pool
  and to the actor.  `Tracks` is what always holds of a cycle and the standing
  of one instance: a fetched copy is as good as the stored instance until the
  cycle comes to it.  So all that an act does to the instance is an `Advance`:
  it is inserted, handed to the processor, or settled by an outcome.
-/
import DueWork.Proofs.Actor.Edge
import DueWork.Proofs.Store.Standing

namespace DueWork

open Time Signal

/-- What may happen next to an actor and its cycle. -/
inductive Act where
  /-- a step of the cycle, with some batch size -/
  | step (batchSize : Nat) (m : Moment)
  /-- a new cycle, when the last one is over -/
  | begin
  | insert (job : NewJob) (now : Instant)
  /-- the rest of the system takes and returns permits, and takes events -/
  | around (pool : WorkerPool) (events : Broadcast Event)
  | markStopped
  | requestStop

/-- What an act does to an instance, and how often it hands it to the
    processor; the processor ends its calls with outcomes in `A`. -/
inductive Advance (A : Outcome → Prop) (policy : RetryPolicy) :
    Option Standing → Option Standing → Nat → Prop
  | stays (o : Option Standing) : Advance A policy o o 0
  | born {r : Standing} (hstate : r.state = .new) (hfailures : r.failures = 0) :
    Advance A policy none (some r) 0
  | handed {r : Standing} (h : r.state.isClaimable = true) :
    Advance A policy (some r) (some { r with state := .running }) 1
  | settled {r r' : Standing} {o : Outcome} {now : Instant} {jitter : UInt64} {j : Job}
    (hrun : r.state = .running) (ho : A o) (hj : r.failures = j.failureCount)
    (hstate : r'.state = (o.transition policy now jitter j).state)
    (hfailures : r'.failures = (o.transition policy now jitter j).failureCount.getD r.failures) :
    Advance A policy (some r) (some r') 0

/-- What a cycle at a point knows of an instance in a store. -/
structure Tracks {σ : Type} [JobStore σ] [StandingStore σ] (A : Outcome → Prop) (k : ActorConfig)
    (key : Key) (id : Int) (s : σ) (p : Point) : Prop where
  serves : StandingStore.Serves key s
  /-- the instances in hand and ahead are distinct -/
  nodup : ((p.claimed?.toList ++ p.ahead).map (·.id)).Nodup
  /-- a copy that is ahead is as good as the stored instance -/
  copies : ∀ j ∈ p.ahead, j.id = id → ∃ r, StandingStore.standing? key s id = some r ∧
    r.state = j.state ∧ r.failures = j.failureCount
  /-- an instance in hand is running -/
  held : ∀ j, p.claimed? = some j → j.id = id → ∃ r, StandingStore.standing? key s id = some r ∧
    r.state = .running ∧ r.failures = j.failureCount
  /-- and is to be settled by an outcome -/
  decided : ∀ j t b, p = .committing j t b → j.id = id → ∃ o now jitter, A o ∧
    t = o.transition k.retry now jitter j

namespace Point

theorem handed?_eq_none {p p' : Point} (h : p'.claimed? = none) : p.handed? p' = none := by
  cases p <;> cases p' <;> first | rfl | cases h

theorem ahead_of_isFinal {p : Point} (h : p.isFinal = true) : p.ahead = [] := by
  cases p <;> first | rfl | cases h

theorem claimed?_of_isFinal {p : Point} (h : p.isFinal = true) : p.claimed? = none := by
  cases p <;> first | rfl | cases h

end Point

section

variable {σ : Type} [JobStore σ] [StandingStore σ] {A : Outcome → Prop} {k : ActorConfig} {key : Key}
  {i : Int} {s s' : σ} {p p' : Point} {m : Moment} {stop : Bool}

open StandingStore

namespace Tracks

theorem start (h : Serves key s) : Tracks A k key i s .start where
  serves := h
  nodup := .nil
  copies _ hj := by cases hj
  held _ hj := by cases hj
  decided _ _ _ hp := by cases hp

/-- Where nothing is claimed, fewer instances ahead are tracked as well. -/
theorem quiet (ht : Tracks A k key i s p) (hclaimed : p'.claimed? = none)
    (hahead : p'.ahead.Sublist p.ahead) : Tracks A k key i s p' where
  serves := ht.serves
  nodup := by
    rw [hclaimed, Option.toList_none, List.nil_append]
    exact ht.nodup.sublist ((hahead.trans (List.sublist_append_right ..)).map _)
  copies j hj := ht.copies j (hahead.subset hj)
  held j hj := by
    rw [hclaimed] at hj
    cases hj
  decided j t b hp := by
    rw [hp] at hclaimed
    cases hclaimed

/-- Another store tracks as well if the instance stands there as it did. -/
theorem store (ht : Tracks A k key i s p) (hserves : Serves key s')
    (hi : standing? key s' i = standing? key s i) : Tracks A k key i s' p where
  serves := hserves
  nodup := ht.nodup
  copies := by
    rw [hi]
    exact ht.copies
  held := by
    rw [hi]
    exact ht.held
  decided := ht.decided

/-- The instance in hand is not ahead as well. -/
theorem ne_of_mem_ahead (ht : Tracks A k key i s p) {j j' : Job} (hj : p.claimed? = some j)
    (hj' : j' ∈ p.ahead) : j'.id ≠ j.id := by
  have h := ht.nodup
  rw [hj, Option.toList_some, List.singleton_append, List.map_cons, List.nodup_cons] at h
  intro he
  exact h.1 (he ▸ List.mem_map_of_mem hj')

/-- After a commit the cycle goes on with the batch. -/
theorem goOn {j : Job} {t : Transition} {b : Batch} (ht : Tracks A k key i s (.committing j t b))
    (hserves : Serves key s') (hi : i ≠ j.id → standing? key s' i = standing? key s i) :
    Tracks A k key i s' (.picking b) where
  serves := hserves
  nodup := ht.nodup.sublist ((List.sublist_cons_self ..).map _)
  copies := by
    rintro j' hj' rfl
    rw [hi (ht.ne_of_mem_ahead rfl hj')]
    exact ht.copies j' hj' rfl
  held _ hj := by cases hj
  decided _ _ _ hp := by cases hp

end Tracks

/-- A commit that does not take place leaves the store as it was. -/
theorem Refused.same {j : Job} {t : Transition} (h : Refused key m s j t s') (hs : Serves key s) :
    s' = s := by
  unfold Refused at h
  split at h
  · exact h
  · obtain ⟨e, he⟩ := h
    exact commit_error hs he

/-- A call that fails leaves the store as it was. -/
theorem Point.Fails.same (h : p.Fails key m s s') (hs : Serves key s) : s' = s := by
  unfold Point.Fails at h
  split at h
  · rcases h with h | ⟨e, he⟩
    · exact h
    · exact claim_error hs he
  · cases h
  · exact Refused.same h hs
  · exact h

/-- What a step does to an instance, and that the cycle keeps track of it. -/
theorem Edge.tracks (he : Edge k key m stop s p s' p') (ht : Tracks A k key i s p)
    (hA : ∀ j b, p = .processing j b → j.id = i → A (m.processing.outcome k.processorTimeout)) :
    Tracks A k key i s' p' ∧ Advance A k.retry (standing? key s i) (standing? key s' i)
      ((p.handed? p').toList.countP (·.id == i)) := by
  cases he with
  | quiet hp hp' hahead =>
    rw [Point.handed?_eq_none hp']
    have hsub : p'.ahead.Sublist p.ahead := by
      rcases hahead with hsame | hnone
      · rw [hsame]
      · rw [hnone]
        exact List.nil_sublist _
    exact ⟨ht.quiet hp' hsub, .stays _⟩
  | cut hp hp' =>
    obtain rfl := hp.same ht.serves
    rw [Point.handed?_eq_none (Point.claimed?_of_isFinal hp')]
    refine ⟨ht.quiet (Point.claimed?_of_isFinal hp') ?_, .stays _⟩
    rw [Point.ahead_of_isFinal hp']
    exact List.nil_sublist _
  | fetched h =>
    obtain ⟨hnodup, hcopies⟩ := StandingStore.fetched ht.serves h
    refine ⟨⟨ht.serves, hnodup, ?_, (by intro j hj; cases hj), (by intro j t b hp; cases hp)⟩,
      .stays _⟩
    rintro j hj rfl
    exact hcopies j hj
  | @lost s' j b h =>
    have hsame : Serves key s' ∧ standing? key s' i = standing? key s i := by
      rcases h with ⟨-, rfl⟩ | h
      · exact ⟨ht.serves, rfl⟩
      · obtain ⟨hserves, hsame, -⟩ := claim_lost ht.serves h
        exact ⟨hserves, hsame i⟩
    refine ⟨(ht.quiet rfl (List.sublist_cons_self ..)).store hsame.1 hsame.2, ?_⟩
    rw [hsame.2]
    exact .stays _
  | @won s' j b h =>
    obtain ⟨hserves, hothers, r, hr, hstate, hclaimable, hr'⟩ := claim_won ht.serves h
    have hnodup : (j.id :: b.jobs.map (·.id)).Nodup := ht.nodup
    have hne (j' : Job) (hj' : j' ∈ b.jobs) : j'.id ≠ j.id := fun he =>
      (List.nodup_cons.1 hnodup).1 (he ▸ List.mem_map_of_mem hj')
    refine ⟨⟨hserves, ht.nodup, ?_, ?_, (by intro j t b hp; cases hp)⟩, ?_⟩
    · rintro j' hj' rfl
      rw [hothers j'.id (hne j' hj')]
      exact ht.copies j' (List.mem_cons_of_mem _ hj') rfl
    · rintro j' hj' rfl
      cases hj'
      obtain ⟨r₀, hr₀, -, hfailures⟩ := ht.copies j List.mem_cons_self rfl
      cases hr.symm.trans hr₀
      exact ⟨_, hr', rfl, hfailures⟩
    · by_cases hid : j.id = i
      · subst hid
        rw [hr, hr']
        simpa [Point.handed?] using Advance.handed (hstate ▸ hclaimable)
      · rw [hothers i fun he => hid he.symm]
        simpa [Point.handed?, hid] using Advance.stays _
  | settled j b =>
    refine ⟨⟨ht.serves, ht.nodup, ht.copies, ht.held, ?_⟩, .stays _⟩
    intro j' t' b' hp hid
    cases hp
    exact ⟨_, _, _, hA j b rfl hid, rfl⟩
  | @committed s' j t b _ h =>
    obtain ⟨hserves, hothers, hself⟩ := commit_ok ht.serves h
    refine ⟨ht.goOn hserves fun hi => hothers i hi, ?_⟩
    by_cases hid : j.id = i
    · subst hid
      obtain ⟨r, hr, hrun, hfailures⟩ := ht.held j rfl rfl
      obtain ⟨r', hr', hstate', hfailures'⟩ := hself r hr
      obtain ⟨o, now, jitter, ho, rfl⟩ := ht.decided j t b rfl rfl
      rw [hr, hr']
      exact .settled hrun ho hfailures hstate' hfailures'
    · rw [hothers i fun he => hid he.symm]
      exact .stays _
  | refused h =>
    obtain rfl := h.same ht.serves
    exact ⟨ht.goOn ht.serves fun _ => rfl, .stays _⟩

end

namespace Drain

section

variable {σ : Type} [JobStore σ]

/-- How often an instance was handed to the processor. -/
def timesHanded {σ : Type} (i : Int) (d : Drain σ) : Nat := d.handed.countP (·.id == i)

/-- What an act does. -/
def act (k : ActorConfig) (d : Drain σ) : Act → Drain σ
  | .step n m => d.step { k with batchSize := n } m
  | .begin => if d.cycle.point.isFinal then { d with cycle := {} } else d
  | .insert job now =>
    let (_, store) := JobStore.insert d.shared.store job now
    { d with shared := { d.shared with store := store } }
  | .around pool events => { d with shared := { d.shared with pool := pool, events := events } }
  | .markStopped => { d with actor := d.actor.markStopped }
  | .requestStop => { d with actor := d.actor.requestStop }

/-- What some acts do, one after the other. -/
def run (k : ActorConfig) (d : Drain σ) (acts : List Act) : Drain σ := acts.foldl (act k) d

theorem run_append {k : ActorConfig} {d : Drain σ} {acts acts' : List Act} :
    d.run k (acts ++ acts') = (d.run k acts).run k acts' := List.foldl_append

theorem begin_start {k : ActorConfig} {d : Drain σ}
    (h : d.cycle.point = .start ∨ d.cycle.point.isFinal = true) :
    (d.act k .begin).cycle.point = .start := by
  simp only [act]
  split
  case isTrue => rfl
  case isFalse hfinal => exact h.resolve_right hfinal

/-- The processor ends its calls for the instance with outcomes in `A`. -/
def Answers (A : Outcome → Prop) (k : ActorConfig) (i : Int) (d : Drain σ) : Act → Prop
  | .step _ m => ∀ j b, d.cycle.point = .processing j b → j.id = i →
    A (m.processing.outcome k.processorTimeout)
  | _ => True

/-- A property of every act of a run and the state that it meets. -/
def Along (k : ActorConfig) (P : Drain σ → Act → Prop) (d : Drain σ) : List Act → Prop
  | [] => True
  | a :: acts => P d a ∧ Along k P (d.act k a) acts

theorem along_append {k : ActorConfig} {P : Drain σ → Act → Prop} {d : Drain σ}
    {acts acts' : List Act} : Along k P d (acts ++ acts') ↔
      Along k P d acts ∧ Along k P (d.run k acts) acts' := by
  induction acts generalizing d with
  | nil => simp [Along, run]
  | cons a acts ih =>
    rw [List.cons_append, Along, Along, ih, and_assoc]
    rfl

theorem along_of_forall {k : ActorConfig} {P : Drain σ → Act → Prop} {d : Drain σ} {acts : List Act}
    (h : ∀ a ∈ acts, ∀ d, P d a) : Along k P d acts := by
  induction acts generalizing d with
  | nil => trivial
  | cons a acts ih =>
    exact ⟨h a List.mem_cons_self d, ih fun b hb => h b (List.mem_cons_of_mem _ hb)⟩

/-- What was handed over is in hand then. -/
theorem claimed_of_timesHanded {k : ActorConfig} {i : Int} {d : Drain σ} {a : Act}
    (h : (d.act k a).timesHanded i = d.timesHanded i + 1) :
    ∃ j, (d.act k a).cycle.point.claimed? = some j ∧ j.id = i := by
  cases a with
  | step n m =>
    have hcount : (d.act k (.step n m)).timesHanded i = d.timesHanded i +
        (d.cycle.point.handed? (d.act k (.step n m)).cycle.point).toList.countP (·.id == i) :=
      List.countP_append
    rw [h] at hcount
    generalize (d.act k (.step n m)).cycle.point = p' at hcount ⊢
    unfold Point.handed? at hcount
    split at hcount
    case h_1 =>
      refine ⟨_, rfl, ?_⟩
      by_contra hid
      simp [hid] at hcount
    case h_2 => simp at hcount
  | begin =>
    simp only [act] at h
    split at h <;> simp [timesHanded] at h
  | _ => simp [act, timesHanded] at h

/-- A step goes along an edge. -/
theorem edge (k : ActorConfig) (d : Drain σ) (n : Nat) (m : Moment) :
    Edge k d.actor.key m d.actor.stopRequested d.shared.store d.cycle.point
      (d.act k (.step n m)).shared.store (d.act k (.step n m)).cycle.point :=
  (Cycle.step_turned k n m d.shared d.actor d.cycle).edge

variable [StandingStore σ]

/-- Where an instance stands in the store of a cycle. -/
def standing? (key : Key) (i : Int) (d : Drain σ) : Option Standing :=
  StandingStore.standing? key d.shared.store i

/-- The cycle is one of the partition and keeps track of the instance. -/
structure Tracked (A : Outcome → Prop) (k : ActorConfig) (key : Key) (i : Int) (d : Drain σ) :
    Prop where
  ofKey : d.actor.key = key
  tracks : Tracks A k key i d.shared.store d.cycle.point

variable {A : Outcome → Prop} {k : ActorConfig} {key : Key} {i : Int} {d : Drain σ}

theorem Tracked.edge (h : d.Tracked A k key i) (n : Nat) (m : Moment) :
    Edge k key m d.actor.stopRequested d.shared.store d.cycle.point
      (d.act k (.step n m)).shared.store (d.act k (.step n m)).cycle.point := by
  have hedge := d.edge k n m
  rw [h.ofKey] at hedge
  exact hedge

/-- An insert leaves every instance alone that is there. -/
theorem insert_tracked (h : d.Tracked A k key i) (job : NewJob) (now : Instant) :
    (d.act k (.insert job now)).Tracked A k key i ∧
      Advance A k.retry (d.standing? key i) ((d.act k (.insert job now)).standing? key i) 0 := by
  simp only [act]
  rcases hinsert : JobStore.insert d.shared.store job now with ⟨e | id, s⟩
  · obtain rfl := StandingStore.insert_error hinsert
    exact ⟨h, .stays _⟩
  · obtain ⟨hserves, hfresh, hothers, hborn⟩ := StandingStore.insert_ok h.tracks.serves hinsert
    by_cases hi : i = id
    · subst hi
      have hnone : d.standing? key i = none := hfresh
      refine ⟨⟨h.ofKey, hserves, h.tracks.nodup, ?_, ?_, h.tracks.decided⟩, ?_⟩
      · intro j hj hid
        obtain ⟨r, hr, -⟩ := h.tracks.copies j hj hid
        cases hfresh.symm.trans hr
      · intro j hj hid
        obtain ⟨r, hr, -⟩ := h.tracks.held j hj hid
        cases hfresh.symm.trans hr
      · rw [hnone]
        show Advance A k.retry none (StandingStore.standing? key s i) 0
        cases hr : StandingStore.standing? key s i with
        | none => exact .stays _
        | some r => exact .born (hborn r hr).1 (hborn r hr).2
    · refine ⟨⟨h.ofKey, h.tracks.store hserves (hothers i hi)⟩, ?_⟩
      show Advance A k.retry _ (StandingStore.standing? key s i) 0
      rw [hothers i hi]
      exact .stays _

theorem begin_tracked (h : d.Tracked A k key i) : (d.act k .begin).Tracked A k key i := by
  simp only [act]
  split
  · exact ⟨h.ofKey, h.tracks.quiet rfl (List.nil_sublist _)⟩
  · exact h

/-- Whatever happens, the cycle keeps track of the instance, and the instance
    advances or stays. -/
theorem act_tracked (h : d.Tracked A k key i) {a : Act} (ha : d.Answers A k i a) :
    (d.act k a).Tracked A k key i ∧
      ∃ n, (d.act k a).timesHanded i = d.timesHanded i + n ∧
        Advance A k.retry (d.standing? key i) ((d.act k a).standing? key i) n := by
  cases a with
  | step n m =>
    obtain ⟨htracks, hadvance⟩ := (h.edge n m).tracks h.tracks ha
    refine ⟨⟨?_, htracks⟩, _, ?_, hadvance⟩
    · exact (Cycle.step_stepped { k with batchSize := n } m d.shared d.actor d.cycle).actor.key.trans
        h.ofKey
    · exact List.countP_append
  | begin =>
    refine ⟨begin_tracked h, 0, ?_⟩
    simp only [act]
    split <;> exact ⟨rfl, .stays _⟩
  | insert job now =>
    obtain ⟨htracked, hadvance⟩ := insert_tracked h job now
    exact ⟨htracked, 0, rfl, hadvance⟩
  | around pool events => exact ⟨⟨h.ofKey, h.tracks⟩, 0, rfl, .stays _⟩
  | markStopped => exact ⟨⟨h.ofKey, h.tracks⟩, 0, rfl, .stays _⟩
  | requestStop => exact ⟨⟨h.ofKey, h.tracks⟩, 0, rfl, .stays _⟩

end

end Drain

end DueWork
