/-
  What a drain cycle in memory leaves behind when store calls fail.

  Any call of a cycle may fail without effect, while nobody else changes the
  store.  A failure ends the cycle, except for a commit that is refused because
  the instance was moved: the cycle leaves that instance to whoever moved it,
  and goes on.

  * `Visit` is a claimed instance with its commit and how that was answered,
    and `Log` lists the visits of a run;
  * `Kept` says what the visits so far made of the store, and each act keeps it;
  * `Leaves` is what a cycle has left behind when it is over.
-/
import DueWork.Proofs.Actor.Books
import DueWork.Proofs.Actor.DueOrder
import DueWork.Proofs.Actor.Fleet

namespace DueWork

open Time Signal

/-! ## Visits -/

/-- A claimed instance whose commit was called for. -/
structure Visit where
  copy : Job
  claimedAt : Instant
  transition : Transition
  /-- why the commit was not made -/
  failure : Option Failure
deriving DecidableEq, Repr

namespace Visit

/-- The commit was refused because the instance was moved. -/
def WasRefused (v : Visit) : Prop :=
  ∃ source target, v.failure = some (.error (.invalidTransition source target))

/-- The commit is that of an outcome of the instance. -/
def OfOutcome (k : ActorConfig) (v : Visit) : Prop :=
  ∃ (o : Outcome) (now : Instant) (jitter : UInt64),
    v.transition = o.transition k.retry now jitter v.copy

/-- What a visit makes of a store: the instance is changed by its transition, or
    left as it was claimed. -/
def serve (s : MemoryStore) (v : Visit) : MemoryStore :=
  match v.failure with
  | none => s.updateAt v.copy.id v.transition.apply fun _ => rfl
  | some _ => s.updateAt v.copy.id (MemoryStore.markClaimed v.claimedAt) fun _ => rfl

variable {s : MemoryStore} {v : Visit} {i : Int}

theorem find?_serve_of_ne (h : i ≠ v.copy.id) : (serve s v).find? i = s.find? i := by
  unfold serve
  split <;> exact MemoryStore.find?_updateAt.trans (if_neg h)

theorem find?_serve_self (h : v.failure = none) :
    (serve s v).find? v.copy.id = (s.find? v.copy.id).map v.transition.apply := by
  rw [serve, h]
  exact MemoryStore.find?_updateAt.trans (if_pos rfl)

end Visit

namespace MemoryStore

/-- A store after some visits. -/
def visited (s : MemoryStore) (vs : List Visit) : MemoryStore := vs.foldl Visit.serve s

variable {s : MemoryStore} {vs : List Visit} {i : Int} {j : Job} {k : ActorConfig}

theorem visited_concat (v : Visit) : s.visited (vs ++ [v]) = Visit.serve (s.visited vs) v :=
  List.foldl_concat ..

/-- An instance that was not visited is as it was. -/
theorem find?_visited (h : ∀ v ∈ vs, v.copy.id ≠ i) : (s.visited vs).find? i = s.find? i := by
  induction vs generalizing s with
  | nil => rfl
  | cons v vs ih =>
    obtain ⟨hv, hvs⟩ := List.forall_mem_cons.1 h
    exact (ih hvs).trans (Visit.find?_serve_of_ne (Ne.symm hv))

/-- An instance whose visits all end with its commit is not running. -/
theorem ne_running_of_visited (hvs : ∀ v ∈ vs, v.OfOutcome k) (hi : ∃ v ∈ vs, v.copy.id = i)
    (hmade : ∀ v ∈ vs, v.copy.id = i → v.failure = none) (hj : (s.visited vs).find? i = some j) :
    j.state ≠ .running := by
  induction vs generalizing s with
  | nil =>
    obtain ⟨v, hv, -⟩ := hi
    cases hv
  | cons v vs ih =>
    obtain ⟨⟨o, now, jitter, ht⟩, hrest⟩ := List.forall_mem_cons.1 hvs
    by_cases hlater : ∃ u ∈ vs, u.copy.id = i
    · exact ih hrest hlater (fun u hu => hmade u (List.mem_cons_of_mem _ hu)) hj
    · -- this is the last visit of the instance
      have hlast : ∀ u ∈ vs, u.copy.id ≠ i := fun u hu hid => hlater ⟨u, hu, hid⟩
      have hid : v.copy.id = i := by
        obtain ⟨u, hu, hid⟩ := hi
        rcases List.mem_cons.1 hu with rfl | hu
        · exact hid
        · exact absurd hid (hlast u hu)
      subst hid
      have hfind : (s.visited (v :: vs)).find? v.copy.id = (Visit.serve s v).find? v.copy.id :=
        find?_visited hlast
      rw [hfind, Visit.find?_serve_self (hmade v List.mem_cons_self rfl)] at hj
      obtain ⟨i, -, rfl⟩ := Option.map_eq_some_iff.1 hj
      show v.transition.state ≠ .running
      rw [ht]
      rcases o.transition_cases k.retry now jitter v.copy with hs | hs | ⟨hs, -⟩ <;> rw [hs] <;>
        decide

end MemoryStore

/-- The visits of a cycle, and the clock at its last claim. -/
structure Log where
  visits : List Visit := []
  since : Instant := .epoch
deriving DecidableEq, Repr

namespace Log

/-- The log after a step from a point. -/
def note (key : Key) (m : Moment) (s : MemoryStore) (l : Log) : Point → Log
  | .claiming _ _ => { l with since := m.now }
  | .committing j t _ =>
    let failure := match Cycle.answered m (JobStore.commit s key j.id t m.now).1 with
      | .ok _ => none
      | .error f => some f
    { l with visits := l.visits ++ [⟨j, l.since, t, failure⟩] }
  | _ => l

/-- A store with the instance in hand, which is claimed since the last claim. -/
def withClaimed (l : Log) (p : Point) (s : MemoryStore) : MemoryStore :=
  match p.claimed? with
  | some j => s.updateAt j.id (MemoryStore.markClaimed l.since) fun _ => rfl
  | none => s

end Log

/-! ## What is kept -/

/-- What a cycle made so far of the store and the instances that were handed
    over, by its log. -/
structure Kept (k : ActorConfig) (s₀ : MemoryStore) (h₀ : List Job) (l : Log) (s : MemoryStore)
    (h : List Job) (p : Point) : Prop where
  handed : h = h₀ ++ l.visits.map (·.copy) ++ p.claimed?.toList
  store : s = l.withClaimed p (s₀.visited l.visits)
  /-- the instance in hand is running -/
  held : ∀ j, p.claimed? = some j → ∃ i, s.find? j.id = some i ∧ i.state = .running
  /-- and is to be settled by an outcome -/
  decided : ∀ j t b, p = .committing j t b →
    ∃ (o : Outcome) (now : Instant) (jitter : UInt64), t = o.transition k.retry now jitter j
  outcomes : ∀ v ∈ l.visits, v.OfOutcome k
  /-- while the cycle goes on, a commit is made or refused -/
  answers : p.isFinal = false → ∀ v ∈ l.visits, v.failure = none ∨ v.WasRefused

section

variable {k : ActorConfig} {key : Key} {m : Moment} {stop : Bool} {s₀ s s' : MemoryStore}
  {h₀ h : List Job} {l : Log} {p p' : Point} {j : Job} {t : Transition} {b : Batch}

namespace Kept

theorem start : Kept k s h {} s h .start where
  handed := by simp [Point.claimed?]
  store := rfl
  held _ hj := by cases hj
  decided _ _ _ hp := by cases hp
  outcomes _ hv := by cases hv
  answers _ _ hv := by cases hv

/-- Where nothing is in hand, before and after. -/
theorem quiet (hk : Kept k s₀ h₀ l s h p) (hp : p.claimed? = none) (hp' : p'.claimed? = none)
    (hfinal : p'.isFinal = false → p.isFinal = false) {since : Instant} :
    Kept k s₀ h₀ { l with since := since } s h p' where
  handed := by rw [hk.handed, hp, hp']
  store := by
    rw [hk.store, Log.withClaimed, Log.withClaimed, hp, hp']
  held j hj := by
    rw [hp'] at hj
    cases hj
  decided j t b he := by
    rw [he] at hp'
    cases hp'
  outcomes := hk.outcomes
  answers hf := hk.answers (hfinal hf)

/-- A visit ends, and nothing is in hand. -/
theorem visited (hk : Kept k s₀ h₀ l s h (.committing j t b)) (hp' : p'.claimed? = none)
    {failure : Option Failure} (hs : s' = Visit.serve (s₀.visited l.visits) ⟨j, l.since, t, failure⟩)
    (hanswer : p'.isFinal = false → failure = none ∨
      ∃ source target, failure = some (.error (.invalidTransition source target))) :
    Kept k s₀ h₀ { l with visits := l.visits ++ [⟨j, l.since, t, failure⟩] } s' h p' where
  handed := by
    rw [hk.handed, hp']
    simp [Point.claimed?]
  store := by rw [hs, Log.withClaimed, hp', MemoryStore.visited_concat]
  held j hj := by
    rw [hp'] at hj
    cases hj
  decided j t b he := by
    rw [he] at hp'
    cases hp'
  outcomes v hv := by
    rcases List.mem_append.1 hv with hv | hv
    · exact hk.outcomes v hv
    · cases List.mem_singleton.1 hv
      exact hk.decided j t b rfl
  answers hf v hv := by
    rcases List.mem_append.1 hv with hv | hv
    · exact hk.answers rfl v hv
    · cases List.mem_singleton.1 hv
      exact hanswer hf

/-- An instance whose commit is not made is left as it was claimed. -/
theorem left (hk : Kept k s₀ h₀ l s h (.committing j t b)) (f : Failure) :
    s = Visit.serve (s₀.visited l.visits) ⟨j, l.since, t, some f⟩ := hk.store

end Kept

/-- A step keeps it, if a commit that does not end the cycle is made or
    refused. -/
theorem Edge.kept (he : Edge k key m stop s p s' p') (hk : Kept k s₀ h₀ l s h p)
    (hfinal : p'.isFinal = false → p.isFinal = false)
    (hanswer : ∀ j t b, p = .committing j t b → p'.isFinal = false →
      Cycle.answered m (JobStore.commit s key j.id t m.now).1 = .ok () ∨
      ∃ source target, Cycle.answered m (JobStore.commit s key j.id t m.now).1 =
        .error (.error (.invalidTransition source target))) :
    Kept k s₀ h₀ (l.note key m s p) s' (h ++ (p.handed? p').toList) p' := by
  have hnote (hp : p.claimed? = none) : ∃ since, l.note key m s p = { l with since := since } := by
    cases p <;> first | exact ⟨_, rfl⟩ | cases hp
  have hquiet (hp : p.claimed? = none) (hp' : p'.claimed? = none) :
      Kept k s₀ h₀ (l.note key m s p) s (h ++ (p.handed? p').toList) p' := by
    obtain ⟨since, hl⟩ := hnote hp
    rw [hl, Point.handed?_eq_none hp', Option.toList_none, List.append_nil]
    exact hk.quiet hp hp' hfinal
  have hleft {j : Job} {t : Transition} {b : Batch} (hp : p = .committing j t b)
      (hp' : p'.claimed? = none) (hrefused : Refused key m s j t s') :
      Kept k s₀ h₀ (l.note key m s p) s (h ++ (p.handed? p').toList) p' := by
    obtain ⟨f, hf⟩ := Cycle.answered_of_refused hrefused
    rw [Point.handed?_eq_none hp', Option.toList_none, List.append_nil]
    subst hp
    simp only [Log.note, hf]
    refine hk.visited hp' (hk.left f) fun hopen => ?_
    rcases hanswer j t b rfl hopen with hok | ⟨source, target, hmoved⟩
    · cases hf.symm.trans hok
    · cases hf.symm.trans hmoved
      exact .inr ⟨source, target, rfl⟩
  cases he with
  | quiet hp hp' => exact hquiet hp hp'
  | cut hp hp' =>
    have hnone := Point.claimed?_of_isFinal hp'
    rw [hp.same trivial]
    cases p with
    | processing j b => cases hp
    | committing j t b => exact hleft rfl hnone hp
    | _ => exact hquiet rfl hnone
  | fetched => exact hquiet rfl rfl
  | refused hrefused =>
    rw [hrefused.same trivial]
    exact hleft rfl rfl hrefused
  | @lost s' j b hlost =>
    have hsame : s' = s := by
      rcases hlost with ⟨-, hsame⟩ | hlost
      · exact hsame
      · obtain ⟨-, hsame, -⟩ | ⟨hw, -⟩ := MemoryStore.claim_ok hlost
        · exact hsame
        · cases hw
    rw [hsame]
    exact hquiet rfl rfl
  | @won s' j b hwon =>
    obtain ⟨hw, -⟩ | ⟨-, -, i, hi, -, -, rfl⟩ := MemoryStore.claim_ok hwon
    · cases hw
    · have hstore : s = s₀.visited l.visits := hk.store
      refine ⟨?_, ?_, ?_, (fun _ _ _ hp => by cases hp), hk.outcomes, fun _ => hk.answers rfl⟩
      · rw [hk.handed]
        simp [Point.claimed?, Point.handed?, Log.note]
      · rw [hstore]
        rfl
      · rintro j' hj'
        cases hj'
        exact ⟨_, MemoryStore.find?_updateAt_self hi, rfl⟩
  | settled j b =>
    simp only [Point.handed?, Option.toList_none, List.append_nil]
    refine ⟨hk.handed, hk.store, hk.held, ?_, hk.outcomes, fun _ => hk.answers rfl⟩
    rintro j' t' b' hp
    cases hp
    exact ⟨_, _, _, rfl⟩
  | @committed s' j t b hm hcommit =>
    obtain ⟨-, i, -, -, rfl⟩ := MemoryStore.commit_ok hcommit
    have hstore : s = (s₀.visited l.visits).updateAt j.id (MemoryStore.markClaimed l.since)
      fun _ => rfl := hk.store
    simp only [Log.note, Cycle.answered, hm, hcommit, Point.handed?, Option.toList_none,
      List.append_nil]
    refine hk.visited rfl ?_ fun _ => .inl rfl
    rw [hstore]
    exact MemoryStore.updateAt_markClaimed_apply

/-- The last step of a cycle leaves the store alone, and no processor is running. -/
theorem Edge.last (he : Edge k key m stop s p s' p') (hfinal : p'.isFinal = true) :
    s' = s ∧ ∀ j b, p ≠ .processing j b := by
  cases he with
  | quiet hp => exact ⟨rfl, fun j b he => by rw [he] at hp; cases hp⟩
  | cut hp => exact ⟨hp.same trivial, fun j b he => by rw [he] at hp; cases hp⟩
  | fetched | lost | won | settled | committed | refused => cases hfinal

end

namespace Cycle

variable {σ : Type} [JobStore σ] {k : ActorConfig} {m : Moment} {s : Shared σ} {a : Actor} {c : Cycle}

theorem step_of_isFinal (h : c.point.isFinal = true) : c.step k m s a = (s, a, c) := by
  unfold step
  cases hp : c.point <;> first | rfl | (rw [hp] at h; cases h)

/-- A commit after which the cycle goes on is made or refused. -/
theorem answered_commit {j : Job} {t : Transition} {b : Batch} (hp : c.point = .committing j t b)
    (h : (c.step k m s a).2.2.point.isFinal = false) :
    answered m (JobStore.commit s.store a.key j.id t m.now).1 = .ok () ∨
      ∃ source target, answered m (JobStore.commit s.store a.key j.id t m.now).1 =
        .error (.error (.invalidTransition source target)) := by
  simp only [step, hp, commit] at h
  split at h
  case h_1 hcalled => exact .inl (congrArg Prod.fst hcalled)
  case h_2 source target _ hcalled => exact .inr ⟨source, target, congrArg Prod.fst hcalled⟩
  case h_3 f _ _ _ => cases f <;> cases h

end Cycle

/-! ## Runs -/

/-- There is one cycle, and nobody else changes the store. -/
def Act.InOneCycle : Act → Prop
  | .begin | .insert _ _ => False
  | _ => True

namespace Drain

section

variable {σ : Type} [JobStore σ]

/-- The permits that an act of a cycle takes, or gives back if negative. -/
def permitsTaken (k : ActorConfig) (d : Drain σ) : Act → Int
  | .step n m => d.shared.pool.freePermits - (d.act k (.step n m)).shared.pool.freePermits
  | _ => 0

/-- The permits that a cycle takes in the course of some acts. -/
def permitsTakenBy (k : ActorConfig) (d : Drain σ) : List Act → Int
  | [] => 0
  | a :: acts => d.permitsTaken k a + permitsTakenBy k (d.act k a) acts

/-- What a cycle takes of the permits it holds. -/
theorem permitsTakenBy_eq (k : ActorConfig) (d : Drain σ) (acts : List Act) :
    d.permitsTakenBy k acts = (d.run k acts).cycle.point.permits - d.cycle.point.permits := by
  induction acts generalizing d with
  | nil => exact (Int.sub_self _).symm
  | cons a acts ih =>
    have hact : d.permitsTaken k a = (d.act k a).cycle.point.permits - d.cycle.point.permits := by
      cases a with
      | step n m =>
        have := (Cycle.booked_step { k with batchSize := n } m d.shared d.actor d.cycle).permits
        simp only [permitsTaken]
        show (d.shared.pool.freePermits : Int) -
          (d.cycle.step { k with batchSize := n } m d.shared d.actor).1.pool.freePermits =
          (d.cycle.step { k with batchSize := n } m d.shared d.actor).2.2.point.permits - _
        omega
      | begin =>
        simp only [permitsTaken, act]
        split
        case isTrue h =>
          rw [Point.permits_of_isFinal h]
          rfl
        case isFalse => exact (Int.sub_self _).symm
      | insert | around | markStopped | requestStop => exact (Int.sub_self _).symm
    rw [permitsTakenBy, hact, ih]
    show _ + ((((d.act k a).run k acts).cycle.point.permits) - _) =
      ((d.act k a).run k acts).cycle.point.permits - _
    omega

/-- What the metrics counted since `d₀` is what the cycle reports. -/
structure Reported (d₀ d : Drain σ) : Prop where
  tally : d.actor.metrics.tally = d₀.actor.metrics.tally + d.cycle.report.tally
  storeErrors : d.cycle.point.isFinal = false →
    d.actor.metrics.storeErrors = d₀.actor.metrics.storeErrors
  fresh : d.cycle.point = .start → d.cycle.report.tally = {}

variable {k : ActorConfig} {d₀ d : Drain σ} {a : Act} {acts : List Act}

theorem Reported.act (h : Reported d₀ d) (ha : a.InOneCycle) : Reported d₀ (d.act k a) := by
  cases a with
  | step n m =>
    by_cases hfinal : d.cycle.point.isFinal = true
    · have hsame := Cycle.step_of_isFinal (k := { k with batchSize := n }) (m := m) (s := d.shared)
        (a := d.actor) hfinal
      refine ⟨?_, ?_, ?_⟩ <;> simp only [Drain.act, step, hsame]
      · exact h.tally
      · exact h.storeErrors
      · exact h.fresh
    · rw [Bool.not_eq_true] at hfinal
      have hbooked := Cycle.booked_step { k with batchSize := n } m d.shared d.actor d.cycle
      have hending := hbooked.ending hfinal
      simp only [Drain.act, step]
      obtain ⟨hmetrics, hreport⟩ := And.intro hbooked.metrics hbooked.report
      generalize d.cycle.step { k with batchSize := n } m d.shared d.actor = next at *
      refine ⟨?_, ?_, ?_⟩
      · rw [hmetrics, hreport, h.tally, Tally.add_assoc]
      · intro hopen
        cases hending with
        | failed hp => rw [hp] at hopen; cases hopen
        | returned hp => rw [hp] at hopen; cases hopen
        | goesOn _ herrors => exact herrors.trans (h.storeErrors hfinal)
      · intro hstart
        cases hending with
        | failed hp => rw [hp] at hstart; cases hstart
        | returned hp => rw [hp] at hstart; cases hstart
        | goesOn hp => rw [hstart] at hp; cases hp
  | begin | insert => cases ha
  | around | markStopped | requestStop => exact ⟨h.tally, h.storeErrors, h.fresh⟩

theorem Reported.run (h : Reported d₀ d) (hacts : ∀ a ∈ acts, a.InOneCycle) :
    Reported d₀ (d.run k acts) := by
  induction acts generalizing d with
  | nil => exact h
  | cons a acts ih =>
    obtain ⟨ha, hacts⟩ := List.forall_mem_cons.1 hacts
    exact ih (h.act ha) hacts

end

/-- The log after an act. -/
def note (d : Drain MemoryStore) (l : Log) : Act → Log
  | .step _ m => l.note d.actor.key m d.shared.store d.cycle.point
  | _ => l

/-- The log of a run. -/
def log (k : ActorConfig) (d : Drain MemoryStore) (l : Log) : List Act → Log
  | [] => l
  | a :: acts => log k (d.act k a) (d.note l a) acts

variable {k : ActorConfig} {s₀ : MemoryStore} {h₀ : List Job} {l : Log} {d : Drain MemoryStore}
  {a : Act} {acts : List Act} {n : Nat} {m : Moment}

theorem kept_act (h : Kept k s₀ h₀ l d.shared.store d.handed d.cycle.point) (ha : a.InOneCycle) :
    Kept k s₀ h₀ (d.note l a) (d.act k a).shared.store (d.act k a).handed
      (d.act k a).cycle.point := by
  cases a with
  | step n m =>
    refine (d.edge k n m).kept h ?_ fun j t b hp hopen => Cycle.answered_commit hp hopen
    intro hopen
    rw [← Bool.not_eq_true]
    intro hfinal
    have hsame := Cycle.step_of_isFinal (k := { k with batchSize := n }) (m := m) (s := d.shared)
      (a := d.actor) hfinal
    simp only [act, step, hsame, hfinal] at hopen
    cases hopen
  | begin | insert => cases ha
  | around | markStopped | requestStop => exact h

theorem kept_run (h : Kept k s₀ h₀ l d.shared.store d.handed d.cycle.point)
    (hacts : ∀ a ∈ acts, a.InOneCycle) : Kept k s₀ h₀ (d.log k l acts) (d.run k acts).shared.store
      (d.run k acts).handed (d.run k acts).cycle.point := by
  induction acts generalizing d l with
  | nil => exact h
  | cons a acts ih =>
    obtain ⟨ha, hacts⟩ := List.forall_mem_cons.1 hacts
    exact ih (kept_act h ha) hacts

/-- The last step of a cycle changes no instance and hands none over. -/
theorem unchanged_of_isFinal (hfinal : (d.act k (.step n m)).cycle.point.isFinal = true) :
    (d.act k (.step n m)).shared.store = d.shared.store ∧
      (d.act k (.step n m)).handed = d.handed ∧ ∀ j b, d.cycle.point ≠ .processing j b := by
  obtain ⟨hstore, hprocessing⟩ := (d.edge k n m).last hfinal
  refine ⟨hstore, ?_, hprocessing⟩
  show d.handed ++ (d.cycle.point.handed? (d.act k (.step n m)).cycle.point).toList = _
  rw [Point.handed?_eq_none (Point.claimed?_of_isFinal hfinal)]
  exact List.append_nil _

end Drain

/-! ## What is left -/

/-- The error with which a cycle was cut short. -/
def Point.error? : Point → Option CycleError
  | .ended (.error e) => some e
  | _ => none

theorem Point.error?_eq_some {p : Point} {e : CycleError} (h : p.error? = some e) :
    p = .ended (.error e) := by
  unfold error? at h
  split at h <;> cases h
  rfl

theorem Point.report?_eq_some {p : Point} {r : Report} (h : p.report? = some r) :
    p = .ended (.ok r) := by
  unfold report? at h
  split at h <;> cases h
  rfl

/-- An instance in hand is processed or about to be committed. -/
theorem Point.of_claimed? {p : Point} {j : Job} (h : p.claimed? = some j) :
    (∃ b, p = .processing j b) ∨ ∃ t b, p = .committing j t b := by
  unfold claimed? at h
  split at h <;> cases h
  · exact .inl ⟨_, rfl⟩
  · exact .inr ⟨_, _, rfl⟩

/-- What a cycle that began in `d` has left behind in `d'`, when its last step
    was made at a point. -/
structure Leaves (k : ActorConfig) (d d' : Drain MemoryStore) (l : Log) (p : Point) : Prop where
  /-- each claimed instance was visited, or it is in hand -/
  handed : d'.handed = d.handed ++ l.visits.map (·.copy) ++ p.claimed?.toList
  /-- a visit ends with the commit of its outcome, or that commit was refused -/
  visits : ∀ v ∈ l.visits, v.OfOutcome k ∧ (v.failure = none ∨ v.WasRefused)
  /-- this is all that was done to the store -/
  store : d'.shared.store = l.withClaimed p (d.shared.store.visited l.visits)
  untouched : ∀ i, (∀ c ∈ l.visits.map (·.copy) ++ p.claimed?.toList, c.id ≠ i) →
    d'.shared.store.find? i = d.shared.store.find? i
  /-- the instance in hand is still running -/
  held : ∀ c, p.claimed? = some c → ∃ j, d'.shared.store.find? c.id = some j ∧ j.state = .running
  /-- and apart from it only those whose commit was refused may be -/
  running : ∀ c ∈ l.visits.map (·.copy) ++ p.claimed?.toList, ∀ j,
    d'.shared.store.find? c.id = some j → j.state = .running →
    (∃ c', p.claimed? = some c' ∧ c'.id = c.id) ∨ ∃ v ∈ l.visits, v.copy.id = c.id ∧ v.WasRefused

namespace Log

variable {l : Log} {p : Point} {s : MemoryStore} {i : Int}

theorem find?_withClaimed (h : ∀ c, p.claimed? = some c → c.id ≠ i) :
    (l.withClaimed p s).find? i = s.find? i := by
  unfold withClaimed
  split
  case h_1 j hj => exact MemoryStore.find?_updateAt.trans (if_neg (Ne.symm (h j hj)))
  case h_2 => rfl

end Log

theorem Kept.leaves {k : ActorConfig} {d d' : Drain MemoryStore} {l : Log} {p : Point}
    (h : Kept k d.shared.store d.handed l d'.shared.store d'.handed p)
    (hopen : p.isFinal = false) : Leaves k d d' l p where
  handed := h.handed
  visits v hv := ⟨h.outcomes v hv, h.answers hopen v hv⟩
  store := h.store
  untouched i hi := by
    rw [h.store, Log.find?_withClaimed fun c hc => hi c (by simp [hc])]
    exact MemoryStore.find?_visited fun v hv => hi v.copy (by simp [List.mem_map_of_mem hv])
  held := h.held
  running c hc j hj hrun := by
    by_cases hhand : ∃ c', p.claimed? = some c' ∧ c'.id = c.id
    · exact .inl hhand
    · right
      rw [h.store, Log.find?_withClaimed fun c' hc' hid => hhand ⟨c', hc', hid⟩] at hj
      obtain ⟨v, hv, hid⟩ : ∃ v ∈ l.visits, v.copy.id = c.id := by
        rcases List.mem_append.1 hc with hc | hc
        · obtain ⟨v, hv, rfl⟩ := List.mem_map.1 hc
          exact ⟨v, hv, rfl⟩
        · exact absurd ⟨c, Option.mem_toList.1 hc, rfl⟩ hhand
      by_contra hnone
      refine MemoryStore.ne_running_of_visited h.outcomes ⟨v, hv, hid⟩ (fun u hu hid => ?_) hj hrun
      exact (h.answers hopen u hu).resolve_right fun hrefused => hnone ⟨u, hu, hid, hrefused⟩

namespace Drain

section

variable {σ : Type} {d₀ d d' : Drain σ}

/-- A step that cuts a cycle short counts a store error, and an instance is in
    hand if the step was its commit. -/
theorem Reported.failed (h : Reported d₀ d) (hopen : d.cycle.point.isFinal = false)
    (hending : Cycle.Ending d.actor d.cycle (d'.shared, d'.actor, d'.cycle))
    (hprocessing : ∀ j b, d.cycle.point ≠ .processing j b) {e : CycleError}
    (he : d'.cycle.point.error? = some e) :
    (d.cycle.point.claimed?.isSome ↔ ∃ j t rest, d.cycle.point = .committing j t rest) ∧
      d'.actor.metrics.storeErrors = d₀.actor.metrics.storeErrors + 1 ∧
      d'.actor.state = if d.actor.state = .stopped then .stopped else .idle := by
  have he := Point.error?_eq_some he
  cases hending with
  | failed _ herrors hstate =>
    refine ⟨?_, herrors.trans (congrArg (· + 1) (h.storeErrors hopen)), hstate⟩
    constructor
    · intro hclaimed
      obtain ⟨c, hc⟩ := Option.isSome_iff_exists.1 hclaimed
      rcases Point.of_claimed? hc with ⟨rest, hp⟩ | ⟨t, rest, hp⟩
      · exact absurd hp (hprocessing c rest)
      · exact ⟨c, t, rest, hp⟩
    · rintro ⟨j, t, rest, hp⟩
      rw [hp]
      rfl
  | returned hp => cases hp.symm.trans he
  | goesOn hp =>
    rw [he] at hp
    cases hp

/-- A step with which a cycle returns leaves nothing in hand, and the metrics
    have counted what it reports. -/
theorem Reported.returned (h : Reported d₀ d) (hopen : d.cycle.point.isFinal = false)
    (hending : Cycle.Ending d.actor d.cycle (d'.shared, d'.actor, d'.cycle)) (h' : Reported d₀ d')
    {r : Report} (hr : d'.cycle.point.report? = some r) :
    d.cycle.point.claimed? = none ∧
      d'.actor.metrics.storeErrors = d₀.actor.metrics.storeErrors ∧
      d'.actor.metrics.tally = d₀.actor.metrics.tally + r.tally := by
  have hr := Point.report?_eq_some hr
  cases hending with
  | failed hp => cases hp.symm.trans hr
  | goesOn hp =>
    rw [hr] at hp
    cases hp
  | returned hp hclaimed hreport herrors =>
    cases hp.symm.trans hr
    refine ⟨hclaimed, herrors.trans (h.storeErrors hopen), h'.tally.trans ?_⟩
    rcases hreport with hreport | ⟨hpoint, hreport, hsame⟩
    · rw [hreport]
    · rw [hreport, hsame, h.fresh hpoint]

end

/-- While nobody else changes the store, whichever of its calls fail, a cycle in
    memory leaves its instances committed when it is over, but for those whose
    commit was refused as moved and the one whose commit ended it; it holds no
    permit.  If it ends with an error, one store error is counted, the actor is
    at rest, and an instance is in hand if the call that failed was its commit,
    and only then.  If it returns, none is in hand and the metrics have counted
    what it reports. -/
theorem store_failures_leave_a_known_state (k : ActorConfig) (d : Drain MemoryStore)
    (acts : List Act) (n : Nat) (m : Moment) (hstart : d.cycle = {})
    (hacts : ∀ a ∈ acts, a.InOneCycle) (hopen : (d.run k acts).cycle.point.isFinal = false) :
    let b := d.run k acts
    let d' := b.act k (.step n m)
    d'.cycle.point.isFinal = true →
      Leaves k d d' (d.log k {} acts) b.cycle.point ∧
      d.permitsTakenBy k (acts ++ [.step n m]) = 0 ∧
      (∀ e, d'.cycle.point.error? = some e →
        (b.cycle.point.claimed?.isSome ↔ ∃ j t rest, b.cycle.point = .committing j t rest) ∧
        d'.actor.metrics.storeErrors = d.actor.metrics.storeErrors + 1 ∧
        d'.actor.state = if b.actor.state = .stopped then .stopped else .idle) ∧
      ∀ r, d'.cycle.point.report? = some r → b.cycle.point.claimed? = none ∧
        d'.actor.metrics.storeErrors = d.actor.metrics.storeErrors ∧
        d'.actor.metrics.tally = d.actor.metrics.tally + r.tally := by
  intro b d' hfinal
  have hkept : Kept k d.shared.store d.handed (d.log k {} acts) b.shared.store b.handed
      b.cycle.point := by
    refine kept_run ?_ hacts
    rw [hstart]
    exact .start
  have hreported : Reported d b := by
    refine Reported.run ⟨?_, fun _ => rfl, fun _ => ?_⟩ hacts <;> rw [hstart] <;> rfl
  have hreported' : Reported d d' := hreported.act (a := .step n m) trivial
  have hending : Cycle.Ending b.actor b.cycle (d'.shared, d'.actor, d'.cycle) :=
    (Cycle.booked_step { k with batchSize := n } m b.shared b.actor b.cycle).ending hopen
  obtain ⟨hstore, hhanded, hprocessing⟩ := unchanged_of_isFinal hfinal
  refine ⟨?_, ?_, fun e he => hreported.failed hopen hending hprocessing he,
    fun r hr => hreported.returned hopen hending hreported' hr⟩
  · refine Kept.leaves ?_ hopen
    rw [show d'.shared.store = b.shared.store from hstore, show d'.handed = b.handed from hhanded]
    exact hkept
  · rw [permitsTakenBy_eq, run_append, hstart]
    show d'.cycle.point.permits - _ = 0
    rw [Point.permits_of_isFinal hfinal]
    rfl

/-- Two instances, due one after the other, and an actor for them. -/
def twoInTurn : Drain MemoryStore :=
  let job (millis : Int) : NewJob := { jobRef := "job", dueAt := .ofMillis millis }
  { shared := ⟨(MemoryStore.empty.append (job 1000) .epoch).append (job 5000) .epoch, .ofConfig {}, {}⟩
    actor := { key := { name := "jobs" } } }

theorem inOneCycle_stepsAt {millis : Int} {n : Nat} {processing : Processing} :
    ∀ a ∈ stepsAt millis n processing, a.InOneCycle := by
  intro a ha
  obtain ⟨-, rfl⟩ := List.mem_replicate.1 ha
  trivial

/-- The commit of the second instance fails: the first is done, the second is
    running, one store error is counted and the permit is given back. -/
theorem store_failures_leave_the_second_running :
    let acts := stepsAt 2000 8 ++ stepsAt 10000 7
    let m : Moment := { now := .ofMillis 10000, failure := some (.error (.database "gone")) }
    let b := twoInTurn.run {} acts
    let d' := b.act {} (.step 1 m)
    ((twoInTurn.log {} {} acts).visits.map fun v => (v.copy.id, v.failure)) = [(1, none)] ∧
    Leaves {} twoInTurn d' (twoInTurn.log {} {} acts) b.cycle.point ∧
    d'.shared.store.jobs.map (fun j => (j.id, j.state)) = [(1, .done), (2, .running)] ∧
    twoInTurn.permitsTakenBy {} (acts ++ [.step 1 m]) = 0 ∧
    d'.actor.metrics.storeErrors = twoInTurn.actor.metrics.storeErrors + 1 ∧
    d'.actor.state = .idle := by
  intro acts m b d'
  have hacts : ∀ a ∈ acts, a.InOneCycle := by
    intro a ha
    exact (List.mem_append.1 ha).elim (inOneCycle_stepsAt a) (inOneCycle_stepsAt a)
  obtain ⟨hleaves, hpermits, herror, -⟩ :=
    store_failures_leave_a_known_state {} twoInTurn acts 1 m rfl hacts (by decide +kernel)
      (by decide +kernel)
  obtain ⟨e, he⟩ : ∃ e, d'.cycle.point.error? = some e :=
    Option.isSome_iff_exists.1 (by decide +kernel)
  obtain ⟨-, herrors, -⟩ := herror e he
  exact ⟨by decide +kernel, hleaves, by decide +kernel, hpermits, herrors, by decide +kernel⟩

/-- A commit is refused as moved by a store that nobody changed: the cycle
    returns, and the instance is still running. -/
theorem store_failure_passed_over_as_moved :
    let refusal : Failure := .error (.invalidTransition "RUNNING" "DONE")
    let acts := stepsAt 2000 7 ++ [.step 1 { now := .ofMillis 2000, failure := some refusal }] ++
      stepsAt 10000 14
    let d := twoInTurn.run {} acts
    d.cycle.point.report?.map (fun r => (r.claimed, r.done, r.stopped)) = some (2, 1, false) ∧
    d.shared.store.jobs.map (fun j => (j.id, j.state)) = [(1, .running), (2, .done)] := by
  decide +kernel

end Drain

end DueWork
