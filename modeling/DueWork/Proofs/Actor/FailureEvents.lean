/-
  Failures that are announced, and failures that are committed.

  When the processor of an instance is done and the instance failed, its cycle
  announces the failure at once and commits it in its next step.  Between the
  two others may change the instance, and the commit itself may fail.

  * `Incident` is what may happen to a cycle and to its store, with whatever
    others do to the instances;
  * `FailureCommit` is a call that is to commit a failure, with what the store
    records of the instance before and after it;
  * a run announces the failures that it is to commit (`announced_meets`), and
    counts those whose commit was made (`failed_meets`).
-/
import DueWork.Proofs.Actor.Books
import DueWork.Proofs.Actor.DueOrder
import DueWork.Proofs.Actor.Fleet
import DueWork.Proofs.Store.Recorded

namespace DueWork

open Time Signal

/-- What may happen to a cycle and to its store. -/
inductive Incident (σ : Type) where
  /-- an act of its own -/
  | own (a : Act)
  /-- others change the store -/
  | outside (s : σ)

/-- A call that is to commit a failure. -/
structure FailureCommit where
  failure : JobFailure
  /-- the commit was made -/
  made : Bool
  /-- what the store records of the instance when the call begins -/
  before : Option Recorded
  /-- and when it is over -/
  after : Option Recorded
deriving DecidableEq, Repr

/-- The call moved the instance from running to failed, with its failure count,
    or it changed nothing. -/
def FailureCommit.Accounted (c : FailureCommit) : Prop :=
  if c.made then c.before.map (·.state) = some .running ∧
    c.after = some ⟨.failed, c.failure.failureCount⟩
  else c.after = c.before

namespace Point

/-- The failure that a cycle at this point is to commit. -/
def failing? : Point → Option JobFailure
  | .committing j t _ =>
    match t.state, t.failureCount, t.lastError with
    | .failed, some n, some e => some ⟨j.id, n, e⟩
    | _, _, _ => none
  | _ => none

theorem failing?_eq_none {p : Point} (h : p.claimed? = none) : p.failing? = none := by
  cases p <;> first | rfl | cases h

theorem failing?_eq_some {p : Point} {f : JobFailure} (h : p.failing? = some f) :
    ∃ j t b, p = .committing j t b ∧ j.id = f.id ∧ t.state = .failed ∧
      t.failureCount = some f.failureCount := by
  unfold failing? at h
  split at h
  case h_1 j t b =>
    split at h
    case h_1 n e hs hn he =>
      cases h
      exact ⟨j, t, b, rfl, rfl, hs, hn⟩
    case h_2 => cases h
  case h_2 => cases h

end Point

/-- A step is to commit the failure that comes to light in it. -/
theorem Outcome.failing?_transition (o : Outcome) (policy : RetryPolicy) (now : Instant)
    (jitter : UInt64) (j : Job) (b : Batch) :
    (Point.committing j (o.transition policy now jitter j) b).failing? =
      (o.failure? policy j).map fun e => ⟨j.id, j.nextFailureCount, e⟩ := by
  cases o with
  | done result => rfl
  | failed reason => rfl
  | retry reason notBefore =>
    simp only [Outcome.transition, Outcome.failure?]
    split <;> rfl

section

variable {σ : Type} [JobStore σ] {k : ActorConfig} {key : Key} {m : Moment} {stop : Bool} {s s' : σ}
  {p p' : Point}

theorem Edge.failing? (he : Edge k key m stop s p s' p') : p'.failing? = p.fails? k m := by
  cases he with
  | quiet hp hp' =>
    rw [Point.failing?_eq_none hp']
    cases p <;> first | rfl | cases hp
  | cut hp hp' =>
    rw [Point.failing?_eq_none (Point.claimed?_of_isFinal hp')]
    cases p <;> first | rfl | cases hp
  | settled => exact Outcome.failing?_transition ..
  | fetched | lost | won | committed | refused => rfl

/-- What is to be committed as failed is a failure. -/
theorem Edge.failing?_isSome {j : Job} {t : Transition} {b : Batch}
    (he : Edge k key m stop s p s' (.committing j t b)) (ht : t.state = .failed) :
    (Point.committing j t b).failing?.isSome := by
  obtain ⟨o, now, jitter, rfl⟩ := he.settles
  cases o with
  | done result => cases ht
  | failed reason => rfl
  | retry reason notBefore =>
    simp only [Outcome.transition] at ht ⊢
    split
    case isTrue => rfl
    case isFalse h =>
      rw [if_neg h] at ht
      cases ht

end

namespace Drain

section

variable {σ : Type} [JobStore σ]

/-- What an incident does. -/
def meet (k : ActorConfig) (d : Drain σ) : Incident σ → Drain σ
  | .own a => d.act k a
  | .outside s => { d with shared := { d.shared with store := s } }

/-- What some incidents do, one after the other. -/
def meets (k : ActorConfig) (d : Drain σ) (xs : List (Incident σ)) : Drain σ := xs.foldl (meet k) d

/-- The failure that an incident announces. -/
def announces? (k : ActorConfig) (d : Drain σ) : Incident σ → Option JobFailure
  | .own (.step _ m) => d.cycle.point.fails? k m
  | _ => none

/-- The failures that a run announces, in order. -/
def announced (k : ActorConfig) (d : Drain σ) : List (Incident σ) → List JobFailure
  | [] => []
  | x :: xs => (d.announces? k x).toList ++ announced k (d.meet k x) xs

theorem events_own (k : ActorConfig) (d : Drain σ) (n : Nat) (m : Moment) :
    (d.meet k (.own (.step n m))).shared.events =
      ((d.announces? k (.own (.step n m))).toList.map (·.event d.actor.key.name)).foldl
        Broadcast.publish d.shared.events :=
  (Cycle.booked_step { k with batchSize := n } m d.shared d.actor d.cycle).events

/-- While nobody else publishes, the events are those of the announced
    failures. -/
theorem events_meets (k : ActorConfig) (d : Drain σ) (xs : List (Incident σ))
    (hxs : ∀ pool events, .own (.around pool events) ∉ xs) :
    (d.meets k xs).shared.events = ((d.announced k xs).map (·.event d.actor.key.name)).foldl
      Broadcast.publish d.shared.events := by
  induction xs generalizing d with
  | nil => rfl
  | cons x xs ih =>
    have hevents : (d.meet k x).shared.events = ((d.announces? k x).toList.map
        (·.event d.actor.key.name)).foldl Broadcast.publish d.shared.events ∧
        (d.meet k x).actor.key = d.actor.key := by
      cases x with
      | outside s => exact ⟨rfl, rfl⟩
      | own a =>
        refine ⟨?_, key_act a⟩
        cases a with
        | step n m => exact events_own k d n m
        | around pool events => exact absurd List.mem_cons_self (hxs pool events)
        | begin =>
          simp only [meet, act]
          split <;> rfl
        | insert | markStopped | requestStop => rfl
    rw [announced, List.map_append, List.foldl_append, ← hevents.1, ← hevents.2]
    exact ih _ fun pool events h => hxs pool events (List.mem_cons_of_mem _ h)

theorem meet_own (k : ActorConfig) (d : Drain σ) (a : Act) : d.meet k (.own a) = d.act k a := rfl

section

variable [StandingStore σ]

open StandingStore

/-- A cycle of a partition that commits outcomes only. -/
structure Sound (key : Key) (d : Drain σ) : Prop where
  ofKey : d.actor.key = key
  serves : Serves key d.shared.store
  /-- what is to be committed as failed is a failure -/
  decided : ∀ j t b, d.cycle.point = .committing j t b → t.state = .failed →
    (Point.committing j t b).failing?.isSome

variable {k : ActorConfig} {key : Key} {d : Drain σ} {x : Incident σ}

theorem Sound.meet [WrittenStore σ] (h : d.Sound key) (hx : ∀ s, x = .outside s → Serves key s) :
    (d.meet k x).Sound key := by
  cases x with
  | outside s => exact ⟨h.ofKey, hx s rfl, h.decided⟩
  | own a =>
    refine ⟨(key_act a).trans h.ofKey, ?_, ?_⟩
    · have hs : Serves d.actor.key d.shared.store := h.ofKey.symm ▸ h.serves
      exact h.ofKey ▸ (written_act (k := k) (a := a) hs).1
    · cases a with
      | step n m =>
        intro j t b hp ht
        have hedge := d.edge k n m
        rw [← meet_own, hp] at hedge
        exact hedge.failing?_isSome ht
      | begin =>
        simp only [Drain.meet, act]
        split
        · exact fun _ _ _ hp => by cases hp
        · exact h.decided
      | insert | around | markStopped | requestStop => exact h.decided

end

variable [StandingStore σ] [RecordingStore σ]

open StandingStore RecordingStore

/-- The call of an incident that is to commit a failure. -/
def failureCommit? (k : ActorConfig) (d : Drain σ) : Incident σ → Option FailureCommit
  | .own (.step n m) => d.cycle.point.failing?.map fun f =>
    { failure := f
      made := (d.commits? (.step n m)).isSome
      before := recorded? d.shared.store f.id
      after := recorded? (d.act k (.step n m)).shared.store f.id }
  | _ => none

/-- The calls of a run that are to commit a failure, in order. -/
def failureCommits (k : ActorConfig) (d : Drain σ) : List (Incident σ) → List FailureCommit
  | [] => []
  | x :: xs => (d.failureCommit? k x).toList ++ failureCommits k (d.meet k x) xs

/-- A failure is announced in the step before the one that is to commit it. -/
theorem announces?_meet (k : ActorConfig) (d : Drain σ) (x : Incident σ) :
    d.cycle.point.failing?.toList ++ (d.announces? k x).toList =
      (d.failureCommit? k x).toList.map (·.failure) ++
        (d.meet k x).cycle.point.failing?.toList := by
  cases x with
  | outside s => exact List.append_nil _
  | own a =>
    cases a with
    | step n m =>
      have hnext := (d.edge k n m).failing?
      simp only [failureCommit?, meet_own, hnext, announces?]
      cases d.cycle.point.failing? <;> rfl
    | begin =>
      simp only [Drain.meet, act]
      split
      case isTrue hfinal =>
        rw [Point.failing?_eq_none (Point.claimed?_of_isFinal hfinal)]
        rfl
      case isFalse => exact List.append_nil _
    | insert | around | markStopped | requestStop => exact List.append_nil _

/-- A run announces the failures that it is to commit, and at most one more
    that it is about to commit. -/
theorem announced_meets (k : ActorConfig) (d : Drain σ) (xs : List (Incident σ)) :
    d.cycle.point.failing?.toList ++ d.announced k xs =
      (d.failureCommits k xs).map (·.failure) ++ (d.meets k xs).cycle.point.failing?.toList := by
  induction xs generalizing d with
  | nil => exact List.append_nil _
  | cons x xs ih =>
    rw [announced, failureCommits, ← List.append_assoc, announces?_meet, List.append_assoc, ih,
      List.map_append, List.append_assoc]
    rfl

variable {k : ActorConfig} {key : Key} {d : Drain σ} {n : Nat} {m : Moment} {x : Incident σ}
  {xs : List (Incident σ)} {c : FailureCommit}

/-- A call to commit a failure has the effect that it is answered with. -/
theorem accounted_failureCommit? (h : d.Sound key) (hc : d.failureCommit? k x = some c) :
    c.Accounted := by
  cases x with
  | outside s => cases hc
  | own a =>
    cases a with
    | step n m =>
      obtain ⟨f, hf, rfl⟩ := Option.map_eq_some_iff.1 hc
      obtain ⟨j, t, b, hp, hid, ht, hn⟩ := Point.failing?_eq_some hf
      have hedge := d.edge k n m
      rw [hp] at hedge
      simp only [FailureCommit.Accounted, commits?, hp]
      generalize (d.act k (.step n m)).shared.store = s', (d.act k (.step n m)).cycle.point = p'
        at hedge ⊢
      cases hedge with
      | quiet hp => cases hp
      | committed hm hcommit =>
        obtain ⟨n₀, hbefore, hafter⟩ := committed (h.ofKey.symm ▸ h.serves) hcommit
        rw [ht, hn] at hafter
        simp only [Cycle.answered, hm, hcommit, Option.isSome_some, if_true, ← hid]
        exact ⟨by rw [hbefore]; rfl, hafter⟩
      | cut hrefused | refused hrefused =>
        obtain ⟨e, he⟩ := Cycle.answered_of_refused hrefused
        have hs : Serves d.actor.key d.shared.store := h.ofKey.symm ▸ h.serves
        simp only [he, Option.isSome_none, Bool.false_eq_true, if_false, Refused.same hrefused hs]
    | _ => cases hc

/-- A step counts a failure whose commit is made. -/
theorem failed_counts (h : d.Sound key) : (d.cycle.counts m d.shared d.actor).failed =
    (d.failureCommit? k (.own (.step n m))).toList.countP (·.made) := by
  cases hp : d.cycle.point with
  | committing j t b =>
    simp only [Cycle.counts, hp, failureCommit?, commits?]
    cases Cycle.answered m (JobStore.commit d.shared.store d.actor.key j.id t m.now).1 with
    | error f =>
      cases (Point.committing j t b).failing? <;> rfl
    | ok s =>
      by_cases ht : t.state = .failed
      · obtain ⟨f, hf⟩ := Option.isSome_iff_exists.1 (h.decided j t b hp ht)
        rw [hf, ht]
        rfl
      · have hnone : (Point.committing j t b).failing? = none := by
          by_contra hsome
          obtain ⟨f, hf⟩ := Option.ne_none_iff_exists'.1 hsome
          obtain ⟨_, _, _, hp', -, ht', -⟩ := Point.failing?_eq_some hf
          cases hp'
          exact ht ht'
        rw [hnone]
        cases hst : t.state <;> first | rfl | exact absurd hst ht
  | claiming j b =>
    simp only [Cycle.counts, hp, failureCommit?, Point.failing?]
    split <;> rfl
  | _ => simp only [Cycle.counts, hp, failureCommit?, Point.failing?]; rfl

theorem failed_meet (h : d.Sound key) : (d.meet k x).actor.metrics.failed =
    d.actor.metrics.failed + (d.failureCommit? k x).toList.countP (·.made) := by
  cases x with
  | outside s => rfl
  | own a =>
    cases a with
    | step n m =>
      have hcounted := congrArg Tally.failed
        (Cycle.booked_step { k with batchSize := n } m d.shared d.actor d.cycle).metrics
      rw [Tally.failed_add, failed_counts h (n := n) (k := k)] at hcounted
      exact hcounted
    | begin =>
      simp only [Drain.meet, act]
      split <;> rfl
    | insert | around | markStopped | requestStop => rfl

theorem accounted_meets [WrittenStore σ] (h : d.Sound key)
    (hxs : ∀ s, .outside s ∈ xs → Serves key s) :
    (∀ c ∈ d.failureCommits k xs, c.Accounted) ∧ (d.meets k xs).actor.metrics.failed =
      d.actor.metrics.failed + (d.failureCommits k xs).countP (·.made) := by
  induction xs generalizing d with
  | nil => exact ⟨fun c hc => (by cases hc), rfl⟩
  | cons x xs ih =>
    have hnext : (d.meet k x).Sound key := h.meet fun s hx => hxs s (hx ▸ List.mem_cons_self)
    obtain ⟨haccounted, hfailed⟩ := ih hnext fun s hs => hxs s (List.mem_cons_of_mem _ hs)
    rw [failureCommits]
    refine ⟨fun c hc => ?_, ?_⟩
    · rcases List.mem_append.1 hc with hc | hc
      · exact accounted_failureCommit? h (Option.mem_toList.1 hc)
      · exact haccounted c hc
    · rw [List.countP_append, ← Nat.add_assoc, ← failed_meet h]
      exact hfailed

/-- In a run of drain cycles, whatever others do to the store and whichever calls
    fail, the failures that are announced are those whose commit is called for,
    in the same order, and one more while a cycle is about to call for it.  Each
    of these calls moves its instance from running to failed and records the
    failure count that was announced, or it changes nothing; the metric counts
    those that were made.  So the announcements and the metric agree if no commit
    is due and every call was made, and only then. -/
theorem failure_events_follow_commits [WrittenStore σ] (k : ActorConfig) (key : Key) (d : Drain σ)
    (xs : List (Incident σ)) (hkey : d.actor.key = key) (hserves : Serves key d.shared.store)
    (hfree : d.cycle.point.claimed? = none) (houtside : ∀ s, .outside s ∈ xs → Serves key s) :
    ((∀ pool events, .own (.around pool events) ∉ xs) → (d.meets k xs).shared.events =
      ((d.announced k xs).map (·.event key.name)).foldl Broadcast.publish d.shared.events) ∧
    d.announced k xs = (d.failureCommits k xs).map (·.failure) ++
      (d.meets k xs).cycle.point.failing?.toList ∧
    (∀ c ∈ d.failureCommits k xs, c.Accounted) ∧
    (d.meets k xs).actor.metrics.failed =
      d.actor.metrics.failed + (d.failureCommits k xs).countP (·.made) ∧
    (d.actor.metrics.failed + (d.announced k xs).length = (d.meets k xs).actor.metrics.failed ↔
      (d.meets k xs).cycle.point.failing? = none ∧
        ∀ c ∈ d.failureCommits k xs, c.made = true) := by
  have hannounced := announced_meets k d xs
  rw [Point.failing?_eq_none hfree, Option.toList_none, List.nil_append] at hannounced
  have hsound : d.Sound key := ⟨hkey, hserves, fun j t b hp => by rw [hp] at hfree; cases hfree⟩
  obtain ⟨haccounted, hfailed⟩ := accounted_meets (k := k) hsound houtside
  refine ⟨fun hxs => hkey ▸ events_meets k d xs hxs, hannounced, haccounted, hfailed, ?_⟩
  have hle := List.countP_le_length (p := (·.made)) (l := d.failureCommits k xs)
  rw [hannounced, hfailed, List.length_append, List.length_map, ← List.countP_eq_length]
  cases (d.meets k xs).cycle.point.failing? with
  | none => simp [eq_comm]
  | some f =>
    simp only [Option.toList_some, List.length_singleton, reduceCtorEq, false_and, iff_false]
    omega

end

/-! ## A failure that is not committed -/

/-- An instance that is due, and an actor for it. -/
def oneDue : Drain MemoryStore where
  shared := ⟨MemoryStore.empty.append { jobRef := "job", dueAt := .ofMillis 1000 } .epoch,
    .ofConfig {}, {}⟩
  actor := { key := { name := "jobs" } }

/-- A cycle whose processor fails, up to the commit. -/
def failsAt (millis : Int) : List (Incident MemoryStore) :=
  (stepsAt millis 6 ++ stepsAt millis 1 (.answered (.failed "broken"))).map .own

/-- The next step is a commit that fails. -/
def commitFails (millis : Int) : Incident MemoryStore :=
  .own (.step 1 { now := .ofMillis millis, failure := some (.error (.database "gone")) })

/-- The commit of the first cycle fails, others put the instance back, and the
    second cycle commits it: it is announced twice and counted once. -/
theorem failure_events_follow_commits_of_two_cycles :
    let xs := failsAt 2000 ++ [commitFails 2000, .outside oneDue.shared.store, .own .begin] ++
      failsAt 3000 ++ (stepsAt 3000 1).map .own
    oneDue.announced {} xs = [⟨1, 1, "broken"⟩, ⟨1, 1, "broken"⟩] ∧
    oneDue.announced {} xs = (oneDue.failureCommits {} xs).map (·.failure) ∧
    (∀ c ∈ oneDue.failureCommits {} xs, c.Accounted) ∧
    (oneDue.failureCommits {} xs).map (·.made) = [false, true] ∧
    (oneDue.meets {} xs).actor.metrics.failed =
      oneDue.actor.metrics.failed + (oneDue.failureCommits {} xs).countP (·.made) := by
  intro xs
  obtain ⟨-, hannounced, haccounted, hfailed, -⟩ :=
    failure_events_follow_commits {} { name := "jobs" } oneDue xs rfl trivial rfl
      fun _ _ => trivial
  have hfree : (oneDue.meets {} xs).cycle.point.failing? = none := by decide +kernel
  rw [hfree, Option.toList_none, List.append_nil] at hannounced
  exact ⟨by decide +kernel, hannounced, haccounted, by decide +kernel, hfailed⟩

/-- A failure is announced, and its commit fails: the instance is still running,
    and no failure is counted. -/
theorem failure_announced_and_not_committed :
    let d := oneDue.meets {} (failsAt 2000 ++ [commitFails 2000])
    oneDue.announced {} (failsAt 2000 ++ [commitFails 2000]) = [⟨1, 1, "broken"⟩] ∧
    d.shared.events.kept = [.instanceFailed "jobs" 1 1 "broken"] ∧
    d.shared.store.recorded? 1 = some ⟨.running, 0⟩ ∧ d.actor.metrics.failed = 0 := by
  decide +kernel

end Drain

end DueWork
