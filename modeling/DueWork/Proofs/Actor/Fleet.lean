/-
  Actors that drain one partition over one store.

  A `Fleet` is a store with any number of actors, each with a cycle, a pool and
  a clock of its own; they take their turns in any order.  A claim compares the
  state of an instance only, so it can be won with a copy that was overtaken,
  by the commit of another actor since the copy was fetched.

  * `UpToDate`: what is written of an instance is what a copy says of it, if
    the copy was not overtaken;
  * so only overtaken copies are handed over early or with an old failure
    count, and only their commits set a failure count back.
-/
import Mathlib.Logic.Function.Basic
import DueWork.Proofs.Actor.Handover
import DueWork.Proofs.Actor.RetryBudget

namespace DueWork

open Time Signal

/-- An actor of a fleet. -/
structure Member where
  actor : Actor
  pool : WorkerPool := .ofConfig {}
  events : Broadcast Event := {}
  cycle : Cycle := {}
  handed : List Job := []

namespace Member

variable {σ : Type}

/-- An actor with the store. -/
def drain (x : Member) (s : σ) : Drain σ := ⟨⟨s, x.pool, x.events⟩, x.actor, x.cycle, x.handed⟩

/-- An actor without the store. -/
def ofDrain (d : Drain σ) : Member :=
  ⟨d.actor, d.shared.pool, d.shared.events, d.cycle, d.handed⟩

end Member

/-- Actors over one store. -/
structure Fleet (σ : Type) where
  store : σ
  members : Nat → Member
  /-- what others committed since an actor fetched -/
  overtaken : Nat → List Int := fun _ => []

/-- What may happen next in a fleet. -/
inductive Turn where
  | act (i : Nat) (a : Act)
  /-- an actor has the stale claims of its partition given up -/
  | recover (i : Nat) (cutoff now : Instant)

/-- The acts of one actor. -/
def actsOf (i : Nat) (turns : List Turn) : List Act :=
  turns.filterMap fun
    | .act i' a => if i' = i then some a else none
    | .recover _ _ _ => none

/-- What of the overtaken instances is left after a step: a fetch reads all
    anew. -/
def Point.leftOf (ids : List Int) : Point → List Int
  | .fetching => []
  | _ => ids

/-- The clocks of a fleet do not go back and show no leap second. -/
structure KeepTime (turns : List Turn) : Prop where
  forward : ∀ i, (readings (actsOf i turns)).Pairwise (· ≤ ·)
  noLeap : ∀ i, ∀ t ∈ readings (actsOf i turns), ¬t.IsLeap

section

variable {σ : Type} [JobStore σ]

/-- The instance that an act commits. -/
def Drain.commits? (d : Drain σ) : Act → Option Int
  | .step _ m =>
    match d.cycle.point with
    | .committing j t _ =>
      match Cycle.answered m (JobStore.commit d.shared.store d.actor.key j.id t m.now).1 with
      | .ok _ => some j.id
      | .error _ => none
    | _ => none
  | _ => none

/-- What of the overtaken instances is left after an act. -/
def Drain.leftOf (d : Drain σ) (ids : List Int) : Act → List Int
  | .step _ _ => d.cycle.point.leftOf ids
  | _ => ids

namespace Fleet

/-- What a turn does; each actor has its configuration. -/
def act (k : Nat → ActorConfig) (f : Fleet σ) : Turn → Fleet σ
  | .act i a =>
    let d := (f.members i).drain f.store
    let d' := d.act (k i) a
    { store := d'.shared.store
      members := Function.update f.members i (.ofDrain d')
      overtaken := fun i' =>
        if i' = i then d.leftOf (f.overtaken i) a else (d.commits? a).toList ++ f.overtaken i' }
  | .recover i cutoff now =>
    let (_, store) := JobStore.resetStale f.store (f.members i).actor.key cutoff now
    { f with store := store }

/-- What some turns do, one after the other. -/
def run (k : Nat → ActorConfig) (f : Fleet σ) (turns : List Turn) : Fleet σ :=
  turns.foldl (act k) f

end Fleet

end

/-! ## Copies that are up to date -/

/-- Counting on does not lead back, not even at the end of the count. -/
theorem Time.Duration.le_nextCount (n : UInt32) : n ≤ nextCount n := by
  rw [UInt32.le_iff_toNat_le]
  by_cases h : n.toNat + 1 < Nat.pow 2 32
  · rw [toNat_nextCount h]
    exact Nat.le_succ _
  · rw [nextCount, if_neg h]

/-- The failure count that an outcome writes is not below that of the copy. -/
theorem Outcome.le_of_transition {o : Outcome} {policy : RetryPolicy} {now : Instant}
    {jitter : UInt64} {j : Job} {n : UInt32}
    (h : (o.transition policy now jitter j).failureCount = some n) : j.failureCount ≤ n := by
  cases o with
  | done result => cases h
  | failed reason =>
    cases h
    exact Duration.le_nextCount _
  | retry reason notBefore =>
    simp only [Outcome.transition] at h
    split at h <;> cases h <;> exact Duration.le_nextCount _

section

variable {σ : Type} [JobStore σ] {k : ActorConfig} {key : Key} {m : Moment} {stop : Bool} {s s' : σ}
  {p p' : Point} {j : Job} {t : Transition} {b : Batch} {ids ids' : List Int} {clock : List Instant}

/-- After a commit only what is ahead is left. -/
theorem Edge.copies_of_committing (he : Edge k key m stop s (.committing j t b) s' p') :
    p'.copies.Sublist b.jobs := by
  cases he with
  | quiet hp => cases hp
  | cut _ hp' =>
    rw [Point.copies, Point.claimed?_of_isFinal hp', Point.ahead_of_isFinal hp']
    exact List.nil_sublist _
  | committed | refused => exact List.Sublist.refl _

/-- What is to be committed is an outcome of the instance. -/
theorem Edge.settles (he : Edge k key m stop s p s' (.committing j t b)) :
    ∃ o now jitter, t = Outcome.transition k.retry now jitter j o := by
  cases he with
  | quiet _ hp' => cases hp'
  | cut _ hp' => cases hp'
  | settled => exact ⟨_, _, _, rfl⟩

variable [StandingStore σ] [WrittenStore σ]

open StandingStore WrittenStore

/-- What is written of instances is what the copies of a cycle say that were
    not overtaken; the clock will show `clock`. -/
structure UpToDate (s : σ) (overtaken : List Int) (clock : List Instant) (p : Point) : Prop where
  distinct : (p.copies.map (·.id)).Nodup
  written : ∀ j ∈ p.copies, j.id ∉ overtaken → written? s j.id = some j.written
  /-- what was fetched was due -/
  passed : ∀ j ∈ p.copies, ∀ now ∈ clock, j.dueAt ≤ now
  /-- a failure count only goes up from that of the copy -/
  decided : ∀ j t b, p = .committing j t b → ∀ n, t.failureCount = some n → j.failureCount ≤ n

namespace UpToDate

/-- A cycle that holds no copies. -/
theorem none (hcopies : p.copies = []) : UpToDate s ids clock p where
  distinct := by
    rw [hcopies]
    exact .nil
  written j hj := by
    rw [hcopies] at hj
    cases hj
  passed j hj := by
    rw [hcopies] at hj
    cases hj
  decided j t b hp := by
    rw [hp] at hcopies
    cases hcopies

/-- In a store where the same is written, except for what is overtaken now. -/
theorem store (h : UpToDate s ids clock p) (hids : ids ⊆ ids')
    (hsame : ∀ i w, i ∉ ids' → written? s i = some w → written? s' i = some w) :
    UpToDate s' ids' clock p :=
  { h with written := fun j hj hid =>
      hsame j.id _ hid (h.written j hj fun hmem => hid (hids hmem)) }

end UpToDate

/-- A step of its own keeps a cycle up to date. -/
theorem Edge.upToDate (he : Edge k key m stop s p s' p') (hs : Serves key s)
    (h : UpToDate s ids (m.now :: clock) p) (hclock : ∀ t ∈ clock, m.now ≤ t)
    (hleap : ¬m.now.IsLeap) : UpToDate s' (p.leftOf ids) clock p' := by
  have hdecided : ∀ j t b, p' = .committing j t b → ∀ n, t.failureCount = some n →
      j.failureCount ≤ n := by
    rintro j t b rfl n hn
    obtain ⟨o, now, jitter, rfl⟩ := he.settles
    exact Outcome.le_of_transition hn
  rcases he.copies with hsub | ⟨rfl, limit, hfetch⟩
  · have hmem (j : Job) (hj : j ∈ p'.copies) : ∃ i ∈ p.copies, i.id = j.id ∧
        i.written = j.written := by
      obtain ⟨i, hi, hlabel⟩ := List.mem_map.1 (hsub.subset (List.mem_map_of_mem hj))
      exact ⟨i, hi, (Prod.mk.inj hlabel).1, (Prod.mk.inj hlabel).2⟩
    refine ⟨?_, fun j hj hid => ?_, fun j hj now hnow => ?_, hdecided⟩
    · have hids := hsub.map Prod.fst
      rw [List.map_map, List.map_map] at hids
      exact h.distinct.sublist hids
    · obtain ⟨i, hi, hij, hw⟩ := hmem j hj
      have hleft : p.leftOf ids = ids := by
        cases p <;> first | rfl | cases hi
      rw [hleft, ← hij] at hid
      rcases (he.written hs).2 i.id with hsame | ⟨j₀, t, b, rfl, hid₀, -⟩
      · rw [← hij, hsame, h.written i hi hid, hw]
      · -- what is committed is not among the copies that are left
        exfalso
        have hdistinct : (j₀.id :: b.jobs.map (·.id)).Nodup := h.distinct
        have hrest := List.mem_map_of_mem (f := (·.id)) (he.copies_of_committing.subset hj)
        exact (List.nodup_cons.1 hdistinct).1 ((hid₀.trans hij) ▸ hrest)
    · obtain ⟨i, hi, -, hw⟩ := hmem j hj
      rw [← show i.dueAt = j.dueAt from congrArg Written.dueAt hw]
      exact h.passed i hi now (List.mem_cons_of_mem _ hnow)
  · have hfetched := WrittenStore.fetched hs hfetch
    refine ⟨(StandingStore.fetched hs hfetch).1, fun j hj _ => ?_, fun j hj now hnow => ?_, hdecided⟩
    · rcases (he.written hs).2 j.id with hsame | ⟨_, _, _, hp, -⟩
      · rw [hsame]
        exact (hfetched j hj).1
      · cases hp
    · exact Instant.le_trans ((hfetched j hj).2 hleap) (hclock now hnow)

/-! ## Acts of one member -/

namespace Drain

variable {d : Drain σ} {a : Act} {acts : List Act} {i : Int} {w : Written}

/-- An act of its own keeps a cycle up to date. -/
theorem upToDate_act (hs : Serves d.actor.key d.shared.store)
    (h : UpToDate d.shared.store ids (readings (a :: acts)) d.cycle.point)
    (hclock : (readings (a :: acts)).Pairwise (· ≤ ·))
    (hleap : ∀ t ∈ readings (a :: acts), ¬t.IsLeap) :
    UpToDate (d.act k a).shared.store (d.leftOf ids a) (readings acts) (d.act k a).cycle.point := by
  cases a with
  | step n m =>
    exact (d.edge k n m).upToDate hs h (List.pairwise_cons.1 hclock).1
      (hleap m.now List.mem_cons_self)
  | begin =>
    simp only [act]
    split
    · exact .none rfl
    · exact h
  | insert job now =>
    simp only [act]
    rcases hinsert : JobStore.insert d.shared.store job now with ⟨e | id, s⟩
    · obtain rfl := StandingStore.insert_error hinsert
      exact h
    · exact h.store (List.Subset.refl _) fun i w _ hw => WrittenStore.inserted hs hinsert i w hw
  | around | markStopped | requestStop => exact h

/-- The store can still be used, and the same is written of what is not
    committed. -/
theorem written_act (hs : Serves d.actor.key d.shared.store) :
    Serves d.actor.key (d.act k a).shared.store ∧ ∀ i w, d.commits? a ≠ some i →
      written? d.shared.store i = some w → written? (d.act k a).shared.store i = some w := by
  cases a with
  | step n m =>
    obtain ⟨hserves, hwritten⟩ := (d.edge k n m).written hs
    refine ⟨hserves, fun i w hcommits hw => ?_⟩
    rcases hwritten i with hsame | ⟨j, t, b, hp, rfl, hm, hcommit⟩
    · rw [hsame, hw]
    · exact absurd (by simp only [commits?, hp, hcommit, Cycle.answered, hm]) hcommits
  | insert job now =>
    simp only [act]
    rcases hinsert : JobStore.insert d.shared.store job now with ⟨e | id, s⟩
    · obtain rfl := StandingStore.insert_error hinsert
      exact ⟨hs, fun _ _ _ hw => hw⟩
    · exact ⟨(StandingStore.insert_ok hs hinsert).1,
        fun i w _ hw => WrittenStore.inserted hs hinsert i w hw⟩
  | begin =>
    simp only [act]
    split <;> exact ⟨hs, fun _ _ _ hw => hw⟩
  | around | markStopped | requestStop => exact ⟨hs, fun _ _ _ hw => hw⟩

/-- No act sets back the failure count of an instance that was not overtaken. -/
theorem failures_act (hs : Serves d.actor.key d.shared.store)
    (h : UpToDate d.shared.store ids clock d.cycle.point) (hi : i ∉ ids)
    (hw : written? d.shared.store i = some w) :
    ∃ w', written? (d.act k a).shared.store i = some w' ∧ w.failures ≤ w'.failures := by
  by_cases hcommits : d.commits? a = some i
  · cases a with
    | step n m =>
      rcases ((d.edge k n m).written hs).2 i with hsame | ⟨j, t, b, hp, rfl, -, hcommit⟩
      · exact ⟨w, hsame.trans hw, UInt32.le_refl _⟩
      · have hj : j ∈ d.cycle.point.copies := by
          rw [hp]
          exact List.mem_cons_self
        cases hw.symm.trans (h.written j hj hi)
        obtain ⟨w', hw', hfailures⟩ :=
          (WrittenStore.committed hs hcommit).2 _ hw
        refine ⟨w', hw', ?_⟩
        rw [hfailures]
        cases hn : t.failureCount with
        | none => exact UInt32.le_refl _
        | some n => exact h.decided j t b hp n hn
    | _ => cases hcommits
  · exact ⟨w, (written_act hs).2 i w hcommits hw, UInt32.le_refl _⟩

/-- A copy that was not overtaken is handed over as it is written, and when it
    is due. -/
theorem handover?_upToDate (h : UpToDate d.shared.store ids (readings (a :: acts)) d.cycle.point)
    {x : Handover} (hx : d.handover? k a = some x) (hid : x.copy.id ∉ ids) :
    x.written = some x.copy.written ∧ x.copy.dueAt ≤ x.now := by
  cases a with
  | step n m =>
    obtain ⟨j', hj', rfl⟩ := Option.map_eq_some_iff.1 hx
    obtain ⟨j, b, hp, rfl⟩ := (d.edge k n m).handed hj'
    have hj : j ∈ d.cycle.point.copies := by
      rw [hp]
      exact List.mem_cons_self
    exact ⟨h.written j hj hid, h.passed j hj m.now List.mem_cons_self⟩
  | _ => cases hx

end Drain

/-! ## Runs of a fleet -/

section Turns

variable {i i' : Nat} {a : Act} {turns rest : List Turn} {x : Turn}

theorem actsOf_cons_self : actsOf i (.act i a :: turns) = a :: actsOf i turns := by
  simp [actsOf]

theorem actsOf_cons_of_ne (h : i' ≠ i) : actsOf i' (.act i a :: turns) = actsOf i' turns := by
  simp [actsOf, Ne.symm h]

theorem KeepTime.of_append (h : KeepTime (turns ++ rest)) : KeepTime rest := by
  have hsub (i : Nat) : (readings (actsOf i rest)).Sublist (readings (actsOf i (turns ++ rest))) :=
    ((List.sublist_append_right turns rest).filterMap _).filterMap _
  exact ⟨fun i => (h.forward i).sublist (hsub i), fun i t ht => h.noLeap i t ((hsub i).subset ht)⟩

end Turns

namespace Fleet

variable {k : Nat → ActorConfig} {f : Fleet σ} {turns rest : List Turn} {x : Turn}

/-- All cycles of a fleet are up to date. -/
structure Sound (key : Key) (f : Fleet σ) (rest : List Turn) : Prop where
  ofKey : ∀ i, (f.members i).actor.key = key
  serves : Serves key f.store
  upToDate : ∀ i, UpToDate f.store (f.overtaken i) (readings (actsOf i rest))
    (f.members i).cycle.point

/-- A fleet of a partition before its first cycles. -/
structure Fresh (key : Key) (f : Fleet σ) : Prop where
  ofKey : ∀ i, (f.members i).actor.key = key
  serves : Serves key f.store
  start : ∀ i, (f.members i).cycle.point = .start

theorem Fresh.sound (h : f.Fresh key) : f.Sound key rest where
  ofKey := h.ofKey
  serves := h.serves
  upToDate i := .none (by rw [h.start]; rfl)

/-- A turn keeps all cycles up to date: its own by what it does, the others
    because what it commits is overtaken. -/
theorem Sound.act (h : f.Sound key (x :: rest)) (ht : KeepTime (x :: rest)) :
    (f.act k x).Sound key rest := by
  cases x with
  | act i a =>
    have hs : Serves ((f.members i).drain f.store).actor.key ((f.members i).drain f.store).shared.store :=
      (h.ofKey i).symm ▸ h.serves
    have hkey : ((f.members i).drain f.store).actor.key = key := h.ofKey i
    obtain ⟨hserves, hwritten⟩ := Drain.written_act (k := k i) (a := a) hs
    have hofkey (i' : Nat) : ((f.act k (.act i a)).members i').actor.key = key := by
      by_cases hi : i' = i
      · subst hi
        simp only [Fleet.act, Function.update_self, Member.ofDrain]
        exact (Drain.key_act a).trans hkey
      · simp only [Fleet.act, Function.update_of_ne hi]
        exact h.ofKey i'
    refine ⟨hofkey, hkey ▸ hserves, fun i' => ?_⟩
    have hup := h.upToDate i'
    by_cases hi : i' = i
    · subst hi
      have hforward := ht.forward i'
      have hleap := ht.noLeap i'
      rw [actsOf_cons_self] at hup hforward hleap
      simp only [Fleet.act, Function.update_self, if_true]
      exact Drain.upToDate_act (d := (f.members i').drain f.store) hs hup hforward hleap
    · rw [actsOf_cons_of_ne hi] at hup
      simp only [Fleet.act, Function.update_of_ne hi, if_neg hi]
      refine hup.store (List.subset_append_right ..) fun j w hj hw => hwritten j w (fun hc => hj ?_) hw
      rw [hc]
      exact List.mem_append_left _ List.mem_cons_self
  | recover i cutoff now =>
    have hup (i' : Nat) : UpToDate f.store (f.overtaken i') (readings (actsOf i' rest))
        (f.members i').cycle.point := h.upToDate i'
    cases hreset : JobStore.resetStale f.store (f.members i).actor.key cutoff now with
    | mk n s =>
      simp only [Fleet.act, hreset]
      rw [h.ofKey i] at hreset
      obtain ⟨hserves, hsame⟩ := WrittenStore.reset h.serves hreset
      exact ⟨h.ofKey, hserves, fun i' => (hup i').store (List.Subset.refl _)
        fun j w _ hw => (hsame j).trans hw⟩

theorem Sound.run (h : f.Sound key (turns ++ rest)) (ht : KeepTime (turns ++ rest)) :
    (f.run k turns).Sound key rest := by
  induction turns generalizing f with
  | nil => exact h
  | cons x turns ih =>
    have hrest : KeepTime ([x] ++ (turns ++ rest)) := ht
    exact ih (h.act ht) hrest.of_append

/-- In every run of a fleet, a copy that no other actor overtook is handed over
    as the instance is written then, and when it is due; and no act sets back the
    failure count of an instance that was not overtaken. -/
theorem handed_over_as_written (k : Nat → ActorConfig) (key : Key) (f : Fleet σ)
    (turns : List Turn) (i : Nat) (a : Act) (hfresh : f.Fresh key)
    (htime : KeepTime (turns ++ [.act i a])) :
    (∀ h, (((f.run k turns).members i).drain (f.run k turns).store).handover? (k i) a = some h →
      h.copy.id ∉ (f.run k turns).overtaken i →
      h.written = some h.copy.written ∧ h.copy.dueAt ≤ h.now) ∧
    ∀ id w, id ∉ (f.run k turns).overtaken i → written? (f.run k turns).store id = some w →
      ∃ w', written? ((f.run k turns).act k (.act i a)).store id = some w' ∧
        w.failures ≤ w'.failures := by
  have h : (f.run k turns).Sound key [.act i a] := hfresh.sound.run htime
  have hup := h.upToDate i
  rw [actsOf_cons_self] at hup
  refine ⟨fun x hx hid => Drain.handover?_upToDate hup hx hid, fun id w hid hw => ?_⟩
  exact Drain.failures_act (d := ((f.run k turns).members i).drain (f.run k turns).store)
    ((h.ofKey i).symm ▸ h.serves) hup hid hw

end Fleet

end

/-! ## Two actors and one instance -/

/-- The clock of a turn. -/
def Turn.reading? : Turn → Option Instant
  | .act _ a => a.reading?
  | .recover _ _ _ => none

theorem readings_actsOf (i : Nat) (turns : List Turn) :
    (readings (actsOf i turns)).Sublist (turns.filterMap Turn.reading?) := by
  induction turns with
  | nil => exact List.nil_sublist _
  | cons x turns ih =>
    cases x with
    | act i' a =>
      by_cases hi : i = i'
      · subst hi
        rw [actsOf_cons_self]
        cases h : a.reading? <;> simpa [readings, Turn.reading?, h] using ih
      · rw [actsOf_cons_of_ne hi]
        exact ih.trans ((List.sublist_cons_self ..).filterMap _)
    | recover => exact ih

/-- Actors that go by one clock keep time if it does. -/
theorem KeepTime.of_common {turns : List Turn}
    (hforward : (turns.filterMap Turn.reading?).Pairwise (· ≤ ·))
    (hleap : ∀ t ∈ turns.filterMap Turn.reading?, ¬t.IsLeap) : KeepTime turns :=
  ⟨fun i => hforward.sublist (readings_actsOf i turns),
    fun i t ht => hleap t ((readings_actsOf i turns).subset ht)⟩

namespace Fleet

/-- Two actors and a deferred instance that failed once. -/
def pair : Fleet MemoryStore where
  store := MemoryStore.empty.put
    { (NewJob.toJob { jobRef := "job", dueAt := .ofMillis 2000 } 1 .epoch) with
      state := .deferred, failureCount := 1 }
  members _ := { actor := { key := { name := "jobs" } } }

theorem pair_fresh : pair.Fresh { name := "jobs" } where
  ofKey _ := rfl
  serves := trivial
  start _ := rfl

/-- Steps of an actor at a time, with batches of one; a call that ends is
    deferred to another time, if there is one. -/
def turnsAt (i : Nat) (millis : Int) (n : Nat) (until? : Option Int := none) : List Turn :=
  let outcome : Outcome := match until? with
    | some later => .retry "later" (some (.ofMillis later))
    | none => .done none
  List.replicate n (.act i (.step 1 { now := .ofMillis millis, processing := .answered outcome }))

/-- The second actor hands the instance over as it is written, while the first
    has a copy as well. -/
theorem handed_over_as_written_by_second :
    let turns := turnsAt 0 10000 5 ++ turnsAt 1 11000 5
    let f := pair.run (fun _ => {}) turns
    let a : Act := .step 1 { now := .ofMillis 11000 }
    (∃ h, ((f.members 1).drain f.store).handover? {} a = some h ∧
      h.written = some h.copy.written ∧ h.copy.dueAt ≤ h.now) ∧
    ∃ w, WrittenStore.written? (f.act (fun _ => {}) (.act 1 a)).store 1 = some w ∧
      1 ≤ w.failures := by
  intro turns f a
  have hstep := handed_over_as_written (fun _ => {}) { name := "jobs" } pair turns 1 a pair_fresh
    (.of_common (by decide +kernel) (by decide +kernel))
  have hovertaken : f.overtaken 1 = [] := by decide +kernel
  have hwritten : WrittenStore.written? f.store 1 = some ⟨.ofMillis 2000, 1⟩ := by decide +kernel
  obtain ⟨h, hh⟩ : ∃ h, ((f.members 1).drain f.store).handover? {} a = some h :=
    Option.isSome_iff_exists.1 (by decide +kernel)
  refine ⟨⟨h, hh, hstep.1 h hh ?_⟩, hstep.2 1 _ ?_ hwritten⟩
  · show h.copy.id ∉ f.overtaken 1
    simp [hovertaken]
  · show 1 ∉ f.overtaken 1
    simp [hovertaken]

/-- The first actor fetches the instance, the second defers it twice, and the
    first wins its claim still: the instance is handed over before it is due and
    with the old failure count, and its commit sets the failure count back. -/
theorem overtaken_copy_runs_early :
    let turns := turnsAt 0 10000 5 ++ turnsAt 1 11000 6 ++ turnsAt 1 11000 1 (some 11000) ++
      turnsAt 1 12000 7 ++ turnsAt 1 12000 1 (some 1000000) ++ turnsAt 1 12000 1
    let f := pair.run (fun _ => {}) turns
    let f' := f.run (fun _ => {}) (turnsAt 0 13000 1 ++ turnsAt 0 13000 2 (some 14000))
    KeepTime (turns ++ (turnsAt 0 13000 1 ++ turnsAt 0 13000 2 (some 14000))) ∧
    (((f.members 0).drain f.store).handover? {} (.step 1 { now := .ofMillis 13000 })).map
      (fun h => (h.now, h.written, h.copy.written)) =
      some (.ofMillis 13000, some ⟨.ofMillis 1000000, 3⟩, ⟨.ofMillis 2000, 1⟩) ∧
    WrittenStore.written? f'.store 1 = some ⟨.ofMillis 14000, 2⟩ :=
  ⟨.of_common (by decide +kernel) (by decide +kernel), by decide +kernel, by decide +kernel⟩

end Fleet

end DueWork
