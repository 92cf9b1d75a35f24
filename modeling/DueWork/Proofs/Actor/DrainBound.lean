/-
  The bound on a drain cycle.

  A cycle fetches again whenever a fetch filled its batch, and what was deferred
  may be in the next batch at once.  What falls is the number of attempts that
  are left: each claim takes one of them, and a commit that defers the instance
  gives none back.

  * `Edge.weight_le`: no step adds to the attempts made and the ones left;
  * `Passage.rank_lt`: between two claims every step that is not spent waiting
    comes closer to the end;
  * `drain_bounded`: so there is a bound on the calls of the processor and on
    the steps of a cycle, and a cycle that is not kept waiting for ever ends.
-/
import DueWork.Proofs.Actor.DueOrder
import DueWork.Proofs.Actor.LocalFailures
import DueWork.Proofs.Actor.Passage

namespace DueWork

open Time Signal StandingStore

/-! ## The attempts that are left -/

/-- How often an instance is still tried: as often as there are retries left,
    and at least once. -/
def Job.attemptsLeft (policy : RetryPolicy) (j : Job) : Nat :=
  max 1 (policy.maxRetries.toNat + 1 - j.failureCount.toNat)

/-- The attempts that are left for an instance of a partition if it can be
    claimed. -/
def Key.weight (key : Key) (policy : RetryPolicy) (j : Job) : Nat :=
  if key.owns j && key.isReadyState j.state && j.state.isClaimable then j.attemptsLeft policy else 0

/-- The attempts that are left for an instance in hand, after this one. -/
def Point.weight (policy : RetryPolicy) (p : Point) : Nat :=
  p.claimed?.elim 0 fun j => j.attemptsLeft policy - 1

theorem Job.attemptsLeft_pos (policy : RetryPolicy) (j : Job) : 0 < j.attemptsLeft policy := by
  unfold attemptsLeft
  omega

theorem Key.weight_of_not_claimable {key : Key} {policy : RetryPolicy} {j : Job}
    (h : j.state.isClaimable = false) : key.weight policy j = 0 := by
  rw [weight, h, Bool.and_false, if_neg Bool.false_ne_true]

theorem Key.weight_le (key : Key) (policy : RetryPolicy) (j : Job) :
    key.weight policy j ≤ j.attemptsLeft policy := by
  unfold weight
  split
  · exact Nat.le_refl _
  · exact Nat.zero_le _

theorem Point.weight_of_none {policy : RetryPolicy} {p : Point} (h : p.claimed? = none) :
    p.weight policy = 0 := by
  rw [weight, h, Option.elim_none]

namespace MemoryStore

variable {s s' : MemoryStore} {key : Key} {policy : RetryPolicy} {id : Int} {now : Instant}

/-- The attempts that are left for the instances of a partition in a ready
    state. -/
def attemptsLeft (policy : RetryPolicy) (key : Key) (s : MemoryStore) : Nat :=
  ((s.jobs.filter fun j => key.owns j && key.isReadyState j.state).map (·.attemptsLeft policy)).sum

def weight (policy : RetryPolicy) (key : Key) (s : MemoryStore) : Nat :=
  (s.jobs.map (key.weight policy)).sum

theorem weight_le_attemptsLeft : s.weight policy key ≤ s.attemptsLeft policy key := by
  rw [weight, attemptsLeft]
  induction s.jobs with
  | nil => exact Nat.le_refl _
  | cons j js ih =>
    rw [List.map_cons, List.sum_cons, List.filter_cons]
    split
    case isTrue =>
      rw [List.map_cons, List.sum_cons]
      exact Nat.add_le_add (key.weight_le policy j) ih
    case isFalse hj =>
      rw [Key.weight, Bool.eq_false_iff.2 hj, Bool.false_and, if_neg Bool.false_ne_true,
        Nat.zero_add]
      exact ih

theorem weight_updateAt (policy : RetryPolicy) (key : Key) (f : Job → Job)
    (keepsId : ∀ j, (f j).id = j.id) {j : Job} (hj : s.find? id = some j) :
    (s.updateAt id f keepsId).weight policy key + key.weight policy j =
      s.weight policy key + key.weight policy (f j) := by
  rw [weight, show (s.updateAt id f keepsId).jobs = s.jobs.map _ from rfl, List.map_map]
  exact sum_update_key s.sorted hj f (key.weight policy)

/-- A claim takes one of the attempts that were left. -/
theorem weight_of_claim (policy : RetryPolicy) {j : Job} (hj : key.isReadyState j.state = true)
    (hcopy : ∃ r, standing? key s j.id = some r ∧ r.state = j.state ∧ r.failures = j.failureCount)
    (h : s.claim key j.id j.state now = (.ok true, s')) :
    s'.weight policy key + j.attemptsLeft policy = s.weight policy key := by
  obtain ⟨hlost, -⟩ | ⟨-, hclaimable, j', hj', hstate, howns, rfl⟩ := claim_ok h
  · cases hlost
  obtain ⟨r, hr, -, hfailures⟩ := hcopy
  obtain ⟨_, hfound, -, rfl⟩ := standing?_eq_some hr
  cases hj'.symm.trans hfound
  have hbefore : key.weight policy j' = j.attemptsLeft policy := by
    rw [Key.weight, if_pos (by rw [howns, hstate, hj, hclaimable]; rfl), Job.attemptsLeft,
      Job.attemptsLeft, show j'.failureCount = j.failureCount from hfailures]
  have hafter : key.weight policy (markClaimed now j') = 0 := Key.weight_of_not_claimable rfl
  have hsum := weight_updateAt policy key (markClaimed now) (fun _ => rfl) hj'
  omega

/-- What an outcome leaves of the attempts, when one was made. -/
theorem weight_of_transition (key : Key) (o : Outcome) (now : Instant) (jitter : UInt64)
    (j j' : Job) (hmax : policy.maxRetries.toNat < Nat.pow 2 32 - 1) :
    key.weight policy ((o.transition policy now jitter j).apply j') ≤
      j.attemptsLeft policy - 1 := by
  rcases o.transition_cases policy now jitter j with ht | ht | ⟨ht, -, hcount, hmore⟩
  · rw [Key.weight_of_not_claimable (by simp only [Transition.apply, ht]; rfl)]
    exact Nat.zero_le _
  · rw [Key.weight_of_not_claimable (by simp only [Transition.apply, ht]; rfl)]
    exact Nat.zero_le _
  · refine Nat.le_trans (Key.weight_le ..) ?_
    simp only [Job.attemptsLeft, Transition.apply, hcount, Option.getD_some]
    rw [Job.nextFailureCount] at hmore ⊢
    rw [UInt32.lt_iff_toNat_lt] at hmore
    have hroom : j.failureCount.toNat + 1 < Nat.pow 2 32 := by
      by_contra hfull
      rw [Duration.nextCount, if_neg hfull] at hmore
      omega
    rw [toNat_nextCount hroom] at hmore ⊢
    omega

/-- A commit gives no attempt back beyond those that were left. -/
theorem weight_of_commit {o : Outcome} {jitter : UInt64} {j : Job}
    (hmax : policy.maxRetries.toNat < Nat.pow 2 32 - 1)
    (hheld : ∃ r, standing? key s j.id = some r ∧ r.state = .running ∧ r.failures = j.failureCount)
    (h : s.commit j.id (o.transition policy now jitter j) = (.ok (), s')) :
    s'.weight policy key ≤ s.weight policy key + (j.attemptsLeft policy - 1) := by
  obtain ⟨-, j', hj', -, rfl⟩ := MemoryStore.commit_ok h
  obtain ⟨r, hr, hrun, -⟩ := hheld
  obtain ⟨_, hfound, -, rfl⟩ := standing?_eq_some hr
  cases hj'.symm.trans hfound
  have hbefore : key.weight policy j' = 0 :=
    Key.weight_of_not_claimable (by rw [show j'.state = .running from hrun]; rfl)
  have hafter := weight_of_transition key o now jitter j j' hmax
  have hsum :=
    weight_updateAt policy key (o.transition policy now jitter j).apply (fun _ => rfl) hj'
  omega

end MemoryStore

/-- No step adds to the attempts that were made and those that are left. -/
theorem Edge.weight_le {k : ActorConfig} {key : Key} {m : Moment} {stop : Bool}
    {s s' : MemoryStore} {p p' : Point} (he : Edge k key m stop s p s' p')
    (halone : m.claimLost = false) (hmax : k.retry.maxRetries.toNat < Nat.pow 2 32 - 1)
    (ht : ∀ i, Tracks (fun _ => True) k key i s p)
    (hready : ∀ j ∈ p.ahead, key.isReadyState j.state = true) :
    (p.handed? p').toList.length + (s'.weight k.retry key + p'.weight k.retry) ≤
      s.weight k.retry key + p.weight k.retry := by
  cases he with
  | quiet hp hp' =>
    rw [Point.handed?_eq_none hp', Point.weight_of_none hp, Point.weight_of_none hp']
    simp
  | cut hp hfinal =>
    obtain rfl := hp.same trivial
    have hp' := Point.claimed?_of_isFinal hfinal
    rw [Point.handed?_eq_none hp', Point.weight_of_none hp']
    simp
  | fetched => simp [Point.handed?, Point.weight, Point.claimed?]
  | lost h =>
    rcases h with ⟨htaken, -⟩ | h
    · exact absurd (halone.symm.trans htaken) Bool.false_ne_true
    · obtain ⟨-, rfl, -⟩ | ⟨hwon, -⟩ := MemoryStore.claim_ok h
      · simp [Point.handed?, Point.weight, Point.claimed?]
      · cases hwon
  | @won s' j b h =>
    have hclaim := MemoryStore.weight_of_claim k.retry (hready j List.mem_cons_self)
      ((ht j.id).copies j List.mem_cons_self rfl) h
    have hpos := j.attemptsLeft_pos k.retry
    have hrest : (Point.processing { j with state := .running } b).weight k.retry =
        j.attemptsLeft k.retry - 1 := rfl
    rw [hrest, Point.weight_of_none rfl]
    simp only [Point.handed?, Option.toList_some, List.length_singleton]
    omega
  | settled j b => exact Nat.le_of_eq (Nat.zero_add _)
  | @committed s' j t b _ h =>
    obtain ⟨o, now, jitter, -, rfl⟩ := (ht j.id).decided j t b rfl rfl
    have hcommit := MemoryStore.weight_of_commit hmax ((ht j.id).held j rfl rfl) h
    rw [Point.weight_of_none (p := .picking b) rfl, Nat.add_zero]
    exact Nat.le_trans (Nat.le_of_eq (Nat.zero_add _)) hcommit
  | refused h =>
    obtain rfl := h.same trivial
    simp [Point.handed?, Point.weight, Point.claimed?]

/-! ## The steps between two claims -/

/-- The cycle waits for a permit, or is over. -/
def Point.rests (p : Point) : Bool := p.isWaiting || p.isFinal

/-- The steps from here to the next claim, or to the end; waiting does not
    count. -/
def Point.rank : Point → Nat
  | ended _ | panicked _ => 0
  | lookingAhead => 1
  | closing => 2
  | admission _ _ _ | suspended _ _ _ | claiming _ _ => 3
  | picking ⟨[], true⟩ => 7
  | picking _ => 4
  | fetching => 5
  | checking => 6
  | start => 7
  | committing _ _ _ => 8
  | processing _ _ => 9

theorem Point.rank_picking_le (b : Batch) : (Point.picking b).rank ≤ 7 := by
  unfold rank
  split <;> simp_all

theorem Point.le_rank_picking (b : Batch) : 3 ≤ (Point.picking b).rank := by
  unfold rank
  split <;> simp_all

theorem Point.rank_picking {b : Batch} (h : b ≠ ⟨[], true⟩) : (Point.picking b).rank = 4 := by
  unfold rank
  split <;> simp_all

namespace Passage

variable {stop : Bool} {m : Moment} {st st' : RunState} {p p' : Point}

/-- Waiting leads no further from the end. -/
theorem rank_le (h : Passage stop m st p st' p') (hp : p.rests = true) : p'.rank ≤ p.rank := by
  cases h with
  | unasked | admitted | suspended | again | waits => simp [Point.rank]
  | rests => exact Nat.le_refl _
  | failed _ _ hcall | panicked hcall =>
    cases p with
    | fetching | claiming | committing | lookingAhead => cases hp
    | _ => cases hcall
  | _ => cases hp

/-- Every other step leads closer to the end, unless it is a claim. -/
theorem rank_lt (h : Passage stop m st p st' p') (hp : p.rests = false)
    (hfetch : p = .fetching → p' ≠ .picking ⟨[], true⟩)
    (hclaim : ∀ j b, p = .claiming j b → p' ≠ .picking b) :
    p'.rank + 1 ≤ p.rank + 7 * (p.handed? p').toList.length := by
  cases h with
  | unasked | admitted | suspended | again | waits => cases hp
  | fetched b =>
    have hb : b ≠ ⟨[], true⟩ := fun hb => hfetch rfl (by rw [hb])
    rw [Point.rank_picking hb]
    simp [Point.rank]
  | lost => exact absurd rfl (hclaim _ _ rfl)
  | unpicked => exact Nat.le_add_right_of_le (Point.le_rank_picking _)
  | committed => exact Nat.le_add_right_of_le (Nat.succ_le_succ (Point.rank_picking_le _))
  | failed _ _ hcall | panicked hcall =>
    cases p with
    | fetching | claiming | committing | lookingAhead => simp [Point.rank, Point.handed?]
    | _ => cases hcall
  | rests hfinal =>
    cases p with
    | ended | panicked => cases hp
    | _ => cases hfinal
  | _ => simp [Point.rank, Point.handed?]

end Passage

namespace Cycle

variable {σ : Type} {k : ActorConfig} {m : Moment} {s : Shared σ} {a : Actor} {c : Cycle} {j : Job}

theorem point_cutShort_ne (f : Failure) (b : Batch) :
    (cutShort m s a c f).2.2.point ≠ .picking b := by
  cases f <;> exact Point.noConfusion

variable [JobStore σ]

/-- A batch is full of instances. -/
theorem point_fetch_ne : (fetch k m s a c).2.2.point ≠ .picking ⟨[], true⟩ := by
  simp only [fetch]
  split
  · exact point_cutShort_ne _ _
  · intro h
    obtain ⟨rfl, hfull⟩ := Batch.mk.inj (Point.picking.inj h)
    rw [Bool.not_eq_true', decide_eq_false_iff_not] at hfull
    exact hfull (Nat.lt_of_lt_of_le Nat.zero_lt_one (Nat.le_max_right ..))

/-- A claim that is not lost leads to the processor, or ends the cycle. -/
theorem point_claim_ne {b : Batch} (halone : m.claimLost = false)
    (h : ∀ s', JobStore.claim s.store a.key j.id j.state m.now ≠ (.ok false, s')) (b' : Batch) :
    (claim m s a c j b).2.2.point ≠ .picking b' := by
  simp only [claim, halone, Bool.false_eq_true, if_false]
  split
  · exact point_cutShort_ne _ _
  · exact Point.noConfusion
  · rename_i hcalled
    have hanswer := (answered_eq_ok.1 (congrArg Prod.fst hcalled)).2
    exact (h _ (Prod.ext hanswer rfl)).elim

end Cycle

/-! ## Runs -/

/-- The act is a step that is not spent waiting. -/
def Act.works (p : Point) : Act → Bool
  | .step _ _ => !p.rests
  | _ => false

namespace Drain

/-- The cycle after the first of some acts. -/
def course {σ : Type} [JobStore σ] (k : ActorConfig) (acts : Nat → Act) (d : Drain σ) :
    Nat → Drain σ
  | 0 => d
  | n + 1 => (d.course k acts n).act k (acts n)

/-- How many of the first acts are steps that are not spent waiting. -/
def worked {σ : Type} [JobStore σ] (k : ActorConfig) (acts : Nat → Act) (d : Drain σ) : Nat → Nat
  | 0 => 0
  | n + 1 => d.worked k acts n +
    if (acts n).works (d.course k acts n).cycle.point then 1 else 0

/-- Again and again the cycle takes a step, and is not kept waiting. -/
def GoesOn {σ : Type} [JobStore σ] (k : ActorConfig) (acts : Nat → Act) (d : Drain σ) : Prop :=
  ∀ n, ∃ n' size m, n ≤ n' ∧ acts n' = .step size m ∧
    (d.course k acts n').cycle.point.isWaiting = false

section

variable {k : ActorConfig} {key : Key} {d : Drain MemoryStore} {a : Act} {acts : Nat → Act}

/-- What holds of a cycle that is alone with its store. -/
structure Undisturbed (k : ActorConfig) (key : Key) (d : Drain MemoryStore) : Prop where
  tracked : ∀ i, d.Tracked (fun _ => True) k key i
  ready : ∀ j ∈ d.cycle.point.ahead, key.isReadyState j.state = true

/-- The attempts that are left. -/
def weight (k : ActorConfig) (key : Key) (d : Drain MemoryStore) : Nat :=
  d.shared.store.weight k.retry key + d.cycle.point.weight k.retry

/-- The steps that are left, if none is spent waiting. -/
def rank (k : ActorConfig) (key : Key) (d : Drain MemoryStore) : Nat :=
  7 * d.weight k key + d.cycle.point.rank

theorem Fresh.undisturbed (h : d.Fresh key) : d.Undisturbed k key where
  tracked _ := h.tracked
  ready j hj := by
    rw [h.point] at hj
    cases hj

namespace Undisturbed

theorem act (h : d.Undisturbed k key) (ha : a.IsUndisturbed) : (d.act k a).Undisturbed k key where
  tracked i := (act_tracked (h.tracked i) (by cases a <;> simp [Answers])).1
  ready := by
    cases a with
    | step n m =>
      exact ((h.tracked 0).edge n m).forall_ahead (fun _ => id) (h.tracked 0).tracks.serves h.ready
    | begin | insert => exact ha.elim
    | around | markStopped | requestStop => exact h.ready

theorem weight_act (h : d.Undisturbed k key) (ha : a.IsUndisturbed)
    (hmax : k.retry.maxRetries.toNat < Nat.pow 2 32 - 1) :
    (d.act k a).handed.length + (d.act k a).weight k key ≤ d.handed.length + d.weight k key := by
  cases a with
  | step n m =>
    have hedge := ((h.tracked 0).edge n m).weight_le ha hmax (fun i => (h.tracked i).tracks) h.ready
    have hhanded : (d.act k (.step n m)).handed.length = d.handed.length +
        (d.cycle.point.handed? (d.act k (.step n m)).cycle.point).toList.length :=
      List.length_append
    simp only [weight]
    omega
  | begin | insert => exact ha.elim
  | around | markStopped | requestStop => exact Nat.le_refl _

/-- Where nobody else claims, no claim is lost. -/
theorem claim_ne (h : d.Undisturbed k key) {j : Job} {b : Batch}
    (hp : d.cycle.point = .claiming j b) (now : Instant) (s' : MemoryStore) :
    JobStore.claim d.shared.store d.actor.key j.id j.state now ≠ (.ok false, s') := by
  intro hlost
  rw [(h.tracked j.id).ofKey] at hlost
  have htracks := (h.tracked j.id).tracks
  obtain ⟨r, hr, hstate, -⟩ := htracks.copies j (by rw [hp]; exact List.mem_cons_self) rfl
  exact (claim_lost htracks.serves hlost).2.2 r hr hstate

/-- A step that is not spent waiting brings the end closer. -/
theorem rank_act (h : d.Undisturbed k key) (ha : a.IsUndisturbed)
    (hmax : k.retry.maxRetries.toNat < Nat.pow 2 32 - 1) :
    (d.act k a).rank k key + (if a.works d.cycle.point then 1 else 0) ≤ d.rank k key := by
  cases a with
  | step n m =>
    have hedge := ((h.tracked 0).edge n m).weight_le ha hmax (fun i => (h.tracked i).tracks) h.ready
    have hpass := d.cycle.step_passage { k with batchSize := n } m d.shared d.actor
    simp only [rank, weight, Act.works, Bool.not_eq_true']
    split
    case isTrue hrests =>
      have hlt : (d.act k (.step n m)).cycle.point.rank + 1 ≤ d.cycle.point.rank +
          7 * (d.cycle.point.handed? (d.act k (.step n m)).cycle.point).toList.length := by
        refine hpass.rank_lt hrests (fun hp => ?_) fun j b hp => ?_
        · simp only [Cycle.step, hp]
          exact Cycle.point_fetch_ne
        · simp only [Cycle.step, hp]
          exact Cycle.point_claim_ne ha (h.claim_ne hp m.now) b
      omega
    case isFalse hrests =>
      have hle : (d.act k (.step n m)).cycle.point.rank ≤ d.cycle.point.rank :=
        hpass.rank_le (Bool.not_eq_false _ ▸ hrests)
      omega
  | begin | insert => exact ha.elim
  | around | markStopped | requestStop => exact Nat.le_refl _

/-- What no act takes away, and no act adds to. -/
theorem course (h : d.Undisturbed k key) (hacts : ∀ n, (acts n).IsUndisturbed)
    (hmax : k.retry.maxRetries.toNat < Nat.pow 2 32 - 1) (n : Nat) :
    (d.course k acts n).Undisturbed k key ∧
      (d.course k acts n).handed.length + (d.course k acts n).weight k key ≤
        d.handed.length + d.weight k key ∧
      (d.course k acts n).rank k key + d.worked k acts n ≤ d.rank k key := by
  induction n with
  | zero => exact ⟨h, Nat.le_refl _, Nat.le_refl _⟩
  | succ n ih =>
    obtain ⟨hn, hweight, hrank⟩ := ih
    refine ⟨hn.act (hacts n), Nat.le_trans (hn.weight_act (hacts n) hmax) hweight, ?_⟩
    have hstep := hn.rank_act (hacts n) hmax
    simp only [Drain.course, worked]
    omega

end Undisturbed

/-- A cycle that is over stays so. -/
theorem isFinal_act (ha : a.IsUndisturbed) (h : d.cycle.point.isFinal = true) :
    (d.act k a).cycle.point.isFinal = true := by
  cases a with
  | step n m =>
    cases hp : d.cycle.point with
    | ended | panicked => simp [Drain.act, Drain.step, Cycle.step, hp, Point.isFinal]
    | _ =>
      rw [hp] at h
      cases h
  | begin | insert => exact ha.elim
  | around | markStopped | requestStop => exact h

theorem isFinal_course (hacts : ∀ n, (acts n).IsUndisturbed) {n n' : Nat} (hn : n ≤ n')
    (h : (d.course k acts n).cycle.point.isFinal = true) :
    (d.course k acts n').cycle.point.isFinal = true := by
  induction n', hn using Nat.le_induction with
  | base => exact h
  | succ n' _ ih => exact isFinal_act (hacts n') ih

theorem worked_mono (k : ActorConfig) (acts : Nat → Act) (d : Drain MemoryStore) {n n' : Nat}
    (hn : n ≤ n') : d.worked k acts n ≤ d.worked k acts n' := by
  induction n', hn using Nat.le_induction with
  | base => exact Nat.le_refl _
  | succ n' _ ih => exact Nat.le_add_right_of_le ih

/-- A cycle that goes on works any number of steps, or comes to its end. -/
theorem GoesOn.worked (h : d.GoesOn k acts) (count : Nat) :
    ∃ n, count ≤ d.worked k acts n ∨ (d.course k acts n).cycle.point.isFinal = true := by
  induction count with
  | zero => exact ⟨0, .inl (Nat.zero_le _)⟩
  | succ count ih =>
    obtain ⟨n, hcount | hfinal⟩ := ih
    · obtain ⟨n', size, m, hn, hact, hwaits⟩ := h n
      cases hfinal : (d.course k acts n').cycle.point.isFinal with
      | true => exact ⟨n', .inr hfinal⟩
      | false =>
        refine ⟨n' + 1, .inl ?_⟩
        have hmono := worked_mono k acts d hn
        have hworks : (acts n').works (d.course k acts n').cycle.point = true := by
          rw [hact, Act.works, Point.rests, hwaits, hfinal]
          rfl
        rw [Drain.worked, if_pos hworks]
        omega
    · exact ⟨n, .inr hfinal⟩

/-- **Every drain cycle ends.**  A cycle that is alone with a store in memory
    calls the processor no more often than the instances in a ready state have
    attempts left, whatever the processor answers, the clock shows and the batch
    sizes are.  The steps that it does not spend waiting are bounded as well, so
    it ends unless it is kept waiting for ever. -/
theorem drain_bounded (hmax : k.retry.maxRetries.toNat < Nat.pow 2 32 - 1) (h : d.Fresh key)
    (hacts : ∀ n, (acts n).IsUndisturbed) :
    (∀ n, (d.course k acts n).handed.length ≤ d.shared.store.attemptsLeft k.retry key) ∧
    (∀ n, d.worked k acts n ≤ 7 * (d.shared.store.attemptsLeft k.retry key + 1)) ∧
    (d.GoesOn k acts → ∃ n, ∀ n', n ≤ n' → (d.course k acts n').cycle.point.isFinal = true) := by
  have hweight : d.weight k key ≤ d.shared.store.attemptsLeft k.retry key := by
    rw [weight, h.point, Point.weight_of_none rfl]
    exact MemoryStore.weight_le_attemptsLeft
  have hworked (n : Nat) :
      d.worked k acts n ≤ 7 * (d.shared.store.attemptsLeft k.retry key + 1) := by
    have hrank := (h.undisturbed.course hacts hmax n).2.2
    have hstart : d.rank k key = 7 * d.weight k key + 7 := by
      rw [rank, h.point]
      rfl
    omega
  refine ⟨fun n => ?_, hworked, fun hgoes => ?_⟩
  · have hhanded := (h.undisturbed.course hacts hmax n).2.1
    rw [h.handed, List.length_nil] at hhanded
    omega
  · obtain ⟨n, hcount | hfinal⟩ :=
      hgoes.worked (7 * (d.shared.store.attemptsLeft k.retry key + 1) + 1)
    · have := hworked n
      omega
    · exact ⟨n, fun n' hn => isFinal_course hacts hn hfinal⟩

end

/-- A first cycle for an instance that is due. -/
def oneToTry : Drain MemoryStore where
  shared :=
    { store := MemoryStore.empty.append { jobRef := "job", dueAt := .epoch } .epoch
      pool := .ofConfig {} }
  actor := { key := { name := "jobs" } }

/-- Each batch is full with it, and each answer asks for another try at once. -/
def askingAgain (_ : Nat) : Act :=
  .step 1 { now := .ofMillis 1000, processing := .answered (.retry "again" (some .epoch)) }

/-- With two retries there are three calls in the cycle, as many as there may
    be. -/
theorem drain_bounded_when_asking_again :
    let k : ActorConfig := { retry := .withMaxRetries 2 }
    let key : Key := { name := "jobs" }
    oneToTry.shared.store.attemptsLeft k.retry key = 3 ∧
      (oneToTry.course k askingAgain 40).handed.map (·.failureCount) = [0, 1, 2] ∧
      (∀ n, (oneToTry.course k askingAgain n).handed.length ≤ 3) ∧
      (∀ n, oneToTry.worked k askingAgain n ≤ 28) ∧
      ∃ n, ∀ n', n ≤ n' → (oneToTry.course k askingAgain n').cycle.point.isFinal = true := by
  intro k key
  have hacts (n : Nat) : (askingAgain n).IsUndisturbed := rfl
  have hleft : oneToTry.shared.store.attemptsLeft k.retry key = 3 := by decide +kernel
  have hover : (oneToTry.course k askingAgain 40).cycle.point.isFinal = true := by decide +kernel
  have hgoes : oneToTry.GoesOn k askingAgain := fun n => by
    refine ⟨max n 40, 1, _, Nat.le_max_left .., rfl, ?_⟩
    have := isFinal_course hacts (Nat.le_max_right n 40) hover
    cases hp : (oneToTry.course k askingAgain (max n 40)).cycle.point with
    | admission | suspended =>
      rw [hp] at this
      cases this
    | _ => rfl
  have hfresh : oneToTry.Fresh key := ⟨trivial, rfl, rfl, rfl⟩
  obtain ⟨hhanded, hworked, hends⟩ := drain_bounded (k := k) (by decide) hfresh hacts
  rw [hleft] at hhanded hworked
  exact ⟨hleft, by decide +kernel, hhanded, hworked, hends hgoes⟩

end Drain

end DueWork
