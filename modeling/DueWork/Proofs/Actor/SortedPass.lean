/-
  A drain cycle is one pass over what is ready, in the order of due times and
  ids.

  The pass takes the ready instances of a store one after the other, hands
  each to the processor and commits the outcome (`served`).  A cycle fetches
  them batch by batch from a store that its own commits change; what carries
  the proof is that the rest of its batch always begins the list of what is
  ready now, and is that list if the batch was not full (`Begins`).  So the
  size of the batches shows neither in the order nor in the store.
-/
import DueWork.Proofs.Actor.Drain
import DueWork.Proofs.Store.Ready

namespace DueWork

open Time

/-- An instance as the processor gets it. -/
def Job.running (j : Job) : Job := { j with state := .running }

namespace Drain

section

variable (k : ActorConfig) (P : Processor) (now : Instant)

/-- The store after these instances were served, one after the other, by a
    processor that had answered these calls before. -/
def served (s : MemoryStore) (h : List Job) : List Job → MemoryStore
  | [] => s
  | j :: js =>
    let h := h ++ [j.running]
    served (s.updateAt j.id (verdict k P now h j.running).apply fun _ => rfl) h js

/-- Whichever of these instances is deferred is deferred to a time after `now`. -/
def DefersLater (h js : List Job) : Prop :=
  ∀ pre j post, js = pre ++ j :: post → ∀ due,
    (verdict k P now (h ++ (pre ++ [j]).map Job.running) j.running).dueAt = some due → now < due

/-- A cycle went once over what was ready in the store that it found. -/
structure WentOver (key : Key) (s : MemoryStore) (d : Drain MemoryStore) (r : Report) : Prop where
  ended : d.cycle.point = .ended (.ok r)
  /-- the ready instances went to the processor, in strict order of due times
      and ids -/
  handed_iff : ∀ j, j ∈ d.handed ↔ ∃ i ∈ s.jobs, key.isReady i now = true ∧ j = i.running
  inOrder : d.handed.Pairwise Job.Before
  /-- and each outcome was committed -/
  handed : d.handed = (s.ready key now).map Job.running
  store : d.shared.store = served k P now s [] (s.ready key now)
  fetched : r.fetched = d.handed.length
  claimed : r.claimed = d.handed.length
  lostClaims : r.lostClaims = 0
  outcomes : r.done + r.failed + r.deferred = r.claimed
  stopped : r.stopped = false
  /-- the least due time that is left in a ready state -/
  nextDue : ∀ due, r.nextDue = some due → now < due ∧
    (∃ j, d.shared.store.IsWaiting key j ∧ j.dueAt = due) ∧
    ∀ j, d.shared.store.IsWaiting key j → due ≤ j.dueAt
  noneDue : r.nextDue = none → ∀ j, ¬d.shared.store.IsWaiting key j

end

section

variable {k : ActorConfig} {P : Processor} {now : Instant} {key : Key}

theorem defersLater_nil {h : List Job} : DefersLater k P now h [] := by
  intro pre j post hjs
  exact absurd hjs.symm (by simp)

theorem defersLater_cons {h js : List Job} {j : Job} : DefersLater k P now h (j :: js) ↔
    (∀ due, (verdict k P now (h ++ [j.running]) j.running).dueAt = some due → now < due) ∧
      DefersLater k P now (h ++ [j.running]) js := by
  constructor
  · intro hl
    refine ⟨hl [] j js rfl, fun pre j' post hjs due hdue => ?_⟩
    refine hl (j :: pre) j' post (by rw [hjs]; rfl) due ?_
    rw [← hdue]
    simp
  · rintro ⟨hhead, htail⟩ pre j' post hjs due hdue
    rcases List.cons_eq_append_iff.1 hjs with ⟨rfl, hpost⟩ | ⟨pre', rfl, hjs'⟩
    · cases hpost
      exact hhead due hdue
    · refine htail pre' j' post hjs' due ?_
      rw [← hdue]
      simp

/-! ## One instance -/

/-- An instance that a verdict finished, or deferred to a time after `now`, is
    not ready. -/
theorem not_isReady_verdict (hkey : key.build = .ok key) {h : List Job} {i j : Job}
    (hlater : ∀ due, (verdict k P now h i).dueAt = some due → now < due) :
    key.isReady ((verdict k P now h i).apply j) now = false := by
  rw [Bool.eq_false_iff]
  intro hready
  simp only [Key.isReady, Bool.and_eq_true, decide_eq_true_eq] at hready
  obtain ⟨⟨-, hstate⟩, hdue⟩ := hready
  have hclaimable := Key.isClaimable_of_isReadyState hkey hstate
  rcases Outcome.transition_cases _ k.retry now (P h).2 i with hs | hs | ⟨-, ⟨due, hs⟩, -⟩
  · rw [Transition.apply, verdict, hs] at hclaimable
    cases hclaimable
  · rw [Transition.apply, verdict, hs] at hclaimable
    cases hclaimable
  · rw [Transition.apply, verdict, hs, Option.getD_some] at hdue
    exact Instant.not_le.2 (hlater due hs) hdue

variable {s : MemoryStore} {j : Job} {h : List Job}

theorem claim_ready (hkey : key.build = .ok key) (hj : j ∈ s.ready key now) :
    JobStore.claim s key j.id j.state now =
      (.ok true, s.updateAt j.id (MemoryStore.markClaimed now) fun _ => rfl) := by
  obtain ⟨hmem, hready⟩ := MemoryStore.mem_ready.1 hj
  simp only [Key.isReady, Bool.and_eq_true] at hready
  show s.claim key j.id j.state now = _
  rw [MemoryStore.claim_eq, Store.requireClaimable,
    if_pos (Key.isClaimable_of_isReadyState hkey hready.1.2),
    MemoryStore.find?_eq_some.2 ⟨hmem, rfl⟩]
  simp [hready.1.1]

/-- A claim and a commit together change an instance by the transition. -/
theorem commit_claimed {t : Transition} (hj : j ∈ s.jobs) (ht : Store.requireOutcome t = .ok ()) :
    JobStore.commit (s.updateAt j.id (MemoryStore.markClaimed now) fun _ => rfl) key j.id t now =
      (.ok (), s.updateAt j.id t.apply fun _ => rfl) := by
  have hfind : (s.updateAt j.id (MemoryStore.markClaimed now) fun _ => rfl).find? j.id =
      some (MemoryStore.markClaimed now j) := by
    refine MemoryStore.find?_updateAt.trans ((if_pos rfl).trans ?_)
    rw [MemoryStore.find?_eq_some.2 ⟨hj, rfl⟩]
    rfl
  refine (MemoryStore.commit_running ht hfind rfl).trans ?_
  rw [MemoryStore.updateAt_markClaimed_apply]

/-- The counts of a report after some instances were served and some more of
    the batch were fetched. -/
structure Tallies (r : Report) (served rest : Nat) : Prop where
  fetched : r.fetched = served + rest
  claimed : r.claimed = served
  lostClaims : r.lostClaims = 0
  outcomes : r.done + r.failed + r.deferred = served
  stopped : r.stopped = false

theorem Tallies.counted {r : Report} {m n : Nat} (hr : Tallies r m (n + 1)) :
    Tallies (counted { r with claimed := r.claimed + 1 } (verdict k P now h j).state) (m + 1) n := by
  obtain ⟨hf, hc, hl, ho, hs⟩ := hr
  rcases Outcome.transition_cases _ k.retry now (P h).2 j with hv | hv | ⟨hv, -⟩ <;>
    rw [verdict, hv] <;> constructor <;> simp only [Drain.counted] <;> first | assumption | omega

/-! ## The cycle -/

variable {e : Nat → Around} {d : Drain MemoryStore} {r : Report} {js rest : List Job} {full : Bool}

/-- The first of a batch is served, and the others are still ready. -/
theorem passes_served (hkey : key.build = .ok key) (hgrant : Granted (quietRun k P now e d))
    (hready : s.ready key now = j :: rest)
    (hd : Passes (quietRun k P now e d) key s h (.picking ⟨j :: js, full⟩) r) :
    Passes (quietRun k P now e d) key
      (s.updateAt j.id (verdict k P now (h ++ [j.running]) j.running).apply fun _ => rfl)
      (h ++ [j.running]) (.picking ⟨js, full⟩)
      (counted { r with claimed := r.claimed + 1 }
        (verdict k P now (h ++ [j.running]) j.running).state) := by
  have hj : j ∈ s.ready key now := hready ▸ List.mem_cons_self
  obtain ⟨n, hasks⟩ := hd.next stands_picking_cons
  have hclaiming := claiming_of_granted hgrant ⟨0, .inl hasks⟩
  have hprocessing := hclaiming.next fun hd => stands_claiming hd (claim_ready hkey hj)
  have hcommitting := hprocessing.next stands_processing
  exact hcommitting.next fun hd => stands_committing hd
    (commit_claimed (MemoryStore.mem_ready.1 hj).1 (Outcome.requireOutcome_transition _))

/-- What is ready begins with the rest of the batch, and is that if the batch
    was not full. -/
structure Begins (rest js : List Job) (full : Bool) : Prop where
  starts : js <+: rest
  whole : full = false → js = rest

/-- A fetch takes what is ready, as far as the batch goes. -/
theorem passes_fetched (hready : s.ready key now = rest) (hr : Tallies r h.length 0)
    (hd : Passes (quietRun k P now e d) key s h .checking r) :
    ∃ js full r', Passes (quietRun k P now e d) key s h (.picking ⟨js, full⟩) r' ∧
      Begins rest js full ∧ Tallies r' h.length js.length ∧
      (js = [] → full = false ∧ rest = []) := by
  have hfetch : JobStore.fetchReady s key now (max k.batchSize 1) =
      .ok (rest.take (max k.batchSize 1)) := by rw [← hready]; rfl
  have hlength : (rest.take (max k.batchSize 1)).length = min (max k.batchSize 1) rest.length :=
    List.length_take
  have hpos : 0 < max k.batchSize 1 := by omega
  refine ⟨_, _, _, (hd.next stands_checking).next fun hd => stands_fetching hd hfetch,
    ⟨List.take_prefix .., ?_⟩, ?_, ?_⟩
  · intro hshort
    simp only [Bool.not_eq_eq_eq_not, Bool.not_false, decide_eq_true_eq] at hshort
    exact List.take_of_length_le (by omega)
  · obtain ⟨hf, hc, hl, ho, hs⟩ := hr
    exact ⟨by simpa using hf, hc, hl, ho, hs⟩
  · intro hnil
    rw [hnil, List.length_nil] at hlength ⊢
    exact ⟨by simp [hpos], List.eq_nil_of_length_eq_zero (by omega)⟩

/-- Where a batch is used up there is nothing left, or there are instances in
    the next one. -/
theorem passes_filled (hready : s.ready key now = rest) (hbegins : Begins rest js full)
    (hr : Tallies r h.length js.length)
    (hd : Passes (quietRun k P now e d) key s h (.picking ⟨js, full⟩) r) :
    ∃ js' full' r', Passes (quietRun k P now e d) key s h (.picking ⟨js', full'⟩) r' ∧
      Begins rest js' full' ∧ Tallies r' h.length js'.length ∧
      (js' = [] → full' = false ∧ rest = []) := by
  cases js with
  | cons j js => exact ⟨j :: js, full, r, hd, hbegins, hr, by simp⟩
  | nil =>
    cases full with
    | false => exact ⟨[], false, r, hd, hbegins, hr, fun _ => ⟨rfl, (hbegins.whole rfl).symm⟩⟩
    | true => exact passes_fetched hready hr (hd.next stands_picking_full)

theorem passes_ended (hd : Passes (quietRun k P now e d) key s h (.picking ⟨[], false⟩) r) :
    Passes (quietRun k P now e d) key s h (.ended (.ok { r with nextDue := s.nextDue key }))
      { r with nextDue := s.nextDue key } :=
  ((hd.next stands_picking_last).next stands_closing).next fun hd => stands_lookingAhead hd rfl

/-- From a batch on, the cycle serves all that is ready and ends. -/
theorem passes_all (hkey : key.build = .ok key) (hgrant : Granted (quietRun k P now e d))
    (hready : s.ready key now = rest) (hlater : DefersLater k P now h rest)
    (hbegins : Begins rest js full) (hr : Tallies r h.length js.length)
    (hd : Passes (quietRun k P now e d) key s h (.picking ⟨js, full⟩) r) :
    ∃ r', Tallies r' (h.length + rest.length) 0 ∧
      (served k P now s h rest).ready key now = [] ∧
      r'.nextDue = (served k P now s h rest).nextDue key ∧
      Passes (quietRun k P now e d) key (served k P now s h rest) (h ++ rest.map Job.running)
        (.ended (.ok r')) r' := by
  induction rest generalizing s h js full r with
  | nil =>
    obtain ⟨js', full', r', hd', hbegins', hr', hnil⟩ := passes_filled hready hbegins hr hd
    have hjs : js' = [] := List.prefix_nil.1 hbegins'.starts
    obtain ⟨rfl, -⟩ := hnil hjs
    subst hjs
    obtain ⟨hf, hc, hl, ho, hs⟩ := hr'
    refine ⟨{ r' with nextDue := s.nextDue key }, ⟨hf, hc, hl, ho, hs⟩, hready, rfl, ?_⟩
    rw [List.map_nil, List.append_nil]
    exact passes_ended hd'
  | cons j rest ih =>
    obtain ⟨js', full', r', hd', hbegins', hr', hnil⟩ := passes_filled hready hbegins hr hd
    cases js' with
    | nil => cases (hnil rfl).2
    | cons i js' =>
      obtain ⟨hi, hstarts⟩ := List.cons_prefix_cons.1 hbegins'.starts
      subst hi
      have hserved := passes_served hkey hgrant hready hd'
      have hleft : (s.updateAt i.id (verdict k P now (h ++ [i.running]) i.running).apply
          fun _ => rfl).ready key now = rest :=
        MemoryStore.ready_updateAt hready (not_isReady_verdict hkey (defersLater_cons.1 hlater).1)
      have hbegins'' : Begins rest js' full' :=
        ⟨hstarts, fun hf => (List.cons.inj (hbegins'.whole hf)).2⟩
      obtain ⟨r'', htallies, hempty, hdue, hended⟩ := ih hleft (defersLater_cons.1 hlater).2 hbegins''
        (by rw [List.length_append]; exact hr'.counted) hserved
      refine ⟨r'', ?_, hempty, hdue, ?_⟩
      · rw [List.length_append] at htallies
        simpa [Nat.add_comm, Nat.add_left_comm, Nat.add_assoc] using htallies
      · rw [List.append_assoc] at hended
        exact hended

/-- A batch size does not matter for what is served. -/
theorem served_batchSize {n : Nat} :
    served { k with batchSize := n } P now s h js = served k P now s h js := by
  induction js generalizing s h with
  | nil => rfl
  | cons j js ih => exact ih

/-- A drain cycle of an actor that is not stopped and gets its permits is one
    sorted pass, whatever the size of the batches. -/
theorem drain_cycle_is_one_sorted_pass (hkey : key.build = .ok key)
    (hlater : DefersLater k P now [] (s.ready key now)) (n : Nat)
    (hstart : d.Stands key s [] .start {})
    (hgrant : Granted (quietRun { k with batchSize := n } P now e d)) :
    ∃ m r, WentOver k P now key s (quietRun { k with batchSize := n } P now e d m) r := by
  have hfirst : Passes (quietRun { k with batchSize := n } P now e d) key s [] .start {} :=
    ⟨0, hstart⟩
  obtain ⟨js, full, r₀, hbatch, hbegins, htallies₀, -⟩ :=
    passes_fetched rfl ⟨rfl, rfl, rfl, rfl, rfl⟩ (hfirst.next stands_start)
  obtain ⟨r, htallies, hempty, hdue, m, hm⟩ :=
    passes_all hkey hgrant rfl hlater hbegins htallies₀ hbatch
  rw [served_batchSize] at hempty hdue hm
  rw [List.nil_append] at hm
  refine ⟨m, r, ⟨hm.point, ?_, ?_, hm.handed, hm.store, ?_, ?_, htallies.lostClaims, ?_,
    htallies.stopped, ?_, ?_⟩⟩
  · intro j
    rw [hm.handed, List.mem_map]
    simp only [MemoryStore.mem_ready]
    constructor
    · rintro ⟨i, ⟨his, hready⟩, rfl⟩
      exact ⟨i, his, hready, rfl⟩
    · rintro ⟨i, his, hready, rfl⟩
      exact ⟨i, ⟨his, hready⟩, rfl⟩
  · rw [hm.handed, List.pairwise_map]
    exact MemoryStore.ready_pairwise
  · rw [htallies.fetched, hm.handed, List.length_map, List.length_nil]
    omega
  · rw [htallies.claimed, hm.handed, List.length_map, List.length_nil]
    omega
  · rw [htallies.outcomes, htallies.claimed]
  · intro due hr
    rw [hm.store]
    rw [hdue] at hr
    obtain ⟨⟨j, hj, hjdue⟩, hleast⟩ := MemoryStore.nextDue_eq_some hr
    exact ⟨hjdue ▸ MemoryStore.lt_dueAt_of_ready_nil hempty hj, ⟨j, hj, hjdue⟩, hleast⟩
  · intro hr
    rw [hm.store]
    exact MemoryStore.nextDue_eq_none (hdue ▸ hr)

/-- Three instances: the second one is due first, and the third one last. -/
def threeJobs : MemoryStore :=
  let job (seconds : Int) : NewJob := { jobRef := "job", dueAt := .ofMillis (seconds * 1000) }
  ((MemoryStore.empty.append (job 5) .epoch).append (job 3) .epoch).append (job 9) .epoch

/-- The first call takes too long, and the others are done. -/
def slowAtFirst : Processor := fun calls =>
  (if calls.length = 1 then .timedOut else .answered (.done none), 0)

/-- After six seconds two instances are served in batches of one. -/
theorem drain_cycle_of_threeJobs :
    let key : Key := { name := "jobs" }
    let k : ActorConfig := { batchSize := 1 }
    let d : Drain MemoryStore :=
      { shared := ⟨threeJobs, .ofConfig {}, {}⟩, actor := { key := key }, handed := [] }
    ∃ m r, WentOver k slowAtFirst (.ofMillis 6000) key threeJobs
      (quietRun k slowAtFirst (.ofMillis 6000) (fun _ => { pool := .ofConfig {} }) d m) r := by
  intro key k d
  have hkey : key.build = .ok key := by decide +kernel
  let job (id seconds : Int) : Job :=
    NewJob.toJob { jobRef := "job", dueAt := .ofMillis (seconds * 1000) } id .epoch
  have hready : threeJobs.ready key (.ofMillis 6000) = [job 2 3, job 1 5] := by
    have hfilter : threeJobs.jobs.filter (key.isReady · (.ofMillis 6000)) = [job 1 5, job 2 3] := by
      decide +kernel
    refine MemoryStore.ready_eq (by decide +kernel) fun j => ?_
    have hmem : j ∈ [job 1 5, job 2 3] ↔ _ := hfilter ▸ List.mem_filter
    rw [← hmem, List.mem_pair, List.mem_pair, or_comm]
  have ha : (verdict k slowAtFirst (.ofMillis 6000) [(job 2 3).running] (job 2 3).running).dueAt =
      some (.ofMillis 7000) := by decide +kernel
  have hb : (verdict k slowAtFirst (.ofMillis 6000) [(job 2 3).running, (job 1 5).running]
      (job 1 5).running).dueAt = none := by decide +kernel
  have hlater : DefersLater k slowAtFirst (.ofMillis 6000) [] (threeJobs.ready key (.ofMillis 6000)) := by
    rw [hready]
    refine defersLater_cons.2 ⟨?_, defersLater_cons.2 ⟨?_, defersLater_nil⟩⟩
    · intro due hdue
      cases ha.symm.trans hdue
      decide
    · intro due hdue
      cases hb.symm.trans hdue
  exact drain_cycle_is_one_sorted_pass hkey hlater 1 ⟨rfl, rfl, rfl, rfl, rfl, rfl⟩
    (granted_of_free (fun _ => by decide) fun _ => rfl)

end

end Drain

end DueWork
