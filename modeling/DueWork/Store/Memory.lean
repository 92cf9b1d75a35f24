/-
  A store in memory.

  The instances are kept in the order of their ids, each id once, and no id
  is above the last one given out, so a new id is always the next number.

  * `ready` lists what is due by due time and id; counting and fetching read
    it, and `nextDue` is the least due time of the ready states;
  * `update` changes instances in place and keeps their ids.
-/
import DueWork.Store.Contract

namespace DueWork

open Time

/-- Job instances by id. -/
structure MemoryStore where
  jobs : List Job
  /-- the largest id ever used -/
  lastId : Int
  sorted : jobs.Pairwise fun a b => a.id < b.id
  id_le : ∀ j ∈ jobs, j.id ≤ lastId

namespace MemoryStore

/-- The store without instances. -/
def empty : MemoryStore := ⟨[], 0, .nil, by simp⟩

instance : Inhabited MemoryStore := ⟨empty⟩

/-- The instance with this id. -/
def find? (s : MemoryStore) (id : Int) : Option Job := s.jobs.find? (·.id == id)

/-- Change instances in place; their ids stay. -/
def update (s : MemoryStore) (f : Job → Job) (keepsId : ∀ j, (f j).id = j.id) : MemoryStore where
  jobs := s.jobs.map f
  lastId := s.lastId
  sorted := by
    rw [List.pairwise_map]
    exact s.sorted.imp fun {a b} h => by rw [keepsId a, keepsId b]; exact h
  id_le := by
    intro j hj
    obtain ⟨i, hi, rfl⟩ := List.mem_map.1 hj
    rw [keepsId]; exact s.id_le i hi

/-- Change the instance with this id. -/
def updateAt (s : MemoryStore) (id : Int) (f : Job → Job) (keepsId : ∀ j, (f j).id = j.id) :
    MemoryStore :=
  s.update (fun j => if j.id = id then f j else j) fun j => by
    split
    · exact keepsId j
    · rfl

/-- Add an instance under the next id. -/
def append (s : MemoryStore) (job : NewJob) (now : Instant) : MemoryStore where
  jobs := s.jobs ++ [job.toJob (s.lastId + 1) now]
  lastId := s.lastId + 1
  sorted := by
    rw [List.pairwise_append]
    refine ⟨s.sorted, by simp, fun a ha b hb => ?_⟩
    have h := s.id_le a ha
    simp only [List.mem_singleton] at hb
    subst hb
    show a.id < s.lastId + 1
    omega
  id_le := by
    intro j hj
    rcases List.mem_append.1 hj with h | h
    · have := s.id_le j h; omega
    · simp only [List.mem_singleton] at h
      subst h
      exact Int.le_refl _

/-- Put an instance in its place, replacing one with its id. -/
def insertJob (job : Job) : List Job → List Job
  | [] => [job]
  | j :: js =>
    if job.id < j.id then job :: j :: js
    else if job.id = j.id then job :: js
    else j :: insertJob job js

theorem mem_insertJob {job j : Job} {js : List Job} (h : j ∈ insertJob job js) :
    j = job ∨ j ∈ js := by
  induction js with
  | nil => simpa [insertJob] using h
  | cons x xs ih =>
    simp only [insertJob] at h
    split at h
    · simpa using h
    · split at h
      · rcases List.mem_cons.1 h with h | h
        · exact .inl h
        · exact .inr (List.mem_cons_of_mem _ h)
      · rcases List.mem_cons.1 h with h | h
        · exact .inr (h ▸ List.mem_cons_self ..)
        · exact (ih h).imp_right (List.mem_cons_of_mem _)

theorem sorted_insertJob {job : Job} {js : List Job} (h : js.Pairwise fun a b => a.id < b.id) :
    (insertJob job js).Pairwise fun a b => a.id < b.id := by
  induction js with
  | nil => simp [insertJob]
  | cons x xs ih =>
    have hx := List.pairwise_cons.1 h
    simp only [insertJob]
    split
    · rename_i hlt
      refine List.pairwise_cons.2 ⟨fun b hb => ?_, h⟩
      rcases List.mem_cons.1 hb with rfl | hb
      · exact hlt
      · have := hx.1 b hb; omega
    · split
      · rename_i heq
        exact List.pairwise_cons.2 ⟨fun b hb => heq ▸ hx.1 b hb, hx.2⟩
      · refine List.pairwise_cons.2 ⟨fun b hb => ?_, ih hx.2⟩
        rcases mem_insertJob hb with rfl | hb
        · omega
        · exact hx.1 b hb

/-- Store an instance as it is, whatever the lifecycle says. -/
def put (s : MemoryStore) (job : Job) : MemoryStore where
  jobs := insertJob job s.jobs
  lastId := max s.lastId job.id
  sorted := sorted_insertJob s.sorted
  id_le := by
    intro j hj
    rcases mem_insertJob hj with rfl | hj
    · exact Int.le_max_right ..
    · exact Int.le_trans (s.id_le j hj) (Int.le_max_left ..)

/-- Delete an instance; its id is not used again. -/
def erase (s : MemoryStore) (id : Int) : MemoryStore where
  jobs := s.jobs.filter (·.id != id)
  lastId := s.lastId
  sorted := s.sorted.filter _
  id_le := fun j hj => s.id_le j (List.mem_filter.1 hj).1

/-- By due time, then by id. -/
def earlier (a b : Job) : Bool := a.dueAt < b.dueAt || (a.dueAt == b.dueAt && a.id ≤ b.id)

/-- The instances that are ready at `now`, by due time and id. -/
def ready (s : MemoryStore) (key : Key) (now : Instant) : List Job :=
  (s.jobs.filter fun j => key.isReady j now).mergeSort earlier

/-- The lesser of two due times, either of which may be missing. -/
def earliest (a b : Option Instant) : Option Instant :=
  match a, b with
  | some a, some b => some (min a b)
  | some a, none => some a
  | none, b => b

/-- The least due time in a ready state. -/
def nextDue (s : MemoryStore) (key : Key) : Option Instant :=
  (s.jobs.filter fun j => key.owns j && key.isReadyState j.state).foldl
    (fun d j => earliest d (some j.dueAt)) none

/-- Mark as claimed at `now`. -/
def markClaimed (now : Instant) (j : Job) : Job :=
  { j with state := .running, claimedAt := some now }

/-- Win the claim if the instance is in the expected state. -/
def claim (s : MemoryStore) (key : Key) (id : Int) (expected : State) (now : Instant) :
    Except Error Bool × MemoryStore :=
  match Store.requireClaimable id expected, s.find? id with
  | .error e, _ => (.error e, s)
  | .ok _, none => (.ok false, s)
  | .ok _, some j =>
    if j.state = expected ∧ key.owns j then
      (.ok true, s.updateAt id (markClaimed now) fun _ => rfl)
    else (.ok false, s)

/-- Apply a transition to a running instance. -/
def commit (s : MemoryStore) (id : Int) (t : Transition) : Except Error Unit × MemoryStore :=
  match Store.requireOutcome t, s.find? id with
  | .error e, _ => (.error e, s)
  | .ok _, none => (.error (.notFound "JobInstance" (toString id)), s)
  | .ok _, some j =>
    if j.state = .running then (.ok (), s.updateAt id t.apply fun _ => rfl)
    else (.error (Store.refused j.state t.state), s)

/-- A running instance whose claim is older than `cutoff`, or has no date. -/
def isStale (key : Key) (cutoff : Instant) (j : Job) : Bool :=
  j.state == .running && key.owns j &&
    match j.claimedAt with
    | some claimed => claimed < cutoff
    | none => true

/-- Give up a claim. -/
def unclaim (j : Job) : Job := { j with state := .deferred, claimedAt := none }

/-- Defer stale instances. -/
def resetStale (s : MemoryStore) (key : Key) (cutoff : Instant) : Nat × MemoryStore :=
  (s.jobs.countP (isStale key cutoff),
    s.update (fun j => if isStale key cutoff j then unclaim j else j) fun j => by
      split <;> rfl)

instance : JobStore MemoryStore where
  countReady s key now := .ok (s.jobs.countP fun j => key.isReady j now)
  fetchReady s key now limit := .ok ((s.ready key now).take limit)
  claim s key id expected now := s.claim key id expected now
  commit s _ id t _ := s.commit id t
  nextDue s key := .ok (s.nextDue key)
  insert s job now := (.ok (s.lastId + 1), s.append job now)
  get s instanceType id := .ok ((s.find? id).filter (·.instanceType == instanceType))
  resetStale s key cutoff _ := (.ok (s.resetStale key cutoff).1, (s.resetStale key cutoff).2)

/-- The number of instances in a state. -/
def countInState (s : MemoryStore) (state : State) : Nat := s.jobs.countP (·.state == state)

end MemoryStore

end DueWork
