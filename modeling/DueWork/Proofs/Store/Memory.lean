/-
  The store in memory, operation by operation.

  A claim and a commit look up one instance and change it in place
  (`claim_eq`, `commit_running`); what is found under an id after a change, an
  insert or a reset is said by the `find?` lemmas.
-/
import DueWork.Proofs.Store.ById
import DueWork.Proofs.Store.Lawful

namespace DueWork.MemoryStore

open Time

variable {s s' : MemoryStore} {key : Key} {id i : Int} {now : Instant} {t : Transition}

theorem find?_eq_some {j : Job} : s.find? id = some j ↔ j ∈ s.jobs ∧ j.id = id :=
  find?_key_eq_some s.sorted

theorem find?_resetStale {cutoff : Instant} : (s.resetStale key cutoff).2.find? id =
    (s.find? id).map fun j => if isStale key cutoff j then unclaim j else j :=
  find?_map_key fun j => by split <;> rfl

/-- A change that no instance is selected for changes nothing. -/
theorem update_of_none {p : Job → Bool} {g : Job → Job}
    {keepsId : ∀ j, (if p j then g j else j).id = j.id} (h : s.jobs.countP p = 0) :
    s.update (fun j => if p j then g j else j) keepsId = s := by
  have hmap : (s.jobs.map fun j => if p j then g j else j) = s.jobs := by
    rw [List.countP_eq_zero] at h
    exact (List.map_congr_left fun j hj => if_neg (h j hj)).trans (List.map_id _)
  cases s
  simp only [update, mk.injEq, and_true]
  exact hmap

/-- The next id is not in use. -/
theorem find?_of_lastId_lt (h : s.lastId < id) : s.find? id = none :=
  find?_key_of_lt fun j hj => Int.lt_of_le_of_lt (s.id_le j hj) h

theorem find?_append {job : NewJob} : (s.append job now).find? id =
    if id = s.lastId + 1 then some (job.toJob (s.lastId + 1) now) else s.find? id :=
  find?_concat_key fun j hj => Int.lt_add_one_of_le (s.id_le j hj)

theorem find?_updateAt_self {f : Job → Job} {keepsId : ∀ j, (f j).id = j.id} {j : Job}
    (hj : s.find? id = some j) : (s.updateAt id f keepsId).find? id = some (f j) := by
  rw [find?_updateAt, if_pos rfl, hj]
  rfl

/-- A transition after a claim leaves nothing of the claim. -/
theorem updateAt_markClaimed_apply : (s.updateAt id (markClaimed now) fun _ => rfl).updateAt id
    t.apply (fun _ => rfl) = s.updateAt id t.apply fun _ => rfl := by
  simp only [updateAt, update, MemoryStore.mk.injEq, List.map_map, and_true]
  refine List.map_congr_left fun j _ => ?_
  by_cases hj : j.id = id
  · have hclaimed : (markClaimed now j).id = id := hj
    simp only [Function.comp, if_pos hj, if_pos hclaimed]
    rfl
  · simp only [Function.comp, if_neg hj]

/-- A claim is won if the instance is in the expected state and in the
    partition. -/
theorem claim_eq {expected : State} : s.claim key id expected now =
    match Store.requireClaimable id expected with
    | .error e => (.error e, s)
    | .ok _ =>
      if (s.find? id).any fun j => j.state == expected && key.owns j then
        (.ok true, s.updateAt id (markClaimed now) fun _ => rfl)
      else (.ok false, s) := by
  unfold claim
  cases Store.requireClaimable id expected with
  | error e => rfl
  | ok u =>
    cases s.find? id with
    | none => rfl
    | some j => simp only [Option.any_some, Bool.and_eq_true, beq_iff_eq]

/-- A commit changes a running instance. -/
theorem commit_running {j : Job} (ht : Store.requireOutcome t = .ok ()) (hj : s.find? id = some j)
    (hrun : j.state = .running) :
    s.commit id t = (.ok (), s.updateAt id t.apply fun _ => rfl) := by
  simp only [commit, ht, hj, if_pos hrun]

/-- A commit of an instance that does not run is refused. -/
theorem commit_moved {j : Job} (ht : Store.requireOutcome t = .ok ()) (hj : s.find? id = some j)
    (hrun : j.state ≠ .running) :
    s.commit id t = (.error (Store.refused j.state t.state), s) := by
  simp only [commit, ht, hj, if_neg hrun]

end DueWork.MemoryStore
