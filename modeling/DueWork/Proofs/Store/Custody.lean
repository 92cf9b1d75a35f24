/-
  Claims of several claimants on one store.

  A `Deed` is a call of some claimant together with what came of it, and the
  `deeds` of a run are the calls of all claimants in the order in which the
  store saw them.  A commit goes by the state of the instance only: it does not
  say which claim it ends.

  * `holders`: who holds a claim on an instance, won and since then neither
    committed nor taken back by a reset;
  * `Custody`: at most one claimant holds a claim, and only while the instance
    runs, as long as nobody else commits (`Disciplined`);
  * so a commit of a holder belongs to its last claim, while a claimant whose
    claim was taken back commits the work of the next one.
-/
import Mathlib.Data.Finset.Basic
import DueWork.Proofs.Store.Lives

namespace DueWork.Store

open Time

/-- A call of a claimant at the wall clock `now`. -/
structure Request where
  who : Nat
  now : Instant
  call : Call

/-- A call of a claimant with its answer, and the store before and after it. -/
structure Deed (σ : Type) where
  who : Nat
  call : Call
  before : σ
  answer : Except Error Answer
  after : σ

section

variable {σ : Type} [JobStore σ]

/-- What a request does. -/
def deed (s : σ) (x : Request) : Deed σ :=
  let (a, t) := step s x.now x.call
  ⟨x.who, x.call, s, a, t⟩

/-- What some requests do, one after the other. -/
def deeds (s : σ) : List Request → List (Deed σ)
  | [] => []
  | x :: xs => deed s x :: deeds (deed s x).after xs

end

variable {σ ρ ω : Type} {v : View σ ρ ω} {id : Int} {d : Deed σ} {held : Finset Nat}

/-- The instance runs. -/
def isRunning (v : View σ ρ ω) (id : Int) (s : σ) : Bool :=
  (v.find? s id).bind v.state? == some .running

namespace Deed

/-- A claim of the instance is won. -/
def wins (id : Int) (d : Deed σ) : Bool :=
  match d.call, d.answer with
  | .claim _ i _, .ok (.won true) => i == id
  | _, _ => false

/-- The instance is committed. -/
def commits (id : Int) (d : Deed σ) : Bool :=
  match d.call, d.answer with
  | .commit _ i _, .ok .committed => i == id
  | _, _ => false

/-- A reset takes the instance back from the running ones. -/
def takesBack (v : View σ ρ ω) (id : Int) (d : Deed σ) : Bool :=
  match d.call with
  | .resetStale _ _ => isRunning v id d.before && !isRunning v id d.after
  | _ => false

/-- Who holds a claim on the instance after a deed. -/
def holders (v : View σ ρ ω) (id : Int) (held : Finset Nat) (d : Deed σ) : Finset Nat :=
  if d.wins id then insert d.who held
  else if d.commits id then held.erase d.who
  else if d.takesBack v id then ∅
  else held

theorem wins_iff : d.wins id = true ↔ Wins id d.call d.answer := by
  constructor
  · intro h
    rw [wins] at h
    split at h
    case h_1 k i e hcall hanswer =>
      obtain rfl := beq_iff_eq.1 h
      exact ⟨⟨k, e, hcall⟩, hanswer⟩
    case h_2 => cases h
  · rintro ⟨⟨k, e, hcall⟩, hanswer⟩
    rw [wins, hcall, hanswer]
    exact beq_self_eq_true id

theorem commits_of_committed {k : Key} {t : Transition} (hcall : d.call = .commit k id t)
    (hanswer : d.answer = .ok .committed) : d.commits id = true := by
  rw [commits, hcall, hanswer]
  exact beq_self_eq_true id

end Deed

/-- Who holds a claim on an instance after some deeds. -/
def holders (v : View σ ρ ω) (id : Int) (held : Finset Nat) (ds : List (Deed σ)) : Finset Nat :=
  ds.foldl (Deed.holders v id) held

/-- Only those who hold a claim on the instance commit it. -/
def Disciplined (v : View σ ρ ω) (id : Int) (held : Finset Nat) : List (Deed σ) → Prop
  | [] => True
  | d :: ds => (d.commits id = true → d.who ∈ held) ∧ Disciplined v id (d.holders v id held) ds

instance decidableDisciplined (v : View σ ρ ω) (id : Int) :
    ∀ (held : Finset Nat) (ds : List (Deed σ)), Decidable (Disciplined v id held ds)
  | _, [] => isTrue trivial
  | held, d :: ds =>
    haveI := decidableDisciplined v id (d.holders v id held) ds
    inferInstanceAs (Decidable ((d.commits id = true → d.who ∈ held) ∧ _))

/-- At most one claimant holds a claim on an instance, and then it runs. -/
inductive Custody (v : View σ ρ ω) (id : Int) (s : σ) : Finset Nat → Prop where
  | nobody : Custody v id s ∅
  | one (w : Nat) (hrun : isRunning v id s = true) : Custody v id s {w}

theorem Custody.running {s : σ} {w : Nat} (h : Custody v id s held) (hw : w ∈ held) :
    held = {w} ∧ isRunning v id s = true := by
  cases h with
  | nobody => cases hw
  | one w' hrun =>
    rw [Finset.mem_singleton] at hw
    exact ⟨by rw [hw], hrun⟩

/-! ## One deed -/

namespace Effect

variable {c : Call} {a : Except Error Answer} {s s' : σ}

/-- A claim is won on an instance that did not run, and sets it running. -/
theorem running_of_wins (h : Effect v id c a (v.find? s id) (v.find? s' id)) (hw : Wins id c a) :
    isRunning v id s = false ∧ isRunning v id s' = true := by
  obtain ⟨r, r', state, hr, hr', hstate, hclaim, hrun⟩ := h.of_wins hw
  simp only [isRunning, hr, hr', Option.bind_some, hstate, hrun]
  refine ⟨?_, rfl⟩
  cases state <;> first | rfl | cases hclaim

/-- A running instance runs on, unless it is committed or taken back. -/
theorem running_stays (h : Effect v id d.call d.answer (v.find? d.before id) (v.find? d.after id))
    (hrun : isRunning v id d.before = true) (hcommits : d.commits id = false)
    (hback : d.takesBack v id = false) : isRunning v id d.after = true := by
  generalize ho : v.find? d.before id = o at h
  generalize ho' : v.find? d.after id = o' at h
  cases h with
  | stays => rw [← hrun, isRunning, isRunning, ho, ho']
  | born => rw [isRunning, ho] at hrun; cases hrun
  | moved hmove hnext cause =>
    cases cause with
    | won => rw [isRunning, ho', Option.bind_some, hmove.target]; rfl
    | committed hcall hanswer =>
      rw [Deed.commits_of_committed hcall hanswer] at hcommits
      cases hcommits
    | reset hcall =>
      have hstop : isRunning v id d.after = false := by
        rw [isRunning, ho', Option.bind_some, hmove.target]
        rfl
      rw [Deed.takesBack, hcall] at hback
      simp only [hrun, hstop] at hback
      cases hback

end Effect

/-- A deed keeps custody, unless somebody else commits. -/
theorem Custody.deed (h : Custody v id d.before held)
    (he : Effect v id d.call d.answer (v.find? d.before id) (v.find? d.after id))
    (hcommit : d.commits id = true → d.who ∈ held) :
    Custody v id d.after (d.holders v id held) := by
  rw [Deed.holders]
  split
  case isTrue hwins =>
    -- nobody holds a claim on an instance that does not run
    obtain ⟨hbefore, hafter⟩ := he.running_of_wins (Deed.wins_iff.1 hwins)
    cases h with
    | nobody => exact .one d.who hafter
    | one w hrun => rw [hbefore] at hrun; cases hrun
  case isFalse =>
    split
    case isTrue hcommits =>
      rw [(h.running (hcommit hcommits)).1, Finset.erase_singleton]
      exact .nobody
    case isFalse hcommits =>
      split
      case isTrue => exact .nobody
      case isFalse hback =>
        cases h with
        | nobody => exact .nobody
        | one w hrun =>
          exact .one w (he.running_stays hrun (Bool.eq_false_iff.2 hcommits) (Bool.eq_false_iff.2 hback))

/-- Only who wins a claim holds one that it did not hold before. -/
theorem Deed.notMem_holders {w : Nat} (hw : w ∉ held) (hwins : d.who = w → d.wins id = false) :
    w ∉ d.holders v id held := by
  rw [Deed.holders]
  split
  case isTrue h =>
    have hne : w ≠ d.who := by
      rintro rfl
      rw [hwins rfl] at h
      cases h
    simp only [Finset.mem_insert, hne, hw, or_self, not_false_eq_true]
  case isFalse =>
    split
    case isTrue => exact fun h => hw (Finset.mem_of_mem_erase h)
    case isFalse =>
      split
      case isTrue => exact Finset.notMem_empty w
      case isFalse => exact hw

/-! ## Histories -/

section

variable [JobStore σ] {IsAllowed : Call → Prop} {Inv : σ → Prop} {s : σ} {ds es : List (Deed σ)}
  {w : Nat}

/-- Some deeds are the history of a run from here on, with claims in custody
    and disciplined claimants. -/
structure Tells (v : View σ ρ ω) (IsAllowed : Call → Prop) (Inv : σ → Prop) (id : Int) (s : σ)
    (held : Finset Nat) (ds : List (Deed σ)) : Prop where
  inv : Inv s
  told : ∃ xs : List Request, (∀ x ∈ xs, IsAllowed x.call) ∧ deeds s xs = ds
  custody : Custody v id s held
  disciplined : Disciplined v id held ds

namespace Tells

/-- The first deed, and the history from there on. -/
theorem cons (hb : Behaves v IsAllowed Inv) (h : Tells v IsAllowed Inv id s held (d :: ds)) :
    d.before = s ∧ Effect v id d.call d.answer (v.find? s id) (v.find? d.after id) ∧
      Tells v IsAllowed Inv id d.after (d.holders v id held) ds := by
  obtain ⟨xs, hxs, htold⟩ := h.told
  cases xs with
  | nil => cases htold
  | cons x xs =>
    obtain ⟨rfl, rfl⟩ := List.cons.inj htold
    obtain ⟨hx, hxs⟩ := List.forall_mem_cons.1 hxs
    have he : Effect v id x.call (step s x.now x.call).1 (v.find? s id)
        (v.find? (step s x.now x.call).2 id) := hb.effect x.now h.inv hx id
    exact ⟨rfl, he, hb.inv x.now h.inv hx, ⟨xs, hxs, rfl⟩,
      Custody.deed (d := Store.deed s x) h.custody he h.disciplined.1, h.disciplined.2⟩

theorem append (hb : Behaves v IsAllowed Inv) (h : Tells v IsAllowed Inv id s held (ds ++ es)) :
    ∃ s', Tells v IsAllowed Inv id s' (holders v id held ds) es := by
  induction ds generalizing s held with
  | nil => exact ⟨s, h⟩
  | cons d ds ih => exact ih (h.cons hb).2.2

/-- Who holds no claim and wins none does not commit. -/
theorem not_commits (hb : Behaves v IsAllowed Inv)
    (h : Tells v IsAllowed Inv id s held (ds ++ d :: es)) (hw : d.who ∉ held)
    (hown : ∀ e ∈ ds, e.who = d.who → e.wins id = false) : d.commits id = false := by
  induction ds generalizing s held with
  | nil => exact Bool.eq_false_iff.2 fun hcommits => hw (h.disciplined.1 hcommits)
  | cons e ds ih =>
    obtain ⟨hfirst, hrest⟩ := List.forall_mem_cons.1 hown
    exact ih (h.cons hb).2.2 (Deed.notMem_holders hw hfirst) hrest

/-- Up to the commit of the one who holds the claim, no claim is won. -/
theorem none_wins (hb : Behaves v IsAllowed Inv)
    (h : Tells v IsAllowed Inv id s {d.who} (ds ++ d :: es)) (hcommits : d.commits id = true)
    (hown : ∀ e ∈ ds, e.who = d.who → e.wins id = false ∧ e.commits id = false) :
    ∀ e ∈ ds, e.wins id = false := by
  induction ds generalizing s with
  | nil => exact List.forall_mem_nil _
  | cons e ds ih =>
    obtain ⟨hfirst, hrest⟩ := List.forall_mem_cons.1 hown
    obtain ⟨rfl, he, hnext⟩ := h.cons hb
    have hwins : e.wins id = false := by
      refine Bool.eq_false_iff.2 fun hwins => ?_
      have hstopped := (he.running_of_wins (Deed.wins_iff.1 hwins)).1
      rw [(h.custody.running (Finset.mem_singleton_self _)).2] at hstopped
      cases hstopped
    have hcommit : e.commits id = false := by
      refine Bool.eq_false_iff.2 fun hcommit => ?_
      have hwho := Finset.mem_singleton.1 (h.disciplined.1 hcommit)
      rw [(hfirst hwho).2] at hcommit
      cases hcommit
    refine List.forall_mem_cons.2 ⟨hwins, ?_⟩
    rw [Deed.holders, hwins, hcommit] at hnext
    simp only [Bool.false_eq_true, if_false] at hnext
    split at hnext
    case isTrue =>
      -- a claim that was taken back is not committed any more
      have hnot := hnext.not_commits hb (Finset.notMem_empty _) fun x hx hxw => (hrest x hx hxw).1
      rw [hnot] at hcommits
      cases hcommits
    case isFalse => exact ih hnext hrest

end Tells

/-- In every history of disciplined claimants, no claim is won between the last
    claim of a claimant and its commit. -/
def CommitsBelong (v : View σ ρ ω) (IsAllowed : Call → Prop) (Inv : σ → Prop) : Prop :=
  ∀ (id : Int) (s : σ) (xs : List Request) (before between : List (Deed σ)) (claim commit : Deed σ),
    Inv s → (∀ x ∈ xs, IsAllowed x.call) →
    deeds s xs = before ++ claim :: (between ++ [commit]) →
    Disciplined v id ∅ (deeds s xs) →
    claim.wins id = true → commit.commits id = true → claim.who = commit.who →
    (∀ d ∈ between, d.who = commit.who → d.wins id = false ∧ d.commits id = false) →
    ∀ d ∈ between, d.wins id = false

theorem Behaves.commitsBelong (hb : Behaves v IsAllowed Inv) : CommitsBelong v IsAllowed Inv := by
  intro id s xs before between claim commit hs hxs hsplit hdisciplined hwins hcommits hwho hown
  have h : Tells v IsAllowed Inv id s ∅ (before ++ claim :: (between ++ [commit])) :=
    ⟨hs, ⟨xs, hxs, hsplit⟩, .nobody, hsplit ▸ hdisciplined⟩
  obtain ⟨s₁, h₁⟩ := h.append hb
  obtain ⟨rfl, he, h₂⟩ := h₁.cons hb
  -- the winner is the only one who holds a claim
  have hheld : claim.holders v id (holders v id ∅ before) = {commit.who} := by
    have hclaim : claim.who ∈ claim.holders v id (holders v id ∅ before) := by
      rw [Deed.holders, if_pos hwins]
      exact Finset.mem_insert_self ..
    rw [(h₂.custody.running hclaim).1, hwho]
  rw [hheld] at h₂
  exact h₂.none_wins hb hcommits hown

end

end DueWork.Store

namespace DueWork

open Time Store

/-- Whatever is in memory or in the table of job instances, and whoever calls
    what in which order: as long as only holders of claims commit, no claim is
    won between the last claim of a claimant and its commit. -/
theorem commits_of_holders_belong_to_their_claims :
    CommitsBelong MemoryStore.view (fun _ => True) (fun _ => True) ∧
    CommitsBelong Database.view Call.HasUsualColumns Database.HasEntries :=
  ⟨MemoryStore.behaves.commitsBelong, Database.behaves.commitsBelong⟩

/-- A claim that is taken back by a reset, and won by someone else. -/
def takenBack : List Request :=
  let key : Key := { name := "jobs" }
  [⟨0, .ofMillis 1000, .insert { jobRef := "NEW", dueAt := .ofMillis 1000 }⟩,
    ⟨1, .ofMillis 2000, .claim key 1 .new⟩,
    ⟨2, .ofMillis 3000, .resetStale key (.ofMillis 2500)⟩,
    ⟨3, .ofMillis 4000, .claim key 1 .deferred⟩]

/-- The call for the instance has ended. -/
def doneBy (who : Nat) (millis : Int) : Request :=
  ⟨who, .ofMillis millis, .commit { name := "jobs" } 1 { state := .done }⟩

/-- The one whose claim was taken back does not win it again before the other
    commits. -/
theorem commits_of_holders_belong_after_a_reset :
    let lost : Request := ⟨1, .ofMillis 5000, .claim { name := "jobs" } 1 .new⟩
    ∃ (before between : List (Deed MemoryStore)) (claim commit : Deed MemoryStore),
      deeds .empty (takenBack ++ [lost, doneBy 3 6000]) = before ++ claim :: (between ++ [commit]) ∧
      claim.who = 3 ∧ claim.wins 1 = true ∧ commit.who = 3 ∧ commit.commits 1 = true ∧
      between.map (·.who) = [1] ∧ ∀ d ∈ between, d.wins 1 = false := by
  intro lost
  have hsplit : deeds MemoryStore.empty (takenBack ++ [lost, doneBy 3 6000]) =
      [_, _, _] ++ _ :: ([_] ++ [_]) := rfl
  refine ⟨_, _, _, _, hsplit, rfl, ?_, rfl, ?_, rfl,
    commits_of_holders_belong_to_their_claims.1 1 .empty _ _ _ _ _ trivial (fun _ _ => trivial)
      hsplit ?_ ?_ ?_ rfl ?_⟩ <;> decide +kernel

/-- Nothing else holds of those who commit without a claim: the one whose claim
    was taken back commits although the instance was claimed again; and keys
    that name another column for the state win claims besides each other. -/
theorem commit_of_a_claim_taken_back :
    let acts {σ : Type} (d : Deed σ) := (d.who, d.wins 1, d.commits 1)
    let stolen :=
      [(0, false, false), (1, true, false), (2, false, false), (3, true, false), (1, false, true)]
    (deeds MemoryStore.empty (takenBack ++ [doneBy 1 5000])).map acts = stolen ∧
    (deeds Database.migrated (takenBack ++ [doneBy 1 5000])).map acts = stolen ∧
    (deeds Database.migrated (takenBack.take 2 ++
      [⟨2, .ofMillis 3000, .claim { name := "refs", stateAttribute := "job_ref" } 1 .new⟩,
        doneBy 1 5000])).map acts =
      [(0, false, false), (1, true, false), (2, true, false), (1, false, true)] := by
  decide +kernel

end DueWork
