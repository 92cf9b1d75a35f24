/-
  The life of instances over whole runs of a store.

  A `View` shows the record of every instance of a store, and `Effect` is what
  one call can do to a record: leave it alone, write a new one, or move it to
  another state for a `Cause` that the call and its answer name.

  * `Lifecycle` says what holds of all records in every run of calls, failing
    and adversarial ones included;
  * `Behaves.lifecycle`: a store whose calls have such effects, one call at a
    time, has such a life in every run.
-/
import Mathlib.Data.List.Basic
import DueWork.Store.Call

namespace DueWork.Store

open Time

/-- How a store shows the records of its instances. -/
structure View (σ ρ ω : Type) where
  find? : σ → Int → Option ρ
  state? : ρ → Option State
  isClaimed : ρ → Bool
  /-- what is written once and for all -/
  origin : ρ → ω

/-- An answer that stands for nothing done: an error, a lost claim, or a reset
    of no instance. -/
def isIdle : Except Error Answer → Bool
  | .error _ | .ok (.won false) | .ok (.reset 0) => true
  | _ => false

/-- The claim of an instance is won. -/
def Wins (id : Int) (c : Call) (a : Except Error Answer) : Prop :=
  (∃ k e, c = .claim k id e) ∧ a = .ok (.won true)

/-- Why an instance goes from one state to another. -/
inductive Cause (id : Int) (c : Call) (a : Except Error Answer) : State → State → Prop where
  | won {s : State} (h : Wins id c a) : Cause id c a s .running
  | committed {k : Key} {t : Transition} (hc : c = .commit k id t) (ha : a = .ok .committed) :
      Cause id c a .running t.state
  | reset {k : Key} {cutoff : Instant} {n : Nat} (hc : c = .resetStale k cutoff)
      (ha : a = .ok (.reset n)) : Cause id c a .running .deferred

variable {σ ρ ω : Type} {v : View σ ρ ω} {id : Int} {c : Call} {a : Except Error Answer}

/-- A record in one state, and the same instance in another one. -/
structure IsMove (v : View σ ρ ω) (r r' : ρ) (s t : State) : Prop where
  source : v.state? r = some s
  target : v.state? r' = some t
  claimed : v.isClaimed r' = (t == .running)
  origin : v.origin r' = v.origin r

/-- What a call with this answer does to the record of an instance. -/
inductive Effect (v : View σ ρ ω) (id : Int) (c : Call) (a : Except Error Answer) :
    Option ρ → Option ρ → Prop where
  | stays {o : Option ρ} (hwins : ¬Wins id c a) (hborn : a ≠ .ok (.inserted id)) :
      Effect v id c a o o
  | born {r : ρ} {job : NewJob} (hc : c = .insert job) (ha : a = .ok (.inserted id))
      (hstate : v.state? r = some .new) (hclaimed : v.isClaimed r = false) :
      Effect v id c a none (some r)
  | moved {r r' : ρ} {s t : State} (hmove : IsMove v r r' s t) (hnext : s.CanBecome t)
      (cause : Cause id c a s t) : Effect v id c a (some r) (some r')

/-- A record in a state of the lifecycle, claimed exactly while it runs. -/
def IsSound (v : View σ ρ ω) (r : ρ) : Prop :=
  ∃ s, v.state? r = some s ∧ v.isClaimed r = (s == .running)

namespace Effect

variable {o o' : Option ρ}

/-- A record stays, or moves on in the lifecycle with its origin. -/
theorem of_some {r : ρ} (h : Effect v id c a (some r) o') :
    ∃ r', o' = some r' ∧ v.origin r' = v.origin r ∧
      (r' = r ∨ ∃ s t, v.state? r = some s ∧ v.state? r' = some t ∧ s.CanBecome t) := by
  cases h with
  | stays => exact ⟨r, rfl, rfl, .inl rfl⟩
  | moved hmove hnext =>
    exact ⟨_, rfl, hmove.origin, .inr ⟨_, _, hmove.source, hmove.target, hnext⟩⟩

/-- A terminal record stays. -/
theorem of_terminal {r : ρ} {s : State} (h : Effect v id c a (some r) o')
    (hs : v.state? r = some s) (hend : s.isTerminal = true) : o' = some r ∧ ¬Wins id c a := by
  cases h with
  | stays hwins => exact ⟨rfl, hwins⟩
  | moved hmove hnext =>
    have hs' := hmove.source
    rw [hs] at hs'
    cases hs'
    cases hnext with
    | claim h => cases s <;> cases h <;> cases hend
    | drop h => exact absurd hend h
    | finish => cases hend
    | fail => cases hend
    | defer => cases hend

/-- A claim is won on a record that may be claimed, and sets it running. -/
theorem of_wins (h : Effect v id c a o o') (hw : Wins id c a) :
    ∃ r r' s, o = some r ∧ o' = some r' ∧ v.state? r = some s ∧ s.isClaimable = true ∧
      v.state? r' = some .running := by
  have hw' := hw
  obtain ⟨⟨k, e, rfl⟩, rfl⟩ := hw'
  cases h with
  | stays hwins => exact absurd hw hwins
  | born hc => cases hc
  | moved hmove hnext cause =>
    cases cause with
    | won =>
      refine ⟨_, _, _, rfl, rfl, hmove.source, ?_, hmove.target⟩
      cases hnext with
      | claim h => exact h
    | committed hc => cases hc
    | reset hc => cases hc

theorem sound (h : Effect v id c a o o') (hs : ∀ r, o = some r → IsSound v r) :
    ∀ r, o' = some r → IsSound v r := by
  intro r hr
  cases h with
  | stays => exact hs r hr
  | born _ _ hstate hclaimed =>
    cases hr
    exact ⟨.new, hstate, hclaimed⟩
  | moved hmove =>
    cases hr
    exact ⟨_, hmove.target, hmove.claimed⟩

end Effect

variable [JobStore σ]

/-- The store after some calls. -/
def after (s : σ) (cs : List (Instant × Call)) : σ := (run s cs).2

theorem after_cons (s : σ) (x : Instant × Call) (cs : List (Instant × Call)) :
    after s (x :: cs) = after (step s x.1 x.2).2 cs := rfl

theorem after_append (s : σ) (cs ds : List (Instant × Call)) :
    after s (cs ++ ds) = after (after s cs) ds := by
  induction cs generalizing s with
  | nil => rfl
  | cons x cs ih => rw [List.cons_append, after_cons, ih, after_cons]

/-- A call takes a running instance back to the deferred ones: a successful
    commit to that state, or a reset that covers it. -/
def Releases (v : View σ ρ ω) (id : Int) (s : σ) (now : Instant) (c : Call) : Prop :=
  (∃ r r', v.find? s id = some r ∧ v.state? r = some .running ∧
    v.find? (step s now c).2 id = some r' ∧ v.state? r' = some .deferred) ∧
  ((∃ k t, c = .commit k id t ∧ t.state = .deferred ∧ (step s now c).1 = .ok .committed) ∨
    ∃ k cutoff n, c = .resetStale k cutoff ∧ (step s now c).1 = .ok (.reset n))

/-- The life of instances in every run from `s₀` with calls of some kind; after
    some calls the store accepts some jobs. -/
structure Lifecycle (v : View σ ρ ω) (s₀ : σ) (IsAllowed : Call → Prop)
    (Accepts : List (Instant × Call) → NewJob → Prop) : Prop where
  /-- an insert that the store accepts is answered with an id -/
  insert_answers : ∀ cs now job, (∀ x ∈ cs, IsAllowed x.2) → IsAllowed (.insert job) →
    Accepts cs job → ∃ id, (step (after s₀ cs) now (.insert job)).1 = .ok (.inserted id)
  /-- the id was not in use, and its instance is new -/
  insert_fresh : ∀ cs now job id, (∀ x ∈ cs, IsAllowed x.2) → IsAllowed (.insert job) →
    (step (after s₀ cs) now (.insert job)).1 = .ok (.inserted id) →
    v.find? (after s₀ cs) id = none ∧
      ∃ r, v.find? (step (after s₀ cs) now (.insert job)).2 id = some r ∧ v.state? r = some .new
  /-- an instance stays as it is or moves on in the lifecycle -/
  step_allowed : ∀ cs now c id r, (∀ x ∈ cs, IsAllowed x.2) → IsAllowed c →
    v.find? (after s₀ cs) id = some r →
    ∃ r', v.find? (step (after s₀ cs) now c).2 id = some r' ∧
      (r' = r ∨ ∃ s t, v.state? r = some s ∧ v.state? r' = some t ∧ s.canBecome t = true)
  /-- an instance in a terminal state never changes again -/
  terminal_stays : ∀ cs ds id r s, (∀ x ∈ cs ++ ds, IsAllowed x.2) →
    v.find? (after s₀ cs) id = some r → v.state? r = some s → s.isTerminal = true →
    v.find? (after s₀ (cs ++ ds)) id = some r
  /-- between two won claims the instance was deferred -/
  released_between : ∀ cs ds id now₁ k₁ e₁ now₂ k₂ e₂,
    (∀ x ∈ cs ++ (now₁, .claim k₁ id e₁) :: ds, IsAllowed x.2) → IsAllowed (.claim k₂ id e₂) →
    (step (after s₀ cs) now₁ (.claim k₁ id e₁)).1 = .ok (.won true) →
    (step (after s₀ (cs ++ (now₁, .claim k₁ id e₁) :: ds)) now₂ (.claim k₂ id e₂)).1 =
      .ok (.won true) →
    ∃ ds₁ now c ds₂, ds = ds₁ ++ (now, c) :: ds₂ ∧
      Releases v id (after s₀ (cs ++ (now₁, .claim k₁ id e₁) :: ds₁)) now c
  /-- an instance is claimed exactly while it runs -/
  claimed_iff_running : ∀ cs id r, (∀ x ∈ cs, IsAllowed x.2) →
    v.find? (after s₀ cs) id = some r → (v.isClaimed r = true ↔ v.state? r = some .running)
  /-- an instance stays in the store, with its origin -/
  origin_stays : ∀ cs ds id r, (∀ x ∈ cs ++ ds, IsAllowed x.2) →
    v.find? (after s₀ cs) id = some r →
    ∃ r', v.find? (after s₀ (cs ++ ds)) id = some r' ∧ v.origin r' = v.origin r
  /-- an error, a lost claim or a reset of none changes nothing -/
  idle_unchanged : ∀ cs now c, (∀ x ∈ cs, IsAllowed x.2) → IsAllowed c →
    isIdle (step (after s₀ cs) now c).1 = true → (step (after s₀ cs) now c).2 = after s₀ cs

theorem map_eq_ok {ε α β : Type} {f : α → β} {x : Except ε α} {y : β} (h : x.map f = .ok y) :
    ∃ z, x = .ok z ∧ f z = y := by
  cases x with
  | error e => cases h
  | ok z => exact ⟨z, rfl, Except.ok.inj h⟩

theorem bind_eq_ok {ε α β : Type} {f : α → Except ε β} {x : Except ε α} {y : β}
    (h : x.bind f = .ok y) : ∃ z, x = .ok z ∧ f z = .ok y := by
  cases x with
  | error e => cases h
  | ok z => exact ⟨z, rfl, h⟩

/-- A call that is answered with a value returned one. -/
theorem answering_eq_ok {τ α : Type} {f : α → Answer} {r : Except Error α × τ} {a : Answer} {t : τ}
    (h : answering f r = (.ok a, t)) : ∃ x, r = (.ok x, t) ∧ f x = a := by
  obtain ⟨hanswer, hstore⟩ := Prod.mk.inj h
  obtain ⟨x, hx, ha⟩ := map_eq_ok hanswer
  exact ⟨x, Prod.ext hx hstore, ha⟩

/-- A call that is answered with an error returned it. -/
theorem answering_eq_error {τ α : Type} {f : α → Answer} {r : Except Error α × τ} {e : Error} {t : τ}
    (h : answering f r = (.error e, t)) : r = (.error e, t) := by
  obtain ⟨hanswer, hstore⟩ := Prod.mk.inj h
  refine Prod.ext ?_ hstore
  cases hr : r.1 with
  | error e' =>
    rw [hr] at hanswer
    cases hanswer
    rfl
  | ok x =>
    rw [hr] at hanswer
    cases hanswer

theorem isClaimable_of_require {e : State} {u : Unit} (h : requireClaimable id e = .ok u) :
    e.isClaimable = true := by
  by_contra hn
  rw [requireClaimable, if_neg hn] at h
  cases h

theorem canBecome_of_require {t : Transition} {u : Unit} (h : requireOutcome t = .ok u) :
    State.running.CanBecome t.state := by
  by_contra hn
  rw [requireOutcome, if_neg fun ht => hn (State.canBecome_iff.1 ht)] at h
  cases h

/-- One instance is moved from a state to another, and no other one changes. -/
def Moves (v : View σ ρ ω) (id : Int) (s s' : σ) (source target : State) : Prop :=
  (∃ r r', v.find? s id = some r ∧ v.find? s' id = some r' ∧ IsMove v r r' source target) ∧
    ∀ i ≠ id, v.find? s' i = v.find? s i

/-- What the operations of a store do, from the states that satisfy an
    invariant. -/
structure Behaves (v : View σ ρ ω) (IsAllowed : Call → Prop) (Inv : σ → Prop) : Prop where
  inv : ∀ {s c} (now : Instant), Inv s → IsAllowed c → Inv (step s now c).2
  /-- a call that fails leaves the store as it was -/
  failed : ∀ {s s' c e} {now : Instant}, Inv s → IsAllowed c → step s now c = (.error e, s') → s' = s
  claim : ∀ {s s' now k id e won}, Inv s → IsAllowed (.claim k id e) →
    JobStore.claim s k id e now = (.ok won, s') →
      won = false ∧ s' = s ∨ won = true ∧ e.isClaimable = true ∧ Moves v id s s' e .running
  commit : ∀ {s s' now k id t}, Inv s → IsAllowed (.commit k id t) →
    JobStore.commit s k id t now = (.ok (), s') →
      State.running.CanBecome t.state ∧ Moves v id s s' .running t.state
  insert : ∀ {s s' now job id}, Inv s → IsAllowed (.insert job) →
    JobStore.insert s job now = (.ok id, s') →
      v.find? s id = none ∧
      (∃ r, v.find? s' id = some r ∧ v.state? r = some .new ∧ v.isClaimed r = false) ∧
      ∀ i ≠ id, v.find? s' i = v.find? s i
  resetStale : ∀ {s s' now k cutoff n}, Inv s → IsAllowed (.resetStale k cutoff) →
    JobStore.resetStale s k cutoff now = (.ok n, s') →
      (n = 0 → s' = s) ∧
      ∀ i, v.find? s' i = v.find? s i ∨
        ∃ r r', v.find? s i = some r ∧ v.find? s' i = some r' ∧ IsMove v r r' .running .deferred

namespace Behaves

variable {IsAllowed : Call → Prop} {Inv : σ → Prop} {s₀ s : σ}

/-- One call has an effect on every record, and leaves the store alone if it is
    idle. -/
theorem step_spec (h : Behaves v IsAllowed Inv) (now : Instant) (hs : Inv s) (hc : IsAllowed c) :
    (∀ id, Effect v id c (step s now c).1 (v.find? s id) (v.find? (step s now c).2 id)) ∧
    (isIdle (step s now c).1 = true → (step s now c).2 = s) := by
  cases hstep : step s now c with
  | mk answer s' =>
    -- an answer that is not one to a change, where the store is as it was
    have looks (hwon : answer ≠ .ok (.won true)) (hins : ∀ id, answer ≠ .ok (.inserted id))
        (hsame : s' = s) : (∀ id, Effect v id c answer (v.find? s id) (v.find? s' id)) ∧
          (isIdle answer = true → s' = s) := by
      rw [hsame]
      exact ⟨fun id => .stays (fun hw => hwon hw.2) (hins id), fun _ => rfl⟩
    cases answer with
    | error e => exact looks (by simp) (by simp) (h.failed hs hc hstep)
    | ok a =>
      cases c with
      | countReady | fetchReady | nextDue | get =>
        obtain ⟨hanswer, hstore⟩ := Prod.mk.inj hstep
        obtain ⟨_, -, rfl⟩ := map_eq_ok hanswer
        exact looks (by simp) (by simp) hstore.symm
      | claim k id e =>
        obtain ⟨won, hclaim, rfl⟩ := answering_eq_ok hstep
        obtain ⟨rfl, hsame⟩ | ⟨rfl, hready, ⟨r, r', hr, hr', hmove⟩, hsame⟩ := h.claim hs hc hclaim
        · exact looks (by simp) (by simp) hsame
        · refine ⟨fun i => ?_, by simp [isIdle]⟩
          by_cases hi : i = id
          · subst hi
            rw [hr, hr']
            exact .moved hmove (.claim hready) (.won ⟨⟨k, e, rfl⟩, rfl⟩)
          · rw [hsame i hi]
            refine .stays (fun hw => ?_) (by simp)
            obtain ⟨⟨k', e', hcall⟩, -⟩ := hw
            cases hcall
            exact hi rfl
      | commit k id t =>
        obtain ⟨_, hcommit, rfl⟩ := answering_eq_ok hstep
        obtain ⟨hnext, ⟨r, r', hr, hr', hmove⟩, hsame⟩ := h.commit hs hc hcommit
        refine ⟨fun i => ?_, by simp [isIdle]⟩
        by_cases hi : i = id
        · subst hi
          rw [hr, hr']
          exact .moved hmove hnext (.committed rfl rfl)
        · rw [hsame i hi]
          exact .stays (fun hw => by cases hw.2) (by simp)
      | insert job =>
        obtain ⟨id, hinsert, rfl⟩ := answering_eq_ok hstep
        obtain ⟨hnone, ⟨r, hr, hnew, hclaimed⟩, hsame⟩ := h.insert hs hc hinsert
        refine ⟨fun i => ?_, by simp [isIdle]⟩
        by_cases hi : i = id
        · subst hi
          rw [hnone, hr]
          exact .born rfl rfl hnew hclaimed
        · rw [hsame i hi]
          exact .stays (fun hw => by cases hw.2) (by simpa using fun he => hi he.symm)
      | resetStale k cutoff =>
        obtain ⟨n, hreset, rfl⟩ := answering_eq_ok hstep
        obtain ⟨hzero, heach⟩ := h.resetStale hs hc hreset
        refine ⟨fun i => ?_, fun hidle => hzero ?_⟩
        · rcases heach i with hsame | ⟨r, r', hr, hr', hmove⟩
          · rw [hsame]
            exact .stays (fun hw => by cases hw.2) (by simp)
          · rw [hr, hr']
            exact .moved hmove .defer (.reset rfl rfl)
        · cases n with
          | zero => rfl
          | succ n => cases hidle

theorem effect (h : Behaves v IsAllowed Inv) (now : Instant) (hs : Inv s) (hc : IsAllowed c)
    (id : Int) : Effect v id c (step s now c).1 (v.find? s id) (v.find? (step s now c).2 id) :=
  (h.step_spec now hs hc).1 id

theorem inv_after (h : Behaves v IsAllowed Inv) {cs : List (Instant × Call)}
    (hcs : ∀ x ∈ cs, IsAllowed x.2) (hs : Inv s) : Inv (after s cs) := by
  induction cs generalizing s with
  | nil => exact hs
  | cons x cs ih =>
    rw [after_cons]
    exact ih (fun y hy => hcs y (List.mem_cons_of_mem _ hy))
      (h.inv x.1 hs (hcs x List.mem_cons_self))

theorem sound_after (h : Behaves v IsAllowed Inv) {cs : List (Instant × Call)}
    (hcs : ∀ x ∈ cs, IsAllowed x.2) (hs : Inv s)
    (hsound : ∀ id r, v.find? s id = some r → IsSound v r) :
    ∀ id r, v.find? (after s cs) id = some r → IsSound v r := by
  induction cs generalizing s with
  | nil => exact hsound
  | cons x cs ih =>
    have hx := hcs x List.mem_cons_self
    refine ih (fun y hy => hcs y (List.mem_cons_of_mem _ hy)) (h.inv x.1 hs hx) ?_
    exact fun id => (h.effect x.1 hs hx id).sound (hsound id)

theorem terminal_after (h : Behaves v IsAllowed Inv) {cs : List (Instant × Call)}
    (hcs : ∀ x ∈ cs, IsAllowed x.2) (hs : Inv s) {id : Int} {r : ρ} {t : State}
    (hr : v.find? s id = some r) (ht : v.state? r = some t) (hend : t.isTerminal = true) :
    v.find? (after s cs) id = some r := by
  induction cs generalizing s with
  | nil => exact hr
  | cons x cs ih =>
    have hx := hcs x List.mem_cons_self
    have he := h.effect x.1 hs hx id
    rw [hr] at he
    exact ih (fun y hy => hcs y (List.mem_cons_of_mem _ hy)) (h.inv x.1 hs hx)
      (he.of_terminal ht hend).1

theorem origin_after (h : Behaves v IsAllowed Inv) {cs : List (Instant × Call)}
    (hcs : ∀ x ∈ cs, IsAllowed x.2) (hs : Inv s) {id : Int} {r : ρ} (hr : v.find? s id = some r) :
    ∃ r', v.find? (after s cs) id = some r' ∧ v.origin r' = v.origin r := by
  induction cs generalizing s r with
  | nil => exact ⟨r, hr, rfl⟩
  | cons x cs ih =>
    have hx := hcs x List.mem_cons_self
    have he := h.effect x.1 hs hx id
    rw [hr] at he
    obtain ⟨r₁, hr₁, horigin₁, -⟩ := he.of_some
    obtain ⟨r₂, hr₂, horigin₂⟩ :=
      ih (fun y hy => hcs y (List.mem_cons_of_mem _ hy)) (h.inv x.1 hs hx) hr₁
    exact ⟨r₂, hr₂, horigin₂.trans horigin₁⟩

/-- A running instance that is claimed later was deferred on the way. -/
theorem released (h : Behaves v IsAllowed Inv) (now : Instant) {cs : List (Instant × Call)}
    (hcs : ∀ x ∈ cs, IsAllowed x.2) (hs : Inv s) {id : Int} {r : ρ}
    (hr : v.find? s id = some r) (hrun : v.state? r = some .running) {c : Call}
    (hc : IsAllowed c) (hwins : Wins id c (step (after s cs) now c).1) :
    ∃ cs₁ now' c' cs₂, cs = cs₁ ++ (now', c') :: cs₂ ∧ Releases v id (after s cs₁) now' c' := by
  induction cs generalizing s r with
  | nil =>
    -- a running instance cannot be claimed
    obtain ⟨r₁, -, t, hr₁, -, ht, hclaim, -⟩ := (h.effect now hs hc id).of_wins hwins
    rw [hr] at hr₁
    cases hr₁
    rw [hrun] at ht
    cases ht
    cases hclaim
  | cons x cs ih =>
    obtain ⟨now', c'⟩ := x
    have hx : IsAllowed c' := hcs _ List.mem_cons_self
    have hrest : ∀ y ∈ cs, IsAllowed y.2 := fun y hy => hcs y (List.mem_cons_of_mem _ hy)
    have hinv := h.inv now' hs hx
    have he := h.effect now' hs hx id
    rw [after_cons] at hwins
    have later : ∀ r', v.find? (step s now' c').2 id = some r' → v.state? r' = some .running →
        ∃ cs₁ now₁ c₁ cs₂, (now', c') :: cs = cs₁ ++ (now₁, c₁) :: cs₂ ∧
          Releases v id (after s cs₁) now₁ c₁ := by
      intro r' hr' hrun'
      obtain ⟨cs₁, now₁, c₁, cs₂, rfl, hrel⟩ := ih hrest hinv hr' hrun' hwins
      exact ⟨(now', c') :: cs₁, now₁, c₁, cs₂, rfl, hrel⟩
    rw [hr] at he
    generalize hr' : v.find? (step s now' c').2 id = o' at he later
    cases he with
    | stays => exact later r rfl hrun
    | @moved _ r' _ _ hmove hnext cause =>
      have ht := hmove.target
      have hs' := hmove.source
      rw [hrun] at hs'
      cases hs'
      cases cause with
      | won => exact later r' rfl ht
      | @committed k t hc' ha =>
        by_cases hd : t.state = .deferred
        · refine ⟨[], now', c', cs, rfl, ⟨r, r', hr, hrun, hr', hd ▸ ht⟩, ?_⟩
          exact .inl ⟨k, t, hc', hd, ha⟩
        · -- a finished instance is not claimed again
          have hend : t.state.isTerminal = true := by
            cases hstate : t.state <;> rw [hstate] at hnext hd <;>
              first
                | rfl
                | exact absurd rfl hd
                | (rcases hnext with h | _ <;> cases h)
          have hstill := h.terminal_after hrest hinv hr' ht hend
          have hlast := h.effect now (h.inv_after hrest hinv) hc id
          rw [hstill] at hlast
          exact absurd hwins (hlast.of_terminal ht hend).2
      | @reset k cutoff n hc' ha =>
        exact ⟨[], now', c', cs, rfl, ⟨r, r', hr, hrun, hr', ht⟩, .inr ⟨k, cutoff, n, hc', ha⟩⟩

/-- What holds of each call holds of every run. -/
theorem lifecycle (h : Behaves v IsAllowed Inv) (h₀ : Inv s₀) (hempty : ∀ id, v.find? s₀ id = none)
    {Accepts : List (Instant × Call) → NewJob → Prop}
    (haccepts : ∀ cs now job, (∀ x ∈ cs, IsAllowed x.2) → IsAllowed (.insert job) →
      Accepts cs job → ∃ id, (step (after s₀ cs) now (.insert job)).1 = .ok (.inserted id)) :
    Lifecycle v s₀ IsAllowed Accepts where
  insert_answers := haccepts
  insert_fresh cs now job id hcs hc ha := by
    have he := h.effect now (h.inv_after hcs h₀) hc id
    generalize v.find? (after s₀ cs) id = o at he
    generalize v.find? (step (after s₀ cs) now (.insert job)).2 id = o' at he
    cases he with
    | stays _ hborn => exact absurd ha hborn
    | born _ _ hstate => exact ⟨rfl, _, rfl, hstate⟩
    | moved _ _ cause =>
      cases cause with
      | won hwins => obtain ⟨⟨k, e, hc⟩, -⟩ := hwins; cases hc
      | committed hc => cases hc
      | reset hc => cases hc
  step_allowed cs now c id r hcs hc hr := by
    have he := h.effect now (h.inv_after hcs h₀) hc id
    rw [hr] at he
    obtain ⟨r', hr', -, hsame | ⟨s, t, hs, ht, hnext⟩⟩ := he.of_some
    · exact ⟨r', hr', .inl hsame⟩
    · exact ⟨r', hr', .inr ⟨s, t, hs, ht, State.canBecome_iff.2 hnext⟩⟩
  terminal_stays cs ds id r s hcs hr hs hend := by
    rw [after_append]
    have hcs' := List.forall_mem_append.1 hcs
    exact h.terminal_after hcs'.2 (h.inv_after hcs'.1 h₀) hr hs hend
  released_between cs ds id now₁ k₁ e₁ now₂ k₂ e₂ hcs hc ha₁ ha₂ := by
    obtain ⟨hcs, hds⟩ := List.forall_mem_append.1 hcs
    obtain ⟨hc₁, hds⟩ := List.forall_mem_cons.1 hds
    have hinv := h.inv_after hcs h₀
    have hwins₁ : Wins id (.claim k₁ id e₁) _ := ⟨⟨k₁, e₁, rfl⟩, ha₁⟩
    obtain ⟨-, r, -, -, hr, -, -, hrun⟩ := (h.effect now₁ hinv hc₁ id).of_wins hwins₁
    rw [after_append, after_cons] at ha₂
    obtain ⟨ds₁, now, c, ds₂, rfl, hrel⟩ :=
      h.released now₂ hds (h.inv now₁ hinv hc₁) hr hrun hc ⟨⟨k₂, e₂, rfl⟩, ha₂⟩
    refine ⟨ds₁, now, c, ds₂, rfl, ?_⟩
    rw [after_append, after_cons]
    exact hrel
  claimed_iff_running cs id r hcs hr := by
    obtain ⟨s, hs, hclaimed⟩ :=
      h.sound_after hcs h₀ (fun i r hr => by rw [hempty i] at hr; cases hr) id r hr
    rw [hclaimed, hs, beq_iff_eq, Option.some.injEq]
  origin_stays cs ds id r hcs hr := by
    rw [after_append]
    have hcs' := List.forall_mem_append.1 hcs
    exact h.origin_after hcs'.2 (h.inv_after hcs'.1 h₀) hr
  idle_unchanged cs now c hcs hc := (h.step_spec now (h.inv_after hcs h₀) hc).2

end Behaves

end DueWork.Store
