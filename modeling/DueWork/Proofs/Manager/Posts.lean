/-
  What is read off the posts of a manager.

  * `readAt` reads off the post of a slot: `flagAt` its flag, `signalAt` the
    flag and the early wakes;
  * `Carries`: every actor stays in its slot with its key, and a stopped one
    stays stopped.
-/
import DueWork.Proofs.Manager.Step

namespace DueWork

open Time Signal Schedule

/-! ## Posts -/

/-- What is read off the post of a slot, if there is one. -/
def readAt {α : Type} (g : Post → α) (d : α) (posts : List Post) (slot : Nat) : α :=
  ((posts[slot]?).map g).getD d

/-- The flag of a slot, down if there is no post. -/
def flagAt (posts : List Post) (slot : Nat) : Bool := readAt (·.pending) false posts slot

section Posts

variable {α : Type} {g : Post → α} {d : α} {posts : List Post} {f : Post → Post} {slot i : Nat}

theorem readAt_modify_of_ne (h : i ≠ slot) :
    readAt g d (posts.modify slot f) i = readAt g d posts i := by
  simp only [readAt, List.getElem?_modify_ne _ _ (Ne.symm h)]

/-- A change that cannot be read. -/
theorem readAt_modify (hf : ∀ p, posts[slot]? = some p → g (f p) = g p) :
    readAt g d (posts.modify slot f) i = readAt g d posts i := by
  by_cases h : i = slot
  · subst h
    simp only [readAt, List.getElem?_modify_eq]
    cases hp : posts[i]? with
    | none => rfl
    | some p => exact hf p hp
  · exact readAt_modify_of_ne h

theorem readAt_append {p : Post} (hp : g p = d) :
    readAt g d (posts ++ [p]) i = readAt g d posts i := by
  by_cases h : i < posts.length
  · simp [readAt, List.getElem?_append_left h]
  · have hle : posts.length ≤ i := Nat.le_of_not_lt h
    simp only [readAt, List.getElem?_append_right hle, List.getElem?_eq_none hle]
    cases i - posts.length with
    | zero => exact hp
    | succ n => rfl

theorem readAt_map (hf : ∀ p, g (f p) = g p) :
    readAt g d (posts.map f) i = readAt g d posts i := by
  simp only [readAt, List.getElem?_map]
  cases posts[i]? with
  | none => rfl
  | some p => exact hf p

theorem flagAt_modify_raise (h : slot < posts.length) :
    flagAt (posts.modify slot Post.raise) slot = true := by
  simp only [flagAt, readAt, List.getElem?_modify_eq, List.getElem?_eq_getElem h]; rfl

theorem flagAt_modify_lower (hf : ∀ p, (f p).pending = false) :
    flagAt (posts.modify slot f) slot = false := by
  simp only [flagAt, readAt, List.getElem?_modify_eq]
  cases posts[slot]? with
  | none => rfl
  | some p => exact hf p

end Posts

namespace System

variable {σ : Type} {s s' : System σ} {slot i : Nat}

/-! ## Signals -/

/-- The wakes of a slot that were handled while its actor was not stopped. -/
def earlyWakes (s : System σ) (slot : Nat) : Nat :=
  ((s.actor? slot).map (·.metrics.earlyWakes)).getD 0

/-- The flag of a slot and its early wakes. -/
def signalAt (posts : List Post) (slot : Nat) : Bool × Nat :=
  readAt (fun p => (p.pending, p.actor.metrics.earlyWakes)) (false, 0) posts slot

theorem signalAt_eq (s : System σ) (slot : Nat) :
    signalAt s.posts slot = (s.isPending slot, s.earlyWakes slot) := by
  unfold signalAt readAt isPending earlyWakes actor?
  cases s.posts[slot]? <;> rfl

/-! ## Actors -/

/-- The actors of one system are still in the other. -/
def Carries (s s' : System σ) : Prop :=
  ∀ slot a, s.actor? slot = some a → ∃ a', s'.actor? slot = some a' ∧ a.Persists a'

theorem Carries.trans {s'' : System σ} (h : s.Carries s') (h' : s'.Carries s'') :
    s.Carries s'' := by
  intro slot a ha
  obtain ⟨a', ha', hp⟩ := h slot a ha
  obtain ⟨a'', ha'', hp'⟩ := h' slot a' ha'
  exact ⟨a'', ha'', hp.trans hp'⟩

theorem carries_of_posts (h : s'.posts = s.posts) : s.Carries s' := by
  intro slot a ha
  refine ⟨a, ?_, .refl a⟩
  rw [actor?, h]; exact ha

theorem carries_modify {f : Post → Post} (h : s'.posts = s.posts.modify slot f)
    (hf : ∀ p, s.posts[slot]? = some p → p.actor.Persists (f p).actor) : s.Carries s' := by
  intro i a ha
  simp only [actor?, Option.map_eq_some_iff] at ha
  obtain ⟨p, hp, rfl⟩ := ha
  by_cases hi : slot = i
  · subst hi
    exact ⟨(f p).actor, by simp [actor?, h, hp], hf p hp⟩
  · exact ⟨p.actor, by simp [actor?, h, List.getElem?_modify_ne _ _ hi, hp], .refl _⟩

theorem carries_append {p : Post} (h : s'.posts = s.posts ++ [p]) : s.Carries s' := by
  intro i a ha
  simp only [actor?, Option.map_eq_some_iff] at ha
  obtain ⟨q, hq, rfl⟩ := ha
  obtain ⟨hlt, -⟩ := List.getElem?_eq_some_iff.1 hq
  exact ⟨q.actor, by simp [actor?, h, List.getElem?_append_left hlt, hq], .refl _⟩

theorem carries_map {f : Post → Post} (h : s'.posts = s.posts.map f)
    (hf : ∀ p : Post, p.actor.Persists (f p).actor) : s.Carries s' := by
  intro i a ha
  simp only [actor?, Option.map_eq_some_iff] at ha
  obtain ⟨p, hp, rfl⟩ := ha
  exact ⟨(f p).actor, by simp [actor?, h, hp], hf p⟩

theorem Carries.isStopped (h : s.Carries s') {a : Actor} (ha : s.actor? slot = some a)
    (hs : s.isStopped slot = true) : s'.isStopped slot = true := by
  obtain ⟨a', ha', hp⟩ := h slot a ha
  simp only [System.isStopped, ha, ha', Option.map_some, Option.getD_some] at hs ⊢
  exact hp.isStopped hs

theorem persists_stop (a : Actor) : a.Persists a.markStopped ∧ a.Persists a.requestStop :=
  ⟨⟨rfl, fun _ => rfl⟩, ⟨rfl, id⟩⟩

end System

end DueWork
