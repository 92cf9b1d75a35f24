/-
  The wake queue as a map from slots to wake times.

  `WakeMap` is what the queue stands for: for every scheduled slot its time and
  the stamp of the call that set it, without a heap.  `WakeMap.Step` says how
  it answers a call: the earlier of two times wins, and the first slot to leave
  has the least time and of equal times the earliest stamp.

  * `WakeQueue.Indexed`: every wake is in the heap, and an entry of the heap
    that carries the stamp of a slot's wake is that wake.  Each call keeps it,
    so replaced and popped entries are never answered;
  * `step_iff`: on such a queue the map allows one answer to a call, the
    queue's;
  * `answers_as_map`: the runs of the map are the histories of the queue.
-/
import Mathlib.Data.Finset.Card
import Mathlib.Data.Prod.Lex
import Mathlib.Data.Set.Card
import DueWork.Proofs.Schedule.Heap
import DueWork.Proofs.Schedule.WakeQueue

namespace DueWork.Schedule

/-- A time and the stamp of the call that set it, compared in this order. -/
abbrev Wake := Nat ×ₗ Nat

def Wake.at (time stamp : Nat) : Wake := toLex (time, stamp)

def Wake.time (w : Wake) : Nat := (ofLex w).1

theorem Wake.time_le {w v : Wake} (h : w ≤ v) : w.time ≤ v.time := by
  rcases Prod.Lex.le_iff.1 h with h | h
  · exact Nat.le_of_lt h
  · exact Nat.le_of_eq h.1

inductive WakeCall where
  | schedule (slot time : Nat)
  | scheduledAt (slot : Nat)
  | nextDeadline
  | popDue (now : Nat)
  | len
deriving DecidableEq, Repr

inductive WakeAnswer where
  /-- the schedule changed, or it did not -/
  | changed (b : Bool)
  | time (t : Option Nat)
  | slot (s : Option Nat)
  | count (n : Nat)
deriving DecidableEq, Repr

/-! ## The map -/

structure WakeMap where
  /-- the wake of a slot that is scheduled -/
  wake? : Nat → Option Wake := fun _ => none
  /-- the last stamp that was given out -/
  stamp : Nat := 0

namespace WakeMap

variable {m m' m₁ m₂ : WakeMap} {c : WakeCall} {a a' : WakeAnswer} {slot : Nat} {w : Wake}

/-- Give a slot a time, with a fresh stamp. -/
def set (m : WakeMap) (slot time : Nat) : WakeMap where
  wake? := Function.update m.wake? slot (some (.at time (m.stamp + 1)))
  stamp := m.stamp + 1

def erase (m : WakeMap) (slot : Nat) : WakeMap :=
  { m with wake? := Function.update m.wake? slot none }

/-- The wake of the slot is the least of all. -/
def IsFirst (m : WakeMap) (slot : Nat) (w : Wake) : Prop :=
  m.wake? slot = some w ∧ ∀ s v, m.wake? s = some v → w ≤ v

/-- The answer to a call, and the map after it. -/
inductive Step (m : WakeMap) : WakeCall → WakeAnswer → WakeMap → Prop
  | set (slot time : Nat) (h : ∀ w, m.wake? slot = some w → time < w.time) :
    Step m (.schedule slot time) (.changed true) (m.set slot time)
  | keep (slot time : Nat) (w : Wake) (h : m.wake? slot = some w) (hle : w.time ≤ time) :
    Step m (.schedule slot time) (.changed false) m
  | scheduledAt (slot : Nat) :
    Step m (.scheduledAt slot) (.time ((m.wake? slot).map Wake.time)) m
  | deadline (slot : Nat) (w : Wake) (h : m.wake? slot = some w)
    (least : ∀ s v, m.wake? s = some v → w.time ≤ v.time) :
    Step m .nextDeadline (.time (some w.time)) m
  | noDeadline (h : ∀ s, m.wake? s = none) : Step m .nextDeadline (.time none) m
  | pop (now slot : Nat) (w : Wake) (h : m.IsFirst slot w) (due : w.time ≤ now) :
    Step m (.popDue now) (.slot (some slot)) (m.erase slot)
  | noPop (now : Nat) (h : ∀ s w, m.wake? s = some w → now < w.time) :
    Step m (.popDue now) (.slot none) m
  | len : Step m .len (.count {s | m.wake? s ≠ none}.ncard) m

/-- Calls with their answers, one after another. -/
inductive Run : WakeMap → List (WakeCall × WakeAnswer) → WakeMap → Prop
  | nil (m : WakeMap) : Run m [] m
  | cons {m m₁ m₂ : WakeMap} {c : WakeCall} {a : WakeAnswer} {h : List (WakeCall × WakeAnswer)}
    (first : m.Step c a m₁) (rest : Run m₁ h m₂) : Run m ((c, a) :: h) m₂

/-- No two slots have the same wake. -/
def Distinct (m : WakeMap) : Prop :=
  ∀ s s' w, m.wake? s = some w → m.wake? s' = some w → s = s'

theorem IsFirst.unique {s s' : Nat} {v : Wake} (hd : m.Distinct) (h : m.IsFirst s w)
    (h' : m.IsFirst s' v) : s = s' ∧ w = v := by
  have hwv : w = v := le_antisymm (h.2 _ _ h'.1) (h'.2 _ _ h.1)
  exact ⟨hd _ _ w h.1 (hwv ▸ h'.1), hwv⟩

/-- The map allows one answer to a call. -/
theorem Step.unique (hd : m.Distinct) (h : m.Step c a m₁) (h' : m.Step c a' m₂) :
    a = a' ∧ m₁ = m₂ := by
  cases h with
  | set slot time h =>
    cases h' with
    | set => exact ⟨rfl, rfl⟩
    | keep _ _ w hw hle => exact absurd (h w hw) (Nat.not_lt.2 hle)
  | keep slot time w hw hle =>
    cases h' with
    | set _ _ h => exact absurd (h w hw) (Nat.not_lt.2 hle)
    | keep => exact ⟨rfl, rfl⟩
  | scheduledAt => cases h'; exact ⟨rfl, rfl⟩
  | deadline s w hw least =>
    cases h' with
    | deadline s' v hv least' =>
      exact ⟨by rw [Nat.le_antisymm (least s' v hv) (least' s w hw)], rfl⟩
    | noDeadline h => rw [h s] at hw; cases hw
  | noDeadline h =>
    cases h' with
    | deadline s w hw => rw [h s] at hw; cases hw
    | noDeadline => exact ⟨rfl, rfl⟩
  | pop now s w h due =>
    cases h' with
    | pop _ s' v h' => obtain ⟨rfl, -⟩ := h.unique hd h'; exact ⟨rfl, rfl⟩
    | noPop _ hnone => exact absurd (hnone s w h.1) (Nat.not_lt.2 due)
  | noPop now hnone =>
    cases h' with
    | pop _ s w h due => exact absurd (hnone s w h.1) (Nat.not_lt.2 due)
    | noPop => exact ⟨rfl, rfl⟩
  | len => cases h'; exact ⟨rfl, rfl⟩

/-! ## Where wakes come from and where they go -/

/-- A call that gave the slot a time. -/
def sets (slot : Nat) : WakeCall × WakeAnswer → Bool
  | (.schedule s _, .changed true) => s == slot
  | _ => false

/-- A call that took the slot out. -/
def pops (slot : Nat) : WakeCall × WakeAnswer → Bool
  | (.popDue _, .slot (some s)) => s == slot
  | _ => false

/-- One if the slot is scheduled. -/
def pending (m : WakeMap) (slot : Nat) : Nat := (m.wake? slot).isSome.toNat

/-- A slot that leaves was scheduled, and one that is scheduled was set. -/
theorem Step.balance (h : m.Step c a m') (slot : Nat) :
    (pops slot (c, a)).toNat + m'.pending slot ≤ (sets slot (c, a)).toNat + m.pending slot := by
  cases h with
  | set s time h =>
    by_cases hs : s = slot
    · subst hs
      simp [pops, sets, pending, WakeMap.set]
    · have hne : slot ≠ s := Ne.symm hs
      simp [pops, sets, pending, WakeMap.set, Function.update_of_ne hne]
  | pop now s w h =>
    by_cases hs : s = slot
    · subst hs
      simp [pops, sets, pending, erase, h.1]
    · have hne : slot ≠ s := Ne.symm hs
      simp [pops, sets, hs, pending, erase, Function.update_of_ne hne]
  | _ => simp [pops, sets]

theorem Run.balance {h : List (WakeCall × WakeAnswer)} (hr : m.Run h m') (slot : Nat) :
    h.countP (pops slot) + m'.pending slot ≤ h.countP (sets slot) + m.pending slot := by
  induction hr with
  | nil => simp
  | cons first rest ih =>
    have hb := first.balance slot
    simp only [List.countP_cons, Bool.toNat] at hb ⊢
    grind

/-- A scheduled slot that is not taken out stays scheduled, no later than it
    was. -/
theorem Step.stays (h : m.Step c a m') (hw : m.wake? slot = some w)
    (hp : pops slot (c, a) = false) : ∃ v, m'.wake? slot = some v ∧ v.time ≤ w.time := by
  cases h with
  | set s time h =>
    by_cases hs : s = slot
    · subst hs
      exact ⟨.at time (m.stamp + 1), Function.update_self .., Nat.le_of_lt (h w hw)⟩
    · exact ⟨w, (Function.update_of_ne (Ne.symm hs) ..).trans hw, Nat.le_refl _⟩
  | pop now s w' h =>
    have hs : slot ≠ s := by
      rintro rfl
      simp [pops] at hp
    exact ⟨w, (Function.update_of_ne hs ..).trans hw, Nat.le_refl _⟩
  | _ => exact ⟨w, hw, Nat.le_refl _⟩

theorem Run.stays {h : List (WakeCall × WakeAnswer)} (hr : m.Run h m')
    (hw : m.wake? slot = some w) (hp : ∀ e ∈ h, pops slot e = false) :
    ∃ v, m'.wake? slot = some v ∧ v.time ≤ w.time := by
  induction hr generalizing w with
  | nil => exact ⟨w, hw, Nat.le_refl _⟩
  | cons first rest ih =>
    obtain ⟨hfirst, hrest⟩ := List.forall_mem_cons.1 hp
    obtain ⟨v, hv, hle⟩ := first.stays hw hfirst
    obtain ⟨u, hu, hle'⟩ := ih hv hrest
    exact ⟨u, hu, Nat.le_trans hle' hle⟩

end WakeMap

/-! ## The heap of wakes -/

namespace WakeEntry

/-- The wake that an entry was made for. -/
def wake (e : WakeEntry) : Wake := .at e.time e.generation

theorem le_iff {a b : WakeEntry} : a.le b = true ↔ a.wake ≤ b.wake := by
  simp [le, wake, Wake.at, Prod.Lex.toLex_le_toLex]

theorem before_trans (a b c : WakeEntry) (hab : a.le b = true) (hbc : b.le c = true) :
    a.le c = true :=
  le_iff.2 ((le_iff.1 hab).trans (le_iff.1 hbc))

theorem before_total (a b : WakeEntry) : a.le b = true ∨ b.le a = true := by
  rw [le_iff, le_iff]
  exact le_total _ _

end WakeEntry

namespace WakeQueue

variable {q : WakeQueue} {live : List (Nat × (Nat × Nat))} {h : Heap WakeEntry} {e : WakeEntry}
variable {c : WakeCall} {a : WakeAnswer} {m : WakeMap}

/-! ## Replaced entries -/

theorem isLive_iff : isLive live e = true ↔ ∃ t, live.lookup e.slot = some (t, e.generation) := by
  simp [isLive, Option.map_eq_some_iff]

theorem ordered_dropStale (ho : h.Ordered WakeEntry.le) :
    (dropStale live h).Ordered WakeEntry.le := by
  fun_induction dropStale live h with
  | case1 => exact ho
  | case2 e l r hl => exact ho
  | case3 e l r hl ih => exact ih (ho.pop WakeEntry.before_trans WakeEntry.before_total)

/-- Only replaced entries are dropped. -/
theorem mem_dropStale (he : isLive live e = true) :
    e ∈ (dropStale live h).toList ↔ e ∈ h.toList := by
  fun_induction dropStale live h with
  | case1 => rfl
  | case2 => rfl
  | case3 x l r hx ih =>
    rw [ih, Heap.mem_iff_of_peek? (h := .node x l r) rfl]
    refine ⟨.inr, fun hor => hor.resolve_left ?_⟩
    rintro rfl
    exact hx he

theorem mem_of_mem_dropStale (he : e ∈ (dropStale live h).toList) : e ∈ h.toList := by
  fun_induction dropStale live h with
  | case1 => exact he
  | case2 => exact he
  | case3 x l r hx ih => exact (Heap.mem_iff_of_peek? rfl).2 (.inr (ih he))

theorem isLive_of_peek? (he : (dropStale live h).peek? = some e) : isLive live e = true := by
  fun_induction dropStale live h with
  | case1 => cases he
  | case2 x l r hx => cases he; exact hx
  | case3 x l r hx ih => exact ih he

/-! ## The invariant -/

/-- The heap is an index of the wakes. -/
structure Indexed (q : WakeQueue) : Prop where
  nodup : (q.live.map (·.1)).Nodup
  ordered : q.heap.Ordered WakeEntry.le
  /-- every wake has an entry -/
  present : ∀ s t g, q.live.lookup s = some (t, g) → ⟨t, g, s⟩ ∈ q.heap.toList
  /-- an entry is known by its generation, -/
  unique : ∀ e ∈ q.heap.toList, ∀ f ∈ q.heap.toList, e.generation = f.generation → e = f
  /-- which is not a later one -/
  old : ∀ e ∈ q.heap.toList, e.generation ≤ q.nextGeneration

theorem indexed_empty : ({} : WakeQueue).Indexed where
  nodup := .nil
  ordered := trivial
  present := nofun
  unique := nofun
  old := nofun

theorem lookup_eraseKey_self (s : Nat) : (eraseKey s live).lookup s = none :=
  lookup_filter_self s live

theorem lookup_eraseKey_of_ne {s i : Nat} (hi : i ≠ s) :
    (eraseKey s live).lookup i = live.lookup i :=
  lookup_filter_of_ne hi live

theorem nodup_eraseKey (s : Nat) (h : (live.map (·.1)).Nodup) :
    ((eraseKey s live).map (·.1)).Nodup :=
  h.sublist (List.filter_sublist.map _)

theorem Indexed.insert (hq : q.Indexed) (slot time : Nat) : (q.insert slot time).Indexed where
  nodup := by
    simp only [WakeQueue.insert, List.map_cons, List.nodup_cons]
    refine ⟨?_, nodup_eraseKey slot hq.nodup⟩
    simp [eraseKey]
  ordered := hq.ordered.push WakeEntry.before_trans WakeEntry.before_total
  present s t g hs := by
    simp only [WakeQueue.insert] at hs ⊢
    rw [Heap.mem_push]
    by_cases h : s = slot
    · subst h
      rw [List.lookup_cons_self, Option.some.injEq, Prod.mk.injEq] at hs
      exact .inl (by rw [hs.1, hs.2])
    · rw [lookup_cons_of_ne h, lookup_eraseKey_of_ne h] at hs
      exact .inr (hq.present s t g hs)
  unique e he f hf hg := by
    simp only [WakeQueue.insert, Heap.mem_push] at he hf
    rcases he with rfl | he <;> rcases hf with rfl | hf
    · rfl
    · -- the generation of the new entry is above all others
      exact absurd (hq.old f hf) (by simp only at hg; omega)
    · exact absurd (hq.old e he) (by simp only at hg; omega)
    · exact hq.unique e he f hf hg
  old e he := by
    simp only [WakeQueue.insert, Heap.mem_push] at he ⊢
    rcases he with rfl | he
    · exact Nat.le_refl _
    · exact Nat.le_succ_of_le (hq.old e he)

theorem Indexed.discardStale (hq : q.Indexed) : q.discardStale.Indexed where
  nodup := hq.nodup
  ordered := ordered_dropStale hq.ordered
  present s t g hs := (mem_dropStale (isLive_iff.2 ⟨t, hs⟩)).2 (hq.present s t g hs)
  unique e he f hf := hq.unique e (mem_of_mem_dropStale he) f (mem_of_mem_dropStale hf)
  old e he := hq.old e (mem_of_mem_dropStale he)

/-- The queue without its first entry, and without the slot of that entry. -/
def takeFirst (q : WakeQueue) (slot : Nat) : WakeQueue :=
  { q with heap := q.heap.pop WakeEntry.le, live := eraseKey slot q.live }

theorem Indexed.takeFirst (hq : q.Indexed) (he : q.heap.peek? = some e) :
    (q.takeFirst e.slot).Indexed := by
  have hsub {f : WakeEntry} (hf : f ∈ (q.heap.pop WakeEntry.le).toList) : f ∈ q.heap.toList :=
    (Heap.mem_iff_of_peek? he).2 (.inr hf)
  constructor
  case nodup => exact nodup_eraseKey e.slot hq.nodup
  case ordered => exact hq.ordered.pop WakeEntry.before_trans WakeEntry.before_total
  case present =>
    intro s t g hs
    have hne : s ≠ e.slot := by
      rintro rfl
      rw [WakeQueue.takeFirst, lookup_eraseKey_self] at hs
      cases hs
    rw [WakeQueue.takeFirst, lookup_eraseKey_of_ne hne] at hs
    refine ((Heap.mem_iff_of_peek? he).1 (hq.present s t g hs)).resolve_left ?_
    rintro rfl
    exact hne rfl
  case unique => exact fun f hf f' hf' => hq.unique f (hsub hf) f' (hsub hf')
  case old => exact fun f hf => hq.old f (hsub hf)

/-! ## The queue as a map -/

def toMap (q : WakeQueue) : WakeMap where
  wake? s := (q.live.lookup s).map fun w => .at w.1 w.2
  stamp := q.nextGeneration

theorem wake?_eq_some {s : Nat} {w : Wake} :
    q.toMap.wake? s = some w ↔ ∃ t g, q.live.lookup s = some (t, g) ∧ w = .at t g := by
  simp only [toMap, Option.map_eq_some_iff, Prod.exists]
  grind

theorem time?_eq (s : Nat) : q.time? s = (q.toMap.wake? s).map Wake.time := by
  simp only [time?, toMap, Option.map_map]
  rfl

theorem toMap_insert (q : WakeQueue) (slot time : Nat) :
    (q.insert slot time).toMap = q.toMap.set slot time := by
  simp only [toMap, WakeMap.set, WakeQueue.insert, WakeMap.mk.injEq, and_true]
  funext s
  by_cases h : s = slot
  · subst h
    rw [List.lookup_cons_self, Function.update_self]
    rfl
  · rw [lookup_cons_of_ne h, lookup_eraseKey_of_ne h, Function.update_of_ne h]

theorem toMap_takeFirst (q : WakeQueue) (slot : Nat) :
    (q.takeFirst slot).toMap = q.toMap.erase slot := by
  simp only [toMap, WakeMap.erase, takeFirst, WakeMap.mk.injEq, and_true]
  funext s
  by_cases h : s = slot
  · subst h
    rw [lookup_eraseKey_self, Function.update_self]
    rfl
  · rw [lookup_eraseKey_of_ne h, Function.update_of_ne h]

theorem Indexed.distinct (hq : q.Indexed) : q.toMap.Distinct := by
  intro s s' w hs hs'
  obtain ⟨t, g, hlive, rfl⟩ := wake?_eq_some.1 hs
  obtain ⟨t', g', hlive', heq⟩ := wake?_eq_some.1 hs'
  obtain ⟨rfl, rfl⟩ := Prod.mk.inj (toLex_inj.1 heq)
  have hentry := hq.unique _ (hq.present s t g hlive) _ (hq.present s' t g hlive') rfl
  exact congrArg WakeEntry.slot hentry

/-- Once replaced entries are gone from the top, the entry at the top is the
    first wake. -/
theorem Indexed.isFirst (hq : q.Indexed) (he : q.discardStale.heap.peek? = some e) :
    q.toMap.IsFirst e.slot e.wake := by
  obtain ⟨t, hlive⟩ := isLive_iff.1 (isLive_of_peek? he)
  have hmem : e ∈ q.heap.toList := mem_of_mem_dropStale (Heap.mem_of_peek? he)
  -- the heap holds one entry of this generation, so the slot's time is the entry's
  have htime : e.time = t := congrArg WakeEntry.time
    (hq.unique e hmem _ (hq.present e.slot t e.generation hlive) rfl)
  refine ⟨wake?_eq_some.2 ⟨t, e.generation, hlive, by rw [← htime, WakeEntry.wake]⟩, ?_⟩
  intro s v hv
  obtain ⟨t', g, hs, rfl⟩ := wake?_eq_some.1 hv
  have hle := hq.discardStale.ordered.le_of_peek? WakeEntry.before_total he
    (hq.discardStale.present s t' g hs)
  exact WakeEntry.le_iff.1 hle

theorem Indexed.unscheduled (hq : q.Indexed) (he : q.discardStale.heap.peek? = none) (s : Nat) :
    q.toMap.wake? s = none := by
  rw [Option.eq_none_iff_forall_ne_some]
  intro w hw
  obtain ⟨t, g, hs, -⟩ := wake?_eq_some.1 hw
  have hmem := hq.discardStale.present s t g hs
  cases hheap : q.discardStale.heap with
  | empty => rw [hheap] at hmem; cases hmem
  | node => rw [hheap] at he; cases he

theorem Indexed.ncard (hq : q.Indexed) : {s | q.toMap.wake? s ≠ none}.ncard = q.size := by
  have hkeys : {s | q.toMap.wake? s ≠ none} = ↑(q.live.map (·.1)).toFinset := by
    ext s
    show (q.live.lookup s).map _ ≠ none ↔ s ∈ ((q.live.map (·.1)).toFinset : Set Nat)
    rw [Ne, Option.map_eq_none_iff, List.lookup_eq_none_iff, List.coe_toFinset]
    simp
  rw [hkeys, Set.ncard_coe_finset, List.toFinset_card_of_nodup hq.nodup, List.length_map, size]

/-! ## Calls -/

/-- The answer of the queue to a call, and the queue after it. -/
def call (q : WakeQueue) : WakeCall → WakeAnswer × WakeQueue
  | .schedule slot time => (.changed (q.schedule slot time).1, (q.schedule slot time).2)
  | .scheduledAt slot => (.time (q.time? slot), q)
  | .nextDeadline => (.time q.next?, q.discardStale)
  | .popDue now => (.slot (q.popDue now).1, (q.popDue now).2)
  | .len => (.count q.size, q)

/-- Calls and their answers. -/
def history (q : WakeQueue) : List WakeCall → List (WakeCall × WakeAnswer)
  | [] => []
  | c :: cs => (c, (q.call c).1) :: (q.call c).2.history cs

/-- The queue after some calls. -/
def after (q : WakeQueue) : List WakeCall → WakeQueue
  | [] => q
  | c :: cs => (q.call c).2.after cs

theorem Indexed.step (hq : q.Indexed) (c : WakeCall) :
    q.toMap.Step c (q.call c).1 (q.call c).2.toMap ∧ (q.call c).2.Indexed := by
  cases c with
  | schedule slot time =>
    simp only [call, schedule]
    cases ht : q.time? slot with
    | none =>
      simp only [toMap_insert]
      refine ⟨.set slot time fun w hw => ?_, hq.insert slot time⟩
      rw [time?_eq, hw] at ht
      cases ht
    | some current =>
      rw [time?_eq, Option.map_eq_some_iff] at ht
      obtain ⟨w, hw, rfl⟩ := ht
      simp only
      split
      case isTrue hle => exact ⟨.keep slot time w hw hle, hq⟩
      case isFalse hlt =>
        simp only [toMap_insert]
        refine ⟨.set slot time fun v hv => ?_, hq.insert slot time⟩
        obtain rfl := Option.some.inj (hw.symm.trans hv)
        exact Nat.lt_of_not_le hlt
  | scheduledAt slot =>
    simp only [call, time?_eq]
    exact ⟨.scheduledAt slot, hq⟩
  | nextDeadline =>
    refine ⟨?_, hq.discardStale⟩
    simp only [call, next?]
    cases he : q.discardStale.heap.peek? with
    | none => exact .noDeadline (hq.unscheduled he)
    | some e =>
      obtain ⟨hw, hleast⟩ := hq.isFirst he
      exact .deadline e.slot e.wake hw fun s v hv => Wake.time_le (hleast s v hv)
  | popDue now =>
    simp only [call, popDue]
    cases he : q.discardStale.heap.peek? with
    | none =>
      refine ⟨.noPop now fun s w hw => ?_, hq.discardStale⟩
      rw [hq.unscheduled he s] at hw
      cases hw
    | some e =>
      have hfirst := hq.isFirst he
      simp only
      split
      case isTrue hdue =>
        have hmap := toMap_takeFirst q.discardStale e.slot
        exact ⟨hmap ▸ .pop now e.slot e.wake hfirst hdue, hq.discardStale.takeFirst he⟩
      case isFalse hlate =>
        refine ⟨.noPop now fun s w hw => ?_, hq.discardStale⟩
        exact Nat.lt_of_lt_of_le (Nat.lt_of_not_le hlate) (Wake.time_le (hfirst.2 s w hw))
  | len =>
    simp only [call, ← hq.ncard]
    exact ⟨.len, hq⟩

/-- The map allows one answer to a call, and it is the queue's. -/
theorem Indexed.step_iff (hq : q.Indexed) :
    q.toMap.Step c a m ↔ a = (q.call c).1 ∧ m = (q.call c).2.toMap := by
  refine ⟨fun h => h.unique hq.distinct (hq.step c).1, ?_⟩
  rintro ⟨rfl, rfl⟩
  exact (hq.step c).1

theorem Indexed.run_iff (hq : q.Indexed) {h : List (WakeCall × WakeAnswer)} :
    q.toMap.Run h m ↔ h = q.history (h.map (·.1)) ∧ m = (q.after (h.map (·.1))).toMap := by
  induction h generalizing q with
  | nil =>
    constructor
    · rintro ⟨⟩
      exact ⟨rfl, rfl⟩
    · rintro ⟨-, rfl⟩
      exact .nil _
  | cons e h ih =>
    obtain ⟨c, a⟩ := e
    have ih := ih (hq.step c).2
    simp only [List.map_cons, history, after, List.cons.injEq, Prod.mk.injEq, true_and]
    constructor
    · rintro (_ | ⟨first, rest⟩)
      obtain ⟨rfl, rfl⟩ := hq.step_iff.1 first
      obtain ⟨hh, hm⟩ := ih.1 rest
      exact ⟨⟨rfl, hh⟩, hm⟩
    · rintro ⟨⟨rfl, hh⟩, hm⟩
      exact .cons (hq.step c).1 (ih.2 ⟨hh, hm⟩)

theorem Indexed.after (hq : q.Indexed) (cs : List WakeCall) : (q.after cs).Indexed := by
  induction cs generalizing q with
  | nil => exact hq
  | cons c cs ih => exact ih (hq.step c).2

theorem map_history (q : WakeQueue) (cs : List WakeCall) : (q.history cs).map (·.1) = cs := by
  induction cs generalizing q with
  | nil => rfl
  | cons c cs ih => exact congrArg (c :: ·) (ih _)

/-- The history of a queue is a run of the map. -/
theorem Indexed.run (hq : q.Indexed) (cs : List WakeCall) :
    q.toMap.Run (q.history cs) (q.after cs).toMap := by
  rw [hq.run_iff, map_history]
  exact ⟨rfl, rfl⟩

/-! ## The queue answers as the map does -/

/-- What holds of a new queue and some calls. -/
structure EarliestWins (cs : List WakeCall) : Prop where
  /-- the map allows the answers of the queue, and no others -/
  answers (h : List (WakeCall × WakeAnswer)) : h.map (·.1) = cs →
    ((∃ m, WakeMap.Run {} h m) ↔ h = history {} cs)
  /-- a slot leaves only at the time that it is scheduled for, and before all others -/
  first (now slot : Nat) : ((after {} cs).popDue now).1 = some slot →
    ∃ t ≤ now, (after {} cs).time? slot = some t ∧
      ∀ s u, (after {} cs).time? s = some u → t ≤ u
  /-- and at most once for each call that scheduled it -/
  once (slot : Nat) : (history {} cs).countP (WakeMap.pops slot) +
      ((after {} cs).time? slot).isSome.toNat ≤ (history {} cs).countP (WakeMap.sets slot)
  /-- until it leaves it stays scheduled, and its time only comes nearer -/
  stays (ds : List WakeCall) (slot t : Nat) : (after {} cs).time? slot = some t →
    (∀ e ∈ (after {} cs).history ds, WakeMap.pops slot e = false) →
    ∃ u ≤ t, ((after {} cs).after ds).time? slot = some u

/-- **The wake queue is an earliest-wins map**, whatever is called on it. -/
theorem answers_as_map (cs : List WakeCall) : EarliestWins cs := by
  have hq : (after {} cs).Indexed := indexed_empty.after cs
  have hrun : WakeMap.Run {} (history {} cs) (after {} cs).toMap := indexed_empty.run cs
  constructor
  case answers =>
    rintro h rfl
    have hiff {m : WakeMap} := indexed_empty.run_iff (h := h) (m := m)
    exact ⟨fun ⟨m, hm⟩ => (hiff.1 hm).1, fun heq => ⟨_, hiff.2 ⟨heq, rfl⟩⟩⟩
  case first =>
    intro now slot hpop
    have hstep := (hq.step (.popDue now)).1
    rw [show ((after {} cs).call (.popDue now)).1 = .slot (some slot) from
      congrArg WakeAnswer.slot hpop] at hstep
    generalize ((after {} cs).call (.popDue now)).2.toMap = m at hstep
    cases hstep with
    | pop _ _ w hfirst hdue =>
      refine ⟨w.time, hdue, by rw [time?_eq, hfirst.1]; rfl, fun s u hu => ?_⟩
      rw [time?_eq, Option.map_eq_some_iff] at hu
      obtain ⟨v, hv, rfl⟩ := hu
      exact Wake.time_le (hfirst.2 s v hv)
  case once =>
    intro slot
    have hbalance := hrun.balance slot
    rwa [WakeMap.pending, WakeMap.pending, ← Option.isSome_map (f := Wake.time), ← time?_eq]
      at hbalance
  case stays =>
    intro ds slot t ht hnone
    rw [time?_eq, Option.map_eq_some_iff] at ht
    obtain ⟨w, hw, rfl⟩ := ht
    obtain ⟨v, hv, hle⟩ := (hq.run ds).stays hw hnone
    exact ⟨v.time, hle, by rw [time?_eq, hv]; rfl⟩

/-- An earlier time replaces a later one for good, and of two slots that are
    due at one time the one that was scheduled first leaves first. -/
theorem answers_as_map_of_ties :
    ∃ m, WakeMap.Run {}
      [(.schedule 0 60, .changed true), (.schedule 0 2, .changed true),
        (.schedule 0 5, .changed false), (.schedule 2 7, .changed true),
        (.schedule 1 7, .changed true), (.len, .count 3), (.nextDeadline, .time (some 2)),
        (.popDue 2, .slot (some 0)), (.scheduledAt 0, .time none), (.popDue 6, .slot none),
        (.popDue 60, .slot (some 2)), (.popDue 60, .slot (some 1)), (.popDue 60, .slot none)] m :=
  ((answers_as_map _).answers _ rfl).2 (by decide +kernel)

end WakeQueue

end DueWork.Schedule
