/-
  The ledger of a slot: the bookkeeping of one partition, and its invariant.

  A partition is registered, woken and drained by parties that only send each
  other commands.  A `Ledger` gathers all that they hold on one slot, and
  `Ledger.Ok` is what they agree on: each cycle in flight is accounted for,
  the registration comes before the wakes, and a raised flag stands for
  exactly one wake on its way.

  * `Ok.ring`, `Ok.deliver`, `Ok.report`, `Ok.register`: what is sent;
  * `Ok.handle`, `Ok.turn`: what the dispatcher does;
  * `Ok.post`, `Ok.stage`, `Ok.publish`, `Ok.forget`: how a registration
    proceeds.
-/
import DueWork.Proofs.Manager.Step

namespace DueWork

open Time Signal Schedule

/-- The dispatcher was not told of the partition yet. -/
def RegistrationStage.isEarly : RegistrationStage → Bool
  | claimed | read _ => true
  | _ => false

/-- What is held on a slot. -/
structure Ledger where
  slot : Nat
  /-- what the dispatcher knows of it -/
  state : Option SlotState
  time : Option Nat
  /-- cycles whose end was not reported -/
  unreported : Nat
  /-- commands on their way, those of other slots included -/
  commands : List Command
  /-- how far its registration has come, if it is not over -/
  stage : Option RegistrationStage
  /-- it has an actor -/
  posted : Bool
  /-- its actor can be found by name -/
  published : Bool
  pending : Bool
  /-- producers that raised the flag and are to send the wake -/
  ringing : Nat

namespace Ledger

/-- Registrations on their way to the dispatcher. -/
def registers (l : Ledger) : Nat := l.commands.countP (·.isRegister l.slot)

/-- Wakes on their way to the dispatcher. -/
def wakes (l : Ledger) : Nat := l.commands.countP (·.isWake l.slot)

/-- Cycles that were submitted and whose end was not handled. -/
def outstanding (l : Ledger) : Nat := l.unreported + l.commands.countP (·.isFinished l.slot)

/-- The dispatcher is still to be told of the partition. -/
def isEarly (l : Ledger) : Bool := l.stage.elim false RegistrationStage.isEarly

/-- The dispatcher knows the partition, or will. -/
def Announced (l : Ledger) : Prop := l.state.isSome = true ∨ 0 < l.registers

/-- A slot that is not known is registered before it is woken. -/
def Ordered (slot : Nat) : Bool → List Command → Prop
  | _, [] => True
  | known, cmd :: cs =>
    (cmd.isWake slot = true → known = true) ∧ Ordered slot (known || cmd.isRegister slot) cs

/-- What the parties agree on. -/
structure Ok (l : Ledger) : Prop where
  /-- `running` counts the cycles in flight, and a running slot is not scheduled -/
  fits : Dispatcher.Fits l.state l.time l.outstanding
  /-- a slot is registered once -/
  one : l.isEarly.toNat + l.registers + l.state.isSome.toNat ≤ 1
  absent : l.posted = false → l.stage = none ∧ ¬ l.Announced
  late : ∀ st, l.stage = some st → st.isEarly = false → l.Announced
  published : l.published = true → l.Announced
  ordered : Ordered l.slot l.state.isSome l.commands
  /-- a raised flag stands for one wake -/
  flag : l.wakes + l.ringing = l.pending.toNat
  rung : 0 < l.ringing → l.published = true

variable {l : Ledger} {cmd : Command} {cs : List Command} {slot : Nat}

/-! ## The order of commands -/

theorem ordered_append {known : Bool} (h : Ordered slot known cs)
    (hw : cmd.isWake slot = true → known = true ∨ 0 < cs.countP (·.isRegister slot)) :
    Ordered slot known (cs ++ [cmd]) := by
  induction cs generalizing known with
  | nil =>
    refine ⟨fun hc => ?_, trivial⟩
    simpa using hw hc
  | cons x cs ih =>
    obtain ⟨hx, hcs⟩ := h
    refine ⟨hx, ih hcs ?_⟩
    intro hc
    rcases hw hc with hk | hr
    · simp [hk]
    · by_cases hxr : x.isRegister slot = true
      · simp [hxr]
      · rw [List.countP_cons_of_neg hxr] at hr
        exact .inr hr

theorem Ok.append (h : l.Ok) (hf : cmd.isFinished l.slot = false)
    (hr : cmd.isRegister l.slot = false) (hw : cmd.isWake l.slot = false) :
    Ok { l with commands := l.commands ++ [cmd] } where
  fits := by simpa [outstanding, hf] using h.fits
  one := by simpa [isEarly, registers, hr] using h.one
  absent hp := by simpa [Announced, registers, hr] using h.absent hp
  late st hst he := by simpa [Announced, registers, hr] using h.late st hst he
  published hp := by simpa [Announced, registers, hr] using h.published hp
  ordered := ordered_append h.ordered fun hc => by rw [hw] at hc; cases hc
  flag := by simpa [wakes, hw] using h.flag
  rung := h.rung

/-! ## What is sent -/

theorem Ok.ring (h : l.Ok) (hp : l.pending = false) (hpub : l.published = true) :
    Ok { l with pending := true, ringing := l.ringing + 1 } := by
  have hflag := h.flag
  rw [hp] at hflag
  exact ⟨h.fits, h.one, h.absent, h.late, h.published, h.ordered,
    by simp only [wakes, Bool.toNat_false, Bool.toNat_true] at *; omega, fun _ => hpub⟩

theorem Ok.deliver (h : l.Ok) (hr : 0 < l.ringing) :
    Ok { l with ringing := l.ringing - 1, commands := l.commands ++ [.wake l.slot] } where
  fits := by simpa [outstanding, Command.isFinished] using h.fits
  one := by simpa [isEarly, registers, Command.isRegister] using h.one
  absent hp := by simpa [Announced, registers, Command.isRegister] using h.absent hp
  late st hst he := by simpa [Announced, registers, Command.isRegister] using h.late st hst he
  published hp := by simpa [Announced, registers, Command.isRegister] using h.published hp
  ordered := ordered_append h.ordered fun _ => h.published (h.rung hr)
  flag := by
    have := h.flag
    simp only [wakes, List.countP_append, Command.isWake, List.countP_singleton,
      beq_self_eq_true, if_true] at *
    omega
  rung _ := h.rung hr

theorem Ok.report {n : Nat} (h : l.Ok) (hn : l.unreported = n + 1) (r : CycleResult) :
    Ok { l with unreported := n, commands := l.commands ++ [.finished l.slot r] } where
  fits := by
    have hout : n + (l.commands ++ [Command.finished l.slot r]).countP (·.isFinished l.slot) =
        l.outstanding := by
      simp only [outstanding, hn, List.countP_append, Command.isFinished, List.countP_singleton,
        beq_self_eq_true, if_true]
      omega
    rw [outstanding, hout]; exact h.fits
  one := by simpa [isEarly, registers, Command.isRegister] using h.one
  absent hp := by simpa [Announced, registers, Command.isRegister] using h.absent hp
  late st hst he := by simpa [Announced, registers, Command.isRegister] using h.late st hst he
  published hp := by simpa [Announced, registers, Command.isRegister] using h.published hp
  ordered := ordered_append h.ordered nofun
  flag := by simpa [wakes, Command.isWake] using h.flag
  rung := h.rung

/-- A partition that the dispatcher is to be told of is not known yet, and not
    announced. -/
theorem Ok.of_early (h : l.Ok) (he : l.isEarly = true) :
    l.state.isSome = false ∧ l.registers = 0 := by
  have hone := h.one
  rw [he, Bool.toNat_true] at hone
  cases hs : l.state.isSome with
  | false => exact ⟨rfl, by omega⟩
  | true => rw [hs, Bool.toNat_true] at hone; omega

theorem Ok.register {due : Option Instant} (h : l.Ok) (hst : l.stage = some (.read due)) :
    Ok { l with stage := some .sent, commands := l.commands ++ [.register l.slot due] } := by
  obtain ⟨hknown, hreg⟩ := h.of_early (by simp [isEarly, hst, RegistrationStage.isEarly])
  have hcount : (l.commands ++ [Command.register l.slot due]).countP (·.isRegister l.slot) = 1 := by
    simpa [registers, Command.isRegister] using hreg
  have hann : Announced { l with stage := some .sent,
                                 commands := l.commands ++ [.register l.slot due] } :=
    .inr (by rw [registers, hcount]; exact Nat.one_pos)
  constructor
  case fits => simpa [outstanding, Command.isFinished] using h.fits
  case one => simp [isEarly, registers, hcount, hknown, RegistrationStage.isEarly]
  case absent =>
    intro hp
    rw [(h.absent hp).1] at hst; cases hst
  case late => exact fun _ _ _ => hann
  case published => exact fun _ => hann
  case ordered => exact ordered_append h.ordered fun hf => Bool.noConfusion hf
  case flag => simpa [wakes, Command.isWake] using h.flag
  case rung => exact h.rung

/-! ## What the dispatcher does -/

/-- A slot that is not known is not registered twice. -/
theorem Ok.unknown_of_register (h : l.Ok) (hc : l.commands = cmd :: cs)
    (hr : cmd.isRegister l.slot = true) : l.state = none := by
  have hone := h.one
  rw [registers, hc, List.countP_cons_of_pos hr] at hone
  cases hs : l.state with
  | none => rfl
  | some st => rw [hs] at hone; simp at hone

/-- A wake that is handled is one of a known slot. -/
theorem Ok.known_of_wake (h : l.Ok) (hc : l.commands = cmd :: cs)
    (hw : cmd.isWake l.slot = true) : l.state.isSome = true := by
  have hord := h.ordered
  rw [hc] at hord
  exact hord.1 hw

theorem Announced.handle {l' : Ledger} (hc : l.commands = cmd :: cs) (hc' : l'.commands = cs)
    (hslot : l'.slot = l.slot)
    (hs : l'.state.isSome = (l.state.isSome || cmd.isRegister l.slot)) :
    l'.Announced ↔ l.Announced := by
  simp only [Announced, registers, hs, hc, hc', hslot, List.countP_cons]
  cases l.state.isSome <;> cases cmd.isRegister l.slot <;> simp

theorem Ok.handle {st : Option SlotState} {t : Option Nat} (h : l.Ok)
    (hc : l.commands = cmd :: cs) (hs : st.isSome = (l.state.isSome || cmd.isRegister l.slot))
    (hf : ∀ n, Dispatcher.Fits l.state l.time (n + (cmd.isFinished l.slot).toNat) →
      Dispatcher.Fits st t n) :
    Ok { l with
      commands := cs
      state := st
      time := t
      pending := if cmd.isWake l.slot then false else l.pending } := by
  have hann : Announced { l with
      commands := cs
      state := st
      time := t
      pending := if cmd.isWake l.slot then false else l.pending } ↔ l.Announced :=
    Announced.handle hc rfl rfl hs
  have hord := h.ordered
  rw [hc] at hord
  constructor
  case fits =>
    refine hf _ ?_
    have hout : l.outstanding =
        l.unreported + cs.countP (·.isFinished l.slot) + (cmd.isFinished l.slot).toNat := by
      rw [outstanding, hc, List.countP_cons]
      cases cmd.isFinished l.slot <;> simp [Nat.add_assoc]
    exact hout ▸ h.fits
  case one =>
    have hone := h.one
    have hreg := h.unknown_of_register hc
    simp only [isEarly, registers, hc, List.countP_cons] at hone
    simp only [isEarly, registers, hs]
    cases hr : cmd.isRegister l.slot with
    | false => simpa [hr, isEarly] using hone
    | true =>
      rw [hreg hr] at hone ⊢
      simp only [hr, if_true, Option.isSome_none, Bool.toNat_false, Bool.or_true,
        Bool.toNat_true] at hone ⊢
      omega
  case absent => rw [hann]; exact h.absent
  case late => intro st' hst he; rw [hann]; exact h.late st' hst he
  case published => rw [hann]; exact h.published
  case ordered => rw [hs]; exact hord.2
  case flag =>
    -- the raised flag stood for this wake, so no other is on its way
    have hflag := h.flag
    simp only [wakes, hc, List.countP_cons] at hflag ⊢
    have hle := Bool.toNat_le l.pending
    cases hw : cmd.isWake l.slot with
    | false => simpa [hw] using hflag
    | true =>
      simp only [hw, if_true, Bool.toNat_false] at hflag ⊢
      omega
  case rung => exact h.rung

theorem Ok.turn {b sub : Bool} {answer : Option SubmitError} {st : Option SlotState}
    {t : Option Nat} (h : l.Ok)
    (hturn : Dispatcher.Turn b answer l.state l.time sub st t) :
    Ok { l with state := st, time := t, unreported := l.unreported + sub.toNat } where
  fits := by
    have := hturn.fits h.fits
    rwa [show l.outstanding + sub.toNat =
      l.unreported + sub.toNat + l.commands.countP (·.isFinished l.slot) by
        rw [outstanding]; omega] at this
  one := by simpa [isEarly, registers, hturn.isSome_eq] using h.one
  absent := by simpa [Announced, registers, hturn.isSome_eq] using h.absent
  late := by simpa [Announced, registers, hturn.isSome_eq] using h.late
  published := by simpa [Announced, registers, hturn.isSome_eq] using h.published
  ordered := by simpa [hturn.isSome_eq] using h.ordered
  flag := h.flag
  rung := h.rung

/-! ## How a registration proceeds -/

/-- A new post, taken by a registration. -/
theorem Ok.post (h : l.Ok) (hp : l.posted = false) :
    Ok { l with posted := true, stage := some .claimed } := by
  have hann := (h.absent hp).2
  constructor
  case fits => exact h.fits
  case one =>
    simp only [Announced, not_or, Bool.not_eq_true, Nat.not_lt, Nat.le_zero] at hann
    obtain ⟨hknown, hreg⟩ := hann
    rw [registers] at hreg
    simp [isEarly, registers, hreg, hknown, RegistrationStage.isEarly]
  case absent => exact fun hf => by cases hf
  case late => rintro st ⟨⟩ he; cases he
  case published => exact h.published
  case ordered => exact h.ordered
  case flag => exact h.flag
  case rung => exact h.rung

/-- A stage after which the dispatcher is still to be told, if it was before. -/
theorem Ok.stage {st : RegistrationStage} (h : l.Ok) (hsome : l.stage.isSome = true)
    (he : st.isEarly = true → l.isEarly = true) (hl : st.isEarly = false → l.Announced) :
    Ok { l with stage := some st } where
  fits := h.fits
  one := by
    have hone := h.one
    simp only [isEarly, registers, Option.elim_some] at hone ⊢
    cases hb : st.isEarly with
    | false => simp only [Bool.toNat_false]; omega
    | true =>
      have := he hb
      simp only [isEarly] at this
      rw [this] at hone
      exact hone
  absent hp := by rw [(h.absent hp).1] at hsome; cases hsome
  late := by rintro st' ⟨⟩ hst; exact hl hst
  published := h.published
  ordered := h.ordered
  flag := h.flag
  rung := h.rung

theorem Ok.publish (h : l.Ok) (hann : l.Announced) : Ok { l with published := true } :=
  ⟨h.fits, h.one, h.absent, h.late, fun _ => hann, h.ordered, h.flag, fun _ => rfl⟩

/-- The registration is over. -/
theorem Ok.forget (h : l.Ok) : Ok { l with stage := none } where
  fits := h.fits
  one := by
    have hone := h.one
    simp only [isEarly, registers, Option.elim_none, Bool.toNat_false] at hone ⊢
    omega
  absent hp := ⟨rfl, (h.absent hp).2⟩
  late _ hst := by cases hst
  published := h.published
  ordered := h.ordered
  flag := h.flag
  rung := h.rung

end Ledger

end DueWork
