/-
  What an accepted configuration holds.

  A configuration is read value by value, so what holds of it is told along the
  reading: `Yields P x` says that what `x` returns has the property `P`, and
  `Yields.bind` takes one value after the other.

  * `natural_lt`: a natural number that is read fits its width;
  * `Source.yields_getD`: a value is read, or the default;
  * `bounded_ofSource`: sizes and delays of an accepted configuration are within
    64 bits, and those that `validate` looks at are not zero.
-/
import DueWork.Config.Scheduler
import DueWork.Proofs.Time.Delays

namespace DueWork

open Time

variable {α β ε : Type} {P : α → Prop} {Q : β → Prop}

/-- What a computation returns, if it does, has a property. -/
def Yields (P : α → Prop) (x : Except ε α) : Prop := ∀ a, x = .ok a → P a

namespace Yields

variable {x : Except ε α}

theorem ok {a : α} (h : P a) : Yields P (.ok a : Except ε α) := by
  rintro _ ⟨⟩
  exact h

theorem error {e : ε} : Yields P (.error e : Except ε α) := nofun

theorem any : Yields (fun _ => True) x := fun _ _ => trivial

theorem bind {f : α → Except ε β} (hx : Yields P x) (hf : ∀ a, P a → Yields Q (f a)) :
    Yields Q (x >>= f) := by
  cases x with
  | error e => exact error
  | ok a => exact hf a (hx a rfl)

theorem map {f : α → β} (hx : Yields P x) (hf : ∀ a, P a → Q (f a)) : Yields Q (x.map f) := by
  cases x with
  | error e => exact error
  | ok a => exact ok (hf a (hx a rfl))

end Yields

/-! ## Numbers -/

namespace Number.Numeral

variable {limit n : Nat} {overflow : String} {cs : List Char}

theorem digits_le (h : n ≤ limit) : Yields (· ≤ limit) (digits limit overflow n cs) := by
  induction cs generalizing n with
  | nil => exact .ok h
  | cons c cs ih =>
    simp only [digits]
    split_ifs with _ hover
    · exact .error
    · exact .error
    · exact ih (Nat.le_of_not_lt hover)

theorem someDigits_le : Yields (· ≤ limit) (someDigits limit overflow cs) := by
  rw [someDigits]
  split_ifs
  · exact .error
  · exact digits_le (Nat.zero_le _)

/-- What is read as a natural number of some bits fits them. -/
theorem natural_lt (width : Nat) (s : String) : Yields (· < Nat.pow 2 width) (natural width s) := by
  have hpow : 0 < Nat.pow 2 width := Nat.pow_pos (by decide)
  have hdigits (cs : List Char) : Yields (fun i : Int => i.toNat < Nat.pow 2 width)
      ((someDigits (Nat.pow 2 width - 1) tooLarge cs).map Int.ofNat) :=
    someDigits_le.map fun n (hn : n ≤ Nat.pow 2 width - 1) => show n < Nat.pow 2 width by omega
  refine Yields.map (P := fun i : Int => i.toNat < Nat.pow 2 width) ?_ fun _ => id
  unfold integer
  split
  · exact .error
  · exact hdigits _
  · exact .error
  · exact hdigits _

end Number.Numeral

/-- The value of a key is one that was read, or the default. -/
theorem Source.yields_getD {read : String → Except String α} {default : α} (s : Source)
    (key : String) (hread : ∀ raw, Yields P (read raw)) (hdefault : P default) :
    Yields P (s.getD read key default) := by
  rw [getD]
  split
  case h_1 raw _ =>
    rw [readValue]
    split
    case h_1 a ha => exact .ok (hread raw a ha)
    case h_2 => exact .error
  case h_2 => exact .ok hdefault

/-! ## Durations -/

/-- A whole number of milliseconds of 64 bits. -/
def Time.Duration.IsMillis (d : Duration) : Prop := ∃ ms < Nat.pow 2 64, d.nanos = ms * 1000000

theorem Time.Duration.isMillis_ofMillis {ms : Nat} (h : ms < Nat.pow 2 64) :
    (ofMillis ms).IsMillis := ⟨ms, h, nanos_ofMillis h⟩

namespace SchedulerConfig

variable {source : Source} {c : SchedulerConfig}

theorem isMillis_millis (key : String) {default : Duration}
    (h : default.nanos / 1000000 < Nat.pow 2 64) :
    Yields Duration.IsMillis (millis source key default) :=
  (source.yields_getD key (Number.Numeral.natural_lt 64) h).map
    fun _ => Duration.isMillis_ofMillis

theorem isMillis_optionalMillis (key : String) {default : Option Duration}
    (h : ∀ d ∈ default, d.nanos / 1000000 < Nat.pow 2 64) :
    Yields (fun o : Option Duration => ∀ d ∈ o, d.IsMillis)
      (optionalMillis source key default) := by
  refine (source.yields_getD key (Number.Numeral.natural_lt 64) ?_).map fun ms hms => ?_
  · cases default with
    | none => exact Nat.pow_pos (by decide)
    | some d => exact h d rfl
  · split
    · exact nofun
    · rintro _ ⟨⟩
      exact Duration.isMillis_ofMillis hms

/-- Sizes and delays that 64 bits hold, and no size of zero. -/
structure Bounded (c : SchedulerConfig) : Prop where
  batchSize : 0 < c.batchSize ∧ c.batchSize < Nat.pow 2 64
  poolSize : 0 < c.poolSize ∧ c.poolSize < Nat.pow 2 64
  queueCapacity : c.queueCapacity < Nat.pow 2 64
  maxInFlight : 0 < c.maxInFlight ∧ c.maxInFlight < Nat.pow 2 64
  pollInterval : ∀ d ∈ c.pollInterval, d.IsMillis
  shutdownTimeout : c.shutdownTimeout.IsMillis
  processorTimeout : 0 < c.processorTimeout.nanos ∧ c.processorTimeout.IsMillis
  submitBackoff : c.submitBackoffBase.IsMillis ∧ c.submitBackoffMax.IsMillis
  suspendBackoff : c.suspendBackoffBase.IsMillis ∧ c.suspendBackoffMax.IsMillis
  storeBackoff : c.storeBackoffBase.IsMillis ∧ c.storeBackoffMax.IsMillis
  staleClaimTimeout : ∀ d ∈ c.staleClaimTimeout, d.IsMillis

theorem pos_of_requirePositive {name : String} {n : Nat} :
    Yields (fun _ => 0 < n) (requirePositive name n) := by
  rw [requirePositive]
  split_ifs with h
  · exact .error
  · exact .ok (Nat.pos_of_ne_zero h)

theorem pos_of_validate : Yields
    (fun _ => 0 < c.batchSize ∧ 0 < c.poolSize ∧ 0 < c.maxInFlight ∧ 0 < c.processorTimeout.nanos)
    c.validate := by
  refine pos_of_requirePositive.bind fun _ hbatch => ?_
  refine pos_of_requirePositive.bind fun _ hpool => ?_
  refine pos_of_requirePositive.bind fun _ hflight => ?_
  refine pos_of_requirePositive.bind fun _ htimeout => ?_
  exact fun _ _ => ⟨hbatch, hpool, hflight, htimeout⟩

/-- What is accepted was read as words, and passed the check for zeros. -/
theorem bounded_ofSource (source : Source) : Yields Bounded (ofSource source) := by
  have hsize (key : String) {n : Nat} (h : n < Nat.pow 2 64) :
      Yields (· < Nat.pow 2 64) (source.getD (Number.Numeral.natural 64) key n) :=
    source.yields_getD key (Number.Numeral.natural_lt 64) h
  have hsuspendMax : (Duration.ofSeconds 1).IsMillis := ⟨1000, by decide, by decide⟩
  refine Yields.any.bind fun names _ => Yields.any.bind fun partitions _ => ?_
  split
  · exact .error
  refine Yields.bind (hsize _ (by decide)) fun poolSize hpool => Yields.any.bind fun retry _ => ?_
  refine Yields.bind (hsize _ (by decide)) fun batch hbatch => ?_
  refine Yields.bind (hsize _ (by decide)) fun queue hqueue => ?_
  refine (hsize _ hpool).bind fun flight hflight => ?_
  refine (isMillis_optionalMillis _ (by decide)).bind fun poll hpoll => ?_
  refine (isMillis_millis _ (by decide)).bind fun shutdown hshutdown => ?_
  refine (isMillis_millis _ (by decide)).bind fun processor hprocessor => ?_
  refine (isMillis_millis _ (by decide)).bind fun submitBase hsubmitBase => ?_
  refine (isMillis_millis _ (by decide)).bind fun submitMax hsubmitMax => ?_
  refine (isMillis_millis _ (by decide)).bind fun suspend hsuspend => ?_
  refine (isMillis_millis _ (by decide)).bind fun storeBase hstoreBase => ?_
  refine (isMillis_millis _ (by decide)).bind fun storeMax hstoreMax => ?_
  refine (isMillis_optionalMillis _ (by decide)).bind fun stale hstale => ?_
  refine pos_of_validate.bind fun _ ⟨hbatch', hpool', hflight', hprocessor'⟩ => .ok ?_
  exact {
    batchSize := ⟨hbatch', hbatch⟩
    poolSize := ⟨hpool', hpool⟩
    queueCapacity := hqueue
    maxInFlight := ⟨hflight', hflight⟩
    pollInterval := hpoll
    shutdownTimeout := hshutdown
    processorTimeout := ⟨hprocessor', hprocessor⟩
    submitBackoff := ⟨hsubmitBase, hsubmitMax⟩
    suspendBackoff := ⟨hsuspend, hsuspendMax⟩
    storeBackoff := ⟨hstoreBase, hstoreMax⟩
    staleClaimTimeout := hstale }

end SchedulerConfig

end DueWork
