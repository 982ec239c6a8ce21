import Pauli.Configuration

/-!
The scheduler's clock: `CurrentSlot`, `SlotTime` and `WaitForSlotInterval`.

A blocking call is modelled by its clock readings: `WaitForSlotInterval` reads the clock at `t0`
(in `CurrentSlot`) and at `t1` (in `time.Until`), and its timer lets it return at any time from
`waitDeadline` on.
-/

namespace Pauli.Monitor.Clock

open Pauli.Basic

/-- `SlotDuration`: 12 seconds, in nanoseconds. -/
def slotDuration : Int := 12 * 1000000000

def slotsPerEpoch : UInt64 := 32

/-- The zero `time.Time` (January 1 of year 1), in nanoseconds since the Unix epoch. -/
def zeroTime : Int := -62135596800 * 1000000000

structure Scheduler where
  validators : List UInt64
  intervalSlots : Int
  genesisTime : Int
  lastEpoch : UInt64
  lastFinalEpoch : UInt64
  deriving DecidableEq, Repr

def newScheduler (validators : List UInt64) (intervalSlots : Int) : Scheduler :=
  ⟨validators, intervalSlots, zeroTime, 0, 0⟩

/-- Seconds from January 1 of year 1 to the Unix epoch: `unixToInternal` of package `time`. -/
def unixToInternal : Int := 62135596800

/-- `Initialize`, given the `genesis_time` the node reports: `time.Unix(int64(genesis), 0)`, which
keeps the seconds since year 1 in an `int64` and so wraps for a genesis past
`2^63 - 1 - unixToInternal`. -/
def setGenesis (s : Scheduler) (genesis : UInt64) : Scheduler :=
  { s with genesisTime :=
      (wrap64 (wrap64 genesis.toNat + unixToInternal) - unixToInternal) * 1000000000 }

def currentSlot (s : Scheduler) (now : Int) : UInt64 :=
  let elapsed := sub now s.genesisTime
  if elapsed < 0 then 0 else toUint64 (elapsed / slotDuration)

def currentEpoch (s : Scheduler) (now : Int) : UInt64 := currentSlot s now / slotsPerEpoch

/-- `SlotTime`: `genesisTime.Add(time.Duration(slot) * SlotDuration)`, in `int64` arithmetic. -/
def slotTime (s : Scheduler) (slot : UInt64) : Int :=
  add s.genesisTime (wrap64 (wrap64 slot.toNat * slotDuration))

/-- The slot `WaitForSlotInterval` returns, from the reading `t0` of `CurrentSlot`. -/
def waitForSlotInterval (s : Scheduler) (t0 : Int) : UInt64 :=
  currentSlot s t0 + toUint64 s.intervalSlots

/-- The earliest time `WaitForSlotInterval` returns: it waits for `time.Until(targetTime)`, read
at `t1`, when that is positive. -/
def waitDeadline (s : Scheduler) (t0 t1 : Int) : Int :=
  let waitDuration := sub (slotTime s (waitForSlotInterval s t0)) t1
  if 0 < waitDuration then add t1 waitDuration else t1

/-! ### The clock arithmetic -/

/-- The largest slot whose start `SlotTime` computes without overflow. -/
def maxSlot : Nat := (2 ^ 63 - 1) / 12000000000

lemma currentSlot_toNat (s : Scheduler) (t : Int) :
    (currentSlot s t).toNat =
      if sub t s.genesisTime < 0 then 0 else (sub t s.genesisTime / slotDuration).toNat := by
  have hmax := sub_le_maxDuration t s.genesisTime
  simp only [currentSlot]
  split_ifs with h
  · rfl
  · unfold slotDuration maxDuration at *
    exact toNat_toUint64_of_mem (by omega) (by omega)

lemma currentSlot_le_maxSlot (s : Scheduler) (t : Int) : (currentSlot s t).toNat ≤ maxSlot := by
  have hmax := sub_le_maxDuration t s.genesisTime
  rw [currentSlot_toNat]
  unfold maxSlot slotDuration maxDuration at *
  split_ifs <;> omega

lemma currentSlot_mono (s : Scheduler) {t t' : Int} (h : t ≤ t') :
    currentSlot s t ≤ currentSlot s t' := by
  have hs := sub_mono (u := s.genesisTime) h
  rw [u64_le_iff, currentSlot_toNat, currentSlot_toNat]
  unfold slotDuration
  split_ifs <;> omega

lemma slotTime_of_le {s : Scheduler} {slot : UInt64} (h : slot.toNat ≤ maxSlot) :
    slotTime s slot = s.genesisTime + slot.toNat * slotDuration := by
  unfold maxSlot at h
  have h1 : wrap64 slot.toNat = slot.toNat := wrap64_of_mem (by unfold InInt64; omega)
  rw [slotTime, add, h1, wrap64_of_mem (by unfold InInt64 slotDuration; omega)]

lemma le_currentSlot {s : Scheduler} {n : Nat} {t : Int} (hn : n ≤ maxSlot)
    (ht : s.genesisTime + n * slotDuration ≤ t) : n ≤ (currentSlot s t).toNat := by
  have hsub : n * slotDuration ≤ sub t s.genesisTime :=
    le_sub (by omega) (by unfold maxSlot slotDuration maxDuration at *; omega)
  rw [currentSlot_toNat, if_neg (by unfold slotDuration at hsub; omega)]
  have := Int.le_ediv_of_mul_le (by decide : (0 : Int) < slotDuration) hsub
  omega

lemma waitForSlotInterval_toNat {s : Scheduler} (t0 : Int) (h0 : 0 ≤ s.intervalSlots)
    (h1 : s.intervalSlots < 2 ^ 63) :
    (waitForSlotInterval s t0).toNat = (currentSlot s t0).toNat + s.intervalSlots.toNat := by
  have hc := currentSlot_le_maxSlot s t0
  have hk := toNat_toUint64_of_mem h0 (by omega)
  unfold maxSlot at hc
  rw [waitForSlotInterval, u64_toNat_add_of_lt (by omega), hk]

theorem le_currentSlot_of_wait {s : Scheduler} {t0 t1 t : Int}
    (hslot : (waitForSlotInterval s t0).toNat ≤ maxSlot)
    (hfit : slotTime s (waitForSlotInterval s t0) - t1 ≤ maxDuration)
    (ht : waitDeadline s t0 t1 ≤ t) :
    slotTime s (waitForSlotInterval s t0) ≤ t ∧
      (waitForSlotInterval s t0).toNat ≤ (currentSlot s t).toNat := by
  have hst : slotTime s (waitForSlotInterval s t0) ≤ t := le_trans (le_add_sub hfit) ht
  exact ⟨hst, le_currentSlot hslot (by rwa [← slotTime_of_le hslot])⟩

/-! ### The slot of an instant -/

lemma currentSlot_of_lt {s : Scheduler} {t : Int} (ht : t < s.genesisTime) :
    currentSlot s t = 0 := by
  have hneg : sub t s.genesisTime < 0 := lt_of_not_le fun h => by
    have := sub_nonneg_iff.1 h
    omega
  simp only [currentSlot, hneg, ↓reduceIte]

/-- **The slot of an instant.** For a reading `t` whose distance to genesis is a `Duration`, and a
slot `s` whose successor starts where `SlotTime` computes without overflow, `CurrentSlot(t) = s`
exactly when `SlotTime(s) ≤ t < SlotTime(s + 1)`, or `s = 0` and `t` is before genesis; and before
genesis `CurrentSlot` is `0`. -/
theorem currentSlot_eq_iff (s : Scheduler) {t : Int} {slot : UInt64}
    (ht : InInt64 (t - s.genesisTime)) (hslot : (slot.toNat + 1) * 12000000000 ≤ 2 ^ 63 - 1) :
    (currentSlot s t = slot ↔
      slotTime s slot ≤ t ∧ t < slotTime s (slot + 1) ∨ slot = 0 ∧ t < s.genesisTime) ∧
    ∀ t', t' < s.genesisTime → currentSlot s t' = 0 := by
  have hmax : slot.toNat + 1 ≤ maxSlot := by unfold maxSlot; omega
  have hsucc : (slot + 1).toNat = slot.toNat + 1 :=
    u64_toNat_add_of_lt (show slot.toNat + 1 < 2 ^ 64 by unfold maxSlot at hmax; omega)
  refine ⟨?_, fun t' h => currentSlot_of_lt h⟩
  rw [slotTime_of_le (by omega), slotTime_of_le (by omega), hsucc, u64_eq_iff, u64_eq_iff,
    currentSlot_toNat, sub_of_mem ht, UInt64.toNat_zero]
  unfold slotDuration
  split_ifs <;> omega

/-- Slot `1` at genesis `0`: it starts at `12 s`. -/
theorem currentSlot_eq_iff_slot_one :
    let s : Scheduler := ⟨[], 1, 0, 0, 0⟩
    InInt64 (12000000000 - s.genesisTime) ∧ ((1 : UInt64).toNat + 1) * 12000000000 ≤ 2 ^ 63 - 1 ∧
      ((currentSlot s 12000000000 = 1 ↔
        slotTime s 1 ≤ 12000000000 ∧ 12000000000 < slotTime s (1 + 1) ∨
          (1 : UInt64) = 0 ∧ 12000000000 < s.genesisTime) ∧
      ∀ t', t' < s.genesisTime → currentSlot s t' = 0) := by
  intro s
  have ht : InInt64 (12000000000 - s.genesisTime) := by unfold InInt64; decide
  have hslot : ((1 : UInt64).toNat + 1) * 12000000000 ≤ 2 ^ 63 - 1 := by decide
  exact ⟨ht, hslot, currentSlot_eq_iff s ht hslot⟩

/-- One nanosecond before genesis `0`, a reading whose distance to genesis is in the `Duration`
range, `CurrentSlot` is `0`, but slot `0` starts at genesis: the reading lies in no slot's interval
`[SlotTime(s), SlotTime(s + 1))`. -/
theorem currentSlot_before_genesis :
    let s : Scheduler := ⟨[], 1, 0, 0, 0⟩
    InInt64 (-1 - s.genesisTime) ∧ currentSlot s (-1) = 0 ∧ ¬ slotTime s 0 ≤ -1 := by
  intro s
  refine ⟨by unfold InInt64; decide, currentSlot_of_lt (by decide), ?_⟩
  rw [slotTime_of_le (by unfold maxSlot; decide)]
  decide

end Pauli.Monitor.Clock
