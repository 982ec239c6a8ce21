import Pauli.Monitor.Clock

/-!
The epoch helpers of the two packages: `SlotToEpoch`, `EpochStartSlot`, `EpochEndSlot` and
`IsEpochBoundary` of package `beacon` (on the literal `32`), and `SlotToEpoch`, `EpochStartSlot`
and `IsEpochBoundary` of package `monitor` (on `SlotsPerEpoch`). The monitor calls none of them:
it computes `slot / SlotsPerEpoch` and `slot % SlotsPerEpoch` in place.

They are `uint64` arithmetic, so `epoch * 32` wraps from epoch `2^59` on, and `(epoch+1)*32 - 1`
with it: each is stated once through `toNat`, and the rest is arithmetic on `Nat`.
-/

namespace Pauli.Beacon

open Pauli.Basic

def slotToEpoch (slot : UInt64) : UInt64 := slot / 32

def epochStartSlot (epoch : UInt64) : UInt64 := epoch * 32

def epochEndSlot (epoch : UInt64) : UInt64 := (epoch + 1) * 32 - 1

def isEpochBoundary (slot : UInt64) : Bool := slot % 32 == 0

lemma u64_toNat_sub (a b : UInt64) : (a - b).toNat = (2 ^ 64 - b.toNat + a.toNat) % 2 ^ 64 :=
  BitVec.toNat_sub a.toBitVec b.toBitVec

@[simp] lemma toNat_slotToEpoch (slot : UInt64) : (slotToEpoch slot).toNat = slot.toNat / 32 :=
  UInt64.toNat_div _ _

-- `EpochStartSlot` wraps to the start of the epoch modulo `2^59`, and `EpochEndSlot` with it
@[simp] lemma toNat_epochStartSlot (epoch : UInt64) :
    (epochStartSlot epoch).toNat = 32 * (epoch.toNat % 2 ^ 59) := by
  rw [epochStartSlot, u64_toNat_mul]
  show epoch.toNat * 32 % 2 ^ 64 = _
  omega

@[simp] lemma toNat_epochEndSlot (epoch : UInt64) :
    (epochEndSlot epoch).toNat = 32 * (epoch.toNat % 2 ^ 59) + 31 := by
  have := u64_toNat_lt epoch
  rw [epochEndSlot, u64_toNat_sub, u64_toNat_mul, u64_toNat_add]
  show (2 ^ 64 - 1 + (epoch.toNat + 1) % 2 ^ 64 * 32 % 2 ^ 64) % 2 ^ 64 = _
  omega

end Pauli.Beacon

namespace Pauli.Monitor.Clock

def slotToEpoch (slot : UInt64) : UInt64 := slot / slotsPerEpoch

def epochStartSlot (epoch : UInt64) : UInt64 := epoch * slotsPerEpoch

def isEpochBoundary (slot : UInt64) : Bool := slot % slotsPerEpoch == 0

end Pauli.Monitor.Clock

namespace Pauli.Beacon

open Pauli.Basic

/-- **The slots of an epoch.** For every epoch and slot, the slot lies between `EpochStartSlot`
and `EpochEndSlot` of the epoch exactly when `SlotToEpoch` gives the epoch modulo `2^59`: up to
epoch `2^59 - 1` these are the epoch's 32 slots, and from epoch `2^59` on both products wrap and
name the slots of a lower epoch. `IsEpochBoundary` holds exactly of the slots that start their
own epoch. The monitor's copies of `SlotToEpoch`, `EpochStartSlot` and `IsEpochBoundary` compute
what the beacon package's do. -/
theorem epoch_slots (epoch slot : UInt64) :
    (epochStartSlot epoch ≤ slot ∧ slot ≤ epochEndSlot epoch ↔
      (slotToEpoch slot).toNat = epoch.toNat % 2 ^ 59) ∧
    (isEpochBoundary slot = true ↔ epochStartSlot (slotToEpoch slot) = slot) ∧
    (Monitor.Clock.slotToEpoch = slotToEpoch ∧ Monitor.Clock.epochStartSlot = epochStartSlot ∧
      Monitor.Clock.isEpochBoundary = isEpochBoundary) := by
  have := u64_toNat_lt slot
  have h32 : (32 : UInt64).toNat = 32 := rfl
  simp only [u64_le_iff, u64_eq_iff, toNat_epochStartSlot, toNat_epochEndSlot, toNat_slotToEpoch,
    isEpochBoundary, beq_iff_eq, UInt64.toNat_mod, UInt64.toNat_zero, h32]
  exact ⟨by omega, by omega, rfl, rfl, rfl⟩

/-- Epoch `2^59` has the slots of epoch `0`. -/
example : epochStartSlot 576460752303423488 = 0 ∧ epochEndSlot 576460752303423488 = 31 := by
  decide

end Pauli.Beacon
