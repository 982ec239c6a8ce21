import Mathlib.Algebra.Order.Ring.Int

/-!
Go's fixed-width integers and `time` values as the monitor uses them.

A `uint64` is Lean's `UInt64`, read through `toNat`. An `int64`, and a `time.Duration` (an `int64`
count of nanoseconds), is an integer kept in range by two's-complement wrapping. A `time.Time`
is an integer count of nanoseconds since the Unix epoch. Package `time` keeps its seconds since
year 1 in an `int64`: `time.Unix` wraps them, which `setGenesis` models; `Add` saturates them at
the `int64` limit, which `add` leaves out, so `SlotTime` is exact only for a genesis more than
`maxDuration` below that limit.
-/

namespace Pauli.Basic

/-! ### `uint64` -/

def maxUint64 : UInt64 := 18446744073709551615

@[simp] lemma toNat_maxUint64 : maxUint64.toNat = 2 ^ 64 - 1 := rfl

lemma u64_toNat_lt (a : UInt64) : a.toNat < 2 ^ 64 := a.toBitVec.isLt

lemma u64_toNat_add (a b : UInt64) : (a + b).toNat = (a.toNat + b.toNat) % 2 ^ 64 := by
  show (a.toBitVec + b.toBitVec).toNat = _
  simp only [BitVec.toNat_add]; rfl

lemma u64_toNat_mul (a b : UInt64) : (a * b).toNat = a.toNat * b.toNat % 2 ^ 64 := by
  show (a.toBitVec * b.toBitVec).toNat = _
  simp only [BitVec.toNat_mul]; rfl

@[simp] lemma u64_toNat_ofNat (n : Nat) : (UInt64.ofNat n).toNat = n % 2 ^ 64 := by
  simp [UInt64.toNat, UInt64.ofNat]

lemma u64_le_iff {a b : UInt64} : a ≤ b ↔ a.toNat ≤ b.toNat := Iff.rfl

lemma u64_lt_iff {a b : UInt64} : a < b ↔ a.toNat < b.toNat := Iff.rfl

lemma u64_eq_iff {a b : UInt64} : a = b ↔ a.toNat = b.toNat :=
  ⟨fun h => h ▸ rfl, UInt64.toNat.inj⟩

lemma u64_toNat_add_of_lt {a b : UInt64} (h : a.toNat + b.toNat < 2 ^ 64) :
    (a + b).toNat = a.toNat + b.toNat := by
  rw [u64_toNat_add, Nat.mod_eq_of_lt h]

/-- Go's conversion of an `int` to `uint64`: the low 64 bits of its two's complement. -/
def toUint64 (x : Int) : UInt64 := UInt64.ofNat (x % 2 ^ 64).toNat

lemma toNat_toUint64_of_mem {x : Int} (h0 : 0 ≤ x) (h1 : x < 2 ^ 64) :
    (toUint64 x).toNat = x.toNat := by
  simp only [toUint64, u64_toNat_ofNat]
  omega

/-! ### `int64` -/

/-- Two's-complement wrap into `int64`: Go's conversions to `int64` and `time.Duration`, and its
overflowing `int64` arithmetic. -/
def wrap64 (x : Int) : Int := (x + 2 ^ 63) % 2 ^ 64 - 2 ^ 63

def InInt64 (x : Int) : Prop := -2 ^ 63 ≤ x ∧ x < 2 ^ 63

instance (x : Int) : Decidable (InInt64 x) := inferInstanceAs (Decidable (_ ∧ _))

lemma wrap64_of_mem {x : Int} (h : InInt64 x) : wrap64 x = x := by
  unfold wrap64 InInt64 at *; omega

lemma wrap64_mem (x : Int) : InInt64 (wrap64 x) := by
  unfold wrap64 InInt64; omega

/-! ### `time` -/

def minDuration : Int := -2 ^ 63
def maxDuration : Int := 2 ^ 63 - 1

/-- `t.Sub(u)`: the difference `t - u`, saturated to the `Duration` range. -/
def sub (t u : Int) : Int :=
  if t - u < minDuration then minDuration else if maxDuration < t - u then maxDuration else t - u

def add (t d : Int) : Int := t + d

lemma sub_of_mem {t u : Int} (h : InInt64 (t - u)) : sub t u = t - u := by
  unfold InInt64 at h; unfold sub minDuration maxDuration; split_ifs <;> omega

lemma sub_nonneg_iff {t u : Int} : 0 ≤ sub t u ↔ u ≤ t := by
  unfold sub minDuration maxDuration; split_ifs <;> omega

lemma sub_mono {t t' u : Int} (h : t ≤ t') : sub t u ≤ sub t' u := by
  unfold sub minDuration maxDuration; split_ifs <;> omega

lemma sub_le_maxDuration (t u : Int) : sub t u ≤ maxDuration := by
  unfold sub minDuration maxDuration; split_ifs <;> omega

lemma le_sub {t u d : Int} (h : d ≤ t - u) (hd : d ≤ maxDuration) : d ≤ sub t u := by
  unfold sub minDuration maxDuration at *; split_ifs <;> omega

lemma le_add_sub {t u : Int} (h : t - u ≤ maxDuration) :
    t ≤ if 0 < sub t u then add u (sub t u) else u := by
  unfold add sub minDuration maxDuration at *; split_ifs <;> omega

end Pauli.Basic
