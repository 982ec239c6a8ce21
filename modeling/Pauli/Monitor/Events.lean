import Mathlib.Data.List.Basic
import Pauli.Monitor.Clock
import Pauli.Beacon.Types

/-!
`NextEvents`: the events of one tick, from the slot the tick loop passes and the outcome of the
finality lookup it makes. The catch-up loop counts in `uint64`, so it is modelled with fuel: a
counter with `2^64` values that has not left the loop after `2^64` iterations never does, and
`nextEvents` is `none` exactly when the call never returns.
-/

namespace Pauli.Monitor.Events

open Pauli.Basic Pauli.Monitor.Clock Pauli.Beacon.Types

inductive EventType
  | slotPoll
  | epochBoundary
  | epochFinalized
  deriving DecidableEq, Repr

structure ScheduleEvent where
  slot : UInt64
  epoch : UInt64
  type : EventType
  validators : List UInt64
  deriving DecidableEq, Repr

/-- What `GetFinalityCheckpoints(ctx, "head")` gave `NextEvents`: an error, or the finalized
checkpoint's epoch. -/
inductive Finality
  | failed
  | ok (finalized : UInt64)
  deriving DecidableEq, Repr

/-- The catch-up loop `for e := lastFinalEpoch + 1; e <= finalizedEpoch; e++`, from the counter
`e`, for at most `fuel` iterations: `none` if it is still in the loop then. -/
def catchUp (s : Scheduler) (slot F : UInt64) : Nat → UInt64 → Option (List ScheduleEvent)
  | 0, _ => none
  | fuel + 1, e =>
    if e ≤ F then
      (catchUp s slot F fuel (e + 1)).map (⟨slot, e, .epochFinalized, s.validators⟩ :: ·)
    else some []

/-- Enough fuel for every run of the catch-up loop that ends. -/
def loopFuel : Nat := 2 ^ 64

/-- Step 2 of `NextEvents`: on the first slot of an epoch other than `lastEpoch`, the duties of
the next epoch. -/
def boundaryEvents (s : Scheduler) (slot : UInt64) : List ScheduleEvent × Scheduler :=
  let epoch := slot / slotsPerEpoch
  if slot % slotsPerEpoch = 0 ∧ epoch ≠ s.lastEpoch then
    ([⟨slot, epoch + 1, .epochBoundary, s.validators⟩], { s with lastEpoch := epoch })
  else ([], s)

/-- Step 3 of `NextEvents`: a failed lookup is logged and skipped; a finalized epoch past
`lastFinalEpoch` is caught up to. -/
def finalityEvents (s : Scheduler) (slot : UInt64) :
    Finality → Option (List ScheduleEvent × Scheduler)
  | .failed => some ([], s)
  | .ok F =>
    if s.lastFinalEpoch < F then
      (catchUp s slot F loopFuel (s.lastFinalEpoch + 1)).map (·, { s with lastFinalEpoch := F })
    else some ([], s)

/-- `NextEvents`: the slot poll, then the epoch boundary, then the finalized epochs. -/
def nextEvents (s : Scheduler) (slot : UInt64) (fin : Finality) :
    Option (List ScheduleEvent × Scheduler) :=
  let poll : ScheduleEvent := ⟨slot, slot / slotsPerEpoch, .slotPoll, s.validators⟩
  let b := boundaryEvents s slot
  (finalityEvents b.2 slot fin).map fun f => (poll :: b.1 ++ f.1, f.2)

/-- Successive `NextEvents` calls: the events of each call and the last state, or `none` if a
call never returns. -/
def runEvents :
    Scheduler → List (UInt64 × Finality) → Option (List (List ScheduleEvent) × Scheduler)
  | s, [] => some ([], s)
  | s, (slot, fin) :: rest =>
    (nextEvents s slot fin).bind fun r => (runEvents r.2 rest).map fun q => (r.1 :: q.1, q.2)

/-- A scheduler as the monitor starts it: `NewScheduler`, then `Initialize`. -/
def fresh (validators : List UInt64) (intervalSlots : Int) (genesis : UInt64) : Scheduler :=
  setGenesis (newScheduler validators intervalSlots) genesis

def epochsOf (t : EventType) (evs : List ScheduleEvent) : List UInt64 :=
  (evs.filter (·.type == t)).map (·.epoch)

def raiseFinal (m : UInt64) : Finality → UInt64
  | .failed => m
  | .ok F => if m < F then F else m

def nextLastEpoch (m slot : UInt64) : UInt64 :=
  if slot % slotsPerEpoch = 0 then slot / slotsPerEpoch else m

def maxFinalized (ins : List (UInt64 × Finality)) : UInt64 := ins.foldl (raiseFinal · ·.2) 0

def lastBoundaryEpoch (slots : List UInt64) : UInt64 := slots.foldl nextLastEpoch 0

def finalizedRange (s : Scheduler) (slot : UInt64) (a n : Nat) : List ScheduleEvent :=
  (List.range' a n).map fun k => ⟨slot, UInt64.ofNat k, .epochFinalized, s.validators⟩

/-! ### Events of a type -/

@[simp] lemma epochsOf_nil (t : EventType) : epochsOf t [] = [] := rfl

lemma epochsOf_append (t : EventType) (a b : List ScheduleEvent) :
    epochsOf t (a ++ b) = epochsOf t a ++ epochsOf t b := by
  simp [epochsOf]

lemma epochsOf_cons (t : EventType) (e : ScheduleEvent) (evs : List ScheduleEvent) :
    epochsOf t (e :: evs) = (if e.type = t then [e.epoch] else []) ++ epochsOf t evs := by
  by_cases h : e.type = t <;> simp [epochsOf, List.filter_cons, h]

/-! ### The catch-up loop -/

theorem catchUp_maxUint64 (s : Scheduler) (slot : UInt64) :
    ∀ fuel e, catchUp s slot maxUint64 fuel e = none
  | 0, _ => rfl
  | fuel + 1, e => by
    have he : e ≤ maxUint64 := by
      rw [u64_le_iff, toNat_maxUint64]; have := u64_toNat_lt e; omega
    simp only [catchUp, if_pos he, catchUp_maxUint64 s slot fuel (e + 1), Option.map_none']

theorem catchUp_eq (s : Scheduler) (slot F : UInt64) (hF : F.toNat < 2 ^ 64 - 1) :
    ∀ fuel e, e.toNat ≤ F.toNat + 1 → F.toNat + 1 - e.toNat < fuel →
      catchUp s slot F fuel e = some (finalizedRange s slot e.toNat (F.toNat + 1 - e.toNat))
  | 0, _, _, h => absurd h (Nat.not_lt_zero _)
  | fuel + 1, e, he, hfuel => by
    by_cases hle : e ≤ F
    · have hle' : e.toNat ≤ F.toNat := hle
      have hsucc : (e + 1).toNat = e.toNat + 1 := u64_toNat_add_of_lt (by
        rw [show (1 : UInt64).toNat = 1 from rfl]; omega)
      rw [catchUp, if_pos hle, catchUp_eq s slot F hF fuel (e + 1) (by omega) (by omega), hsucc]
      have hn : F.toNat + 1 - e.toNat = (F.toNat + 1 - (e.toNat + 1)) + 1 := by omega
      simp only [Option.map_some', finalizedRange, hn, List.range'_succ, List.map_cons]
      congr
      rw [u64_eq_iff, u64_toNat_ofNat, Nat.mod_eq_of_lt (u64_toNat_lt e)]
    · have : e.toNat = F.toNat + 1 := by rw [u64_le_iff] at hle; omega
      rw [catchUp, if_neg hle, this]
      simp [finalizedRange]

/-! ### One call -/

lemma finalityEvents_spec {s s' : Scheduler} {slot : UInt64} {fin : Finality}
    {evs : List ScheduleEvent} (h : finalityEvents s slot fin = some (evs, s')) :
    s' = { s with lastFinalEpoch := raiseFinal s.lastFinalEpoch fin } ∧
      evs = finalizedRange s slot (s.lastFinalEpoch.toNat + 1)
        (s'.lastFinalEpoch.toNat - s.lastFinalEpoch.toNat) := by
  cases fin with
  | failed => cases h; simp [raiseFinal, finalizedRange]
  | ok F =>
    simp only [finalityEvents] at h
    split_ifs at h with hlt
    · have hF : F.toNat < 2 ^ 64 - 1 := by
        have hne : F ≠ maxUint64 := by rintro rfl; simp [catchUp_maxUint64] at h
        have := u64_toNat_lt F
        rw [Ne, u64_eq_iff, toNat_maxUint64] at hne
        omega
      have hlt' : s.lastFinalEpoch.toNat < F.toNat := hlt
      have hsucc : (s.lastFinalEpoch + 1).toNat = s.lastFinalEpoch.toNat + 1 :=
        u64_toNat_add_of_lt (by rw [show (1 : UInt64).toNat = 1 from rfl]; omega)
      rw [catchUp_eq s slot F hF loopFuel _ (by omega) (by unfold loopFuel; omega), hsucc] at h
      simp only [Option.map_some', Option.some.injEq, Prod.mk.injEq] at h
      obtain ⟨rfl, rfl⟩ := h
      refine ⟨by simp [raiseFinal, hlt], ?_⟩
      show _ = finalizedRange s slot _ (F.toNat - s.lastFinalEpoch.toNat)
      congr 1
      omega
    · cases h; simp [raiseFinal, hlt, finalizedRange]

lemma boundaryEvents_snd (s : Scheduler) (slot : UInt64) :
    (boundaryEvents s slot).2 = { s with lastEpoch := nextLastEpoch s.lastEpoch slot } := by
  unfold boundaryEvents nextLastEpoch
  by_cases h1 : slot % slotsPerEpoch = 0 <;> by_cases h2 : slot / slotsPerEpoch = s.lastEpoch <;>
    simp [h1, h2]

lemma boundaryEvents_fst (s : Scheduler) (slot : UInt64) :
    (boundaryEvents s slot).1 =
      if slot % slotsPerEpoch = 0 ∧ slot / slotsPerEpoch ≠ s.lastEpoch
      then [⟨slot, slot / slotsPerEpoch + 1, .epochBoundary, s.validators⟩] else [] := by
  unfold boundaryEvents; dsimp only; split_ifs <;> rfl

lemma epochsOf_finalizedRange (t : EventType) (s : Scheduler) (slot : UInt64) (a n : Nat) :
    epochsOf t (finalizedRange s slot a n) =
      if t = .epochFinalized then (List.range' a n).map UInt64.ofNat else [] := by
  induction n generalizing a with
  | zero => split_ifs <;> rfl
  | succ n ih =>
    simp only [finalizedRange, List.range'_succ, List.map_cons] at ih ⊢
    rw [epochsOf_cons, ih]
    by_cases ht : t = .epochFinalized
    · subst ht; simp
    · simp [ht, Ne.symm ht]

theorem nextEvents_spec {s s' : Scheduler} {slot : UInt64} {fin : Finality}
    {evs : List ScheduleEvent} (h : nextEvents s slot fin = some (evs, s')) :
    s' = { s with lastEpoch := nextLastEpoch s.lastEpoch slot,
                  lastFinalEpoch := raiseFinal s.lastFinalEpoch fin } ∧
      epochsOf .epochBoundary evs =
        (if slot % slotsPerEpoch = 0 ∧ slot / slotsPerEpoch ≠ s.lastEpoch
          then [slot / slotsPerEpoch + 1] else []) ∧
      epochsOf .epochFinalized evs = (List.range' (s.lastFinalEpoch.toNat + 1)
        (s'.lastFinalEpoch.toNat - s.lastFinalEpoch.toNat)).map UInt64.ofNat := by
  simp only [nextEvents, Option.map_eq_some'] at h
  obtain ⟨⟨fs, s₁⟩, hf, he⟩ := h
  simp only [Prod.mk.injEq] at he
  obtain ⟨rfl, rfl⟩ := he
  obtain ⟨rfl, rfl⟩ := finalityEvents_spec hf
  clear hf
  simp only [boundaryEvents_snd, boundaryEvents_fst, true_and]
  constructor <;> split_ifs <;> simp [epochsOf_cons, epochsOf_append, epochsOf_finalizedRange]

lemma mem_finalized {s s' : Scheduler} {slot : UInt64} {fin : Finality} {evs : List ScheduleEvent}
    (h : nextEvents s slot fin = some (evs, s')) {e : UInt64}
    (he : e ∈ epochsOf .epochFinalized evs) :
    ∃ F, fin = .ok F ∧ s.lastFinalEpoch.toNat < e.toNat ∧ e.toNat ≤ F.toNat := by
  obtain ⟨rfl, -, hF⟩ := nextEvents_spec h
  rw [hF] at he
  obtain ⟨n, hn, rfl⟩ := List.mem_map.1 he
  rw [List.mem_range'_1] at hn
  cases fin with
  | failed => simp only [raiseFinal] at hn; omega
  | ok F =>
    refine ⟨F, rfl, ?_⟩
    have hlt := u64_toNat_lt (raiseFinal s.lastFinalEpoch (.ok F))
    simp only [raiseFinal] at hn hlt
    split_ifs at hn hlt
    · rw [u64_toNat_ofNat, Nat.mod_eq_of_lt (by omega)]; omega
    · omega

/-! ### Runs -/

lemma runEvents_append (s : Scheduler) (xs ys : List (UInt64 × Finality)) :
    runEvents s (xs ++ ys) = (runEvents s xs).bind fun r =>
      (runEvents r.2 ys).map fun q => (r.1 ++ q.1, q.2) := by
  induction xs generalizing s with
  | nil => simp [runEvents]
  | cons x xs ih =>
    obtain ⟨slot, fin⟩ := x
    simp only [List.cons_append, runEvents]
    cases nextEvents s slot fin <;> simp [ih, Option.bind_assoc]
    cases runEvents _ xs <;> simp [Function.comp_def]

lemma runEvents_snoc {s s' : Scheduler} {xs : List (UInt64 × Finality)} {x : UInt64 × Finality}
    {evss : List (List ScheduleEvent)} (h : runEvents s (xs ++ [x]) = some (evss, s')) :
    ∃ evss₀ s₀ evs, runEvents s xs = some (evss₀, s₀) ∧ nextEvents s₀ x.1 x.2 = some (evs, s') ∧
      evss = evss₀ ++ [evs] := by
  rw [runEvents_append] at h
  obtain ⟨⟨evss₀, s₀⟩, h₀, h⟩ := Option.bind_eq_some.mp h
  obtain ⟨⟨evss₁, s₁⟩, h₁, h⟩ := Option.map_eq_some'.mp h
  obtain ⟨slot, fin⟩ := x
  simp only [runEvents] at h₁
  obtain ⟨⟨evs, s₂⟩, h₂, h₁⟩ := Option.bind_eq_some.mp h₁
  simp only [runEvents, Option.map_some', Option.some.injEq] at h₁
  cases h₁; cases h
  exact ⟨evss₀, s₀, evs, h₀, h₂, rfl⟩

/-! ### The finalized epochs of a run -/

lemma le_raiseFinal (m : UInt64) (fin : Finality) : m.toNat ≤ (raiseFinal m fin).toNat := by
  cases fin with
  | failed => exact le_rfl
  | ok F =>
    show m.toNat ≤ (if m < F then F else m).toNat
    split_ifs with h <;> [exact le_of_lt h; exact le_rfl]

lemma maxFinalized_snoc (xs : List (UInt64 × Finality)) (x : UInt64 × Finality) :
    maxFinalized (xs ++ [x]) = raiseFinal (maxFinalized xs) x.2 := by
  simp [maxFinalized, List.foldl_append]

lemma map_toNat_ofNat_range' {a n : Nat} (h : a + n ≤ 2 ^ 64) :
    ((List.range' a n).map UInt64.ofNat).map UInt64.toNat = List.range' a n := by
  rw [List.map_map]
  conv_rhs => rw [← List.map_id (List.range' a n)]
  refine List.map_congr_left fun x hx => ?_
  have := List.mem_range'_1.mp hx
  simp only [Function.comp_apply, u64_toNat_ofNat, id]
  omega

lemma finalized_of_run (vs : List UInt64) (k : Int) (g : UInt64) :
    ∀ (ins : List (UInt64 × Finality)) (evss : List (List ScheduleEvent)) (s' : Scheduler),
      runEvents (fresh vs k g) ins = some (evss, s') →
      (epochsOf .epochFinalized evss.flatten).map UInt64.toNat =
        List.range' 1 (maxFinalized ins).toNat ∧ s'.lastFinalEpoch = maxFinalized ins := by
  intro ins
  induction ins using List.reverseRecOn with
  | nil =>
    intro evss s' h
    cases h
    exact ⟨rfl, rfl⟩
  | append_singleton xs x ih =>
    intro evss s' h
    obtain ⟨evss₀, s₀, evs, h₀, h₁, rfl⟩ := runEvents_snoc h
    obtain ⟨hE, hM⟩ := ih evss₀ s₀ h₀
    obtain ⟨rfl, -, hF⟩ := nextEvents_spec h₁
    have hle := le_raiseFinal s₀.lastFinalEpoch x.2
    have hlt := u64_toNat_lt (raiseFinal s₀.lastFinalEpoch x.2)
    refine ⟨?_, by simp [maxFinalized_snoc, hM]⟩
    rw [List.flatten_concat, epochsOf_append, List.map_append, hE, hF, maxFinalized_snoc, ← hM,
      map_toNat_ofNat_range' (by simp only at hlt ⊢; omega)]
    simp only
    rw [Nat.add_comm _ 1, List.range'_append_1]
    congr 1
    omega

/-- **Finality catch-up.** Over every run of `NextEvents` calls from a fresh scheduler in which
every call returns, the epochs of the `EPOCH_FINALIZED` events, in order, are `1, 2, …, M`, with
`M` the largest finalized epoch returned so far, and `lastFinalEpoch = M` after the run. No call
lowers `lastFinalEpoch`, and a failed lookup or an epoch at most `lastFinalEpoch` emits no
`EPOCH_FINALIZED` event and leaves `lastFinalEpoch` as it is. -/
theorem finalized_catch_up {vs : List UInt64} {k : Int} {g : UInt64}
    {ins : List (UInt64 × Finality)} {evss : List (List ScheduleEvent)} {s' : Scheduler}
    (h : runEvents (fresh vs k g) ins = some (evss, s')) :
    (epochsOf .epochFinalized evss.flatten).map UInt64.toNat =
      List.range' 1 (maxFinalized ins).toNat ∧
    s'.lastFinalEpoch = maxFinalized ins ∧
    ∀ s slot fin evs s'', nextEvents s slot fin = some (evs, s'') →
      s.lastFinalEpoch ≤ s''.lastFinalEpoch ∧
      ((fin = .failed ∨ ∃ F, fin = .ok F ∧ F ≤ s.lastFinalEpoch) →
        epochsOf .epochFinalized evs = [] ∧ s''.lastFinalEpoch = s.lastFinalEpoch) := by
  refine ⟨(finalized_of_run vs k g ins evss s' h).1, (finalized_of_run vs k g ins evss s' h).2, ?_⟩
  intro s slot fin evs s'' hc
  obtain ⟨rfl, -, hF⟩ := nextEvents_spec hc
  refine ⟨le_raiseFinal _ _, fun hfin => ?_⟩
  have hr : raiseFinal s.lastFinalEpoch fin = s.lastFinalEpoch := by
    rcases hfin with rfl | ⟨F, rfl, hle⟩
    · rfl
    · exact if_neg (UInt64.not_lt.mpr hle)
  simp [hF, hr]

/-- A fresh scheduler whose first lookup returns the finalized epoch `2`. -/
theorem finalized_catch_up_two :
    let evss : List (List ScheduleEvent) :=
      [[⟨0, 0, .slotPoll, []⟩, ⟨0, 1, .epochFinalized, []⟩, ⟨0, 2, .epochFinalized, []⟩]]
    let s' : Scheduler := ⟨[], 1, 0, 0, 2⟩
    runEvents (fresh [] 1 0) [(0, .ok 2)] = some (evss, s') ∧
    ((epochsOf .epochFinalized evss.flatten).map UInt64.toNat =
      List.range' 1 (maxFinalized [(0, .ok 2)]).toNat ∧
    s'.lastFinalEpoch = maxFinalized [(0, .ok 2)] ∧
    ∀ s slot fin evs s'', nextEvents s slot fin = some (evs, s'') →
      s.lastFinalEpoch ≤ s''.lastFinalEpoch ∧
      ((fin = .failed ∨ ∃ F, fin = .ok F ∧ F ≤ s.lastFinalEpoch) →
        epochsOf .epochFinalized evs = [] ∧ s''.lastFinalEpoch = s.lastFinalEpoch)) := by
  intro evss s'
  have h : runEvents (fresh [] 1 0) [(0, .ok 2)] = some (evss, s') := by decide
  exact ⟨h, finalized_catch_up h⟩

/-- The failing input of the catch-up loop: a finality response whose finalized epoch is
`"18446744073709551615"` (`FAR_FUTURE_EPOCH`), which `Uint64Str` decodes to `2^64 - 1`. For it the
loop of a fresh scheduler never exits, whatever the fuel, so `NextEvents` never returns. -/
theorem nextEvents_far_future (vs : List UInt64) (k : Int) (g slot : UInt64) :
    Uint64Str.unmarshalJSON (quoted (decimal (2 ^ 64 - 1))) = .ok maxUint64 ∧
    (∀ fuel, catchUp (fresh vs k g) slot maxUint64 fuel 1 = none) ∧
    nextEvents (fresh vs k g) slot (.ok maxUint64) = none := by
  have hv := decimalValue_decimal (2 ^ 64 - 1)
  refine ⟨(uint64Str_ok_iff _ _).2 ⟨_, Or.inr rfl, digits_decimal _, by omega, by rw [hv]; rfl⟩,
    fun fuel => catchUp_maxUint64 _ _ fuel 1, ?_⟩
  have h0 : (0 : UInt64) < maxUint64 := by decide
  simp [nextEvents, finalityEvents, boundaryEvents_snd, fresh, setGenesis, newScheduler, h0,
    catchUp_maxUint64]

lemma mod_slotsPerEpoch_eq_zero (b : UInt64) : b % slotsPerEpoch = 0 ↔ b.toNat % 32 = 0 := by
  rw [u64_eq_iff, UInt64.toNat_mod]; rfl

lemma toNat_div_slotsPerEpoch (b : UInt64) : (b / slotsPerEpoch).toNat = b.toNat / 32 :=
  UInt64.toNat_div _ _

lemma toNat_div_slotsPerEpoch_add_one (b : UInt64) :
    (b / slotsPerEpoch + 1).toNat = b.toNat / 32 + 1 := by
  have h1 : (1 : UInt64).toNat = 1 := rfl
  have := u64_toNat_lt b
  rw [u64_toNat_add_of_lt (by rw [toNat_div_slotsPerEpoch, h1]; omega), toNat_div_slotsPerEpoch, h1]

lemma lastBoundaryEpoch_snoc (l : List UInt64) (x : UInt64) :
    lastBoundaryEpoch (l ++ [x]) = nextLastEpoch (lastBoundaryEpoch l) x := by
  simp [lastBoundaryEpoch, List.foldl_append]

lemma lastBoundaryEpoch_cases (l : List UInt64) : lastBoundaryEpoch l = 0 ∨
    ∃ b ∈ l, b.toNat % 32 = 0 ∧ (lastBoundaryEpoch l).toNat = b.toNat / 32 := by
  induction l using List.reverseRecOn with
  | nil => exact Or.inl rfl
  | append_singleton l x ih =>
    rw [lastBoundaryEpoch_snoc, nextLastEpoch]
    split_ifs with hx
    · exact Or.inr ⟨x, by simp, (mod_slotsPerEpoch_eq_zero x).1 hx, toNat_div_slotsPerEpoch x⟩
    · rcases ih with h | ⟨b, hb, h0, hq⟩
      · exact Or.inl h
      · exact Or.inr ⟨b, by simp [hb], h0, hq⟩

lemma lastBoundaryEpoch_le {l : List UInt64} {x : UInt64} (h : ∀ b ∈ l, b ≤ x) :
    (lastBoundaryEpoch l).toNat ≤ x.toNat / 32 := by
  rcases lastBoundaryEpoch_cases l with h0 | ⟨b, hb, -, hq⟩
  · simp [h0]
  · rw [hq]; exact Nat.div_le_div_right (h b hb)

lemma le_lastBoundaryEpoch {l : List UInt64} (hs : l.Pairwise (· ≤ ·)) {b : UInt64} (hb : b ∈ l)
    (h0 : b.toNat % 32 = 0) : b.toNat / 32 ≤ (lastBoundaryEpoch l).toNat := by
  induction l using List.reverseRecOn with
  | nil => cases hb
  | append_singleton l x ih =>
    rw [List.pairwise_append] at hs
    rw [lastBoundaryEpoch_snoc, nextLastEpoch]
    rcases List.mem_append.1 hb with hb | hb
    · split_ifs
      · rw [toNat_div_slotsPerEpoch]
        exact Nat.div_le_div_right (hs.2.2 b hb x (List.mem_singleton_self x))
      · exact ih hs.1 hb
    · obtain rfl := List.mem_singleton.1 hb
      rw [if_pos ((mod_slotsPerEpoch_eq_zero b).2 h0), toNat_div_slotsPerEpoch]

lemma boundary_gate_iff {pre : List UInt64} {slot : UInt64}
    (hs : (pre ++ [slot]).Pairwise (· ≤ ·)) :
    (slot % slotsPerEpoch = 0 ∧ slot / slotsPerEpoch ≠ lastBoundaryEpoch pre) ↔
      (slot % slotsPerEpoch = 0 ∧ 0 < slot ∧ slot ∉ pre) := by
  rw [List.pairwise_append] at hs
  have hle : ∀ b ∈ pre, b ≤ slot := fun b hb => hs.2.2 b hb slot (List.mem_singleton_self _)
  have hL := lastBoundaryEpoch_le hle
  rw [mod_slotsPerEpoch_eq_zero, Ne, u64_eq_iff, toNat_div_slotsPerEpoch, u64_lt_iff,
    UInt64.toNat_zero]
  constructor
  · rintro ⟨h0, hne⟩
    refine ⟨h0, by omega, fun hmem => ?_⟩
    have := le_lastBoundaryEpoch hs.1 hmem h0
    omega
  · rintro ⟨h0, hpos, hnot⟩
    refine ⟨h0, fun heq => ?_⟩
    rcases lastBoundaryEpoch_cases pre with hz | ⟨b, hb, hb0, hq⟩
    · rw [hz, UInt64.toNat_zero] at heq
      omega
    · have hbs : b.toNat ≤ slot.toNat := hle b hb
      have hne : b.toNat ≠ slot.toNat := fun e => hnot (u64_eq_iff.2 e ▸ hb)
      omega

lemma boundary_of_run (vs : List UInt64) (k : Int) (g : UInt64) :
    ∀ (ins : List (UInt64 × Finality)) (evss : List (List ScheduleEvent)) (s' : Scheduler),
      runEvents (fresh vs k g) ins = some (evss, s') → (ins.map Prod.fst).Pairwise (· ≤ ·) →
      s'.lastEpoch = lastBoundaryEpoch (ins.map Prod.fst) ∧
      (epochsOf .epochBoundary evss.flatten).Pairwise (· < ·) ∧
      ∀ e ∈ epochsOf .epochBoundary evss.flatten, e.toNat ≤ s'.lastEpoch.toNat + 1 := by
  intro ins
  induction ins using List.reverseRecOn with
  | nil =>
    intro evss s' h _
    cases h
    exact ⟨rfl, List.Pairwise.nil, by simp⟩
  | append_singleton xs x ih =>
    intro evss s' h hs
    obtain ⟨evss₀, s₀, evs, h₀, h₁, rfl⟩ := runEvents_snoc h
    rw [List.map_append, List.map_singleton] at hs
    obtain ⟨hL, hP, hB⟩ := ih evss₀ s₀ h₀ (List.pairwise_append.1 hs).1
    obtain ⟨rfl, hE, -⟩ := nextEvents_spec h₁
    have hmono := lastBoundaryEpoch_le fun b hb =>
      (List.pairwise_append.1 hs).2.2 b hb x.1 (List.mem_singleton_self _)
    rw [← hL] at hmono
    simp only [List.map_append, List.map_singleton, lastBoundaryEpoch_snoc, ← hL,
      List.flatten_concat, epochsOf_append, hE, true_and]
    have hdiv := toNat_div_slotsPerEpoch x.1
    have hlt := u64_toNat_lt x.1
    split_ifs with hg
    · have hne : (x.1 / slotsPerEpoch).toNat ≠ s₀.lastEpoch.toNat := fun e => hg.2 (u64_eq_iff.2 e)
      have hsucc := toNat_div_slotsPerEpoch_add_one x.1
      simp only [nextLastEpoch, if_pos hg.1, hdiv, List.pairwise_append, List.mem_singleton,
        List.pairwise_singleton, List.mem_append, true_and]
      refine ⟨⟨hP, fun a ha b hb => ?_⟩, fun e he => ?_⟩
      · rw [hb, u64_lt_iff, hsucc]; have := hB a ha; omega
      · rcases he with he | rfl
        · have := hB e he; omega
        · omega
    · simp only [List.append_nil, nextLastEpoch]
      split_ifs with h0
      · have hq : (x.1 / slotsPerEpoch) = s₀.lastEpoch := not_not.1 (fun h => hg ⟨h0, h⟩)
        exact ⟨hP, by rw [hq]; exact hB⟩
      · exact ⟨hP, hB⟩

lemma mem_boundary_of_run (vs : List UInt64) (k : Int) (g : UInt64) :
    ∀ (ins : List (UInt64 × Finality)) (evss : List (List ScheduleEvent)) (s' : Scheduler),
      runEvents (fresh vs k g) ins = some (evss, s') → (ins.map Prod.fst).Pairwise (· ≤ ·) →
      ∀ n : Nat, n ∈ (epochsOf .epochBoundary evss.flatten).map UInt64.toNat ↔
        ∃ b ∈ ins.map Prod.fst, b.toNat % 32 = 0 ∧ 0 < b.toNat ∧ n = b.toNat / 32 + 1 := by
  intro ins
  induction ins using List.reverseRecOn with
  | nil =>
    intro evss s' h _ n
    cases h
    simp
  | append_singleton xs x ih =>
    intro evss s' h hs n
    obtain ⟨evss₀, s₀, evs, h₀, h₁, rfl⟩ := runEvents_snoc h
    rw [List.map_append, List.map_singleton] at hs ⊢
    have hpre := (List.pairwise_append.1 hs).1
    obtain ⟨hL, -, -⟩ := boundary_of_run vs k g xs evss₀ s₀ h₀ hpre
    obtain ⟨-, hE, -⟩ := nextEvents_spec h₁
    rw [hL, if_congr (boundary_gate_iff hs) rfl rfl] at hE
    rw [List.flatten_concat, epochsOf_append, List.map_append, List.mem_append,
      ih evss₀ s₀ h₀ hpre, hE]
    simp only [List.mem_append, List.mem_singleton, or_and_right, exists_or, exists_eq_left]
    split_ifs with hg <;> rw [mod_slotsPerEpoch_eq_zero, u64_lt_iff, UInt64.toNat_zero] at hg
    · simp [toNat_div_slotsPerEpoch_add_one, hg.1, hg.2.1, eq_comm]
    · simp only [List.map_nil, List.not_mem_nil, or_false, iff_self_or]
      rintro ⟨h0, hpos, rfl⟩
      by_cases hx : x.1 ∈ xs.map Prod.fst
      · exact ⟨x.1, hx, h0, hpos, rfl⟩
      · exact absurd ⟨h0, hpos, hx⟩ hg

end Pauli.Monitor.Events
