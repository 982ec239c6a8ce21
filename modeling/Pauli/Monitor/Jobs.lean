import Pauli.Monitor.RunLoop

/-!
The jobs the monitor submits for its events, and the rows each job writes.

`processEvent` turns a slot poll into one `STATUS` job per validator, an epoch boundary into one
`DUTIES` job and a finalized epoch into one `REWARDS` job. A worker hands each job to `Process`,
which calls the Beacon node and saves the rows it builds from the response; a row's primary key
is made of the job's slot or epoch and the validator indices and slots of the response.
-/

namespace Pauli.Monitor.Jobs

open Pauli.Basic Pauli.Monitor.Clock Pauli.Monitor.Events Pauli.Monitor.RunLoop

inductive JobType
  | status
  | duties
  | rewards
  deriving DecidableEq, Repr

structure Job where
  validatorIndex : UInt64
  slot : UInt64
  epoch : UInt64
  type : JobType
  deriving DecidableEq, Repr

def pollValidators (event : ScheduleEvent) : List Job :=
  event.validators.map fun validatorIndex => ⟨validatorIndex, event.slot, event.epoch, .status⟩

def fetchDuties (event : ScheduleEvent) : List Job := [⟨0, event.slot, event.epoch, .duties⟩]

def fetchRewards (event : ScheduleEvent) : List Job := [⟨0, event.slot, event.epoch, .rewards⟩]

/-- `processEvent`: the jobs submitted for an event, in order, while the context is live. -/
def processEvent (event : ScheduleEvent) : List Job :=
  match event.type with
  | .slotPoll => pollValidators event
  | .epochBoundary => fetchDuties event
  | .epochFinalized => fetchRewards event

def jobTypeOf : EventType → JobType
  | .slotPoll => .status
  | .epochBoundary => .duties
  | .epochFinalized => .rewards

def jobsOf (events : List ScheduleEvent) : List Job := events.flatMap processEvent

def jobEpochs (t : JobType) (jobs : List Job) : List UInt64 :=
  (jobs.filter (·.type == t)).map (·.epoch)

/-! ### Rows -/

structure ValidatorResponse where
  status : String
  balance : UInt64
  effectiveBalance : UInt64
  deriving DecidableEq, Repr

structure AttesterDuty where
  validatorIndex : UInt64
  committeeIndex : UInt64
  validatorCommitteeIndex : UInt64
  slot : UInt64
  deriving DecidableEq, Repr

structure AttestationRewardEntry where
  validatorIndex : UInt64
  head : Int
  target : Int
  source : Int
  deriving DecidableEq, Repr

structure ValidatorSnapshot where
  validatorIndex : UInt64
  slot : UInt64
  status : String
  balance : UInt64
  effectiveBalance : UInt64
  deriving DecidableEq, Repr

structure AttestationDuty where
  validatorIndex : UInt64
  epoch : UInt64
  slot : UInt64
  committeeIndex : Int
  committeePosition : Int
  deriving DecidableEq, Repr

structure AttestationReward where
  validatorIndex : UInt64
  epoch : UInt64
  headReward : Int
  sourceReward : Int
  targetReward : Int
  totalReward : Int
  deriving DecidableEq, Repr

structure ValidatorPenalty where
  validatorIndex : UInt64
  epoch : UInt64
  slot : UInt64
  penaltyType : String
  penaltyGwei : Int
  deriving DecidableEq, Repr

def ValidatorSnapshot.key (r : ValidatorSnapshot) : UInt64 × UInt64 := (r.validatorIndex, r.slot)

def AttestationDuty.key (r : AttestationDuty) : UInt64 × UInt64 × UInt64 :=
  (r.validatorIndex, r.epoch, r.slot)

def AttestationReward.key (r : AttestationReward) : UInt64 × UInt64 := (r.validatorIndex, r.epoch)

def ValidatorPenalty.key (r : ValidatorPenalty) : UInt64 × UInt64 × UInt64 :=
  (r.validatorIndex, r.epoch, r.slot)

def penaltyTypeAttestationMiss : String := "attestation_miss"

def processStatusJob (job : Job) : Except String ValidatorResponse → Except String ValidatorSnapshot
  | .error e => .error e
  | .ok v => .ok ⟨job.validatorIndex, job.slot, v.status, v.balance, v.effectiveBalance⟩

/-- `processDutiesJob`: one duty row per entry of the response; `int(...)` of a `uint64`
wraps. -/
def processDutiesJob (job : Job) :
    Except String (List AttesterDuty) → Except String (List AttestationDuty)
  | .error e => .error e
  | .ok data => .ok <| data.map fun d =>
      ⟨d.validatorIndex, job.epoch, d.slot, wrap64 d.committeeIndex.toNat,
        wrap64 d.validatorCommitteeIndex.toNat⟩

/-- The reward row of an entry; the `int64` sum wraps. -/
def rewardRow (job : Job) (r : AttestationRewardEntry) : AttestationReward :=
  ⟨r.validatorIndex, job.epoch, r.head, r.source, r.target,
    wrap64 (wrap64 (r.head + r.source) + r.target)⟩

/-- The penalty row of an entry; the `int64` negation wraps. -/
def penaltyRow (job : Job) (r : AttestationRewardEntry) : ValidatorPenalty :=
  ⟨r.validatorIndex, job.epoch, job.slot, penaltyTypeAttestationMiss,
    wrap64 (-(rewardRow job r).totalReward)⟩

/-- One pass of `processRewardsJob`'s loop over `resp.TotalRewards`: append the entry's reward
row, and its penalty row when the total is negative. -/
def rewardsStep (job : Job) (acc : List AttestationReward × List ValidatorPenalty)
    (r : AttestationRewardEntry) : List AttestationReward × List ValidatorPenalty :=
  let reward := rewardRow job r
  (acc.1 ++ [reward], if reward.totalReward < 0 then acc.2 ++ [penaltyRow job r] else acc.2)

/-- `processRewardsJob`: the reward rows it saves and returns, and the penalty rows it saves. -/
def processRewardsJob (job : Job) :
    Except String (List AttestationRewardEntry) →
      Except String (List AttestationReward × List ValidatorPenalty)
  | .error e => .error e
  | .ok totalRewards => .ok (totalRewards.foldl (rewardsStep job) ([], []))

lemma foldl_rewardsStep (job : Job) : ∀ (rs : List AttestationRewardEntry) acc,
    rs.foldl (rewardsStep job) acc =
      (acc.1 ++ rs.map (rewardRow job),
        acc.2 ++ (rs.filter fun r => (rewardRow job r).totalReward < 0).map (penaltyRow job))
  | [], acc => by simp
  | r :: rs, acc => by
    rw [List.foldl_cons, foldl_rewardsStep job rs]
    by_cases h : (rewardRow job r).totalReward < 0 <;> simp [rewardsStep, h]

lemma processRewardsJob_ok (job : Job) (rs : List AttestationRewardEntry) :
    processRewardsJob job (.ok rs) = .ok (rs.map (rewardRow job),
      (rs.filter fun r => (rewardRow job r).totalReward < 0).map (penaltyRow job)) := by
  simp [processRewardsJob, foldl_rewardsStep]

/-! ### Jobs of events -/

@[simp] lemma jobsOf_nil : jobsOf [] = [] := rfl

lemma jobsOf_append (a b : List ScheduleEvent) : jobsOf (a ++ b) = jobsOf a ++ jobsOf b :=
  List.flatMap_append _ _ _

lemma jobEpochs_append (t : JobType) (a b : List Job) :
    jobEpochs t (a ++ b) = jobEpochs t a ++ jobEpochs t b := by
  simp [jobEpochs]

lemma jobEpochs_jobsOf {t : EventType} (ht : t ≠ .slotPoll) (evs : List ScheduleEvent) :
    jobEpochs (jobTypeOf t) (jobsOf evs) = epochsOf t evs := by
  induction evs with
  | nil => rfl
  | cons ev evs ih =>
    rw [show ev :: evs = [ev] ++ evs from rfl, jobsOf_append, jobEpochs_append, epochsOf_append, ih]
    congr 1
    cases t <;> cases h : ev.type <;>
      simp_all [jobsOf, processEvent, pollValidators, fetchDuties, fetchRewards, jobEpochs,
        epochsOf, jobTypeOf, Function.comp_def]

/-! ### One iteration of the loop -/

/-- The jobs one iteration of `runLoop` submits at `slot` while the context stays live: those of
`processEvent` for each event of `NextEvents`, in order; `none` when `NextEvents` never returns. -/
def iterationJobs (s : Scheduler) (slot : UInt64) (fin : Finality) : Option (List Job) :=
  (nextEvents s slot fin).map fun r => jobsOf r.1

/-- **An iteration at `FAR_FUTURE_EPOCH`.** When the lookup returns `2^64 - 1` above
`lastFinalEpoch`, `NextEvents` never returns, so the iteration submits no job at all: neither the
slot's `STATUS` jobs nor any `REWARDS` job. -/
theorem iterationJobs_far_future {s : Scheduler} (hs : s.lastFinalEpoch ≠ maxUint64)
    (slot : UInt64) : iterationJobs s slot (.ok maxUint64) = none := by
  have hlt : s.lastFinalEpoch < maxUint64 := by
    rw [Ne, u64_eq_iff, toNat_maxUint64] at hs
    rw [u64_lt_iff, toNat_maxUint64]
    have := u64_toNat_lt s.lastFinalEpoch
    omega
  simp only [iterationJobs, nextEvents, finalityEvents, boundaryEvents_snd, hlt, ↓reduceIte,
    catchUp_maxUint64, Option.map_none']

/-- A fresh scheduler, whose `lastFinalEpoch` is `0`, at slot `32`. -/
theorem iterationJobs_far_future_fresh :
    (fresh [7] 1 0).lastFinalEpoch ≠ maxUint64 ∧
      iterationJobs (fresh [7] 1 0) 32 (.ok maxUint64) = none := by
  have hs : (fresh [7] 1 0).lastFinalEpoch ≠ maxUint64 := by decide
  exact ⟨hs, iterationJobs_far_future hs 32⟩

/-! ### Duties before rewards -/

/-- A finality answer lags the slot of its lookup by at least two epochs: the finalized epoch is
`0` or at most the slot's epoch minus two. -/
def lagsBehind : Finality → UInt64 → Prop
  | .failed, _ => True
  | .ok F, slot => F = 0 ∨ F.toNat + 2 ≤ slot.toNat / 32

instance : (fin : Finality) → (slot : UInt64) → Decidable (lagsBehind fin slot)
  | .failed, _ => isTrue trivial
  | .ok F, slot => inferInstanceAs (Decidable (F = 0 ∨ F.toNat + 2 ≤ slot.toNat / 32))

/-- **Duties before rewards, where the loop passed the boundary.** Over a run of the loop from a
fresh scheduler (`k ≥ 1` a Go `int`, a clock that never goes back) whose last tick's finality
answer lags its slot by two epochs, each `EPOCH_FINALIZED` event of that tick for an epoch
`e ≥ 2` whose first slot before it, `32 (e - 1)`, the loop passed comes after the
`EPOCH_BOUNDARY` event for `e` of an earlier tick, and so its `REWARDS` job after that tick's
`DUTIES` job for `e`. -/
theorem duties_before_rewards {vs : List UInt64} {k : Int} {g : UInt64} {pre : List Tick}
    {tk : Tick} {evss : List (List ScheduleEvent)} {evs : List ScheduleEvent} {s' : Scheduler}
    (hk : 1 ≤ k) (hk64 : k < 2 ^ 63) (hc : Clocked (fresh vs k g) (pre ++ [tk]))
    (hlag : lagsBehind tk.fin (tickSlot (fresh vs k g) tk))
    (hrun : runLoop (fresh vs k g) (pre ++ [tk]) = some (evss ++ [evs], s'))
    {e : UInt64} (he : e ∈ epochsOf .epochFinalized evs) (h2 : 2 ≤ e.toNat)
    (hpassed : 32 * (e.toNat - 1) ∈ (pre ++ [tk]).map fun t => (tickSlot (fresh vs k g) t).toNat) :
    e ∈ epochsOf .epochBoundary evss.flatten ∧ e ∈ jobEpochs .duties (jobsOf evss.flatten) := by
  obtain ⟨s₀, h₀, h₁⟩ := runLoop_snoc hrun
  obtain ⟨F, hF, -, heF⟩ := mem_finalized h₁ he
  have hlt : 32 * (e.toNat - 1) < (tickSlot (fresh vs k g) tk).toNat := by
    rw [hF] at hlag
    rcases hlag with rfl | hlag
    · simp only [UInt64.toNat_zero] at heF; omega
    · omega
  have hpre : 32 * (e.toNat - 1) ∈ pre.map fun t => (tickSlot (fresh vs k g) t).toNat := by
    rw [List.map_append, List.mem_append] at hpassed
    rcases hpassed with h | h
    · exact h
    · simp only [List.map_cons, List.map_nil, List.mem_singleton] at h; omega
  have hp := slots_sorted (le_trans (by decide) hk) hk64 hc
  rw [List.map_append, List.pairwise_append] at hp
  have hs : ((pre.map fun t => (tickSlot (fresh vs k g) t, t.fin)).map Prod.fst).Pairwise
      (· ≤ ·) := by
    rw [map_fst_slots]; exact hp.1
  rw [runLoop_eq_runEvents] at h₀
  obtain ⟨t, ht, hte⟩ := List.mem_map.1 hpre
  have hmem := (mem_boundary_of_run vs k g _ _ _ h₀ hs e.toNat).2 <| by
    rw [map_fst_slots]
    exact ⟨_, List.mem_map_of_mem _ ht, by omega, by omega, by omega⟩
  obtain ⟨x, hx, hxe⟩ := List.mem_map.1 hmem
  obtain rfl : x = e := u64_eq_iff.2 hxe
  refine ⟨hx, ?_⟩
  rw [← jobEpochs_jobsOf (t := .epochBoundary) (by decide)] at hx
  exact hx

/-- Two ticks with `k = 32`: slot `32`, and after a long tick slot `128`, where epoch `2` is
finalized. Its duties were requested at slot `32`. -/
theorem duties_before_rewards_two :
    let s := fresh [] 32 0
    let pre : List Tick := [⟨0, 0, 384000000000, .failed⟩]
    let tk : Tick := ⟨1152000000000, 1152000000000, 1536000000000, .ok 2⟩
    let evss : List (List ScheduleEvent) := [[⟨32, 1, .slotPoll, []⟩, ⟨32, 2, .epochBoundary, []⟩]]
    let evs : List ScheduleEvent := [⟨128, 4, .slotPoll, []⟩, ⟨128, 5, .epochBoundary, []⟩,
      ⟨128, 1, .epochFinalized, []⟩, ⟨128, 2, .epochFinalized, []⟩]
    let s' : Scheduler := ⟨[], 32, 0, 4, 2⟩
    (1 : Int) ≤ 32 ∧ (32 : Int) < 2 ^ 63 ∧ Clocked s (pre ++ [tk]) ∧
      lagsBehind tk.fin (tickSlot s tk) ∧ runLoop s (pre ++ [tk]) = some (evss ++ [evs], s') ∧
      (2 : UInt64) ∈ epochsOf .epochFinalized evs ∧ 2 ≤ (2 : UInt64).toNat ∧
      32 * ((2 : UInt64).toNat - 1) ∈ (pre ++ [tk]).map (fun t => (tickSlot s t).toNat) ∧
      ((2 : UInt64) ∈ epochsOf .epochBoundary evss.flatten ∧
        (2 : UInt64) ∈ jobEpochs .duties (jobsOf evss.flatten)) := by
  intro s pre tk evss evs s'
  have hc : Clocked s (pre ++ [tk]) := by
    simp only [pre, tk, Clocked, List.singleton_append, List.chain'_cons, List.chain'_singleton,
      and_true]
    decide
  have hlag : lagsBehind tk.fin (tickSlot s tk) := by decide
  have hrun : runLoop s (pre ++ [tk]) = some (evss ++ [evs], s') := by decide
  have he : (2 : UInt64) ∈ epochsOf .epochFinalized evs := by decide
  have hpassed :
      32 * ((2 : UInt64).toNat - 1) ∈ (pre ++ [tk]).map (fun t => (tickSlot s t).toNat) := by
    decide
  exact ⟨by decide, by decide, hc, hlag, hrun, he, le_rfl, hpassed,
    duties_before_rewards (by decide) (by decide) hc hlag hrun he le_rfl hpassed⟩

/-- A run from genesis with `k = 32` that passes every boundary slot, `32`, `64` and `96`, and
learns at slot `96` that epoch `1` is finalized, two epochs behind. Epoch `1` gets its rewards,
and no duties were ever requested for it: slot `0` never opens the boundary gate. -/
theorem rewards_without_duties :
    let s := fresh [] 32 0
    let tks : List Tick := [⟨0, 0, 384000000000, .failed⟩,
      ⟨384000000000, 384000000000, 768000000000, .failed⟩,
      ⟨768000000000, 768000000000, 1152000000000, .ok 1⟩]
    Clocked s tks ∧ (∀ tk ∈ tks, lagsBehind tk.fin (tickSlot s tk)) ∧
      tks.map (tickSlot s) = [32, 64, 96] ∧
      (runLoop s tks).map (fun r => (epochsOf .epochFinalized r.1.flatten,
        epochsOf .epochBoundary r.1.flatten, jobEpochs .rewards (jobsOf r.1.flatten),
        jobEpochs .duties (jobsOf r.1.flatten))) = some ([1], [2, 3, 4], [1], [2, 3, 4]) := by
  simp only [Clocked, List.chain'_cons, List.chain'_singleton, and_true]
  decide

/-- The failing input of the snapshot key: the run of `tickSlot_overflow` with the validator
list `[7]`. Both ticks submit a `STATUS` job for validator `7` at slot `2^53`, and for any
`GetValidator` response both jobs write the `validator_snapshots` row `(7, 2^53)`. -/
theorem snapshot_written_twice (v : ValidatorResponse) :
    let s := fresh [7] (2 ^ 53) 0
    let tk : Tick := ⟨0, 0, 0, .failed⟩
    Clocked s [tk, tk] ∧
      (runLoop s [tk, tk]).map (fun r => ((jobsOf r.1.flatten).filter (·.type == .status)).map
        fun j => (processStatusJob j (.ok v)).map ValidatorSnapshot.key) =
      some [.ok (7, 9007199254740992), .ok (7, 9007199254740992)] :=
  ⟨by simp only [Clocked, List.chain'_cons, List.chain'_singleton, and_true]; decide, rfl⟩

/-! ### Keys written once, within range -/

/-- The keys of the rows each job of a list writes, each job given its own response (the rest of
the responses, or of the jobs, unused): none for a job whose lookup failed. -/
def writtenKeys {α ρ κ : Type} (process : Job → α → Except String ρ) (keys : ρ → List κ) :
    List Job → List α → List (List κ)
  | j :: jobs, r :: rs =>
    (match process j r with
      | .ok row => keys row
      | .error _ => []) :: writtenKeys process keys jobs rs
  | _, _ => []

lemma processStatusJob_key {job : Job} {r : Except String ValidatorResponse}
    {row : ValidatorSnapshot} (h : processStatusJob job r = .ok row) :
    row.key = (job.validatorIndex, job.slot) := by
  cases r with
  | error e => cases h
  | ok v => cases h; rfl

lemma processDutiesJob_epoch {job : Job} {r : Except String (List AttesterDuty)}
    {rows : List AttestationDuty} (h : processDutiesJob job r = .ok rows) :
    ∀ row ∈ rows, row.epoch = job.epoch := by
  cases r with
  | error e => cases h
  | ok data => cases h; simp

lemma processRewardsJob_epoch {job : Job} {r : Except String (List AttestationRewardEntry)}
    {rows : List AttestationReward} {pens : List ValidatorPenalty}
    (h : processRewardsJob job r = .ok (rows, pens)) :
    (∀ row ∈ rows, row.epoch = job.epoch) ∧ ∀ p ∈ pens, p.epoch = job.epoch := by
  cases r with
  | error e => cases h
  | ok data =>
    rw [processRewardsJob_ok] at h
    cases h
    exact ⟨fun row hrow => by obtain ⟨x, -, rfl⟩ := List.mem_map.1 hrow; rfl,
      fun p hp => by obtain ⟨x, -, rfl⟩ := List.mem_map.1 hp; rfl⟩

section WrittenKeys

variable {α ρ κ β : Type} {process : Job → α → Except String ρ} {keys : ρ → List κ}
  (tag : κ → β) (field : Job → β)
  (hkey : ∀ j r row, process j r = .ok row → ∀ key ∈ keys row, tag key = field j)
include hkey

lemma tag_mem_writtenKeys : ∀ {jobs : List Job} {rs : List α} {l : List κ} {key : κ},
    l ∈ writtenKeys process keys jobs rs → key ∈ l → tag key ∈ jobs.map field
  | j :: jobs, r :: rs, l, key, hl, hk => by
    rcases List.mem_cons.1 hl with rfl | hl
    · split at hk
      · exact List.mem_cons.2 (.inl (hkey j r _ ‹_› key hk))
      · cases hk
    · exact List.mem_cons_of_mem _ (tag_mem_writtenKeys hl hk)
  | [], _, _, _, hl, _ => by cases hl
  | _ :: _, [], _, _, hl, _ => by cases hl

lemma writtenKeys_pairwise_disjoint : ∀ {jobs : List Job} (rs : List α), (jobs.map field).Nodup →
    (writtenKeys process keys jobs rs).Pairwise List.Disjoint
  | j :: jobs, r :: rs, hnd => by
    rw [List.map_cons, List.nodup_cons] at hnd
    refine List.Pairwise.cons (fun l hl key hk hk' => hnd.1 ?_)
      (writtenKeys_pairwise_disjoint rs hnd.2)
    have htag : tag key = field j := by
      split at hk
      · exact hkey j r _ ‹_› key hk
      · cases hk
    exact htag ▸ tag_mem_writtenKeys tag field hkey hl hk'
  | [], _, _ => List.Pairwise.nil
  | _ :: _, [], _ => List.Pairwise.nil

end WrittenKeys

lemma filter_status_jobsOf (evs : List ScheduleEvent) :
    (jobsOf evs).filter (·.type == .status) =
      (evs.filter (·.type == .slotPoll)).flatMap pollValidators := by
  induction evs with
  | nil => rfl
  | cons ev evs ih =>
    rw [show ev :: evs = [ev] ++ evs from rfl, jobsOf_append, List.filter_append, ih,
      List.filter_append, List.flatMap_append]
    congr 1
    cases h : ev.type <;>
      simp [jobsOf, processEvent, pollValidators, fetchDuties, fetchRewards, h, Function.comp_def]

lemma filter_slotPoll_finalizedRange (s : Scheduler) (slot : UInt64) (a n : Nat) :
    (finalizedRange s slot a n).filter (·.type == .slotPoll) = [] := by
  simp [finalizedRange, List.filter_map, Function.comp_def]

lemma statusKeys_nextEvents {s s' : Scheduler} {slot : UInt64} {fin : Finality}
    {evs : List ScheduleEvent} (h : nextEvents s slot fin = some (evs, s')) :
    ((jobsOf evs).filter (·.type == .status)).map (fun j => (j.validatorIndex, j.slot)) =
      s.validators.map (·, slot) := by
  simp only [nextEvents, Option.map_eq_some'] at h
  obtain ⟨⟨fs, s₁⟩, hf, he⟩ := h
  simp only [Prod.mk.injEq] at he
  obtain ⟨rfl, -⟩ := he
  obtain ⟨-, rfl⟩ := finalityEvents_spec hf
  rw [filter_status_jobsOf, boundaryEvents_fst]
  split_ifs <;>
    simp [List.filter_append, filter_slotPoll_finalizedRange, pollValidators, Function.comp_def]

lemma statusKeys_of_run : ∀ (ins : List (UInt64 × Finality)) (s s' : Scheduler)
    (evss : List (List ScheduleEvent)), runEvents s ins = some (evss, s') →
      ((jobsOf evss.flatten).filter (·.type == .status)).map (fun j => (j.validatorIndex, j.slot)) =
        ins.flatMap fun x => s.validators.map (·, x.1)
  | [], _, _, _, h => by cases h; rfl
  | (slot, fin) :: ins, s, s', evss, h => by
    simp only [runEvents, Option.bind_eq_some, Option.map_eq_some'] at h
    obtain ⟨⟨evs, s₁⟩, h₁, ⟨evss₁, s₂⟩, h₂, he⟩ := h
    simp only [Prod.mk.injEq] at he
    obtain ⟨rfl, rfl⟩ := he
    have hv : s₁.validators = s.validators := by rw [(nextEvents_spec h₁).1]
    rw [List.flatten_cons, jobsOf_append, List.filter_append, List.map_append,
      statusKeys_nextEvents h₁, statusKeys_of_run ins s₁ _ evss₁ h₂, hv, List.flatMap_cons]

/-- **Keys written once, within range.** For `k ≥ 1` (a Go `int`) and a duplicate-free validator
list, over every run of the loop from a fresh scheduler under a clock that never goes back, also
one that starts before genesis, in which each wait computes without overflow (`Tick.InRange`),
and whatever each job's Beacon response: no two jobs of
the run write a `validator_snapshots` row with the same key `(index, slot)`, no two `DUTIES` jobs
an `attestation_duties` row with the same key `(index, epoch, slot)`, and no two `REWARDS` jobs an
`attestation_rewards` row `(index, epoch)` or a `validator_penalties` row `(index, epoch, slot)`
with the same key. -/
theorem keys_once_in_range {vs : List UInt64} {k : Int} {g : UInt64} {tks : List Tick}
    {evss : List (List ScheduleEvent)} {s' : Scheduler} (hk : 1 ≤ k) (hk64 : k < 2 ^ 63)
    (hv : vs.Nodup) (hc : Clocked (fresh vs k g) tks) (hr : ∀ tk ∈ tks, tk.InRange (fresh vs k g))
    (hrun : runLoop (fresh vs k g) tks = some (evss, s'))
    (rs : List (Except String ValidatorResponse)) (ds : List (Except String (List AttesterDuty)))
    (ws : List (Except String (List AttestationRewardEntry))) :
    (writtenKeys processStatusJob (fun row => [row.key])
      ((jobsOf evss.flatten).filter (·.type == .status)) rs).Pairwise List.Disjoint ∧
    (writtenKeys processDutiesJob (·.map AttestationDuty.key)
      ((jobsOf evss.flatten).filter (·.type == .duties)) ds).Pairwise List.Disjoint ∧
    (writtenKeys processRewardsJob (·.1.map AttestationReward.key)
      ((jobsOf evss.flatten).filter (·.type == .rewards)) ws).Pairwise List.Disjoint ∧
    (writtenKeys processRewardsJob (·.2.map ValidatorPenalty.key)
      ((jobsOf evss.flatten).filter (·.type == .rewards)) ws).Pairwise List.Disjoint := by
  rw [runLoop_eq_runEvents] at hrun
  have hne : ∀ {a b : UInt64}, a < b → a ≠ b := fun h e => Nat.lt_irrefl _ (e ▸ h)
  have hsorted := slots_pairwise hk hk64 hc hr
  have hs : ((tks.map fun tk => (tickSlot (fresh vs k g) tk, tk.fin)).map Prod.fst).Pairwise
      (· ≤ ·) := by
    rw [map_fst_slots]; exact hsorted.imp Nat.le_of_lt
  -- the keys of the `STATUS` jobs: each validator once per slot, and the slots rise
  have hstatus : (((jobsOf evss.flatten).filter (·.type == .status)).map
      fun j => (j.validatorIndex, j.slot)).Nodup := by
    rw [statusKeys_of_run _ _ _ _ hrun, List.nodup_flatMap]
    refine ⟨fun x _ => hv.map fun a b h => (Prod.mk.inj h).1, ?_⟩
    rw [← map_fst_slots, List.pairwise_map] at hsorted
    refine hsorted.imp fun hlt p h1 h2 => ?_
    obtain ⟨_, _, rfl⟩ := List.mem_map.1 h1
    obtain ⟨_, _, h⟩ := List.mem_map.1 h2
    exact hne hlt (Prod.mk.inj h).2.symm
  -- the epochs of the `DUTIES` and the `REWARDS` jobs never repeat
  have hduties : (((jobsOf evss.flatten).filter (·.type == .duties)).map Job.epoch).Nodup := by
    show (jobEpochs (jobTypeOf .epochBoundary) (jobsOf evss.flatten)).Nodup
    rw [jobEpochs_jobsOf (t := .epochBoundary) (by decide)]
    exact (boundary_of_run vs k g _ _ _ hrun hs).2.1.imp hne
  have hrewards : (((jobsOf evss.flatten).filter (·.type == .rewards)).map Job.epoch).Nodup := by
    show (jobEpochs (jobTypeOf .epochFinalized) (jobsOf evss.flatten)).Nodup
    rw [jobEpochs_jobsOf (t := .epochFinalized) (by decide)]
    refine List.Nodup.of_map UInt64.toNat ?_
    rw [(finalized_of_run vs k g _ _ _ hrun).1]
    exact List.nodup_range' _ _
  refine ⟨writtenKeys_pairwise_disjoint id (fun j => (j.validatorIndex, j.slot))
      (fun j r row h key hk => ?_) rs hstatus,
    writtenKeys_pairwise_disjoint (·.2.1) Job.epoch (fun j r rows h key hk => ?_) ds hduties,
    writtenKeys_pairwise_disjoint (·.2) Job.epoch (fun j r p h key hk => ?_) ws hrewards,
    writtenKeys_pairwise_disjoint (·.2.1) Job.epoch (fun j r p h key hk => ?_) ws hrewards⟩
  · rw [List.mem_singleton.1 hk]; exact processStatusJob_key h
  · obtain ⟨row, hrow, rfl⟩ := List.mem_map.1 hk
    exact processDutiesJob_epoch h row hrow
  · obtain ⟨row, hrow, rfl⟩ := List.mem_map.1 hk
    exact (processRewardsJob_epoch h).1 row hrow
  · obtain ⟨row, hrow, rfl⟩ := List.mem_map.1 hk
    exact (processRewardsJob_epoch h).2 row hrow

/-- A run with `k = 1` and the validator list `[7]` that starts `100 s` before genesis: the first
wait targets slot `1`, which starts `112 s` later, and the second slot `2`; a snapshot of
validator `7` at each. -/
theorem keys_once_in_range_before_genesis :
    let s := fresh [7] 1 100
    let tks : List Tick := [⟨0, 0, 112000000000, .failed⟩,
      ⟨112000000000, 112000000000, 124000000000, .failed⟩]
    let evss : List (List ScheduleEvent) := [[⟨1, 0, .slotPoll, [7]⟩], [⟨2, 0, .slotPoll, [7]⟩]]
    let s' : Scheduler := ⟨[7], 1, 100000000000, 0, 0⟩
    let rs : List (Except String ValidatorResponse) :=
      [.ok ⟨"active_ongoing", 32000000000, 32000000000⟩,
        .ok ⟨"active_ongoing", 32000000000, 32000000000⟩]
    (1 : Int) ≤ 1 ∧ (1 : Int) < 2 ^ 63 ∧ [(7 : UInt64)].Nodup ∧ Clocked s tks ∧
      (∀ tk ∈ tks, tk.InRange s) ∧ runLoop s tks = some (evss, s') ∧
      ((writtenKeys processStatusJob (fun row => [row.key])
        ((jobsOf evss.flatten).filter (·.type == .status)) rs).Pairwise List.Disjoint ∧
      (writtenKeys processDutiesJob (·.map AttestationDuty.key)
        ((jobsOf evss.flatten).filter (·.type == .duties)) []).Pairwise List.Disjoint ∧
      (writtenKeys processRewardsJob (·.1.map AttestationReward.key)
        ((jobsOf evss.flatten).filter (·.type == .rewards)) []).Pairwise List.Disjoint ∧
      (writtenKeys processRewardsJob (·.2.map ValidatorPenalty.key)
        ((jobsOf evss.flatten).filter (·.type == .rewards)) []).Pairwise List.Disjoint) := by
  intro s tks evss s' rs
  have hc : Clocked s tks := by
    simp only [tks, Clocked, List.chain'_cons, List.chain'_singleton, and_true]
    decide
  have hr : ∀ tk ∈ tks, tk.InRange s := by decide
  have hrun : runLoop s tks = some (evss, s') := by decide
  exact ⟨le_rfl, by decide, List.nodup_singleton _, hc, hr, hrun,
    keys_once_in_range le_rfl (by decide) (List.nodup_singleton _) hc hr hrun rs [] []⟩

end Pauli.Monitor.Jobs
