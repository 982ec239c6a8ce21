import Pauli.Monitor.Jobs

/-!
What becomes of a job's result: `Process` calls the handler of the job's type, and
`processResults` logs a failed job as failed and hands the data of the others to `logResult`,
which writes one log line per snapshot, duty or reward.

A reward's total is the `int64` sum of its head, source and target rewards, in `processRewardsJob`
as in `beacon.CalculateRewardSummary`; a penalty's `penalty_gwei` is the `int64` negation of the
total, and a reward's `duty_success` is `total >= 0`.
-/

namespace Pauli.Monitor.Results

open Pauli.Basic Pauli.Beacon.Types Pauli.Monitor.Jobs

inductive JobData
  | snapshot (s : ValidatorSnapshot)
  | duties (ds : List AttestationDuty)
  | rewards (rs : List AttestationReward)
  deriving DecidableEq, Repr

/-- The Beacon node's answers that the handlers read: `GetValidator`, `GetAttesterDuties` and
`GetAttestationRewards`, each a value or an error. -/
structure Answers where
  validator : Except String ValidatorResponse
  duties : Except String (List AttesterDuty)
  rewards : Except String (List AttestationRewardEntry)

/-- `Process`: the handler of the job's type. `processRewardsJob` returns its reward rows; the
penalty rows are only saved. -/
def process (job : Job) (a : Answers) : Except String JobData :=
  match job.type with
  | .status => (processStatusJob job a.validator).map .snapshot
  | .duties => (processDutiesJob job a.duties).map .duties
  | .rewards => (processRewardsJob job a.rewards).map fun r => .rewards r.1

/-- `int(result.Job.Type)`. -/
def jobTypeCode : JobType → Nat
  | .status => 0
  | .duties => 1
  | .rewards => 2

inductive LogLine
  | jobFailed (err : String) (validatorIndex slot : UInt64) (jobType : Nat)
  | validatorStatus (slot validatorIndex : UInt64) (status : String)
      (effectiveBalanceGwei balanceGwei : UInt64)
  | attestationDuty (slot epoch validatorIndex : UInt64) (committeeIndex committeePosition : Int)
  | attestationReward (epoch validatorIndex : UInt64)
      (headReward sourceReward targetReward totalRewardGwei : Int) (dutySuccess : Bool)
  deriving DecidableEq, Repr

def logResult (job : Job) (data : JobData) : List LogLine :=
  match job.type, data with
  | .status, .snapshot s =>
    [.validatorStatus s.slot s.validatorIndex s.status s.effectiveBalance s.balance]
  | .duties, .duties ds =>
    ds.map fun d => .attestationDuty d.slot d.epoch d.validatorIndex d.committeeIndex
      d.committeePosition
  | .rewards, .rewards rs =>
    rs.map fun r => .attestationReward r.epoch r.validatorIndex r.headReward r.sourceReward
      r.targetReward r.totalReward (decide (0 ≤ r.totalReward))
  | _, _ => []

/-- `processResults` on one result: the lines it logs. -/
def processResult (job : Job) : Except String JobData → List LogLine
  | .error err => [.jobFailed err job.validatorIndex job.slot (jobTypeCode job.type)]
  | .ok data => logResult job data

structure RewardSummary where
  validatorIndex : UInt64
  headReward : Int
  sourceReward : Int
  targetReward : Int
  totalReward : Int
  isPenalty : Bool
  deriving DecidableEq, Repr

/-- `beacon.CalculateRewardSummary`; the `int64` sum wraps. -/
def calculateRewardSummary (reward : AttestationRewardEntry) : RewardSummary :=
  let total := wrap64 (wrap64 (reward.head + reward.source) + reward.target)
  ⟨reward.validatorIndex, reward.head, reward.source, reward.target, total, decide (total < 0)⟩

/-! ### The rows and the log of a `REWARDS` job -/

/-- **The rows and the log of a `REWARDS` job.** For every `REWARDS` job `(epoch e, slot s)` and
every `total_rewards` list of the response, `processRewardsJob` returns one reward row per entry,
in order, with the entry's index, epoch `e`, its head, source and target rewards and their `int64`
sum as total; it saves, in order, one penalty row per entry whose total is negative, with the
entry's index, epoch `e`, slot `s`, type `attestation_miss` and the `int64` negation of the total;
and `processResults` logs one `attestation_reward` line per entry whose `duty_success` is
`total >= 0`, false for exactly the entries with a penalty row. -/
theorem rewards_job_rows (i s e : UInt64) (v : Except String ValidatorResponse)
    (d : Except String (List AttesterDuty)) (totalRewards : List AttestationRewardEntry) :
    let job : Job := ⟨i, s, e, .rewards⟩
    let total := fun r : AttestationRewardEntry => wrap64 (wrap64 (r.head + r.source) + r.target)
    processRewardsJob job (.ok totalRewards) = .ok
      (totalRewards.map fun r => ⟨r.validatorIndex, e, r.head, r.source, r.target, total r⟩,
        (totalRewards.filter fun r => total r < 0).map fun r =>
          ⟨r.validatorIndex, e, s, "attestation_miss", wrap64 (-total r)⟩) ∧
    processResult job (process job ⟨v, d, .ok totalRewards⟩) =
      totalRewards.map fun r => .attestationReward e r.validatorIndex r.head r.source r.target
        (total r) (decide (0 ≤ total r)) := by
  refine ⟨processRewardsJob_ok _ _, ?_⟩
  simp [process, processResult, logResult, processRewardsJob_ok, rewardRow, Except.map,
    Function.comp_def]

/-! ### The arithmetic of a total -/

lemma wrap64_sum_eq_iff (a b c : Int) :
    wrap64 (wrap64 (a + b) + c) = a + b + c ↔ InInt64 (a + b + c) := by
  unfold wrap64 InInt64; omega

lemma wrap64_neg_of_neg {t : Int} (ht : InInt64 t) (hneg : t < 0) :
    (wrap64 (-t) = -t ∧ 0 < wrap64 (-t)) ↔ t ≠ -2 ^ 63 := by
  unfold wrap64 InInt64 at *; omega

/-- **When a total is exact.** For every entry and every job, the total of the reward row, which
`CalculateRewardSummary` computes alike, is the integer sum of the head, source and target rewards
exactly when that sum lies in the `int64` range; and the penalty of a negative total is its
negation, a positive number, exactly when the total is not `-2^63`. -/
theorem reward_total_exact_iff (job : Job) (r : AttestationRewardEntry) :
    (calculateRewardSummary r).totalReward = (rewardRow job r).totalReward ∧
    ((rewardRow job r).totalReward = r.head + r.source + r.target ↔
      InInt64 (r.head + r.source + r.target)) ∧
    ((rewardRow job r).totalReward < 0 →
      (wrap64 (-(rewardRow job r).totalReward) = -(rewardRow job r).totalReward ∧
        0 < wrap64 (-(rewardRow job r).totalReward) ↔ (rewardRow job r).totalReward ≠ -2 ^ 63)) :=
  ⟨rfl, wrap64_sum_eq_iff _ _ _, wrap64_neg_of_neg (wrap64_mem _)⟩

/-- **Totals that wrap.** Three rewards of `2^62` each, which the decoder accepts, have the
integer sum `3 * 2^62` but the `int64` total `-2^62`: `processRewardsJob` writes a penalty of
`2^62` gwei for a positive reward, and `CalculateRewardSummary` calls it a penalty. A head reward of
`-2^63` with zero source and target gives the total `-2^63`, whose negation wraps to itself: the
penalty row has `penalty_gwei = -2^63`, not a positive number. -/
theorem reward_total_wraps :
    let job : Job := ⟨0, 32, 1, .rewards⟩
    Int64Str.unmarshalJSON (quoted (decimalInt (2 ^ 62))) = .ok (2 ^ 62) ∧
    Int64Str.unmarshalJSON (quoted (decimalInt (-2 ^ 63))) = .ok (-2 ^ 63) ∧
    processRewardsJob job (.ok [⟨7, 2 ^ 62, 2 ^ 62, 2 ^ 62⟩]) =
      .ok ([⟨7, 1, 2 ^ 62, 2 ^ 62, 2 ^ 62, -2 ^ 62⟩], [⟨7, 1, 32, "attestation_miss", 2 ^ 62⟩]) ∧
    calculateRewardSummary ⟨7, 2 ^ 62, 2 ^ 62, 2 ^ 62⟩ =
      ⟨7, 2 ^ 62, 2 ^ 62, 2 ^ 62, -2 ^ 62, true⟩ ∧
    processRewardsJob job (.ok [⟨7, -2 ^ 63, 0, 0⟩]) =
      .ok ([⟨7, 1, -2 ^ 63, 0, 0, -2 ^ 63⟩], [⟨7, 1, 32, "attestation_miss", -2 ^ 63⟩]) := by
  intro job
  have hdec : ∀ i : Int, InInt64 i → Int64Str.unmarshalJSON (quoted (decimalInt i)) = .ok i :=
    fun i hi => (int64Str_ok_iff _ _).2 ⟨_, Or.inr rfl, signedDigits_decimalInt i hi⟩
  exact ⟨hdec _ (by unfold InInt64; norm_num), hdec _ (by unfold InInt64; norm_num), rfl,
    by decide, rfl⟩

end Pauli.Monitor.Results
