import Pauli.Monitor.WorkerPool
import Pauli.Monitor.Results

/-!
The worker pool with the monitor as its processor. `NewMonitor` builds the pool with
`NewWorkerPool(cfg.WorkerPoolSize, m, logger)`, so a worker that takes a job from `jobChan` runs
`Monitor.Process` on it, and `processResults` logs each result it reads.

What the handlers of one occurrence of a job get from the Beacon node is an input, `ans n` for the
occurrence numbered `n`: the node may answer each request differently. Over every interleaving of
the pool's goroutines, the log of `processResults` is made of the lines of distinct occurrences,
each those of its own job on its own answers; once the consumer has read the closed result channel
under a live context, it holds the lines of every occurrence exactly once.
-/

namespace Pauli.Monitor.Pipeline

open Pauli.Monitor.Jobs Pauli.Monitor.Results
open Pauli.Monitor.WorkerPool (Sys Act Result Worker WorkerAct Pool step init Sys.Ctrl Sys.Occ)

/-- What `Process` returns: the handler's data, or its error. -/
abbrev Out := Except String JobData

/-- `data, err := wp.processor.Process(ctx, job)` with the monitor as the processor: a worker that
receives occurrence `n` of `job` gets `process job (ans n)`. Every other step is the pool's. -/
def Processes (ans : Nat → Answers) (σ : Sys Out) : Act Out → Prop
  | .worker _ (.recv out) =>
    ∀ n job rest, σ.pool.jobChan = ⟨n, job⟩ :: rest → out = process job (ans n)
  | _ => True

/-- The states some interleaving of the monitor's pool reaches, from `NewWorkerPool` with the
producer's calls `jobs` ahead. -/
inductive Reachable (size : Nat) (jobs : List Job) (ans : Nat → Answers) : Sys Out → Prop
  | init : Reachable size jobs ans (init size jobs)
  | step {σ σ' : Sys Out} (a : Act Out) :
      Reachable size jobs ans σ → Processes ans σ a → step σ a = some σ' →
        Reachable size jobs ans σ'

lemma Reachable.toPool {size : Nat} {jobs : List Job} {ans : Nat → Answers} {σ : Sys Out}
    (h : Reachable size jobs ans σ) : WorkerPool.Reachable size jobs σ := by
  induction h with
  | init => exact .init
  | step a _ _ hs ih => exact .step a ih hs

/-- A result that carries what `Process` returned for its own job, on its own occurrence's
answers. -/
def Processed (ans : Nat → Answers) (r : Result Out) : Prop := r.out = process r.job (ans r.occ)

structure AllProcessed (ans : Nat → Answers) (σ : Sys Out) : Prop where
  held : ∀ r, Worker.sending r ∈ σ.pool.workers → Processed ans r
  queued : ∀ r ∈ σ.pool.resultChan, Processed ans r
  read : ∀ r ∈ σ.delivered, Processed ans r

lemma workerStep_recv {D : Type} {p p' : Pool D} {i : Nat} {out : D}
    (h : p.workerStep i (.recv out) = some p') :
    ∃ n job rest, p.jobChan = ⟨n, job⟩ :: rest ∧
      p' = { p.setWorker i (.sending ⟨n, job, out⟩) with jobChan := rest } := by
  unfold Pool.workerStep at h
  rcases hw : p.workers[i]? with _ | _ | r | _ <;> simp only [hw] at h <;> try contradiction
  rcases hj : p.jobChan with _ | ⟨⟨n, job⟩, rest⟩ <;> simp only [hj] at h
  · contradiction
  · exact ⟨n, job, rest, rfl, (Option.some.inj h).symm⟩

lemma workerStep_of_not_recv {D : Type} {p p' : Pool D} {i : Nat} {a : WorkerAct D}
    (h : p.workerStep i a = some p') (ha : ∀ out, a ≠ .recv out) :
    p' = p.setWorker i .exited ∨ p' = { p with panicked := true } ∨
      ∃ r, p.workers[i]? = some (.sending r) ∧
        p' = { p.setWorker i .idle with resultChan := p.resultChan ++ [r] } := by
  unfold Pool.workerStep at h
  rcases hw : p.workers[i]? with _ | _ | r | _ <;> cases a <;> simp only [hw] at h <;>
    first | contradiction | exact absurd rfl (ha _) | skip
  all_goals split_ifs at h <;> cases h
  · exact .inl rfl
  · exact .inl rfl
  · exact .inr (.inl rfl)
  · exact .inr (.inr ⟨r, rfl, rfl⟩)
  · exact .inl rfl

lemma held_set {ans : Nat → Answers} {l : List (Worker Out)} {i : Nat} {w : Worker Out}
    (hl : ∀ r, Worker.sending r ∈ l → Processed ans r) (hw : ∀ r, w = .sending r → Processed ans r) :
    ∀ r, Worker.sending r ∈ l.set i w → Processed ans r := fun r hr =>
  (List.mem_or_eq_of_mem_set hr).elim (hl r) fun e => hw r e.symm

lemma AllProcessed.step {size : Nat} {ans : Nat → Answers} {σ σ' : Sys Out} {a : Act Out}
    (hc : σ.Ctrl size) (hp : AllProcessed ans σ) (ha : Processes ans σ a)
    (h : step σ a = some σ') : AllProcessed ans σ' := by
  cases hc.step_cases h with
  | submit | closeJobs | closeResults | cancel | consumeClosed => exact ⟨hp.held, hp.queued, hp.read⟩
  | consume r rest _ hr =>
    refine ⟨hp.held, fun r' h' => hp.queued r' (by simp [hr, h']), fun r' h' => ?_⟩
    rcases List.mem_append.1 h' with h' | h'
    · exact hp.read r' h'
    · rw [List.mem_singleton.1 h']; exact hp.queued r (by simp [hr])
  | worker i wa p hw =>
    cases wa
    case recv out =>
      -- the new result is `Process`'s
      obtain ⟨n, job, rest, hj, rfl⟩ := workerStep_recv hw
      exact ⟨held_set hp.held fun r e => by cases e; exact ha n job rest hj, hp.queued, hp.read⟩
    all_goals
      rcases workerStep_of_not_recv hw fun _ => nofun with rfl | rfl | ⟨r, hi, rfl⟩
      · exact ⟨held_set hp.held nofun, hp.queued, hp.read⟩
      · exact ⟨hp.held, hp.queued, hp.read⟩
      · -- send: worker `i`'s result goes to `resultChan`
        refine ⟨held_set hp.held nofun, fun r' h' => ?_, hp.read⟩
        rcases List.mem_append.1 h' with h' | h'
        · exact hp.queued r' h'
        · rw [List.mem_singleton.1 h']; exact hp.held r (List.getElem?_mem hi)

lemma Reachable.allProcessed {size : Nat} {jobs : List Job} {ans : Nat → Answers} {σ : Sys Out}
    (h : Reachable size jobs ans σ) : AllProcessed ans σ := by
  induction h with
  | init => exact ⟨by simp [WorkerPool.init, WorkerPool.newWorkerPool, List.mem_replicate],
      by simp [WorkerPool.init, WorkerPool.newWorkerPool], by simp [WorkerPool.init]⟩
  | step a hr ha hs ih => exact ih.step hr.toPool.inv.1 ha hs

/-! ### What `processResults` logs -/

/-- What `processResults` has logged: the lines of each result it read, in the order read. -/
def logged (σ : Sys Out) : List LogLine := σ.delivered.flatMap fun r => processResult r.job r.out

/-- The lines of occurrence `n` of the producer's calls: those of its job, on the answers to its
requests. -/
def occurrenceLog (jobs : List Job) (ans : Nat → Answers) (n : Nat) : List LogLine :=
  match jobs[n]? with
  | some job => processResult job (process job (ans n))
  | none => []

/-- **The log of the monitor's pool.** In every state that any interleaving of the producer's
`Submit` calls and its `Stop`, the `size ≥ 1` workers running `Monitor.Process`, the consumer
`processResults` and a cancellation reaches: the results read are of distinct occurrences, and the
log is, in the order they were read, the lines of each one's own job on its own answers; once the
consumer has read the closed `resultChan` under a live context, the log holds the lines of every
`Submit` exactly once, in some order. -/
theorem log_once {size : Nat} {jobs : List Job} {ans : Nat → Answers} {σ : Sys Out}
    (hN : 1 ≤ size) (h : Reachable size jobs ans σ) :
    (σ.delivered.map Result.occ).Nodup ∧
    logged σ = (σ.delivered.map Result.occ).flatMap (occurrenceLog jobs ans) ∧
    (σ.consumerDone = true → σ.pool.cancelled = false →
      (logged σ).Perm ((List.range jobs.length).flatMap (occurrenceLog jobs ans))) := by
  obtain ⟨hc, ho⟩ := h.toPool.inv
  have hlog : logged σ = (σ.delivered.map Result.occ).flatMap (occurrenceLog jobs ans) := by
    rw [List.flatMap_map, logged]
    refine List.flatMap_congr fun r hr => ?_
    rw [occurrenceLog, ho.job_of_delivered hr]
    exact congrArg (processResult r.job) (h.allProcessed.read r hr)
  refine ⟨ho.delivered_nodup, hlog, fun hd hl => ?_⟩
  obtain ⟨hstop, hnil⟩ := hc.done_stopped hd
  have hperm := WorkerPool.Sys.perm_of_stopped hN hc ho hstop hl
  rw [hnil, List.nil_append] at hperm
  exact hlog ▸ hperm.flatMap_right _

/-- One `STATUS` job through one worker while the node times out: `Submit`, `Process`, the send,
`Stop`, and the consumer reading the result and the closed channel; the log is the job's
`Job failed` line. -/
theorem log_once_one_job :
    let j : Job := ⟨7, 32, 1, .status⟩
    let ans : Nat → Answers := fun _ => ⟨.error "timeout", .error "timeout", .error "timeout"⟩
    let σ : Sys Out := ⟨⟨[j], [], true, [.exited], [], true, false, false⟩, [], .stopped,
      [⟨0, j, process j (ans 0)⟩], true⟩
    1 ≤ 1 ∧ Reachable 1 [j] ans σ ∧
    ((σ.delivered.map Result.occ).Nodup ∧
      logged σ = (σ.delivered.map Result.occ).flatMap (occurrenceLog [j] ans) ∧
      (σ.consumerDone = true → σ.pool.cancelled = false →
        (logged σ).Perm ((List.range [j].length).flatMap (occurrenceLog [j] ans)))) := by
  intro j ans σ
  have h : Reachable 1 [j] ans σ :=
    .step .consume (.step .consume (.step .closeResults (.step (.worker 0 .closed)
      (.step .closeJobs (.step (.worker 0 .send) (.step (.worker 0 (.recv (process j (ans 0))))
        (.step .submit .init trivial rfl) (fun _ _ _ h => by cases h; rfl) rfl) trivial rfl)
        trivial rfl) trivial rfl) trivial rfl) trivial rfl) trivial rfl
  exact ⟨le_rfl, h, log_once le_rfl h⟩

end Pauli.Monitor.Pipeline
