import Mathlib.Data.List.Nodup
import Pauli.Monitor.Jobs

/-!
`WorkerPool`: `size` workers between a job channel and a result channel, both of capacity
`size * 2`, and the goroutines around it.

A channel is a buffer with a closed flag, as a buffered Go channel is: a send blocks on a full
buffer and panics on a closed channel, a receive takes the oldest item, and on a closed, empty
channel it returns at once with `ok = false`. A `select` with several ready cases may take any of
them, so each case is a step of its own, and the steps of all goroutines interleave freely.

Each `Submit` is an occurrence, numbered in the order of the calls. The number travels with the
job through the channels, the worker and the result: a ghost field that the code does not have,
kept so that the occurrences can be counted.
-/

namespace Pauli.Monitor.WorkerPool

open Pauli.Monitor.Jobs

variable {D : Type}

@[ext] structure Occurrence where
  num : Nat
  job : Job
  deriving DecidableEq

/-- `Result`: the job and what `Process` returned for it (`Data` and `Error`), with the number
of the job's occurrence. -/
structure Result (D : Type) where
  occ : Nat
  job : Job
  out : D

/-- A worker goroutine: in its outer `select`, in its inner `select` holding a result, or
returned. -/
inductive Worker (D : Type)
  | idle
  | sending (r : Result D)
  | exited

/-- The channels, the workers, the context, and whether a goroutine panicked. `submitted` is
the ghost history of the jobs submitted, by occurrence. -/
structure Pool (D : Type) where
  submitted : List Job
  jobChan : List Occurrence
  jobClosed : Bool
  workers : List (Worker D)
  resultChan : List (Result D)
  resultClosed : Bool
  cancelled : Bool
  panicked : Bool

/-- `NewWorkerPool(size, ...)` and `Start(ctx)`: `size` workers in their loop. -/
def newWorkerPool (size : Nat) : Pool D :=
  ⟨[], [], false, List.replicate size .idle, [], false, false, false⟩

def Pool.capacity (p : Pool D) : Nat := p.workers.length * 2

/-- `Submit(job)`: `jobChan <- job`; `none` while the buffer is full. -/
def Pool.submit (p : Pool D) (job : Job) : Option (Pool D) :=
  if p.jobClosed then some { p with panicked := true }
  else if p.jobChan.length < p.capacity then
    some { p with submitted := p.submitted ++ [job],
                  jobChan := p.jobChan ++ [⟨p.submitted.length, job⟩] }
  else none

inductive WorkerAct (D : Type)
  -- a job from `jobChan`, which `Process` turns into `out`
  | recv (out : D)
  -- `jobChan` is closed and empty: `ok = false`, return
  | closed
  -- `resultChan <- result`
  | send
  -- `<-ctx.Done()`: return
  | done

def Pool.setWorker (p : Pool D) (i : Nat) (w : Worker D) : Pool D :=
  { p with workers := p.workers.set i w }

/-- A step of worker `i` (`wp.worker(ctx, i)`); `none` when the case is not ready. -/
def Pool.workerStep (p : Pool D) (i : Nat) (a : WorkerAct D) : Option (Pool D) :=
  match p.workers[i]?, a with
  | some .idle, .recv out =>
    match p.jobChan with
    | ⟨n, job⟩ :: rest => some { p.setWorker i (.sending ⟨n, job, out⟩) with jobChan := rest }
    | [] => none
  | some .idle, .closed =>
    if p.jobClosed ∧ p.jobChan.isEmpty then some (p.setWorker i .exited) else none
  | some (.sending r), .send =>
    if p.resultClosed then some { p with panicked := true }
    else if p.resultChan.length < p.capacity then
      some { p.setWorker i .idle with resultChan := p.resultChan ++ [r] }
    else none
  | some .idle, .done | some (.sending _), .done =>
    if p.cancelled then some (p.setWorker i .exited) else none
  | _, _ => none

/-! ### What a step of the pool does -/

lemma Pool.submit_cases {p p' : Pool D} {job : Job} (h : p.submit job = some p') :
    (p.jobClosed = true ∧ p' = { p with panicked := true }) ∨
    (p.jobClosed = false ∧ p.jobChan.length < p.capacity ∧
      p' = { p with submitted := p.submitted ++ [job],
                    jobChan := p.jobChan ++ [⟨p.submitted.length, job⟩] }) := by
  unfold Pool.submit at h
  split_ifs at h with hc hl
  · exact .inl ⟨hc, (Option.some.inj h).symm⟩
  · exact .inr ⟨by simpa using hc, hl, (Option.some.inj h).symm⟩

@[simp] lemma setWorker_jobChan (p : Pool D) (i : Nat) (w : Worker D) :
    (p.setWorker i w).jobChan = p.jobChan := rfl

lemma workerStep_cases {p p' : Pool D} {i : Nat} {a : WorkerAct D}
    (h : p.workerStep i a = some p') :
    (∃ out n job rest, p.workers[i]? = some .idle ∧ p.jobChan = ⟨n, job⟩ :: rest ∧
        p' = { p.setWorker i (.sending ⟨n, job, out⟩) with jobChan := rest }) ∨
    (p.workers[i]? = some .idle ∧ p.jobClosed = true ∧ p.jobChan = [] ∧
        p' = p.setWorker i .exited) ∨
    (∃ r, p.workers[i]? = some (.sending r) ∧ p.resultClosed = true ∧
        p' = { p with panicked := true }) ∨
    (∃ r, p.workers[i]? = some (.sending r) ∧ p.resultClosed = false ∧
        p.resultChan.length < p.capacity ∧
        p' = { p.setWorker i .idle with resultChan := p.resultChan ++ [r] }) ∨
    (∃ w, p.workers[i]? = some w ∧ w ≠ .exited ∧ p.cancelled = true ∧
        p' = p.setWorker i .exited) := by
  unfold Pool.workerStep at h
  rcases hw : p.workers[i]? with _ | _ | r | _ <;> cases a <;> simp only [hw] at h <;>
    try contradiction
  · -- recv
    rcases hj : p.jobChan with _ | ⟨⟨n, job⟩, rest⟩ <;> simp only [hj] at h
    · contradiction
    · exact .inl ⟨_, n, job, rest, rfl, rfl, (Option.some.inj h).symm⟩
  · -- closed
    split_ifs at h with hc
    refine .inr (.inl ⟨rfl, hc.1, List.isEmpty_iff.1 hc.2, (Option.some.inj h).symm⟩)
  · -- done, idle
    split_ifs at h with hc
    exact .inr (.inr (.inr (.inr ⟨_, rfl, nofun, hc, (Option.some.inj h).symm⟩)))
  · -- send
    split_ifs at h with hc hl
    · exact .inr (.inr (.inl ⟨r, rfl, hc, (Option.some.inj h).symm⟩))
    · exact .inr (.inr (.inr (.inl ⟨r, rfl, by simpa using hc, hl, (Option.some.inj h).symm⟩)))
  · -- done, sending
    split_ifs at h with hc
    exact .inr (.inr (.inr (.inr ⟨_, rfl, nofun, hc, (Option.some.inj h).symm⟩)))

lemma workerStep_frame {p p' : Pool D} {i : Nat} {a : WorkerAct D}
    (h : p.workerStep i a = some p') :
    (∃ w, p.workers[i]? = some w ∧ w ≠ .exited) ∧ p'.workers.length = p.workers.length ∧
      p'.jobClosed = p.jobClosed ∧ p'.resultClosed = p.resultClosed ∧
      p'.cancelled = p.cancelled := by
  rcases workerStep_cases h with ⟨out, n, job, rest, hw, -, rfl⟩ | ⟨hw, -, -, rfl⟩ |
    ⟨r, hw, -, rfl⟩ | ⟨r, hw, -, -, rfl⟩ | ⟨w, hw, hne, -, rfl⟩
  · exact ⟨⟨_, hw, nofun⟩, List.length_set .., rfl, rfl, rfl⟩
  · exact ⟨⟨_, hw, nofun⟩, List.length_set .., rfl, rfl, rfl⟩
  · exact ⟨⟨_, hw, nofun⟩, rfl, rfl, rfl, rfl⟩
  · exact ⟨⟨_, hw, nofun⟩, List.length_set .., rfl, rfl, rfl⟩
  · exact ⟨⟨_, hw, hne⟩, List.length_set .., rfl, rfl, rfl⟩

/-! ### Occurrences -/

def Worker.held : Worker D → List Occurrence
  | .sending r => [⟨r.occ, r.job⟩]
  | _ => []

def Result.token (r : Result D) : Occurrence := ⟨r.occ, r.job⟩

def Pool.tokens (p : Pool D) : List Occurrence :=
  p.jobChan ++ p.workers.flatMap Worker.held ++ p.resultChan.map Result.token

lemma count_flatMap_set {α β : Type} [BEq β] (f : α → List β) (x : β) (w : α) :
    ∀ (l : List α) (i : Nat) (a : α), l[i]? = some a →
      ((l.set i w).flatMap f).count x + (f a).count x = (l.flatMap f).count x + (f w).count x
  | [], _, _, h => nomatch h
  | b :: l, 0, a, h => by
    obtain rfl : b = a := Option.some.inj (List.getElem?_cons_zero ▸ h)
    simp only [List.set_cons_zero, List.flatMap_cons, List.count_append]
    omega
  | b :: l, i + 1, a, h => by
    have := count_flatMap_set f x w l i a (List.getElem?_cons_succ ▸ h)
    simp only [List.set_cons_succ, List.flatMap_cons, List.count_append]
    omega

lemma workerStep_tokens {p p' : Pool D} {i : Nat} {a : WorkerAct D}
    (h : p.workerStep i a = some p') :
    p'.submitted = p.submitted ∧ p'.cancelled = p.cancelled ∧
      ((∀ t, p'.tokens.count t = p.tokens.count t) ∨
        (p.cancelled = true ∧ ∀ t, p'.tokens.count t ≤ p.tokens.count t)) := by
  rcases workerStep_cases h with ⟨out, n, job, rest, hw, hj, rfl⟩ | ⟨hw, -, -, rfl⟩ |
    ⟨r, -, -, rfl⟩ | ⟨r, hw, -, -, rfl⟩ | ⟨w, hw, -, hc, rfl⟩
  · -- recv: the head of `jobChan` moves to worker `i`
    refine ⟨rfl, rfl, .inl fun t => ?_⟩
    have := count_flatMap_set Worker.held t (.sending ⟨n, job, out⟩) _ _ _ hw
    simp only [Pool.tokens, Pool.setWorker, hj, List.count_append, List.count_cons,
      Worker.held, List.count_nil, List.count_singleton] at this ⊢
    omega
  · -- closed: an idle worker returns
    refine ⟨rfl, rfl, .inl fun t => ?_⟩
    have := count_flatMap_set Worker.held t .exited _ _ _ hw
    simp only [Pool.tokens, Pool.setWorker, List.count_append, Worker.held,
      List.count_nil] at this ⊢
    omega
  · -- send on a closed `resultChan`: a panic, which moves nothing
    exact ⟨rfl, rfl, .inl fun _ => rfl⟩
  · -- send: worker `i`'s result goes to the back of `resultChan`
    refine ⟨rfl, rfl, .inl fun t => ?_⟩
    have := count_flatMap_set Worker.held t .idle _ _ _ hw
    simp only [Pool.tokens, Pool.setWorker, List.map_append, List.count_append, Worker.held,
      List.count_nil, List.map_cons, List.map_nil, Result.token] at this ⊢
    omega
  · -- done: the worker returns, dropping what it held
    refine ⟨rfl, rfl, .inr ⟨hc, fun t => ?_⟩⟩
    have := count_flatMap_set Worker.held t .exited _ _ _ hw
    simp only [Pool.tokens, Pool.setWorker, List.count_append, Worker.held,
      List.count_nil] at this ⊢
    omega

/-! ### A producer, a consumer and the workers -/

/-- Where the producer is: making its `Submit` calls, inside `Stop` after `close(jobChan)`
waiting for the workers, or past `close(resultChan)`. -/
inductive Phase
  | submitting
  | draining
  | stopped
  deriving DecidableEq

/-- A producer that makes the `Submit` calls `pending` and then calls `Stop`, a consumer that
reads `Results()` until it is closed, the workers and the context. -/
structure Sys (D : Type) where
  pool : Pool D
  pending : List Job
  phase : Phase
  delivered : List (Result D)
  consumerDone : Bool

inductive Act (D : Type)
  | submit
  | closeJobs
  | closeResults
  | worker (i : Nat) (a : WorkerAct D)
  | consume
  | cancel

def Worker.isExited : Worker D → Bool
  | .exited => true
  | _ => false

lemma Worker.isExited_iff {w : Worker D} : w.isExited = true ↔ w = .exited := by
  cases w <;> simp [Worker.isExited]

/-- One step; `none` when the party cannot take it. `Stop` is `close(jobChan)`, `wg.Wait()`
and `close(resultChan)`. -/
def step (σ : Sys D) : Act D → Option (Sys D)
  | .submit =>
    match σ.phase, σ.pending with
    | .submitting, job :: rest =>
      (σ.pool.submit job).map fun p => { σ with pool := p, pending := rest }
    | _, _ => none
  | .closeJobs =>
    if σ.phase = .submitting ∧ σ.pending.isEmpty then
      some { σ with pool := { σ.pool with jobClosed := true }, phase := .draining }
    else none
  | .closeResults =>
    if σ.phase = .draining ∧ σ.pool.workers.all Worker.isExited then
      some { σ with pool := { σ.pool with resultClosed := true }, phase := .stopped }
    else none
  | .worker i a => (σ.pool.workerStep i a).map fun p => { σ with pool := p }
  | .consume =>
    if σ.consumerDone then none
    else
      match σ.pool.resultChan with
      | r :: rest =>
        some { σ with pool := { σ.pool with resultChan := rest }, delivered := σ.delivered ++ [r] }
      | [] => if σ.pool.resultClosed then some { σ with consumerDone := true } else none
  | .cancel => some { σ with pool := { σ.pool with cancelled := true } }

def init (size : Nat) (jobs : List Job) : Sys D :=
  ⟨newWorkerPool size, jobs, .submitting, [], false⟩

inductive Reachable (size : Nat) (jobs : List Job) : Sys D → Prop
  | init : Reachable size jobs (init size jobs)
  | step {σ σ' : Sys D} (a : Act D) :
      Reachable size jobs σ → step σ a = some σ' → Reachable size jobs σ'

def Sys.tokens (σ : Sys D) : List Occurrence := σ.pool.tokens ++ σ.delivered.map Result.token

/-! ### The control invariant -/

structure Sys.Ctrl (size : Nat) (σ : Sys D) : Prop where
  size_eq : σ.pool.workers.length = size
  jobClosed_iff : σ.pool.jobClosed = true ↔ σ.phase ≠ .submitting
  resultClosed_iff : σ.pool.resultClosed = true ↔ σ.phase = .stopped
  pending_nil : σ.phase ≠ .submitting → σ.pending = []
  stopped_exited : σ.phase = .stopped → ∀ w ∈ σ.pool.workers, w = .exited
  exited_why : Worker.exited ∈ σ.pool.workers →
    σ.pool.cancelled = true ∨ (σ.pool.jobClosed = true ∧ σ.pool.jobChan = [])
  no_panic : σ.pool.panicked = false
  done_stopped : σ.consumerDone = true → σ.phase = .stopped ∧ σ.pool.resultChan = []

lemma Sys.Ctrl.init (size : Nat) (jobs : List Job) : (init size jobs : Sys D).Ctrl size where
  size_eq := List.length_replicate _ _
  jobClosed_iff := by simp [WorkerPool.init, newWorkerPool]
  resultClosed_iff := by simp [WorkerPool.init, newWorkerPool]
  pending_nil := by simp [WorkerPool.init]
  stopped_exited := by simp [WorkerPool.init]
  exited_why := by simp [WorkerPool.init, newWorkerPool, List.mem_replicate]
  no_panic := rfl
  done_stopped := nofun

lemma Sys.Ctrl.not_stopped {size : Nat} {σ : Sys D} (hc : σ.Ctrl size) {i : Nat} {w : Worker D}
    (hw : σ.pool.workers[i]? = some w) (hne : w ≠ .exited) : σ.phase ≠ .stopped :=
  fun hs => hne (hc.stopped_exited hs w (List.getElem?_mem hw))

lemma Sys.Ctrl.jobClosed_false {size : Nat} {σ : Sys D} (hc : σ.Ctrl size)
    (h : σ.phase = .submitting) : σ.pool.jobClosed = false :=
  Bool.eq_false_iff.2 fun hj => hc.jobClosed_iff.1 hj h

lemma Sys.Ctrl.cancelled_of_exited {size : Nat} {σ : Sys D} (hc : σ.Ctrl size)
    (h : σ.phase = .submitting) (hm : Worker.exited ∈ σ.pool.workers) : σ.pool.cancelled = true :=
  (hc.exited_why hm).resolve_right fun hj => by simp [hc.jobClosed_false h] at hj

lemma exited_mem_set {l : List (Worker D)} {i : Nat} {w : Worker D} (hw : w ≠ .exited)
    (h : Worker.exited ∈ l.set i w) : Worker.exited ∈ l :=
  (List.mem_or_eq_of_mem_set h).resolve_right fun e => hw e.symm

/-- The steps of the system that the control invariant allows, each under the guard it runs
under: a `Submit` here never finds `jobChan` closed. -/
inductive Sys.Moved (σ : Sys D) : Act D → Sys D → Prop
  -- `Submit(job)` queues the job as occurrence `submitted.length`.
  | submit (job : Job) (rest : List Job) (hph : σ.phase = .submitting)
      (hpend : σ.pending = job :: rest) (hlen : σ.pool.jobChan.length < σ.pool.capacity) :
      Moved σ .submit { σ with
        pool := { σ.pool with submitted := σ.pool.submitted ++ [job],
                              jobChan := σ.pool.jobChan ++ [⟨σ.pool.submitted.length, job⟩] },
        pending := rest }
  -- `Stop`'s `close(jobChan)`, after the last `Submit`.
  | closeJobs (hph : σ.phase = .submitting) (hpend : σ.pending = []) :
      Moved σ .closeJobs { σ with pool := { σ.pool with jobClosed := true }, phase := .draining }
  -- `Stop`'s `wg.Wait()` and `close(resultChan)`.
  | closeResults (hph : σ.phase = .draining) (hall : ∀ w ∈ σ.pool.workers, w = .exited) :
      Moved σ .closeResults
        { σ with pool := { σ.pool with resultClosed := true }, phase := .stopped }
  -- A step of a worker.
  | worker (i : Nat) (wa : WorkerAct D) (p : Pool D) (hp : σ.pool.workerStep i wa = some p) :
      Moved σ (.worker i wa) { σ with pool := p }
  -- The consumer reads a result.
  | consume (r : Result D) (rest : List (Result D)) (hd : σ.consumerDone = false)
      (hr : σ.pool.resultChan = r :: rest) :
      Moved σ .consume { σ with pool := { σ.pool with resultChan := rest },
                                delivered := σ.delivered ++ [r] }
  -- The consumer reads the closed `resultChan` and stops.
  | consumeClosed (hd : σ.consumerDone = false) (hr : σ.pool.resultChan = [])
      (hrc : σ.pool.resultClosed = true) : Moved σ .consume { σ with consumerDone := true }
  -- The context is cancelled.
  | cancel : Moved σ .cancel { σ with pool := { σ.pool with cancelled := true } }

lemma Sys.Ctrl.step_cases {size : Nat} {σ σ' : Sys D} {a : Act D} (hc : σ.Ctrl size)
    (h : step σ a = some σ') : Sys.Moved σ a σ' := by
  cases a <;> simp only [WorkerPool.step] at h
  case submit =>
    split at h
    · rename_i job rest hph hpend
      obtain ⟨p, hp, rfl⟩ := Option.map_eq_some'.1 h
      rcases Pool.submit_cases hp with ⟨hjc, -⟩ | ⟨-, hlen, rfl⟩
      · exact absurd hjc (by simp [hc.jobClosed_false hph])
      · exact .submit job rest hph hpend hlen
    · contradiction
  case closeJobs =>
    split_ifs at h with hg
    cases h; exact .closeJobs hg.1 (List.isEmpty_iff.1 hg.2)
  case closeResults =>
    split_ifs at h with hg
    cases h
    exact .closeResults hg.1 fun w hw => Worker.isExited_iff.1 (List.all_eq_true.1 hg.2 w hw)
  case worker i wa =>
    obtain ⟨p, hp, rfl⟩ := Option.map_eq_some'.1 h
    exact .worker i wa p hp
  case consume =>
    cases hd : σ.consumerDone
    · rw [if_neg (by simp [hd])] at h
      rcases hr : σ.pool.resultChan with _ | ⟨r, rest⟩ <;> simp only [hr] at h
      · split_ifs at h with hrc
        cases h; exact .consumeClosed hd hr hrc
      · cases h; exact .consume r rest hd hr
    · rw [if_pos hd] at h; cases h
  case cancel => cases h; exact .cancel

lemma Sys.Ctrl.step {size : Nat} {σ σ' : Sys D} {a : Act D} (hc : σ.Ctrl size)
    (h : step σ a = some σ') : σ'.Ctrl size := by
  cases hc.step_cases h with
  | submit job rest hph =>
    exact ⟨hc.size_eq, hc.jobClosed_iff, hc.resultClosed_iff, fun h => absurd hph h,
      fun h => absurd (hph.symm.trans h) nofun, fun hm => .inl (hc.cancelled_of_exited hph hm),
      hc.no_panic, hc.done_stopped⟩
  | closeJobs hph hpend =>
    have hrc : σ.pool.resultClosed = false :=
      Bool.eq_false_iff.2 fun hr => absurd (hph.symm.trans (hc.resultClosed_iff.1 hr)) nofun
    exact ⟨hc.size_eq, by simp, by simp [hrc], fun _ => hpend, fun h => absurd h nofun,
      fun hm => .inl (hc.cancelled_of_exited hph hm), hc.no_panic,
      fun h => absurd (hph.symm.trans (hc.done_stopped h).1) nofun⟩
  | closeResults hph hall =>
    exact ⟨hc.size_eq, by simp [hc.jobClosed_iff, hph], by simp,
      fun _ => hc.pending_nil (by simp [hph]), fun _ => hall, hc.exited_why, hc.no_panic,
      fun h => absurd (hph.symm.trans (hc.done_stopped h).1) nofun⟩
  | worker i wa p hp =>
    rcases workerStep_cases hp with ⟨out, n, job, rest, hw, hj, rfl⟩ | ⟨hw, hjc, hj, rfl⟩ |
      ⟨r, hw, hrc, rfl⟩ | ⟨r, hw, -, -, rfl⟩ | ⟨w, hw, hne, hcan, rfl⟩
    · -- recv
      exact ⟨(List.length_set ..).trans hc.size_eq, hc.jobClosed_iff, hc.resultClosed_iff,
        hc.pending_nil, fun h => absurd h (hc.not_stopped hw nofun),
        fun hm => .inl ((hc.exited_why
          (exited_mem_set (w := .sending ⟨n, job, out⟩) nofun hm)).resolve_right
            fun h => by simp [hj] at h), hc.no_panic,
        fun h => absurd (hc.done_stopped h).1 (hc.not_stopped hw nofun)⟩
    · -- closed
      exact ⟨(List.length_set ..).trans hc.size_eq, hc.jobClosed_iff, hc.resultClosed_iff,
        hc.pending_nil, fun h => absurd h (hc.not_stopped hw nofun), fun _ => .inr ⟨hjc, hj⟩,
        hc.no_panic, fun h => absurd (hc.done_stopped h).1 (hc.not_stopped hw nofun)⟩
    · -- a send on a closed `resultChan` would need a worker after `stopped`
      exact absurd (hc.resultClosed_iff.1 hrc) (hc.not_stopped hw nofun)
    · -- send
      exact ⟨(List.length_set ..).trans hc.size_eq, hc.jobClosed_iff, hc.resultClosed_iff,
        hc.pending_nil, fun h => absurd h (hc.not_stopped hw nofun),
        fun hm => hc.exited_why (exited_mem_set (w := .idle) nofun hm), hc.no_panic,
        fun h => absurd (hc.done_stopped h).1 (hc.not_stopped hw nofun)⟩
    · -- done
      exact ⟨(List.length_set ..).trans hc.size_eq, hc.jobClosed_iff, hc.resultClosed_iff,
        hc.pending_nil, fun h => absurd h (hc.not_stopped hw hne), fun _ => .inl hcan,
        hc.no_panic, fun h => absurd (hc.done_stopped h).1 (hc.not_stopped hw hne)⟩
  | consume r rest hd =>
    exact ⟨hc.1, hc.2, hc.3, hc.4, hc.5, hc.6, hc.7, fun h => absurd (hd.symm.trans h) nofun⟩
  | consumeClosed _ hr hrc =>
    exact ⟨hc.1, hc.2, hc.3, hc.4, hc.5, hc.6, hc.7, fun _ => ⟨hc.resultClosed_iff.1 hrc, hr⟩⟩
  | cancel => exact ⟨hc.1, hc.2, hc.3, hc.4, hc.5, fun _ => .inl rfl, hc.7, hc.8⟩

/-! ### The occurrence invariant -/

lemma step_effect {size : Nat} {σ σ' : Sys D} {a : Act D} (hc : σ.Ctrl size)
    (h : step σ a = some σ') :
    (σ'.pool.cancelled = false → σ.pool.cancelled = false) ∧
    ((σ'.pool.submitted = σ.pool.submitted ∧ σ'.pending = σ.pending ∧
        ∀ t, σ'.tokens.count t = σ.tokens.count t) ∨
      (∃ job, σ.pending = job :: σ'.pending ∧ σ'.pool.submitted = σ.pool.submitted ++ [job] ∧
        ∀ t, σ'.tokens.count t = σ.tokens.count t + [⟨σ.pool.submitted.length, job⟩].count t) ∨
      (σ.pool.cancelled = true ∧ σ'.pool.submitted = σ.pool.submitted ∧ σ'.pending = σ.pending ∧
        ∀ t, σ'.tokens.count t ≤ σ.tokens.count t)) := by
  cases hc.step_cases h with
  | submit job rest _ hpend =>
    -- the new occurrence goes to the back of `jobChan`
    refine ⟨id, .inr (.inl ⟨job, hpend, rfl, fun t => ?_⟩)⟩
    simp only [Sys.tokens, Pool.tokens, List.count_append]
    omega
  | closeJobs | closeResults | consumeClosed => exact ⟨id, .inl ⟨rfl, rfl, fun _ => rfl⟩⟩
  | worker i wa p hp =>
    obtain ⟨hsub, hcan, hsame | ⟨hc', hle⟩⟩ := workerStep_tokens hp
    · refine ⟨fun h => hcan ▸ h, .inl ⟨hsub, rfl, fun t => ?_⟩⟩
      simp only [Sys.tokens, List.count_append, hsame]
    · refine ⟨fun h => hcan ▸ h, .inr (.inr ⟨hc', hsub, rfl, fun t => ?_⟩)⟩
      simp only [Sys.tokens, List.count_append]
      exact Nat.add_le_add_right (hle t) _
  | consume r rest _ hr =>
    -- the head of `resultChan` moves to the results read
    refine ⟨id, .inl ⟨rfl, rfl, fun t => ?_⟩⟩
    simp only [Sys.tokens, Pool.tokens, hr, List.count_append, List.map_append, List.map_cons,
      List.count_cons, List.map_nil, List.count_nil]
    omega
  | cancel => exact ⟨fun h => absurd h nofun, .inl ⟨rfl, rfl, fun _ => rfl⟩⟩

/-- Every occurrence is in one place at most, with the job it was submitted with, and while the
context is live none is lost. -/
structure Sys.Occ (jobs : List Job) (σ : Sys D) : Prop where
  history : σ.pool.submitted ++ σ.pending = jobs
  sound : ∀ t ∈ σ.tokens, σ.pool.submitted[t.num]? = some t.job
  once : ∀ t, σ.tokens.count t ≤ 1
  kept : σ.pool.cancelled = false → ∀ n job, σ.pool.submitted[n]? = some job → ⟨n, job⟩ ∈ σ.tokens

lemma Sys.Occ.init (size : Nat) (jobs : List Job) : (init size jobs : Sys D).Occ jobs := by
  have hnil : (WorkerPool.init size jobs : Sys D).tokens = [] := by
    simp [Sys.tokens, Pool.tokens, WorkerPool.init, newWorkerPool, List.mem_replicate, Worker.held]
  exact ⟨rfl, by simp [hnil], by simp [hnil], by simp [WorkerPool.init, newWorkerPool]⟩

lemma mem_of_count_le {l l' : List Occurrence} (h : ∀ t, l'.count t ≤ l.count t) {t : Occurrence}
    (ht : t ∈ l') : t ∈ l :=
  List.count_pos_iff.1 (lt_of_lt_of_le (List.count_pos_iff.2 ht) (h t))

lemma Sys.Occ.step {size : Nat} {jobs : List Job} {σ σ' : Sys D} {a : Act D}
    (hc : σ.Ctrl size) (ho : σ.Occ jobs) (h : step σ a = some σ') : σ'.Occ jobs := by
  obtain ⟨hcan, ⟨hsub, hpend, hcount⟩ | ⟨job, hpend, hsub, hcount⟩ | ⟨hc', hsub, hpend, hle⟩⟩ :=
    step_effect hc h
  · -- the occurrences move
    have hmem : ∀ t, t ∈ σ'.tokens ↔ t ∈ σ.tokens := fun t => by
      rw [← List.count_pos_iff, ← List.count_pos_iff, hcount]
    refine ⟨by rw [hsub, hpend]; exact ho.history, fun t ht => ?_, fun t => hcount t ▸ ho.once t,
      fun hl n j hj => (hmem _).2 (ho.kept (hcan hl) n j (hsub ▸ hj))⟩
    rw [hsub]; exact ho.sound t ((hmem t).1 ht)
  · -- a `Submit` adds occurrence `submitted.length`, which no occurrence had yet
    have hold : ∀ t ∈ σ.tokens, t.num < σ.pool.submitted.length := fun t ht =>
      (List.getElem?_eq_some_iff.1 (ho.sound t ht)).1
    have hfresh : σ.tokens.count ⟨σ.pool.submitted.length, job⟩ = 0 :=
      List.count_eq_zero.2 fun hin => Nat.lt_irrefl _ (hold _ hin)
    have hmem : ∀ t, t ∈ σ'.tokens ↔ t ∈ σ.tokens ∨ t = ⟨σ.pool.submitted.length, job⟩ :=
      fun t => by
      rw [← List.count_pos_iff, hcount, Nat.add_pos_iff_pos_or_pos, List.count_pos_iff,
        List.count_pos_iff, List.mem_singleton]
    refine ⟨by rw [hsub, ← ho.history, hpend]; simp, fun t ht => ?_, fun t => ?_, ?_⟩
    · rw [hsub]
      rcases (hmem t).1 ht with hin | rfl
      · rw [List.getElem?_append_left (hold t hin)]; exact ho.sound t hin
      · exact List.getElem?_concat_length _ _
    · rw [hcount, List.count_singleton]
      split_ifs with ht
      · rw [← beq_iff_eq.1 ht, hfresh]
      · exact Nat.add_zero _ ▸ ho.once t
    · intro hl n j hj
      rw [hsub] at hj
      refine (hmem _).2 ?_
      rcases Nat.lt_or_ge n σ.pool.submitted.length with hn | hn
      · rw [List.getElem?_append_left hn] at hj
        exact .inl (ho.kept (hcan hl) n j hj)
      · rw [List.getElem?_append_right hn] at hj
        obtain ⟨h0, rfl⟩ : n - σ.pool.submitted.length = 0 ∧ job = j := by
          simpa [List.getElem?_cons] using hj
        exact .inr (Occurrence.ext (show n = σ.pool.submitted.length by omega) rfl)
  · -- a worker returns on cancellation, dropping what it held
    refine ⟨by rw [hsub, hpend]; exact ho.history, fun t ht => ?_,
      fun t => le_trans (hle t) (ho.once t), fun hl => absurd (hcan hl) (by simp [hc'])⟩
    rw [hsub]; exact ho.sound t (mem_of_count_le hle ht)

/-! ### Every interleaving -/

def run : Sys D → List (Act D) → Option (Sys D)
  | σ, [] => some σ
  | σ, a :: acts => (step σ a).bind (run · acts)

lemma Reachable.run {size : Nat} {jobs : List Job} {acts : List (Act D)} :
    ∀ {σ σ' : Sys D}, Reachable size jobs σ → run σ acts = some σ' → Reachable size jobs σ' := by
  induction acts with
  | nil => intro σ σ' h hr; cases hr; exact h
  | cons a acts ih =>
    intro σ σ' h hr
    obtain ⟨σ₁, h₁, hr⟩ := Option.bind_eq_some.1 hr
    exact ih (.step a h h₁) hr

lemma Reachable.inv {size : Nat} {jobs : List Job} {σ : Sys D} (h : Reachable size jobs σ) :
    σ.Ctrl size ∧ σ.Occ jobs := by
  induction h with
  | init => exact ⟨Sys.Ctrl.init _ _, Sys.Occ.init _ _⟩
  | step _ _ hs ih => exact ⟨ih.1.step hs, ih.2.step ih.1 hs⟩

lemma flatMap_held_of_exited {l : List (Worker D)} (h : ∀ w ∈ l, w = .exited) :
    l.flatMap Worker.held = [] :=
  List.eq_nil_iff_forall_not_mem.2 fun t ht => by
    obtain ⟨w, hw, ht⟩ := List.mem_flatMap.1 ht
    rw [h w hw] at ht
    cases ht

lemma Sys.Ctrl.exited_mem {size : Nat} {σ : Sys D} (hc : σ.Ctrl size) (hN : 1 ≤ size)
    (hall : ∀ w ∈ σ.pool.workers, w = .exited) : Worker.exited ∈ σ.pool.workers := by
  obtain ⟨w, hw⟩ := List.exists_mem_of_length_pos (by rw [hc.size_eq]; omega)
  exact hall w hw ▸ hw

lemma Sys.Occ.nodup {jobs : List Job} {σ : Sys D} (ho : σ.Occ jobs) :
    (σ.tokens.map Occurrence.num).Nodup :=
  (List.nodup_iff_count_le_one.2 ho.once).map_on fun x hx y hy hxy =>
    Occurrence.ext hxy (Option.some.inj ((ho.sound x hx).symm.trans (hxy ▸ ho.sound y hy)))

lemma Sys.Occ.num_mem {jobs : List Job} {σ : Sys D} (ho : σ.Occ jobs)
    (hl : σ.pool.cancelled = false) :
    ∀ n < σ.pool.submitted.length, n ∈ σ.tokens.map Occurrence.num :=
  fun n hn => List.mem_map.2 ⟨_, ho.kept hl n _ (List.getElem?_eq_getElem hn), rfl⟩

lemma Sys.Occ.job_of_token {jobs : List Job} {σ : Sys D} (ho : σ.Occ jobs) {t : Occurrence}
    (ht : t ∈ σ.tokens) : jobs[t.num]? = some t.job := by
  rw [← ho.history, List.getElem?_append_left (List.getElem?_eq_some_iff.1 (ho.sound t ht)).1]
  exact ho.sound t ht

lemma Sys.token_mem_of_delivered {σ : Sys D} {r : Result D} (hr : r ∈ σ.delivered) :
    r.token ∈ σ.tokens :=
  List.mem_append_right _ (List.mem_map_of_mem _ hr)

lemma Sys.Occ.job_of_delivered {jobs : List Job} {σ : Sys D} (ho : σ.Occ jobs) {r : Result D}
    (hr : r ∈ σ.delivered) : jobs[r.occ]? = some r.job :=
  ho.job_of_token (Sys.token_mem_of_delivered hr)

lemma Sys.Occ.delivered_nodup {jobs : List Job} {σ : Sys D} (ho : σ.Occ jobs) :
    (σ.delivered.map Result.occ).Nodup := by
  refine ho.nodup.sublist ?_
  rw [Sys.tokens, List.map_append, List.map_map]
  exact List.sublist_append_right _ _

lemma Sys.perm_of_stopped {size : Nat} {jobs : List Job} {σ : Sys D} (hN : 1 ≤ size)
    (hc : σ.Ctrl size) (ho : σ.Occ jobs) (hstop : σ.phase = .stopped)
    (hl : σ.pool.cancelled = false) :
    ((σ.pool.resultChan ++ σ.delivered).map Result.occ).Perm (List.range jobs.length) := by
  have hall := hc.stopped_exited hstop
  have hj : σ.pool.jobChan = [] :=
    ((hc.exited_why (hc.exited_mem hN hall)).resolve_left (by simp [hl])).2
  have hsub : σ.pool.submitted = jobs := by
    rw [← ho.history, hc.pending_nil (by rw [hstop]; decide), List.append_nil]
  have htok : σ.tokens.map Occurrence.num = (σ.pool.resultChan ++ σ.delivered).map Result.occ := by
    simp [Sys.tokens, Pool.tokens, hj, flatMap_held_of_exited hall, Result.token,
      Function.comp_def]
  rw [← htok]
  refine (List.perm_ext_iff_of_nodup ho.nodup (List.nodup_range _)).2 fun n => ?_
  rw [List.mem_range, ← hsub]
  refine ⟨fun hn => ?_, ho.num_mem hl n⟩
  obtain ⟨t, ht, rfl⟩ := List.mem_map.1 hn
  exact (List.getElem?_eq_some_iff.1 (ho.sound t ht)).1

/-- **Conservation in the worker pool.** In every state that any interleaving of the producer's
`Submit` calls and its `Stop`, the `size ≥ 1` workers, the consumer and a cancellation reaches:
each result in `resultChan` or read by the consumer carries the job of the `Submit` it came from;
each occurrence is in one place at most (queued, held by a worker, in `resultChan`, or read), so
none gives rise to two results; while the context is live no occurrence is lost; and once `Stop`
has closed `resultChan` under a live context, the results in it and those read are exactly one
per `Submit`. -/
theorem pool_conservation {size : Nat} {jobs : List Job} {σ : Sys D} (hN : 1 ≤ size)
    (h : Reachable size jobs σ) :
    (∀ r ∈ σ.pool.resultChan ++ σ.delivered, jobs[r.occ]? = some r.job) ∧
    (σ.tokens.map Occurrence.num).Nodup ∧
    (σ.pool.cancelled = false → ∀ n < σ.pool.submitted.length, n ∈ σ.tokens.map Occurrence.num) ∧
    (σ.pool.resultClosed = true → σ.pool.cancelled = false →
      ((σ.pool.resultChan ++ σ.delivered).map Result.occ).Perm (List.range jobs.length)) := by
  obtain ⟨hc, ho⟩ := h.inv
  have hjobs : ∀ t ∈ σ.tokens, jobs[t.num]? = some t.job := fun t ht => by
    rw [← ho.history, List.getElem?_append_left (List.getElem?_eq_some_iff.1 (ho.sound t ht)).1]
    exact ho.sound t ht
  have hres : ∀ r ∈ σ.pool.resultChan ++ σ.delivered, r.token ∈ σ.tokens := fun r hr => by
    simp only [Sys.tokens, Pool.tokens, List.mem_append, List.mem_map] at hr ⊢
    rcases hr with hr | hr
    · exact .inl (.inr ⟨r, hr, rfl⟩)
    · exact .inr ⟨r, hr, rfl⟩
  exact ⟨fun r hr => hjobs _ (hres r hr), ho.nodup, ho.num_mem,
    fun hrc => Sys.perm_of_stopped hN hc ho (hc.resultClosed_iff.1 hrc)⟩

/-- One job through a pool of one worker: `Submit`, `Process`, the send, `Stop`, and the
consumer reading the result and then the closed channel. -/
theorem pool_conservation_one_job :
    let j : Job := ⟨7, 32, 1, .status⟩
    let σ : Sys Unit :=
      ⟨⟨[j], [], true, [.exited], [], true, false, false⟩, [], .stopped, [⟨0, j, ()⟩], true⟩
    Reachable 1 [j] σ ∧
    ((∀ r ∈ σ.pool.resultChan ++ σ.delivered, [j][r.occ]? = some r.job) ∧
      (σ.tokens.map Occurrence.num).Nodup ∧
      (σ.pool.cancelled = false → ∀ n < σ.pool.submitted.length, n ∈ σ.tokens.map Occurrence.num) ∧
      (σ.pool.resultClosed = true → σ.pool.cancelled = false →
        ((σ.pool.resultChan ++ σ.delivered).map Result.occ).Perm (List.range [j].length))) := by
  intro j σ
  have h : Reachable 1 [j] σ := Reachable.init.run (show run (init 1 [j]) [.submit,
    .worker 0 (.recv ()), .worker 0 .send, .closeJobs, .worker 0 .closed, .closeResults, .consume,
    .consume] = some σ from rfl)
  exact ⟨h, pool_conservation (by decide) h⟩

/-! ### A live pool completes -/

/-- What a worker has left to do: send its result and come back, then return. -/
def Worker.rank : Worker D → Nat
  | .idle => 1
  | .sending _ => 3
  | .exited => 0

def Phase.rank : Phase → Nat
  | .submitting => 2
  | .draining => 1
  | .stopped => 0

/-- What the pool has left for the jobs in it: a receive, a send and a read for each queued job,
the rest of each worker's way, and a read for each result. -/
def Pool.rank (p : Pool D) : Nat :=
  3 * p.jobChan.length + (p.workers.map Worker.rank).sum + p.resultChan.length

/-- A bound on the steps left under a live context: each job still to submit goes through
`Submit` and then the pool; `Stop` closes its two channels; and the consumer reads the closed
`resultChan`. -/
def Sys.rank (σ : Sys D) : Nat :=
  4 * σ.pending.length + σ.pool.rank + σ.phase.rank + if σ.consumerDone then 0 else 1

lemma sum_map_set {α : Type} (f : α → Nat) (w : α) :
    ∀ (l : List α) (i : Nat) (a : α), l[i]? = some a →
      ((l.set i w).map f).sum + f a = (l.map f).sum + f w
  | [], _, _, h => nomatch h
  | b :: l, 0, a, h => by
    obtain rfl : b = a := Option.some.inj (List.getElem?_cons_zero ▸ h)
    simp only [List.set_cons_zero, List.map_cons, List.sum_cons]
    omega
  | b :: l, i + 1, a, h => by
    have := sum_map_set f w l i a (List.getElem?_cons_succ ▸ h)
    simp only [List.set_cons_succ, List.map_cons, List.sum_cons]
    omega

lemma workerStep_rank {p p' : Pool D} {i : Nat} {a : WorkerAct D}
    (h : p.workerStep i a = some p') :
    p'.rank < p.rank ∨ ∃ r, p.workers[i]? = some (.sending r) ∧ p.resultClosed = true := by
  rcases workerStep_cases h with ⟨out, n, job, rest, hw, hj, rfl⟩ | ⟨hw, -, -, rfl⟩ |
    ⟨r, hw, hrc, rfl⟩ | ⟨r, hw, -, -, rfl⟩ | ⟨w, hw, hne, -, rfl⟩
  · -- recv
    have := sum_map_set Worker.rank (.sending ⟨n, job, out⟩) _ _ _ hw
    simp only [Pool.rank, Pool.setWorker, hj, Worker.rank, List.length_cons] at this ⊢
    omega
  · -- closed
    have := sum_map_set Worker.rank .exited _ _ _ hw
    simp only [Pool.rank, Pool.setWorker, Worker.rank] at this ⊢
    omega
  · exact .inr ⟨r, hw, hrc⟩
  · -- send
    have := sum_map_set Worker.rank .idle _ _ _ hw
    simp only [Pool.rank, Pool.setWorker, Worker.rank, List.length_append,
      List.length_singleton] at this ⊢
    omega
  · -- done
    have := sum_map_set Worker.rank .exited _ _ _ hw
    cases w with
    | exited => exact absurd rfl hne
    | _ => simp only [Pool.rank, Pool.setWorker, Worker.rank] at this ⊢; omega

lemma Sys.Ctrl.step_rank {size : Nat} {σ σ' : Sys D} {a : Act D} (hc : σ.Ctrl size)
    (h : WorkerPool.step σ a = some σ') (ha : a ≠ .cancel) :
    σ'.rank < σ.rank ∧ σ'.pool.cancelled = σ.pool.cancelled := by
  cases hc.step_cases h with
  | submit job rest _ hpend =>
    refine ⟨?_, rfl⟩
    simp only [Sys.rank, Pool.rank, hpend, List.length_append, List.length_cons, List.length_nil]
    omega
  | closeJobs hph | closeResults hph =>
    refine ⟨?_, rfl⟩
    simp only [Sys.rank, Pool.rank, hph, Phase.rank]
    omega
  | worker i wa p hp =>
    rcases workerStep_rank hp with hlt | ⟨r, hw, hrc⟩
    · exact ⟨by simp only [Sys.rank]; omega, (workerStep_frame hp).2.2.2.2⟩
    · exact absurd (hc.resultClosed_iff.1 hrc) (hc.not_stopped hw nofun)
  | consume r rest _ hr =>
    refine ⟨?_, rfl⟩
    simp only [Sys.rank, Pool.rank, hr, List.length_cons]
    omega
  | consumeClosed hd =>
    refine ⟨?_, rfl⟩
    simp only [Sys.rank, hd, Bool.false_eq_true, ↓reduceIte]
    omega
  | cancel => exact absurd rfl ha

lemma run_rank {size : Nat} : ∀ {acts : List (Act D)} {σ σ' : Sys D}, σ.Ctrl size →
    run σ acts = some σ' → (∀ a ∈ acts, a ≠ .cancel) →
      acts.length + σ'.rank ≤ σ.rank ∧ σ'.pool.cancelled = σ.pool.cancelled
  | [], _, _, _, h, _ => by cases h; simp
  | a :: acts, _, _, hc, h, hl => by
    obtain ⟨σ₁, h₁, h⟩ := Option.bind_eq_some.1 h
    obtain ⟨hlt, hcan⟩ := hc.step_rank h₁ (hl a (List.mem_cons_self _ _))
    obtain ⟨hle, hcan'⟩ := run_rank (hc.step h₁) h fun b hb => hl b (List.mem_cons_of_mem _ hb)
    exact ⟨by simp only [List.length_cons]; omega, hcan'.trans hcan⟩

lemma Sys.Ctrl.progress {size : Nat} {σ : Sys D} (hc : σ.Ctrl size) (hN : 1 ≤ size) (d : D)
    (hl : σ.pool.cancelled = false) :
    (σ.phase = .stopped ∧ σ.consumerDone = true) ∨
      ∃ a, a ≠ .cancel ∧ (WorkerPool.step σ a).isSome = true := by
  cases hd : σ.consumerDone
  case true => exact .inl ⟨(hc.done_stopped hd).1, rfl⟩
  refine .inr ?_
  rcases hr : σ.pool.resultChan with _ | ⟨r, rest⟩
  case cons => exact ⟨.consume, nofun, by simp [WorkerPool.step, hd, hr]⟩
  have hcap : 0 < σ.pool.capacity := by simp only [Pool.capacity, hc.size_eq]; omega
  by_cases hall : ∀ w ∈ σ.pool.workers, w = .exited
  · -- every worker has returned: `Stop` goes on, or the consumer reads the closed channel
    have hjc := ((hc.exited_why (hc.exited_mem hN hall)).resolve_left (by simp [hl])).1
    cases hp : σ.phase
    · exact absurd hp (hc.jobClosed_iff.1 hjc)
    · refine ⟨.closeResults, nofun, ?_⟩
      have : σ.pool.workers.all Worker.isExited = true :=
        List.all_eq_true.2 fun w hw => Worker.isExited_iff.2 (hall w hw)
      simp [WorkerPool.step, hp, this]
    · exact ⟨.consume, nofun, by simp [WorkerPool.step, hd, hr, hc.resultClosed_iff.2 hp]⟩
  · -- a worker that has not returned
    push_neg at hall
    obtain ⟨w, hw, hne⟩ := hall
    obtain ⟨i, hi⟩ := List.getElem?_of_mem hw
    have hrc : σ.pool.resultClosed = false :=
      Bool.eq_false_iff.2 fun h => hc.not_stopped hi hne (hc.resultClosed_iff.1 h)
    cases w with
    | exited => exact absurd rfl hne
    | sending r =>
      refine ⟨.worker i .send, nofun, ?_⟩
      simp only [WorkerPool.step, Pool.workerStep, hi, hrc, hr, List.length_nil, hcap,
        Bool.false_eq_true, ↓reduceIte, Option.map_some', Option.isSome_some]
    | idle =>
      rcases hj : σ.pool.jobChan with _ | ⟨⟨n, job⟩, rest⟩
      swap
      · exact ⟨.worker i (.recv d), nofun, by simp [WorkerPool.step, Pool.workerStep, hi, hj]⟩
      cases hjc : σ.pool.jobClosed with
      | true =>
        exact ⟨.worker i .closed, nofun, by simp [WorkerPool.step, Pool.workerStep, hi, hj, hjc]⟩
      | false =>
        -- `jobChan` is open and empty: the producer submits, or calls `Stop`
        have hph : σ.phase = .submitting := by
          by_contra h; simp [hc.jobClosed_iff.2 h] at hjc
        rcases hp : σ.pending with _ | ⟨job, rest⟩
        · exact ⟨.closeJobs, nofun, by simp [WorkerPool.step, hph, hp]⟩
        · exact ⟨.submit, nofun, by simp [WorkerPool.step, hph, hp, Pool.submit, hjc, hj, hcap]⟩

/-- **A live pool completes.** With `size ≥ 1` workers whose `Process` can return `d`, and a
context that is never cancelled, every interleaving of the producer's `Submit` calls and its
`Stop`, the workers and the consumer takes at most `4 * |jobs| + size + 3` steps; and one that no
party can extend has ended: `Stop` has returned, the consumer has read the closed `resultChan`,
and it has read one result for each `Submit`. -/
theorem pool_completes {size : Nat} {jobs : List Job} {acts : List (Act D)} {σ : Sys D} (d : D)
    (hN : 1 ≤ size) (hrun : run (init size jobs) acts = some σ)
    (hlive : ∀ a ∈ acts, a ≠ .cancel) :
    acts.length ≤ 4 * jobs.length + size + 3 ∧
      ((∀ a, a ≠ .cancel → step σ a = none) →
        σ.phase = .stopped ∧ σ.consumerDone = true ∧
          (σ.delivered.map Result.occ).Perm (List.range jobs.length)) := by
  obtain ⟨hle, hl⟩ := run_rank (Sys.Ctrl.init size jobs) hrun hlive
  have hinit : (WorkerPool.init size jobs : Sys D).rank = 4 * jobs.length + size + 3 := by
    simp [Sys.rank, Pool.rank, WorkerPool.init, newWorkerPool, Worker.rank, Phase.rank]
  obtain ⟨hc, ho⟩ := (Reachable.init.run hrun).inv
  refine ⟨by omega, fun hmax => ?_⟩
  rcases hc.progress hN d hl with ⟨hstop, hdone⟩ | ⟨a, ha, hs⟩
  · have hperm := Sys.perm_of_stopped hN hc ho hstop hl
    rw [(hc.done_stopped hdone).2, List.nil_append] at hperm
    exact ⟨hstop, hdone, hperm⟩
  · simp [hmax a ha] at hs

/-- The run of `pool_conservation_one_job`, which never cancels: eight steps, and then no party
but the context can move. -/
theorem pool_completes_one_job :
    let j : Job := ⟨7, 32, 1, .status⟩
    let acts : List (Act Unit) := [.submit, .worker 0 (.recv ()), .worker 0 .send, .closeJobs,
      .worker 0 .closed, .closeResults, .consume, .consume]
    let σ : Sys Unit :=
      ⟨⟨[j], [], true, [.exited], [], true, false, false⟩, [], .stopped, [⟨0, j, ()⟩], true⟩
    1 ≤ 1 ∧ run (init 1 [j]) acts = some σ ∧ (∀ a ∈ acts, a ≠ .cancel) ∧
      (acts.length ≤ 4 * [j].length + 1 + 3 ∧
        ((∀ a, a ≠ .cancel → step σ a = none) →
          σ.phase = .stopped ∧ σ.consumerDone = true ∧
            (σ.delivered.map Result.occ).Perm (List.range [j].length))) := by
  intro j acts σ
  have hrun : run (init 1 [j]) acts = some σ := rfl
  have hlive : ∀ a ∈ acts, a ≠ .cancel := by simp [acts]
  exact ⟨le_rfl, hrun, hlive, pool_completes () le_rfl hrun hlive⟩

end Pauli.Monitor.WorkerPool
