import Pauli.Monitor.WorkerPool

/-!
`WorkerPool.SubmitAndWait(ctx, jobs)`: a goroutine sends the jobs one by one, each in a `select`
with `<-ctx.Done()`, while the caller reads `len(jobs)` results from `resultChan`, each in a
`select` with `<-ctx.Done()`, and returns those it read. The call's context is its own; the
workers select on the context the pool was started with.

On a pool just started that nothing else uses, the call is a producer and a consumer of the pool
that never closes `jobChan`: each of its steps is a step of the pool's `Sys` or leaves the pool's
part of it as it is, so the pool's invariants hold of it. Under two live contexts every run is
bounded, and one that no party can extend has returned one result for each job, with its
goroutine returned. Both contexts are needed: with the pool's cancelled and the call's live, a
worker may return on `<-ctx.Done()` while jobs are still queued, and the caller then waits for
results that never come.
-/

namespace Pauli.Monitor.SubmitAndWait

open Pauli.Monitor.Jobs
open Pauli.Monitor.WorkerPool (Sys Result Worker WorkerAct Pool newWorkerPool workerStep_rank
  workerStep_frame Pool.submit_cases Pool.rank Worker.rank Sys.Ctrl Sys.Occ Sys.tokens)

variable {D : Type}

/-- A call of `SubmitAndWait`: the pool, the jobs its goroutine has still to send and whether the
goroutine has returned, the results read and `len(jobs)`, whether the call has returned, and
whether the call's context is cancelled. -/
structure Call (D : Type) where
  pool : Pool D
  pending : List Job
  producerDone : Bool
  results : List (Result D)
  total : Nat
  returned : Bool
  callCancelled : Bool

inductive Act (D : Type)
  -- the goroutine: `case wp.jobChan <- job`
  | send
  -- the goroutine's `range` loop is over
  | producerExit
  -- the goroutine: `case <-ctx.Done(): return`
  | producerQuit
  | worker (i : Nat) (a : WorkerAct D)
  -- the caller: `case result := <-wp.resultChan`
  | collect
  -- the caller's `for i < len(jobs)` loop is over: `return results`
  | finish
  -- the caller: `case <-ctx.Done(): return results`
  | collectorQuit
  -- the pool's context is cancelled
  | cancel
  -- the call's context is cancelled
  | callCancel

def step (c : Call D) : Act D → Option (Call D)
  | .send =>
    if c.producerDone then none
    else
      match c.pending with
      | job :: rest => (c.pool.submit job).map fun p => { c with pool := p, pending := rest }
      | [] => none
  | .producerExit =>
    if c.producerDone = false ∧ c.pending = [] then some { c with producerDone := true } else none
  | .producerQuit =>
    if c.producerDone = false ∧ c.callCancelled then some { c with producerDone := true } else none
  | .worker i a => (c.pool.workerStep i a).map fun p => { c with pool := p }
  | .collect =>
    if c.returned ∨ c.total ≤ c.results.length then none
    else
      match c.pool.resultChan with
      | r :: rest =>
        some { c with pool := { c.pool with resultChan := rest }, results := c.results ++ [r] }
      | [] => none
  | .finish =>
    if c.returned = false ∧ c.total ≤ c.results.length then some { c with returned := true }
    else none
  | .collectorQuit =>
    if c.returned = false ∧ c.callCancelled then some { c with returned := true } else none
  | .cancel => some { c with pool := { c.pool with cancelled := true } }
  | .callCancel => some { c with callCancelled := true }

/-- `SubmitAndWait(ctx, jobs)` on a pool of `size` workers just started. -/
def start (size : Nat) (jobs : List Job) : Call D :=
  ⟨newWorkerPool size, jobs, false, [], jobs.length, false, false⟩

inductive Reachable (size : Nat) (jobs : List Job) : Call D → Prop
  | start : Reachable size jobs (start size jobs)
  | step {c c' : Call D} (a : Act D) :
      Reachable size jobs c → step c a = some c' → Reachable size jobs c'

def run : Call D → List (Act D) → Option (Call D)
  | c, [] => some c
  | c, a :: acts => (step c a).bind (run · acts)

lemma Reachable.run {size : Nat} {jobs : List Job} {acts : List (Act D)} :
    ∀ {c c' : Call D}, Reachable size jobs c → run c acts = some c' → Reachable size jobs c' := by
  induction acts with
  | nil => intro c c' h hr; cases hr; exact h
  | cons a acts ih =>
    intro c c' h hr
    obtain ⟨c₁, h₁, hr⟩ := Option.bind_eq_some.1 hr
    exact ih (.step a h h₁) hr

/-! ### The call as a producer and a consumer of the pool -/

/-- The pool's system the call is: a producer still making its `Submit` calls, and a consumer
that has read the call's results. -/
def Call.toSys (c : Call D) : Sys D := ⟨c.pool, c.pending, .submitting, c.results, false⟩

lemma step_toSys {c c' : Call D} {a : Act D} (h : step c a = some c') :
    c'.toSys = c.toSys ∨ ∃ a', WorkerPool.step c.toSys a' = some c'.toSys := by
  cases a with
  | send =>
    simp only [step] at h
    split_ifs at h
    split at h
    · obtain ⟨p, hp, rfl⟩ := Option.map_eq_some'.1 h
      exact .inr ⟨.submit, by simp [WorkerPool.step, Call.toSys, *]⟩
    · cases h
  | worker i wa =>
    obtain ⟨p, hp, rfl⟩ := Option.map_eq_some'.1 h
    exact .inr ⟨.worker i wa, by simp [WorkerPool.step, Call.toSys, hp]⟩
  | collect =>
    simp only [step] at h
    split_ifs at h
    split at h
    · cases h; exact .inr ⟨.consume, by simp [WorkerPool.step, Call.toSys, *]⟩
    · cases h
  | cancel => cases h; exact .inr ⟨.cancel, rfl⟩
  | producerExit | producerQuit | finish | collectorQuit =>
    simp only [step] at h
    split_ifs at h
    cases h
    exact .inl rfl
  | callCancel => cases h; exact .inl rfl

lemma Reachable.toSys {size : Nat} {jobs : List Job} {c : Call D} (h : Reachable size jobs c) :
    WorkerPool.Reachable size jobs c.toSys := by
  induction h with
  | start => exact .init
  | step a _ hs ih =>
    rcases step_toSys hs with he | ⟨a', ha'⟩
    · exact he ▸ ih
    · exact .step a' ih ha'

/-! ### Why each loop ended -/

/-- What the call keeps besides the pool's invariants: `len(jobs)`, the caller's reads bounded by
it, and why each loop ended. -/
structure Call.Inv (jobs : List Job) (c : Call D) : Prop where
  total_eq : c.total = jobs.length
  results_le : c.results.length ≤ c.total
  returned_why : c.returned = true → c.callCancelled = true ∨ c.total ≤ c.results.length
  producer_why : c.producerDone = true → c.callCancelled = true ∨ c.pending = []

lemma Call.Inv.step {jobs : List Job} {c c' : Call D} {a : Act D} (hi : c.Inv jobs)
    (h : SubmitAndWait.step c a = some c') : c'.Inv jobs := by
  cases a with
  | send =>
    simp only [SubmitAndWait.step] at h
    split_ifs at h with hp
    split at h
    · obtain ⟨p, -, rfl⟩ := Option.map_eq_some'.1 h
      exact { hi with producer_why := fun h => absurd h (by simp [hp]) }
    · cases h
  | worker i wa =>
    obtain ⟨p, -, rfl⟩ := Option.map_eq_some'.1 h
    exact { hi with }
  | collect =>
    simp only [SubmitAndWait.step] at h
    split_ifs at h with hg
    split at h
    · cases h
      exact { hi with
        results_le := by simp only [List.length_append, List.length_singleton]; omega
        returned_why := fun h => absurd h (by simp_all) }
    · cases h
  | producerExit | producerQuit =>
    simp only [SubmitAndWait.step] at h
    split_ifs at h with hg
    cases h
    exact { hi with producer_why := fun _ => by simp_all }
  | finish | collectorQuit =>
    simp only [SubmitAndWait.step] at h
    split_ifs at h with hg
    cases h
    exact { hi with returned_why := fun _ => by simp_all }
  | cancel => cases h; exact { hi with }
  | callCancel =>
    cases h
    exact { hi with returned_why := fun _ => .inl rfl, producer_why := fun _ => .inl rfl }

lemma Reachable.inv {size : Nat} {jobs : List Job} {c : Call D} (h : Reachable size jobs c) :
    c.toSys.Ctrl size ∧ c.toSys.Occ jobs ∧ c.Inv jobs := by
  obtain ⟨hc, ho⟩ := h.toSys.inv
  refine ⟨hc, ho, ?_⟩
  induction h with
  | start => exact ⟨rfl, Nat.zero_le _, nofun, nofun⟩
  | step a hr hs ih => exact (ih hr.toSys.inv.1 hr.toSys.inv.2).step hs

/-! ### Counting what the call holds -/

lemma results_length_le {jobs : List Job} {c : Call D} (ho : c.toSys.Occ jobs) :
    c.results.length ≤ c.pool.submitted.length := by
  have hsub : c.results.map Result.occ ⊆ List.range c.pool.submitted.length := fun n hn => by
    obtain ⟨r, hr, rfl⟩ := List.mem_map.1 hn
    exact List.mem_range.2
      (List.getElem?_eq_some_iff.1 (ho.sound _ (Sys.token_mem_of_delivered hr))).1
  simpa using (ho.delivered_nodup.subperm hsub).length_le

lemma submitted_length_le {jobs : List Job} {c : Call D} (ho : c.toSys.Occ jobs)
    (hl : c.pool.cancelled = false) : c.pool.submitted.length ≤ c.toSys.tokens.length := by
  simpa using ((List.nodup_range _).subperm fun n hn =>
    ho.num_mem hl n (List.mem_range.1 hn)).length_le

/-! ### A live call completes -/

/-- A bound on the steps left under two live contexts: each job still to send goes through the
send and then the pool, and each of the two loops has its last step to take. -/
def Call.rank (c : Call D) : Nat :=
  4 * c.pending.length + c.pool.rank + (if c.producerDone then 0 else 1) +
    if c.returned then 0 else 1

lemma step_rank {size : Nat} {c c' : Call D} {a : Act D} (hc : c.toSys.Ctrl size)
    (h : step c a = some c') (ha : a ≠ .cancel ∧ a ≠ .callCancel) :
    c'.rank < c.rank ∧ c'.pool.cancelled = c.pool.cancelled ∧
      c'.callCancelled = c.callCancelled := by
  have hjc : c.pool.jobClosed = false := hc.jobClosed_false rfl
  cases a with
  | send =>
    simp only [step] at h
    split_ifs at h
    split at h
    · rename_i job rest hpend
      obtain ⟨p, hp, rfl⟩ := Option.map_eq_some'.1 h
      rcases Pool.submit_cases hp with ⟨hjc', -⟩ | ⟨-, -, rfl⟩
      · simp [hjc] at hjc'
      · refine ⟨?_, rfl, rfl⟩
        simp only [Call.rank, Pool.rank, hpend, List.length_cons, List.length_append,
          List.length_nil]
        omega
    · cases h
  | worker i wa =>
    obtain ⟨p, hp, rfl⟩ := Option.map_eq_some'.1 h
    rcases workerStep_rank hp with hlt | ⟨r, -, hrc⟩
    · exact ⟨by simp only [Call.rank]; omega, (workerStep_frame hp).2.2.2.2, rfl⟩
    · exact nomatch hc.resultClosed_iff.1 hrc
  | collect =>
    simp only [step] at h
    split_ifs at h
    split at h
    · rename_i r rest hr
      cases h
      refine ⟨?_, rfl, rfl⟩
      simp only [Call.rank, Pool.rank, hr, List.length_cons]
      omega
    · cases h
  | producerExit | producerQuit =>
    simp only [step] at h
    split_ifs at h with hg
    cases h
    refine ⟨?_, rfl, rfl⟩
    simp only [Call.rank, hg.1, Bool.false_eq_true, ↓reduceIte]
    omega
  | finish | collectorQuit =>
    simp only [step] at h
    split_ifs at h with hg
    cases h
    refine ⟨?_, rfl, rfl⟩
    simp only [Call.rank, hg.1, Bool.false_eq_true, ↓reduceIte]
    omega
  | cancel => exact absurd rfl ha.1
  | callCancel => exact absurd rfl ha.2

lemma run_rank {size : Nat} {jobs : List Job} : ∀ {acts : List (Act D)} {c c' : Call D},
    Reachable size jobs c → run c acts = some c' → (∀ a ∈ acts, a ≠ .cancel ∧ a ≠ .callCancel) →
      acts.length + c'.rank ≤ c.rank ∧ c'.pool.cancelled = c.pool.cancelled ∧
        c'.callCancelled = c.callCancelled
  | [], _, _, _, h, _ => by cases h; simp
  | a :: acts, _, _, hr, h, hl => by
    obtain ⟨c₁, h₁, h⟩ := Option.bind_eq_some.1 h
    obtain ⟨hlt, hcan, hcc⟩ := step_rank hr.inv.1 h₁ (hl a (List.mem_cons_self _ _))
    obtain ⟨hle, hcan', hcc'⟩ :=
      run_rank (.step a hr h₁) h fun b hb => hl b (List.mem_cons_of_mem _ hb)
    exact ⟨by simp only [List.length_cons]; omega, hcan'.trans hcan, hcc'.trans hcc⟩

lemma progress {size : Nat} {jobs : List Job} {c : Call D} (hc : c.toSys.Ctrl size)
    (ho : c.toSys.Occ jobs) (hi : c.Inv jobs) (hN : 1 ≤ size) (d : D)
    (hl : c.pool.cancelled = false) (hlc : c.callCancelled = false) :
    (c.returned = true ∧ c.producerDone = true) ∨
      ∃ a, (a ≠ .cancel ∧ a ≠ .callCancel) ∧ (step c a).isSome = true := by
  have hsub := submitted_length_le ho hl
  have hres := results_length_le ho
  have hhist : c.pool.submitted.length + c.pending.length = jobs.length := by
    rw [← List.length_append]; exact congrArg List.length ho.history
  have htotal := hi.total_eq
  by_cases hpe : c.producerDone = false ∧ c.pending = []
  · exact .inr ⟨.producerExit, ⟨nofun, nofun⟩, by simp [step, hpe]⟩
  cases hret : c.returned
  swap
  · -- the caller returned on its `len(jobs)` reads, so every job was sent
    refine .inl ⟨rfl, ?_⟩
    have hall := (hi.returned_why hret).resolve_left (by simp [hlc])
    cases hpd : c.producerDone
    · exact absurd ⟨hpd, List.eq_nil_of_length_eq_zero (by omega)⟩ hpe
    · rfl
  refine .inr ?_
  by_cases hfin : c.total ≤ c.results.length
  · exact ⟨.finish, ⟨nofun, nofun⟩, by simp [step, hret, hfin]⟩
  rcases hr : c.pool.resultChan with _ | ⟨r, rest⟩
  swap
  · exact ⟨.collect, ⟨nofun, nofun⟩, by simp [step, hret, hfin, hr]⟩
  have hsize : c.pool.workers.length = size := hc.size_eq
  have hcap : 0 < c.pool.capacity := by simp only [Pool.capacity, hsize]; omega
  have hrc : c.pool.resultClosed = false :=
    Bool.eq_false_iff.2 fun h => nomatch hc.resultClosed_iff.1 h
  by_cases hs : ∃ (i : Nat) (r : Result D), c.pool.workers[i]? = some (.sending r)
  · obtain ⟨i, r, hw⟩ := hs
    exact ⟨.worker i .send, ⟨nofun, nofun⟩, by simp [step, Pool.workerStep, hw, hrc, hr, hcap]⟩
  push_neg at hs
  rcases hj : c.pool.jobChan with _ | ⟨⟨n, job⟩, rest⟩
  swap
  · -- a queued job, and no worker sending or returned: an idle one takes it
    obtain ⟨w, hw⟩ := List.exists_mem_of_length_pos (show 0 < c.pool.workers.length by omega)
    obtain ⟨i, hwi⟩ := List.getElem?_of_mem hw
    cases w with
    | idle => exact ⟨.worker i (.recv d), ⟨nofun, nofun⟩, by simp [step, Pool.workerStep, hwi, hj]⟩
    | sending r => exact absurd hwi (hs i r)
    | exited =>
      rcases hc.exited_why hw with h | ⟨-, h⟩
      · exact nomatch h.symm.trans hl
      · exact nomatch hj.symm.trans h
  -- nothing in flight: every job sent has been read, so one is left to send
  have hheld : c.pool.workers.flatMap Worker.held = [] := List.flatMap_eq_nil_iff.2 fun w hw => by
    obtain ⟨i, hwi⟩ := List.getElem?_of_mem hw
    cases w with
    | sending r => exact absurd hwi (hs i r)
    | _ => rfl
  have htok : c.toSys.tokens.length = c.results.length := by
    simp [Sys.tokens, Pool.tokens, Call.toSys, hj, hr, hheld]
  obtain ⟨job, rest, hp⟩ : ∃ job rest, c.pending = job :: rest :=
    List.exists_cons_of_ne_nil fun hp => by simp only [hp, List.length_nil] at hhist; omega
  have hpd : c.producerDone = false := by
    cases hpd : c.producerDone
    · rfl
    · rcases hi.producer_why hpd with h | h
      · simp [hlc] at h
      · simp [hp] at h
  have hjc : c.pool.jobClosed = false := hc.jobClosed_false rfl
  exact ⟨.send, ⟨nofun, nofun⟩, by simp [step, hpd, hp, Pool.submit, hjc, hj, hcap]⟩

/-- **`SubmitAndWait` returns a result for each job.** On a pool of `size ≥ 1` workers just
started that nothing else uses, in every state that any interleaving of the call's goroutine, the
workers, the caller and the two cancellations reaches, the results the call has read are of
distinct jobs, each carrying its own job of `jobs`. Under two contexts never cancelled, every run
takes at most `4 * |jobs| + size + 2` steps, and one that no party can extend has returned, with
its goroutine returned, one result for each job. -/
theorem submitAndWait_completes {size : Nat} {jobs : List Job} {acts : List (Act D)}
    {c : Call D} (d : D) (hN : 1 ≤ size) (hrun : run (start size jobs) acts = some c) :
    ((c.results.map Result.occ).Nodup ∧ ∀ r ∈ c.results, jobs[r.occ]? = some r.job) ∧
      ((∀ a ∈ acts, a ≠ .cancel ∧ a ≠ .callCancel) →
        acts.length ≤ 4 * jobs.length + size + 2 ∧
          ((∀ a, a ≠ .cancel → a ≠ .callCancel → step c a = none) →
            c.returned = true ∧ c.producerDone = true ∧
              (c.results.map Result.occ).Perm (List.range jobs.length))) := by
  obtain ⟨hc, ho, hi⟩ := (Reachable.start.run hrun).inv
  refine ⟨⟨ho.delivered_nodup, fun r hr => ho.job_of_delivered hr⟩, fun hlive => ?_⟩
  obtain ⟨hle, hl, hlc⟩ := run_rank .start hrun hlive
  have hinit : (start size jobs : Call D).rank = 4 * jobs.length + size + 2 := by
    simp [Call.rank, Pool.rank, start, newWorkerPool, Worker.rank]
  refine ⟨by omega, fun hmax => ?_⟩
  rcases progress hc ho hi hN d hl hlc with ⟨hret, hpd⟩ | ⟨a, ha, hs⟩
  · have hall := (hi.returned_why hret).resolve_left (by simp [hlc, start])
    refine ⟨hret, hpd, (ho.delivered_nodup.subperm fun n hn => ?_).perm_of_length_le ?_⟩
    · obtain ⟨r, hr, rfl⟩ := List.mem_map.1 hn
      exact List.mem_range.2 (List.getElem?_eq_some_iff.1 (ho.job_of_delivered hr)).1
    · simpa [hi.total_eq] using hall
  · simp [hmax a ha.1 ha.2] at hs

/-- One job on one worker: the goroutine sends it, the worker takes it and sends its result, the
caller reads it and returns, and the goroutine's loop ends. -/
theorem submitAndWait_completes_one_job :
    let j : Job := ⟨7, 32, 1, .status⟩
    let acts : List (Act Unit) :=
      [.send, .worker 0 (.recv ()), .worker 0 .send, .collect, .finish, .producerExit]
    let c : Call Unit :=
      ⟨⟨[j], [], false, [.idle], [], false, false, false⟩, [], true, [⟨0, j, ()⟩], 1, true, false⟩
    1 ≤ 1 ∧ run (start 1 [j]) acts = some c ∧
      (((c.results.map Result.occ).Nodup ∧ ∀ r ∈ c.results, [j][r.occ]? = some r.job) ∧
        ((∀ a ∈ acts, a ≠ .cancel ∧ a ≠ .callCancel) →
          acts.length ≤ 4 * [j].length + 1 + 2 ∧
            ((∀ a, a ≠ .cancel → a ≠ .callCancel → step c a = none) →
              c.returned = true ∧ c.producerDone = true ∧
                (c.results.map Result.occ).Perm (List.range [j].length)))) := by
  intro j acts c
  have hrun : run (start 1 [j]) acts = some c := rfl
  exact ⟨le_rfl, hrun, submitAndWait_completes () le_rfl hrun⟩

end Pauli.Monitor.SubmitAndWait
