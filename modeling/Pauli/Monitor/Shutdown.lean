import Pauli.Monitor.WorkerPool

/-!
Shutting the monitor down. On a signal `main` cancels the root context and then runs
`Monitor.Stop`, which stops the worker pool (`close(jobChan)`, wait for the workers,
`close(resultChan)`) and then waits for `runLoop` and `processResults`.

`runLoop` turns tick after tick into jobs. `WaitForSlotInterval` returns the next slot after a
timer whose `select` also watches the context, or at once, without looking at the context, when
the target slot's time has already passed (as it has for every slot when `SlotTime` wraps, for
an interval of `2^53` slots); `NextEvents` returns the tick's events, or never returns when a
finality lookup reports `FAR_FUTURE_EPOCH`. Before each `Submit`, `processEvent` looks at the
context in a `select` with a `default` case, and once the context is cancelled it submits nothing
more. `processResults` reads results until `resultChan` is closed or the context is cancelled.
The workers are those of `WorkerPool`. A send on a closed channel panics, and the panic ends the
program: no goroutine moves after it.
-/

namespace Pauli.Monitor.Shutdown

open Pauli.Monitor.Jobs
open Pauli.Monitor.WorkerPool (Pool Worker WorkerAct newWorkerPool Pool.submit_cases
  workerStep_frame workerStep_rank Pool.rank Worker.rank Worker.isExited_iff)

variable {D : Type}

/-- Where `runLoop` is: at the context check before the next `Submit`, which with no job left is
the call of `WaitForSlotInterval`; inside `Submit`; returned; or inside a `NextEvents` that never
returns. -/
inductive LoopPc
  | gate (jobs : List Job)
  | submitting (job : Job) (rest : List Job)
  | returned
  | hung
  deriving DecidableEq

inductive MainPc
  | running
  | cancelled
  | jobsClosed
  | resultsClosed
  | stopped
  deriving DecidableEq

structure Monitor (D : Type) where
  pool : Pool D
  loop : LoopPc
  main : MainPc
  consumerDone : Bool

/-- A step of one goroutine. In `next waited jobs`, `runLoop` takes a tick: `WaitForSlotInterval`
returns after its timer (`waited`) or at once, and `NextEvents` returns the jobs of the tick's
events, or with `none` never returns. -/
inductive Act (D : Type)
  | loop
  | next (waited : Bool) (jobs : Option (List Job))
  | cancel
  | closeJobs
  | closeResults
  | join
  | worker (i : Nat) (a : WorkerAct D)
  | consume
  | consumerQuit

/-- Where a tick leaves `runLoop`: before the jobs of its events, or hung in `NextEvents`. -/
def LoopPc.afterTick : Option (List Job) → LoopPc
  | some jobs => .gate jobs
  | none => .hung

def Act.isNext : Act D → Bool
  | .next _ _ => true
  | _ => false

/-- One step; `none` when the goroutine cannot take it, and for every goroutine once the program
has panicked. At `WaitForSlotInterval` a cancelled context returns `runLoop` when the timer's
`select` sees it; the timer's own case is taken only while the context is live. -/
def step (m : Monitor D) (a : Act D) : Option (Monitor D) :=
  if m.pool.panicked then none
  else
    match a with
    | .loop =>
      match m.loop with
      | .gate (job :: rest) =>
        some { m with loop := if m.pool.cancelled then .gate rest else .submitting job rest }
      | .gate [] => if m.pool.cancelled then some { m with loop := .returned } else none
      | .submitting job rest =>
        (m.pool.submit job).map fun p => { m with pool := p, loop := .gate rest }
      | .returned | .hung => none
    | .next waited jobs =>
      if m.loop = .gate [] ∧ (waited = false ∨ m.pool.cancelled = false) then
        some { m with loop := LoopPc.afterTick jobs }
      else none
    | .cancel =>
      if m.main = .running then
        some { m with pool := { m.pool with cancelled := true }, main := .cancelled }
      else none
    | .closeJobs =>
      if m.main = .cancelled then
        some { m with pool := { m.pool with jobClosed := true }, main := .jobsClosed }
      else none
    | .closeResults =>
      if m.main = .jobsClosed ∧ m.pool.workers.all Worker.isExited then
        some { m with pool := { m.pool with resultClosed := true }, main := .resultsClosed }
      else none
    | .join =>
      if m.main = .resultsClosed ∧ m.loop = .returned ∧ m.consumerDone then
        some { m with main := .stopped }
      else none
    | .worker i a => (m.pool.workerStep i a).map fun p => { m with pool := p }
    | .consume =>
      if m.consumerDone then none
      else
        match m.pool.resultChan with
        | _ :: rest => some { m with pool := { m.pool with resultChan := rest } }
        | [] => if m.pool.resultClosed then some { m with consumerDone := true } else none
    | .consumerQuit =>
      if m.pool.cancelled ∧ !m.consumerDone then some { m with consumerDone := true } else none

/-- `Monitor.Start`: the pool's `size` workers, `processResults`, and `runLoop` past its first
tick, with that tick's jobs ahead. -/
def start (size : Nat) (jobs : List Job) : Monitor D :=
  ⟨newWorkerPool size, .gate jobs, .running, false⟩

inductive Reachable (size : Nat) (jobs : List Job) : Monitor D → Prop
  | start : Reachable size jobs (start size jobs)
  | step {m m' : Monitor D} (a : Act D) :
      Reachable size jobs m → step m a = some m' → Reachable size jobs m'

def run : Monitor D → List (Act D) → Option (Monitor D)
  | m, [] => some m
  | m, a :: acts => (step m a).bind (run · acts)

lemma Reachable.run {size : Nat} {jobs : List Job} {acts : List (Act D)} :
    ∀ {m m' : Monitor D}, Reachable size jobs m → run m acts = some m' →
      Reachable size jobs m' := by
  induction acts with
  | nil => intro m m' h hr; cases hr; exact h
  | cons a acts ih =>
    intro m m' h hr
    obtain ⟨m₁, h₁, hr⟩ := Option.bind_eq_some.1 hr
    exact ih (.step a h h₁) hr

lemma run_keeps (P : Monitor D → Prop) (A : Act D → Prop)
    (hstep : ∀ {m m' : Monitor D} {a : Act D}, A a → P m → step m a = some m' → P m') :
    ∀ {acts : List (Act D)} {m m' : Monitor D}, (∀ a ∈ acts, A a) → P m → run m acts = some m' →
      P m'
  | [], _, _, _, hp, h => by cases h; exact hp
  | a :: acts, _, _, ha, hp, h => by
    obtain ⟨m₁, h₁, h⟩ := Option.bind_eq_some.1 h
    exact run_keeps P A hstep (fun b hb => ha b (List.mem_cons_of_mem a hb))
      (hstep (ha a (List.mem_cons_self a acts)) hp h₁) h

/-- The failing input of the shutdown: one worker, the validator list `[7]`, and a first tick
at slot `1`, whose only event is a slot poll. `runLoop` passes the context check of
`pollValidators` for validator `7`; then `main` cancels the context and `Monitor.Stop` closes
`jobChan`; the `Submit` that follows sends on the closed channel, and the program panics. -/
theorem submit_after_close :
    let evs : List Events.ScheduleEvent := [⟨1, 0, .slotPoll, [7]⟩]
    let m : Monitor Unit :=
      ⟨⟨[], [], true, [.idle], [], false, true, true⟩, .gate [], .jobsClosed, false⟩
    (Events.nextEvents (Events.fresh [7] 1 0) 1 .failed).map Prod.fst = some evs ∧
      Reachable 1 (jobsOf evs) m ∧ m.pool.jobClosed = true ∧ m.pool.panicked = true := by
  intro evs m
  exact ⟨by decide,
    Reachable.start.run
      (show run (start 1 (jobsOf evs)) [.loop, .cancel, .closeJobs, .loop] = some m from rfl),
    rfl, rfl⟩

/-! ### Every interleaving of the shutdown -/

/-- How `main`'s way through `cancel()` and `Stop`, the context and the closed channels go
together. -/
structure Monitor.Inv (size : Nat) (m : Monitor D) : Prop where
  size_eq : m.pool.workers.length = size
  cancelled_iff : m.pool.cancelled = true ↔ m.main ≠ .running
  jobClosed_iff : m.pool.jobClosed = true ↔
    (m.main = .jobsClosed ∨ m.main = .resultsClosed ∨ m.main = .stopped)
  resultClosed_iff : m.pool.resultClosed = true ↔ (m.main = .resultsClosed ∨ m.main = .stopped)
  closed_exited : m.pool.resultClosed = true → ∀ w ∈ m.pool.workers, w = .exited
  stopped_done : m.main = .stopped → m.loop = .returned ∧ m.consumerDone = true

lemma Monitor.Inv.start (size : Nat) (jobs : List Job) :
    (start size jobs : Monitor D).Inv size where
  size_eq := List.length_replicate _ _
  cancelled_iff := by simp [Shutdown.start, newWorkerPool]
  jobClosed_iff := by simp [Shutdown.start, newWorkerPool]
  resultClosed_iff := by simp [Shutdown.start, newWorkerPool]
  closed_exited := nofun
  stopped_done := nofun

/-- The steps of the monitor's goroutines other than a tick, each under the guard it runs
under. -/
inductive Moved (m : Monitor D) : Monitor D → Prop
  | check (job : Job) (rest : List Job) (hl : m.loop = .gate (job :: rest)) :
      Moved m { m with loop := if m.pool.cancelled then .gate rest else .submitting job rest }
  | loopReturn (hl : m.loop = .gate []) (hc : m.pool.cancelled = true) :
      Moved m { m with loop := .returned }
  | submit (job : Job) (rest : List Job) (p : Pool D) (hl : m.loop = .submitting job rest)
      (hp : m.pool.submit job = some p) : Moved m { m with pool := p, loop := .gate rest }
  | cancel (hm : m.main = .running) :
      Moved m { m with pool := { m.pool with cancelled := true }, main := .cancelled }
  | closeJobs (hm : m.main = .cancelled) :
      Moved m { m with pool := { m.pool with jobClosed := true }, main := .jobsClosed }
  | closeResults (hm : m.main = .jobsClosed) (hall : ∀ w ∈ m.pool.workers, w = .exited) :
      Moved m { m with pool := { m.pool with resultClosed := true }, main := .resultsClosed }
  | join (hm : m.main = .resultsClosed) (hl : m.loop = .returned) (hd : m.consumerDone = true) :
      Moved m { m with main := .stopped }
  | worker (i : Nat) (wa : WorkerAct D) (p : Pool D) (hp : m.pool.workerStep i wa = some p) :
      Moved m { m with pool := p }
  | consume (r : WorkerPool.Result D) (rest : List (WorkerPool.Result D))
      (hd : m.consumerDone = false) (hr : m.pool.resultChan = r :: rest) :
      Moved m { m with pool := { m.pool with resultChan := rest } }
  | consumeClosed (hd : m.consumerDone = false) (hr : m.pool.resultChan = [])
      (hrc : m.pool.resultClosed = true) : Moved m { m with consumerDone := true }
  | consumerQuit (hc : m.pool.cancelled = true) (hd : m.consumerDone = false) :
      Moved m { m with consumerDone := true }

lemma step_next {m m' : Monitor D} {waited : Bool} {jobs : Option (List Job)}
    (h : step m (.next waited jobs) = some m') :
    m.loop = .gate [] ∧ m' = { m with loop := LoopPc.afterTick jobs } := by
  unfold step at h
  split at h
  · cases h
  dsimp only at h
  split_ifs at h with hg
  cases h
  exact ⟨hg.1, rfl⟩

lemma step_cases {m m' : Monitor D} {a : Act D} (h : step m a = some m') (hn : a.isNext = false) :
    Moved m m' := by
  unfold step at h
  split at h
  · cases h
  cases a <;> simp only at h
  case loop =>
    split at h
    · cases h; exact .check _ _ ‹_›
    · split_ifs at h with hc
      cases h; exact .loopReturn ‹_› hc
    · obtain ⟨p, hp, rfl⟩ := Option.map_eq_some'.1 h
      exact .submit _ _ p ‹_› hp
    all_goals cases h
  case next => cases hn
  case cancel =>
    split_ifs at h with hm
    cases h; exact .cancel hm
  case closeJobs =>
    split_ifs at h with hm
    cases h; exact .closeJobs hm
  case closeResults =>
    split_ifs at h with hg
    cases h
    exact .closeResults hg.1 fun w hw => Worker.isExited_iff.1 (List.all_eq_true.1 hg.2 w hw)
  case join =>
    split_ifs at h with hg
    cases h; exact .join hg.1 hg.2.1 hg.2.2
  case worker i wa =>
    obtain ⟨p, hp, rfl⟩ := Option.map_eq_some'.1 h
    exact .worker i wa p hp
  case consume =>
    cases hd : m.consumerDone
    · rw [if_neg (by simp [hd])] at h
      rcases hr : m.pool.resultChan with _ | ⟨r, rest⟩ <;> simp only [hr] at h
      · split_ifs at h with hrc
        cases h; exact .consumeClosed hd hr hrc
      · cases h; exact .consume r rest hd hr
    · rw [if_pos hd] at h; cases h
  case consumerQuit =>
    split_ifs at h with hg
    cases h; exact .consumerQuit hg.1 (by simpa using hg.2)

lemma Moved.hung_iff {m m' : Monitor D} (h : Moved m m') : m'.loop = .hung ↔ m.loop = .hung := by
  cases h with
  | check job rest hl => simp only [hl]; split_ifs <;> simp
  | loopReturn hl | submit _ _ _ hl => simp [hl]
  | _ => rfl

lemma step_hung {m m' : Monitor D} {a : Act D} (h : step m a = some m') (hl : m.loop = .hung) :
    m'.loop = .hung := by
  cases a
  case next => exact absurd ((step_next h).1.symm.trans hl) nofun
  all_goals exact (step_cases h rfl).hung_iff.2 hl

lemma Monitor.Inv.resultClosed_false {size : Nat} {m : Monitor D} (hi : m.Inv size) {i : Nat}
    {w : Worker D} (hw : m.pool.workers[i]? = some w) (hne : w ≠ .exited) :
    m.pool.resultClosed = false :=
  Bool.eq_false_iff.2 fun h => hne (hi.closed_exited h w (List.getElem?_mem hw))

lemma Monitor.Inv.moved {size : Nat} {m m' : Monitor D} (hi : m.Inv size) (h : Moved m m') :
    m'.Inv size := by
  have hloop : ∀ {l}, m.loop = l → l ≠ .returned → m.main ≠ .stopped := fun hl hne hs =>
    hne (hl ▸ (hi.stopped_done hs).1)
  cases h with
  | check job rest hl => exact ⟨hi.1, hi.2, hi.3, hi.4, hi.5, fun hs => absurd hs (hloop hl nofun)⟩
  | loopReturn => exact ⟨hi.1, hi.2, hi.3, hi.4, hi.5, fun hs => ⟨rfl, (hi.stopped_done hs).2⟩⟩
  | submit job rest p hl hp =>
    -- it panics or queues the job, and leaves the flags alone
    rcases Pool.submit_cases hp with ⟨-, rfl⟩ | ⟨-, -, rfl⟩ <;>
      exact ⟨hi.1, hi.2, hi.3, hi.4, hi.5, fun hs => absurd hs (hloop hl nofun)⟩
  | cancel hm =>
    have hj : m.pool.jobClosed = false := Bool.eq_false_iff.2 fun h => by
      rcases hi.jobClosed_iff.1 h with h | h | h <;> simp [hm] at h
    have hr : m.pool.resultClosed = false := Bool.eq_false_iff.2 fun h => by
      rcases hi.resultClosed_iff.1 h with h | h <;> simp [hm] at h
    exact ⟨hi.1, by simp, by simp [hj], by simp [hr], by simp [hr], nofun⟩
  | closeJobs hm =>
    have hr : m.pool.resultClosed = false := Bool.eq_false_iff.2 fun h => by
      rcases hi.resultClosed_iff.1 h with h | h <;> simp [hm] at h
    exact ⟨hi.1, by simp [hi.cancelled_iff, hm], by simp, by simp [hr], by simp [hr], nofun⟩
  | closeResults hm hall =>
    exact ⟨hi.1, by simp [hi.cancelled_iff, hm], by simp [hi.jobClosed_iff, hm], by simp,
      fun _ => hall, nofun⟩
  | join hm hl hd =>
    exact ⟨hi.1, by simp [hi.cancelled_iff, hm], by simp [hi.jobClosed_iff, hm],
      by simp [hi.resultClosed_iff, hm], hi.5, fun _ => ⟨hl, hd⟩⟩
  | worker i wa p hp =>
    -- the worker has not returned, so `resultChan` is open, and the flags stay
    obtain ⟨⟨w, hw, hne⟩, hlen, hjc, hrc, hcan⟩ := workerStep_frame hp
    have hr := hi.resultClosed_false hw hne
    exact ⟨hlen.trans hi.1, by rw [hcan]; exact hi.2, by rw [hjc]; exact hi.3,
      by rw [hrc]; exact hi.4, fun h => absurd (hrc.symm.trans h) (by simp [hr]), hi.6⟩
  | consume r rest hd =>
    exact ⟨hi.1, hi.2, hi.3, hi.4, hi.5,
      fun hs => absurd ((hi.stopped_done hs).2.symm.trans hd) nofun⟩
  | consumeClosed => exact ⟨hi.1, hi.2, hi.3, hi.4, hi.5, fun hs => ⟨(hi.stopped_done hs).1, rfl⟩⟩
  | consumerQuit => exact ⟨hi.1, hi.2, hi.3, hi.4, hi.5, fun hs => ⟨(hi.stopped_done hs).1, rfl⟩⟩

lemma Monitor.Inv.step {size : Nat} {m m' : Monitor D} {a : Act D} (hi : m.Inv size)
    (h : Shutdown.step m a = some m') : m'.Inv size := by
  cases a
  case next =>
    obtain ⟨hl, rfl⟩ := step_next h
    exact ⟨hi.1, hi.2, hi.3, hi.4, hi.5,
      fun hs => absurd ((hi.stopped_done hs).1.symm.trans hl) nofun⟩
  all_goals exact hi.moved (step_cases h rfl)

lemma Reachable.inv {size : Nat} {jobs : List Job} {m : Monitor D}
    (h : Reachable size jobs m) : m.Inv size := by
  induction h with
  | start => exact .start size jobs
  | step _ _ hs ih => exact ih.step hs

/-- What `runLoop` has left of its tick: for each job the context check, the `Submit`, and the
job's way through a worker to the consumer; and the return once cancelled. -/
def LoopPc.rank : LoopPc → Nat
  | .gate jobs => 5 * jobs.length + 1
  | .submitting _ rest => 5 * rest.length + 5
  | .returned | .hung => 0

def MainPc.rank : MainPc → Nat
  | .running => 4
  | .cancelled => 3
  | .jobsClosed => 2
  | .resultsClosed => 1
  | .stopped => 0

/-- A bound on the steps left when `runLoop` takes no further tick: those of `runLoop`'s current
tick, of the pool, of `main` (`cancel()`, the two closes of `Stop` and its `wg.Wait()`), and the
return of `processResults`. -/
def Monitor.rank (m : Monitor D) : Nat :=
  m.loop.rank + m.pool.rank + m.main.rank + if m.consumerDone then 0 else 1

lemma Monitor.Inv.rank_lt {size : Nat} {m m' : Monitor D} {a : Act D} (hi : m.Inv size)
    (h : Shutdown.step m a = some m') (hn : a.isNext = false) : m'.rank < m.rank := by
  cases step_cases h hn with
  | check job rest hl =>
    simp only [Monitor.rank, hl, LoopPc.rank, List.length_cons]
    split_ifs <;> simp only [LoopPc.rank] <;> omega
  | loopReturn hl => simp only [Monitor.rank, hl, LoopPc.rank]; omega
  | submit job rest p hl hp =>
    rcases Pool.submit_cases hp with ⟨-, rfl⟩ | ⟨-, -, rfl⟩ <;>
      simp only [Monitor.rank, Pool.rank, hl, LoopPc.rank, List.length_append,
        List.length_singleton] <;> omega
  | cancel hm | closeJobs hm | closeResults hm | join hm =>
    simp only [Monitor.rank, Pool.rank, hm, MainPc.rank]; omega
  | worker i wa p hp =>
    rcases workerStep_rank hp with hlt | ⟨r, hw, hrc⟩
    · simp only [Monitor.rank]; omega
    · exact absurd hrc (by simp [hi.resultClosed_false hw nofun])
  | consume r rest hd hr => simp only [Monitor.rank, Pool.rank, hr, List.length_cons]; omega
  | consumeClosed hd | consumerQuit _ hd =>
    simp only [Monitor.rank, hd, Bool.false_eq_true, ↓reduceIte]; omega

lemma run_rank {size : Nat} : ∀ {acts : List (Act D)} {m m' : Monitor D}, m.Inv size →
    (∀ a ∈ acts, a.isNext = false) → run m acts = some m' → acts.length + m'.rank ≤ m.rank
  | [], _, _, _, _, h => by cases h; simp
  | a :: acts, _, _, hi, hn, h => by
    obtain ⟨m₁, h₁, h⟩ := Option.bind_eq_some.1 h
    have hlt := hi.rank_lt h₁ (hn a (List.mem_cons_self a acts))
    have hle := run_rank (hi.step h₁) (fun b hb => hn b (List.mem_cons_of_mem a hb)) h
    simp only [List.length_cons]; omega

lemma Monitor.Inv.progress {size : Nat} {m : Monitor D} (hi : m.Inv size)
    (hp : m.pool.panicked = false) (hh : m.loop ≠ .hung) :
    m.main = .stopped ∨ ∃ a : Act D, a.isNext = false ∧ (Shutdown.step m a).isSome = true := by
  cases hm : m.main
  case stopped => exact .inl rfl
  all_goals refine .inr ?_
  case running => exact ⟨.cancel, rfl, by simp [Shutdown.step, hp, hm]⟩
  case cancelled => exact ⟨.closeJobs, rfl, by simp [Shutdown.step, hp, hm]⟩
  case jobsClosed =>
    -- `wg.Wait()`: a worker that has not returned can, the context being cancelled
    have hc : m.pool.cancelled = true := hi.cancelled_iff.2 (by simp [hm])
    by_cases hall : ∀ w ∈ m.pool.workers, w = .exited
    · have : m.pool.workers.all Worker.isExited = true :=
        List.all_eq_true.2 fun w hw => Worker.isExited_iff.2 (hall w hw)
      exact ⟨.closeResults, rfl, by simp [Shutdown.step, hp, hm, this]⟩
    · push_neg at hall
      obtain ⟨w, hw, hne⟩ := hall
      obtain ⟨i, hi⟩ := List.getElem?_of_mem hw
      refine ⟨.worker i .done, rfl, ?_⟩
      cases w with
      | exited => exact absurd rfl hne
      | _ => simp [Shutdown.step, Pool.workerStep, hp, hi, hc]
  case resultsClosed =>
    -- `m.wg.Wait()`: `runLoop` returns, or panics, and `processResults` quits
    have hc : m.pool.cancelled = true := hi.cancelled_iff.2 (by simp [hm])
    have hj : m.pool.jobClosed = true := hi.jobClosed_iff.2 (by simp [hm])
    cases hd : m.consumerDone
    · exact ⟨.consumerQuit, rfl, by simp [Shutdown.step, hp, hc, hd]⟩
    rcases hl : m.loop with _ | ⟨job, rest⟩ | _ | _
    · rename_i jobs
      cases jobs with
      | nil => exact ⟨.loop, rfl, by simp [Shutdown.step, hp, hl, hc]⟩
      | cons job rest => exact ⟨.loop, rfl, by simp [Shutdown.step, hp, hl]⟩
    · exact ⟨.loop, rfl, by simp [Shutdown.step, hp, hl, Pool.submit, hj]⟩
    · exact ⟨.join, rfl, by simp [Shutdown.step, hp, hm, hl, hd]⟩
    · exact absurd hl hh

lemma step_spin {m : Monitor D} (hl : m.loop = .gate []) (hp : m.pool.panicked = false) :
    step m (.next false (some [])) = some m := by
  rw [step, if_neg (by simp [hp]), if_pos ⟨hl, .inl rfl⟩, LoopPc.afterTick, ← hl]

lemma run_spin {m : Monitor D} (hl : m.loop = .gate []) (hp : m.pool.panicked = false) :
    ∀ n, run m (List.replicate n (.next false (some []))) = some m
  | 0 => rfl
  | n + 1 => by rw [List.replicate_succ, run, step_spin hl hp, Option.some_bind, run_spin hl hp n]

/-- **How the shutdown ends.** Over every interleaving of `runLoop`'s ticks and the jobs they
submit, the workers, `processResults`, the signal's `cancel()` and `Monitor.Stop`, at every state
it reaches: no worker holding a result finds `resultChan` closed, so none sends on it after
`Stop` closed it. Unless `runLoop` hangs in `NextEvents`, a run in which it takes no further tick
(after the signal: in which `WaitForSlotInterval` takes its timer) takes at most `rank` steps,
and when no goroutine can go on without a tick, either the program has panicked (the send on the
closed `jobChan` of `submit_after_close`) or `Stop` has returned, with `runLoop` and
`processResults` returned before it. A `WaitForSlotInterval` that does not wait lets `runLoop`
go round for ever while `Stop` waits for it, and once `runLoop` hangs in `NextEvents` no run
returns `Stop`. -/
theorem shutdown_completes {size : Nat} {jobs : List Job} {m : Monitor D}
    (hm : Reachable size jobs m) :
    (∀ (i : Nat) r, m.pool.workers[i]? = some (Worker.sending r) → m.pool.resultClosed = false) ∧
    (m.loop ≠ .hung → ∀ (acts : List (Act D)) m', (∀ a ∈ acts, a.isNext = false) →
      run m acts = some m' → acts.length ≤ m.rank ∧
        ((∀ a : Act D, a.isNext = false → step m' a = none) →
          m'.pool.panicked = true ∨
            m'.main = .stopped ∧ m'.loop = .returned ∧ m'.consumerDone = true)) ∧
    (m.loop = .gate [] → m.pool.panicked = false →
      m.main ≠ .stopped ∧ ∀ n, run m (List.replicate n (.next false (some []))) = some m) ∧
    (m.loop = .hung → ∀ acts m', run m acts = some m' → m'.main ≠ .stopped) := by
  have hi := hm.inv
  refine ⟨fun i r hw => hi.resultClosed_false hw nofun, fun hh acts m' hn hrun => ?_,
    fun hl hp => ⟨fun hs => absurd ((hi.stopped_done hs).1.symm.trans hl) nofun, run_spin hl hp⟩,
    fun hl acts m' hrun hs => ?_⟩
  · have hi' := (hm.run hrun).inv
    have hh' : m'.loop ≠ .hung := run_keeps (fun m => m.loop ≠ .hung) (fun a => a.isNext = false)
      (fun ha hl h hl' => hl ((step_cases h ha).hung_iff.1 hl')) hn hh hrun
    refine ⟨by have := run_rank hi hn hrun; omega, fun hmax => ?_⟩
    cases hp : m'.pool.panicked
    · rcases hi'.progress hp hh' with hs | ⟨a, ha, hs⟩
      · exact .inr ⟨hs, hi'.stopped_done hs⟩
      · simp [hmax a ha] at hs
    · exact .inl rfl
  · have hl' := run_keeps (fun m => m.loop = .hung) (fun _ => True) (fun _ hl h => step_hung h hl)
      (fun _ _ => trivial) hl hrun
    exact absurd ((hm.run hrun).inv.stopped_done hs).1.symm (by rw [hl']; exact nofun)

/-- One slot poll for validator `7` with one worker: the job goes through the worker to
`processResults`, a tick brings no job, and then the signal comes. -/
theorem shutdown_completes_one_job :
    let j : Job := ⟨7, 1, 0, .status⟩
    let m : Monitor Unit :=
      ⟨⟨[j], [], false, [.idle], [], false, true, false⟩, .gate [], .cancelled, false⟩
    Reachable 1 [j] m ∧
      (∀ (i : Nat) r, m.pool.workers[i]? = some (Worker.sending r) →
        m.pool.resultClosed = false) ∧
      (m.loop ≠ .hung → ∀ (acts : List (Act Unit)) m', (∀ a ∈ acts, a.isNext = false) →
        run m acts = some m' → acts.length ≤ m.rank ∧
          ((∀ a : Act Unit, a.isNext = false → step m' a = none) →
            m'.pool.panicked = true ∨
              m'.main = .stopped ∧ m'.loop = .returned ∧ m'.consumerDone = true)) ∧
      (m.loop = .gate [] → m.pool.panicked = false →
        m.main ≠ .stopped ∧ ∀ n, run m (List.replicate n (.next false (some []))) = some m) ∧
      (m.loop = .hung → ∀ acts m', run m acts = some m' → m'.main ≠ .stopped) := by
  intro j m
  have hm : Reachable 1 [j] m := Reachable.start.run
    (show run (start 1 [j]) [.loop, .loop, .worker 0 (.recv ()), .worker 0 .send, .consume,
      .next true (some []), .cancel] = some m from rfl)
  exact ⟨hm, shutdown_completes hm⟩

end Pauli.Monitor.Shutdown
