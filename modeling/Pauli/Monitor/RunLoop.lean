import Pauli.Monitor.Events

/-!
The tick loop `Monitor.runLoop`, over the scheduler's clock.

A tick reads the clock twice in `WaitForSlotInterval` (`t0` for `CurrentSlot`, `t1` for
`time.Until`), sleeps until `t`, and hands the slot it computed, with the answer of the finality
lookup, to `NextEvents`. The clock never goes back, and a tick may take any time to submit its
events. A cancelled wait ends the loop, so a run is the list of ticks before a cancellation.
-/

namespace Pauli.Monitor.RunLoop

open Pauli.Basic Pauli.Monitor.Clock Pauli.Monitor.Events

structure Tick where
  t0 : Int
  t1 : Int
  t : Int
  fin : Finality
  deriving DecidableEq, Repr

def tickSlot (s : Scheduler) (tk : Tick) : UInt64 := waitForSlotInterval s tk.t0

/-- `runLoop`: wait for the slot, then `NextEvents`; the events of each tick and the last state,
or `none` if a call never returns. -/
def runLoop : Scheduler → List Tick → Option (List (List ScheduleEvent) × Scheduler)
  | s, [] => some ([], s)
  | s, tk :: tks =>
    (nextEvents s (tickSlot s tk) tk.fin).bind fun r =>
      (runLoop r.2 tks).map fun q => (r.1 :: q.1, q.2)

/-- The clock of a tick: read in order, and the timer fired no earlier than its deadline. -/
def Tick.Timely (s : Scheduler) (tk : Tick) : Prop :=
  tk.t0 ≤ tk.t1 ∧ waitDeadline s tk.t0 tk.t1 ≤ tk.t

/-- Ticks under a clock that never goes back: each tick starts after the one before ended. -/
def Clocked (s : Scheduler) (tks : List Tick) : Prop :=
  (∀ tk ∈ tks, tk.Timely s) ∧ tks.Chain' fun a b => a.t ≤ b.t0

/-- The wait of a tick computes without overflow: `SlotTime` of the slot it returns does not wrap
(`maxSlot` is about 292 years of slots), and the time until then fits a `Duration`. -/
def Tick.InRange (s : Scheduler) (tk : Tick) : Prop :=
  (tickSlot s tk).toNat ≤ maxSlot ∧ slotTime s (tickSlot s tk) - tk.t1 ≤ maxDuration

instance (s : Scheduler) (tk : Tick) : Decidable (tk.Timely s) :=
  inferInstanceAs (Decidable (_ ∧ _))

instance (s : Scheduler) (tk : Tick) : Decidable (tk.InRange s) :=
  inferInstanceAs (Decidable (_ ∧ _))

/-! ### The loop is a run of `NextEvents` -/

lemma runLoop_eq_runEvents (tks : List Tick) : ∀ s : Scheduler,
    runLoop s tks = runEvents s (tks.map fun tk => (tickSlot s tk, tk.fin)) := by
  induction tks with
  | nil => intro s; rfl
  | cons tk tks ih =>
    intro s
    simp only [runLoop, runEvents, List.map_cons]
    cases h : nextEvents s (tickSlot s tk) tk.fin with
    | none => rfl
    | some r =>
      obtain ⟨evs, s'⟩ := r
      obtain ⟨rfl, -⟩ := nextEvents_spec h
      exact congrArg (Option.map _) (ih _)

lemma runLoop_snoc {s s' : Scheduler} {pre : List Tick} {tk : Tick}
    {evss : List (List ScheduleEvent)} {evs : List ScheduleEvent}
    (h : runLoop s (pre ++ [tk]) = some (evss ++ [evs], s')) :
    ∃ s₀, runLoop s pre = some (evss, s₀) ∧
      nextEvents s₀ (tickSlot s tk) tk.fin = some (evs, s') := by
  rw [runLoop_eq_runEvents, List.map_append, List.map_singleton] at h
  obtain ⟨evss₀, s₀, evs₀, h₀, h₁, he⟩ := runEvents_snoc h
  obtain ⟨h₂, h₃⟩ := List.append_inj' he rfl
  rw [List.singleton_inj] at h₃
  subst h₂ h₃
  exact ⟨s₀, by rw [runLoop_eq_runEvents]; exact h₀, h₁⟩

/-! ### The slots of a run -/

section Slots

variable {s : Scheduler} {tk : Tick}

lemma le_waitDeadline (s : Scheduler) (t0 t1 : Int) : t1 ≤ waitDeadline s t0 t1 := by
  unfold waitDeadline add
  dsimp only
  split_ifs <;> omega

lemma Tick.Timely.t0_le (ht : tk.Timely s) : tk.t0 ≤ tk.t :=
  ht.1.trans ((le_waitDeadline s tk.t0 tk.t1).trans ht.2)

lemma t0_sorted : ∀ {tks : List Tick}, Clocked s tks → (tks.map Tick.t0).Pairwise (· ≤ ·)
  | [], _ => List.Pairwise.nil
  | [_], _ => List.pairwise_singleton _ _
  | tk :: tk' :: tks, ⟨ht, hc⟩ => by
    rw [List.chain'_cons] at hc
    have ih : ((tk' :: tks).map Tick.t0).Pairwise (· ≤ ·) :=
      t0_sorted ⟨fun x hx => ht x (by simp [hx]), hc.2⟩
    have h1 : tk.t0 ≤ tk'.t0 := ((ht tk (by simp)).t0_le).trans hc.1
    rw [List.map_cons] at ih ⊢
    refine List.pairwise_cons.2 ⟨fun x hx => ?_, ih⟩
    rcases List.mem_cons.1 hx with rfl | hx
    · exact h1
    · exact h1.trans ((List.pairwise_cons.1 ih).1 x hx)

lemma slots_sorted (h0 : 0 ≤ s.intervalSlots) (h1 : s.intervalSlots < 2 ^ 63) {tks : List Tick}
    (hc : Clocked s tks) : (tks.map (tickSlot s)).Pairwise (· ≤ ·) := by
  refine List.pairwise_map.2 ((List.pairwise_map.1 (t0_sorted hc)).imp fun {a b} hab => ?_)
  have := currentSlot_mono s hab
  rw [u64_le_iff] at this ⊢
  rw [tickSlot, tickSlot, waitForSlotInterval_toNat _ h0 h1, waitForSlotInterval_toNat _ h0 h1]
  omega

lemma tickSlot_le_currentSlot (hr : tk.InRange s) (ht : tk.Timely s) :
    (tickSlot s tk).toNat ≤ (currentSlot s tk.t).toNat :=
  (le_currentSlot_of_wait hr.1 hr.2 ht.2).2

lemma tickSlot_add_le {tk' : Tick} (h0 : 0 ≤ s.intervalSlots) (h1 : s.intervalSlots < 2 ^ 63)
    (hr : tk.InRange s) (ht : tk.Timely s) (hc : tk.t ≤ tk'.t0) :
    (tickSlot s tk).toNat + s.intervalSlots.toNat ≤ (tickSlot s tk').toNat := by
  have h2 : (currentSlot s tk.t).toNat ≤ (currentSlot s tk'.t0).toNat := currentSlot_mono s hc
  have := tickSlot_le_currentSlot hr ht
  show _ ≤ (waitForSlotInterval s tk'.t0).toNat
  rw [waitForSlotInterval_toNat _ h0 h1]
  omega

lemma slots_chain (h0 : 0 ≤ s.intervalSlots) (h1 : s.intervalSlots < 2 ^ 63) :
    ∀ {tks : List Tick}, Clocked s tks → (∀ tk ∈ tks, tk.InRange s) →
      (tks.map fun tk => (tickSlot s tk).toNat).Chain' fun a b => a + s.intervalSlots.toNat ≤ b
  | [], _, _ => List.chain'_nil
  | [_], _, _ => List.chain'_singleton _
  | tk :: tk' :: tks, ⟨ht, hc⟩, hr => by
    rw [List.chain'_cons] at hc
    refine List.chain'_cons.2 ⟨?_, slots_chain h0 h1 ⟨fun x hx => ht x (by simp [hx]), hc.2⟩
      fun x hx => hr x (by simp [hx])⟩
    exact tickSlot_add_le h0 h1 (hr tk (by simp)) (ht tk (by simp)) hc.1

lemma slots_pairwise (hk : 1 ≤ s.intervalSlots) (h1 : s.intervalSlots < 2 ^ 63) {tks : List Tick}
    (hc : Clocked s tks) (hr : ∀ tk ∈ tks, tk.InRange s) :
    (tks.map (tickSlot s)).Pairwise (· < ·) := by
  have hch := (slots_chain (by omega) h1 hc hr).imp
    fun {a b} (h : a + _ ≤ b) => (by omega : a < b)
  rw [List.chain'_iff_pairwise, List.pairwise_map] at hch
  exact List.pairwise_map.2 hch

/-- The failing input of the wait: genesis at the Unix epoch and `polling_interval_slots:
9007199254740992` (`2^53`, which `config.Load` admits). At the genesis instant the wait returns
slot `2^53` at once, since `2^53 * 12 s` wraps to `0` nanoseconds, while `CurrentSlot` is still
`0`; two ticks at that instant pass the same slot. -/
theorem tickSlot_overflow :
    let s : Scheduler := fresh [] (2 ^ 53) 0
    let tk : Tick := ⟨0, 0, 0, .failed⟩
    Clocked s [tk, tk] ∧ [tk, tk].map (tickSlot s) = [9007199254740992, 9007199254740992] ∧
      slotTime s 9007199254740992 = 0 ∧ currentSlot s tk.t = 0 := by
  simp only [Clocked, List.chain'_cons, List.chain'_singleton, and_true]
  decide

end Slots

/-! ### Epoch boundaries along the loop -/

lemma map_fst_slots (s : Scheduler) (tks : List Tick) :
    (tks.map fun tk => (tickSlot s tk, tk.fin)).map Prod.fst = tks.map (tickSlot s) := by
  simp [Function.comp_def]

end Pauli.Monitor.RunLoop
