import Pauli.Basic

/-!
Package `backoff`: exponential backoff with jitter, and the classifier of retryable HTTP
statuses.

A `Backoff` counts the delays it has handed out. A delay is computed in `float64`, here Lean's
`Float`, from the value `rand.Float64()` returns for it, which is an input; durations are `int64`
nanoseconds.
-/

namespace Pauli

open Basic (wrap64 InInt64 wrap64_of_mem wrap64_mem)

structure Backoff.Config where
  initialDelay : Int
  maxDelay : Int
  multiplier : Float
  jitterFactor : Float

def Backoff.defaultConfig : Backoff.Config := ⟨100 * 1000000, 30 * 1000000000, 2.0, 0.2⟩

structure Backoff where
  cfg : Backoff.Config
  attempts : Nat

def Backoff.new (cfg : Backoff.Config) : Backoff := ⟨cfg, 0⟩

def Backoff.newDefault : Backoff := Backoff.new Backoff.defaultConfig

/-- `time.Duration(d)` of a `float64`: truncation toward zero. -/
def Backoff.durationOfFloat (d : Float) : Int :=
  if d < 0 then -((-d).toUInt64.toNat : Int) else (d.toUInt64.toNat : Int)

/-- `NextDelay`, where `rand.Float64()` returns `r`: the delay, and the Backoff after. -/
def Backoff.nextDelay (b : Backoff) (r : Float) : Int × Backoff :=
  if b.attempts = 0 then (b.cfg.initialDelay, { b with attempts := b.attempts + 1 })
  else
    let delay :=
      Float.ofInt b.cfg.initialDelay * Float.pow b.cfg.multiplier (Float.ofNat b.attempts)
    let jitter := 1.0 + (r * 2 - 1) * b.cfg.jitterFactor
    let delay := delay * jitter
    let delay := if delay > Float.ofInt b.cfg.maxDelay then Float.ofInt b.cfg.maxDelay else delay
    (Backoff.durationOfFloat delay, { b with attempts := b.attempts + 1 })

/-- `Wait`: whether it returns `true`, the delay of its timer, and the Backoff after. `done` says
that the `select` takes the context's case. -/
def Backoff.wait (b : Backoff) (r : Float) (done : Bool) : Bool × Int × Backoff :=
  ((!done), (b.nextDelay r).1, (b.nextDelay r).2)

/-- The delays of successive `NextDelay` calls on `b`, the one numbered `i` drawing `draw i`. -/
def Backoff.delays (draw : Nat → Float) : Backoff → Nat → Nat → List Int
  | _, _, 0 => []
  | b, i, n + 1 => (b.nextDelay (draw i)).1 :: (b.nextDelay (draw i)).2.delays draw (i + 1) n

@[simp] lemma Backoff.nextDelay_snd (b : Backoff) (r : Float) :
    (b.nextDelay r).2 = { b with attempts := b.attempts + 1 } := by
  unfold Backoff.nextDelay; split_ifs <;> rfl

@[simp] lemma Backoff.delays_succ (draw : Nat → Float) (b : Backoff) (i n : Nat) :
    b.delays draw i (n + 1) =
      (b.nextDelay (draw i)).1 :: (b.nextDelay (draw i)).2.delays draw (i + 1) n := rfl

@[simp] lemma Backoff.length_delays (draw : Nat → Float) (b : Backoff) (i n : Nat) :
    (b.delays draw i n).length = n := by
  induction n generalizing b i with
  | zero => rfl
  | succ n ih => simp [ih]

/-- An error the function given to `Retry` returns: a `*RetryableError` with its status and
message, or any other error. An error that wraps a `*RetryableError` is another: its dynamic type
is not `*RetryableError`. -/
inductive RetryErr
  | retryable (statusCode : Int) (message : String)
  | other (msg : String)
  deriving DecidableEq, Repr

/-- `IsRetryable`: `_, ok := err.(*RetryableError)`. -/
def isRetryable : RetryErr → Bool
  | .retryable _ _ => true
  | .other _ => false

/-- What a call of `Retry` meets: what the function returns at its `i`-th call (`none` for
`nil`), whether the backoff wait after it ends by the context, and the draw of its delay. -/
structure RetryEnv where
  result : Nat → Option RetryErr
  done : Nat → Bool
  draw : Nat → Float

inductive RetryEvent
  | call
  | wait (delay : Int)
  deriving DecidableEq, Repr

/-- The `for i := 0; i <= maxRetries; i++` loop of `Retry`, for `fuel` tests of its condition:
`i` is Go's `int` counter, which `i++` wraps, `n` numbers the function's calls, `b` is the call's
Backoff; `none` if the loop is still running after those tests. -/
def retryLoop (maxRetries : Int) (env : RetryEnv) :
    Nat → Int → Nat → Backoff → Option RetryErr → Option (List RetryEvent × Option RetryErr)
  | 0, _, _, _, _ => none
  | fuel + 1, i, n, b, lastErr =>
    if maxRetries < i then some ([], lastErr)
    else
      match env.result n with
      | none => some ([.call], none)
      | some err =>
        if !isRetryable err then some ([.call], some err)
        else if i < maxRetries then
          match b.wait (env.draw n) (env.done n) with
          | (true, delay, b') =>
            (retryLoop maxRetries env fuel (wrap64 (i + 1)) (n + 1) b' (some err)).map
              fun rest => (.call :: .wait delay :: rest.1, rest.2)
          | (false, delay, _) => some ([.call, .wait delay], some (.other "context canceled"))
        else
          (retryLoop maxRetries env fuel (wrap64 (i + 1)) (n + 1) b (some err)).map
            fun rest => (.call :: rest.1, rest.2)

/-- `Retry(ctx, maxRetries, fn)` for `fuel` tests of the loop condition, with a fresh default
Backoff and no `lastErr`. The call returns when some fuel gives a result, and never returns when
none does. -/
def retry (fuel : Nat) (maxRetries : Int) (env : RetryEnv) :
    Option (List RetryEvent × Option RetryErr) :=
  retryLoop maxRetries env fuel 0 0 Backoff.newDefault none

def RetryEnv.retried (env : RetryEnv) (i : Nat) : Bool :=
  match env.result i with
  | some err => isRetryable err
  | none => false

def retryEvents : List Int → List RetryEvent
  | [] => [.call]
  | d :: ds => .call :: .wait d :: retryEvents ds

/-- The loop from call `a` with the Backoff `b`, when `last` is the last call it allows: it makes
the calls `a` to `k` for some `k ≤ last`, goes on after each one before `k` and after `k` only if
it is `last`, waits between two calls with the next delays of `b`, and returns what call `k`
returned. -/
def RetrySpec (env : RetryEnv) (a last : Nat) (b : Backoff)
    (r : List RetryEvent × Option RetryErr) : Prop :=
  ∃ k, a ≤ k ∧ k ≤ last ∧ (∀ j, a ≤ j → j < k → env.retried j) ∧
    (k < last → env.retried k = false) ∧
    r.1 = retryEvents (b.delays env.draw a (k - a)) ∧ r.2 = env.result k

section RetryLoop

variable {m : Int} {env : RetryEnv}

lemma retryLoop_stop {a : Nat} (b : Backoff) (lastErr : Option RetryErr) (fuel : Nat)
    (ha : (a : Int) ≤ m) (hm : m < 2 ^ 63 - 1) (h : env.retried a = true → (a : Int) = m) :
    retryLoop m env (fuel + 2) a a b lastErr = some ([.call], env.result a) := by
  rw [retryLoop, if_neg (by omega)]
  cases hr : env.result a with
  | none => rfl
  | some err =>
    by_cases he : isRetryable err
    · obtain rfl := h (by simp [RetryEnv.retried, hr, he])
      have hw : wrap64 ((a : Int) + 1) = (a : Int) + 1 := wrap64_of_mem (by unfold InInt64; omega)
      simp [he, hw, retryLoop]
    · simp [he]

lemma retryLoop_retry {a : Nat} (b : Backoff) (lastErr : Option RetryErr) (fuel : Nat)
    (hctx : env.done a = false) (h : env.retried a = true) (ha : (a : Int) < m)
    (hm : m < 2 ^ 63) :
    retryLoop m env (fuel + 1) a a b lastErr =
      (retryLoop m env fuel (a + 1 : Nat) (a + 1) (b.nextDelay (env.draw a)).2 (env.result a)).map
        fun rest => (.call :: .wait (b.nextDelay (env.draw a)).1 :: rest.1, rest.2) := by
  have hw : wrap64 ((a : Int) + 1) = ((a + 1 : Nat) : Int) := by
    rw [wrap64_of_mem (by unfold InInt64; omega)]; push_cast; rfl
  rw [retryLoop, if_neg (by omega)]
  cases hr : env.result a with
  | none => simp [RetryEnv.retried, hr] at h
  | some err =>
    simp only [RetryEnv.retried, hr] at h
    simp [h, ha, Backoff.wait, hctx, hw]

lemma retrySpec_of_last {a last : Nat} {b : Backoff} {r : List RetryEvent × Option RetryErr}
    (hlast : a ≤ last) (hstop : a < last → env.retried a = false)
    (hr : r = ([.call], env.result a)) : RetrySpec env a last b r :=
  ⟨a, le_rfl, hlast, fun j h1 h2 => absurd h2 (by omega), hstop,
    by simp [hr, retryEvents, Backoff.delays], by rw [hr]⟩

lemma RetrySpec.unique {a last : Nat} {b : Backoff} {r r' : List RetryEvent × Option RetryErr}
    (h : RetrySpec env a last b r) (h' : RetrySpec env a last b r') : r = r' := by
  obtain ⟨k, hak, hkl, hret, hstop, hev, herr⟩ := h
  obtain ⟨k', hak', hkl', hret', hstop', hev', herr'⟩ := h'
  obtain rfl : k = k' := by
    by_contra hne
    rcases Nat.lt_or_gt_of_ne hne with hlt | hlt
    · exact absurd (hret' k hak hlt) (by rw [hstop (by omega)]; decide)
    · exact absurd (hret k' hak' hlt) (by rw [hstop' (by omega)]; decide)
  exact Prod.ext (hev.trans hev'.symm) (herr.trans herr'.symm)

lemma retryLoop_spec (hctx : ∀ i, env.done i = false) {last : Nat} (hM : (last : Int) = m)
    (hm : m < 2 ^ 63 - 1) : ∀ left a b lastErr, a + left = last → ∀ fuel, left + 1 < fuel →
      ∃ r, retryLoop m env fuel a a b lastErr = some r ∧ RetrySpec env a last b r
  | 0, a, b, lastErr, h, fuel + 2, _ =>
    ⟨_, retryLoop_stop b lastErr fuel (by omega) hm fun _ => by omega,
      retrySpec_of_last (by omega) (fun _ => by omega) rfl⟩
  | left + 1, a, b, lastErr, h, fuel + 1, hfuel => by
    cases hr : env.retried a
    · obtain ⟨fuel', rfl⟩ : ∃ f, fuel = f + 1 := ⟨fuel - 1, by omega⟩
      exact ⟨_, retryLoop_stop b lastErr fuel' (by omega) hm (by simp [hr]),
        retrySpec_of_last (by omega) (fun _ => hr) rfl⟩
    · obtain ⟨r, hrun, k, hak, hkl, hret, hstop, hev, herr⟩ := retryLoop_spec hctx hM hm left
        (a + 1) (b.nextDelay (env.draw a)).2 (env.result a) (by omega) fuel (by omega)
      rw [retryLoop_retry b lastErr fuel (hctx a) hr (by omega) (by omega), hrun]
      refine ⟨_, rfl, k, by omega, hkl, fun j h1 h2 => ?_, hstop, ?_, herr⟩
      · rcases Nat.eq_or_lt_of_le h1 with rfl | hj
        · exact hr
        · exact hret j hj h2
      · show RetryEvent.call :: _ :: r.1 = _
        rw [hev, show k - a = k - (a + 1) + 1 by omega]
        rfl

lemma retryLoop_forever (hm : ∀ i, InInt64 i → ¬ m < i) (hctx : ∀ i, env.done i = false)
    (hall : ∀ j, env.retried j = true) :
    ∀ fuel i n b lastErr, InInt64 i → retryLoop m env fuel i n b lastErr = none
  | 0, _, _, _, _, _ => rfl
  | fuel + 1, i, n, b, lastErr, hi => by
    have hn := hall n
    have ih := retryLoop_forever hm hctx hall fuel (wrap64 (i + 1))
    rw [retryLoop, if_neg (hm i hi)]
    cases hr : env.result n with
    | none => simp [RetryEnv.retried, hr] at hn
    | some err =>
      simp only [RetryEnv.retried, hr] at hn
      by_cases hlt : i < m
      · simp [hn, hlt, Backoff.wait, hctx, ih _ _ _ (wrap64_mem _)]
      · simp [hn, hlt, ih _ _ _ (wrap64_mem _)]

end RetryLoop

/-- **`Retry`.** For every `maxRetries` (a Go `int`) and whatever the function returns at each
call, under a context that is never cancelled: with `maxRetries < 0` the loop never runs, so
`Retry` returns `nil` without calling the function. Below `MaxInt64` it returns once its fuel
covers `maxRetries + 2` tests, after the calls `0` to `k` for some `k ≤ maxRetries`; every call
before `k` returned a `*RetryableError` and was followed by one backoff wait, the `i`-th wait
taking the `i`-th delay of the one Backoff it creates; call `k` returned `nil` or another error,
or is call `maxRetries`; and `Retry` returns what call `k` returned. At `maxRetries = MaxInt64`,
`i++` wraps and a function that always returns a `*RetryableError` keeps `Retry` running for
ever. -/
theorem retry_returns_last (m : Int) (env : RetryEnv)
    (hctx : ∀ i, env.done i = false) :
    (m < 0 → ∀ fuel, 0 < fuel → retry fuel m env = some ([], none)) ∧
    (0 ≤ m → m < 2 ^ 63 - 1 → ∃ k : Nat, (k : Int) ≤ m ∧ (∀ j < k, env.retried j) ∧
      ((k : Int) < m → env.retried k = false) ∧
      ∀ fuel, m.toNat + 1 < fuel → retry fuel m env =
        some (retryEvents (Backoff.newDefault.delays env.draw 0 k), env.result k)) ∧
    (m = 2 ^ 63 - 1 → (∀ j, env.retried j = true) → ∀ fuel, retry fuel m env = none) := by
  refine ⟨fun hm0 fuel hf => ?_, fun hm0 hmax => ?_, fun hmax hall fuel => ?_⟩
  · obtain ⟨fuel, rfl⟩ : ∃ f, fuel = f + 1 := ⟨fuel - 1, by omega⟩
    rw [retry, retryLoop, if_pos (by omega)]
  · have hM := Int.toNat_of_nonneg hm0
    obtain ⟨r₀, -, hspec₀⟩ := retryLoop_spec hctx hM hmax m.toNat 0 Backoff.newDefault none
      (Nat.zero_add _) (m.toNat + 2) (by omega)
    obtain ⟨k, -, hk, hret, hstop, hev, herr⟩ := id hspec₀
    refine ⟨k, by omega, fun j hj => hret j j.zero_le hj, fun hk' => hstop (by omega),
      fun fuel hfuel => ?_⟩
    obtain ⟨r, hrun, hspec⟩ := retryLoop_spec hctx hM hmax m.toNat 0 Backoff.newDefault none
      (Nat.zero_add _) fuel hfuel
    have hrun' : retry fuel m env = some r := hrun
    rw [hrun', hspec.unique hspec₀, ← herr, ← Nat.sub_zero k, ← hev]
  · exact retryLoop_forever (fun i hi => by unfold InInt64 at hi; omega) hctx hall fuel 0 0 _ none
      (by unfold InInt64; omega)

/-- Three retries of a function that answers `503` once and then `nil`. -/
theorem retry_returns_last_busy_once :
    let env : RetryEnv :=
      ⟨fun i => if i = 0 then some (.retryable 503 "HTTP 503: busy") else none, fun _ => false,
        fun _ => 0.5⟩
    (∀ i, env.done i = false) ∧
    ((3 : Int) < 0 → ∀ fuel, 0 < fuel → retry fuel 3 env = some ([], none)) ∧
    (0 ≤ (3 : Int) → (3 : Int) < 2 ^ 63 - 1 → ∃ k : Nat, (k : Int) ≤ 3 ∧ (∀ j < k, env.retried j) ∧
      ((k : Int) < 3 → env.retried k = false) ∧
      ∀ fuel, (3 : Int).toNat + 1 < fuel → retry fuel 3 env =
        some (retryEvents (Backoff.newDefault.delays env.draw 0 k), env.result k)) ∧
    ((3 : Int) = 2 ^ 63 - 1 → (∀ j, env.retried j = true) → ∀ fuel, retry fuel 3 env = none) :=
  ⟨fun _ => rfl, retry_returns_last 3 _ fun _ => rfl⟩

end Pauli
