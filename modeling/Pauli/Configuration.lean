import Pauli.Basic

/-!
The configuration as `config.Load` returns it: the decoded YAML document is checked by `validate`
and completed by `setDefaults`. Reading the file and decoding the YAML are not modelled; an `int`
field is an integer.
-/

namespace Pauli.Configuration

open Pauli.Basic

structure RateLimitConf where
  requestsPerSecond : Float
  burst : Int

structure HTTPConf where
  timeoutSeconds : Int
  maxIdleConns : Int

structure ScyllaDBConf where
  hosts : List String
  keyspace : String
  replicationFactor : Int
  consistency : String
  timeoutSeconds : Int
  maxRetries : Int
  ttlDays : Int

structure Config where
  beaconNodeURL : String
  validators : List UInt64
  pollingIntervalSlots : Int
  workerPoolSize : Int
  rateLimit : RateLimitConf
  http : HTTPConf
  scyllaDB : ScyllaDBConf

/-- `ScyllaDBConf.TTLSeconds`: `TTLDays * 24 * 60 * 60` in Go's 64-bit `int`, each product
wrapping. -/
def ScyllaDBConf.ttlSeconds (s : ScyllaDBConf) : Int :=
  wrap64 (wrap64 (wrap64 (s.ttlDays * 24) * 60) * 60)

lemma ScyllaDBConf.ttlSeconds_eq (s : ScyllaDBConf) :
    s.ttlSeconds = wrap64 (s.ttlDays * 86400) := by
  unfold ScyllaDBConf.ttlSeconds wrap64; omega

/-- `validate`: the first required field that is missing, with its message. -/
def Config.validate (c : Config) : Option String :=
  if c.beaconNodeURL = "" then some "beacon_node_url is required"
  else if c.validators.length = 0 then some "at least one validator index is required"
  else if c.scyllaDB.hosts.length = 0 then some "at least one scylladb host is required"
  else if c.scyllaDB.keyspace = "" then some "scylladb keyspace is required"
  else none

lemma validate_eq_none_iff (c : Config) :
    c.validate = none ↔ c.beaconNodeURL ≠ "" ∧ c.validators ≠ [] ∧ c.scyllaDB.hosts ≠ [] ∧
      c.scyllaDB.keyspace ≠ "" := by
  unfold Config.validate
  split_ifs <;> simp_all [List.length_eq_zero]

lemma validate_eq_some {c : Config} {msg : String} (h : c.validate = some msg) :
    (c.beaconNodeURL = "" ∧ msg = "beacon_node_url is required") ∨
    (c.validators = [] ∧ msg = "at least one validator index is required") ∨
    (c.scyllaDB.hosts = [] ∧ msg = "at least one scylladb host is required") ∨
    (c.scyllaDB.keyspace = "" ∧ msg = "scylladb keyspace is required") := by
  unfold Config.validate at h
  split_ifs at h with h1 h2 h3 h4 <;> cases h
  · exact .inl ⟨h1, rfl⟩
  · exact .inr (.inl ⟨List.length_eq_zero.1 h2, rfl⟩)
  · exact .inr (.inr (.inl ⟨List.length_eq_zero.1 h3, rfl⟩))
  · exact .inr (.inr (.inr ⟨h4, rfl⟩))

/-- The pattern of every integer field of `setDefaults`: a value that is not positive is replaced
by the default. -/
def orDefault (x d : Int) : Int := if x ≤ 0 then d else x

lemma orDefault_pos {x d : Int} (hd : 0 < d) : 0 < orDefault x d := by
  unfold orDefault; split_ifs <;> omega

lemma orDefault_of_pos {x d : Int} (hx : 0 < x) : orDefault x d = x := by
  unfold orDefault; split_ifs <;> omega

def Config.setDefaults (c : Config) : Config :=
  { c with
    pollingIntervalSlots := orDefault c.pollingIntervalSlots 1
    workerPoolSize := orDefault c.workerPoolSize 10
    rateLimit :=
      { requestsPerSecond :=
          if c.rateLimit.requestsPerSecond ≤ 0 then 50 else c.rateLimit.requestsPerSecond
        burst := orDefault c.rateLimit.burst 100 }
    http :=
      { timeoutSeconds := orDefault c.http.timeoutSeconds 30
        maxIdleConns := orDefault c.http.maxIdleConns 100 }
    scyllaDB :=
      { c.scyllaDB with
        replicationFactor := orDefault c.scyllaDB.replicationFactor 3
        consistency :=
          if c.scyllaDB.consistency = "" then "local_quorum" else c.scyllaDB.consistency
        timeoutSeconds := orDefault c.scyllaDB.timeoutSeconds 10
        maxRetries := orDefault c.scyllaDB.maxRetries 3
        ttlDays := orDefault c.scyllaDB.ttlDays 90 } }

/-- `config.Load` after decoding: the configuration, or the error it returns. -/
def load (c : Config) : Except String Config :=
  match c.validate with
  | some e => .error ("invalid configuration: " ++ e)
  | none => .ok c.setDefaults

/-- What a loaded configuration guarantees: validators to watch, and every integer setting
positive. -/
structure Admitted (c : Config) : Prop where
  validators : c.validators ≠ []
  pollingIntervalSlots : 0 < c.pollingIntervalSlots
  workerPoolSize : 0 < c.workerPoolSize
  burst : 0 < c.rateLimit.burst
  timeoutSeconds : 0 < c.http.timeoutSeconds
  maxIdleConns : 0 < c.http.maxIdleConns
  replicationFactor : 0 < c.scyllaDB.replicationFactor
  dbTimeoutSeconds : 0 < c.scyllaDB.timeoutSeconds
  maxRetries : 0 < c.scyllaDB.maxRetries
  ttlDays : 0 < c.scyllaDB.ttlDays

theorem load_admitted {c c' : Config} (h : load c = .ok c') : Admitted c' := by
  unfold load at h
  split at h
  · cases h
  · rename_i hv
    cases h
    exact ⟨((validate_eq_none_iff c).1 hv).2.1, orDefault_pos (by decide),
      orDefault_pos (by decide), orDefault_pos (by decide), orDefault_pos (by decide),
      orDefault_pos (by decide), orDefault_pos (by decide), orDefault_pos (by decide),
      orDefault_pos (by decide), orDefault_pos (by decide)⟩

lemma load_eq_error_iff (c : Config) (e : String) :
    load c = .error e ↔ ∃ msg, c.validate = some msg ∧ e = "invalid configuration: " ++ msg := by
  unfold load
  cases c.validate <;> simp [eq_comm]

lemma load_eq_ok_iff {c cfg : Config} : load c = .ok cfg ↔ c.validate = none ∧ c.setDefaults = cfg := by
  unfold load
  cases c.validate <;> simp

lemma setDefaults_of_admitted {c : Config} (h : Admitted c) :
    c.setDefaults.pollingIntervalSlots = c.pollingIntervalSlots ∧
    c.setDefaults.workerPoolSize = c.workerPoolSize ∧
    c.setDefaults.rateLimit.burst = c.rateLimit.burst ∧
    c.setDefaults.http = c.http ∧
    c.setDefaults.scyllaDB.replicationFactor = c.scyllaDB.replicationFactor ∧
    c.setDefaults.scyllaDB.timeoutSeconds = c.scyllaDB.timeoutSeconds ∧
    c.setDefaults.scyllaDB.maxRetries = c.scyllaDB.maxRetries ∧
    c.setDefaults.scyllaDB.ttlDays = c.scyllaDB.ttlDays := by
  simp [Config.setDefaults, orDefault_of_pos h.pollingIntervalSlots,
    orDefault_of_pos h.workerPoolSize, orDefault_of_pos h.burst, orDefault_of_pos h.timeoutSeconds,
    orDefault_of_pos h.maxIdleConns, orDefault_of_pos h.replicationFactor,
    orDefault_of_pos h.dbTimeoutSeconds, orDefault_of_pos h.maxRetries, orDefault_of_pos h.ttlDays]

end Pauli.Configuration
