import Pauli.Configuration

/-!
The store client `main` opens before it starts the monitor. `storage.NewClient` parses the
consistency level of the `scylladb` section, opens a session, creates the keyspace and opens a
session on it; `RunMigrations` creates the four tables and sets the TTL of each.

The store is modelled through its answers: opening a session and running a statement each
succeed, or fail with an error text. Every function returns the statements it sent, in order,
with its result.
-/

namespace Pauli.Storage.Scylla

open Pauli.Basic Pauli.Configuration

/-! ### Consistency levels -/

inductive Consistency
  | any | one | two | three | quorum | all | localQuorum | eachQuorum | localOne
  deriving Repr, DecidableEq

/-- `strings.ToLower`, on the letters `A` to `Z`. -/
def toLower (s : String) : String := ⟨s.data.map Char.toLower⟩

def parseConsistency (level : String) : Except String Consistency :=
  match toLower level with
  | "any" => .ok .any
  | "one" => .ok .one
  | "two" => .ok .two
  | "three" => .ok .three
  | "quorum" => .ok .quorum
  | "all" => .ok .all
  | "local_quorum" => .ok .localQuorum
  | "each_quorum" => .ok .eachQuorum
  | "local_one" => .ok .localOne
  | _ => .error ("unknown consistency level: " ++ level)

/-- The name `parseConsistency` reads for each level. -/
def Consistency.name : Consistency → String
  | .any => "any"
  | .one => "one"
  | .two => "two"
  | .three => "three"
  | .quorum => "quorum"
  | .all => "all"
  | .localQuorum => "local_quorum"
  | .eachQuorum => "each_quorum"
  | .localOne => "local_one"

lemma Consistency.name_injective : Function.Injective Consistency.name := by
  intro k k' h
  cases k <;> cases k' <;> simp_all [Consistency.name]

lemma toLower_empty_ne_name (k : Consistency) : toLower "" ≠ k.name := by
  cases k <;> decide

lemma parseConsistency_eq_ok_iff {level : String} {k : Consistency} :
    parseConsistency level = .ok k ↔ toLower level = k.name := by
  unfold parseConsistency
  split <;> cases k <;> simp_all [Consistency.name]

lemma parseConsistency_eq_error_iff {level e : String} :
    parseConsistency level = .error e ↔
      (∀ k : Consistency, toLower level ≠ k.name) ∧ e = "unknown consistency level: " ++ level := by
  have hmsg : ∀ {e'}, parseConsistency level = .error e' →
      e' = "unknown consistency level: " ++ level := by
    intro e' h
    unfold parseConsistency at h
    split at h <;> cases h
    rfl
  constructor
  · intro h
    refine ⟨fun k hk => ?_, hmsg h⟩
    rw [parseConsistency_eq_ok_iff.2 hk] at h
    cases h
  · rintro ⟨hk, rfl⟩
    cases h : parseConsistency level with
    | ok k => exact absurd (parseConsistency_eq_ok_iff.1 h) (hk k)
    | error e' => rw [hmsg h]

/-! ### Statements and the store -/

/-- The statements the client sends, by their arguments: `createKeyspace`'s
`CREATE KEYSPACE IF NOT EXISTS %s` with `'replication_factor': %d`, a statement of `migrations` by
the table it creates, and `setTableTTL`'s `ALTER TABLE %s WITH default_time_to_live = %d`. -/
inductive Statement
  | createKeyspace (keyspace : String) (replicationFactor : Int)
  | createTable (table : String)
  | setTTL (table : String) (seconds : Int)
  deriving Repr, DecidableEq

/-- The store's answers, `none` for success: to opening a session, without a keyspace or on one,
and to each statement. A start sends each statement once, so answers that depend on the statement
alone are as general as answers that depend on what was sent before. -/
structure Store where
  connect : Option String → Option String
  exec : Statement → Option String

/-- `Client`: the keyspace and TTL it keeps, and the consistency of its session, which every
write of the repository uses. -/
structure Client where
  keyspace : String
  ttlSeconds : Int
  consistency : Consistency
  deriving Repr, DecidableEq

def createKeyspace (st : Store) (keyspace : String) (replicationFactor : Int) :
    Statement × Option String :=
  let create := Statement.createKeyspace keyspace replicationFactor
  (create, (st.exec create).map ("failed to create keyspace: " ++ ·))

def newClient (cfg : ScyllaDBConf) (st : Store) : List Statement × Except String Client :=
  match parseConsistency cfg.consistency with
  | .error e => ([], .error e)
  | .ok consistency =>
    match st.connect none with
    | some e => ([], .error ("failed to connect to ScyllaDB: " ++ e))
    | none =>
      match createKeyspace st cfg.keyspace cfg.replicationFactor with
      | (create, some e) => ([create], .error e)
      | (create, none) =>
        match st.connect (some cfg.keyspace) with
        | some e =>
          ([create], .error ("failed to connect to keyspace " ++ cfg.keyspace ++ ": " ++ e))
        | none => ([create], .ok ⟨cfg.keyspace, cfg.ttlSeconds, consistency⟩)

/-- `migrations`: the `CREATE TABLE IF NOT EXISTS` statements, by the table each creates. Their
columns and primary keys are those of the rows of `Pauli.Monitor.Jobs`. -/
def migrations : List Statement :=
  [.createTable "validator_snapshots", .createTable "attestation_duties",
    .createTable "attestation_rewards", .createTable "validator_penalties"]

def tableNames : List String :=
  ["validator_snapshots", "attestation_duties", "attestation_rewards", "validator_penalties"]

lemma migrations_eq : migrations = tableNames.map .createTable := rfl

/-- A `for` loop whose body sends `stmt x` and returns at the first error, wrapped by `wrap x`:
the statements sent, and the error. -/
def sendEach {α : Type} (st : Store) (stmt : α → Statement) (wrap : α → String → String) :
    List α → List Statement × Option String
  | [] => ([], none)
  | x :: xs =>
    match st.exec (stmt x) with
    | some e => ([stmt x], some (wrap x e))
    | none => (stmt x :: (sendEach st stmt wrap xs).1, (sendEach st stmt wrap xs).2)

def Client.setTableTTL (c : Client) (table : String) : Statement := .setTTL table c.ttlSeconds

def Client.runMigrations (c : Client) (st : Store) : List Statement × Option String :=
  match sendEach st id (fun _ e => "migration failed: " ++ e) migrations with
  | (created, some e) => (created, some e)
  | (created, none) =>
    let altered :=
      sendEach st c.setTableTTL (fun t e => "failed to set TTL on " ++ t ++ ": " ++ e) tableNames
    (created ++ altered.1, altered.2)

/-- `main` from `config.Load` to `NewMonitor`: the statements sent to the store, and the fatal
error, or the configuration and the client the monitor starts with. -/
def startup (c : Config) (st : Store) : List Statement × Except String (Config × Client) :=
  match load c with
  | .error e => ([], .error e)
  | .ok cfg =>
    match newClient cfg.scyllaDB st with
    | (sent, .error e) => (sent, .error e)
    | (sent, .ok client) =>
      match client.runMigrations st with
      | (sent', some e) => (sent ++ sent', .error e)
      | (sent', none) => (sent ++ sent', .ok (cfg, client))

/-! ### Runs of the start -/

section Loop

variable {α : Type} {st : Store} {stmt : α → Statement} {wrap : α → String → String}

lemma sendEach_of_accepts : ∀ {xs : List α}, (∀ x ∈ xs, st.exec (stmt x) = none) →
    sendEach st stmt wrap xs = (xs.map stmt, none)
  | [], _ => rfl
  | x :: xs, h => by
    rw [sendEach, h x (List.mem_cons_self x xs),
      sendEach_of_accepts fun y hy => h y (List.mem_cons_of_mem x hy)]
    rfl

lemma sendEach_of_none : ∀ {xs : List α} {sent : List Statement},
    sendEach st stmt wrap xs = (sent, none) →
      sent = xs.map stmt ∧ ∀ x ∈ xs, st.exec (stmt x) = none
  | [], _, h => by cases h; exact ⟨rfl, nofun⟩
  | x :: xs, sent, h => by
    rcases hr : sendEach st stmt wrap xs with ⟨sent', err⟩
    rcases hx : st.exec (stmt x) with _ | e
    · simp only [sendEach, hx, hr, Prod.mk.injEq] at h
      obtain ⟨rfl, rfl⟩ := h
      obtain ⟨rfl, hall⟩ := sendEach_of_none hr
      exact ⟨rfl, List.forall_mem_cons.2 ⟨hx, hall⟩⟩
    · simp [sendEach, hx] at h

end Loop

lemma Client.runMigrations_of_accepts (c : Client) {st : Store} (hexec : ∀ s, st.exec s = none) :
    c.runMigrations st = (migrations ++ tableNames.map c.setTableTTL, none) := by
  simp only [Client.runMigrations, sendEach_of_accepts fun x _ => hexec _, List.map_id]

lemma Client.runMigrations_of_none {c : Client} {st : Store} {sent : List Statement}
    (h : c.runMigrations st = (sent, none)) :
    sent = migrations ++ tableNames.map c.setTableTTL := by
  rcases hc : sendEach st id (fun _ e => "migration failed: " ++ e) migrations with ⟨created, _ | e⟩
  · rcases ha : sendEach st c.setTableTTL (fun t e => "failed to set TTL on " ++ t ++ ": " ++ e)
      tableNames with ⟨altered, err⟩
    simp only [Client.runMigrations, hc, ha, Prod.mk.injEq] at h
    obtain ⟨rfl, rfl⟩ := h
    rw [(sendEach_of_none hc).1, List.map_id, (sendEach_of_none ha).1]
  · simp [Client.runMigrations, hc] at h

lemma newClient_eq_ok {cfg : ScyllaDBConf} {st : Store} {sent : List Statement} {cl : Client}
    (h : newClient cfg st = (sent, .ok cl)) :
    sent = [.createKeyspace cfg.keyspace cfg.replicationFactor] ∧
      parseConsistency cfg.consistency = .ok cl.consistency ∧ cl.ttlSeconds = cfg.ttlSeconds := by
  rcases hk : parseConsistency cfg.consistency with e | k
  · simp [newClient, hk] at h
  rcases h0 : st.connect none with _ | e
  · rcases h1 : st.exec (.createKeyspace cfg.keyspace cfg.replicationFactor) with _ | e
    · rcases h2 : st.connect (some cfg.keyspace) with _ | e
      · simp only [newClient, createKeyspace, hk, h0, h1, h2, Option.map_none', Prod.mk.injEq,
          Except.ok.injEq] at h
        obtain ⟨rfl, rfl⟩ := h
        exact ⟨rfl, rfl, rfl⟩
      · simp [newClient, createKeyspace, hk, h0, h1, h2] at h
    · simp [newClient, createKeyspace, hk, h0, h1] at h
  · simp [newClient, hk, h0] at h

lemma startup_eq_ok {c : Config} {st : Store} {sent : List Statement} {cfg : Config} {cl : Client}
    (h : startup c st = (sent, .ok (cfg, cl))) :
    load c = .ok cfg ∧ parseConsistency cfg.scyllaDB.consistency = .ok cl.consistency ∧
      cl.ttlSeconds = cfg.scyllaDB.ttlSeconds ∧
      sent = .createKeyspace cfg.scyllaDB.keyspace cfg.scyllaDB.replicationFactor ::
        (migrations ++ tableNames.map cl.setTableTTL) := by
  rcases hl : load c with e | cfg'
  · simp [startup, hl] at h
  rcases hn : newClient cfg'.scyllaDB st with ⟨sent₁, e | cl'⟩
  · simp [startup, hl, hn] at h
  rcases hm : cl'.runMigrations st with ⟨sent₂, _ | e⟩
  · simp only [startup, hl, hn, hm, Prod.mk.injEq, Except.ok.injEq] at h
    obtain ⟨rfl, rfl, rfl⟩ := h
    obtain ⟨rfl, hk, ht⟩ := newClient_eq_ok hn
    exact ⟨rfl, hk, ht, by rw [Client.runMigrations_of_none hm]; rfl⟩
  · simp [startup, hl, hn, hm] at h

lemma startup_of_accepts {c : Config} {st : Store} (hconnect : ∀ ks, st.connect ks = none)
    (hexec : ∀ s, st.exec s = none) {cfg : Config} {k : Consistency} (hl : load c = .ok cfg)
    (hk : parseConsistency cfg.scyllaDB.consistency = .ok k) :
    ∃ sent, startup c st =
      (sent, .ok (cfg, ⟨cfg.scyllaDB.keyspace, cfg.scyllaDB.ttlSeconds, k⟩)) := by
  simp only [startup, hl, newClient, hk, hconnect, createKeyspace, hexec, Option.map_none',
    Client.runMigrations_of_accepts _ hexec]
  exact ⟨_, rfl⟩

lemma parseConsistency_setDefaults (c : Config) (k : Consistency) :
    parseConsistency c.setDefaults.scyllaDB.consistency = .ok k ↔
      c.scyllaDB.consistency = "" ∧ k = .localQuorum ∨ toLower c.scyllaDB.consistency = k.name := by
  by_cases h0 : c.scyllaDB.consistency = ""
  · have hq : toLower "local_quorum" = Consistency.localQuorum.name := by decide
    simp only [Config.setDefaults, h0, ↓reduceIte, parseConsistency_eq_ok_iff, hq,
      Consistency.name_injective.eq_iff, toLower_empty_ne_name, true_and, or_false]
    exact eq_comm
  · simp [Config.setDefaults, h0, parseConsistency_eq_ok_iff]

/-- **The store client runs at the configured level.** Against a store that opens every session
and runs every statement, `main` reaches the monitor with a client whose session writes at level
`k` exactly when the configuration passes `validate` and either sets no consistency and `k` is
`local_quorum`, or its consistency is `k`'s name in any letter case. Any other consistency text
stops the start. -/
theorem startup_consistency (c : Config) (st : Store) (hconnect : ∀ ks, st.connect ks = none)
    (hexec : ∀ s, st.exec s = none) (k : Consistency) :
    (∃ sent cfg cl, startup c st = (sent, .ok (cfg, cl)) ∧ cl.consistency = k) ↔
      c.validate = none ∧
        (c.scyllaDB.consistency = "" ∧ k = .localQuorum ∨ toLower c.scyllaDB.consistency = k.name) := by
  constructor
  · rintro ⟨sent, cfg, cl, h, rfl⟩
    obtain ⟨hl, hk, -⟩ := startup_eq_ok h
    obtain ⟨hv, rfl⟩ := load_eq_ok_iff.1 hl
    exact ⟨hv, (parseConsistency_setDefaults c _).1 hk⟩
  · rintro ⟨hv, hk⟩
    obtain ⟨sent, h⟩ := startup_of_accepts hconnect hexec (load_eq_ok_iff.2 ⟨hv, rfl⟩)
      ((parseConsistency_setDefaults c k).2 hk)
    exact ⟨sent, _, _, h, rfl⟩

/-- A configuration that asks for `LOCAL_ONE`, against a store that answers every request. -/
theorem startup_consistency_local_one :
    let c : Config := ⟨"http://localhost:5052", [7], 0, 0, ⟨0, 0⟩, ⟨0, 0⟩,
      ⟨["127.0.0.1"], "pauli", 0, "LOCAL_ONE", 0, 0, 0⟩⟩
    let st : Store := ⟨fun _ => none, fun _ => none⟩
    (∀ ks, st.connect ks = none) ∧ (∀ s, st.exec s = none) ∧
      ((∃ sent cfg cl, startup c st = (sent, .ok (cfg, cl)) ∧ cl.consistency = .localOne) ↔
        c.validate = none ∧ (c.scyllaDB.consistency = "" ∧ Consistency.localOne = .localQuorum ∨
          toLower c.scyllaDB.consistency = Consistency.localOne.name)) := by
  intro c st
  have hconnect : ∀ ks, st.connect ks = none := fun _ => rfl
  have hexec : ∀ s, st.exec s = none := fun _ => rfl
  exact ⟨hconnect, hexec, startup_consistency c st hconnect hexec .localOne⟩

/-- **Every table gets the configured TTL.** A start that reaches the monitor has sent
`CREATE KEYSPACE`, the four `CREATE TABLE` statements and, for each table created, one
`ALTER TABLE` setting its `default_time_to_live` to the client's TTL. That TTL is
`ttl_days * 86400` seconds exactly when `ttl_days ≤ 106751991167300`, where the product still fits
in an `int`; beyond it the product wraps. With no `ttl_days` set it is `7776000`, 90 days. -/
theorem startup_sets_ttl {c : Config} {st : Store} {sent : List Statement} {cfg : Config}
    {cl : Client} (h : startup c st = (sent, .ok (cfg, cl))) :
    sent = .createKeyspace cfg.scyllaDB.keyspace cfg.scyllaDB.replicationFactor ::
        (migrations ++ tableNames.map fun t => .setTTL t cl.ttlSeconds) ∧
      (cl.ttlSeconds = cfg.scyllaDB.ttlDays * 86400 ↔ cfg.scyllaDB.ttlDays ≤ 106751991167300) ∧
      (c.scyllaDB.ttlDays ≤ 0 → cl.ttlSeconds = 7776000) := by
  obtain ⟨hl, -, httl, hsent⟩ := startup_eq_ok h
  obtain ⟨-, rfl⟩ := load_eq_ok_iff.1 hl
  have hpos : 0 < c.setDefaults.scyllaDB.ttlDays := orDefault_pos (by decide)
  refine ⟨hsent, ?_, fun h0 => ?_⟩ <;> rw [httl, ScyllaDBConf.ttlSeconds_eq]
  · unfold wrap64; omega
  · simp only [Config.setDefaults, orDefault, h0, ↓reduceIte]
    decide

/-- A start with no TTL set, against a store that answers every request. -/
theorem startup_sets_ttl_default :
    let c : Config := ⟨"http://localhost:5052", [7], 0, 0, ⟨0, 0⟩, ⟨0, 0⟩,
      ⟨["127.0.0.1"], "pauli", 0, "", 0, 0, 0⟩⟩
    let st : Store := ⟨fun _ => none, fun _ => none⟩
    let cl : Client := ⟨"pauli", 7776000, .localQuorum⟩
    let sent : List Statement :=
      .createKeyspace "pauli" 3 :: (migrations ++ tableNames.map fun t => .setTTL t 7776000)
    startup c st = (sent, .ok (c.setDefaults, cl)) ∧
      (sent = .createKeyspace c.setDefaults.scyllaDB.keyspace
          c.setDefaults.scyllaDB.replicationFactor ::
          (migrations ++ tableNames.map fun t => .setTTL t cl.ttlSeconds) ∧
        (cl.ttlSeconds = c.setDefaults.scyllaDB.ttlDays * 86400 ↔
          c.setDefaults.scyllaDB.ttlDays ≤ 106751991167300) ∧
        (c.scyllaDB.ttlDays ≤ 0 → cl.ttlSeconds = 7776000)) := by
  intro c st cl sent
  have h : startup c st = (sent, .ok (c.setDefaults, cl)) := rfl
  exact ⟨h, startup_sets_ttl h⟩

end Pauli.Storage.Scylla
