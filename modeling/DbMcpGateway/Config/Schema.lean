import DbMcpGateway.Data.Text

/-!
# Configuration schema

The `servers:`, `permissions:`, `service_accounts:` and `logging:` types of
`config/schema.rs` and the file around them (`config/yaml.rs`). `u16` and `u32`
fields are natural numbers: the gateway compares them, takes minima and adds
with saturation, and never wraps.

Connection data that only the driver reads (`host`, `port`, `tls`, passwords and
tokens) is not part of the model.
-/

namespace DbMcpGateway.Config

/-- `enum Action` (config/schema.rs:164). -/
inductive Action
  | schemaRead
  | queryRead
  | queryWrite
  | historyRead
  deriving DecidableEq

/-- `Action::includes` (config/schema.rs:173): does a grant of the first action
    cover a request for the second? -/
def Action.includes : Action → Action → Bool
  | .queryWrite, requested =>
    requested == .queryWrite || requested == .queryRead || requested == .schemaRead
  | .queryRead, .queryRead => true
  | .queryRead, .schemaRead => true
  | .schemaRead, .schemaRead => true
  | .historyRead, .historyRead => true
  | _, _ => false

/-- The hierarchy is transitive: what covers a cover covers the covered. -/
theorem Action.includes_trans {a b c : Action} (hab : a.includes b = true)
    (hbc : b.includes c = true) : a.includes c = true := by
  revert hab hbc
  cases a <;> cases b <;> cases c <;> decide

theorem Action.includes_refl (a : Action) : a.includes a = true := by
  cases a <;> rfl

theorem Action.includes_queryWrite {a : Action} : a.includes .queryWrite = true ↔ a = .queryWrite := by
  cases a <;> decide

/-- `struct Constraints` (config/schema.rs:149). An absent limit is `none`. -/
@[ext]
structure Constraints where
  requireReason : Bool := false
  rowLimit : Option ℕ := none
  statementTimeoutMs : Option ℕ := none
  deriving DecidableEq

/-- `struct Grant` (config/schema.rs:132). -/
structure Grant where
  server : String
  database : String
  action : Action
  constraints : Constraints := {}
  deriving DecidableEq

/-- `struct Permission` (config/schema.rs:124): the grants of one group. -/
structure Permission where
  group : String
  grants : List Grant := []
  deriving DecidableEq

/-- `enum ServerKind` (config/schema.rs:40). -/
inductive ServerKind
  | postgres
  | mysql
  | mssql
  | mongo
  deriving DecidableEq

/-- The derived `Debug` text of a kind. -/
def ServerKind.debug : ServerKind → String
  | .postgres => "Postgres"
  | .mysql => "Mysql"
  | .mssql => "Mssql"
  | .mongo => "Mongo"

/-- `ServerKind::has_adapter` (config/schema.rs:61). -/
def ServerKind.hasAdapter : ServerKind → Bool
  | .postgres => true
  | .mongo => true
  | .mysql => false
  | .mssql => false

/-- `struct Database` (config/schema.rs:80). -/
structure Database where
  name : String
  role : String
  description : String := ""
  authDatabase : Option String := none
  deriving DecidableEq

/-- `struct Server` (config/schema.rs:23). -/
structure Server where
  name : String
  kind : ServerKind
  description : String := ""
  databases : List Database := []
  deriving DecidableEq

/-- `struct ServiceAccount` (config/schema.rs:106). -/
structure ServiceAccount where
  name : String
  group : String
  deriving DecidableEq

/-- `enum StreamSinkConfig` (config/schema.rs:205). -/
inductive StreamSinkConfig
  | stdout
  | syslog (host : String) (port : ℕ)
  deriving DecidableEq

/-- `struct AdminBlock` (config/yaml.rs:46). -/
structure AdminBlock where
  enabled : Bool := false
  group : String
  deriving DecidableEq

/-- `enum PermissionsStoreDriver` (config/yaml.rs:83). -/
inductive PermissionsStoreDriver
  | pg
  | mysql
  deriving DecidableEq

/-- `struct ConfigFile` (config/yaml.rs:18). -/
structure ConfigFile where
  servers : List Server := []
  permissions : List Permission := []
  admin : Option AdminBlock := none
  permissionsStore : Option PermissionsStoreDriver := none
  serviceAccounts : List ServiceAccount := []
  stream : List StreamSinkConfig := []
  deriving DecidableEq

end DbMcpGateway.Config
