import DbMcpGateway.Config.Schema
import DbMcpGateway.Data.Checks

/-!
# Validation of a parsed configuration

`ConfigFile::validate` (config/yaml.rs:338) with its helpers, every check in the
order of the source and with the text of its error. The `HashSet` of names each
loop fills is the list `forUnique` threads.

`AcceptedConfig` is a configuration that passed; `AcceptedConfig.wellFormed` is
what the rest of the development uses of it.
-/

namespace DbMcpGateway.Config

open Text Checks

/-- The variants of `ConfigFileError` (config/yaml.rs:89) that `validate` returns. -/
inductive ConfigFileError
  | invalid (message : String)
  | stockSuperuserRole (role : String) (kind : ServerKind) (dbName serverName : String)
  | syslogSinkBlankHost (index : ℕ)
  | syslogSinkZeroPort (index : ℕ)
  deriving DecidableEq

/-- A check's result. -/
abbrev Check := Except ConfigFileError Unit

/-! ## Helpers -/

/-- `validate_service_name` (config/yaml.rs:535). `len` counts bytes. -/
def validateServiceName (name : String) : Check :=
  let valid := !name.isEmpty && decide (name.utf8ByteSize ≤ 63) &&
    name.toList.all (fun c => isAsciiLowercase c || isAsciiDigit c || c == '-') &&
    name.toList.head?.any isAsciiAlphanumeric
  if valid then .ok ()
  else .error (.invalid ("service account name `" ++ name ++
    "` must match ^[a-z0-9][a-z0-9-]\x7b0,62\x7d$ (lowercase; it becomes the audit identity `service:" ++
    name ++ "`)"))

/-- `grant_database_exists` (config/yaml.rs:554). -/
def grantDatabaseExists (servers : List Server) (serverName dbName : String) : Bool :=
  if serverName == "*" then
    servers.any fun s => s.databases.any fun d => d.name == dbName
  else
    match servers.find? fun s => s.name == serverName with
    | some s => s.databases.any fun d => d.name == dbName
    | none => false

/-- `stock_superuser_roles` (config/yaml.rs:583). -/
def stockSuperuserRoles : ServerKind → List String
  | .postgres => ["postgres"]
  | .mysql => ["root"]
  | .mssql => ["sa"]
  | .mongo => ["root", "admin"]

/-- `reject_superuser_role` (config/yaml.rs:592). The stock names are lower case,
    so containing the lowered role is equality up to ASCII case. -/
def rejectSuperuserRole (role : String) (kind : ServerKind) (dbName serverName : String) : Check :=
  rejectIf ((stockSuperuserRoles kind).any fun stock => asciiLowercase role == stock.toList)
    (.stockSuperuserRole role kind dbName serverName)

/-- The loop over the remaining characters of a role in `validate_role`. -/
def validateRoleChars (role : String) : List Char → Check
  | [] => .ok ()
  | ch :: chars =>
    if !(isAsciiAlphanumeric ch || ch == '_') then
      .error (.invalid ("role `" ++ role ++ "` contains invalid char `" ++ ch.toString ++
        "` (allowed: alphanumerics + underscore)"))
    else validateRoleChars role chars

/-- `validate_role` (config/yaml.rs:612), with the caller's
    `map_err(ConfigFileError::Invalid)`. -/
def validateRole (role : String) : Check :=
  match role.toList with
  | [] => .error (.invalid "empty role name")
  | first :: chars =>
    if !(isAsciiAlphabetic first || first == '_') then
      .error (.invalid ("role `" ++ role ++ "` must start with a letter or underscore"))
    else validateRoleChars role chars

/-! ## `validate` -/

/-- The checks on the `admin:` block (config/yaml.rs:339). -/
def validateAdmin (config : ConfigFile) : Check := do
  rejectIf (config.admin.any fun admin => admin.enabled && isBlank admin.group)
    (.invalid "admin.group must be non-empty when admin.enabled is true")
  rejectIf (config.permissionsStore == some .mysql && config.admin.any (·.enabled))
    (.invalid ("permissions_store.driver = mysql is not supported with admin.enabled = true. " ++
      "#59 wires mysql for the resolver hot path only; full admin parity is tracked " ++
      "in a future issue. Either set admin.enabled = false or use driver = pg."))

/-- The checks on one database after its name is recorded (config/yaml.rs:393). -/
def validateDatabase (server : Server) (db : Database) : Check := do
  validateRole db.role
  rejectSuperuserRole db.role server.kind db.name server.name
  rejectIf (db.authDatabase.any isBlank)
    (.invalid ("database `" ++ db.name ++ "` in server `" ++ server.name ++
      "` has empty `auth_database`; " ++
      "omit the field to fall back to `name`, or set a non-blank value"))

/-- The checks on one server after its name is recorded (config/yaml.rs:378). -/
def validateServer (server : Server) : Check := do
  rejectIf (!server.kind.hasAdapter)
    (.invalid ("server `" ++ server.name ++ "` has kind `" ++ server.kind.debug ++
      "`, which has no query adapter yet (supported kinds: postgres, mongo)"))
  let _ ← forUnique (fun db : Database => db.name) (fun _ => .ok ())
    (fun db => .invalid ("duplicate database `" ++ db.name ++ "` in server `" ++ server.name ++ "`"))
    (validateDatabase server) [] server.databases
  .ok ()

/-- The checks on one grant of a permission block (config/yaml.rs:429). -/
def validateGrant (servers : List Server) (serverNames : List String) (permission : Permission)
    (grant : Grant) : Check := do
  rejectIf (isBlank grant.server)
    (.invalid ("permission group `" ++ permission.group ++ "` has a grant with an empty `server`"))
  rejectIf (isBlank grant.database)
    (.invalid ("permission group `" ++ permission.group ++ "` has a grant with an empty `database`"))
  rejectIf (grant.server != "*" && !serverNames.contains grant.server)
    (.invalid ("permission group `" ++ permission.group ++ "` grants on unknown server `" ++
      grant.server ++ "`"))
  rejectIf (grant.database != "*" && !grantDatabaseExists servers grant.server grant.database)
    (.invalid ("permission group `" ++ permission.group ++ "` grants on unknown database `" ++
      grant.database ++ "` of server `" ++ grant.server ++ "`"))

/-- The checks on one service account after its name is recorded
    (config/yaml.rs:471). -/
def validateServiceAccount (admin : Option AdminBlock) (groupNames : List String)
    (account : ServiceAccount) : Check := do
  rejectIf (isBlank account.group)
    (.invalid ("service account `" ++ account.name ++ "` must name a permissions group"))
  rejectIf (!groupNames.contains account.group)
    (.invalid ("service account `" ++ account.name ++ "` maps to group `" ++ account.group ++
      "`, which has no `permissions:` " ++
      "block — declare the group there first (an empty `grants:` list " ++
      "recognizes the group while granting nothing)"))
  rejectIf (admin.any fun admin => admin.enabled && account.group == admin.group)
    (.invalid ("service account `" ++ account.name ++ "` maps to group `" ++ account.group ++
      "`, which is the admin group — " ++
      "a service token must never authorize `/admin/*`; give the service its own group"))

/-- The checks on one stream sink (config/yaml.rs:513). -/
def validateSink (entry : StreamSinkConfig × ℕ) : Check :=
  match entry with
  | (.stdout, _) => .ok ()
  | (.syslog host port, index) => do
    rejectIf (isBlank host) (.syslogSinkBlankHost index)
    rejectIf (port == 0) (.syslogSinkZeroPort index)

/-- `ConfigFile::validate` (config/yaml.rs:338). -/
def validate (config : ConfigFile) : Check := do
  validateAdmin config
  let serverNames ← forUnique (fun s : Server => s.name) (fun _ => .ok ())
    (fun s => .invalid ("duplicate server name `" ++ s.name ++ "`"))
    validateServer [] config.servers
  let groupNames ← forUnique (fun p : Permission => p.group)
    (fun p => rejectIf (isBlank p.group) (.invalid "permission group name must be non-empty"))
    (fun p => .invalid ("duplicate permission group `" ++ p.group ++ "`"))
    (fun p => forAll (validateGrant config.servers serverNames p) p.grants) [] config.permissions
  let _ ← forUnique (fun a : ServiceAccount => a.name) (fun a => validateServiceName a.name)
    (fun a => .invalid ("duplicate service account name `" ++ a.name ++ "`"))
    (validateServiceAccount config.admin groupNames) [] config.serviceAccounts
  forAll validateSink config.stream.zipIdx

/-! ## What an accepted configuration satisfies -/

/-- A configuration that passed `validate`. -/
structure AcceptedConfig where
  file : ConfigFile
  accepted : validate file = .ok ()

/-- The structure of an accepted configuration that lookups rely on. -/
structure WellFormed (config : ConfigFile) : Prop where
  serverNames : (config.servers.map (·.name)).Nodup
  databaseNames : ∀ s ∈ config.servers, (s.databases.map (·.name)).Nodup
  hasAdapter : ∀ s ∈ config.servers, s.kind.hasAdapter = true
  groupNames : (config.permissions.map (·.group)).Nodup

theorem validateServer_ok {server : Server} (h : validateServer server = .ok ()) :
    server.kind.hasAdapter = true ∧ (server.databases.map (·.name)).Nodup := by
  rw [validateServer, seq_eq_ok, rejectIf_eq_ok, bind_eq_ok] at h
  obtain ⟨hkind, names, hdbs, -⟩ := h
  exact ⟨by simpa using hkind, (forUnique_eq_ok hdbs).2.1⟩

theorem validate_wellFormed {config} (h : validate config = .ok ()) : WellFormed config := by
  rw [validate, seq_eq_ok, bind_eq_ok] at h
  obtain ⟨-, serverNames, hservers, h⟩ := h
  obtain ⟨groupNames, hgroups, -⟩ := bind_eq_ok.mp h
  obtain ⟨hchecks, hnodup, -, -⟩ := forUnique_eq_ok hservers
  exact {
    serverNames := hnodup
    databaseNames := fun s hs => (validateServer_ok (hchecks s hs).2).2
    hasAdapter := fun s hs => (validateServer_ok (hchecks s hs).2).1
    groupNames := (forUnique_eq_ok hgroups).2.1 }

theorem AcceptedConfig.serviceNames (config : AcceptedConfig) :
    ∀ a ∈ config.file.serviceAccounts, validateServiceName a.name = .ok () := by
  have h := config.accepted
  rw [validate, seq_eq_ok, bind_eq_ok] at h
  obtain ⟨-, serverNames, -, h⟩ := h
  obtain ⟨groupNames, -, h⟩ := bind_eq_ok.mp h
  obtain ⟨names, haccounts, -⟩ := bind_eq_ok.mp h
  intro a ha
  exact ((forUnique_eq_ok haccounts).1 a ha).1

theorem AcceptedConfig.wellFormed (config : AcceptedConfig) : WellFormed config.file :=
  validate_wellFormed config.accepted

end DbMcpGateway.Config
