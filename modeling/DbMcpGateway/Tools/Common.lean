import DbMcpGateway.Tools.AuditDispatch

/-!
# What the tools share

The requests of the tools, and the steps that several of them take: loading the
DB grants and entering the audit chokepoint, finding and authorizing the target,
the reason check, and executing a statement on the target. The source repeats
these steps in each tool; here each is one definition, and a tool is the
definition applied to its own values.
-/

namespace DbMcpGateway.Tools

open Async Async.Prog Audit Authz Config Exec Transport

/-! ## Requests -/

/-- `enum LoadError` (authz/loader.rs:18). -/
inductive LoadError
  | repo
  | decodeConstraints
  deriving DecidableEq

/-- What a tool asks of its environment. -/
inductive ToolReq
  /-- `PermissionsCache::get_for` (authz/cache.rs:74). -/
  | getFor (userSub : String)
  /-- `AdapterRegistry::get_or_open` (exec/mod.rs:90). -/
  | getOrOpen (server : Server) (database : Database)
  /-- `execute` of the adapter of that target. -/
  | execute (server : Server) (database : Database) (query : ExecQuery)
  /-- `query_user_history` (audit/mod.rs:223). -/
  | queryUserHistory (userSub server database : String) (since : Option Timestamp) (limit : ℕ)
  /-- The milliseconds since the clock of the call was started. -/
  | elapsed
  /-- The log line "tool.run_query.dispatch". -/
  | logDispatch (requestId userSub server db : String) (rowLimit : ℕ) (timeoutMs : Option ℕ)

/-- The replies. -/
abbrev ToolResp : ToolReq → Type
  | .getFor _ => Except LoadError (List Grant)
  | .getOrOpen _ _ => Except ExecError Unit
  | .execute _ _ _ => Except ExecError ExecResult
  | .queryUserHistory _ _ _ _ _ => Except Unit (List HistoryEntry)
  | .elapsed => ℕ
  | .logDispatch _ _ _ _ _ _ => Unit

abbrev ToolProg := Prog ToolReq ToolResp

/-- A request of a tool. -/
abbrev call (r : ToolReq) : ToolProg (ToolResp r) := ask r

/-- What every tool gets: the request, and the parts of the gateway it may use. -/
structure ToolContext where
  ext : Extern
  id : Json
  identity : Identity
  config : ConfigFile
  permissionsCache : Bool
  /-- The state DB is wired. -/
  stateDb : Bool
  requestCtx : RequestContext

/-- `GATEWAY_ROW_LIMIT_CEILING` (tools/mod.rs:72). -/
def gatewayRowLimitCeiling : ℕ := 100000

/-- `effective_row_limit` of a tool with the given default
    (tools/run_query.rs:277, tools/sample_table.rs:260). -/
def effectiveRowLimit (default : ℕ) (caller grant : Option ℕ) : ℕ :=
  let grantCapped := min (grant.getD gatewayRowLimitCeiling) gatewayRowLimitCeiling
  min (caller.getD default) grantCapped

/-- `db_type_label` (tools/mod.rs:37). -/
def dbTypeLabel : ServerKind → String
  | .postgres => "postgres"
  | .mysql => "mysql"
  | .mssql => "mssql"
  | .mongo => "mongo"

/-- `config.servers.iter().find(|s| s.name == name)`. -/
def findServer (config : ConfigFile) (name : String) : Option Server :=
  config.servers.find? fun s => s.name == name

/-- `db_type_for_server` (tools/mod.rs:51). -/
def dbTypeForServer (config : ConfigFile) (serverName : String) : Option String :=
  (findServer config serverName).map fun s => dbTypeLabel s.kind

/-- `find_server_db` (tools/run_query.rs:261, and the same in the other tools). -/
def findServerDb (config : ConfigFile) (serverName databaseName : String) :
    Option (Server × Database) :=
  match findServer config serverName with
  | none => none
  | some server =>
    match server.databases.find? fun d => d.name == databaseName with
    | none => none
    | some database => some (server, database)

theorem effectiveRowLimit_le {default : ℕ} {caller grant} {n : ℕ}
    (h : grant = some n) : effectiveRowLimit default caller grant ≤ n := by
  subst h
  simp only [effectiveRowLimit, Option.getD_some]
  omega

/-- What `find_server_db` finds is configured under the names asked for. -/
theorem findServerDb_some {config : ConfigFile} {serverName databaseName : String}
    {server : Server} {database : Database}
    (h : findServerDb config serverName databaseName = some (server, database)) :
    server ∈ config.servers ∧ server.name = serverName ∧
      database ∈ server.databases ∧ database.name = databaseName := by
  unfold findServerDb at h
  split at h
  · cases h
  · rename_i found hserver
    split at h
    · cases h
    · rename_i found' hdatabase
      cases h
      exact ⟨List.mem_of_find?_eq_some hserver, by simpa using List.find?_some hserver,
        List.mem_of_find?_eq_some hdatabase, by simpa using List.find?_some hdatabase⟩

section

variable (ctx : ToolContext)

/-! ## Entering the chokepoint -/

/-- `load_or_empty` (authz/cache.rs:171). -/
def loadOrEmpty : DispatchProg ToolResp (Except LoadError (List Grant)) :=
  if ctx.permissionsCache then perform (.tool (ToolReq.getFor ctx.identity.userSub)) else return .ok []

/-- `audit_dispatch` with the values of the call. -/
def dispatchWork (header : AuditHeader) (work : ToolProg Outcome) :
    DispatchProg ToolResp Response :=
  auditDispatch ctx.ext ctx.id ctx.identity ctx.stateDb ctx.requestCtx header ctx.config.stream work

/-- The DB grants are loaded and the work is dispatched with them; if they cannot
    be loaded, the failure is dispatched. -/
def dispatchWithGrants (header : AuditHeader) (work : List Grant → ToolProg Outcome) :
    DispatchProg ToolResp Response := do
  match ← loadOrEmpty ctx with
  | .error _ =>
    dispatchWork ctx header
      (return errorOutcome ctx.ext ctx.id .internal "permissions_cache_load_failed")
  | .ok dbGrants => dispatchWork ctx header (work dbGrants)

/-- The answer to arguments that do not decode. -/
def invalidParams (message : String) : Response := .ofError ctx.id (.invalidParams message)

/-! ## Steps of the work -/

/-- An error outcome of the tool. -/
def failWith (code : OutcomeCode) (message : String) : Outcome :=
  errorOutcome ctx.ext ctx.id code message

/-- `forbidden` (tools/explain.rs:229, and the same in the other tools). -/
def forbidden : Outcome := failWith ctx .forbidden "no grants for this server/database"

/-- The target is looked up and the action on it is authorized. -/
def withTarget (action : Action) (dbGrants : List Grant) (serverName databaseName : String)
    (k : Server → Database → Constraints → ToolProg Outcome) : ToolProg Outcome :=
  match findServerDb ctx.config serverName databaseName with
  | none => return forbidden ctx
  | some (server, database) =>
    match evaluateEffective ctx.identity action server.name database.name ctx.config.permissions
      dbGrants with
    | .deny => return forbidden ctx
    | .allow constraints => k server database constraints

/-- `reason.as_deref().is_none_or(str::is_empty)`. -/
def reasonMissing : Option String → Bool
  | none => true
  | some reason => reason == ""

/-- The reason check of a tool. -/
def withReason (constraints : Constraints) (reason : Option String) (k : ToolProg Outcome) :
    ToolProg Outcome :=
  if constraints.requireReason && reasonMissing reason then
    return failWith ctx .reasonRequired "policy requires a `reason` for this server/database"
  else k

def execFailure (messages : ToolErrorMessages) (err : ExecError) : ToolProg Outcome := do
  let elapsed ← call .elapsed
  return outcomeFromExecError ctx.ext ctx.id err elapsed messages

/-- The adapter of the target is opened and executes the query. -/
def executeOn (messages : ToolErrorMessages) (server : Server) (database : Database)
    (query : ExecQuery) (k : ExecResult → Outcome) : ToolProg Outcome := do
  match ← call (.getOrOpen server database) with
  | .error err => execFailure ctx messages err
  | .ok () =>
    match ← call (.execute server database query) with
    | .error err => execFailure ctx messages err
    | .ok result => return k result

def succeedWith (payload : Json) (elapsedMs rowCount : Option ℕ) (truncated : Option Bool) :
    Outcome :=
  match ctx.ext.toText payload with
  | none => failWith ctx .internal "failed to serialize result"
  | some text => successOutcome ctx.id text elapsedMs rowCount truncated

/-- The outcome of a result with rows (`SuccessPayload` of tools/run_query.rs:49
    and tools/sample_table.rs:53). -/
def rowsOutcome (result : ExecResult) : Outcome :=
  let payload := withElapsed
    [("columns", .arr (result.columns.map .str)), ("rows", .arr (result.rows.map .arr)),
      ("truncated", .bool result.truncated)] result.elapsedMs
  succeedWith ctx payload (some (toI64 result.elapsedMs)) (some (toI64 result.rows.length))
    (some result.truncated)

end

end DbMcpGateway.Tools
