import DbMcpGateway.Tools.QueryTools

/-!
# The tools without a target, and the dispatch of a call

`list_servers`, `list_databases` and `get_query_history` (tools/list_servers.rs,
list_databases.rs, get_query_history.rs), which answer from the config and the
audit log, and `dispatch_call` (tools/mod.rs), which routes a call to its tool.
The tracing span of a call is left out.

`gives_dispatchCall`: whatever happens in a call, its response has the id of the request.
-/

namespace DbMcpGateway.Tools

open Async Async.Prog Audit Authz Config Exec Transport

/-! ## `list_servers` -/

namespace ListServers

/-- `SafeServerView` (tools/list_servers.rs:29) of a server, serialized. -/
def safeServerView (server : Server) : Json :=
  .obj [("name", .str server.name), ("kind", .str (dbTypeLabel server.kind)),
    ("description", .str server.description)]

/-- `compute_outcome` (tools/list_servers.rs:89). -/
def computeOutcome (ctx : ToolContext) (dbGrants : List Grant) : Outcome :=
  let servers := ctx.config.servers.filter fun s =>
    canSeeServerEffective ctx.identity s ctx.config.permissions dbGrants
  match ctx.ext.toText (.obj [("servers", .arr (servers.map safeServerView))]) with
  | none => failWith ctx .internal "tool.list_servers.serialization_failed"
  | some text => successOutcome ctx.id text none (some (toI64 servers.length)) (some false)

/-- `run` (tools/list_servers.rs:40). -/
def run (ctx : ToolContext) : DispatchProg ToolResp Response :=
  dispatchWithGrants ctx { tool := .listServers } fun dbGrants =>
    return computeOutcome ctx dbGrants

end ListServers

/-! ## `list_databases` -/

namespace ListDatabases

/-- `struct Arguments` (tools/list_databases.rs:26). -/
structure Arguments where
  server : String

def Arguments.fromValue (v : Json) : Option Arguments :=
  match v.fields ["server"] with
  | some [server] => do return { server := ← Json.string server }
  | _ => none

/-- `SafeDatabaseView` (tools/list_databases.rs:33) of a database, serialized. -/
def safeDatabaseView (database : Database) : Json :=
  .obj [("name", .str database.name), ("description", .str database.description)]

/-- `evaluate_effective` allows `schema_read` on the database. -/
def visible (ctx : ToolContext) (dbGrants : List Grant) (server : Server) (database : Database) :
    Bool :=
  match evaluateEffective ctx.identity .schemaRead server.name database.name
    ctx.config.permissions dbGrants with
  | .allow _ => true
  | .deny => false

/-- `compute_outcome` (tools/list_databases.rs:101). -/
def computeOutcome (ctx : ToolContext) (dbGrants : List Grant) (args : Arguments) : Outcome :=
  match findServer ctx.config args.server with
  | none => failWith ctx .forbidden "no grants for this server"
  | some server =>
    let databases := server.databases.filter (visible ctx dbGrants server)
    if databases.isEmpty then failWith ctx .forbidden "no grants for this server"
    else
      succeedWith ctx (.obj [("databases", .arr (databases.map safeDatabaseView))]) none
        (some (toI64 databases.length)) (some false)

def header (config : ConfigFile) (args : Arguments) : AuditHeader where
  tool := .listDatabases
  server := some args.server
  dbType := dbTypeForServer config args.server

/-- `run` (tools/list_databases.rs:43). -/
def run (ctx : ToolContext) (arguments : Option Json) : DispatchProg ToolResp Response :=
  match arguments.bind Arguments.fromValue with
  | none => return invalidParams ctx "list_databases requires `server`"
  | some args =>
    dispatchWithGrants ctx (header ctx.config args) fun dbGrants =>
      return computeOutcome ctx dbGrants args

end ListDatabases

/-! ## `get_query_history` -/

namespace GetQueryHistory

/-- `DEFAULT_HISTORY_LIMIT` (tools/get_query_history.rs:46). -/
def defaultHistoryLimit : ℕ := 100

/-- `struct Arguments` (tools/get_query_history.rs:57), with `deny_unknown_fields`. -/
structure Arguments where
  server : String
  database : String
  since : Option String
  limit : Option ℕ

def Arguments.fromValue (v : Json) : Option Arguments :=
  let names := ["server", "database", "since", "limit"]
  if !v.knownFields names then none
  else
    match v.fields names with
    | some [server, database, since, limit] => do
      return { server := ← Json.string server, database := ← Json.string database
               since := ← Json.optString since, limit := ← Json.optU32 limit }
    | _ => none

/-- `effective_limit` (tools/get_query_history.rs:89). -/
def effectiveLimit (caller : Option ℕ) : ℕ :=
  min (caller.getD defaultHistoryLimit) gatewayRowLimitCeiling

/-- `limit_was_clamped` (tools/get_query_history.rs:101). -/
def limitWasClamped (caller : Option ℕ) (effective : ℕ) : Bool :=
  caller.any fun asked => effective < asked

/-- `invalid_arguments_outcome` (tools/get_query_history.rs:115). -/
def invalidArgumentsOutcome (ctx : ToolContext) (message : String) : Outcome :=
  { response := invalidParams ctx message, code := .invalidArguments, elapsedMs := none
    rowCount := none, truncated := none, errorMessage := some message }

/-- `parse_since` (tools/get_query_history.rs:129). -/
def parseSince (ext : Extern) : Option String → Except Unit (Option Timestamp)
  | none => .ok none
  | some raw =>
    match ext.parseRfc3339 raw with
    | some t => .ok (some t)
    | none => .error ()

def optionValue {α : Type} (f : α → Json) : Option α → Json
  | none => .null
  | some a => f a

/-- A `HistoryEntry`, serialized. -/
def historyEntry (e : HistoryEntry) : Json :=
  .obj [("request_id", .str e.requestId), ("sql", optionValue .str e.sql),
    ("reason", optionValue .str e.reason), ("occurred_at", .str e.occurredAt),
    ("elapsed_ms", optionValue (fun n : ℕ => .int n) e.elapsedMs),
    ("row_count", optionValue (fun n : ℕ => .int n) e.rowCount), ("outcome", .str e.outcome)]

def entriesOutcome (ctx : ToolContext) (args : Arguments) (limit : ℕ)
    (entries : List HistoryEntry) : Outcome :=
  let truncated := limitWasClamped args.limit limit
  succeedWith ctx
    (.obj [("entries", .arr (entries.map historyEntry)), ("truncated", .bool truncated)]) none none
    (some truncated)

/-- `compute_outcome` (tools/get_query_history.rs:258). -/
def computeOutcome (ctx : ToolContext) (dbGrants : List Grant) (args : Arguments)
    (since : Option Timestamp) (limit : ℕ) : ToolProg Outcome :=
  match findServer ctx.config args.server with
  | none => return forbidden ctx
  | some server =>
    if !server.databases.any fun d => d.name == args.database then return forbidden ctx
    else
      match evaluateEffective ctx.identity .historyRead args.server args.database
        ctx.config.permissions dbGrants with
      | .deny => return forbidden ctx
      | .allow _ =>
        if !ctx.stateDb then return failWith ctx .unavailable "state DB unavailable"
        else do
          match ← call (.queryUserHistory ctx.identity.userSub args.server args.database since
            limit) with
          | .error _ => return failWith ctx .internal "history query failed"
          | .ok entries => return entriesOutcome ctx args limit entries

def header (config : ConfigFile) (args : Arguments) : AuditHeader where
  tool := .getQueryHistory
  server := some args.server
  database := some args.database
  dbType := dbTypeForServer config args.server

/-- `run` (tools/get_query_history.rs:139). -/
def run (ctx : ToolContext) (arguments : Option Json) : DispatchProg ToolResp Response :=
  match arguments.bind Arguments.fromValue with
  | none =>
    return invalidParams ctx "get_query_history requires `server` and `database` arguments"
  | some args =>
    match parseSince ctx.ext args.since with
    | .error () =>
      let message := "`since` must be an RFC 3339 timestamp (e.g. 2026-08-05T00:00:00Z)"
      dispatchWork ctx (header ctx.config args) (return invalidArgumentsOutcome ctx message)
    | .ok since =>
      if args.limit = some 0 then
        dispatchWork ctx (header ctx.config args)
          (return invalidArgumentsOutcome ctx "`limit` must be at least 1")
      else
        dispatchWithGrants ctx (header ctx.config args) fun dbGrants =>
          computeOutcome ctx dbGrants args since (effectiveLimit args.limit)

end GetQueryHistory

/-! ## `dispatch_call` -/

/-- `struct CallParams` (tools/mod.rs:87). -/
structure CallParams where
  name : String
  arguments : Option Json

def CallParams.fromValue (v : Json) : Option CallParams :=
  match v.fields ["name", "arguments"] with
  | some [name, arguments] => do
    return { name := ← Json.string name, arguments := Json.optValue arguments }
  | _ => none

/-- `dispatch_call` (tools/mod.rs:106) after the identity check. -/
def dispatchTool (ctx : ToolContext) (call : CallParams) : DispatchProg ToolResp Response :=
  if call.name = Tool.listServers.name then ListServers.run ctx
  else if call.name = Tool.listDatabases.name then ListDatabases.run ctx call.arguments
  else if call.name = Tool.describeSchema.name then DescribeSchema.run ctx call.arguments
  else if call.name = Tool.sampleTable.name then SampleTable.run ctx call.arguments
  else if call.name = Tool.explain.name then Explain.run ctx call.arguments
  else if call.name = Tool.runQuery.name then RunQuery.run ctx call.arguments
  else if call.name = Tool.getQueryHistory.name then GetQueryHistory.run ctx call.arguments
  else return invalidParams ctx ("unknown tool: " ++ call.name)

/-- `dispatch_call` (tools/mod.rs:106). -/
def dispatchCall (ext : Extern) (id : Json) (identity : Option Identity) (config : ConfigFile)
    (permissionsCache stateDb : Bool) (requestCtx : RequestContext) (params : Option Json) :
    DispatchProg ToolResp Response :=
  match identity with
  | none => return .ofError id (.internal "missing identity")
  | some identity =>
    match params.bind CallParams.fromValue with
    | none => return .ofError id (.invalidParams "missing or invalid `name`")
    | some call =>
      dispatchTool { ext, id, identity, config, permissionsCache, stateDb, requestCtx } call

/-! ## The id of the response -/

section

variable {ctx : ToolContext} {arguments : Option Json}

/-- The response has the id of the request. -/
def Echoes (ctx : ToolContext) (response : Response) : Prop := response.id = ctx.id

/-- So has the response of the outcome. -/
abbrev OutcomeEchoes (ctx : ToolContext) (outcome : Outcome) : Prop := Echoes ctx outcome.response

theorem echoes_failWith (code : OutcomeCode) (message : String) :
    OutcomeEchoes ctx (failWith ctx code message) := rfl

theorem echoes_succeedWith (payload : Json) (elapsedMs rowCount : Option ℕ)
    (truncated : Option Bool) :
    OutcomeEchoes ctx (succeedWith ctx payload elapsedMs rowCount truncated) := by
  unfold succeedWith
  split <;> rfl

theorem gives_withTarget {action : Action} {dbGrants} {server database : String}
    {k : Server → Database → Constraints → ToolProg Outcome}
    (hk : ∀ s d c, Gives (OutcomeEchoes ctx) (k s d c)) :
    Gives (OutcomeEchoes ctx) (withTarget ctx action dbGrants server database k) := by
  unfold withTarget
  split
  · exact echoes_failWith _ _
  · split
    · exact echoes_failWith _ _
    · exact hk _ _ _

theorem gives_withReason {constraints reason k} (hk : Gives (OutcomeEchoes ctx) k) :
    Gives (OutcomeEchoes ctx) (withReason ctx constraints reason k) := by
  unfold withReason
  split_ifs
  · exact echoes_failWith _ _
  · exact hk

theorem gives_executeOn {messages} {server : Server} {database : Database}
    {query} {k : ExecResult → Outcome} (hk : ∀ result, OutcomeEchoes ctx (k result)) :
    Gives (OutcomeEchoes ctx) (executeOn ctx messages server database query k) := by
  rintro (err | ⟨⟨⟩⟩)
  · exact fun _ => rfl
  · rintro (err | result)
    · exact fun _ => rfl
    · exact hk result

theorem gives_finishDispatch {header} {auditId : Uuid} {outcome : Outcome}
    (h : OutcomeEchoes ctx outcome) : Gives (Echoes ctx)
      (finishDispatch ctx.ext ctx.id ctx.identity ctx.requestCtx header ctx.config.stream auditId
        outcome : DispatchProg ToolResp Response) := by
  simp only [finishDispatch, perform, ask_bind, gives_await]
  refine fun _ _ => Gives.bind (P := fun _ => True) ?_ fun _ _ => ?_
  · cases outcome.elapsedMs with
    | none => trivial
    | some elapsedMs => exact fun _ => trivial
  · rintro - - (err | ⟨⟨⟩⟩) -
    · cases err <;> exact fun _ => rfl
    · exact fun _ _ => h

/-- The chokepoint answers with the response of the outcome, or with an error of its own. -/
theorem gives_dispatchWork {header work}
    (h : Gives (OutcomeEchoes ctx) work) : Gives (Echoes ctx) (dispatchWork ctx header work) := by
  unfold dispatchWork auditDispatch
  split_ifs
  · exact fun _ _ => rfl
  · exact fun auditId _ => h.embed.bind fun outcome houtcome => gives_finishDispatch houtcome

theorem gives_dispatchWithGrants {header} {work : List Grant → ToolProg Outcome}
    (h : ∀ dbGrants, Gives (OutcomeEchoes ctx) (work dbGrants)) :
    Gives (Echoes ctx) (dispatchWithGrants ctx header work) := by
  refine Gives.bind (P := fun _ => True) ?_ ?_
  · unfold loadOrEmpty
    split_ifs
    · exact fun _ => trivial
    · trivial
  · rintro (err | dbGrants) -
    · exact gives_dispatchWork (echoes_failWith _ _)
    · exact gives_dispatchWork (h dbGrants)

theorem ListServers.gives_run : Gives (Echoes ctx) (ListServers.run ctx) := by
  refine gives_dispatchWithGrants fun dbGrants => ?_
  unfold computeOutcome
  dsimp only
  split <;> rfl

theorem ListDatabases.gives_run : Gives (Echoes ctx) (ListDatabases.run ctx arguments) := by
  unfold run
  split
  · rfl
  · refine gives_dispatchWithGrants fun dbGrants => ?_
    unfold computeOutcome
    split
    · exact echoes_failWith _ _
    · dsimp only
      split_ifs
      · exact echoes_failWith _ _
      · exact echoes_succeedWith _ _ _ _

theorem DescribeSchema.gives_run : Gives (Echoes ctx) (DescribeSchema.run ctx arguments) := by
  unfold run
  split
  · rfl
  · refine gives_dispatchWithGrants fun dbGrants => ?_
    refine gives_withTarget fun _ _ _ => gives_executeOn fun result => ?_
    unfold tablesOutcome
    split
    · exact echoes_failWith _ _
    · exact echoes_succeedWith _ _ _ _

theorem SampleTable.gives_run : Gives (Echoes ctx) (SampleTable.run ctx arguments) := by
  unfold run
  split
  · rfl
  · refine gives_dispatchWithGrants fun dbGrants => ?_
    refine gives_withTarget fun _ _ _ => gives_withReason ?_
    dsimp only
    split_ifs
    · exact echoes_failWith _ _
    · exact echoes_failWith _ _
    · exact gives_executeOn fun _ => echoes_succeedWith _ _ _ _

theorem Explain.gives_run : Gives (Echoes ctx) (Explain.run ctx arguments) := by
  unfold run
  split
  · rfl
  · refine gives_dispatchWithGrants fun dbGrants => ?_
    refine gives_withTarget fun _ _ _ => gives_withReason ?_
    split
    · exact echoes_failWith _ _
    · refine gives_executeOn fun result => ?_
      unfold planOutcome
      split
      · exact echoes_failWith _ _
      · exact echoes_succeedWith _ _ _ _

theorem RunQuery.gives_run : Gives (Echoes ctx) (RunQuery.run ctx arguments) := by
  unfold run
  split
  · rfl
  · refine gives_dispatchWithGrants fun dbGrants => ?_
    refine gives_withTarget fun _ _ _ => gives_withReason ?_
    split
    · exact echoes_failWith _ _
    · exact fun _ => gives_executeOn fun _ => echoes_succeedWith _ _ _ _

theorem GetQueryHistory.gives_computeOutcome (dbGrants : List Grant)
    (args : GetQueryHistory.Arguments) (since : Option Timestamp) (limit : ℕ) :
    Gives (OutcomeEchoes ctx) (GetQueryHistory.computeOutcome ctx dbGrants args since limit) := by
  unfold computeOutcome
  split
  · exact echoes_failWith _ _
  · split
    · exact echoes_failWith _ _
    · split
      · exact echoes_failWith _ _
      · split
        · exact echoes_failWith _ _
        · rintro (err | entries)
          · exact echoes_failWith _ _
          · exact echoes_succeedWith _ _ _ _

theorem GetQueryHistory.gives_run : Gives (Echoes ctx) (GetQueryHistory.run ctx arguments) := by
  unfold run
  split
  · rfl
  · split
    · exact gives_dispatchWork rfl
    · split_ifs
      · exact gives_dispatchWork rfl
      · exact gives_dispatchWithGrants fun dbGrants => gives_computeOutcome dbGrants _ _ _

theorem gives_dispatchTool (call : CallParams) : Gives (Echoes ctx) (dispatchTool ctx call) := by
  unfold dispatchTool
  split_ifs
  · exact ListServers.gives_run
  · exact ListDatabases.gives_run
  · exact DescribeSchema.gives_run
  · exact SampleTable.gives_run
  · exact Explain.gives_run
  · exact RunQuery.gives_run
  · exact GetQueryHistory.gives_run
  · rfl

end

theorem gives_dispatchCall (ext : Extern) (id : Json) (identity : Option Identity)
    (config : ConfigFile) (permissionsCache stateDb : Bool) (requestCtx : RequestContext)
    (params : Option Json) : Gives (fun response => response.id = id)
      (dispatchCall ext id identity config permissionsCache stateDb requestCtx params) := by
  unfold dispatchCall
  split
  · rfl
  · rename_i caller
    split
    · rfl
    · exact @gives_dispatchTool ⟨ext, id, caller, config, permissionsCache, stateDb, requestCtx⟩ _

end DbMcpGateway.Tools
