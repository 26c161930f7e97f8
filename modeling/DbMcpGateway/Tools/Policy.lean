import DbMcpGateway.Tools.AuditGuarantee
import DbMcpGateway.Tools.Reach

/-!
# What the policy allows a call to execute

Two properties of every call, end to end from `dispatch_call`, for every caller,
config, DB grants and arguments: what is executed is authorized and within the
limits of the grants, and a demanded reason is given and recorded. Both are case
analyses over `Executes`.

Results:

* `dispatchCall_authorized`: authorization gates execution.
* `dispatchCall_reason_iff`: a demanded reason is enforced on every call but an
  authorized `describe_schema`, which does not ask for it.
-/

namespace DbMcpGateway.Tools

open Async Async.Prog Audit Authz Config Exec Transport

/-! ## Facts about what is executed -/

section

variable {ctx : ToolContext} {dbGrants : List Grant} {arguments : Option Json} {server : Server}
  {database : Database} {constraints : Constraints} {tool : Tool} {query : ExecQuery}

section

variable (h : Executes ctx dbGrants arguments server database constraints tool query)

include h

/-- The decision behind a statement. -/
theorem Executes.decides :
    ∃ action target, tool.action = some action ∧ tool.target arguments = some target ∧
      Decides ctx action dbGrants target.server target.database server database constraints := by
  cases h with
  | runQuery hargs hdecides | explain hargs hdecides | sampleTable hargs hdecides
  | describeSchema hargs hdecides =>
    exact ⟨_, _, rfl, Option.map_eq_some_iff.mpr ⟨_, hargs, rfl⟩, hdecides⟩

theorem Executes.statementTimeoutMs :
    query.statementTimeoutMs = constraints.statementTimeoutMs := by
  cases h <;> rfl

theorem Executes.rowLimit_le (htool : tool = .runQuery ∨ tool = .sampleTable) {n : ℕ}
    (hn : constraints.rowLimit = some n) :
    query.rowLimit ≤ n := by
  cases h with
  | runQuery => exact effectiveRowLimit_le hn
  | sampleTable _ _ _ _ _ hlimit => exact hlimit ▸ effectiveRowLimit_le hn
  | explain => simp at htool
  | describeSchema => simp at htool

end

/-- A data write passes the guard only with a `query_write` grant. -/
theorem writer_of_checkSql {stmt} {sql : String}
    (hguard : checkSql ctx.ext.parseSql sql (RunQuery.access ctx dbGrants server database) = .ok ())
    {stmts} (hparse : ctx.ext.parseSql sql = .ok stmts) (hmem : stmt ∈ stmts)
    (hwrite : IsDataWrite (core stmt)) :
    ∃ g ∈ callerGrants ctx.identity ctx.config.permissions dbGrants,
      Targets g server.name database.name ∧ g.action = .queryWrite := by
  obtain ⟨stmt', hparse', -, hadmitted, -⟩ := (checkSql_iff _ _ _).mp hguard
  obtain rfl : stmts = [stmt'] := Except.ok.inj (hparse.symm.trans hparse')
  obtain rfl := List.mem_singleton.mp hmem
  have haccess := hadmitted.readWrite hwrite
  have hallowed : RunQuery.writesAllowed ctx dbGrants server database = true := by
    unfold RunQuery.access at haccess
    split_ifs at haccess with h
    exact h
  unfold RunQuery.writesAllowed at hallowed
  split at hallowed
  · rename_i c hc
    obtain ⟨g, hg, ht, ha⟩ := evaluateEffective_allows.mp ⟨c, hc⟩
    exact ⟨g, hg, ht, Action.includes_queryWrite.mp ha⟩
  · cases hallowed

end

/-! ## Authorization gates execution -/

/-- The caller may use the tool on the target: it is configured and named by the
    arguments, and some grant of the caller on it includes the tool's action. -/
structure Authorized (caller : Identity) (config : ConfigFile) (dbGrants : List Grant)
    (tool : Tool) (arguments : Option Json) (server : Server) (database : Database) : Prop where
  serverConfigured : server ∈ config.servers
  databaseConfigured : database ∈ server.databases
  named : ∃ target, tool.target arguments = some target ∧ target.server = server.name ∧
    target.database = database.name
  granted : ∃ action, tool.action = some action ∧
    ∃ g, g ∈ applicable caller action server.name database.name config.permissions dbGrants

/-- The statement stays within the grants of the caller. -/
structure Confined (ext : Extern) (caller : Identity) (config : ConfigFile) (dbGrants : List Grant)
    (tool : Tool) (server : Server) (database : Database) (query : ExecQuery) : Prop where
  /-- A data write in a text of `run_query` for Postgres needs a `query_write` grant. -/
  write : tool = .runQuery → server.kind = .postgres →
    ∀ stmts, ext.parseSql query.sql = .ok stmts → (∃ stmt ∈ stmts, IsDataWrite (core stmt)) →
      ∃ g ∈ callerGrants caller config.permissions dbGrants,
        Targets g server.name database.name ∧ g.action = .queryWrite
  /-- `explain` sends the plan request of a text accepted read-only. -/
  explain : tool = .explain → ∃ sql, query.sql = "EXPLAIN (FORMAT JSON) " ++ sql ∧
    checkSql ext.parseSql sql .readOnly = .ok ()
  timeout : ∀ action, tool.action = some action →
    ∀ g ∈ applicable caller action server.name database.name config.permissions dbGrants,
      ∀ n, g.constraints.statementTimeoutMs = some n →
        ∃ m, query.statementTimeoutMs = some m ∧ m ≤ n
  /-- So is the row limit, for the tools that take one. -/
  rowLimit : tool = .runQuery ∨ tool = .sampleTable → ∀ action, tool.action = some action →
    ∀ g ∈ applicable caller action server.name database.name config.permissions dbGrants,
      ∀ n, g.constraints.rowLimit = some n → query.rowLimit ≤ n

section

variable {ctx : ToolContext} {dbGrants : List Grant} {arguments : Option Json} {server : Server}
  {database : Database} {constraints : Constraints} {tool : Tool} {query : ExecQuery}

theorem Executes.authorized
    (h : Executes ctx dbGrants arguments server database constraints tool query) :
    Authorized ctx.identity ctx.config dbGrants tool arguments server database := by
  obtain ⟨action, target, haction, htarget, hfound, hallowed⟩ := h.decides
  obtain ⟨hserver, hserverName, hdatabase, hdatabaseName⟩ := findServerDb_some hfound
  exact ⟨hserver, hdatabase, ⟨target, htarget, hserverName.symm, hdatabaseName.symm⟩, action,
    haction, evaluateEffective_allows.mp ⟨_, hallowed⟩⟩

theorem Executes.confined
    (h : Executes ctx dbGrants arguments server database constraints tool query) :
    Confined ctx.ext ctx.identity ctx.config dbGrants tool server database query := by
  have hbinds : ∀ action, tool.action = some action → ∀ g ∈ applicable ctx.identity action
      server.name database.name ctx.config.permissions dbGrants,
      Restricts constraints g.constraints := by
    intro action haction g hg
    obtain ⟨action', -, haction', -, -, hallowed⟩ := h.decides
    obtain rfl := Option.some.inj (haction.symm.trans haction')
    exact restricts_of_applicable hallowed hg
  refine ⟨?_, ?_, ?_, ?_⟩
  · rintro rfl hkind stmts hparse ⟨stmt, hmem, hwrite⟩
    cases h with
    | runQuery _ _ _ hguard => exact writer_of_checkSql (hguard hkind) hparse hmem hwrite
  · rintro rfl
    cases h with
    | explain _ _ _ hguard => exact ⟨_, rfl, hguard⟩
  · intro action haction g hg n hn
    rw [h.statementTimeoutMs]
    exact (hbinds action haction g hg).timeout n hn
  · intro htool action haction g hg n hn
    obtain ⟨m, hm, hle⟩ := (hbinds action haction g hg).rowLimit n hn
    exact (h.rowLimit_le htool hm).trans hle

end

/-- **Authorization gates execution.** For every caller, config, DB grants and
    parameters, a call opens an adapter or has it execute a statement only for a
    tool and a target the caller is authorized for, and only a statement within
    the caller's grants. -/
theorem dispatchCall_authorized (ext : Extern) (id : Json) (identity : Option Identity)
    (config : ConfigFile) (permissionsCache stateDb : Bool) (requestCtx : RequestContext)
    (params : Option Json) (grants : List Grant) (auditId : Uuid) (r : ToolReq)
    (hr : r.toAdapter = true)
    (h : Asks (Within auditId (LoadsGrants grants))
      (dispatchCall ext id identity config permissionsCache stateDb requestCtx params) (.tool r)) :
    ∃ caller call tool server database query,
      identity = some caller ∧ params.bind CallParams.fromValue = some call ∧
      call.name = tool.name ∧ Touches server database query r ∧
      Authorized caller config (if permissionsCache then grants else []) tool call.arguments server
        database ∧
      Confined ext caller config (if permissionsCache then grants else []) tool server database
        query := by
  obtain ⟨caller, call, tool, hidentity, hcall, hname, -, server, database, constraints, query,
    hexec, htouches⟩ := (asks_dispatchCall hr).mp h
  exact ⟨caller, call, tool, server, database, query, hidentity, hcall, hname, htouches,
    hexec.authorized, hexec.confined⟩

def shopServer : Server where
  name := "shop"
  kind := .postgres
  databases := [{ name := "orders", role := "gateway_ro" }]

def ordersDatabase : Database := { name := "orders", role := "gateway_ro" }

/-- Analysts may read it, at most five rows at a time. -/
def shopConfig : ConfigFile where
  servers := [shopServer]
  permissions := [⟨"analysts", [⟨"shop", "*", .queryRead, { rowLimit := some 5 }⟩]⟩]

def analyst : Identity := ⟨"ana", "ana@example.com", ["analysts"]⟩

def sampleArguments : Json :=
  .obj [("server", .str "shop"), ("database", .str "orders"), ("table", .str "lines")]

/-- The statement it executes. -/
def sampleQuery : ExecQuery where
  sql := SampleTable.sampleSql "public" "lines" (SampleTable.saturatingSucc 5)
  binds := []
  statementTimeoutMs := none
  rowLimit := 5

/-- The theorem for an analyst who samples a table. -/
theorem dispatchCall_authorized_sample :
    Asks (Within 7 (LoadsGrants []))
      (dispatchCall plainExtern (.int 1) (some analyst) shopConfig true true { requestId := "r1" }
        (some (.obj [("name", .str "sample_table"), ("arguments", sampleArguments)])))
      (.tool (.execute shopServer ordersDatabase sampleQuery)) ∧
    ∃ tool, Authorized analyst shopConfig [] tool (some sampleArguments) shopServer ordersDatabase ∧
      Confined plainExtern analyst shopConfig [] tool shopServer ordersDatabase sampleQuery := by
  have hexec : Executes ⟨plainExtern, .int 1, analyst, shopConfig, true, true, { requestId := "r1" }⟩
      [] (some sampleArguments) shopServer ordersDatabase { rowLimit := some 5 } .sampleTable
      sampleQuery := by
    apply Executes.sampleTable (show (some sampleArguments).bind SampleTable.Arguments.fromValue =
      some ⟨"shop", "orders", "lines", none, none, none⟩ from rfl)
    · exact ⟨by decide, by decide⟩
    · rintro ⟨⟩
    · decide
    · decide
    · decide
  have h : Asks (Within 7 (LoadsGrants []))
      (dispatchCall plainExtern (.int 1) (some analyst) shopConfig true true { requestId := "r1" }
        (some (.obj [("name", .str "sample_table"), ("arguments", sampleArguments)])))
      (.tool (.execute shopServer ordersDatabase sampleQuery)) :=
    (asks_dispatchCall rfl).mpr ⟨analyst, ⟨"sample_table", some sampleArguments⟩, .sampleTable, rfl,
      rfl, rfl, rfl, shopServer, ordersDatabase, _, sampleQuery, hexec, .execute⟩
  obtain ⟨caller, call, tool, server, database, query, ⟨⟩, ⟨⟩, -, ⟨⟩, hauthorized, hconfined⟩ :=
    dispatchCall_authorized plainExtern (.int 1) (some analyst) shopConfig true true
      { requestId := "r1" } _ [] 7 _ rfl h
  exact ⟨h, tool, hauthorized, hconfined⟩

/-! ## A demanded reason -/

section

variable (ext : Extern) (id : Json) (identity : Option Identity) (config : ConfigFile)
  (permissionsCache stateDb : Bool) (requestCtx : RequestContext) (params : Option Json)
  (grants : List Grant) (auditId : Uuid)

/-- If the decision of the call's tool on a target demands a reason, a statement
    is executed on the target only if the call gives a nonempty reason, and in
    every run each row of the call in the audit table has that reason. -/
def ReasonEnforced : Prop :=
  ∀ caller call tool action constraints server database query,
    identity = some caller → params.bind CallParams.fromValue = some call →
    call.name = Tool.name tool → tool.action = some action →
    evaluateEffective caller action (Server.name server) (Database.name database)
      config.permissions (if permissionsCache then grants else []) = .allow constraints →
    constraints.requireReason = true →
    Asks (Within auditId (LoadsGrants grants))
      (dispatchCall ext id identity config permissionsCache stateDb requestCtx params)
      (.tool (.execute server database query)) →
    ∃ reason, reason ≠ "" ∧
      (∃ target, tool.target call.arguments = some target ∧ target.reason = some reason) ∧
      ∀ (σ : Type) (E : Env ToolReq ToolResp σ) (table : List AuditRow) (env : σ)
        (s : Run ToolResp σ), rowsOf auditId table = [] →
        Steps E auditId (Run.start (dispatchCall ext id identity config permissionsCache stateDb
          requestCtx params) table env) s →
        ∀ row ∈ s.world.table, row.id = auditId → row.reason = some reason

/-- The call is an authorized `describe_schema` whose decision demands a reason. -/
def UnreasonedSchemaRead : Prop :=
  ∃ caller call args server database constraints,
    identity = some caller ∧ params.bind CallParams.fromValue = some call ∧
    call.name = Tool.describeSchema.name ∧ stateDb = true ∧
    call.arguments.bind DescribeSchema.Arguments.fromValue = some args ∧
    findServerDb config args.server args.database = some (server, database) ∧
    evaluateEffective caller .schemaRead server.name database.name config.permissions
      (if permissionsCache then grants else []) = .allow constraints ∧
    constraints.requireReason = true

end

theorem isRow_reason {c : Call} {row : AuditRow} (h : c.IsRow row) :
    row.reason = c.header.reason := by
  rcases h with ⟨o, rfl⟩ | rfl
  · rfl
  · unfold finalizeDroppedRow
    split_ifs <;> rfl

theorem header_of_target (config : ConfigFile) {tool : Tool} {arguments}
    {target : Target} (h : tool.target arguments = some target) :
    ∃ header, tool.header config arguments = some header ∧ header.reason = target.reason := by
  cases tool with
  | runQuery | explain | sampleTable | describeSchema =>
    obtain ⟨args, hargs, rfl⟩ := Option.map_eq_some_iff.mp h
    exact ⟨_, Option.map_eq_some_iff.mpr ⟨args, hargs, rfl⟩, rfl⟩
  | listServers | listDatabases | getQueryHistory => cases h

/-- Every tool but `describe_schema` gives the reason its decision demands. -/
theorem Executes.reason {ctx dbGrants arguments}
    {server : Server} {database : Database} {constraints : Constraints} {tool : Tool}
    {query}
    (h : Executes ctx dbGrants arguments server database constraints tool query)
    (htool : tool ≠ .describeSchema) (hrequired : constraints.requireReason = true) :
    ∃ target reason, tool.target arguments = some target ∧ target.reason = some reason ∧
      reason ≠ "" := by
  cases h with
  | runQuery hargs _ hreason | explain hargs _ hreason | sampleTable hargs _ hreason =>
    obtain ⟨reason, hsome, hne⟩ := hreason hrequired
    exact ⟨_, reason, Option.map_eq_some_iff.mpr ⟨_, hargs, rfl⟩, hsome, hne⟩
  | describeSchema => exact absurd rfl htool

section

variable {ext : Extern} {id : Json} {identity : Option Identity} {config : ConfigFile}
  {permissionsCache stateDb : Bool} {requestCtx : RequestContext} {params : Option Json}
  {grants : List Grant} {auditId : Uuid}

theorem row_reason {caller : Identity} {call : CallParams} {tool : Tool} {target : Target}
    (hidentity : identity = some caller) (hcall : params.bind CallParams.fromValue = some call)
    (hname : call.name = tool.name) (htarget : tool.target call.arguments = some target)
    {σ : Type} {E table} {env : σ} {s : Run ToolResp σ}
    (hfresh : rowsOf auditId table = [])
    (hs : Steps E auditId (Run.start (dispatchCall ext id identity config permissionsCache stateDb
      requestCtx params) table env) s) {row : AuditRow} (hmem : row ∈ s.world.table)
    (hid : row.id = auditId) : row.reason = target.reason := by
  obtain ⟨header, hheader, hreason⟩ := header_of_target config htarget
  simp only [dispatchCall, hidentity, hcall, dispatchTool_of_name hname] at hs
  have hinv := inv_steps (follows_run hheader) hfresh hs
  rw [isRow_reason (isRow_of_inv hinv hmem hid)]
  exact hreason

theorem not_reasonEnforced
    (h : UnreasonedSchemaRead identity config permissionsCache stateDb params grants) :
    ¬ ReasonEnforced ext id identity config permissionsCache stateDb requestCtx params grants
      auditId := by
  obtain ⟨caller, call, args, server, database, constraints, hidentity, hcall, hname, hstate, hargs,
    hfound, hallowed, hrequired⟩ := h
  intro henforced
  obtain ⟨reason, -, ⟨target, htarget, hreason⟩, -⟩ := henforced caller call .describeSchema
    .schemaRead constraints server database _ hidentity hcall hname rfl hallowed hrequired
    ((asks_dispatchCall rfl).mpr ⟨caller, call, .describeSchema, hidentity, hcall, hname, hstate,
      server, database, constraints, _, .describeSchema hargs ⟨hfound, hallowed⟩ rfl, .execute⟩)
  -- the arguments have no field for a reason
  obtain ⟨_, -, rfl⟩ := Option.map_eq_some_iff.mp htarget
  cases hreason

end

/-- **Where a demanded reason is enforced.** For every caller, config, grants and
    parameters, reason enforcement holds exactly if the call is not an authorized
    `describe_schema` whose decision demands a reason. -/
theorem dispatchCall_reason_iff (ext : Extern) (id : Json) (identity : Option Identity)
    (config : ConfigFile) (permissionsCache stateDb : Bool) (requestCtx : RequestContext)
    (params : Option Json) (grants : List Grant) (auditId : Uuid) :
    ReasonEnforced ext id identity config permissionsCache stateDb requestCtx params grants
        auditId ↔
      ¬ UnreasonedSchemaRead identity config permissionsCache stateDb params grants := by
  refine ⟨fun henforced h => not_reasonEnforced h henforced, ?_⟩
  intro hno caller call tool action constraints server database query hidentity hcall hname haction
    hallowed hrequired hasks
  obtain ⟨caller', call', tool', hidentity', hcall', hname', hstate, _, _, constraints', _, hexec,
    htouches⟩ := (asks_dispatchCall rfl).mp hasks
  cases htouches
  obtain rfl := Option.some.inj (hidentity.symm.trans hidentity')
  obtain rfl := Option.some.inj (hcall.symm.trans hcall')
  obtain rfl := Tool.name_injective (hname.symm.trans hname')
  obtain ⟨action', target, haction', htarget, hfound, hallowed'⟩ := hexec.decides
  obtain rfl := Option.some.inj (haction.symm.trans haction')
  obtain rfl := Decision.allow.inj (hallowed.symm.trans hallowed')
  by_cases htool : tool = .describeSchema
  · subst htool
    cases haction
    obtain ⟨args, hargs, rfl⟩ := Option.map_eq_some_iff.mp htarget
    exact absurd ⟨caller, call, args, server, database, constraints, hidentity, hcall, hname, hstate,
      hargs, hfound, hallowed, hrequired⟩ hno
  · obtain ⟨target', reason, htarget', hreason, hne⟩ := hexec.reason htool hrequired
    refine ⟨reason, hne, ⟨target', htarget', hreason⟩, ?_⟩
    intro σ E table env s hfresh hs row hmem hid
    rw [row_reason hidentity hcall hname htarget' hfresh hs hmem hid]
    exact hreason

/-- Auditors may read the schema, with a reason. -/
def reasonedConfig : ConfigFile where
  servers := [shopServer]
  permissions := [⟨"auditors", [⟨"shop", "orders", .schemaRead, { requireReason := true }⟩]⟩]

/-- An auditor without a reason is shown the schema. -/
theorem dispatchCall_schema_unreasoned :
    ¬ ReasonEnforced plainExtern (.int 1) (some ⟨"aud", "aud@example.com", ["auditors"]⟩)
      reasonedConfig false true { requestId := "r1" }
      (some (.obj [("name", .str "describe_schema"),
        ("arguments", .obj [("server", .str "shop"), ("database", .str "orders")])])) [] 7 :=
  not_reasonEnforced ⟨_, _, ⟨"shop", "orders", none, none⟩, shopServer, ordersDatabase,
    { requireReason := true }, rfl, rfl, rfl, rfl, rfl, by decide, by decide, rfl⟩

end DbMcpGateway.Tools
