import DbMcpGateway.Tools.AuditRun
import DbMcpGateway.Tools.Dispatch

/-!
# What a call reaches

The requests of a tool call, read off its program once. `Executes` lists the
statements a call can hand to an adapter, tool by tool, with everything the tool
has checked before, and a call touches an adapter to execute one of them and for
nothing else. The properties of the tools are case analyses over `Executes`.

Results:

* `asks_auditDispatch_tool`: the requests of the work are made iff there is a
  state DB.
* `asks_dispatchCall`: when a call touches an adapter, and what it has checked.
* `follows_run`: a call follows the protocol of the chokepoint.
-/

namespace DbMcpGateway.Tools

open Async Async.Prog Audit Authz Config Exec Transport

/-! ## The chokepoint -/

section

variable {Req : Type} {Resp : Req → Type}

/-- The replies of a run with audit id `auditId`: those to the work are in `A`. -/
def Within (auditId : Uuid) (A : (r : Req) → Resp r → Prop) :
    (r : DispatchReq Req) → DispatchResp Resp r → Prop
  | .tool r, x => A r x
  | .newUuid, x => x = auditId
  | _, _ => True

variable {auditId : Uuid} {A : (r : Req) → Resp r → Prop} {ext : Extern} {id : Json}
  {identity : Identity} {stateDb : Bool} {requestCtx : RequestContext} {header : AuditHeader}
  {streamSinks : List StreamSinkConfig}

theorem seen_within : Seen DispatchReq.tool (fun _ x => x) (Within auditId A) = A := by
  funext r x
  simp [Seen, Within]

theorem asks_liftWork_tool {α : Type} {work : Prog Req Resp α} {r : Req} :
    Asks (Within auditId A) (liftWork work) (.tool r) ↔ Asks A work r := by
  rw [liftWork, asks_embed, seen_within]
  simp

/-- The request is not one of the work. -/
def NotTool (r : DispatchReq Req) : Prop := ∀ r', r ≠ .tool r'

theorem obeys_finishDispatch_notTool {A : (r : DispatchReq Req) → DispatchResp Resp r → Prop}
    (o : Outcome) : (Protocol.always A NotTool).Obeys (fun _ _ => True) ()
      (finishDispatch ext id identity requestCtx header streamSinks auditId o :
        DispatchProg Resp Response) := by
  have hemit : ∀ e, NotTool (.emit e : DispatchReq Req) := by rintro e _ ⟨⟩
  refine ⟨by rintro _ ⟨⟩, fun _ _ => ⟨hemit _, fun _ _ => ?_⟩⟩
  refine Protocol.Obeys.bind (p := emitDuration header.tool o.elapsedMs)
    (obeys_emitDuration (fun _ => hemit _) (fun _ _ => rfl) ?_)
  refine ⟨hemit _, fun _ _ => ⟨by rintro _ ⟨⟩, fun _ _ => ⟨by rintro _ ⟨⟩, ?_⟩⟩⟩
  rintro (err | _) -
  · exact ⟨hemit _, fun _ _ => ⟨hemit _, fun _ _ => trivial⟩⟩
  · exact ⟨hemit _, fun _ _ => ⟨by rintro _ ⟨⟩, fun _ _ => ⟨by rintro _ ⟨⟩, fun _ _ => trivial⟩⟩⟩

theorem asks_auditDispatch_tool {work : Prog Req Resp Outcome} {r : Req} :
    Asks (Within auditId A) (auditDispatch ext id identity stateDb requestCtx header streamSinks work)
      (.tool r) ↔ stateDb = true ∧ Asks A work r := by
  cases stateDb with
  | false =>
    simp only [auditDispatch, Bool.not_false, if_true, ask_bind, asks_await, pure_eq, asks_ret]
    simp
  | true =>
    simp only [auditDispatch, Bool.not_true, Bool.false_eq_true, if_false, ask_bind, asks_await,
      reduceCtorEq, false_or, true_and]
    constructor
    · rintro ⟨_, -, _, -, h⟩
      rcases asks_bind.mp h with h | ⟨o, -, h⟩
      · exact asks_liftWork_tool.mp h
      · obtain ⟨_, h'⟩ := (obeys_finishDispatch_notTool o).asks h
        exact absurd rfl (h' r)
    · intro h
      exact ⟨auditId, rfl, (), trivial, asks_bind.mpr (.inl (asks_liftWork_tool.mpr h))⟩

end

/-! ## Steps of the tools -/

/-- The replies of a run in which the caller's DB grants are `grants`; loading
    them may fail. -/
def LoadsGrants (grants : List Grant) : (r : ToolReq) → ToolResp r → Prop
  | .getFor _, x => ∀ g, x = .ok g → g = grants
  | _, _ => True

/-- The DB grants the tools see: none without a permissions cache. -/
def ToolContext.dbGrants (ctx : ToolContext) (grants : List Grant) : List Grant :=
  if ctx.permissionsCache then grants else []

/-- The adapter of a target is opened, or executes a query. -/
inductive Touches (server : Server) (database : Database) (query : ExecQuery) : ToolReq → Prop
  | getOrOpen : Touches server database query (.getOrOpen server database)
  | execute : Touches server database query (.execute server database query)

def ToolReq.toAdapter : ToolReq → Bool
  | .getOrOpen _ _ => true
  | .execute _ _ _ => true
  | _ => false

section

variable {ctx : ToolContext} {grants : List Grant} {auditId : Uuid}

theorem returns_loadOrEmpty {dbGrants} :
    Returns (Within auditId (LoadsGrants grants)) (loadOrEmpty ctx) (.ok dbGrants) ↔
      dbGrants = ctx.dbGrants grants := by
  unfold loadOrEmpty ToolContext.dbGrants
  cases ctx.permissionsCache with
  | true => simp [perform, ask, Within, LoadsGrants]
  | false => simp

theorem asks_loadOrEmpty {r : ToolReq} (hr : r.toAdapter = true) :
    ¬ Asks (Within auditId (LoadsGrants grants)) (loadOrEmpty ctx) (.tool r) := by
  unfold loadOrEmpty
  split_ifs
  · intro h
    rcases asks_await.mp h with h | ⟨x, -, h⟩
    · cases h
      cases hr
    · exact asks_ret h
  · exact asks_ret

theorem asks_dispatchWithGrants {header} {work : List Grant → ToolProg Outcome}
    {r : ToolReq} (hr : r.toAdapter = true) :
    Asks (Within auditId (LoadsGrants grants)) (dispatchWithGrants ctx header work) (.tool r) ↔
      ctx.stateDb = true ∧ Asks (LoadsGrants grants) (work (ctx.dbGrants grants)) r := by
  rw [dispatchWithGrants, asks_bind]
  constructor
  · rintro (h | ⟨_ | dbGrants, hx, h⟩)
    · exact absurd h (asks_loadOrEmpty hr)
    · exact absurd (asks_auditDispatch_tool.mp h).2 asks_ret
    · obtain rfl := returns_loadOrEmpty.mp hx
      exact asks_auditDispatch_tool.mp h
  · intro h
    exact .inr ⟨_, returns_loadOrEmpty.mpr rfl, asks_auditDispatch_tool.mpr h⟩

/-- The target of a call is configured, and the decision on it is an allow. -/
structure Decides (ctx : ToolContext) (action : Action) (dbGrants : List Grant)
    (serverName databaseName : String) (server : Server) (database : Database)
    (constraints : Constraints) : Prop where
  found : findServerDb ctx.config serverName databaseName = some (server, database)
  allowed : evaluateEffective ctx.identity action server.name database.name
    ctx.config.permissions dbGrants = .allow constraints

/-- A reason is given where one is required. -/
def ReasonGiven (constraints : Constraints) (reason : Option String) : Prop :=
  constraints.requireReason = true → ∃ text, reason = some text ∧ text ≠ ""

variable {A : (r : ToolReq) → ToolResp r → Prop} {r : ToolReq}

theorem asks_withTarget {action : Action} {dbGrants}
    {serverName databaseName : String} {k : Server → Database → Constraints → ToolProg Outcome} :
    Asks A (withTarget ctx action dbGrants serverName databaseName k) r ↔
      ∃ server database constraints,
        Decides ctx action dbGrants serverName databaseName server database constraints ∧
          Asks A (k server database constraints) r := by
  unfold withTarget
  constructor
  · intro h
    split at h
    · exact absurd h asks_ret
    · rename_i server database hfound
      split at h
      · exact absurd h asks_ret
      · rename_i constraints hallowed
        exact ⟨server, database, constraints, ⟨hfound, hallowed⟩, h⟩
  · rintro ⟨server, database, constraints, ⟨hfound, hallowed⟩, h⟩
    simpa only [hfound, hallowed] using h

theorem asks_withReason {constraints reason k} :
    Asks A (withReason ctx constraints reason k) r ↔ ReasonGiven constraints reason ∧ Asks A k r := by
  have hgiven : ReasonGiven constraints reason ↔
      ¬ (constraints.requireReason && reasonMissing reason) = true := by
    cases reason <;> simp [ReasonGiven, reasonMissing]
  rw [withReason, hgiven]
  split_ifs with h
  · exact iff_of_false asks_ret fun h' => h'.1 h
  · exact (and_iff_right h).symm

theorem asks_execFailure {messages err}
    (hr : r.toAdapter = true) : ¬ Asks A (execFailure ctx messages err) r := by
  intro h
  rcases asks_await.mp h with rfl | ⟨_, -, h⟩
  · cases hr
  · exact asks_ret h

theorem asks_executeOn {messages} {server : Server} {database : Database}
    {query} {k : ExecResult → Outcome} (hr : r.toAdapter = true) :
    Asks (LoadsGrants grants) (executeOn ctx messages server database query k) r ↔
      Touches server database query r := by
  constructor
  · intro h
    rcases asks_await.mp h with rfl | ⟨_ | _, -, h⟩
    · exact .getOrOpen
    · exact absurd h (asks_execFailure hr)
    · rcases asks_await.mp h with rfl | ⟨_ | _, -, h⟩
      · exact .execute
      · exact absurd h (asks_execFailure hr)
      · exact absurd h asks_ret
  · rintro (_ | _)
    · exact .here
    · exact .later (x := .ok ()) trivial .here

end

/-! ## Routing -/

def Tool.run (ctx : ToolContext) (arguments : Option Json) :
    Tool → DispatchProg ToolResp Response
  | .listServers => ListServers.run ctx
  | .listDatabases => ListDatabases.run ctx arguments
  | .describeSchema => DescribeSchema.run ctx arguments
  | .sampleTable => SampleTable.run ctx arguments
  | .explain => Explain.run ctx arguments
  | .runQuery => RunQuery.run ctx arguments
  | .getQueryHistory => GetQueryHistory.run ctx arguments

theorem Tool.name_injective : Function.Injective Tool.name := by
  intro a b h
  cases a <;> cases b <;> first | rfl | exact absurd h (by decide)

theorem dispatchTool_of_name {ctx} {call : CallParams} {tool : Tool}
    (h : call.name = tool.name) : dispatchTool ctx call = tool.run ctx call.arguments := by
  simp only [dispatchTool, h, Tool.name_injective.eq_iff]
  cases tool <;> rfl

theorem dispatchTool_unknown {ctx} {call : CallParams} (h : ∀ tool : Tool, call.name ≠ tool.name) :
    dispatchTool ctx call = ret (invalidParams ctx ("unknown tool: " ++ call.name)) := by
  simp only [dispatchTool, h, if_false, pure_eq]

/-! ## What is executed -/

def Tool.action : Tool → Option Action
  | .runQuery => some .queryRead
  | .explain => some .queryRead
  | .sampleTable => some .queryRead
  | .describeSchema => some .schemaRead
  | _ => none

/-- The target and the reason in the arguments of a call. -/
structure Target where
  server : String
  database : String
  reason : Option String

/-- The target a call names, if its arguments decode. -/
def Tool.target (arguments : Option Json) : Tool → Option Target
  | .runQuery =>
    (arguments.bind RunQuery.Arguments.fromValue).map fun a => ⟨a.server, a.database, a.reason⟩
  | .explain =>
    (arguments.bind Explain.Arguments.fromValue).map fun a => ⟨a.server, a.database, a.reason⟩
  | .sampleTable =>
    (arguments.bind SampleTable.Arguments.fromValue).map fun a => ⟨a.server, a.database, a.reason⟩
  | .describeSchema =>
    (arguments.bind DescribeSchema.Arguments.fromValue).map fun a => ⟨a.server, a.database, none⟩
  | _ => none

/-- The statements that a call hands to an adapter, with all that the tool has
    checked before. -/
inductive Executes (ctx : ToolContext) (dbGrants : List Grant) (arguments : Option Json)
    (server : Server) (database : Database) (constraints : Constraints) :
    Tool → ExecQuery → Prop
  | runQuery {args : RunQuery.Arguments} :
      arguments.bind RunQuery.Arguments.fromValue = some args →
      Decides ctx .queryRead dbGrants args.server args.database server database constraints →
      ReasonGiven constraints args.reason →
      (server.kind = .postgres → checkSql ctx.ext.parseSql args.sql
        (RunQuery.access ctx dbGrants server database) = .ok ()) →
      Executes ctx dbGrants arguments server database constraints .runQuery
        { sql := args.sql, binds := [], statementTimeoutMs := constraints.statementTimeoutMs
          rowLimit := effectiveRowLimit RunQuery.defaultRowLimit args.limit constraints.rowLimit }
  | explain {args : Explain.Arguments} :
      arguments.bind Explain.Arguments.fromValue = some args →
      Decides ctx .queryRead dbGrants args.server args.database server database constraints →
      ReasonGiven constraints args.reason →
      isReadOnly ctx.ext.parseSql args.sql = .ok () →
      Executes ctx dbGrants arguments server database constraints .explain
        { sql := Explain.explainSql args.sql, binds := []
          statementTimeoutMs := constraints.statementTimeoutMs
          rowLimit := Explain.explainResultCap }
  | sampleTable {args : SampleTable.Arguments} {rowLimit} :
      arguments.bind SampleTable.Arguments.fromValue = some args →
      Decides ctx .queryRead dbGrants args.server args.database server database constraints →
      ReasonGiven constraints args.reason →
      SampleTable.isSafeIdentifier (args.schema.getD SampleTable.defaultSchema) = true →
      SampleTable.isSafeIdentifier args.table = true →
      rowLimit = effectiveRowLimit SampleTable.defaultSampleLimit args.limit constraints.rowLimit →
      Executes ctx dbGrants arguments server database constraints .sampleTable
        { sql := SampleTable.sampleSql (args.schema.getD SampleTable.defaultSchema) args.table
            (SampleTable.saturatingSucc rowLimit)
          binds := [], statementTimeoutMs := constraints.statementTimeoutMs, rowLimit }
  | describeSchema {args : DescribeSchema.Arguments} {sql binds} :
      arguments.bind DescribeSchema.Arguments.fromValue = some args →
      Decides ctx .schemaRead dbGrants args.server args.database server database constraints →
      DescribeSchema.buildCatalogQuery (args.schema.getD DescribeSchema.defaultSchema) args.table =
        (sql, binds) →
      Executes ctx dbGrants arguments server database constraints .describeSchema
        { sql, binds, statementTimeoutMs := constraints.statementTimeoutMs
          rowLimit := DescribeSchema.maxCatalogRows }

section

variable {ctx : ToolContext} {grants : List Grant} {auditId : Uuid} {arguments : Option Json}
  {r : ToolReq}

/-- What a call touches, if it is a tool that executes statements. -/
def Reaches (ctx : ToolContext) (dbGrants : List Grant) (arguments : Option Json) (tool : Tool)
    (r : ToolReq) : Prop :=
  ∃ server database constraints query,
    Executes ctx dbGrants arguments server database constraints tool query ∧
      Touches server database query r

section

variable (hr : r.toAdapter = true)

include hr

theorem asks_runQuery :
    Asks (Within auditId (LoadsGrants grants)) (RunQuery.run ctx arguments) (.tool r) ↔
      ctx.stateDb = true ∧ Reaches ctx (ctx.dbGrants grants) arguments .runQuery r := by
  unfold RunQuery.run
  cases hargs : arguments.bind RunQuery.Arguments.fromValue with
  | none =>
    refine iff_of_false asks_ret ?_
    rintro ⟨-, _, _, _, _, hexec, -⟩
    cases hexec with | runQuery hargs' => simp [hargs] at hargs'
  | some args =>
    dsimp only
    rw [asks_dispatchWithGrants hr, RunQuery.computeOutcome, asks_withTarget]
    refine and_congr_right fun _ => exists_congr fun server => exists_congr fun database =>
      exists_congr fun constraints => ?_
    simp only [asks_withReason]
    constructor
    · rintro ⟨hdecides, hreason, h⟩
      split at h
      · exact absurd h asks_ret
      · rename_i hguard
        rcases asks_await.mp h with rfl | ⟨_, -, h⟩
        · cases hr
        · refine ⟨_, .runQuery hargs hdecides hreason fun hkind => ?_, (asks_executeOn hr).mp h⟩
          simpa only [hkind, if_true] using hguard
    · rintro ⟨_, hexec, htouches⟩
      cases hexec with
      | runQuery hargs' hdecides hreason hguard =>
        obtain rfl := Option.some.inj (hargs.symm.trans hargs')
        refine ⟨hdecides, hreason, ?_⟩
        have hok : (if server.kind = .postgres then checkSql ctx.ext.parseSql args.sql
            (RunQuery.access ctx (ctx.dbGrants grants) server database) else .ok ()) = .ok () := by
          split_ifs with hkind
          · exact hguard hkind
          · rfl
        rw [hok]
        exact .later (x := ()) trivial ((asks_executeOn hr).mpr htouches)

theorem asks_explain :
    Asks (Within auditId (LoadsGrants grants)) (Explain.run ctx arguments) (.tool r) ↔
      ctx.stateDb = true ∧ Reaches ctx (ctx.dbGrants grants) arguments .explain r := by
  unfold Explain.run
  cases hargs : arguments.bind Explain.Arguments.fromValue with
  | none =>
    refine iff_of_false asks_ret ?_
    rintro ⟨-, _, _, _, _, hexec, -⟩
    cases hexec with | explain hargs' => simp [hargs] at hargs'
  | some args =>
    dsimp only
    rw [asks_dispatchWithGrants hr, Explain.computeOutcome, asks_withTarget]
    refine and_congr_right fun _ => exists_congr fun server => exists_congr fun database =>
      exists_congr fun constraints => ?_
    simp only [asks_withReason]
    constructor
    · rintro ⟨hdecides, hreason, h⟩
      split at h
      · exact absurd h asks_ret
      · rename_i hguard
        exact ⟨_, .explain hargs hdecides hreason hguard, (asks_executeOn hr).mp h⟩
    · rintro ⟨_, hexec, htouches⟩
      cases hexec with
      | explain hargs' hdecides hreason hguard =>
        obtain rfl := Option.some.inj (hargs.symm.trans hargs')
        refine ⟨hdecides, hreason, ?_⟩
        rw [hguard]
        exact (asks_executeOn hr).mpr htouches

theorem asks_sampleTable :
    Asks (Within auditId (LoadsGrants grants)) (SampleTable.run ctx arguments) (.tool r) ↔
      ctx.stateDb = true ∧ Reaches ctx (ctx.dbGrants grants) arguments .sampleTable r := by
  unfold SampleTable.run
  cases hargs : arguments.bind SampleTable.Arguments.fromValue with
  | none =>
    refine iff_of_false asks_ret ?_
    rintro ⟨-, _, _, _, _, hexec, -⟩
    cases hexec with | sampleTable hargs' => simp [hargs] at hargs'
  | some args =>
    dsimp only
    rw [asks_dispatchWithGrants hr, SampleTable.computeOutcome, asks_withTarget]
    refine and_congr_right fun _ => exists_congr fun server => exists_congr fun database =>
      exists_congr fun constraints => ?_
    simp only [asks_withReason]
    constructor
    · rintro ⟨hdecides, hreason, h⟩
      split_ifs at h with hschema htable
      · exact absurd h asks_ret
      · exact absurd h asks_ret
      · simp only [Bool.not_eq_true', Bool.not_eq_false] at hschema htable
        exact ⟨_, .sampleTable hargs hdecides hreason hschema htable rfl, (asks_executeOn hr).mp h⟩
    · rintro ⟨_, hexec, htouches⟩
      cases hexec with
      | sampleTable hargs' hdecides hreason hschema htable hlimit =>
        obtain rfl := Option.some.inj (hargs.symm.trans hargs')
        obtain rfl := hlimit
        refine ⟨hdecides, hreason, ?_⟩
        rw [if_neg (by simp [hschema]), if_neg (by simp [htable])]
        exact (asks_executeOn hr).mpr htouches

theorem asks_describeSchema :
    Asks (Within auditId (LoadsGrants grants)) (DescribeSchema.run ctx arguments) (.tool r) ↔
      ctx.stateDb = true ∧ Reaches ctx (ctx.dbGrants grants) arguments .describeSchema r := by
  unfold DescribeSchema.run
  cases hargs : arguments.bind DescribeSchema.Arguments.fromValue with
  | none =>
    refine iff_of_false asks_ret ?_
    rintro ⟨-, _, _, _, _, hexec, -⟩
    cases hexec with | describeSchema hargs' => simp [hargs] at hargs'
  | some args =>
    dsimp only
    rw [asks_dispatchWithGrants hr, DescribeSchema.computeOutcome, asks_withTarget]
    refine and_congr_right fun _ => exists_congr fun server => exists_congr fun database =>
      exists_congr fun constraints => ?_
    constructor
    · rintro ⟨hdecides, h⟩
      exact ⟨_, .describeSchema hargs hdecides rfl, (asks_executeOn hr).mp h⟩
    · rintro ⟨_, hexec, htouches⟩
      cases hexec with
      | describeSchema hargs' hdecides hquery =>
        obtain rfl := Option.some.inj (hargs.symm.trans hargs')
        refine ⟨hdecides, ?_⟩
        rw [hquery]
        exact (asks_executeOn hr).mpr htouches

theorem asks_of_pure {header} {outcome : List Grant → Outcome} :
    ¬ Asks (Within auditId (LoadsGrants grants))
      (dispatchWithGrants ctx header fun dbGrants => return outcome dbGrants) (.tool r) := by
  rw [asks_dispatchWithGrants hr]
  exact fun h => asks_ret h.2

theorem asks_listDatabases :
    ¬ Asks (Within auditId (LoadsGrants grants)) (ListDatabases.run ctx arguments) (.tool r) := by
  unfold ListDatabases.run
  split
  · exact asks_ret
  · exact asks_of_pure hr

theorem asks_getQueryHistory :
    ¬ Asks (Within auditId (LoadsGrants grants)) (GetQueryHistory.run ctx arguments) (.tool r) := by
  unfold GetQueryHistory.run
  split
  · exact asks_ret
  · split
    · exact fun h => asks_ret (asks_auditDispatch_tool.mp h).2
    · split_ifs
      · exact fun h => asks_ret (asks_auditDispatch_tool.mp h).2
      · rw [asks_dispatchWithGrants hr]
        rintro ⟨-, h⟩
        unfold GetQueryHistory.computeOutcome at h
        split at h
        · exact asks_ret h
        · split_ifs at h
          · exact asks_ret h
          · split at h
            · exact asks_ret h
            · exact asks_ret h
          · split at h
            · exact asks_ret h
            · rcases asks_await.mp h with rfl | ⟨_ | _, -, h⟩
              · cases hr
              · exact asks_ret h
              · exact asks_ret h

/-- A call touches an adapter only in a tool with a target, and only to execute
    one of its statements; and each of them is executed on some path. -/
theorem asks_run (tool : Tool) :
    Asks (Within auditId (LoadsGrants grants)) (tool.run ctx arguments) (.tool r) ↔
      ctx.stateDb = true ∧ Reaches ctx (ctx.dbGrants grants) arguments tool r := by
  cases tool with
  | runQuery => exact asks_runQuery hr
  | explain => exact asks_explain hr
  | sampleTable => exact asks_sampleTable hr
  | describeSchema => exact asks_describeSchema hr
  | listServers =>
    refine iff_of_false (asks_of_pure hr) ?_
    rintro ⟨-, _, _, _, _, hexec, -⟩
    cases hexec
  | listDatabases =>
    refine iff_of_false (asks_listDatabases hr) ?_
    rintro ⟨-, _, _, _, _, hexec, -⟩
    cases hexec
  | getQueryHistory =>
    refine iff_of_false (asks_getQueryHistory hr) ?_
    rintro ⟨-, _, _, _, _, hexec, -⟩
    cases hexec

end

end

/-- **What a call reaches.** A call touches an adapter exactly if it has an
    identity and names a tool, there is a state DB, and the tool reaches it. -/
theorem asks_dispatchCall {ext : Extern} {id : Json} {identity config}
    {permissionsCache stateDb : Bool} {requestCtx}
    {params : Option Json} {grants} {auditId : Uuid} {r : ToolReq}
    (hr : r.toAdapter = true) :
    Asks (Within auditId (LoadsGrants grants))
        (dispatchCall ext id identity config permissionsCache stateDb requestCtx params) (.tool r) ↔
      ∃ caller call tool, identity = some caller ∧ params.bind CallParams.fromValue = some call ∧
        call.name = tool.name ∧ stateDb = true ∧
          Reaches ⟨ext, id, caller, config, permissionsCache, stateDb, requestCtx⟩
            (if permissionsCache then grants else []) call.arguments tool r := by
  unfold dispatchCall
  cases identity with
  | none => exact iff_of_false asks_ret (by rintro ⟨_, _, _, ⟨⟩, -⟩)
  | some caller =>
    cases hcall : params.bind CallParams.fromValue with
    | none => exact iff_of_false asks_ret (by rintro ⟨_, _, _, -, ⟨⟩, -⟩)
    | some call =>
      dsimp only
      by_cases hname : ∃ tool : Tool, call.name = tool.name
      · obtain ⟨tool, htool⟩ := hname
        rw [dispatchTool_of_name htool, asks_run hr]
        constructor
        · rintro ⟨hstate, h⟩
          exact ⟨caller, call, tool, rfl, rfl, htool, hstate, h⟩
        · rintro ⟨_, _, tool', ⟨⟩, ⟨⟩, htool', hstate, h⟩
          obtain rfl := Tool.name_injective (htool.symm.trans htool')
          exact ⟨hstate, h⟩
      · rw [dispatchTool_unknown fun tool h => hname ⟨tool, h⟩]
        refine iff_of_false asks_ret ?_
        rintro ⟨_, _, tool, -, ⟨⟩, htool, -⟩
        exact hname ⟨tool, htool⟩

/-! ## The protocol of a call -/

def Tool.header (config : ConfigFile) (arguments : Option Json) : Tool → Option AuditHeader
  | .listServers => some { tool := .listServers }
  | .listDatabases =>
    (arguments.bind ListDatabases.Arguments.fromValue).map (ListDatabases.header config)
  | .describeSchema =>
    (arguments.bind DescribeSchema.Arguments.fromValue).map (DescribeSchema.header config)
  | .sampleTable =>
    (arguments.bind SampleTable.Arguments.fromValue).map (SampleTable.header config)
  | .explain => (arguments.bind Explain.Arguments.fromValue).map (Explain.header config)
  | .runQuery => (arguments.bind RunQuery.Arguments.fromValue).map (RunQuery.header config)
  | .getQueryHistory =>
    (arguments.bind GetQueryHistory.Arguments.fromValue).map (GetQueryHistory.header config)

/-- The call as the chokepoint sees it. -/
def ToolContext.call (ctx : ToolContext) (header : AuditHeader) (auditId : Uuid) : Call where
  ext := ctx.ext
  id := ctx.id
  identity := ctx.identity
  requestCtx := ctx.requestCtx
  header := header
  streamSinks := ctx.config.stream
  auditId := auditId

/-- The program follows the protocol of the request task of the call. -/
def Follows (ctx : ToolContext) (header : AuditHeader) (auditId : Uuid)
    (program : DispatchProg ToolResp Response) : Prop :=
  (requestProtocol (ctx.call header auditId)).Obeys
    (RequestFinal (ctx.call header auditId) (Unavailable (ctx.call header auditId) ctx.stateDb))
    .idle program

section

variable {ctx : ToolContext} {header : AuditHeader} {auditId : Uuid} {arguments : Option Json}

theorem follows_dispatchWork {work} : Follows ctx header auditId (dispatchWork ctx header work) :=
  obeys_auditDispatch (ctx.call header auditId) ctx.stateDb work

theorem follows_dispatchWithGrants {work : List Grant → ToolProg Outcome} :
    Follows ctx header auditId (dispatchWithGrants ctx header work) := by
  refine Protocol.Obeys.bind (p := loadOrEmpty ctx) ?_
  unfold loadOrEmpty
  split_ifs
  · refine ⟨.before _, ?_⟩
    rintro (_ | dbGrants) -
    · exact follows_dispatchWork
    · exact follows_dispatchWork
  · exact follows_dispatchWork

/-- A program that loads the grants or not, and enters the chokepoint. -/
inductive Dispatches (ctx : ToolContext) (header : AuditHeader) :
    DispatchProg ToolResp Response → Prop
  | work (work : ToolProg Outcome) : Dispatches ctx header (dispatchWork ctx header work)
  | withGrants (work : List Grant → ToolProg Outcome) :
      Dispatches ctx header (dispatchWithGrants ctx header work)

/-- A call whose arguments decode enters the chokepoint with its own header. -/
theorem run_dispatches {tool : Tool} (h : tool.header ctx.config arguments = some header) :
    Dispatches ctx header (tool.run ctx arguments) := by
  cases tool with
  | listServers =>
    cases h
    exact .withGrants _
  | getQueryHistory =>
    obtain ⟨args, hargs, rfl⟩ := Option.map_eq_some_iff.mp h
    simp only [Tool.run, GetQueryHistory.run, hargs]
    split
    · exact .work _
    · split_ifs
      · exact .work _
      · exact .withGrants _
  | listDatabases =>
    obtain ⟨args, hargs, rfl⟩ := Option.map_eq_some_iff.mp h
    simp only [Tool.run, ListDatabases.run, hargs]
    exact .withGrants _
  | describeSchema =>
    obtain ⟨args, hargs, rfl⟩ := Option.map_eq_some_iff.mp h
    simp only [Tool.run, DescribeSchema.run, hargs]
    exact .withGrants _
  | sampleTable =>
    obtain ⟨args, hargs, rfl⟩ := Option.map_eq_some_iff.mp h
    simp only [Tool.run, SampleTable.run, hargs]
    exact .withGrants _
  | explain =>
    obtain ⟨args, hargs, rfl⟩ := Option.map_eq_some_iff.mp h
    simp only [Tool.run, Explain.run, hargs]
    exact .withGrants _
  | runQuery =>
    obtain ⟨args, hargs, rfl⟩ := Option.map_eq_some_iff.mp h
    simp only [Tool.run, RunQuery.run, hargs]
    exact .withGrants _

/-- A call whose arguments do not decode is answered on the spot. -/
theorem run_undecoded {tool : Tool} (h : tool.header ctx.config arguments = none) :
    ∃ response, tool.run ctx arguments = ret response := by
  cases tool with
  | listServers => cases h
  | listDatabases =>
    rw [Tool.header, Option.map_eq_none_iff] at h
    exact ⟨_, by simp only [Tool.run, ListDatabases.run, h]; rfl⟩
  | describeSchema =>
    rw [Tool.header, Option.map_eq_none_iff] at h
    exact ⟨_, by simp only [Tool.run, DescribeSchema.run, h]; rfl⟩
  | sampleTable =>
    rw [Tool.header, Option.map_eq_none_iff] at h
    exact ⟨_, by simp only [Tool.run, SampleTable.run, h]; rfl⟩
  | explain =>
    rw [Tool.header, Option.map_eq_none_iff] at h
    exact ⟨_, by simp only [Tool.run, Explain.run, h]; rfl⟩
  | runQuery =>
    rw [Tool.header, Option.map_eq_none_iff] at h
    exact ⟨_, by simp only [Tool.run, RunQuery.run, h]; rfl⟩
  | getQueryHistory =>
    rw [Tool.header, Option.map_eq_none_iff] at h
    exact ⟨_, by simp only [Tool.run, GetQueryHistory.run, h]; rfl⟩

theorem Dispatches.follows {program}
    (h : Dispatches ctx header program) : Follows ctx header auditId program := by
  cases h with
  | work => exact follows_dispatchWork
  | withGrants => exact follows_dispatchWithGrants

theorem follows_run {tool : Tool} (h : tool.header ctx.config arguments = some header) :
    Follows ctx header auditId (tool.run ctx arguments) :=
  (run_dispatches h).follows

end

/-- A call is answered on the spot, or enters the chokepoint. -/
theorem dispatchCall_cases (ext : Extern) (id : Json) (identity : Option Identity)
    (config : ConfigFile) (permissionsCache stateDb : Bool) (requestCtx : RequestContext)
    (params : Option Json) :
    (∃ response, dispatchCall ext id identity config permissionsCache stateDb requestCtx params =
        ret response) ∨
      ∃ caller header, Dispatches ⟨ext, id, caller, config, permissionsCache, stateDb, requestCtx⟩
        header (dispatchCall ext id identity config permissionsCache stateDb requestCtx params) := by
  unfold dispatchCall
  cases identity with
  | none => exact .inl ⟨_, rfl⟩
  | some caller =>
    cases params.bind CallParams.fromValue with
    | none => exact .inl ⟨_, rfl⟩
    | some call =>
      dsimp only
      by_cases hname : ∃ tool : Tool, call.name = tool.name
      · obtain ⟨tool, htool⟩ := hname
        rw [dispatchTool_of_name htool]
        cases hheader : tool.header config call.arguments with
        | none => exact .inl (run_undecoded hheader)
        | some header => exact .inr ⟨caller, header, run_dispatches hheader⟩
      · rw [dispatchTool_unknown fun tool h => hname ⟨tool, h⟩]
        exact .inl ⟨_, rfl⟩

end DbMcpGateway.Tools
