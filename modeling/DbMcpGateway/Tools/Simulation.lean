import DbMcpGateway.Tools.Reach

/-!
# Two runs of a call

The rules for comparing a call under two configurations. `SameReq` says which
requests of the two runs correspond, `SameReply` which replies they get, and
`SameResponse` compares the responses. Corresponding requests may differ in what
the caller is not told: the databases of a server beside the one used, the audit
id, the database kind in the audit row, and times.

Each step of a call has its rule: if the parts are in step, so is the whole.

Results:

* `sim_auditDispatch`: the chokepoint keeps two works in step.
* `sim_dispatchWithGrants`, `sim_executeOn`, `sim_withReason`: so do the steps that
  the tools share.
-/

namespace DbMcpGateway.Tools

open Async Async.Prog Audit Authz Config Exec Transport

/-! ## Corresponding requests and replies -/

/-- The servers differ at most in their databases. -/
def SameServer (server server' : Server) : Prop :=
  { server with databases := [] } = { server' with databases := [] }

inductive SameToolReq : ToolReq → ToolReq → Prop
  | same (r : ToolReq) : SameToolReq r r
  | getOrOpen {server server'} (database : Database) : SameServer server server' →
      SameToolReq (.getOrOpen server database) (.getOrOpen server' database)
  | execute {server server'} (database : Database) (query : ExecQuery) : SameServer server server' →
      SameToolReq (.execute server database query) (.execute server' database query)

/-- Answers of an adapter that differ at most in the elapsed time. -/
inductive SameAnswer : Except ExecError ExecResult → Except ExecError ExecResult → Prop
  | error (err : ExecError) : SameAnswer (.error err) (.error err)
  | ok (result : ExecResult) (elapsedMs : ℕ) : SameAnswer (.ok result) (.ok { result with elapsedMs })

/-- Corresponding replies to the tools: the same DB grants, the same answers of the
    targets and of the audit log, any clock. -/
def SameToolReply (grants : List Grant) : (r r' : ToolReq) → ToolResp r → ToolResp r' → Prop
  | .getFor _, .getFor _, x, y => x = y ∧ ∀ g, x = .ok g → g = grants
  | .getOrOpen _ _, .getOrOpen _ _, x, y => x = y
  | .execute _ _ _, .execute _ _ _, x, y => SameAnswer x y
  | .queryUserHistory _ _ _ _ _, .queryUserHistory _ _ _ _ _, x, y => x = y
  | _, _, _, _ => True

/-- The same response, up to the member `elapsed_ms` of a payload. -/
inductive SameResponse (ext : Extern) (id : Json) : Response → Response → Prop
  | same (response : Response) : SameResponse ext id response response
  | elapsed {members e e' text text'} : ext.toText (withElapsed members e) = some text →
      ext.toText (withElapsed members e') = some text' →
      SameResponse ext id (toolSuccess id text) (toolSuccess id text')

/-- Outcomes that differ at most in elapsed times. -/
structure SameOutcome (ext : Extern) (id : Json) (o o' : Outcome) : Prop where
  response : SameResponse ext id o.response o'.response
  code : o'.code = o.code
  rowCount : o'.rowCount = o.rowCount
  truncated : o'.truncated = o.truncated
  errorMessage : o'.errorMessage = o.errorMessage
  elapsed : o'.elapsedMs.isSome = o.elapsedMs.isSome

/-- Audit rows that differ at most in the id, the database kind and the elapsed
    time. -/
def SameRow (row row' : AuditRow) : Prop :=
  { row with id := 0, dbType := none, elapsedMs := none } =
    { row' with id := 0, dbType := none, elapsedMs := none }

/-- Events that differ at most in times. -/
inductive SameEvent : Event → Event → Prop
  | same (e : Event) : SameEvent e e
  | queryDuration (tool : Tool) (t t' : ℕ) : SameEvent (.queryDuration tool t) (.queryDuration tool t')
  | dispatched (call : CallLabel) (outcome : String) (t t' : ℕ) :
      SameEvent (.dispatched call outcome t) (.dispatched call outcome t')
  | auditWriteFailed (err : AuditError) (call : CallLabel) (t t' : ℕ) :
      SameEvent (.auditWriteFailed err call t) (.auditWriteFailed err call t')

/-- Corresponding requests of the chokepoint. -/
inductive SameReq (ext : Extern) (id : Json) : DispatchReq ToolReq → DispatchReq ToolReq → Prop
  | tool {r r'} : SameToolReq r r' → SameReq ext id (.tool r) (.tool r')
  | newUuid : SameReq ext id .newUuid .newUuid
  | armGuard {row row'} (tool : Tool) (sinks : List StreamSinkConfig) :
      SameRow row row' → SameReq ext id (.armGuard ⟨some row, tool, sinks⟩)
        (.armGuard ⟨some row', tool, sinks⟩)
  | recordOutcome {o o'} : SameOutcome ext id o o' →
      SameReq ext id (.recordOutcome o) (.recordOutcome o')
  | disarm : SameReq ext id .disarm .disarm
  | emit {e e'} : SameEvent e e' → SameReq ext id (.emit e) (.emit e')
  | insert {row row'} : SameRow row row' → SameReq ext id (.insert row) (.insert row')
  | insertReply {row row'} : SameRow row row' →
      SameReq ext id (.insertReply row) (.insertReply row')
  | streamSend {row row'} (sinks : List StreamSinkConfig) : SameRow row row' →
      SameReq ext id (.streamSend sinks row) (.streamSend sinks row')

/-- Corresponding replies to the chokepoint: the audit store answers the same. -/
def SameReply (grants : List Grant) :
    (r r' : DispatchReq ToolReq) → DispatchResp ToolResp r → DispatchResp ToolResp r' → Prop
  | .tool r, .tool r', x, y => SameToolReply grants r r' x y
  | .insertReply _, .insertReply _, x, y => x = y
  | _, _, _, _ => True

/-- Two tools in step. -/
abbrev WorkSim (ext : Extern) (id : Json) (grants : List Grant) :
    ToolProg Outcome → ToolProg Outcome → Prop :=
  Sim SameToolReq (SameToolReply grants) (SameOutcome ext id)

/-- Two calls in step. -/
abbrev CallSim (ext : Extern) (id : Json) (grants : List Grant) :
    DispatchProg ToolResp Response → DispatchProg ToolResp Response → Prop :=
  Sim (SameReq ext id) (SameReply grants) (SameResponse ext id)

/-! ## The chokepoint -/

section

variable {ext : Extern} {id : Json} {grants : List Grant}

theorem SameOutcome.refl (o : Outcome) : SameOutcome ext id o o :=
  ⟨.same _, rfl, rfl, rfl, rfl, rfl⟩

variable {identity : Identity} {requestCtx : RequestContext} {header : AuditHeader}

theorem sameRow_pendingRow (auditId auditId' : Uuid) (dbType : Option String) :
    SameRow (pendingRow auditId identity requestCtx header)
      (pendingRow auditId' identity requestCtx { header with dbType }) := rfl

theorem sameRow_auditRow (identity : Identity) (requestCtx : RequestContext)
    (header : AuditHeader) (auditId auditId' : Uuid) (dbType : Option String) {o o' : Outcome}
    (h : SameOutcome ext id o o') :
    SameRow (auditRow auditId identity requestCtx header o)
      (auditRow auditId' identity requestCtx { header with dbType } o') := by
  simp only [SameRow, auditRow, h.code, h.rowCount, h.truncated, h.errorMessage]

theorem sim_emitDuration (tool : Tool) {elapsedMs elapsedMs' : Option ℕ}
    (h : elapsedMs'.isSome = elapsedMs.isSome) :
    Sim (SameReq ext id) (SameReply grants) (fun _ _ => True)
      (emitDuration tool elapsedMs : DispatchProg ToolResp Unit) (emitDuration tool elapsedMs') := by
  cases elapsedMs with
  | none =>
    cases elapsedMs' with
    | none => trivial
    | some t' => cases h
  | some t =>
    cases elapsedMs' with
    | none => cases h
    | some t' => exact ⟨.emit (.queryDuration tool t t'), fun _ _ _ => trivial⟩

theorem sim_finishDispatch (sinks : List StreamSinkConfig) (auditId auditId' : Uuid)
    (dbType : Option String) {o o' : Outcome} (h : SameOutcome ext id o o') :
    CallSim ext id grants
      (finishDispatch ext id identity requestCtx header sinks auditId o)
      (finishDispatch ext id identity requestCtx { header with dbType } sinks auditId' o') := by
  have hrow := sameRow_auditRow identity requestCtx header auditId auditId' dbType h
  unfold finishDispatch
  rw [h.code]
  refine ⟨.recordOutcome h, fun _ _ _ => ⟨.emit (.same _), fun _ _ _ => ?_⟩⟩
  refine (sim_emitDuration header.tool h.elapsed).bind fun _ _ _ => ?_
  refine ⟨.emit (.dispatched _ _ _ _), fun _ _ _ => ?_⟩
  refine ⟨.insert hrow, fun _ _ _ => ⟨.insertReply hrow, ?_⟩⟩
  rintro x _ rfl
  refine ⟨.emit (.same _), fun _ _ _ => ?_⟩
  cases x with
  | error err => exact ⟨.emit (.auditWriteFailed _ _ _ _), fun _ _ _ => .same _⟩
  | ok _ => exact ⟨.streamSend sinks hrow, fun _ _ _ => ⟨.disarm, fun _ _ _ => h.response⟩⟩

theorem sim_auditDispatch {stateDb : Bool} {sinks} (dbType : Option String) {work work'}
    (h : WorkSim ext id grants work work') :
    CallSim ext id grants (auditDispatch ext id identity stateDb requestCtx header sinks work)
      (auditDispatch ext id identity stateDb requestCtx { header with dbType } sinks work') := by
  unfold auditDispatch
  cases stateDb with
  | false =>
    exact ⟨.emit (.same _), fun _ _ _ => ⟨.emit (.same _), fun _ _ _ => .same _⟩⟩
  | true =>
    refine ⟨.newUuid, fun auditId auditId' _ => ?_⟩
    refine ⟨.armGuard _ _ (sameRow_pendingRow auditId auditId' dbType), fun _ _ _ => ?_⟩
    have hlift : Sim (SameReq ext id) (SameReply grants) (SameOutcome ext id) (liftWork work)
        (liftWork work') :=
      h.embed (fun _ _ => SameReq.tool) fun _ _ _ _ hxy => hxy
    exact hlift.bind fun _ _ ho => sim_finishDispatch sinks auditId auditId' dbType ho

end

/-! ## Steps of the tools -/

section

variable {ctx : ToolContext} {config' : ConfigFile} {grants : List Grant}

theorem sim_dispatchWork {header} (dbType : Option String)
    (hstream : config'.stream = ctx.config.stream) {work work'}
    (h : WorkSim ctx.ext ctx.id grants work work') :
    CallSim ctx.ext ctx.id grants (dispatchWork ctx header work)
      (dispatchWork { ctx with config := config' } { header with dbType } work') := by
  unfold dispatchWork
  dsimp only
  rw [hstream]
  exact sim_auditDispatch dbType h

theorem sim_loadOrEmpty :
    Sim (SameReq ctx.ext ctx.id) (SameReply grants)
      (fun x y => x = y ∧ ∀ g, x = .ok g → g = ctx.dbGrants grants) (loadOrEmpty ctx)
      (loadOrEmpty { ctx with config := config' }) := by
  unfold loadOrEmpty ToolContext.dbGrants
  dsimp only
  split_ifs
  · exact ⟨.tool (.same _), fun _ _ hxy => hxy⟩
  · refine ⟨rfl, ?_⟩
    rintro _ ⟨⟩
    rfl

theorem sim_dispatchWithGrants {header} (dbType : Option String)
    (hstream : config'.stream = ctx.config.stream) {work work' : List Grant → ToolProg Outcome}
    (h : WorkSim ctx.ext ctx.id grants (work (ctx.dbGrants grants)) (work' (ctx.dbGrants grants))) :
    CallSim ctx.ext ctx.id grants (dispatchWithGrants ctx header work)
      (dispatchWithGrants { ctx with config := config' } { header with dbType } work') := by
  refine sim_loadOrEmpty.bind ?_
  rintro x _ ⟨rfl, hgrants⟩
  cases x with
  | error err =>
    exact sim_dispatchWork dbType hstream (SameOutcome.refl _)
  | ok dbGrants =>
    obtain rfl := hgrants dbGrants rfl
    exact sim_dispatchWork dbType hstream h

theorem sim_executeOn {messages} {server server' : Server}
    {database : Database} {query} {k k' : ExecResult → Outcome}
    (hserver : SameServer server server')
    (hk : ∀ result elapsedMs, SameOutcome ctx.ext ctx.id (k result) (k' { result with elapsedMs })) :
    WorkSim ctx.ext ctx.id grants (executeOn ctx messages server database query k)
      (executeOn { ctx with config := config' } messages server' database query k') := by
  have hfailure : ∀ err, WorkSim ctx.ext ctx.id grants (execFailure ctx messages err)
      (execFailure { ctx with config := config' } messages err) := by
    intro err
    refine ⟨.same _, fun t t' _ => ?_⟩
    exact ⟨.same _, rfl, rfl, rfl, rfl, rfl⟩
  refine ⟨.getOrOpen database hserver, ?_⟩
  rintro x _ rfl
  cases x with
  | error err => exact hfailure err
  | ok _ =>
    refine ⟨.execute database query hserver, ?_⟩
    rintro _ _ (err | ⟨result, elapsedMs⟩)
    · exact hfailure err
    · exact hk result elapsedMs

theorem sim_withReason {constraints reason k k'} (hk : WorkSim ctx.ext ctx.id grants k k') :
    WorkSim ctx.ext ctx.id grants (withReason ctx constraints reason k)
      (withReason { ctx with config := config' } constraints reason k') := by
  unfold withReason
  split_ifs
  · exact SameOutcome.refl _
  · exact hk

variable (ctx) in
theorem sameOutcome_withElapsed (members : List (String × Json)) (e e' t t' : ℕ)
    (rowCount : Option ℕ) (truncated : Option Bool) :
    SameOutcome ctx.ext ctx.id (succeedWith ctx (withElapsed members e) (some t) rowCount truncated)
      (succeedWith ctx (withElapsed members e') (some t') rowCount truncated) := by
  have hsome := ctx.ext.toText_withElapsed members e e'
  unfold succeedWith
  cases htext : ctx.ext.toText (withElapsed members e) with
  | none =>
    cases htext' : ctx.ext.toText (withElapsed members e') with
    | none => exact .refl _
    | some text' => simp [htext, htext'] at hsome
  | some text =>
    cases htext' : ctx.ext.toText (withElapsed members e') with
    | none => simp [htext, htext'] at hsome
    | some text' => exact ⟨.elapsed htext htext', rfl, rfl, rfl, rfl, rfl⟩

theorem sameOutcome_rowsOutcome (result : ExecResult) (elapsedMs : ℕ) :
    SameOutcome ctx.ext ctx.id (rowsOutcome ctx result)
      (rowsOutcome { ctx with config := config' } { result with elapsedMs }) :=
  sameOutcome_withElapsed ctx _ _ _ _ _ _ _

theorem sameOutcome_planOutcome (result : ExecResult) (elapsedMs : ℕ) :
    SameOutcome ctx.ext ctx.id (Explain.planOutcome ctx result)
      (Explain.planOutcome { ctx with config := config' } { result with elapsedMs }) := by
  have hplan : Explain.extractPlan ctx.ext { result with elapsedMs } =
      Explain.extractPlan ctx.ext result := rfl
  unfold Explain.planOutcome
  dsimp only
  rw [hplan]
  cases Explain.extractPlan ctx.ext result with
  | none => exact .refl _
  | some plan => exact sameOutcome_withElapsed ctx _ _ _ _ _ _ _

theorem sameOutcome_tablesOutcome (result : ExecResult) (elapsedMs : ℕ) :
    SameOutcome ctx.ext ctx.id (DescribeSchema.tablesOutcome ctx result)
      (DescribeSchema.tablesOutcome { ctx with config := config' } { result with elapsedMs }) := by
  unfold DescribeSchema.tablesOutcome succeedWith
  dsimp only
  cases DescribeSchema.assembleTables result.rows with
  | none => exact .refl _
  | some tables =>
    dsimp only
    cases ctx.ext.toText (.obj [("tables", .arr (tables.map DescribeSchema.TableView.toValue))]) with
    | none => exact .refl _
    | some text => exact ⟨.same _, rfl, rfl, rfl, rfl, rfl⟩

end

end DbMcpGateway.Tools
