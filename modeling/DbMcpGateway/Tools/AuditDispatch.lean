import DbMcpGateway.Async.Protocol
import DbMcpGateway.Tools.Outcome

/-!
# The audit chokepoint

`audit_dispatch` (tools/audit_dispatch/mod.rs): every tool call runs its work
here. A guard with a pre-built row is armed before the work starts; when the work
is done its outcome is recorded on the guard, the row is written, and only then
is the row streamed and the guard released. A guard dropped while armed spawns a
detached write of its row.

The function is a program over the requests of the work (`tool`) and its own. The
only requests at which it suspends, and can be dropped, are those of the work and
`insertReply`; all others are done in one go with the reply before them.
-/

namespace DbMcpGateway.Tools

open Async Async.Prog Audit Authz Config Transport

/-! ## Requests -/

/-- The fields that name a call in a log line. -/
structure CallLabel where
  requestId : String
  userSub : String
  tool : Tool
  server : String
  db : String
  deriving DecidableEq

/-- What the chokepoint emits to metrics and logs. Clock readings of the write
    itself are left out. -/
inductive Event
  /-- The counter `tool_calls`. -/
  | toolCalls (tool : Tool) (outcome : String)
  /-- The histogram `query_duration_seconds`. -/
  | queryDuration (tool : Tool) (elapsedMs : ℕ)
  /-- The log line "tool dispatched". -/
  | dispatched (call : CallLabel) (outcome : String) (durationMs : ℕ)
  /-- The histogram `audit_write_duration_seconds`. -/
  | auditWriteDuration
  /-- The log line "audit write failed; aborting tool response". -/
  | auditWriteFailed (err : AuditError) (call : CallLabel) (durationMs : ℕ)
  /-- The log line "fallback audit row write failed". -/
  | fallbackFailed (err : AuditError)
  deriving DecidableEq

/-- `struct CancelledAuditGuard` (tools/audit_dispatch/mod.rs:61). The pool it
    holds is the state DB, and is taken out together with the row. -/
structure CancelledAuditGuard where
  row : Option AuditRow
  tool : Tool
  streamSinks : List StreamSinkConfig
  deriving DecidableEq

/-- The requests of the chokepoint, over those of the work. -/
inductive DispatchReq (Req : Type)
  /-- A request of the work. -/
  | tool (r : Req)
  /-- `Uuid::new_v4`. -/
  | newUuid
  /-- The guard is created. -/
  | armGuard (guard : CancelledAuditGuard)
  /-- `cancel_guard.record_outcome`. -/
  | recordOutcome (outcome : Outcome)
  /-- `cancel_guard.disarm`. -/
  | disarm
  | emit (event : Event)
  /-- The statement of `insert_row` is handed to the state DB. -/
  | insert (row : AuditRow)
  /-- The reply to it, or the end of `AUDIT_WRITE_TIMEOUT`. -/
  | insertReply (row : AuditRow)
  /-- `audit::stream::send` (audit/stream.rs:44). -/
  | streamSend (sinks : List StreamSinkConfig) (row : AuditRow)

/-- The replies. -/
abbrev DispatchResp {Req : Type} (Resp : Req → Type) : DispatchReq Req → Type
  | .tool r => Resp r
  | .newUuid => Uuid
  | .armGuard _ => Unit
  | .recordOutcome _ => Unit
  | .disarm => Unit
  | .emit _ => Unit
  | .insert _ => Unit
  | .insertReply _ => Except AuditError Unit
  | .streamSend _ _ => Unit

/-- A program of the chokepoint. -/
abbrev DispatchProg {Req : Type} (Resp : Req → Type) := Prog (DispatchReq Req) (DispatchResp Resp)

section

variable {Req : Type} {Resp : Req → Type}

/-- Make a request of the chokepoint. -/
abbrev perform (r : DispatchReq Req) : DispatchProg Resp (DispatchResp Resp r) := ask r

/-- The work inside the chokepoint. -/
abbrev liftWork {α : Type} (work : Prog Req Resp α) : DispatchProg Resp α :=
  work.embed DispatchReq.tool fun _ x => x

/-! ## The guard -/

/-- `CancelledAuditGuard::disarm` (tools/audit_dispatch/mod.rs:77). -/
def CancelledAuditGuard.disarm (guard : CancelledAuditGuard) : CancelledAuditGuard :=
  { guard with row := none }

def recordOn (row : AuditRow) (outcome : Outcome) : AuditRow :=
  { row with
    outcome := outcome.code.text
    elapsedMs := outcome.elapsedMs
    rowCount := outcome.rowCount
    truncated := outcome.truncated
    errorMessage := outcome.errorMessage }

/-- `CancelledAuditGuard::record_outcome` (tools/audit_dispatch/mod.rs:87). -/
def CancelledAuditGuard.recordOutcome (guard : CancelledAuditGuard) (outcome : Outcome) :
    CancelledAuditGuard :=
  { guard with row := guard.row.map fun row => recordOn row outcome }

/-- `finalize_dropped_row` (tools/audit_dispatch/mod.rs:104). -/
def finalizeDroppedRow (row : AuditRow) : AuditRow :=
  if row.outcome = "" then
    { row with
      outcome := "cancelled"
      errorMessage := some "client disconnected before completion" }
  else row

/-- `audit::log` (audit/mod.rs:101). -/
def log (row : AuditRow) : DispatchProg Resp (Except AuditError Unit) := do
  perform (.insert row)
  perform (.insertReply row)

/-- The task spawned by the guard. -/
def fallback (streamSinks : List StreamSinkConfig) (row : AuditRow) : DispatchProg Resp Unit := do
  match ← log row with
  | .ok () => perform (.streamSend streamSinks row)
  | .error err => perform (.emit (.fallbackFailed err))

/-- `Drop for CancelledAuditGuard` (tools/audit_dispatch/mod.rs:111): the events
    emitted on the spot, and the detached task if the guard was armed. -/
def CancelledAuditGuard.drop (guard : CancelledAuditGuard) :
    List Event × Option (DispatchProg Resp Unit) :=
  match guard.row with
  | none => ([], none)
  | some row =>
    let final := finalizeDroppedRow row
    (if row.outcome = "" then [.toolCalls guard.tool final.outcome] else [],
      some (fallback guard.streamSinks final))

/-! ## The dispatch -/

/-- The row of the call before its outcome is known. -/
def pendingRow (auditId : Uuid) (identity : Identity) (requestCtx : RequestContext)
    (header : AuditHeader) : AuditRow where
  id := auditId
  requestId := requestCtx.requestId
  userSub := identity.userSub
  userEmail := identity.userEmail
  groups := identity.groups
  tool := header.tool.name
  server := header.server
  database := header.database
  sql := header.sql
  reason := header.reason
  outcome := ""
  elapsedMs := none
  rowCount := none
  truncated := none
  errorMessage := none
  agentClient := requestCtx.agentClient
  ip := requestCtx.ip
  dbType := header.dbType

def auditRow (auditId : Uuid) (identity : Identity) (requestCtx : RequestContext)
    (header : AuditHeader) (outcome : Outcome) : AuditRow where
  id := auditId
  requestId := requestCtx.requestId
  userSub := identity.userSub
  userEmail := identity.userEmail
  groups := identity.groups
  tool := header.tool.name
  server := header.server
  database := header.database
  sql := header.sql
  reason := header.reason
  outcome := outcome.code.text
  elapsedMs := outcome.elapsedMs
  rowCount := outcome.rowCount
  truncated := outcome.truncated
  errorMessage := outcome.errorMessage
  agentClient := requestCtx.agentClient
  ip := requestCtx.ip
  dbType := header.dbType

def callLabel (identity : Identity) (requestCtx : RequestContext) (header : AuditHeader) :
    CallLabel where
  requestId := requestCtx.requestId
  userSub := identity.userSub
  tool := header.tool
  server := header.server.getD ""
  db := header.database.getD ""

/-- The answer without a state DB. -/
def auditUnavailable (id : Json) (tool : Tool) : Response :=
  .ofError id (.internal ("audit log unavailable — refusing to dispatch " ++ tool.name))

/-- The answer when the row could not be written. -/
def auditRejected (ext : Extern) (id : Json) : AuditError → Response
  | .timeout => toolError ext id .timeout "audit write timed out; request rejected"
  | .write => toolError ext id .internal "audit write failed; request rejected"

/-- The histogram of the time the work took, if it reports one. -/
def emitDuration (tool : Tool) : Option ℕ → DispatchProg Resp Unit
  | some elapsedMs => perform (.emit (.queryDuration tool elapsedMs))
  | none => return ()

/-- `audit_dispatch` after the work (tools/audit_dispatch/mod.rs:242). -/
def finishDispatch (ext : Extern) (id : Json) (identity : Identity) (requestCtx : RequestContext)
    (header : AuditHeader) (streamSinks : List StreamSinkConfig) (auditId : Uuid)
    (outcome : Outcome) : DispatchProg Resp Response := do
  let call := callLabel identity requestCtx header
  perform (.recordOutcome outcome)
  perform (.emit (.toolCalls header.tool outcome.code.text))
  emitDuration header.tool outcome.elapsedMs
  perform (.emit (.dispatched call outcome.code.text (outcome.elapsedMs.getD 0)))
  let row := auditRow auditId identity requestCtx header outcome
  let auditResult ← log row
  perform (.emit .auditWriteDuration)
  match auditResult with
  | .error err =>
    perform (.emit (.auditWriteFailed err call (outcome.elapsedMs.getD 0)))
    return auditRejected ext id err
  | .ok () =>
    perform (.streamSend streamSinks row)
    perform .disarm
    return outcome.response

/-- `audit_dispatch` (tools/audit_dispatch/mod.rs:154). -/
def auditDispatch (ext : Extern) (id : Json) (identity : Identity) (stateDb : Bool)
    (requestCtx : RequestContext) (header : AuditHeader) (streamSinks : List StreamSinkConfig)
    (work : Prog Req Resp Outcome) : DispatchProg Resp Response :=
  if !stateDb then do
    perform (.emit (.toolCalls header.tool "unavailable"))
    perform (.emit (.dispatched (callLabel identity requestCtx header) "unavailable" 0))
    return auditUnavailable id header.tool
  else do
    let auditId ← perform .newUuid
    perform (.armGuard
      { row := some (pendingRow auditId identity requestCtx header), tool := header.tool,
        streamSinks })
    let outcome ← liftWork work
    finishDispatch ext id identity requestCtx header streamSinks auditId outcome

/-! ## Rows of a call -/

/-- A recorded outcome survives the drop. -/
theorem finalizeDroppedRow_auditRow (auditId : Uuid) (identity : Identity)
    (requestCtx : RequestContext) (header : AuditHeader) (outcome : Outcome) :
    finalizeDroppedRow (auditRow auditId identity requestCtx header outcome) =
      auditRow auditId identity requestCtx header outcome :=
  if_neg outcome.code.text_ne_empty

@[simp] theorem finalizeDroppedRow_id (row : AuditRow) : (finalizeDroppedRow row).id = row.id := by
  unfold finalizeDroppedRow
  split_ifs <;> rfl

end

end DbMcpGateway.Tools
