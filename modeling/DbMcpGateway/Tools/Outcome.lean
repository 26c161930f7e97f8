import DbMcpGateway.Audit.Row
import DbMcpGateway.Exec.SqlGuard
import DbMcpGateway.Exec.Adapter
import DbMcpGateway.Transport.JsonRpc

/-!
# Tool outcomes

What a tool hands to the audit chokepoint (tools/audit_dispatch/types.rs and
outcome.rs): a response, an outcome code and the fields of the audit row.

`Extern` collects the functions the tools take from other crates. The texts the
tools send are `toText` of a JSON value; nothing is assumed about the text except
that the value of the last member `elapsed_ms` does not decide whether there is
one.
-/

namespace DbMcpGateway.Tools

open Audit Authz Config Exec Transport

/-- An instant, in microseconds since the epoch. -/
abbrev Timestamp := ℤ

/-- The payload `members` with the member `elapsed_ms` at its end. -/
def withElapsed (members : List (String × Json)) (elapsedMs : ℕ) : Json :=
  .obj (members ++ [("elapsed_ms", .int elapsedMs)])

/-- The functions of other crates that the tools call. -/
structure Extern where
  /-- `sqlparser` with the PostgreSQL dialect. -/
  parseSql : ParseSql
  /-- `DateTime::parse_from_rfc3339`, in UTC. -/
  parseRfc3339 : String → Option Timestamp
  /-- `serde_json::from_str::<Value>`. -/
  fromStr : String → Option Json
  /-- `Value::to_string`. -/
  render : Json → String
  /-- `serde_json::to_string` of a payload with this value. -/
  toText : Json → Option String
  toText_withElapsed : ∀ members e e', (toText (withElapsed members e)).isSome =
    (toText (withElapsed members e')).isSome

/-- The seven tools (transport/protocol.rs:17). -/
inductive Tool
  | listServers
  | listDatabases
  | describeSchema
  | sampleTable
  | explain
  | runQuery
  | getQueryHistory
  deriving DecidableEq

def Tool.name : Tool → String
  | .listServers => "list_servers"
  | .listDatabases => "list_databases"
  | .describeSchema => "describe_schema"
  | .sampleTable => "sample_table"
  | .explain => "explain"
  | .runQuery => "run_query"
  | .getQueryHistory => "get_query_history"

/-- The outcome codes of the tools: `success` and the error codes. -/
inductive OutcomeCode
  | success
  | forbidden
  | forbiddenSql
  | invalidArguments
  | invalidArgument
  | reasonRequired
  | timeout
  | syntaxError
  | unavailable
  | internal
  deriving DecidableEq

def OutcomeCode.text : OutcomeCode → String
  | .success => "success"
  | .forbidden => "forbidden"
  | .forbiddenSql => "forbidden_sql"
  | .invalidArguments => "invalid_arguments"
  | .invalidArgument => "invalid_argument"
  | .reasonRequired => "reason_required"
  | .timeout => "timeout"
  | .syntaxError => "syntax_error"
  | .unavailable => "unavailable"
  | .internal => "internal"

theorem OutcomeCode.text_ne_empty (code : OutcomeCode) : code.text ≠ "" := by
  cases code <;> decide

theorem OutcomeCode.text_ne_cancelled (code : OutcomeCode) : code.text ≠ "cancelled" := by
  cases code <;> decide

/-- `struct Outcome` (tools/audit_dispatch/types.rs:12). -/
structure Outcome where
  response : Response
  code : OutcomeCode
  elapsedMs : Option ℕ
  rowCount : Option ℕ
  truncated : Option Bool
  errorMessage : Option String

/-- `struct AuditHeader` (tools/audit_dispatch/types.rs:35). -/
structure AuditHeader where
  tool : Tool
  server : Option String := none
  database : Option String := none
  sql : Option String := none
  reason : Option String := none
  dbType : Option String := none
  deriving DecidableEq

/-- `struct RequestContext` (tools/audit_dispatch/types.rs:51). -/
structure RequestContext where
  ip : Option String := none
  agentClient : Option String := none
  requestId : String
  deriving DecidableEq

/-- `i64::try_from(n).unwrap_or(i64::MAX)`. -/
def toI64 (n : ℕ) : ℕ := min n (2 ^ 63 - 1)

section

variable (ext : Extern)

/-- `tool_error` (tools/audit_dispatch/outcome.rs:19). -/
def toolError (id : Json) (code : OutcomeCode) (message : String) : Response :=
  let body : Json := .obj [("request_id", id), ("code", .str code.text), ("message", .str message)]
  .ofResult id (CallToolResult.toValue { content := [ext.render body], isError := true })

/-- `tool_success` (tools/audit_dispatch/outcome.rs:35). -/
def toolSuccess (id : Json) (text : String) : Response :=
  .ofResult id (CallToolResult.toValue { content := [text], isError := false })

/-- `error_outcome` (tools/audit_dispatch/outcome.rs:51). -/
def errorOutcome (id : Json) (code : OutcomeCode) (message : String) : Outcome :=
  { response := toolError ext id code message, code, elapsedMs := none, rowCount := none,
    truncated := none, errorMessage := some message }

/-- `struct ToolErrorMessages` (tools/audit_dispatch/outcome.rs:68). -/
structure ToolErrorMessages where
  timeout : String
  sqlRejected : String
  forbiddenPrefix : String
  deriving DecidableEq

/-- The code and the message of an `ExecError`. -/
def execErrorMessage (err : ExecError) (messages : ToolErrorMessages) : OutcomeCode × String :=
  match err with
  | .timeout => (.timeout, messages.timeout)
  | .connection => (.unavailable, "target database is unreachable")
  | .unavailable => (.unavailable, "target database is unreachable")
  | .sql => (.syntaxError, messages.sqlRejected)
  | .forbidden reason => (.forbiddenSql, messages.forbiddenPrefix ++ " rejected by gateway: " ++ reason)
  | .passwordUnresolved _ _ => (.internal, "server-side configuration error")
  | .unsupportedAdapter _ => (.internal, "server-side configuration error")
  | .notImplemented _ _ => (.internal, "server-side configuration error")

/-- `outcome_from_exec_error` (tools/audit_dispatch/outcome.rs:91), `elapsed`
    being the milliseconds since `started`. -/
def outcomeFromExecError (id : Json) (err : ExecError) (elapsed : ℕ)
    (messages : ToolErrorMessages) : Outcome :=
  let (code, message) := execErrorMessage err messages
  { errorOutcome ext id code message with elapsedMs := some (toI64 elapsed) }

/-- `success_outcome` (tools/audit_dispatch/outcome.rs:121). -/
def successOutcome (id : Json) (text : String) (elapsedMs rowCount : Option ℕ)
    (truncated : Option Bool) : Outcome :=
  { response := toolSuccess id text, code := .success, elapsedMs, rowCount, truncated,
    errorMessage := none }

end

end DbMcpGateway.Tools
