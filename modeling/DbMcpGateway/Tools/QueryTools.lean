import DbMcpGateway.Tools.Common

/-!
# The tools that reach a target

`run_query`, `explain`, `sample_table` and `describe_schema` (tools/run_query.rs,
explain.rs, sample_table.rs, describe_schema.rs). Each decodes its arguments,
enters the audit chokepoint with a header of its own, and in its work looks up and
authorizes the target before anything else.

The first three authorize `query_read` and apply the reason check;
`describe_schema` authorizes `schema_read` and has neither a reason argument nor a
reason check.
-/

namespace DbMcpGateway.Tools

open Async Async.Prog Audit Authz Config Exec Transport

/-! ## `run_query` -/

namespace RunQuery

/-- `ERROR_MESSAGES` (tools/run_query.rs:27). -/
def errorMessages : ToolErrorMessages where
  timeout := "query exceeded the configured statement_timeout"
  sqlRejected := "the target DB rejected the SQL"
  forbiddenPrefix := "query"

/-- `DEFAULT_ROW_LIMIT` (tools/run_query.rs:35). -/
def defaultRowLimit : ℕ := 1000

/-- `struct Arguments` (tools/run_query.rs:38). -/
structure Arguments where
  server : String
  database : String
  sql : String
  limit : Option ℕ
  reason : Option String

def Arguments.fromValue (v : Json) : Option Arguments :=
  match v.fields ["server", "database", "sql", "limit", "reason"] with
  | some [server, database, sql, limit, reason] => do
    return { server := ← Json.string server, database := ← Json.string database
             sql := ← Json.string sql, limit := ← Json.optU32 limit
             reason := ← Json.optString reason }
  | _ => none

/-- `writes_allowed` (tools/run_query.rs:161): a separate `query_write` decision. -/
def writesAllowed (ctx : ToolContext) (dbGrants : List Grant) (server : Server)
    (database : Database) : Bool :=
  match evaluateEffective ctx.identity .queryWrite server.name database.name
    ctx.config.permissions dbGrants with
  | .allow _ => true
  | .deny => false

/-- `access` (tools/run_query.rs:172). -/
def access (ctx : ToolContext) (dbGrants : List Grant) (server : Server) (database : Database) :
    Access :=
  if writesAllowed ctx dbGrants server database then .readWrite else .readOnly

/-- `compute_outcome` (tools/run_query.rs:126). -/
def computeOutcome (ctx : ToolContext) (dbGrants : List Grant) (args : Arguments) :
    ToolProg Outcome :=
  withTarget ctx .queryRead dbGrants args.server args.database fun server database constraints =>
    let access := access ctx dbGrants server database
    withReason ctx constraints args.reason
      -- the guard parses SQL; the Mongo adapter has its own
      (match (if server.kind = .postgres then checkSql ctx.ext.parseSql args.sql access
        else .ok ()) with
      | .error err =>
        return failWith ctx .forbiddenSql ("SQL rejected by gateway: " ++ err.display)
      | .ok () => do
        let rowLimit := effectiveRowLimit defaultRowLimit args.limit constraints.rowLimit
        let timeoutMs := constraints.statementTimeoutMs
        call (.logDispatch ctx.requestCtx.requestId ctx.identity.userSub server.name database.name
          rowLimit timeoutMs)
        executeOn ctx errorMessages server database
          { sql := args.sql, binds := [], statementTimeoutMs := timeoutMs, rowLimit }
          (rowsOutcome ctx))

def header (config : ConfigFile) (args : Arguments) : AuditHeader where
  tool := .runQuery
  server := some args.server
  database := some args.database
  sql := some args.sql
  reason := args.reason
  dbType := dbTypeForServer config args.server

/-- `run` (tools/run_query.rs:57). -/
def run (ctx : ToolContext) (arguments : Option Json) : DispatchProg ToolResp Response :=
  match arguments.bind Arguments.fromValue with
  | none =>
    return invalidParams ctx "run_query requires `server`, `database`, `sql` arguments"
  | some args =>
    dispatchWithGrants ctx (header ctx.config args) fun dbGrants =>
      computeOutcome ctx dbGrants args

end RunQuery

/-! ## `explain` -/

namespace Explain

/-- `ERROR_MESSAGES` (tools/explain.rs:29). -/
def errorMessages : ToolErrorMessages where
  timeout := "EXPLAIN exceeded the configured statement_timeout"
  sqlRejected := "the target DB rejected the SQL"
  forbiddenPrefix := "EXPLAIN"

/-- `EXPLAIN_RESULT_CAP` (tools/explain.rs:36). -/
def explainResultCap : ℕ := 100

/-- `struct Arguments` (tools/explain.rs:39). -/
structure Arguments where
  server : String
  database : String
  sql : String
  reason : Option String

def Arguments.fromValue (v : Json) : Option Arguments :=
  match v.fields ["server", "database", "sql", "reason"] with
  | some [server, database, sql, reason] => do
    return { server := ← Json.string server, database := ← Json.string database
             sql := ← Json.string sql, reason := ← Json.optString reason }
  | _ => none

/-- `extract_plan` (tools/explain.rs:219). -/
def extractPlan (ext : Extern) (result : ExecResult) : Option Json :=
  match result.rows.head?.bind List.head? with
  | some (.str s) => ext.fromStr s
  | some (.arr items) => some (.arr items)
  | some (.obj members) => some (.obj members)
  | _ => none

def planOutcome (ctx : ToolContext) (result : ExecResult) : Outcome :=
  match extractPlan ctx.ext result with
  | none => failWith ctx .internal "EXPLAIN returned an unexpected row shape"
  | some plan =>
    succeedWith ctx (withElapsed [("plan", plan)] result.elapsedMs) (some (toI64 result.elapsedMs))
      (some 1) (some false)

/-- The text sent to the target. -/
def explainSql (sql : String) : String := "EXPLAIN (FORMAT JSON) " ++ sql

/-- `compute_outcome` (tools/explain.rs:119). -/
def computeOutcome (ctx : ToolContext) (dbGrants : List Grant) (args : Arguments) :
    ToolProg Outcome :=
  withTarget ctx .queryRead dbGrants args.server args.database fun server database constraints =>
    withReason ctx constraints args.reason
      (match isReadOnly ctx.ext.parseSql args.sql with
      | .error err =>
        return failWith ctx .forbiddenSql ("SQL rejected by gateway: " ++ err.display)
      | .ok () =>
        executeOn ctx errorMessages server database
          { sql := explainSql args.sql, binds := []
            statementTimeoutMs := constraints.statementTimeoutMs, rowLimit := explainResultCap }
          (planOutcome ctx))

/-- The header of the call: the text of the caller, not the one sent. -/
def header (config : ConfigFile) (args : Arguments) : AuditHeader where
  tool := .explain
  server := some args.server
  database := some args.database
  sql := some args.sql
  reason := args.reason
  dbType := dbTypeForServer config args.server

/-- `run` (tools/explain.rs:56). -/
def run (ctx : ToolContext) (arguments : Option Json) : DispatchProg ToolResp Response :=
  match arguments.bind Arguments.fromValue with
  | none => return invalidParams ctx "explain requires `server`, `database`, `sql` arguments"
  | some args =>
    dispatchWithGrants ctx (header ctx.config args) fun dbGrants =>
      computeOutcome ctx dbGrants args

end Explain

/-! ## `sample_table` -/

namespace SampleTable

/-- `ERROR_MESSAGES` (tools/sample_table.rs:28). -/
def errorMessages : ToolErrorMessages where
  timeout := "query exceeded the configured statement_timeout"
  sqlRejected := "the target DB rejected the SQL"
  forbiddenPrefix := "sample"

/-- `DEFAULT_SCHEMA` (tools/sample_table.rs:33). -/
def defaultSchema : String := "public"

/-- `DEFAULT_SAMPLE_LIMIT` (tools/sample_table.rs:37). -/
def defaultSampleLimit : ℕ := 10

/-- `struct Arguments` (tools/sample_table.rs:40). -/
structure Arguments where
  server : String
  database : String
  table : String
  schema : Option String
  limit : Option ℕ
  reason : Option String

def Arguments.fromValue (v : Json) : Option Arguments :=
  match v.fields ["server", "database", "table", "schema", "limit", "reason"] with
  | some [server, database, table, schema, limit, reason] => do
    return { server := ← Json.string server, database := ← Json.string database
             table := ← Json.string table, schema := ← Json.optString schema
             limit := ← Json.optU32 limit, reason := ← Json.optString reason }
  | _ => none

/-- `is_safe_identifier` (tools/sample_table.rs:224). -/
def isSafeIdentifier (s : String) : Bool :=
  match s.toList with
  | [] => false
  | first :: chars => (first.isAlpha || first == '_') && chars.all fun c => c.isAlphanum || c == '_'

/-- `invalid_identifier` (tools/sample_table.rs:235). -/
def invalidIdentifier (ctx : ToolContext) (field : String) : Outcome :=
  failWith ctx .invalidArgument ("`" ++ field ++ "` must match ^[A-Za-z_][A-Za-z0-9_]*$")

/-- `u32::saturating_add(1)`. -/
def saturatingSucc (n : ℕ) : ℕ := min (n + 1) (2 ^ 32 - 1)

/-- The text sent to the target. -/
def sampleSql (schema table : String) (sqlLimit : ℕ) : String :=
  "SELECT * FROM \"" ++ schema ++ "\".\"" ++ table ++ "\" LIMIT " ++ toString sqlLimit

/-- `compute_outcome` (tools/sample_table.rs:124). -/
def computeOutcome (ctx : ToolContext) (dbGrants : List Grant) (args : Arguments) :
    ToolProg Outcome :=
  withTarget ctx .queryRead dbGrants args.server args.database fun server database constraints =>
    withReason ctx constraints args.reason
      (let schema := args.schema.getD defaultSchema
      if !isSafeIdentifier schema then return invalidIdentifier ctx "schema"
      else if !isSafeIdentifier args.table then return invalidIdentifier ctx "table"
      else
        let rowLimit := effectiveRowLimit defaultSampleLimit args.limit constraints.rowLimit
        executeOn ctx errorMessages server database
          { sql := sampleSql schema args.table (saturatingSucc rowLimit), binds := []
            statementTimeoutMs := constraints.statementTimeoutMs, rowLimit }
          (rowsOutcome ctx))

def header (config : ConfigFile) (args : Arguments) : AuditHeader where
  tool := .sampleTable
  server := some args.server
  database := some args.database
  reason := args.reason
  dbType := dbTypeForServer config args.server

/-- `run` (tools/sample_table.rs:61). -/
def run (ctx : ToolContext) (arguments : Option Json) : DispatchProg ToolResp Response :=
  match arguments.bind Arguments.fromValue with
  | none =>
    return invalidParams ctx "sample_table requires `server`, `database`, `table` arguments"
  | some args =>
    dispatchWithGrants ctx (header ctx.config args) fun dbGrants =>
      computeOutcome ctx dbGrants args

end SampleTable

/-! ## `describe_schema` -/

namespace DescribeSchema

/-- `ERROR_MESSAGES` (tools/describe_schema.rs:29). -/
def errorMessages : ToolErrorMessages where
  timeout := "catalog query exceeded statement_timeout"
  sqlRejected := "catalog query was rejected"
  forbiddenPrefix := "catalog query"

/-- `DEFAULT_SCHEMA` (tools/describe_schema.rs:34). -/
def defaultSchema : String := "public"

/-- `MAX_CATALOG_ROWS` (tools/describe_schema.rs:39). -/
def maxCatalogRows : ℕ := 50000

/-- `struct Arguments` (tools/describe_schema.rs:42). -/
structure Arguments where
  server : String
  database : String
  schema : Option String
  table : Option String

def Arguments.fromValue (v : Json) : Option Arguments :=
  match v.fields ["server", "database", "schema", "table"] with
  | some [server, database, schema, table] => do
    return { server := ← Json.string server, database := ← Json.string database
             schema := ← Json.optString schema, table := ← Json.optString table }
  | _ => none

/-- `struct ColumnView` (tools/describe_schema.rs:52). -/
structure ColumnView where
  name : String
  dataType : String
  nullable : Bool
  deriving DecidableEq

/-- `struct TableView` (tools/describe_schema.rs:59). -/
structure TableView where
  schema : String
  name : String
  columns : List ColumnView
  deriving DecidableEq

def ColumnView.toValue (c : ColumnView) : Json :=
  .obj [("name", .str c.name), ("data_type", .str c.dataType), ("nullable", .bool c.nullable)]

def TableView.toValue (t : TableView) : Json :=
  .obj [("schema", .str t.schema), ("name", .str t.name),
    ("columns", .arr (t.columns.map ColumnView.toValue))]

/-- `build_catalog_query` (tools/describe_schema.rs:225). -/
def buildCatalogQuery (schema : String) (table : Option String) : String × List String :=
  let base := "SELECT table_schema, table_name, column_name, data_type, is_nullable " ++
    "FROM information_schema.columns WHERE table_schema = $1"
  let order := " ORDER BY table_name, ordinal_position"
  match table with
  | some table => (base ++ " AND table_name = $2" ++ order, [schema, table])
  | none => (base ++ order, [schema])

def catalogRow : List Json → Option (String × String × ColumnView)
  | .str schema :: .str table :: .str name :: .str dataType :: isNullable :: _ =>
    let nullable := match isNullable with
      | .str s => s == "YES"
      | _ => false
    some (schema, table, { name, dataType, nullable })
  | _ => none

/-- A column is added to the last table if it belongs to it, and to a new table
    otherwise. -/
def pushColumn (tables : List TableView) (schema name : String) (column : ColumnView) :
    List TableView :=
  match tables.getLast? with
  | some t =>
    if t.schema = schema ∧ t.name = name then
      tables.dropLast ++ [{ t with columns := t.columns ++ [column] }]
    else tables ++ [{ schema, name, columns := [column] }]
  | none => tables ++ [{ schema, name, columns := [column] }]

/-- `assemble_tables` (tools/describe_schema.rs:241). -/
def assembleTables (rows : List (List Json)) : Option (List TableView) :=
  rows.foldlM (fun tables row => do
    let (schema, name, column) ← catalogRow row
    return pushColumn tables schema name column) []

/-- The outcome of the catalog rows. -/
def tablesOutcome (ctx : ToolContext) (result : ExecResult) : Outcome :=
  match assembleTables result.rows with
  | none => failWith ctx .internal "catalog response shape changed unexpectedly"
  | some tables =>
    succeedWith ctx (.obj [("tables", .arr (tables.map TableView.toValue))])
      (some (toI64 result.elapsedMs)) (some (toI64 tables.length)) (some result.truncated)

/-- `compute_outcome` (tools/describe_schema.rs:130). -/
def computeOutcome (ctx : ToolContext) (dbGrants : List Grant) (args : Arguments) :
    ToolProg Outcome :=
  withTarget ctx .schemaRead dbGrants args.server args.database fun server database constraints =>
    let (sql, binds) := buildCatalogQuery (args.schema.getD defaultSchema) args.table
    executeOn ctx errorMessages server database
      { sql, binds, statementTimeoutMs := constraints.statementTimeoutMs
        rowLimit := maxCatalogRows }
      (tablesOutcome ctx)

def header (config : ConfigFile) (args : Arguments) : AuditHeader where
  tool := .describeSchema
  server := some args.server
  database := some args.database
  dbType := dbTypeForServer config args.server

/-- `run` (tools/describe_schema.rs:71). -/
def run (ctx : ToolContext) (arguments : Option Json) : DispatchProg ToolResp Response :=
  match arguments.bind Arguments.fromValue with
  | none => return invalidParams ctx "describe_schema requires `server` and `database`"
  | some args =>
    dispatchWithGrants ctx (header ctx.config args) fun dbGrants =>
      computeOutcome ctx dbGrants args

end DescribeSchema

end DbMcpGateway.Tools
