import DbMcpGateway.Config.Schema
import DbMcpGateway.Data.Json

/-!
# The adapter contract

Queries, results and errors of a database adapter (exec/adapter.rs), and the
timeout policy every adapter applies.
-/

namespace DbMcpGateway.Exec

/-- `DEFAULT_STATEMENT_TIMEOUT_MS` (exec/adapter.rs:35). -/
def defaultStatementTimeoutMs : ℕ := 30000

/-- `effective_timeout_ms` (exec/adapter.rs:46). -/
def effectiveTimeoutMs (grant : Option ℕ) : ℕ :=
  min (grant.getD defaultStatementTimeoutMs) defaultStatementTimeoutMs

/-- `struct ExecQuery` (exec/adapter.rs:65). -/
structure ExecQuery where
  sql : String
  binds : List String
  statementTimeoutMs : Option ℕ
  rowLimit : ℕ

/-- `struct ExecResult` (exec/adapter.rs:76). -/
structure ExecResult where
  columns : List String
  rows : List (List Json)
  truncated : Bool
  elapsedMs : ℕ

/-- The contract of a row limit: the result holds the first `limit` rows of the
    whole result, in order, and its flag says whether that left any out. -/
structure Capped (limit : ℕ) (whole : List (List Json)) (result : ExecResult) : Prop where
  rows : result.rows = whole.take limit
  truncated : result.truncated = true ↔ limit < whole.length

/-- Reading one row beyond the limit is enough to tell. -/
theorem Capped.of_take {limit : ℕ} {whole : List (List Json)} {result}
    (h : Capped limit (whole.take (limit + 1)) result) : Capped limit whole result := by
  obtain ⟨hrows, hflag⟩ := h
  constructor
  · rw [hrows, List.take_take, Nat.min_eq_left (Nat.le_succ limit)]
  · rw [hflag, List.length_take]
    omega

/-- `enum AdapterKind` (exec/adapter.rs:56). -/
inductive AdapterKind
  | postgres
  | mongo
  deriving DecidableEq

/-- `enum ExecError` (exec/adapter.rs:88). -/
inductive ExecError
  | connection
  | unavailable
  | timeout
  | sql
  | forbidden (reason : String)
  | passwordUnresolved (kind reference : String)
  | unsupportedAdapter (kind : Config.ServerKind)
  | notImplemented (adapter : AdapterKind) (op : String)
  deriving DecidableEq

end DbMcpGateway.Exec
