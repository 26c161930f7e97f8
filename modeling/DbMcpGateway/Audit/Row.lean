import DbMcpGateway.Authz.Effective

/-!
# Audit rows

One row of `audit_calls` (audit/mod.rs), the errors of the writer, and the table
under `INSERT ... ON CONFLICT (id) DO NOTHING`.

Results:

* `rowsOf_insertRow`: an insert adds its row iff the table has no row of that id.
-/

namespace DbMcpGateway.Audit

abbrev Uuid := BitVec 128

/-- `struct AuditRow` (audit/mod.rs:42). -/
structure AuditRow where
  id : Uuid
  requestId : String
  userSub : String
  userEmail : String
  groups : List String
  tool : String
  server : Option String
  database : Option String
  sql : Option String
  reason : Option String
  outcome : String
  elapsedMs : Option ℕ
  rowCount : Option ℕ
  truncated : Option Bool
  errorMessage : Option String
  agentClient : Option String
  ip : Option String
  dbType : Option String
  deriving DecidableEq

/-- `enum AuditError` (audit/mod.rs:90). -/
inductive AuditError
  | write
  | timeout
  deriving DecidableEq

/-- `struct HistoryEntry` (audit/mod.rs:204). -/
structure HistoryEntry where
  requestId : String
  sql : Option String
  reason : Option String
  occurredAt : String
  elapsedMs : Option ℕ
  rowCount : Option ℕ
  outcome : String
  deriving DecidableEq

/-! ## The table -/

/-- The effect of the statement of `insert_row` (audit/mod.rs:108) on the table:
    `INSERT INTO audit_calls ... ON CONFLICT (id) DO NOTHING`. -/
def insertRow (table : List AuditRow) (row : AuditRow) : List AuditRow :=
  if row.id ∈ table.map (·.id) then table else table ++ [row]

/-- The rows of one id. -/
def rowsOf (id : Uuid) (table : List AuditRow) : List AuditRow := table.filter fun r => r.id = id

variable {id : Uuid} {table : List AuditRow} {row : AuditRow}

theorem mem_rowsOf :
    row ∈ rowsOf id table ↔ row ∈ table ∧ row.id = id := by
  simp [rowsOf]

theorem rowsOf_eq_nil :
    rowsOf id table = [] ↔ id ∉ table.map (·.id) := by
  simp [rowsOf, List.filter_eq_nil_iff]

theorem rowsOf_insertRow_of_ne (h : row.id ≠ id) :
    rowsOf id (insertRow table row) = rowsOf id table := by
  unfold insertRow
  split_ifs
  · rfl
  · simp [rowsOf, h]

/-- Inserting a row of `id` adds it if there is none, and changes nothing if
    there is one. -/
theorem rowsOf_insertRow :
    rowsOf row.id (insertRow table row) =
      if rowsOf row.id table = [] then [row] else rowsOf row.id table := by
  unfold insertRow
  by_cases h : row.id ∈ table.map (·.id)
  · have hne : rowsOf row.id table ≠ [] := by
      rw [Ne, rowsOf_eq_nil, not_not]
      exact h
    rw [if_pos h, if_neg hne]
  · have hnil : rowsOf row.id table = [] := rowsOf_eq_nil.mpr h
    rw [if_neg h, if_pos hnil, rowsOf, List.filter_append]
    rw [rowsOf] at hnil
    simp [hnil]

end DbMcpGateway.Audit
