import DbMcpGateway.Async.Prog
import DbMcpGateway.Exec.Adapter
import DbMcpGateway.Exec.SqlGuard

/-!
# The Postgres adapter

`run_query_inner` (exec/pg/mod.rs:172) and `cancel_and_rollback`
(exec/pg/truncate.rs:33) as one program over the requests they make of the
driver, and the target's side of the transaction as a state machine.

The reading loop stops at the first row beyond `row_limit`, so it makes at most
`row_limit + 1` requests and recurses on the room left.

A statement's effect is applied exactly when its transaction commits. On the
target a `COMMIT` of a transaction that an error has aborted is answered without
an error and rolls back.

Results:

* `runQueryInner_committed_iff`: on which targets an `Ok` answer means that the
  transaction was committed.
* `runOn_capped`: a call without an error returns the rows up to the limit.
-/

namespace DbMcpGateway.Exec.Pg

open Async Async.Prog

/-- The errors of the driver, as far as `classify` tells them apart. -/
inductive SqlxError
  | database (code : Option String)
  | poolTimedOut
  | io
  | other
  deriving DecidableEq

/-- `classify` (exec/pg/decode.rs:18). -/
def classify : SqlxError → ExecError
  | .database (some code) => if code = "57014" then .timeout else .sql
  | .database none => .sql
  | .poolTimedOut => .unavailable
  | .io => .unavailable
  | .other => .sql

/-- A row as the driver returns it: column names and decoded cells. -/
structure PgRow where
  columns : List String
  values : List Json

/-- What `run_query_inner` asks of the driver, the clock and its cancel guard. -/
inductive PgReq
  | begin
  | backendPid
  | armCancel (pid : ℤ)
  | setStatementTimeout (ms : ℕ)
  | fetch (sql : String) (binds : List String)
  | nextRow
  | describe (sql : String)
  | cancelBackend (pid : ℤ)
  | rollback
  | commit
  | elapsed
  | disarmCancel

/-- The replies. -/
abbrev PgResp : PgReq → Type
  | .begin => Except SqlxError Unit
  | .backendPid => Except SqlxError ℤ
  | .armCancel _ => Unit
  | .setStatementTimeout _ => Except SqlxError Unit
  | .fetch _ _ => Unit
  | .nextRow => Option (Except SqlxError PgRow)
  | .describe _ => Except SqlxError (List String)
  | .cancelBackend _ => Except SqlxError Unit
  | .rollback => Except SqlxError Unit
  | .commit => Except SqlxError Unit
  | .elapsed => ℕ
  | .disarmCancel => Unit

/-- A program of the adapter. -/
abbrev PgProg := Prog PgReq PgResp

/-- Await the reply of the driver. -/
abbrev driver (r : PgReq) : PgProg (PgResp r) := ask r

/-- `cancel_and_rollback` (exec/pg/truncate.rs:33): failures are only logged. -/
def cancelAndRollback (pid : ℤ) : PgProg Unit := do
  let _ ← driver (.cancelBackend pid)
  let _ ← driver .rollback
  return ()

/-- The reading loop (exec/pg/mod.rs:220) with room for `room` more rows. Returns
    the columns, the rows and whether a row was left over. -/
def fetchRows : (room : ℕ) → (columns : List String) → (rows : List (List Json)) →
    PgProg (Except ExecError (List String × List (List Json) × Bool))
  | room, columns, rows => do
    match ← driver .nextRow with
    | none => return .ok (columns, rows, false)
    | some (.error e) => return .error (classify e)
    | some (.ok row) =>
      let columns := if columns.isEmpty then row.columns else columns
      match room with
      | 0 => return .ok (columns, rows, true)
      | room + 1 => fetchRows room columns (rows ++ [row.values])

/-- The columns of a result: those of its first row, or else the described ones.
    A failed description is ignored (exec/pg/mod.rs:243). -/
def describeColumns (sql : String) (columns : List String) : PgProg (List String) :=
  if columns.isEmpty then do
    match ← driver (.describe sql) with
    | .ok described => return described
    | .error _ => return columns
  else return columns

/-- The end of the transaction (exec/pg/mod.rs:253). -/
def endTransaction (pid : ℤ) (truncated : Bool) : PgProg (Except ExecError Unit) :=
  if truncated then do
    cancelAndRollback pid
    return .ok ()
  else do
    match ← driver .commit with
    | .ok () => return .ok ()
    | .error e => return .error (classify e)

/-- What follows the reading loop (exec/pg/mod.rs:243). -/
def finish (sql : String) (pid : ℤ) (columns : List String) (rows : List (List Json))
    (truncated : Bool) : PgProg (Except ExecError ExecResult) := do
  let columns ← describeColumns sql columns
  match ← endTransaction pid truncated with
  | .error e => return .error e
  | .ok () =>
    let elapsedMs ← driver .elapsed
    return .ok { columns, rows, truncated, elapsedMs }

/-- The block that runs under the cancel guard (exec/pg/mod.rs:201). -/
def runStatement (query : ExecQuery) (pid : ℤ) : PgProg (Except ExecError ExecResult) := do
  match ← driver (.setStatementTimeout (effectiveTimeoutMs query.statementTimeoutMs)) with
  | .error e => return .error (classify e)
  | .ok () =>
    driver (.fetch query.sql query.binds)
    match ← fetchRows query.rowLimit [] [] with
    | .error e => return .error e
    | .ok (columns, rows, truncated) => finish query.sql pid columns rows truncated

/-- `run_query_inner` (exec/pg/mod.rs:172). -/
def runQueryInner (query : ExecQuery) : PgProg (Except ExecError ExecResult) := do
  match ← driver .begin with
  | .error _ => return .error .unavailable
  | .ok () =>
    match ← driver .backendPid with
    | .error e => return .error (classify e)
    | .ok pid =>
      driver (.armCancel pid)
      let result ← runStatement query pid
      driver .disarmCancel
      return result

/-! ## The target -/

/-- The status of the transaction on the target. -/
inductive TxStatus
  | idle
  | active
  | aborted
  | committed
  | rolledBack
  deriving DecidableEq

/-- How a target behaves during one call: its replies, the rows it delivers for
    the statement and the error (if any) that ends them, whether a failed
    `Describe` aborts the transaction, and whether a `COMMIT` whose answer was
    lost took effect. -/
structure PgTarget where
  begin : Except SqlxError Unit
  pid : Except SqlxError ℤ
  setTimeout : Except SqlxError Unit
  rows : List PgRow
  rowError : Option SqlxError
  describe : Except SqlxError (List String)
  describeAborts : Bool
  cancel : Except SqlxError Unit
  rollback : Except SqlxError Unit
  commit : Except SqlxError Unit
  commitLost : Bool
  elapsedMs : ℕ

/-- The target during a call: its transaction and the rows not yet read. -/
structure PgState where
  tx : TxStatus
  pending : List PgRow

/-- Before the call. -/
def PgState.start : PgState := ⟨.idle, []⟩

/-- The status after a `COMMIT`. An aborted transaction is rolled back, and the
    answer does not say so. -/
def commitStatus (t : PgTarget) : TxStatus → TxStatus
  | .active =>
    match t.commit with
    | .ok () => .committed
    | .error _ => if t.commitLost then .committed else .rolledBack
  | _ => .rolledBack

/-- The target's reply to each request and its next state. -/
def server (t : PgTarget) : (r : PgReq) → PgState → PgResp r × PgState
  | .begin, s =>
    match t.begin with
    | .ok () => (.ok (), { s with tx := .active })
    | .error e => (.error e, s)
  | .backendPid, s =>
    match t.pid with
    | .ok pid => (.ok pid, s)
    | .error e => (.error e, { s with tx := .aborted })
  | .armCancel _, s => ((), s)
  | .setStatementTimeout _, s =>
    match t.setTimeout with
    | .ok () => (.ok (), s)
    | .error e => (.error e, { s with tx := .aborted })
  | .fetch _ _, s => ((), { s with pending := t.rows })
  | .nextRow, s =>
    match s.pending with
    | row :: rest => (some (.ok row), { s with pending := rest })
    | [] =>
      match t.rowError with
      | some e => (some (.error e), { s with tx := .aborted })
      | none => (none, s)
  | .describe _, s =>
    match t.describe with
    | .ok columns => (.ok columns, s)
    | .error e => (.error e, if t.describeAborts then { s with tx := .aborted } else s)
  | .cancelBackend _, s => (t.cancel, { s with tx := .aborted })
  | .rollback, s => (t.rollback, { s with tx := .rolledBack })
  | .commit, s => (t.commit, { s with tx := commitStatus t s.tx })
  | .elapsed, s => (t.elapsedMs, s)
  | .disarmCancel, s => ((), s)

/-- One call of `run_query_inner` on a target: the answer and the final state. -/
def runOn (t : PgTarget) (query : ExecQuery) : Except ExecError ExecResult × PgState :=
  Prog.run (server t) (runQueryInner query) .start

/-! ## The run in closed form -/

/-- The columns the reading loop has after some rows. -/
def columnsAfter (columns : List String) (rows : List PgRow) : List String :=
  rows.foldl (fun c row => if c.isEmpty then row.columns else c) columns

theorem columnsAfter_isEmpty (columns : List String) (rows : List PgRow) :
    (columnsAfter columns rows).isEmpty = true ↔
      columns = [] ∧ ∀ row ∈ rows, row.columns = [] := by
  induction rows generalizing columns with
  | nil => simp [columnsAfter]
  | cons row rows ih =>
    rw [columnsAfter, List.foldl_cons, ← columnsAfter, ih, List.forall_mem_cons]
    cases columns with
    | nil => simp
    | cons c cs => simp

/-- The reading loop: it returns all rows if there is room for them and no error
    ends them, and stops at the first row beyond the limit otherwise. -/
theorem run_fetchRows (t : PgTarget) (pending : List PgRow) (room : ℕ) (columns : List String)
    (rows : List (List Json)) (tx : TxStatus) :
    Prog.run (server t) (fetchRows room columns rows) ⟨tx, pending⟩ =
      if pending.length ≤ room then
        match t.rowError with
        | none => (.ok (columnsAfter columns pending, rows ++ pending.map (·.values), false), ⟨tx, []⟩)
        | some e => (.error (classify e), ⟨.aborted, []⟩)
      else
        (.ok (columnsAfter columns (pending.take (room + 1)),
          rows ++ (pending.take room).map (·.values), true), ⟨tx, pending.drop (room + 1)⟩) := by
  induction pending generalizing room columns rows with
  | nil =>
    rw [fetchRows]
    cases h : t.rowError <;> simp [server, h, columnsAfter]
  | cons row pending ih =>
    rw [fetchRows]
    cases room with
    | zero => simp [server, columnsAfter]
    | succ room =>
      simp only [ask_bind, run_await, server, List.length_cons, Nat.add_le_add_iff_right]
      rw [ih]
      simp [columnsAfter]

/-- A failed `Describe` that aborts the transaction. -/
def DescribeAborts (t : PgTarget) : Prop := (∃ e, t.describe = .error e) ∧ t.describeAborts = true

instance (t : PgTarget) : Decidable (DescribeAborts t) :=
  match h : t.describe with
  | .ok _ => isFalse fun ⟨⟨_, he⟩, _⟩ => by rw [h] at he; cases he
  | .error e => decidable_of_iff (t.describeAborts = true) ⟨fun ha => ⟨⟨e, h⟩, ha⟩, And.right⟩

/-- Asking for the columns aborts the transaction if there are none yet and the
    description fails on the target. -/
theorem run_describeColumns (t : PgTarget) (sql : String) (columns : List String)
    (pending : List PgRow) :
    ∃ columns', Prog.run (server t) (describeColumns sql columns) ⟨.active, pending⟩ =
      (columns', ⟨if columns = [] ∧ DescribeAborts t then .aborted else .active, pending⟩) := by
  cases columns with
  | cons c cs => exact ⟨c :: cs, by simp [describeColumns]⟩
  | nil =>
    cases h : t.describe with
    | ok described =>
      exact ⟨described, by simp [describeColumns, server, h, DescribeAborts]⟩
    | error e =>
      refine ⟨[], ?_⟩
      cases ha : t.describeAborts <;> simp [describeColumns, server, h, ha, DescribeAborts]

/-- After a truncated read the transaction is rolled back and the answer is `Ok`. -/
theorem run_finish_truncated (t : PgTarget) (sql : String) (pid : ℤ) (columns : List String)
    (rows : List (List Json)) (pending : List PgRow) :
    (∃ result, (Prog.run (server t) (finish sql pid columns rows true) ⟨.active, pending⟩).1 =
        .ok result) ∧
      (Prog.run (server t) (finish sql pid columns rows true) ⟨.active, pending⟩).2.tx =
        .rolledBack := by
  obtain ⟨columns', h⟩ := run_describeColumns t sql columns pending
  simp [finish, run_bind, h, endTransaction, cancelAndRollback, server]

/-- After a complete read the answer is `Ok` exactly when the `COMMIT` was
    answered without an error. -/
theorem run_finish_complete (t : PgTarget) (sql : String) (pid : ℤ) (columns : List String)
    (rows : List (List Json)) (pending : List PgRow) :
    ((∃ result, (Prog.run (server t) (finish sql pid columns rows false) ⟨.active, pending⟩).1 =
        .ok result) ↔ t.commit = .ok ()) ∧
      (Prog.run (server t) (finish sql pid columns rows false) ⟨.active, pending⟩).2.tx =
        commitStatus t (if columns = [] ∧ DescribeAborts t then .aborted else .active) := by
  obtain ⟨columns', h⟩ := run_describeColumns t sql columns pending
  cases hc : t.commit <;> simp [finish, run_bind, h, endTransaction, server, hc]

/-- The statement is sent: `BEGIN`, the PID query and `SET LOCAL` succeed. -/
structure Reached (t : PgTarget) : Prop where
  begin : t.begin = .ok ()
  pid : ∃ pid, t.pid = .ok pid
  setTimeout : t.setTimeout = .ok ()

theorem runOn_not_reached {t : PgTarget} (query : ExecQuery) (h : ¬ Reached t) :
    ∃ e, (runOn t query).1 = .error e := by
  cases hb : t.begin with
  | error e => exact ⟨.unavailable, by simp [runOn, runQueryInner, server, hb]⟩
  | ok u =>
    cases hp : t.pid with
    | error e => exact ⟨classify e, by simp [runOn, runQueryInner, server, hb, hp]⟩
    | ok pid =>
      cases hs : t.setTimeout with
      | error e =>
        exact ⟨classify e, by simp [runOn, runQueryInner, runStatement, server, hb, hp, hs]⟩
      | ok v => exact absurd ⟨hb, ⟨pid, hp⟩, hs⟩ h

/-- The run of a sent statement: the reading loop, then what follows it. -/
theorem runOn_reached {t : PgTarget} (query : ExecQuery) (h : Reached t) :
    ∃ pid, runOn t query =
      if t.rows.length ≤ query.rowLimit then
        match t.rowError with
        | none => Prog.run (server t) (finish query.sql pid (columnsAfter [] t.rows)
            (t.rows.map (·.values)) false) ⟨.active, []⟩
        | some e => (.error (classify e), ⟨.aborted, []⟩)
      else
        Prog.run (server t) (finish query.sql pid
          (columnsAfter [] (t.rows.take (query.rowLimit + 1)))
          ((t.rows.take query.rowLimit).map (·.values)) true)
          ⟨.active, t.rows.drop (query.rowLimit + 1)⟩ := by
  obtain ⟨hb, ⟨pid, hp⟩, hs⟩ := h
  refine ⟨pid, ?_⟩
  simp only [runOn, runQueryInner, runStatement, ask_bind, run_await, server, hb, hp, hs, run_bind,
    run_fetchRows, PgState.start]
  split_ifs with hlen
  · cases t.rowError <;> simp
  · simp

/-- More rows than the limit: `Ok`, and rolled back. -/
theorem runOn_truncated {t : PgTarget} {query : ExecQuery} (h : Reached t)
    (hlen : query.rowLimit < t.rows.length) :
    (∃ result, (runOn t query).1 = .ok result) ∧ (runOn t query).2.tx = .rolledBack := by
  obtain ⟨pid, hrun⟩ := runOn_reached query h
  rw [hrun, if_neg (by omega)]
  exact run_finish_truncated t _ _ _ _ _

/-- An `Ok` answer from this target means a committed transaction: the statement
    is never sent, or the rows fit into the limit and no ignored failure of the
    description has aborted the transaction under an answered `COMMIT`. -/
def AnswersTruthfully (t : PgTarget) (rowLimit : ℕ) : Prop :=
  Reached t → t.rows.length ≤ rowLimit ∧
    ¬ (t.rowError = none ∧ (∀ row ∈ t.rows, row.columns = []) ∧ DescribeAborts t ∧
      t.commit = .ok ())

/-- **When an answered statement was committed.** For every statement text, row
    limit, timeout and target, `run_query_inner` answers `Ok` only after a commit
    exactly on the targets that answer truthfully. -/
theorem runQueryInner_committed_iff (t : PgTarget) (query : ExecQuery) :
    (∀ result, (runOn t query).1 = .ok result → (runOn t query).2.tx = .committed) ↔
      AnswersTruthfully t query.rowLimit := by
  by_cases hr : Reached t
  swap
  · obtain ⟨e, he⟩ := runOn_not_reached query hr
    simp [he, AnswersTruthfully, hr]
  obtain ⟨pid, hrun⟩ := runOn_reached query hr
  rw [hrun, AnswersTruthfully, forall_prop_of_true hr]
  split_ifs with hlen
  · cases hrow : t.rowError with
    | some e => simp [hlen]
    | none =>
      obtain ⟨hok, htx⟩ := run_finish_complete t query.sql pid (columnsAfter [] t.rows)
        (t.rows.map (·.values)) []
      have hempty : columnsAfter [] t.rows = [] ↔ ∀ row ∈ t.rows, row.columns = [] := by
        simpa using columnsAfter_isEmpty [] t.rows
      dsimp only
      rw [← exists_imp, hok, htx]
      simp only [hlen, hempty, true_and, not_and]
      constructor
      · intro hcommit hcolumns hdescribe hanswer
        have hstatus := hcommit hanswer
        rw [if_pos ⟨hcolumns, hdescribe⟩] at hstatus
        cases hstatus
      · intro hno hanswer
        rw [if_neg fun h => hno h.1 h.2 hanswer]
        simp [commitStatus, hanswer]
  · obtain ⟨⟨result, hresult⟩, htx⟩ := @runOn_truncated t query hr (by omega)
    rw [hrun, if_neg hlen] at hresult htx
    constructor
    · intro hall
      have hcommitted := hall result hresult
      rw [htx] at hcommitted
      cases hcommitted
    · rintro ⟨hle, -⟩
      exact absurd hle hlen

/-- A write that returns two rows, sent with a row limit of one. -/
def returningInsert : ExecQuery where
  sql := "INSERT INTO t VALUES (1), (2) RETURNING id"
  binds := []
  statementTimeoutMs := none
  rowLimit := 1

/-- A target that executes it without any failure. -/
def healthyTarget : PgTarget where
  begin := .ok ()
  pid := .ok 7
  setTimeout := .ok ()
  rows := [⟨["id"], [.int 1]⟩, ⟨["id"], [.int 2]⟩]
  rowError := none
  describe := .ok ["id"]
  describeAborts := false
  cancel := .ok ()
  rollback := .ok ()
  commit := .ok ()
  commitLost := false
  elapsedMs := 3

/-- A truncated write is answered `Ok` and rolled back: the guard accepts the
    `INSERT`, the target fails nowhere, and the caller gets its first row. -/
theorem runQueryInner_truncated_write :
    ∃ (parseSql : ParseSql) (s : Sql.Statement),
      parseSql returningInsert.sql = .ok [s] ∧ IsDataWrite (core s) ∧
      checkSql parseSql returningInsert.sql .readWrite = .ok () ∧
      (∃ result, (runOn healthyTarget returningInsert).1 = .ok result) ∧
      (runOn healthyTarget returningInsert).2.tx = .rolledBack :=
  ⟨fun _ => .ok [.insert none []], .insert none [], rfl, trivial, rfl,
    runOn_truncated ⟨rfl, ⟨7, rfl⟩, rfl⟩ (by decide)⟩

/-! ## The row limit -/

/-- No step of the call fails on the target. -/
structure ErrorFree (t : PgTarget) : Prop where
  reached : Reached t
  rowError : t.rowError = none
  commit : t.commit = .ok ()

/-- What follows the reading loop passes the rows and the flag on. -/
theorem run_finish_rows {t : PgTarget} {sql : String} {pid : ℤ} {columns rows} {truncated : Bool}
    {s : PgState} {result : ExecResult}
    (h : (Prog.run (server t) (finish sql pid columns rows truncated) s).1 = .ok result) :
    result.rows = rows ∧ result.truncated = truncated := by
  simp only [finish, run_bind] at h
  split at h
  · simp at h
  · simp only [run_await, ask_bind, run_ret, pure_eq] at h
    have hresult := Except.ok.inj h
    rw [← hresult]
    exact ⟨rfl, rfl⟩

/-- **The reading loop implements the row limit.** A call without an error is
    answered with the first `row_limit` rows, and is flagged iff there are more. -/
theorem runOn_capped {t : PgTarget} (query : ExecQuery) (h : ErrorFree t) :
    ∃ result, (runOn t query).1 = .ok result ∧
      Capped query.rowLimit (t.rows.map (·.values)) result := by
  obtain ⟨pid, hrun⟩ := runOn_reached query h.reached
  rw [hrun, h.rowError]
  split_ifs with hlen
  · -- all rows fit: the read is complete and the transaction commits
    obtain ⟨result, hresult⟩ := (run_finish_complete t query.sql pid (columnsAfter [] t.rows)
      (t.rows.map (·.values)) []).1.mpr h.commit
    obtain ⟨hrows, hflag⟩ := run_finish_rows hresult
    refine ⟨result, hresult, ?_, ?_⟩
    · rw [hrows, List.take_of_length_le (by simpa using hlen)]
    · rw [hflag, List.length_map]
      simpa using hlen
  · -- a row is left over: the rows before it are kept
    obtain ⟨result, hresult⟩ := (run_finish_truncated t query.sql pid
      (columnsAfter [] (t.rows.take (query.rowLimit + 1)))
      ((t.rows.take query.rowLimit).map (·.values)) (t.rows.drop (query.rowLimit + 1))).1
    obtain ⟨hrows, hflag⟩ := run_finish_rows hresult
    refine ⟨result, hresult, ?_, ?_⟩
    · rw [hrows, List.map_take]
    · rw [hflag, List.length_map]
      simpa using hlen

end DbMcpGateway.Exec.Pg
