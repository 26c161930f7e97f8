import DbMcpGateway.Data.Checks
import DbMcpGateway.Exec.SqlAst

/-!
# The SQL guard

`check_sql` (exec/sql_guard.rs): parse, unwrap the `EXPLAIN`s, check the shape of
the statement under them, and walk it with a visitor. The parser is a parameter,
a function from texts to statement lists.

The walk carries the flag `top_seen`; after the top statement it is `true` for
good. `visitSetExpr_guard` is the heart of the matter: the visitor has no
callback for a `SELECT`, so an `INTO` is found by a second recursion from each
query's body, and the two recursions together visit every node of the body.

Results:

* `checkSql_accepts`: the exact language `check_sql` accepts at both access
  levels, and how the two levels compare.
-/

namespace DbMcpGateway.Exec

open Sql Text Checks

/-- `enum Access` (exec/sql_guard.rs:52). -/
inductive Access
  | readOnly
  | readWrite
  deriving DecidableEq

/-- `enum GuardError` (exec/sql_guard.rs:58). -/
inductive GuardError
  | parse
  | multiStatement (n : ℕ)
  | notAllowed (kind : String)
  | locking
  | writeInReadPath (kind : String)
  | selectInto
  | explainAnalyze
  | deniedFunction (name : String)
  deriving DecidableEq

/-- The `Display` text of a `GuardError`. -/
def GuardError.display : GuardError → String
  | .parse => "could not parse SQL"
  | .multiStatement n => "multiple statements are not allowed (got " ++ toString n ++ ")"
  | .notAllowed kind =>
    "statement type `" ++ kind ++ "` is not allowed; only SELECT and EXPLAIN"
  | .locking => "SELECT ... FOR UPDATE/SHARE is not allowed (acquires write locks)"
  | .writeInReadPath kind =>
    "write statement `" ++ kind ++ "` is not allowed inside a read-only query"
  | .selectInto => "SELECT ... INTO is not allowed (it materializes a table)"
  | .explainAnalyze => "EXPLAIN ANALYZE is not allowed (it executes the query)"
  | .deniedFunction name =>
    "function `" ++ name ++ "` is not allowed (high-privilege server-side function)"

/-- `enum ParserError` of the parser. -/
inductive ParserError
  | parserError (message : String)
  | tokenizerError (message : String)
  | recursionLimitExceeded
  deriving DecidableEq

/-- `Parser::parse_sql` for the Postgres dialect. -/
abbrev ParseSql := String → Except ParserError (List Statement)

/-- `DENIED_FUNCTIONS` (exec/sql_guard.rs:91). -/
def deniedFunctions : List String :=
  ["pg_read_file", "pg_read_binary_file", "pg_ls_dir", "pg_stat_file", "lo_export", "lo_import"]

/-- `check_denied_name` (exec/sql_guard.rs:330). -/
def checkDeniedName (name : ObjectName) : Except GuardError Unit :=
  let lookup (fnName : String) : Except GuardError Unit :=
    match deniedFunctions.find? fun d => eqIgnoreAsciiCase d fnName with
    | some denied => .error (.deniedFunction denied)
    | none => .ok ()
  match name.getLast? with
  | none => lookup ""
  | some (.identifier value) => lookup value
  | some .function => .error (.notAllowed "computed function name")

/-- `body_has_select_into` (exec/sql_guard.rs:317). -/
def bodyHasSelectInto : SetExpr → Bool
  | .select s => s.into.isSome
  | .setOperation left right => bodyHasSelectInto left || bodyHasSelectInto right
  | _ => false

/-- `GuardVisitor` (exec/sql_guard.rs:243); the state is `top_seen`. -/
def guardVisitor : Visitor Bool GuardError where
  preVisitStatement stmt topSeen :=
    if !topSeen then .ok true
    else match stmt with
      | .insert _ _ => .error (.writeInReadPath "INSERT")
      | .update _ => .error (.writeInReadPath "UPDATE")
      | .delete _ => .error (.writeInReadPath "DELETE")
      | _ => .error (.notAllowed "nested statement")
  preVisitQuery q topSeen :=
    if !q.locks.isEmpty then .error .locking
    else if bodyHasSelectInto q.body then .error .selectInto
    else .ok topSeen
  preVisitExpr expr topSeen :=
    match expr with
    | .function name _ => do checkDeniedName name; .ok topSeen
    | .other _ => .ok topSeen
  preVisitTableFactor tf topSeen :=
    match tf with
    | .table name _ => do checkDeniedName name; .ok topSeen
    | .function name _ => do checkDeniedName name; .ok topSeen
    | .other _ => .ok topSeen

/-- `check_on_insert` (exec/sql_guard.rs:201). -/
def checkOnInsert : Option OnInsert → Except GuardError Unit
  | none => .ok ()
  | some .duplicateKeyUpdate => .ok ()
  | some .onConflict => .ok ()
  | some .other => .error (.notAllowed "unsupported ON clause")

/-- The label of a rejected statement kind in `check_statement_shape`. -/
def otherStatementLabel : OtherStatement → String
  | .truncate => "TRUNCATE"
  | .drop => "DROP"
  | .createTable => "CREATE TABLE"
  | .createView => "CREATE VIEW"
  | .createIndex => "CREATE INDEX"
  | .createSchema => "CREATE SCHEMA"
  | .createDatabase => "CREATE DATABASE"
  | .createFunction => "CREATE FUNCTION"
  | .createRole => "CREATE ROLE"
  | .alterTable => "ALTER TABLE"
  | .grant => "GRANT"
  | .revoke => "REVOKE"
  | .startTransaction => "BEGIN/START"
  | .commit => "COMMIT"
  | .rollback => "ROLLBACK"
  | .setTransaction => "SET TRANSACTION"
  | .set => "SET"
  | .copy => "COPY"
  | .unsupported => "unsupported"

/-- `check_statement_shape` (exec/sql_guard.rs:152). -/
def checkStatementShape (stmt : Statement) (access : Access) : Except GuardError Unit :=
  match stmt with
  | .insert on _ =>
    if access = .readWrite then checkOnInsert on else .error (.notAllowed "INSERT")
  | .update _ => if access = .readWrite then .ok () else .error (.notAllowed "UPDATE")
  | .delete _ => if access = .readWrite then .ok () else .error (.notAllowed "DELETE")
  | .query _ => .ok ()
  | .explainTable _ => .ok ()
  | .other kind _ => .error (.notAllowed (otherStatementLabel kind))
  | .explain _ _ _ => .error (.notAllowed "unsupported")

/-- `explain_analyzes` (exec/sql_guard.rs:219). -/
def explainAnalyzes (analyze : Bool) (options : Option (List UtilityOption)) : Bool :=
  analyze || options.any fun opts => opts.any fun opt => eqIgnoreAsciiCase opt.name "analyze"

/-- The loop of `check_sql` that unwraps `EXPLAIN`s (exec/sql_guard.rs:127). -/
def unwrapExplains : Statement → Except GuardError Statement
  | .explain analyze options statement =>
    if explainAnalyzes analyze options then .error .explainAnalyze
    else unwrapExplains statement
  | stmt => .ok stmt

/-- `check_sql` (exec/sql_guard.rs:109). -/
def checkSql (parseSql : ParseSql) (sql : String) (access : Access) : Except GuardError Unit :=
  match parseSql sql with
  | .error _ => .error .parse
  | .ok [] => .error .parse
  | .ok [statement] => do
    let stmt ← unwrapExplains statement
    checkStatementShape stmt access
    let _ ← visitStatement guardVisitor stmt false
    .ok ()
  | .ok statements => .error (.multiStatement statements.length)

/-- `is_read_only` (exec/sql_guard.rs:102). -/
def isReadOnly (parseSql : ParseSql) (sql : String) : Except GuardError Unit :=
  checkSql parseSql sql .readOnly

/-! ## What the visitor refuses -/

/-- The last part of `name` is computed, or is a denied function up to ASCII case. -/
def DeniedName (name : ObjectName) : Prop :=
  name.getLast? = some .function ∨
    ∃ value, name.getLast? = some (.identifier value) ∧
      ∃ d ∈ deniedFunctions, eqIgnoreAsciiCase d value = true

/-- The nodes that may not occur below the top statement. -/
def Forbidden : Tree → Prop
  | .statement _ => True
  | .query q => q.locks ≠ []
  | .setExpr _ => False
  | .select s => s.into ≠ none
  | .expr (.function name _) => DeniedName name
  | .expr (.other _) => False
  | .tableFactor (.table name _) => DeniedName name
  | .tableFactor (.function name _) => DeniedName name
  | .tableFactor (.other _) => False

/-- Neither `t` nor any node below it is forbidden. -/
def Clean (t : Tree) : Prop := Everywhere (fun t => ¬ Forbidden t) t

theorem clean_iff {t : Tree} : Clean t ↔ ¬ Forbidden t ∧ ∀ c ∈ t.children, Clean c :=
  everywhere_iff

theorem checkDeniedName_ok {name} : checkDeniedName name = .ok () ↔ ¬ DeniedName name := by
  have hfind : ∀ fnName, (match deniedFunctions.find? fun d => eqIgnoreAsciiCase d fnName with
      | some denied => Except.error (GuardError.deniedFunction denied)
      | none => .ok ()) = .ok () ↔
        ¬ ∃ d ∈ deniedFunctions, eqIgnoreAsciiCase d fnName = true := by
    intro fnName
    cases h : deniedFunctions.find? fun d => eqIgnoreAsciiCase d fnName with
    | none => simpa using List.find?_eq_none.mp h
    | some d =>
      have hd := List.find?_some h
      simpa using ⟨d, List.mem_of_find?_eq_some h, hd⟩
  rw [checkDeniedName, DeniedName]
  cases h : name.getLast? with
  | none =>
    -- the empty name equals no denied function
    simp only [hfind, reduceCtorEq, false_and, exists_false, or_self, not_false_eq_true, iff_true]
    decide
  | some part =>
    cases part with
    | identifier value => simp [hfind]
    | function => simp

/-- A step of the walk that passes exactly when `P` holds, leaving the flag set. -/
theorem bind_walk {x} {P : Prop} (hx : ∀ b, x = .ok b ↔ b = true ∧ P)
    {f : Bool → Except GuardError Bool} {b : Bool} :
    (x >>= f) = .ok b ↔ P ∧ f true = .ok b := by
  rw [bind_eq_ok]
  constructor
  · rintro ⟨a, ha, hf⟩
    obtain ⟨rfl, hP⟩ := (hx a).mp ha
    exact ⟨hP, hf⟩
  · rintro ⟨hP, hf⟩
    exact ⟨true, (hx true).mpr ⟨rfl, hP⟩, hf⟩

theorem ok_true_iff {b : Bool} : (Except.ok true : Except GuardError Bool) = .ok b ↔ b = true := by
  simp [eq_comm]

theorem checkName_iff (name : ObjectName) (b : Bool) :
    (do checkDeniedName name; .ok true : Except GuardError Bool) = .ok b ↔
      b = true ∧ ¬ DeniedName name := by
  rw [seq_eq_ok, checkDeniedName_ok, ok_true_iff, and_comm]

theorem preVisitExpr_iff (e : Expr) (b : Bool) :
    guardVisitor.preVisitExpr e true = .ok b ↔ b = true ∧ ¬ Forbidden (.expr e) := by
  cases e with
  | function name ns => exact checkName_iff name b
  | other ns => exact ok_true_iff.trans (and_iff_left id).symm

theorem preVisitTableFactor_iff (t : TableFactor) (b : Bool) :
    guardVisitor.preVisitTableFactor t true = .ok b ↔ b = true ∧ ¬ Forbidden (.tableFactor t) := by
  cases t with
  | table name ns | function name ns => exact checkName_iff name b
  | other ns => exact ok_true_iff.trans (and_iff_left id).symm

theorem preVisitQuery_iff {q : Query} (b : Bool) :
    guardVisitor.preVisitQuery q true = .ok b ↔
      b = true ∧ q.locks = [] ∧ bodyHasSelectInto q.body = false := by
  simp only [guardVisitor]
  cases q.locks <;> cases bodyHasSelectInto q.body <;> simp [eq_comm]

/-- Below the top level every statement is refused. -/
theorem visitStatement_nested (s : Statement) (b : Bool) :
    visitStatement guardVisitor s true ≠ .ok b := by
  cases s <;> simp [visitStatement, guardVisitor, bind, Except.bind]

theorem not_clean_statement (s : Statement) : ¬ Clean (.statement s) :=
  fun h => h.1 trivial

mutual

theorem visitQuery_guard : ∀ (q : Query) (b : Bool),
    visitQuery guardVisitor q true = .ok b ↔ b = true ∧ Clean (.query q)
  | .mk locks ctes body rest, b => by
    have hbody := visitSetExpr_guard body
    rw [visitQuery, bind_walk preVisitQuery_iff, bind_walk (visitList_guard ctes), clean_iff]
    simp only [Forbidden, Tree.children, Query.locks, Query.body, List.forall_mem_append,
      List.forall_mem_cons, List.forall_mem_map, not_not]
    by_cases hinto : bodyHasSelectInto body = false
    · have hwalk : ∀ b, visitSetExpr guardVisitor body true = .ok b ↔
          b = true ∧ Clean (.setExpr body) :=
        fun b => (and_iff_right hinto).symm.trans (hbody b)
      rw [bind_walk hwalk, visitList_guard rest b]
      tauto
    · -- a body with an `INTO` is not clean
      have hclean : ¬ Clean (.setExpr body) := fun h => hinto ((hbody true).mpr ⟨rfl, h⟩).1
      tauto

/-- The visitor's walk of a body and the search for `INTO` in it together reach
    every node of the body. -/
theorem visitSetExpr_guard : ∀ (e : SetExpr) (b : Bool),
    (bodyHasSelectInto e = false ∧ visitSetExpr guardVisitor e true = .ok b) ↔
      b = true ∧ Clean (.setExpr e)
  | .select (.mk into ns), b => by
    rw [visitSetExpr, visitSelect, visitList_guard ns b, clean_iff]
    simp only [Forbidden, Tree.children, List.forall_mem_singleton, not_false_eq_true, true_and]
    rw [clean_iff]
    simp only [Forbidden, Tree.children, List.forall_mem_map, not_not, bodyHasSelectInto,
      Select.into, Option.isSome_eq_false_iff, Option.isNone_iff_eq_none]
    tauto
  | .query q, b => by
    have hclean : Clean (.setExpr (.query q)) ↔ Clean (.query q) := by
      rw [clean_iff]
      simp only [Forbidden, Tree.children, List.forall_mem_singleton, not_false_eq_true, true_and]
    rw [visitSetExpr, visitQuery_guard q b, hclean]
    simp [bodyHasSelectInto]
  | .setOperation left right, b => by
    have hleft := visitSetExpr_guard left
    have hright := visitSetExpr_guard right b
    rw [visitSetExpr, clean_iff]
    simp only [Forbidden, Tree.children, List.forall_mem_cons, not_false_eq_true, true_and,
      bodyHasSelectInto, Bool.or_eq_false_iff]
    by_cases hinto : bodyHasSelectInto left = false
    · have hwalk : ∀ b, visitSetExpr guardVisitor left true = .ok b ↔
          b = true ∧ Clean (.setExpr left) :=
        fun b => (and_iff_right hinto).symm.trans (hleft b)
      rw [bind_walk hwalk]
      tauto
    · have hclean : ¬ Clean (.setExpr left) := fun h => hinto ((hleft true).mpr ⟨rfl, h⟩).1
      tauto
  | .values ns, b => by
    rw [visitSetExpr, visitList_guard ns b, clean_iff]
    simp [Forbidden, Tree.children, bodyHasSelectInto]
  | .statement s, b => by
    rw [visitSetExpr, clean_iff]
    simp [Forbidden, Tree.children, visitStatement_nested, not_clean_statement]
  | .table, b => by
    rw [visitSetExpr, clean_iff, ok_true_iff]
    simp [Forbidden, Tree.children, bodyHasSelectInto]

theorem visitExpr_guard : ∀ (e : Expr) (b : Bool),
    visitExpr guardVisitor e true = .ok b ↔ b = true ∧ Clean (.expr e)
  | .function name ns, b => by
    rw [visitExpr, bind_walk (preVisitExpr_iff _), visitList_guard ns b, clean_iff]
    simp only [Tree.children, List.forall_mem_map]
    tauto
  | .other ns, b => by
    rw [visitExpr, bind_walk (preVisitExpr_iff _), visitList_guard ns b, clean_iff]
    simp only [Tree.children, List.forall_mem_map]
    tauto

theorem visitTableFactor_guard : ∀ (t : TableFactor) (b : Bool),
    visitTableFactor guardVisitor t true = .ok b ↔ b = true ∧ Clean (.tableFactor t)
  | .table name ns, b => by
    rw [visitTableFactor, bind_walk (preVisitTableFactor_iff _), visitList_guard ns b, clean_iff]
    simp only [Tree.children, List.forall_mem_map]
    tauto
  | .function name ns, b => by
    rw [visitTableFactor, bind_walk (preVisitTableFactor_iff _), visitList_guard ns b, clean_iff]
    simp only [Tree.children, List.forall_mem_map]
    tauto
  | .other ns, b => by
    rw [visitTableFactor, bind_walk (preVisitTableFactor_iff _), visitList_guard ns b, clean_iff]
    simp only [Tree.children, List.forall_mem_map]
    tauto

theorem visitNode_guard : ∀ (n : Node) (b : Bool),
    visitNode guardVisitor n true = .ok b ↔ b = true ∧ Clean n.tree
  | .statement s, b => by
    rw [visitNode]
    simp [Node.tree, visitStatement_nested, not_clean_statement]
  | .query q, b => visitQuery_guard q b
  | .expr e, b => visitExpr_guard e b
  | .tableFactor t, b => visitTableFactor_guard t b

theorem visitList_guard : ∀ (ns : List Node) (b : Bool),
    visitList guardVisitor ns true = .ok b ↔ b = true ∧ ∀ n ∈ ns, Clean n.tree
  | [], b => by
    rw [visitList, ok_true_iff]
    simp
  | n :: ns, b => by
    rw [visitList, bind_walk (visitNode_guard n), visitList_guard ns b, List.forall_mem_cons]
    tauto

end

theorem visitStatement_top (s : Statement) (hs : ∀ analyze options s', s ≠ .explain analyze options s')
    (b : Bool) :
    visitStatement guardVisitor s false = .ok b ↔
      b = true ∧ ∀ n, Below (.statement s) n → ¬ Forbidden n := by
  have hpre : ∀ s : Statement, guardVisitor.preVisitStatement s false = .ok true := fun _ => rfl
  rw [forall_below_iff]
  cases s with
  | explain analyze options s' => exact absurd rfl (hs analyze options s')
  | query q =>
    rw [visitStatement, hpre]
    simp only [Tree.children, List.forall_mem_singleton]
    exact visitQuery_guard q b
  | insert _ ns | update ns | delete ns | explainTable ns | other _ ns =>
    rw [visitStatement, hpre]
    simp only [Tree.children, List.forall_mem_map]
    exact visitList_guard ns b

/-! ## The accepted language -/

/-- The statement under the chain of `EXPLAIN` wrappers. -/
def core : Statement → Statement
  | .explain _ _ s => core s
  | s => s

/-- The wrappers of a statement, outermost first. -/
def wrappers : Statement → List (Bool × Option (List UtilityOption))
  | .explain analyze options s => (analyze, options) :: wrappers s
  | _ => []

/-- A wrapper that carries `ANALYZE`, as a keyword or as an option name. -/
def Analyzes (w : Bool × Option (List UtilityOption)) : Prop :=
  w.1 = true ∨ ∃ opts, w.2 = some opts ∧ ∃ opt ∈ opts, eqIgnoreAsciiCase opt.name "analyze" = true

def IsDataWrite : Statement → Prop
  | .insert _ _ => True
  | .update _ => True
  | .delete _ => True
  | _ => False

def Admitted (access : Access) : Statement → Prop
  | .query _ => True
  | .explainTable _ => True
  | .insert on _ =>
    access = .readWrite ∧ (on = none ∨ on = some .duplicateKeyUpdate ∨ on = some .onConflict)
  | .update _ => access = .readWrite
  | .delete _ => access = .readWrite
  | _ => False

/-- A text is accepted at an access level: one statement, no analysing wrapper,
    an admitted statement under the wrappers, nothing forbidden below it. -/
def Accepted (parseSql : ParseSql) (sql : String) (access : Access) : Prop :=
  ∃ s, parseSql sql = .ok [s] ∧ (∀ w ∈ wrappers s, ¬ Analyzes w) ∧ Admitted access (core s) ∧
    ∀ n, Below (.statement (core s)) n → ¬ Forbidden n

theorem explainAnalyzes_iff {analyze : Bool} {options} :
    explainAnalyzes analyze options = true ↔ Analyzes (analyze, options) := by
  cases options <;> simp [explainAnalyzes, Analyzes]

theorem unwrapExplains_ok : ∀ (s s' : Statement),
    unwrapExplains s = .ok s' ↔ s' = core s ∧ ∀ w ∈ wrappers s, ¬ Analyzes w
  | .explain analyze options s, s' => by
    have ih := unwrapExplains_ok s s'
    rw [unwrapExplains, core, wrappers, List.forall_mem_cons, ← explainAnalyzes_iff]
    cases explainAnalyzes analyze options with
    | true => simp
    | false => simpa using ih
  | .insert _ _, s' => by simp [unwrapExplains, core, wrappers, eq_comm]
  | .update _, s' => by simp [unwrapExplains, core, wrappers, eq_comm]
  | .delete _, s' => by simp [unwrapExplains, core, wrappers, eq_comm]
  | .query _, s' => by simp [unwrapExplains, core, wrappers, eq_comm]
  | .explainTable _, s' => by simp [unwrapExplains, core, wrappers, eq_comm]
  | .other _ _, s' => by simp [unwrapExplains, core, wrappers, eq_comm]

theorem core_ne_explain : ∀ (s : Statement) (analyze : Bool) (options : Option (List UtilityOption))
    (s' : Statement), core s ≠ .explain analyze options s'
  | .explain _ _ s, analyze, options, s' => core_ne_explain s analyze options s'
  | .insert _ _, _, _, _ => by simp [core]
  | .update _, _, _, _ => by simp [core]
  | .delete _, _, _, _ => by simp [core]
  | .query _, _, _, _ => by simp [core]
  | .explainTable _, _, _, _ => by simp [core]
  | .other _ _, _, _, _ => by simp [core]

variable {s : Statement} {access : Access}

theorem checkStatementShape_ok :
    checkStatementShape s access = .ok () ↔ Admitted access s := by
  cases s with
  | insert on ns =>
    cases access <;> rcases on with _ | _ | _ | _ <;>
      simp [checkStatementShape, Admitted, checkOnInsert]
  | update ns | delete ns => cases access <;> simp [checkStatementShape, Admitted]
  | query q | explainTable ns | other kind ns | explain analyze options s =>
    simp [checkStatementShape, Admitted]

theorem checkSql_single {parseSql : ParseSql} {sql : String} (h : parseSql sql = .ok [s]) :
    checkSql parseSql sql access = .ok () ↔
      (∀ w ∈ wrappers s, ¬ Analyzes w) ∧ Admitted access (core s) ∧
        ∀ n, Below (.statement (core s)) n → ¬ Forbidden n := by
  simp only [checkSql, h, bind_eq_ok, unwrapExplains_ok]
  constructor
  · rintro ⟨s', ⟨rfl, hw⟩, u, hshape, b, hb, -⟩
    exact ⟨hw, checkStatementShape_ok.mp hshape,
      ((visitStatement_top _ (core_ne_explain s) b).mp hb).2⟩
  · rintro ⟨hw, hadm, hbelow⟩
    exact ⟨_, ⟨rfl, hw⟩, (), checkStatementShape_ok.mpr hadm, true,
      (visitStatement_top _ (core_ne_explain s) true).mpr ⟨rfl, hbelow⟩, trivial⟩

/-- `check_sql` accepts exactly the accepted language. -/
theorem checkSql_iff (parseSql : ParseSql) (sql : String) (access : Access) :
    checkSql parseSql sql access = .ok () ↔ Accepted parseSql sql access := by
  constructor
  · intro hok
    match h : parseSql sql with
    | .error e => simp [checkSql, h] at hok
    | .ok [] => simp [checkSql, h] at hok
    | .ok [s] => exact ⟨s, h, (checkSql_single h).mp hok⟩
    | .ok (s :: s' :: rest) => simp [checkSql, h] at hok
  · rintro ⟨s, h, hs⟩
    exact (checkSql_single h).mpr hs

theorem admitted_mono (h : Admitted .readOnly s) : Admitted .readWrite s := by
  cases s <;> simp_all [Admitted]

theorem admitted_readWrite_only (hrw : Admitted .readWrite s) (hro : ¬ Admitted .readOnly s) :
    IsDataWrite s := by
  cases s <;> simp_all [Admitted, IsDataWrite]

theorem Admitted.readWrite (h : Admitted access s) (hwrite : IsDataWrite s) :
    access = .readWrite := by
  cases s <;> simp_all [Admitted, IsDataWrite]

/-- **The language of the SQL guard.** `check_sql` accepts exactly the accepted
    texts at each level; every text accepted read-only is accepted read-write, and
    every text only read-write accepts has a data write under its wrappers. -/
theorem checkSql_accepts (parseSql : ParseSql) :
    (∀ sql access, checkSql parseSql sql access = .ok () ↔ Accepted parseSql sql access) ∧
      (∀ sql, checkSql parseSql sql .readOnly = .ok () →
        checkSql parseSql sql .readWrite = .ok ()) ∧
      ∀ sql, checkSql parseSql sql .readWrite = .ok () →
        checkSql parseSql sql .readOnly ≠ .ok () →
        ∃ s, parseSql sql = .ok [s] ∧ IsDataWrite (core s) := by
  refine ⟨checkSql_iff parseSql, fun sql h => ?_, fun sql hrw hro => ?_⟩
  · rw [checkSql_iff] at *
    obtain ⟨s, hs, hw, hadm, hbelow⟩ := h
    exact ⟨s, hs, hw, admitted_mono hadm, hbelow⟩
  · rw [checkSql_iff] at hrw
    obtain ⟨s, hs, hw, hadm, hbelow⟩ := hrw
    refine ⟨s, hs, admitted_readWrite_only hadm fun hadm' => hro ?_⟩
    exact (checkSql_single hs).mpr ⟨hw, hadm', hbelow⟩

end DbMcpGateway.Exec
