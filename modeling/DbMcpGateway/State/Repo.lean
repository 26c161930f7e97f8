import DbMcpGateway.State.PgSql

/-!
# The repository of permissions

`trait PermissionsRepo` (state/permissions/mod.rs:217): the operations, what they return,
and what a backend is. An operation is a transaction of its own; it gets the clock and the
id that a new row would have. `pgRepo` is the PostgreSQL backend, over the statements that
it has in common with the admin transactions.

Results:

* `pgRepo_wellFormed`: an operation keeps the store well formed.
-/

namespace DbMcpGateway.State

open Audit

/-! ## Operations -/

/-- `struct Page` (state/permissions/mod.rs:168). -/
structure Page where
  limit : ℕ
  offset : ℕ
  bounded : 1 ≤ limit ∧ limit ≤ 1000

/-- `Page::new` (state/permissions/mod.rs:184). -/
def Page.new (limit offset : Option ℕ) : Page where
  limit := max 1 (min (limit.getD 100) 1000)
  offset := offset.getD 0
  bounded := by omega

/-- `LIMIT … OFFSET …`. -/
def Page.window {α : Type} (page : Page) (rows : List α) : List α :=
  (rows.drop page.offset).take page.limit

/-- The operations of `PermissionsRepo`. -/
inductive RepoOp
  | upsertUser (userSub userEmail : String) (groups : List String)
  | getUserBySub (userSub : String)
  | getUser (id : Uuid)
  | listUsers (page : Page)
  | updateUser (id : Uuid) (userEmail : Option String) (groups : Option (List String))
  | softDeleteUser (id : Uuid)
  | createDatabase (server dbName : String) (dbType : DbType)
  | getDatabase (id : Uuid)
  | listDatabases (page : Page)
  | allLiveDatabases
  | updateDatabase (id : Uuid) (server dbName : Option String) (dbType : Option DbType)
  | softDeleteDatabase (id : Uuid)
  | createGrant (userId : Uuid) (target : GrantTarget) (action : GrantAction) (constraints : Json)
  | listGrantsForUser (userId : Uuid)
  | getGrant (id : Uuid)
  | listGrants (userId databaseId : Option Uuid) (page : Page)
  | updateGrant (id : Uuid) (action : Option GrantAction) (constraints : Option Json)
  | revokeGrant (id : Uuid)

/-- What an operation returns. -/
abbrev RepoOp.Resp : RepoOp → Type
  | .upsertUser _ _ _ => PermissionsUser
  | .getUserBySub _ => Option PermissionsUser
  | .getUser _ => Option PermissionsUser
  | .listUsers _ => List PermissionsUser
  | .updateUser _ _ _ => Option PermissionsUser
  | .softDeleteUser _ => Bool
  | .createDatabase _ _ _ => PermissionsDatabase
  | .getDatabase _ => Option PermissionsDatabase
  | .listDatabases _ => List PermissionsDatabase
  | .allLiveDatabases => List PermissionsDatabase
  | .updateDatabase _ _ _ _ => Option PermissionsDatabase
  | .softDeleteDatabase _ => Bool
  | .createGrant _ _ _ _ => PermissionsGrant
  | .listGrantsForUser _ => List PermissionsGrant
  | .getGrant _ => Option PermissionsGrant
  | .listGrants _ _ _ => List PermissionsGrant
  | .updateGrant _ _ _ => Option PermissionsGrant
  | .revokeGrant _ => Bool

structure PermissionsRepo where
  run : Timestamp → Uuid → Store → (op : RepoOp) → Except SqlxError op.Resp × Store

/-- A call of an operation, with the clock and the id of a new row. -/
structure RepoCall where
  op : RepoOp
  now : Timestamp
  fresh : Uuid

namespace PermissionsRepo

def step (repo : PermissionsRepo) (s : Store) (call : RepoCall) : Option Store :=
  some (repo.run call.now call.fresh s call.op).2

/-- What a sequence of calls returns; an error is only known as one, since its code
    belongs to the database. -/
def results (repo : PermissionsRepo) : Store → List RepoCall → List ((op : RepoOp) × Option op.Resp)
  | _, [] => []
  | s, call :: calls =>
    let (result, s') := repo.run call.now call.fresh s call.op
    ⟨call.op, result.toOption⟩ :: repo.results s' calls

end PermissionsRepo

/-! ## Lists -/

/-- `ORDER BY created_at, id`. -/
def byCreation {α : Type} (createdAt : α → Timestamp) (id : α → Uuid) (rows : List α) : List α :=
  rows.insertionSort fun a b =>
    createdAt a < createdAt b ∨ createdAt a = createdAt b ∧ id a ≤ id b

/-- `list_users` (pg.rs:115, mysql/users.rs:116). -/
def Store.listUsers (s : Store) (page : Page) : List PermissionsUser :=
  page.window (byCreation (·.createdAt) (·.id) (s.users.rows.filter PermissionsUser.live))

/-- `list_grants` (pg.rs:302, mysql/grants.rs:92): a filter that is absent selects all rows,
    and a wildcard grant has no database. -/
def Store.listGrants (s : Store) (userId databaseId : Option Uuid) (page : Page) :
    List PermissionsGrant :=
  page.window (byCreation (·.createdAt) (·.id) (s.grants.rows.filter fun g =>
    g.live && userId.all (fun id => g.userId = id) &&
      databaseId.all fun id => g.target = .specific id))

/-! ## PostgreSQL -/

/-- A statement as a transaction of its own. -/
def autocommit {α : Type} (s : Store) :
    Except SqlxError (α × List Write) → Except SqlxError α × Store
  | .error e => (.error e, s)
  | .ok (x, ws) => (.ok x, writes.applyAll s ws)

/-- `PgPermissionsRepo` (state/permissions/pg.rs:31), with the order of texts of its
    database. -/
def pgRepo (textLe : String → String → Bool) : PermissionsRepo where
  run now fresh s
    | .upsertUser userSub userEmail groups =>
      autocommit s (Stmt.run now fresh s (.upsertUser userSub userEmail groups))
    | .getUserBySub userSub => autocommit s (Stmt.run now fresh s (.getUserBySub userSub))
    | .getUser id => autocommit s (Stmt.run now fresh s (.getUserById id))
    | .listUsers page => (.ok (s.listUsers page), s)
    | .updateUser id userEmail groups =>
      autocommit s (Stmt.run now fresh s (.updateUser id userEmail groups))
    | .softDeleteUser id => autocommit s (Stmt.run now fresh s (.softDeleteUser id))
    | .createDatabase server dbName dbType =>
      autocommit s (Stmt.run now fresh s (.createDatabase server dbName dbType))
    | .getDatabase id => autocommit s (Stmt.run now fresh s (.getDatabaseById id))
    | .listDatabases page => (.ok (page.window (s.databasesByName textLe)), s)
    | .allLiveDatabases => (.ok (s.databasesByName textLe), s)
    | .updateDatabase id server dbName dbType =>
      autocommit s (Stmt.run now fresh s (.updateDatabase id server dbName dbType))
    | .softDeleteDatabase id => autocommit s (Stmt.run now fresh s (.softDeleteDatabase id))
    | .createGrant userId target action constraints =>
      autocommit s (Stmt.run now fresh s (.createGrant userId target action constraints))
    | .listGrantsForUser userId => (.ok (s.listGrantsForUser userId), s)
    | .getGrant id => autocommit s (Stmt.run now fresh s (.getGrantById id))
    | .listGrants userId databaseId page => (.ok (s.listGrants userId databaseId page), s)
    | .updateGrant id action constraints =>
      autocommit s (Stmt.run now fresh s (.updateGrant id action constraints))
    | .revokeGrant id => autocommit s (Stmt.run now fresh s (.revokeGrant id))

section

variable {s : Store} {now : Timestamp} {fresh : Uuid}

theorem autocommit_wellFormed (hs : s.WellFormed) (hfresh : s.Unused fresh) (st : Stmt) :
    (autocommit s (Stmt.run now fresh s st)).2.WellFormed := by
  cases hrun : Stmt.run now fresh s st with
  | error e => exact hs
  | ok result =>
    obtain ⟨x, ws⟩ := result
    have hdoes := Stmt.run_does hrun
    have hfits := hdoes.fits hs hfresh
    rcases hdoes.writes with rfl | ⟨w, rfl⟩
    · exact hs
    · exact Store.apply_wellFormed hs (hfits w (List.mem_singleton_self w))

/-- An operation with a new id keeps the store well formed. -/
theorem pgRepo_wellFormed {textLe : String → String → Bool} (hs : s.WellFormed)
    (hfresh : s.Unused fresh) (op : RepoOp) :
    ((pgRepo textLe).run now fresh s op).2.WellFormed := by
  cases op with
  | listUsers | listDatabases | allLiveDatabases | listGrantsForUser | listGrants => exact hs
  | _ => exact autocommit_wellFormed hs hfresh _

end

end DbMcpGateway.State
