import Mathlib.Data.List.Sort
import DbMcpGateway.State.Permissions

/-!
# The SQL of the permissions store

The statements of `PgPermissionsRepo` (state/permissions/pg.rs) and of the admin
transactions (transport/admin/users/tx.rs, databases/sql.rs, grants/sql.rs,
middleware.rs), which are the same, as functions of the store they read. A statement
that writes gets `now()`, which is the start of its transaction, and the id that
`gen_random_uuid()` would give a new row.

PostgreSQL refuses U+0000 in TEXT and JSONB. `ORDER BY created_at` leaves the order of
equal instants open; here it is the order of insertion.

Results:

* `Stmt.run_does`: what each statement can return and write.
* `Stmt.Does.fits`: a statement writes only what fits the store it reads.
-/

namespace DbMcpGateway.State

open Audit

/-- `sqlx::Error`, as far as its callers tell errors apart: the SQLSTATE and the
    constraint of a database error. -/
inductive SqlxError
  | database (code constraint : Option String)
  | other
  deriving DecidableEq

/-! ## Users -/

/-- `get_user_by_sub` (pg.rs:61), `tx_get_user_by_sub` (users/tx.rs:8). -/
def Store.getUserBySub (s : Store) (sub : String) : Option PermissionsUser :=
  s.users.rows.find? fun u => u.live && u.userSub = sub

/-- `get_user` (pg.rs:73), `tx_get_user_by_id` (users/tx.rs:23). -/
def Store.getUser (s : Store) (id : Uuid) : Option PermissionsUser :=
  (s.users.get id).filter PermissionsUser.live

/-- `upsert_user` (pg.rs:32), `tx_upsert_user` (users/tx.rs:38): `ON CONFLICT` applies to
    a live row only. -/
def Store.upsertUser (s : Store) (now : Timestamp) (fresh : Uuid) (sub email : String)
    (groups : List String) : PermissionsUser × Write :=
  match s.getUserBySub sub with
  | some u =>
    let new := { u with userEmail := email, groups, updatedAt := now }
    (new, .user (some u) new)
  | none =>
    let new : PermissionsUser :=
      { id := fresh, userSub := sub, userEmail := email, groups, createdAt := now, updatedAt := now
        deletedAt := none }
    (new, .user none new)

/-- `update_user` (pg.rs:85), `tx_update_user` (users/tx.rs:62). -/
def Store.updateUser (s : Store) (now : Timestamp) (id : Uuid) (email : Option String)
    (groups : Option (List String)) : Option (PermissionsUser × Write) :=
  (s.getUser id).map fun u =>
    let new := { u with
      userEmail := email.getD u.userEmail, groups := groups.getD u.groups, updatedAt := now }
    (new, .user (some u) new)

/-- `soft_delete_user` (pg.rs:133), `tx_soft_delete_user` (users/tx.rs:88). -/
def Store.softDeleteUser (s : Store) (now : Timestamp) (id : Uuid) : Option Write :=
  (s.getUser id).map fun u => .user (some u) { u with deletedAt := some now }

/-- `tx_user_sub_for_id` (grants/sql.rs:102): deleted rows count too. -/
def Store.userSubForId (s : Store) (id : Uuid) : Option String :=
  (s.users.get id).map (·.userSub)

/-! ## Databases -/

/-- `get_database` (pg.rs:163), `tx_get_database_by_id` (databases/sql.rs:33). -/
def Store.getDatabase (s : Store) (id : Uuid) : Option PermissionsDatabase :=
  (s.databases.get id).filter PermissionsDatabase.live

/-- The live row of a pair. -/
def Store.databaseOf (s : Store) (server dbName : String) : Option PermissionsDatabase :=
  s.databases.rows.find? fun d => d.live && d.server = server && d.dbName = dbName

/-- A violation of `permissions_databases_server_db_name_live_idx`. -/
def duplicatePair : SqlxError :=
  .database (some "23505") (some "permissions_databases_server_db_name_live_idx")

/-- `create_database` (pg.rs:144), `tx_create_database` (databases/sql.rs:14). -/
def Store.createDatabase (s : Store) (now : Timestamp) (fresh : Uuid) (server dbName : String)
    (dbType : DbType) : Except SqlxError (PermissionsDatabase × Write) :=
  match s.databaseOf server dbName with
  | some _ => .error duplicatePair
  | none =>
    let new : PermissionsDatabase :=
      { id := fresh, server, dbName, dbType, createdAt := now, updatedAt := now, deletedAt := none }
    .ok (new, .database none new)

/-- `update_database` (pg.rs:204), `tx_update_database` (databases/sql.rs:48). -/
def Store.updateDatabase (s : Store) (now : Timestamp) (id : Uuid) (server dbName : Option String)
    (dbType : Option DbType) : Except SqlxError (Option (PermissionsDatabase × Write)) :=
  match s.getDatabase id with
  | none => .ok none
  | some d =>
    let new := { d with
      server := server.getD d.server, dbName := dbName.getD d.dbName
      dbType := dbType.getD d.dbType, updatedAt := now }
    match s.databaseOf new.server new.dbName with
    | some other =>
      if other.id = id then .ok (some (new, .database (some d) new)) else .error duplicatePair
    | none => .ok (some (new, .database (some d) new))

/-- `soft_delete_database` (pg.rs:229), `tx_soft_delete_database` (databases/sql.rs:73). -/
def Store.softDeleteDatabase (s : Store) (now : Timestamp) (id : Uuid) : Option Write :=
  (s.getDatabase id).map fun d => .database (some d) { d with deletedAt := some now }

/-- The live rows by `ORDER BY server, db_name` under an order of texts. -/
def Store.databasesByName (s : Store) (textLe : String → String → Bool) :
    List PermissionsDatabase :=
  (s.databases.rows.filter PermissionsDatabase.live).insertionSort fun d d' =>
    (if d.server = d'.server then textLe d.dbName d'.dbName else textLe d.server d'.server) = true

/-- `all_live_databases` (pg.rs:192), with the order of code points. -/
def Store.allLiveDatabases (s : Store) : List PermissionsDatabase :=
  s.databasesByName fun a b => decide (a ≤ b)

/-! ## Grants -/

/-- `get_grant` (pg.rs:289), `tx_get_grant_by_id` (grants/sql.rs:44). -/
def Store.getGrant (s : Store) (id : Uuid) : Option PermissionsGrant :=
  (s.grants.get id).filter PermissionsGrant.live

/-- The foreign key of a grant that has no row, if there is one. -/
def Store.missingReference (s : Store) (userId : Uuid) (target : GrantTarget) : Option String :=
  if (s.users.get userId).isNone then some "permissions_grants_user_id_fkey"
  else match target with
    | .specific databaseId =>
      if (s.databases.get databaseId).isNone then some "permissions_grants_database_id_fkey"
      else none
    | .wildcard _ => none

/-- `create_grant` (pg.rs:240), `tx_create_grant` (grants/sql.rs:15). The foreign keys ask for a
    row, deleted or not. -/
def Store.createGrant (s : Store) (now : Timestamp) (fresh userId : Uuid) (target : GrantTarget)
    (action : GrantAction) (constraints : Json) : Except SqlxError (PermissionsGrant × Write) :=
  match s.missingReference userId target with
  | some constraint => .error (.database (some "23503") (some constraint))
  | none =>
    let new : PermissionsGrant :=
      { id := fresh, userId, target, action, constraints, createdAt := now, updatedAt := now
        revokedAt := none }
    .ok (new, .grant none new)

/-- `update_grant` (pg.rs:331), `tx_update_grant` (grants/sql.rs:60). -/
def Store.updateGrant (s : Store) (now : Timestamp) (id : Uuid) (action : Option GrantAction)
    (constraints : Option Json) : Option (PermissionsGrant × Write) :=
  (s.getGrant id).map fun g =>
    let new := { g with
      action := action.getD g.action, constraints := constraints.getD g.constraints
      updatedAt := now }
    (new, .grant (some g) new)

/-- `revoke_grant` (pg.rs:354), `tx_revoke_grant` (grants/sql.rs:83). -/
def Store.revokeGrant (s : Store) (now : Timestamp) (id : Uuid) : Option Write :=
  (s.getGrant id).map fun g => .grant (some g) { g with revokedAt := some now }

/-- `list_grants_for_user` (pg.rs:272). -/
def Store.listGrantsForUser (s : Store) (userId : Uuid) : List PermissionsGrant :=
  (s.grants.rows.filter fun g => g.live && g.userId = userId).insertionSort fun g g' =>
    g.createdAt ≤ g'.createdAt

/-! ## The statements of a transaction -/

/-- A statement of an admin transaction. -/
inductive Stmt
  | getUserBySub (sub : String)
  | getUserById (id : Uuid)
  | upsertUser (sub email : String) (groups : List String)
  | updateUser (id : Uuid) (email : Option String) (groups : Option (List String))
  | softDeleteUser (id : Uuid)
  /-- `tx_upsert_actor` (middleware.rs:207). -/
  | upsertActor (sub email : String) (groups : List String)
  | createDatabase (server dbName : String) (dbType : DbType)
  | getDatabaseById (id : Uuid)
  | updateDatabase (id : Uuid) (server dbName : Option String) (dbType : Option DbType)
  | softDeleteDatabase (id : Uuid)
  | createGrant (userId : Uuid) (target : GrantTarget) (action : GrantAction) (constraints : Json)
  | getGrantById (id : Uuid)
  | updateGrant (id : Uuid) (action : Option GrantAction) (constraints : Option Json)
  | revokeGrant (id : Uuid)
  | userSubForId (id : Uuid)
  /-- `permissions::log` (audit/permissions.rs:126). -/
  | log (row : PermissionsAuditRow)

/-- What a statement returns. -/
abbrev Stmt.Resp : Stmt → Type
  | .getUserBySub _ => Option PermissionsUser
  | .getUserById _ => Option PermissionsUser
  | .upsertUser _ _ _ => PermissionsUser
  | .updateUser _ _ _ => Option PermissionsUser
  | .softDeleteUser _ => Bool
  | .upsertActor _ _ _ => Uuid
  | .createDatabase _ _ _ => PermissionsDatabase
  | .getDatabaseById _ => Option PermissionsDatabase
  | .updateDatabase _ _ _ _ => Option PermissionsDatabase
  | .softDeleteDatabase _ => Bool
  | .createGrant _ _ _ _ => PermissionsGrant
  | .getGrantById _ => Option PermissionsGrant
  | .updateGrant _ _ _ => Option PermissionsGrant
  | .revokeGrant _ => Bool
  | .userSubForId _ => Option String
  | .log _ => Unit

/-- The texts a statement sends, alone or inside of JSON. -/
def Stmt.hasNul : Stmt → Bool
  | .getUserBySub sub => Text.hasNul sub
  | .upsertUser sub email groups => (sub :: email :: groups).any Text.hasNul
  | .updateUser _ email groups => (email.toList ++ groups.getD []).any Text.hasNul
  | .upsertActor sub email groups => (sub :: email :: groups).any Text.hasNul
  | .createDatabase server dbName _ => [server, dbName].any Text.hasNul
  | .updateDatabase _ server dbName _ => (server.toList ++ dbName.toList).any Text.hasNul
  | .createGrant _ (.wildcard server) _ constraints => Text.hasNul server || constraints.hasNul
  | .createGrant _ (.specific _) _ constraints => constraints.hasNul
  | .updateGrant _ _ constraints => (constraints.toList).any Json.hasNul
  | .log row => Text.hasNul row.actorEmail || Text.hasNul row.requestId
  | _ => false

/-- The result of an update or a deletion of at most one row, with its write. -/
def rowsAffected : Option Write → Bool × List Write
  | none => (false, [])
  | some w => (true, [w])

def updated {α : Type} : Option (α × Write) → Option α × List Write
  | none => (none, [])
  | some (row, w) => (some row, [w])

/-- The statement on the store it sees, if its texts can be stored. -/
def Stmt.effect (now : Timestamp) (fresh : Uuid) (s : Store) :
    (st : Stmt) → Except SqlxError (st.Resp × List Write)
  | .getUserBySub sub => .ok (s.getUserBySub sub, [])
  | .getUserById id => .ok (s.getUser id, [])
  | .upsertUser sub email groups =>
    let (user, w) := s.upsertUser now fresh sub email groups
    .ok (user, [w])
  | .updateUser id email groups => .ok (updated (s.updateUser now id email groups))
  | .softDeleteUser id => .ok (rowsAffected (s.softDeleteUser now id))
  | .upsertActor sub email groups =>
    let (user, w) := s.upsertUser now fresh sub email groups
    .ok (user.id, [w])
  | .createDatabase server dbName dbType =>
    match s.createDatabase now fresh server dbName dbType with
    | .error e => .error e
    | .ok (database, w) => .ok (database, [w])
  | .getDatabaseById id => .ok (s.getDatabase id, [])
  | .updateDatabase id server dbName dbType =>
    match s.updateDatabase now id server dbName dbType with
    | .error e => .error e
    | .ok result => .ok (updated result)
  | .softDeleteDatabase id => .ok (rowsAffected (s.softDeleteDatabase now id))
  | .createGrant userId target action constraints =>
    match s.createGrant now fresh userId target action constraints with
    | .error e => .error e
    | .ok (grant, w) => .ok (grant, [w])
  | .getGrantById id => .ok (s.getGrant id, [])
  | .updateGrant id action constraints => .ok (updated (s.updateGrant now id action constraints))
  | .revokeGrant id => .ok (rowsAffected (s.revokeGrant now id))
  | .userSubForId id => .ok (s.userSubForId id, [])
  | .log row =>
    if row.checked then .ok ((), [.audit row]) else .error (.database (some "23514") none)

/-- The statement on the store it sees. -/
def Stmt.run (now : Timestamp) (fresh : Uuid) (s : Store) (st : Stmt) :
    Except SqlxError (st.Resp × List Write) :=
  if st.hasNul then .error (.database (some "22021") none) else st.effect now fresh s

/-- A statement that only reads. -/
def Stmt.isRead : Stmt → Bool
  | .getUserBySub _ => true
  | .getUserById _ => true
  | .getDatabaseById _ => true
  | .getGrantById _ => true
  | .userSubForId _ => true
  | _ => false

/-! ## What the statements see and write -/

section

variable {s : Store} {now : Timestamp} {fresh : Uuid}

variable {sub : String} {u : PermissionsUser} {id : Uuid} {g : PermissionsGrant}
  {new : PermissionsUser} {st : Stmt} {x : st.Resp} {ws : List Write}

theorem Store.getUserBySub_some (h : s.getUserBySub sub = some u) :
    u ∈ s.users.rows ∧ u.live = true ∧ u.userSub = sub := by
  have hp := List.find?_some h
  simp only [Bool.and_eq_true, decide_eq_true_eq] at hp
  exact ⟨List.mem_of_find?_eq_some h, hp⟩

theorem Store.getUserBySub_none :
    s.getUserBySub sub = none ↔ ∀ u ∈ s.users.rows, u.live = true → u.userSub ≠ sub := by
  simp [getUserBySub]

theorem Store.getUserBySub_eq_some (hs : s.WellFormed) :
    s.getUserBySub sub = some u ↔ u ∈ s.users.rows ∧ u.live = true ∧ u.userSub = sub := by
  refine ⟨getUserBySub_some, ?_⟩
  rintro ⟨hmem, hlive, hsub⟩
  cases h : s.getUserBySub sub with
  | none => exact absurd hsub (getUserBySub_none.mp h u hmem hlive)
  | some u' =>
    obtain ⟨hmem', hlive', hsub'⟩ := getUserBySub_some h
    rw [hs.userSub u' hmem' u hmem hlive' hlive (hsub'.trans hsub.symm)]

theorem Store.getUser_some (h : s.getUser id = some u) :
    s.users.get id = some u ∧ u.live = true := Option.filter_eq_some_iff.mp h

theorem Store.getDatabase_some {d : PermissionsDatabase} (h : s.getDatabase id = some d) :
    s.databases.get id = some d ∧ d.live = true :=
  Option.filter_eq_some_iff.mp h

theorem Store.getGrant_some (h : s.getGrant id = some g) :
    s.grants.get id = some g ∧ g.live = true := Option.filter_eq_some_iff.mp h

theorem Store.databaseOf_none {server dbName : String} :
    s.databaseOf server dbName = none ↔
      ∀ d ∈ s.databases.rows, d.live = true → d.server = server → d.dbName ≠ dbName := by
  simp [databaseOf]

theorem Store.databaseOf_some {server dbName : String} {d : PermissionsDatabase}
    (h : s.databaseOf server dbName = some d) :
    d ∈ s.databases.rows ∧ d.live = true ∧ d.server = server ∧ d.dbName = dbName := by
  have hp := List.find?_some h
  simp only [Bool.and_eq_true, decide_eq_true_eq] at hp
  exact ⟨List.mem_of_find?_eq_some h, hp.1.1, hp.1.2, hp.2⟩

theorem Write.user_fits (hs : s.WellFormed) (hu : s.users.get u.id = some u)
    (hlive : u.live = true) (hid : new.id = u.id) (hsub : new.userSub = u.userSub) :
    (Write.user (some u) new).Fits s := by
  refine ⟨by rw [hid, hu], ?_, ?_⟩
  · intro u' hu'
    cases hu'
    exact ⟨hlive, hsub⟩
  · intro _ u' hmem' hlive' hsub'
    have hmem := Table.mem_of_get hu
    rw [hs.userSub u' hmem' u hmem hlive' hlive (hsub'.trans hsub), hid]

theorem Write.grant_fits {new : PermissionsGrant} (hs : s.WellFormed)
    (hg : s.grants.get g.id = some g) (hlive : g.live = true) (hid : new.id = g.id)
    (huser : new.userId = g.userId) (htarget : new.target = g.target) :
    (Write.grant (some g) new).Fits s := by
  have hmem := Table.mem_of_get hg
  refine ⟨by rw [hid, hg], ?_, ?_, ?_⟩
  · intro g' hg'
    cases hg'
    exact ⟨hlive, huser, htarget⟩
  · rw [huser]
    exact hs.grantUser g hmem
  · rw [htarget]
    exact hs.grantTarget g hmem

theorem Store.missingReference_none {userId : Uuid} {target}
    (h : s.missingReference userId target = none) :
    (∃ u, s.users.get userId = some u) ∧ s.HasTarget target := by
  unfold missingReference at h
  split_ifs at h with huser
  rw [Option.isNone_iff_eq_none] at huser
  refine ⟨Option.ne_none_iff_exists'.mp huser, ?_⟩
  cases target with
  | specific databaseId =>
    simp only [Option.isNone_iff_eq_none, ite_eq_right_iff, reduceCtorEq, imp_false] at h
    exact Option.ne_none_iff_exists'.mp h
  | wildcard server => trivial

/-- What a statement can do on a store: what it returns and what it writes. -/
inductive Stmt.Does (now : Timestamp) (fresh : Uuid) (s : Store) :
    (st : Stmt) → st.Resp → List Write → Prop
  | getUserBySub {sub : String} : Does now fresh s (.getUserBySub sub) (s.getUserBySub sub) []
  | getUserById {id : Uuid} : Does now fresh s (.getUserById id) (s.getUser id) []
  | upsertUserLive {sub email : String} {groups : List String} {u new : PermissionsUser} :
      s.getUserBySub sub = some u → new = { u with userEmail := email, groups, updatedAt := now } →
      Does now fresh s (.upsertUser sub email groups) new [.user (some u) new]
  | upsertUserNew {sub email : String} {groups : List String} {new : PermissionsUser} :
      s.getUserBySub sub = none → new = ⟨fresh, sub, email, groups, now, now, none⟩ →
      Does now fresh s (.upsertUser sub email groups) new [.user none new]
  | upsertActorLive {sub email : String} {groups : List String} {u new : PermissionsUser} :
      s.getUserBySub sub = some u → new = { u with userEmail := email, groups, updatedAt := now } →
      Does now fresh s (.upsertActor sub email groups) new.id [.user (some u) new]
  | upsertActorNew {sub email : String} {groups : List String} {new : PermissionsUser} :
      s.getUserBySub sub = none → new = ⟨fresh, sub, email, groups, now, now, none⟩ →
      Does now fresh s (.upsertActor sub email groups) new.id [.user none new]
  | updateUserNone {id : Uuid} {email : Option String} {groups : Option (List String)} :
      s.getUser id = none → Does now fresh s (.updateUser id email groups) none []
  | updateUser {id : Uuid} {email : Option String} {groups : Option (List String)}
      {u new : PermissionsUser} :
      s.getUser id = some u →
      new = { u with
        userEmail := email.getD u.userEmail, groups := groups.getD u.groups, updatedAt := now } →
      Does now fresh s (.updateUser id email groups) (some new) [.user (some u) new]
  | softDeleteUserNone {id : Uuid} :
      s.getUser id = none → Does now fresh s (.softDeleteUser id) false []
  | softDeleteUser {id : Uuid} {u : PermissionsUser} : s.getUser id = some u →
      Does now fresh s (.softDeleteUser id) true [.user (some u) { u with deletedAt := some now }]
  | createDatabase {server dbName : String} {dbType : DbType} {new : PermissionsDatabase} :
      s.databaseOf server dbName = none → new = ⟨fresh, server, dbName, dbType, now, now, none⟩ →
      Does now fresh s (.createDatabase server dbName dbType) new [.database none new]
  | getDatabaseById {id : Uuid} : Does now fresh s (.getDatabaseById id) (s.getDatabase id) []
  | updateDatabaseNone {id : Uuid} {server dbName : Option String} {dbType : Option DbType} :
      s.getDatabase id = none → Does now fresh s (.updateDatabase id server dbName dbType) none []
  | updateDatabase {id : Uuid} {server dbName : Option String} {dbType : Option DbType}
      {d new : PermissionsDatabase} :
      s.getDatabase id = some d →
      new = { d with
        server := server.getD d.server, dbName := dbName.getD d.dbName
        dbType := dbType.getD d.dbType, updatedAt := now } →
      (∀ other, s.databaseOf new.server new.dbName = some other → other.id = id) →
      Does now fresh s (.updateDatabase id server dbName dbType) (some new)
        [.database (some d) new]
  | softDeleteDatabaseNone {id : Uuid} :
      s.getDatabase id = none → Does now fresh s (.softDeleteDatabase id) false []
  | softDeleteDatabase {id : Uuid} {d : PermissionsDatabase} : s.getDatabase id = some d →
      Does now fresh s (.softDeleteDatabase id) true
        [.database (some d) { d with deletedAt := some now }]
  | createGrant {userId : Uuid} {target : GrantTarget} {action : GrantAction} {constraints : Json}
      {new : PermissionsGrant} :
      s.missingReference userId target = none →
      new = ⟨fresh, userId, target, action, constraints, now, now, none⟩ →
      Does now fresh s (.createGrant userId target action constraints) new [.grant none new]
  | getGrantById {id : Uuid} : Does now fresh s (.getGrantById id) (s.getGrant id) []
  | updateGrantNone {id : Uuid} {action : Option GrantAction} {constraints : Option Json} :
      s.getGrant id = none → Does now fresh s (.updateGrant id action constraints) none []
  | updateGrant {id : Uuid} {action : Option GrantAction} {constraints : Option Json}
      {g new : PermissionsGrant} :
      s.getGrant id = some g →
      new = { g with
        action := action.getD g.action, constraints := constraints.getD g.constraints
        updatedAt := now } →
      Does now fresh s (.updateGrant id action constraints) (some new) [.grant (some g) new]
  | revokeGrantNone {id : Uuid} :
      s.getGrant id = none → Does now fresh s (.revokeGrant id) false []
  | revokeGrant {id : Uuid} {g : PermissionsGrant} : s.getGrant id = some g →
      Does now fresh s (.revokeGrant id) true [.grant (some g) { g with revokedAt := some now }]
  | userSubForId {id : Uuid} : Does now fresh s (.userSubForId id) (s.userSubForId id) []
  | log {row : PermissionsAuditRow} :
      row.checked = true → Does now fresh s (.log row) () [.audit row]

/-- A statement that runs without an error does one of these. -/
theorem Stmt.run_does (h : st.run now fresh s = .ok (x, ws)) : st.Does now fresh s x ws := by
  have heffect : st.effect now fresh s = .ok (x, ws) := by
    unfold run at h
    split_ifs at h
    exact h
  clear h
  cases st with
  | getUserBySub sub => cases heffect; exact .getUserBySub
  | getUserById id => cases heffect; exact .getUserById
  | upsertUser sub email groups =>
    simp only [effect, Store.upsertUser] at heffect
    cases hu : s.getUserBySub sub with
    | some u =>
      simp only [hu] at heffect
      cases heffect
      exact .upsertUserLive hu rfl
    | none =>
      simp only [hu] at heffect
      cases heffect
      exact .upsertUserNew hu rfl
  | upsertActor sub email groups =>
    simp only [effect, Store.upsertUser] at heffect
    cases hu : s.getUserBySub sub with
    | some u =>
      simp only [hu] at heffect
      cases heffect
      exact .upsertActorLive hu rfl
    | none =>
      simp only [hu] at heffect
      cases heffect
      exact .upsertActorNew hu rfl
  | updateUser id email groups =>
    simp only [effect, Store.updateUser] at heffect
    cases hu : s.getUser id with
    | some u =>
      simp only [hu, Option.map_some, updated] at heffect
      cases heffect
      exact .updateUser hu rfl
    | none =>
      simp only [hu, Option.map_none, updated] at heffect
      cases heffect
      exact .updateUserNone hu
  | softDeleteUser id =>
    simp only [effect, Store.softDeleteUser] at heffect
    cases hu : s.getUser id with
    | some u =>
      simp only [hu, Option.map_some, rowsAffected] at heffect
      cases heffect
      exact .softDeleteUser hu
    | none =>
      simp only [hu, Option.map_none, rowsAffected] at heffect
      cases heffect
      exact .softDeleteUserNone hu
  | createDatabase server dbName dbType =>
    simp only [effect, Store.createDatabase] at heffect
    cases hd : s.databaseOf server dbName with
    | some d =>
      simp only [hd] at heffect
      cases heffect
    | none =>
      simp only [hd] at heffect
      cases heffect
      exact .createDatabase hd rfl
  | getDatabaseById id => cases heffect; exact .getDatabaseById
  | updateDatabase id server dbName dbType =>
    simp only [effect, Store.updateDatabase] at heffect
    cases hd : s.getDatabase id with
    | none =>
      simp only [hd, updated] at heffect
      cases heffect
      exact .updateDatabaseNone hd
    | some d =>
      simp only [hd] at heffect
      cases hother : s.databaseOf (server.getD d.server) (dbName.getD d.dbName) with
      | none =>
        simp only [hother, updated] at heffect
        cases heffect
        refine .updateDatabase hd rfl fun other h => ?_
        rw [hother] at h
        cases h
      | some other =>
        simp only [hother] at heffect
        split_ifs at heffect with hid
        · simp only [updated] at heffect
          cases heffect
          refine .updateDatabase hd rfl fun other' h => ?_
          rw [hother] at h
          cases h
          exact hid
  | softDeleteDatabase id =>
    simp only [effect, Store.softDeleteDatabase] at heffect
    cases hd : s.getDatabase id with
    | some d =>
      simp only [hd, Option.map_some, rowsAffected] at heffect
      cases heffect
      exact .softDeleteDatabase hd
    | none =>
      simp only [hd, Option.map_none, rowsAffected] at heffect
      cases heffect
      exact .softDeleteDatabaseNone hd
  | createGrant userId target action constraints =>
    simp only [effect, Store.createGrant] at heffect
    cases href : s.missingReference userId target with
    | some constraint =>
      simp only [href] at heffect
      cases heffect
    | none =>
      simp only [href] at heffect
      cases heffect
      exact .createGrant href rfl
  | getGrantById id => cases heffect; exact .getGrantById
  | updateGrant id action constraints =>
    simp only [effect, Store.updateGrant] at heffect
    cases hg : s.getGrant id with
    | some g =>
      simp only [hg, Option.map_some, updated] at heffect
      cases heffect
      exact .updateGrant hg rfl
    | none =>
      simp only [hg, Option.map_none, updated] at heffect
      cases heffect
      exact .updateGrantNone hg
  | revokeGrant id =>
    simp only [effect, Store.revokeGrant] at heffect
    cases hg : s.getGrant id with
    | some g =>
      simp only [hg, Option.map_some, rowsAffected] at heffect
      cases heffect
      exact .revokeGrant hg
    | none =>
      simp only [hg, Option.map_none, rowsAffected] at heffect
      cases heffect
      exact .revokeGrantNone hg
  | userSubForId id => cases heffect; exact .userSubForId
  | log row =>
    simp only [effect] at heffect
    split_ifs at heffect with hchecked
    cases heffect
    exact .log hchecked

structure Store.Unused (s : Store) (id : Uuid) : Prop where
  user : s.users.get id = none
  database : s.databases.get id = none
  grant : s.grants.get id = none

/-- The id may be given to a new row. -/
def Store.unused (s : Store) (id : Uuid) : Bool :=
  (s.users.get id).isNone && (s.databases.get id).isNone && (s.grants.get id).isNone

theorem Store.unused_spec (h : s.unused id = true) : s.Unused id := by
  simp only [unused, Bool.and_eq_true, Option.isNone_iff_eq_none] at h
  exact ⟨h.1.1, h.1.2, h.2⟩

theorem Write.user_fits_of_getUser (hs : s.WellFormed) (hu : s.getUser id = some u)
    (hid : new.id = u.id) (hsub : new.userSub = u.userSub) :
    (Write.user (some u) new).Fits s := by
  obtain ⟨hget, hlive⟩ := Store.getUser_some hu
  have hkey : u.id = id := Table.key_of_get hget
  exact user_fits hs (by rw [hkey]; exact hget) hlive hid hsub

theorem Write.user_fits_of_getUserBySub (hs : s.WellFormed) (hu : s.getUserBySub sub = some u)
    (hid : new.id = u.id) (hsub : new.userSub = u.userSub) : (Write.user (some u) new).Fits s := by
  obtain ⟨hmem, hlive, -⟩ := Store.getUserBySub_some hu
  exact user_fits hs (Table.get_eq_some.mpr ⟨hmem, rfl⟩) hlive hid hsub

theorem Write.user_fits_new (hget : s.users.get new.id = none)
    (hnone : s.getUserBySub new.userSub = none) : (Write.user none new).Fits s :=
  ⟨hget, by simp, fun _ u hmem hlive hsub =>
    absurd hsub (Store.getUserBySub_none.mp hnone u hmem hlive)⟩

theorem Write.grant_fits_of_getGrant {new : PermissionsGrant} (hs : s.WellFormed)
    (hg : s.getGrant id = some g) (hid : new.id = g.id) (huser : new.userId = g.userId)
    (htarget : new.target = g.target) : (Write.grant (some g) new).Fits s := by
  obtain ⟨hget, hlive⟩ := Store.getGrant_some hg
  have hkey : g.id = id := Table.key_of_get hget
  exact grant_fits hs (by rw [hkey]; exact hget) hlive hid huser htarget

/-- **A statement writes what fits the store it sees.** -/
theorem Stmt.Does.fits (hs : s.WellFormed) (hfresh : s.Unused fresh)
    (h : st.Does now fresh s x ws) : ∀ w ∈ ws, w.Fits s := by
  cases h with
  | getUserBySub | getUserById | updateUserNone hu | softDeleteUserNone hu | getDatabaseById
  | updateDatabaseNone hd | softDeleteDatabaseNone hd | getGrantById | updateGrantNone hg
  | revokeGrantNone hg | userSubForId => simp
  | upsertUserLive hu hnew | upsertActorLive hu hnew =>
    subst hnew
    exact List.forall_mem_singleton.mpr (Write.user_fits_of_getUserBySub hs hu rfl rfl)
  | upsertUserNew hu hnew | upsertActorNew hu hnew =>
    subst hnew
    exact List.forall_mem_singleton.mpr (Write.user_fits_new hfresh.user hu)
  | updateUser hu hnew =>
    subst hnew
    exact List.forall_mem_singleton.mpr (Write.user_fits_of_getUser hs hu rfl rfl)
  | softDeleteUser hu =>
    exact List.forall_mem_singleton.mpr (Write.user_fits_of_getUser hs hu rfl rfl)
  | createDatabase hnone hnew =>
    subst hnew
    rw [List.forall_mem_singleton]
    exact ⟨hfresh.database, by simp, fun _ d' hd' hlive hserver hname =>
      absurd hname (Store.databaseOf_none.mp hnone d' hd' hlive hserver)⟩
  | @updateDatabase id server dbName dbType d new hd hnew hunique =>
    obtain ⟨hget, hlive⟩ := Store.getDatabase_some hd
    have hid : new.id = id := by
      rw [hnew]
      exact (Table.key_of_get hget :)
    rw [List.forall_mem_singleton]
    refine ⟨by rw [hid]; exact hget, ?_, ?_⟩
    · intro d' hd'
      cases hd'
      exact hlive
    · intro _ d' hd' hlive' hserver hname
      cases hother : s.databaseOf new.server new.dbName with
      | none => exact absurd hname (Store.databaseOf_none.mp hother d' hd' hlive' hserver)
      | some other =>
        obtain ⟨hmem, hlive'', hserver', hname'⟩ := Store.databaseOf_some hother
        have heq := hs.databasePair d' hd' other hmem hlive' hlive'' (hserver.trans hserver'.symm)
          (hname.trans hname'.symm)
        rw [heq, hunique other hother, hid]
  | @softDeleteDatabase id d hd =>
    obtain ⟨hget, hlive⟩ := Store.getDatabase_some hd
    have hid : d.id = id := Table.key_of_get hget
    rw [List.forall_mem_singleton]
    refine ⟨by rw [hid]; exact hget, ?_, fun hdead => by cases hdead⟩
    intro d' hd'
    cases hd'
    exact hlive
  | createGrant hnone hnew =>
    subst hnew
    rw [List.forall_mem_singleton]
    exact ⟨hfresh.grant, by simp, Store.missingReference_none hnone⟩
  | updateGrant hg hnew =>
    subst hnew
    exact List.forall_mem_singleton.mpr (Write.grant_fits_of_getGrant hs hg rfl rfl rfl)
  | revokeGrant hg =>
    exact List.forall_mem_singleton.mpr (Write.grant_fits_of_getGrant hs hg rfl rfl rfl)
  | log hchecked => simp [Write.Fits]

theorem Stmt.Does.getUserById_eq {x : Option PermissionsUser}
    (h : Does now fresh s (.getUserById id) x ws) : s.getUser id = x ∧ ws = [] := by
  cases h
  exact ⟨rfl, rfl⟩

theorem Stmt.Does.getDatabaseById_eq {x : Option PermissionsDatabase}
    (h : Does now fresh s (.getDatabaseById id) x ws) :
    s.getDatabase id = x ∧ ws = [] := by
  cases h
  exact ⟨rfl, rfl⟩

theorem Stmt.Does.getGrantById_eq {x : Option PermissionsGrant}
    (h : Does now fresh s (.getGrantById id) x ws) : s.getGrant id = x ∧ ws = [] := by
  cases h
  exact ⟨rfl, rfl⟩

theorem Stmt.Does.userSubForId_eq {x : Option String}
    (h : Does now fresh s (.userSubForId id) x ws) : s.userSubForId id = x ∧ ws = [] := by
  cases h
  exact ⟨rfl, rfl⟩

/-- A statement writes at most one row. -/
theorem Stmt.Does.writes (h : st.Does now fresh s x ws) : ws = [] ∨ ∃ w, ws = [w] := by
  cases h <;> first | exact .inl rfl | exact .inr ⟨_, rfl⟩

/-- A reading statement writes nothing. -/
theorem Stmt.Does.of_read (hread : st.isRead = true) (h : st.Does now fresh s x ws) : ws = [] := by
  cases h <;> first | rfl | cases hread

end

end DbMcpGateway.State
