import Mathlib.Data.List.Find
import DbMcpGateway.State.Repo

/-!
# The MySQL backend

`MysqlPermissionsRepo` (state/permissions/mysql/): the SQL of the PostgreSQL backend in
another dialect. There is no RETURNING, so a row that was written is read again; the partial
unique indexes are indexes on generated columns that are NULL for deleted rows
(migrations-mysql/0001_permissions.sql).

The columns declare no collation, so texts are compared by the default collation of the
server. A collation is known by the weights it gives to texts: two texts of equal weights
are equal to the database, and to its unique indexes. Rows are compared by id as in
PostgreSQL, since ids are written in one way.

The server is in its default, strict mode: a text that is too long for its column is an
error. (Trailing spaces that would be cut off count as too long here.) JSON is stored as
it is.

Results:

* `agree_step`: an operation whose texts the collation tells apart from those of the live
  rows does the same on both backends.
-/

namespace DbMcpGateway.State

open Audit

/-! ## Collations -/

/-- A collation, by `WEIGHT_STRING`. -/
structure Collation where
  weights : String → List ℕ

namespace Collation

/-- `a = b`. -/
def eq (c : Collation) (a b : String) : Bool := c.weights a = c.weights b

/-- `a <= b`. -/
def le (c : Collation) (a b : String) : Bool := c.weights a ≤ c.weights b

end Collation

namespace Mysql

/-! ## Errors -/

/-- `ER_DATA_TOO_LONG`. -/
def dataTooLong : SqlxError := .database (some "22001") none

/-- `ER_DUP_ENTRY`, `ER_NO_REFERENCED_ROW_2`. -/
def integrityViolation : SqlxError := .database (some "23000") none

/-- `sqlx::Error::RowNotFound`. -/
def rowNotFound : SqlxError := .other

/-- A text is too long for `VARCHAR(255)`. -/
def tooLong (texts : List String) : Bool := texts.any fun text => 255 < text.length

/-- A row that was written is read again. -/
def reread {α : Type} : Option α → Except SqlxError α
  | some row => .ok row
  | none => .error rowNotFound

/-! ## Users -/

/-- The generated column `live_user_sub`. -/
def liveUserSub (u : PermissionsUser) : Option String :=
  if u.deletedAt.isNone then some u.userSub else none

/-- The row with a subject in `permissions_users_user_sub_live_uk`. -/
def userOfKey (c : Collation) (s : Store) (userSub : String) : Option PermissionsUser :=
  s.users.rows.find? fun u => (liveUserSub u).any fun sub => c.eq sub userSub

/-- `get_user_by_sub` (mysql/users.rs:44). -/
def getUserBySub (c : Collation) (s : Store) (userSub : String) : Option PermissionsUser :=
  s.users.rows.find? fun u => c.eq u.userSub userSub && u.live

/-- `upsert_user` (mysql/users.rs:9): `ON DUPLICATE KEY UPDATE` keeps the subject of the row. -/
def upsertUser (c : Collation) (now : Timestamp) (newId : Uuid) (s : Store)
    (userSub userEmail : String) (groups : List String) :
    Except SqlxError PermissionsUser × Store :=
  if tooLong [userSub, userEmail] then (.error dataTooLong, s)
  else
    let w : Write :=
      match userOfKey c s userSub with
      | some u => .user (some u) { u with userEmail, groups, updatedAt := now }
      | none => .user none
        { id := newId, userSub, userEmail, groups, createdAt := now, updatedAt := now
          deletedAt := none }
    (reread (getUserBySub c (s.apply w) userSub), s.apply w)

/-- `update_user` (mysql/users.rs:74). -/
def updateUser (now : Timestamp) (s : Store) (id : Uuid) (userEmail : Option String)
    (groups : Option (List String)) : Except SqlxError (Option PermissionsUser) × Store :=
  match s.getUser id with
  | none => (.ok none, s)
  | some u =>
    if tooLong userEmail.toList then (.error dataTooLong, s)
    else
      let s' := s.apply (.user (some u) { u with
        userEmail := userEmail.getD u.userEmail, groups := groups.getD u.groups, updatedAt := now })
      (.ok (s'.getUser id), s')

/-! ## Databases -/

/-- The generated columns `live_server` and `live_db_name`. -/
def liveServer (d : PermissionsDatabase) : Option String :=
  if d.deletedAt.isNone then some d.server else none

def liveDbName (d : PermissionsDatabase) : Option String :=
  if d.deletedAt.isNone then some d.dbName else none

/-- Another row has the pair in `permissions_databases_live_uk`. -/
def pairTaken (c : Collation) (s : Store) (own : Option Uuid) (server dbName : String) : Bool :=
  s.databases.rows.any fun d => own ≠ some d.id &&
    (liveServer d).any (fun name => c.eq name server) &&
    (liveDbName d).any fun name => c.eq name dbName

/-- `create_database` (mysql/databases.rs:9). -/
def createDatabase (c : Collation) (now : Timestamp) (newId : Uuid) (s : Store)
    (server dbName : String) (dbType : DbType) : Except SqlxError PermissionsDatabase × Store :=
  if tooLong [server, dbName] then (.error dataTooLong, s)
  else if pairTaken c s none server dbName then (.error integrityViolation, s)
  else
    let s' := s.apply (.database none
      { id := newId, server, dbName, dbType, createdAt := now, updatedAt := now, deletedAt := none })
    (reread (s'.getDatabase newId), s')

/-- The live rows by `ORDER BY server, db_name`. -/
def databasesByName (c : Collation) (s : Store) : List PermissionsDatabase :=
  (s.databases.rows.filter PermissionsDatabase.live).insertionSort fun d d' =>
    (if c.eq d.server d'.server then c.le d.dbName d'.dbName else c.le d.server d'.server) = true

/-- `update_database` (mysql/databases.rs:83). -/
def updateDatabase (c : Collation) (now : Timestamp) (s : Store) (id : Uuid)
    (server dbName : Option String) (dbType : Option DbType) :
    Except SqlxError (Option PermissionsDatabase) × Store :=
  match s.getDatabase id with
  | none => (.ok none, s)
  | some d =>
    let new := { d with
      server := server.getD d.server, dbName := dbName.getD d.dbName
      dbType := dbType.getD d.dbType, updatedAt := now }
    if tooLong (server.toList ++ dbName.toList) then (.error dataTooLong, s)
    else if pairTaken c s (some id) new.server new.dbName then (.error integrityViolation, s)
    else
      let s' := s.apply (.database (some d) new)
      (.ok (s'.getDatabase id), s')

/-! ## Grants -/

def targetTexts : GrantTarget → List String
  | .specific _ => []
  | .wildcard server => [server]

/-- `create_grant` (mysql/grants.rs:10). -/
def createGrant (now : Timestamp) (newId : Uuid) (s : Store) (userId : Uuid) (target : GrantTarget)
    (action : GrantAction) (constraints : Json) : Except SqlxError PermissionsGrant × Store :=
  if tooLong (targetTexts target) then (.error dataTooLong, s)
  else if (s.missingReference userId target).isSome then (.error integrityViolation, s)
  else
    let s' := s.apply (.grant none
      { id := newId, userId, target, action, constraints, createdAt := now, updatedAt := now
        revokedAt := none })
    (reread (s'.getGrant newId), s')

/-- `update_grant` (mysql/grants.rs:124). -/
def updateGrant (now : Timestamp) (s : Store) (id : Uuid) (action : Option GrantAction)
    (constraints : Option Json) : Except SqlxError (Option PermissionsGrant) × Store :=
  match s.getGrant id with
  | none => (.ok none, s)
  | some g =>
    let s' := s.apply (.grant (some g) { g with
      action := action.getD g.action, constraints := constraints.getD g.constraints
      updatedAt := now })
    (.ok (s'.getGrant id), s')

/-- `rows_affected() > 0` of an update of at most one row. -/
def affected (s : Store) : Option Write → Except SqlxError Bool × Store
  | none => (.ok false, s)
  | some w => (.ok true, s.apply w)

end Mysql

/-- `MysqlPermissionsRepo` (state/permissions/mysql/mod.rs:55). The reads by id and the soft
    deletions are those of PostgreSQL. -/
def mysqlRepo (c : Collation) : PermissionsRepo where
  run now fresh s
    | .upsertUser userSub userEmail groups =>
      Mysql.upsertUser c now fresh s userSub userEmail groups
    | .getUserBySub userSub => (.ok (Mysql.getUserBySub c s userSub), s)
    | .getUser id => (.ok (s.getUser id), s)
    | .listUsers page => (.ok (s.listUsers page), s)
    | .updateUser id userEmail groups => Mysql.updateUser now s id userEmail groups
    | .softDeleteUser id => Mysql.affected s (s.softDeleteUser now id)
    | .createDatabase server dbName dbType =>
      Mysql.createDatabase c now fresh s server dbName dbType
    | .getDatabase id => (.ok (s.getDatabase id), s)
    | .listDatabases page => (.ok (page.window (Mysql.databasesByName c s)), s)
    | .allLiveDatabases => (.ok (Mysql.databasesByName c s), s)
    | .updateDatabase id server dbName dbType =>
      Mysql.updateDatabase c now s id server dbName dbType
    | .softDeleteDatabase id => Mysql.affected s (s.softDeleteDatabase now id)
    | .createGrant userId target action constraints =>
      Mysql.createGrant now fresh s userId target action constraints
    | .listGrantsForUser userId => (.ok (s.listGrantsForUser userId), s)
    | .getGrant id => (.ok (s.getGrant id), s)
    | .listGrants userId databaseId page => (.ok (s.listGrants userId databaseId page), s)
    | .updateGrant id action constraints => Mysql.updateGrant now s id action constraints
    | .revokeGrant id => Mysql.affected s (s.revokeGrant now id)

/-! ## Texts that both backends tell apart -/

/-- The texts of an operation that are stored in text columns or compared with them. -/
def RepoOp.texts : RepoOp → List String
  | .upsertUser userSub userEmail _ => [userSub, userEmail]
  | .getUserBySub userSub => [userSub]
  | .updateUser _ userEmail _ => userEmail.toList
  | .createDatabase server dbName _ => [server, dbName]
  | .updateDatabase _ server dbName _ => server.toList ++ dbName.toList
  | .createGrant _ target _ _ => Mysql.targetTexts target
  | _ => []

def RepoOp.jsonHasNul : RepoOp → Bool
  | .upsertUser _ _ groups => groups.any Text.hasNul
  | .updateUser _ _ groups => (groups.getD []).any Text.hasNul
  | .createGrant _ _ _ constraints => constraints.hasNul
  | .updateGrant _ _ constraints => constraints.toList.any Json.hasNul
  | _ => false

/-- Both databases can store the texts: they are without U+0000, which PostgreSQL refuses,
    and within the lengths of the MySQL columns. -/
def RepoOp.storable (op : RepoOp) : Bool :=
  !op.texts.any Text.hasNul && !op.jsonHasNul && !Mysql.tooLong op.texts

namespace Collation

/-- The subject is told apart from those of the live users. -/
def tellsUser (c : Collation) (s : Store) (userSub : String) : Bool :=
  s.users.rows.all fun u => !u.live || !c.eq u.userSub userSub || u.userSub = userSub

/-- The pair is told apart from those of the other live databases. -/
def tellsPair (c : Collation) (s : Store) (own : Option Uuid) (server dbName : String) : Bool :=
  s.databases.rows.all fun d => own = some d.id || !d.live ||
    !(c.eq d.server server && c.eq d.dbName dbName) || (d.server = server && d.dbName = dbName)

/-- The live databases have one order by name on both sides. -/
def sortsAs (c : Collation) (textLe : String → String → Bool) (s : Store) : Bool :=
  let live := s.databases.rows.filter PermissionsDatabase.live
  live.all fun d => live.all fun d' =>
    (if c.eq d.server d'.server then c.le d.dbName d'.dbName else c.le d.server d'.server) =
      if d.server = d'.server then textLe d.dbName d'.dbName else textLe d.server d'.server

/-- The collation tells the texts of an operation apart from those of the rows it is
    compared with. -/
def tells (c : Collation) (textLe : String → String → Bool) (s : Store) : RepoOp → Bool
  | .upsertUser userSub _ _ => c.tellsUser s userSub
  | .getUserBySub userSub => c.tellsUser s userSub
  | .createDatabase server dbName _ => c.tellsPair s none server dbName
  | .updateDatabase id server dbName _ => (s.getDatabase id).all fun d =>
    c.tellsPair s (some id) (server.getD d.server) (dbName.getD d.dbName)
  | .listDatabases _ => c.sortsAs textLe s
  | .allLiveDatabases => c.sortsAs textLe s
  | _ => true

end Collation

/-! ## Agreement -/

/-- Two outcomes of an operation agree: both have the same result or both are errors, and
    they leave the same store. -/
def Agree {α : Type} (x y : Except SqlxError α × Store) : Prop :=
  x.1.toOption = y.1.toOption ∧ x.2 = y.2

section

variable {c : Collation} {textLe : String → String → Bool} {s : Store} {now : Timestamp}
  {fresh : Uuid}

theorem autocommit_run {st : Stmt} (h : st.hasNul = false) :
    autocommit s (Stmt.run now fresh s st) = autocommit s (st.effect now fresh s) := by
  unfold Stmt.run
  rw [h]
  rfl

/-! ### Users -/

variable {userSub : String} {id : Uuid} {server dbName : String}

theorem Collation.tellsUser_iff : c.tellsUser s userSub = true ↔
    ∀ u ∈ s.users.rows, u.live = true → c.eq u.userSub userSub = true → u.userSub = userSub := by
  simp only [tellsUser, List.all_eq_true, Bool.or_eq_true, Bool.not_eq_true', decide_eq_true_eq]
  refine forall₂_congr fun u _ => ?_
  cases u.live <;> cases c.eq u.userSub userSub <;> simp

theorem Collation.eq_refl (c : Collation) (text : String) : c.eq text text = true := by
  simp [eq]

/-- The look-up by subject finds the same row. -/
theorem Mysql.getUserBySub_eq (h : c.tellsUser s userSub = true) :
    Mysql.getUserBySub c s userSub = s.getUserBySub userSub := by
  rw [Collation.tellsUser_iff] at h
  refine List.find?_congr fun u hu => ?_
  rw [Bool.eq_iff_iff]
  simp only [Bool.and_eq_true, decide_eq_true_eq]
  constructor
  · rintro ⟨heq, hlive⟩
    exact ⟨hlive, h u hu hlive heq⟩
  · rintro ⟨hlive, rfl⟩
    exact ⟨c.eq_refl u.userSub, hlive⟩

/-- The generated column indexes what the look-up looks for. -/
theorem Mysql.userOfKey_eq (userSub : String) :
    Mysql.userOfKey c s userSub = Mysql.getUserBySub c s userSub := by
  refine List.find?_congr fun u _ => ?_
  unfold liveUserSub PermissionsUser.live
  cases u.deletedAt <;> simp

theorem Store.upsertUser_row (s : Store) (now : Timestamp) (fresh : Uuid)
    (userSub userEmail : String) (groups : List String) :
    ∃ old new, s.upsertUser now fresh userSub userEmail groups = (new, .user old new) ∧
      new.userSub = userSub ∧ new.live = true := by
  unfold Store.upsertUser
  cases hu : s.getUserBySub userSub with
  | none => exact ⟨none, _, rfl, rfl, rfl⟩
  | some u =>
    obtain ⟨-, hlive, hsub⟩ := getUserBySub_some hu
    exact ⟨some u, _, rfl, hsub, hlive⟩

theorem pgRepo_upsertUser {userEmail : String} {groups}
    (hstorable : (RepoOp.upsertUser userSub userEmail groups).storable = true) :
    (pgRepo textLe).run now fresh s (.upsertUser userSub userEmail groups) =
      (.ok (s.upsertUser now fresh userSub userEmail groups).1,
        s.apply (s.upsertUser now fresh userSub userEmail groups).2) := by
  simp only [RepoOp.storable, RepoOp.texts, RepoOp.jsonHasNul, Bool.and_eq_true,
    Bool.not_eq_true', List.any_cons, List.any_nil, Bool.or_eq_false_iff] at hstorable
  have hnul : (Stmt.upsertUser userSub userEmail groups).hasNul = false := by
    simp [Stmt.hasNul, hstorable]
  change autocommit s _ = _
  rw [autocommit_run hnul]
  rfl

theorem agree_upsertUser (hs : s.WellFormed) (hfresh : s.Unused fresh) {userEmail : String}
    {groups}
    (hstorable : (RepoOp.upsertUser userSub userEmail groups).storable = true)
    (htells : c.tellsUser s userSub = true) :
    Agree ((mysqlRepo c).run now fresh s (.upsertUser userSub userEmail groups))
      ((pgRepo textLe).run now fresh s (.upsertUser userSub userEmail groups)) := by
  obtain ⟨old, new, hupsert, hsub, hlive⟩ := s.upsertUser_row now fresh userSub userEmail groups
  have hpg : (pgRepo textLe).run now fresh s (.upsertUser userSub userEmail groups) =
      (.ok new, s.apply (.user old new)) := by
    rw [pgRepo_upsertUser hstorable, hupsert]
  have hs' : (s.apply (.user old new)).WellFormed := by
    have hkept : ((pgRepo textLe).run now fresh s
        (.upsertUser userSub userEmail groups)).2.WellFormed := pgRepo_wellFormed hs hfresh _
    rw [hpg] at hkept
    exact hkept
  -- the row that is read again is the one that was written
  have htells' : c.tellsUser (s.apply (.user old new)) userSub = true := by
    rw [Collation.tellsUser_iff] at htells ⊢
    intro u hu hulive hueq
    rcases Table.mem_put.mp hu with rfl | ⟨hu, -⟩
    · exact hsub
    · exact htells u hu hulive hueq
  have hread : Mysql.getUserBySub c (s.apply (.user old new)) userSub = some new := by
    rw [Mysql.getUserBySub_eq htells', Store.getUserBySub_eq_some hs']
    exact ⟨Table.mem_put.mpr (.inl rfl), hlive, hsub⟩
  have hmysql : (mysqlRepo c).run now fresh s (.upsertUser userSub userEmail groups) =
      (.ok new, s.apply (.user old new)) := by
    simp only [RepoOp.storable, RepoOp.texts, Bool.and_eq_true, Bool.not_eq_true'] at hstorable
    change Mysql.upsertUser c now fresh s userSub userEmail groups = _
    unfold Mysql.upsertUser
    unfold Store.upsertUser at hupsert
    rw [hstorable.2, Mysql.userOfKey_eq, Mysql.getUserBySub_eq htells]
    cases hu : s.getUserBySub userSub with
    | none | some u =>
      simp only [hu, Prod.mk.injEq] at hupsert
      simp only [hupsert.2, hread]
      rfl
  rw [hpg, hmysql]
  exact ⟨rfl, rfl⟩

theorem Store.getUser_apply {old} {new : PermissionsUser}
    (hlive : new.live = true) : (s.apply (.user old new)).getUser new.id = some new :=
  Option.filter_eq_some_iff.mpr ⟨Table.get_put_self s.users new, hlive⟩

theorem agree_updateUser {userEmail groups}
    (hstorable : (RepoOp.updateUser id userEmail groups).storable = true) :
    Agree ((mysqlRepo c).run now fresh s (.updateUser id userEmail groups))
      ((pgRepo textLe).run now fresh s (.updateUser id userEmail groups)) := by
  simp only [RepoOp.storable, RepoOp.texts, RepoOp.jsonHasNul, Bool.and_eq_true,
    Bool.not_eq_true'] at hstorable
  obtain ⟨⟨hnul, hgroups⟩, hlength⟩ := hstorable
  change Agree (Mysql.updateUser now s id userEmail groups) (autocommit s _)
  rw [autocommit_run (by simp only [Stmt.hasNul, List.any_append, hnul, hgroups, Bool.or_self])]
  simp only [Mysql.updateUser, Stmt.effect, Store.updateUser, hlength]
  cases hu : s.getUser id with
  | none => exact ⟨rfl, rfl⟩
  | some u =>
    obtain ⟨hget, hlive⟩ := Store.getUser_some hu
    obtain rfl := Table.key_of_get hget
    refine ⟨?_, rfl⟩
    exact congrArg some (Store.getUser_apply hlive)

/-! ### Databases -/

theorem Collation.tellsPair_iff {own} :
    c.tellsPair s own server dbName = true ↔ ∀ d ∈ s.databases.rows, own ≠ some d.id →
      d.live = true → c.eq d.server server = true → c.eq d.dbName dbName = true →
      d.server = server ∧ d.dbName = dbName := by
  simp only [tellsPair, List.all_eq_true, Bool.or_eq_true, Bool.and_eq_true, Bool.not_eq_true',
    Bool.and_eq_false_iff, decide_eq_true_eq]
  refine forall₂_congr fun d _ => ?_
  by_cases hown : own = some d.id
  · simp [hown]
  · cases d.live <;> cases c.eq d.server server <;> cases c.eq d.dbName dbName <;> simp [hown]

/-- The unique index is violated by rows of exactly this pair. -/
theorem Mysql.pairTaken_iff {own} (h : c.tellsPair s own server dbName = true) :
    Mysql.pairTaken c s own server dbName = true ↔ ∃ d ∈ s.databases.rows, own ≠ some d.id ∧
      d.live = true ∧ d.server = server ∧ d.dbName = dbName := by
  rw [Collation.tellsPair_iff] at h
  have hany : ∀ d : PermissionsDatabase,
      ((liveServer d).any (fun name => c.eq name server) = true ↔
        d.live = true ∧ c.eq d.server server = true) ∧
      ((liveDbName d).any (fun name => c.eq name dbName) = true ↔
        d.live = true ∧ c.eq d.dbName dbName = true) := by
    intro d
    unfold liveServer liveDbName PermissionsDatabase.live
    cases d.deletedAt <;> simp
  simp only [pairTaken, List.any_eq_true, Bool.and_eq_true, decide_eq_true_eq, hany]
  refine exists_congr fun d => and_congr_right fun hd => ?_
  constructor
  · rintro ⟨⟨hown, hlive, hserver⟩, -, hname⟩
    exact ⟨hown, hlive, h d hd hown hlive hserver hname⟩
  · rintro ⟨hown, hlive, rfl, rfl⟩
    exact ⟨⟨hown, hlive, c.eq_refl _⟩, hlive, c.eq_refl _⟩

theorem Store.getDatabase_apply {old} {new : PermissionsDatabase}
    (hlive : new.live = true) : (s.apply (.database old new)).getDatabase new.id = some new :=
  Option.filter_eq_some_iff.mpr ⟨Table.get_put_self s.databases new, hlive⟩

theorem agree_createDatabase {dbType : DbType}
    (hstorable : (RepoOp.createDatabase server dbName dbType).storable = true)
    (htells : c.tellsPair s none server dbName = true) :
    Agree ((mysqlRepo c).run now fresh s (.createDatabase server dbName dbType))
      ((pgRepo textLe).run now fresh s (.createDatabase server dbName dbType)) := by
  simp only [RepoOp.storable, RepoOp.texts, Bool.and_eq_true, Bool.not_eq_true'] at hstorable
  obtain ⟨⟨hnul, -⟩, hlength⟩ := hstorable
  change Agree (Mysql.createDatabase c now fresh s server dbName dbType) (autocommit s _)
  rw [autocommit_run (by exact hnul)]
  simp only [Mysql.createDatabase, Stmt.effect, Store.createDatabase, hlength]
  cases hd : s.databaseOf server dbName with
  | some d =>
    obtain ⟨hmem, hlive, hserver, hname⟩ := Store.databaseOf_some hd
    have htaken : Mysql.pairTaken c s none server dbName = true :=
      (Mysql.pairTaken_iff htells).mpr ⟨d, hmem, by simp, hlive, hserver, hname⟩
    simp only [htaken]
    exact ⟨rfl, rfl⟩
  | none =>
    have htaken : Mysql.pairTaken c s none server dbName = false := by
      rw [← Bool.not_eq_true, Mysql.pairTaken_iff htells]
      rintro ⟨d, hmem, -, hlive, hserver, hname⟩
      exact Store.databaseOf_none.mp hd d hmem hlive hserver hname
    simp only [htaken]
    refine ⟨?_, rfl⟩
    exact congrArg (fun row => (Mysql.reread row).toOption) (Store.getDatabase_apply rfl)

theorem agree_updateDatabase (hs : s.WellFormed) {server dbName dbType}
    (hstorable : (RepoOp.updateDatabase id server dbName dbType).storable = true)
    (htells : c.tells textLe s (.updateDatabase id server dbName dbType) = true) :
    Agree ((mysqlRepo c).run now fresh s (.updateDatabase id server dbName dbType))
      ((pgRepo textLe).run now fresh s (.updateDatabase id server dbName dbType)) := by
  simp only [RepoOp.storable, RepoOp.texts, Bool.and_eq_true, Bool.not_eq_true'] at hstorable
  obtain ⟨⟨hnul, -⟩, hlength⟩ := hstorable
  change Agree (Mysql.updateDatabase c now s id server dbName dbType) (autocommit s _)
  rw [autocommit_run (by exact hnul)]
  simp only [Mysql.updateDatabase, Stmt.effect, Store.updateDatabase, hlength]
  cases hd : s.getDatabase id with
  | none => exact ⟨rfl, rfl⟩
  | some d =>
    obtain ⟨hget, hlive⟩ := Store.getDatabase_some hd
    obtain rfl := Table.key_of_get hget
    simp only [Collation.tells, hd, Option.all_some] at htells
    have htaken := Mysql.pairTaken_iff htells
    cases hother : s.databaseOf (server.getD d.server) (dbName.getD d.dbName) with
    | none =>
      have hfree : Mysql.pairTaken c s (some d.id) (server.getD d.server) (dbName.getD d.dbName) =
          false := by
        rw [← Bool.not_eq_true, htaken]
        rintro ⟨d', hmem, -, hlive', hserver, hname⟩
        exact Store.databaseOf_none.mp hother d' hmem hlive' hserver hname
      simp only [hfree, hother]
      exact ⟨congrArg some (Store.getDatabase_apply hlive), rfl⟩
    | some other =>
      obtain ⟨hmem, hlive', hserver, hname⟩ := Store.databaseOf_some hother
      by_cases hown : other.id = d.id
      · have hfree : Mysql.pairTaken c s (some d.id) (server.getD d.server)
            (dbName.getD d.dbName) = false := by
          rw [← Bool.not_eq_true, htaken]
          rintro ⟨d', hmem', hne, hlive'', hserver', hname'⟩
          -- the pair has one live row
          have heq := hs.databasePair d' hmem' other hmem hlive'' hlive'
            (hserver'.trans hserver.symm) (hname'.trans hname.symm)
          exact hne (by rw [heq, hown])
        simp only [hfree, hother, hown, if_true]
        exact ⟨congrArg some (Store.getDatabase_apply hlive), rfl⟩
      · have hused : Mysql.pairTaken c s (some d.id) (server.getD d.server)
            (dbName.getD d.dbName) = true :=
          htaken.mpr ⟨other, hmem, by simpa using fun h => hown h.symm, hlive', hserver, hname⟩
        simp only [hused, hother, hown, if_false]
        exact ⟨rfl, rfl⟩

/-- The live databases are listed in one order. -/
theorem Mysql.databasesByName_eq (h : c.sortsAs textLe s = true) :
    Mysql.databasesByName c s = s.databasesByName textLe := by
  simp only [Collation.sortsAs, List.all_eq_true, decide_eq_true_eq] at h
  have hmap := List.map_insertionSort (f := id) (r := fun d d' : PermissionsDatabase =>
      (if c.eq d.server d'.server then c.le d.dbName d'.dbName
        else c.le d.server d'.server) = true)
    (s := fun d d' : PermissionsDatabase => (if d.server = d'.server then textLe d.dbName d'.dbName
      else textLe d.server d'.server) = true)
    (s.databases.rows.filter PermissionsDatabase.live) (fun d hd d' hd' => by
      rw [h d hd d' hd']
      rfl)
  rw [List.map_id, List.map_id] at hmap
  exact hmap

/-! ### Grants -/

theorem Store.getGrant_apply {old} {new : PermissionsGrant}
    (hlive : new.live = true) : (s.apply (.grant old new)).getGrant new.id = some new :=
  Option.filter_eq_some_iff.mpr ⟨Table.get_put_self s.grants new, hlive⟩

theorem agree_createGrant {userId : Uuid} {target action} {constraints : Json}
    (hstorable : (RepoOp.createGrant userId target action constraints).storable = true) :
    Agree ((mysqlRepo c).run now fresh s (.createGrant userId target action constraints))
      ((pgRepo textLe).run now fresh s (.createGrant userId target action constraints)) := by
  simp only [RepoOp.storable, RepoOp.texts, RepoOp.jsonHasNul, Bool.and_eq_true,
    Bool.not_eq_true'] at hstorable
  obtain ⟨⟨hnul, hconstraints⟩, hlength⟩ := hstorable
  have hnul' : (Stmt.createGrant userId target action constraints).hasNul = false := by
    cases target with
    | specific databaseId => exact hconstraints
    | wildcard server =>
      simp only [Mysql.targetTexts, List.any_cons, List.any_nil, Bool.or_false] at hnul
      simp [Stmt.hasNul, hnul, hconstraints]
  change Agree (Mysql.createGrant now fresh s userId target action constraints) (autocommit s _)
  rw [autocommit_run hnul']
  simp only [Mysql.createGrant, Stmt.effect, Store.createGrant, hlength]
  cases s.missingReference userId target with
  | some constraint => exact ⟨rfl, rfl⟩
  | none =>
    refine ⟨?_, rfl⟩
    exact congrArg (fun row => (Mysql.reread row).toOption) (Store.getGrant_apply rfl)

theorem agree_updateGrant {action constraints}
    (hstorable : (RepoOp.updateGrant id action constraints).storable = true) :
    Agree ((mysqlRepo c).run now fresh s (.updateGrant id action constraints))
      ((pgRepo textLe).run now fresh s (.updateGrant id action constraints)) := by
  simp only [RepoOp.storable, RepoOp.jsonHasNul, Bool.and_eq_true, Bool.not_eq_true'] at hstorable
  change Agree (Mysql.updateGrant now s id action constraints) (autocommit s _)
  rw [autocommit_run (by exact hstorable.1.2)]
  simp only [Mysql.updateGrant, Stmt.effect, Store.updateGrant]
  cases hg : s.getGrant id with
  | none => exact ⟨rfl, rfl⟩
  | some g =>
    obtain ⟨hget, hlive⟩ := Store.getGrant_some hg
    obtain rfl := Table.key_of_get hget
    exact ⟨congrArg some (Store.getGrant_apply hlive), rfl⟩

/-! ### All operations -/

theorem agree_affected (w : Option Write) :
    Agree (Mysql.affected s w) (autocommit s (.ok (rowsAffected w))) := by
  cases w <;> exact ⟨rfl, rfl⟩

/-- **The backends agree on an operation** whose texts both can store and the collation
    tells apart from those of the live rows. -/
theorem agree_step (hs : s.WellFormed) (hfresh : s.Unused fresh) {op : RepoOp}
    (hstorable : op.storable = true) (htells : c.tells textLe s op = true) :
    Agree ((mysqlRepo c).run now fresh s op) ((pgRepo textLe).run now fresh s op) := by
  cases op with
  | upsertUser => exact agree_upsertUser hs hfresh hstorable htells
  | getUserBySub userSub =>
    simp only [RepoOp.storable, RepoOp.texts, Bool.and_eq_true, Bool.not_eq_true', List.any_cons,
      List.any_nil, Bool.or_false] at hstorable
    change Agree (_, s) (autocommit s _)
    rw [autocommit_run (by exact hstorable.1.1), Mysql.getUserBySub_eq htells]
    exact ⟨rfl, rfl⟩
  | getUser | listUsers | getDatabase | listGrantsForUser | getGrant | listGrants =>
    exact ⟨rfl, rfl⟩
  | updateUser => exact agree_updateUser hstorable
  | softDeleteUser id => exact agree_affected (s.softDeleteUser now id)
  | createDatabase => exact agree_createDatabase hstorable htells
  | listDatabases page =>
    refine ⟨?_, rfl⟩
    exact congrArg (fun rows => some (page.window rows)) (Mysql.databasesByName_eq htells)
  | allLiveDatabases => exact ⟨congrArg some (Mysql.databasesByName_eq htells), rfl⟩
  | updateDatabase => exact agree_updateDatabase hs hstorable htells
  | softDeleteDatabase id => exact agree_affected (s.softDeleteDatabase now id)
  | createGrant => exact agree_createGrant hstorable
  | updateGrant => exact agree_updateGrant hstorable
  | revokeGrant id => exact agree_affected (s.revokeGrant now id)

end

end DbMcpGateway.State
