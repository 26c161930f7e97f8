import DbMcpGateway.Audit.Row
import DbMcpGateway.Data.Json
import DbMcpGateway.Data.Table
import DbMcpGateway.Data.Txn

/-!
# The permissions store

The rows of the permissions store (state/permissions/mod.rs) and of its audit table
(audit/permissions.rs), the tables of migration `0004_permissions.sql`, and the
writes of a transaction on them.

A write holds the row before and after it. PostgreSQL keeps the old row locked until
the transaction ends, and an entry of a partial unique index blocks a second live row
of the same key, so a write fits the committed store until its commit
(`writes.frame`).

Results:

* `apply_grows`: rows are never removed; a deleted or revoked row never changes again,
  and what a row refers to never changes.
* `apply_wellFormed`: live keys stay unique and references stay resolved.
-/

namespace DbMcpGateway.State

open Audit

/-- An instant, in microseconds since the epoch. -/
abbrev Timestamp := ℤ

/-! ## Rows -/

/-- `enum DbType` (state/permissions/mod.rs:27). -/
inductive DbType
  | postgres
  | mysql
  deriving DecidableEq

def DbType.asDbStr : DbType → String
  | .postgres => "postgres"
  | .mysql => "mysql"

def DbType.parse (s : String) : Option DbType :=
  if s = "postgres" then some .postgres else if s = "mysql" then some .mysql else none

/-- `enum GrantAction` (state/permissions/mod.rs:53). -/
inductive GrantAction
  | schemaRead
  | queryRead
  | queryWrite
  | historyRead
  deriving DecidableEq

def GrantAction.asDbStr : GrantAction → String
  | .schemaRead => "schema_read"
  | .queryRead => "query_read"
  | .queryWrite => "query_write"
  | .historyRead => "history_read"

def GrantAction.parse (s : String) : Option GrantAction :=
  if s = "schema_read" then some .schemaRead
  else if s = "query_read" then some .queryRead
  else if s = "query_write" then some .queryWrite
  else if s = "history_read" then some .historyRead
  else none

/-- `enum GrantTarget` (state/permissions/mod.rs:86). -/
inductive GrantTarget
  | specific (databaseId : Uuid)
  | wildcard (server : String)
  deriving DecidableEq

/-- `struct PermissionsUser` (state/permissions/mod.rs:97). -/
structure PermissionsUser where
  id : Uuid
  userSub : String
  userEmail : String
  groups : List String
  createdAt : Timestamp
  updatedAt : Timestamp
  deletedAt : Option Timestamp
  deriving DecidableEq

/-- `struct PermissionsDatabase` (state/permissions/mod.rs:111). -/
structure PermissionsDatabase where
  id : Uuid
  server : String
  dbName : String
  dbType : DbType
  createdAt : Timestamp
  updatedAt : Timestamp
  deletedAt : Option Timestamp
  deriving DecidableEq

/-- `struct PermissionsGrant` (state/permissions/mod.rs:122). -/
structure PermissionsGrant where
  id : Uuid
  userId : Uuid
  target : GrantTarget
  action : GrantAction
  constraints : Json
  createdAt : Timestamp
  updatedAt : Timestamp
  revokedAt : Option Timestamp

/-- A row that is not soft-deleted. -/
def PermissionsUser.live (u : PermissionsUser) : Bool := u.deletedAt.isNone

def PermissionsDatabase.live (d : PermissionsDatabase) : Bool := d.deletedAt.isNone

def PermissionsGrant.live (g : PermissionsGrant) : Bool := g.revokedAt.isNone

/-! ## The audit table -/

/-- `enum PermissionsAuditAction` (audit/permissions.rs:30). -/
inductive PermissionsAuditAction
  | create
  | update
  | delete
  deriving DecidableEq

/-- `enum PermissionsAuditTargetType` (audit/permissions.rs:58). -/
inductive PermissionsAuditTargetType
  | user
  | database
  | grant
  deriving DecidableEq

/-- The JSON object of `user_payload` (transport/admin/users/mod.rs:130),
    `database_payload` (transport/admin/databases/mod.rs:312) or `grant_payload`
    (transport/admin/grants/validation.rs:80), by its members. -/
inductive Payload
  | user (id : Uuid) (userSub userEmail : String) (groups : List String)
      (createdAt updatedAt : Timestamp)
  | database (id : Uuid) (server dbName dbType : String) (createdAt updatedAt : Timestamp)
  | grant (id userId : Uuid) (databaseId : Option Uuid) (server : Option String)
      (dbNameWildcard : Bool) (action : String) (constraints : Json)
      (createdAt updatedAt : Timestamp)

def userPayload (u : PermissionsUser) : Payload :=
  .user u.id u.userSub u.userEmail u.groups u.createdAt u.updatedAt

def databasePayload (d : PermissionsDatabase) : Payload :=
  .database d.id d.server d.dbName d.dbType.asDbStr d.createdAt d.updatedAt

def grantPayload (g : PermissionsGrant) : Payload :=
  match g.target with
  | .specific databaseId =>
    .grant g.id g.userId (some databaseId) none false g.action.asDbStr g.constraints g.createdAt
      g.updatedAt
  | .wildcard server =>
    .grant g.id g.userId none (some server) true g.action.asDbStr g.constraints g.createdAt
      g.updatedAt

/-- `struct PermissionsAuditRow` (audit/permissions.rs:87). -/
structure PermissionsAuditRow where
  actorId : Uuid
  actorEmail : String
  action : PermissionsAuditAction
  targetType : PermissionsAuditTargetType
  targetId : Uuid
  before : Option Payload
  after : Option Payload
  requestId : String

/-- The CHECK constraints of migrations `0005` and `0006`. -/
def PermissionsAuditRow.checked (row : PermissionsAuditRow) : Bool :=
  row.actorEmail ≠ "" && row.requestId ≠ "" &&
    match row.action with
    | .create => row.before.isNone && row.after.isSome
    | .update => row.before.isSome && row.after.isSome
    | .delete => row.before.isSome && row.after.isNone

/-! ## The committed store -/

/-- The tables; the audit rows are in the order of their commits. -/
structure Store where
  users : Table PermissionsUser.id
  databases : Table PermissionsDatabase.id
  grants : Table PermissionsGrant.id
  audit : List PermissionsAuditRow

/-- The store of a fresh install. -/
def Store.empty : Store := ⟨.empty, .empty, .empty, []⟩

inductive Write
  | user (old : Option PermissionsUser) (new : PermissionsUser)
  | database (old : Option PermissionsDatabase) (new : PermissionsDatabase)
  | grant (old : Option PermissionsGrant) (new : PermissionsGrant)
  | audit (row : PermissionsAuditRow)

/-- The store after a write. -/
def Store.apply (s : Store) : Write → Store
  | .user _ new => { s with users := s.users.put new }
  | .database _ new => { s with databases := s.databases.put new }
  | .grant _ new => { s with grants := s.grants.put new }
  | .audit row => { s with audit := s.audit ++ [row] }

/-- What a write locks: its row, and the entries of the unique indexes
    `permissions_users_user_sub_live_idx` and
    `permissions_databases_server_db_name_live_idx`. -/
inductive Lock
  | userRow (id : Uuid)
  | userSub (sub : String)
  | databaseRow (id : Uuid)
  | databasePair (server dbName : String)
  | grantRow (id : Uuid)
  deriving DecidableEq

@[simp] def Write.locks : Write → List Lock
  | .user _ new => [.userRow new.id, .userSub new.userSub]
  | .database none new => [.databaseRow new.id, .databasePair new.server new.dbName]
  | .database (some old) new =>
    [.databaseRow new.id, .databasePair new.server new.dbName, .databasePair old.server old.dbName]
  | .grant _ new => [.grantRow new.id]
  | .audit _ => []

def Store.HasTarget (s : Store) : GrantTarget → Prop
  | .specific databaseId => ∃ d, s.databases.get databaseId = some d
  | .wildcard _ => True

/-- A write that PostgreSQL would make on this store: it replaces the row that is
    there, which is live, or adds one; it keeps the unique indexes and the foreign
    keys; it does not move the row of a grant or a user to another owner. -/
def Write.Fits (s : Store) : Write → Prop
  | .user old new => s.users.get new.id = old ∧
      (∀ u, old = some u → u.live = true ∧ new.userSub = u.userSub) ∧
      (new.live = true → ∀ u ∈ s.users.rows, u.live = true → u.userSub = new.userSub →
        u.id = new.id)
  | .database old new => s.databases.get new.id = old ∧
      (∀ d, old = some d → d.live = true) ∧
      (new.live = true → ∀ d ∈ s.databases.rows, d.live = true → d.server = new.server →
        d.dbName = new.dbName → d.id = new.id)
  | .grant old new => s.grants.get new.id = old ∧
      (∀ g, old = some g → g.live = true ∧ new.userId = g.userId ∧ new.target = g.target) ∧
      (∃ u, s.users.get new.userId = some u) ∧ s.HasTarget new.target
  | .audit _ => True

theorem exists_get_put {κ α : Type} [DecidableEq κ] {key : α → κ} {t : Table key} {row : α} {k : κ}
    (h : ∃ r, t.get k = some r) : ∃ r, (t.put row).get k = some r := by
  rw [Table.get_put]
  split_ifs
  · exact ⟨row, rfl⟩
  · exact h

variable {s : Store} {w : Write}

theorem Write.fits_apply {w' : Write} (h : w.Fits s) (hlocks : w.locks.Disjoint w'.locks) :
    w.Fits (s.apply w') := by
  cases w with
  | user old new =>
    cases w' with
    | user old' new' =>
      obtain ⟨hget, hold, hunique⟩ := h
      have hid : new.id ≠ new'.id := by
        intro h
        exact hlocks (a := .userRow new.id) (by simp) (by simp [h])
      have hsub : new'.userSub ≠ new.userSub := by
        intro h
        exact hlocks (a := .userSub new.userSub) (by simp) (by simp [h])
      refine ⟨(Table.get_put_of_ne hid).trans hget, hold, fun hlive u hu hulive husub => ?_⟩
      rcases Table.mem_put.mp hu with rfl | ⟨hu, -⟩
      · exact absurd husub hsub
      · exact hunique hlive u hu hulive husub
    | database old' new' | grant old' new' | audit row => exact h
  | database old new =>
    cases w' with
    | user old' new' | grant old' new' | audit row => exact h
    | database old' new' =>
      obtain ⟨hget, hold, hunique⟩ := h
      have hid : new.id ≠ new'.id := by
        intro h
        refine hlocks (a := .databaseRow new.id) ?_ ?_
        · cases old <;> simp
        · cases old' <;> simp [h]
      have hpair : ¬ (new'.server = new.server ∧ new'.dbName = new.dbName) := by
        rintro ⟨hserver, hname⟩
        refine hlocks (a := .databasePair new.server new.dbName) ?_ ?_
        · cases old <;> simp
        · cases old' <;> simp [hserver, hname]
      refine ⟨(Table.get_put_of_ne hid).trans hget, hold, fun hlive d hd hdlive hserver hname => ?_⟩
      rcases Table.mem_put.mp hd with rfl | ⟨hd, -⟩
      · exact absurd ⟨hserver, hname⟩ hpair
      · exact hunique hlive d hd hdlive hserver hname
  | grant old new =>
    cases w' with
    | user old' new' =>
      obtain ⟨hget, hold, huser, htarget⟩ := h
      exact ⟨hget, hold, exists_get_put huser, htarget⟩
    | database old' new' =>
      obtain ⟨hget, hold, huser, htarget⟩ := h
      refine ⟨hget, hold, huser, ?_⟩
      revert htarget
      cases new.target with
      | specific databaseId => exact exists_get_put
      | wildcard server => exact id
    | grant old' new' =>
      obtain ⟨hget, hold, huser, htarget⟩ := h
      have hid : new.id ≠ new'.id := by
        intro h
        exact hlocks (a := .grantRow new.id) (by simp) (by simp [h])
      exact ⟨(Table.get_put_of_ne hid).trans hget, hold, huser, htarget⟩
    | audit row => exact h
  | audit row => trivial

theorem Write.user_fits_of_apply {old new}
    (hw : w.Fits s) (hlocks : w.locks.Disjoint (Write.user old new).locks)
    (h : (Write.user old new).Fits (s.apply w)) : (Write.user old new).Fits s := by
  cases w with
  | user old' new' =>
    obtain ⟨hget', hold', -⟩ := hw
    obtain ⟨hget, hold, hunique⟩ := h
    have hid : new.id ≠ new'.id := by
      intro h
      exact hlocks (a := .userRow new'.id) (by simp) (by simp [h])
    have hsub : new'.userSub ≠ new.userSub := by
      intro h
      exact hlocks (a := .userSub new'.userSub) (by simp) (by simp [h])
    refine ⟨(Table.get_put_of_ne hid).symm.trans hget, hold, fun hlive u hu hulive husub => ?_⟩
    refine hunique hlive u (Table.mem_put.mpr (.inr ⟨hu, ?_⟩)) hulive husub
    -- the row that the other write replaces has another subject
    intro hid'
    have holdu : old' = some u := by
      rw [← hget', ← hid']
      exact Table.get_eq_some.mpr ⟨hu, rfl⟩
    exact hsub ((hold' u holdu).2.trans husub)
  | database old' new' | grant old' new' | audit row => exact h

def writes : Txn.Model Store Write Lock where
  apply := Store.apply
  locks := Write.locks
  Fits := fun s w => w.Fits s
  frame := fun h _ hlocks => Write.fits_apply h hlocks

/-! ## Growth -/

structure Store.Grows (s s' : Store) : Prop where
  /-- A user row keeps its subject, and once deleted it never changes. -/
  users : ∀ u, s.users.get u.id = some u → ∃ u', s'.users.get u.id = some u' ∧
    u'.userSub = u.userSub ∧ (u.live = false → u' = u)
  /-- A deleted database row never changes. -/
  databases : ∀ d, s.databases.get d.id = some d → ∃ d', s'.databases.get d.id = some d' ∧
    (d.live = false → d' = d)
  /-- A grant keeps its user and its target, and once revoked it never changes. -/
  grants : ∀ g, s.grants.get g.id = some g → ∃ g', s'.grants.get g.id = some g' ∧
    g'.userId = g.userId ∧ g'.target = g.target ∧ (g.live = false → g' = g)

theorem Store.Grows.refl (s : Store) : s.Grows s :=
  ⟨fun u h => ⟨u, h, rfl, fun _ => rfl⟩, fun d h => ⟨d, h, fun _ => rfl⟩,
    fun g h => ⟨g, h, rfl, rfl, fun _ => rfl⟩⟩

theorem Store.Grows.trans {s' s'' : Store} (h : s.Grows s') (h' : s'.Grows s'') :
    s.Grows s'' := by
  constructor
  · intro u hu
    obtain ⟨u', hu', hsub, hdead⟩ := h.users u hu
    have hid : u'.id = u.id := Table.key_of_get hu'
    obtain ⟨u'', hu'', hsub', hdead'⟩ := h'.users u' (by rw [hid]; exact hu')
    rw [hid] at hu''
    refine ⟨u'', hu'', hsub'.trans hsub, fun hl => ?_⟩
    have heq := hdead hl
    subst heq
    exact hdead' hl
  · intro d hd
    obtain ⟨d', hd', hdead⟩ := h.databases d hd
    have hid : d'.id = d.id := Table.key_of_get hd'
    obtain ⟨d'', hd'', hdead'⟩ := h'.databases d' (by rw [hid]; exact hd')
    rw [hid] at hd''
    refine ⟨d'', hd'', fun hl => ?_⟩
    have heq := hdead hl
    subst heq
    exact hdead' hl
  · intro g hg
    obtain ⟨g', hg', huser, htarget, hdead⟩ := h.grants g hg
    have hid : g'.id = g.id := Table.key_of_get hg'
    obtain ⟨g'', hg'', huser', htarget', hdead'⟩ := h'.grants g' (by rw [hid]; exact hg')
    rw [hid] at hg''
    refine ⟨g'', hg'', huser'.trans huser, htarget'.trans htarget, fun hl => ?_⟩
    have heq := hdead hl
    subst heq
    exact hdead' hl

theorem Store.empty_grows (s : Store) : Store.empty.Grows s := by
  constructor <;> simp [Store.empty, Table.empty, Table.get]

theorem Store.apply_grows (h : w.Fits s) : s.Grows (s.apply w) := by
  cases w with
  | user old new =>
    obtain ⟨hget, hold, -⟩ := h
    refine ⟨fun u hu => ?_, (Grows.refl s).databases, (Grows.refl s).grants⟩
    by_cases hid : u.id = new.id
    · have holdu : old = some u := by rw [← hget, ← hid, hu]
      obtain ⟨hlive, hsub⟩ := hold u holdu
      refine ⟨new, ?_, hsub, fun hdead => absurd hlive (by rw [hdead]; decide)⟩
      rw [hid]
      exact Table.get_put_self s.users new
    · exact ⟨u, (Table.get_put_of_ne hid).trans hu, rfl, fun _ => rfl⟩
  | database old new =>
    obtain ⟨hget, hold, -⟩ := h
    refine ⟨(Grows.refl s).users, fun d hd => ?_, (Grows.refl s).grants⟩
    by_cases hid : d.id = new.id
    · have holdd : old = some d := by rw [← hget, ← hid, hd]
      have hlive := hold d holdd
      refine ⟨new, ?_, fun hdead => absurd hlive (by rw [hdead]; decide)⟩
      rw [hid]
      exact Table.get_put_self s.databases new
    · exact ⟨d, (Table.get_put_of_ne hid).trans hd, fun _ => rfl⟩
  | grant old new =>
    obtain ⟨hget, hold, -⟩ := h
    refine ⟨(Grows.refl s).users, (Grows.refl s).databases, fun g hg => ?_⟩
    by_cases hid : g.id = new.id
    · have holdg : old = some g := by rw [← hget, ← hid, hg]
      obtain ⟨hlive, huser, htarget⟩ := hold g holdg
      refine ⟨new, ?_, huser, htarget, fun hdead => absurd hlive (by rw [hdead]; decide)⟩
      rw [hid]
      exact Table.get_put_self s.grants new
    · exact ⟨g, (Table.get_put_of_ne hid).trans hg, rfl, rfl, fun _ => rfl⟩
  | audit row => exact ⟨(Grows.refl s).users, (Grows.refl s).databases, (Grows.refl s).grants⟩

/-! ## Well-formed stores -/

/-- The unique indexes and the foreign keys hold. -/
structure Store.WellFormed (s : Store) : Prop where
  userSub : ∀ u ∈ s.users.rows, ∀ u' ∈ s.users.rows, u.live = true → u'.live = true →
    u.userSub = u'.userSub → u = u'
  databasePair : ∀ d ∈ s.databases.rows, ∀ d' ∈ s.databases.rows, d.live = true → d'.live = true →
    d.server = d'.server → d.dbName = d'.dbName → d = d'
  grantUser : ∀ g ∈ s.grants.rows, ∃ u, s.users.get g.userId = some u
  grantTarget : ∀ g ∈ s.grants.rows, s.HasTarget g.target

theorem Store.wellFormed_empty : Store.empty.WellFormed := by
  constructor <;> simp [Store.empty, Table.empty]

theorem Store.HasTarget.put_database {new target} (h : s.HasTarget target) :
    Store.HasTarget { s with databases := s.databases.put new } target := by
  cases target with
  | specific databaseId => exact exists_get_put h
  | wildcard server => trivial

theorem Store.apply_wellFormed (hs : s.WellFormed) (h : w.Fits s) :
    (s.apply w).WellFormed := by
  cases w with
  | user old new =>
    obtain ⟨-, -, hunique⟩ := h
    refine ⟨?_, hs.databasePair, fun g hg => exists_get_put (hs.grantUser g hg), hs.grantTarget⟩
    intro u hu u' hu' hlive hlive' hsub
    rcases Table.mem_put.mp hu with rfl | ⟨hmem, hne⟩
    · rcases Table.mem_put.mp hu' with rfl | ⟨hmem', hne'⟩
      · rfl
      · exact absurd (hunique hlive u' hmem' hlive' hsub.symm) hne'
    · rcases Table.mem_put.mp hu' with rfl | ⟨hmem', hne'⟩
      · exact absurd (hunique hlive' u hmem hlive hsub) hne
      · exact hs.userSub u hmem u' hmem' hlive hlive' hsub
  | database old new =>
    obtain ⟨-, -, hunique⟩ := h
    refine ⟨hs.userSub, ?_, hs.grantUser, fun g hg => (hs.grantTarget g hg).put_database⟩
    intro d hd d' hd' hlive hlive' hserver hname
    rcases Table.mem_put.mp hd with rfl | ⟨hmem, hne⟩
    · rcases Table.mem_put.mp hd' with rfl | ⟨hmem', hne'⟩
      · rfl
      · exact absurd (hunique hlive d' hmem' hlive' hserver.symm hname.symm) hne'
    · rcases Table.mem_put.mp hd' with rfl | ⟨hmem', hne'⟩
      · exact absurd (hunique hlive' d hmem hlive hserver hname) hne
      · exact hs.databasePair d hmem d' hmem' hlive hlive' hserver hname
  | grant old new =>
    obtain ⟨-, -, huser, htarget⟩ := h
    refine ⟨hs.userSub, hs.databasePair, fun g hg => ?_, fun g hg => ?_⟩
    · rcases Table.mem_put.mp hg with rfl | ⟨hg, -⟩
      · exact huser
      · exact hs.grantUser g hg
    · rcases Table.mem_put.mp hg with rfl | ⟨hg, -⟩
      · exact htarget
      · exact hs.grantTarget g hg
  | audit row => exact ⟨hs.userSub, hs.databasePair, hs.grantUser, hs.grantTarget⟩

end DbMcpGateway.State
