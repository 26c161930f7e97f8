import DbMcpGateway.Authz.Cache

/-!
# What the admin handlers share

The mutation handlers of `/admin/v1/users`, `/databases` and `/grants` have one shape:
check the input, open a transaction, run statements in it, write the audit row, commit,
and spawn the invalidation of the permissions cache. This module has the requests a
handler makes of its environment, its errors, and the steps that all handlers repeat.

Left out are the log lines of `internal` and how an error or a row is rendered.
-/

namespace DbMcpGateway.Admin

open Async Async.Prog Audit Authz State

/-- `enum AdminErrorKind` (transport/admin/error.rs:23), the kinds that handlers return. -/
inductive AdminErrorKind
  | notFound
  | invalid (msg : String)
  | internal
  deriving DecidableEq

/-- `struct AdminError` (transport/admin/error.rs:45). -/
structure AdminError where
  kind : AdminErrorKind
  requestId : Option String
  deriving DecidableEq

def AdminError.notFound (requestId : String) : AdminError := ⟨.notFound, some requestId⟩

def AdminError.invalid (msg requestId : String) : AdminError := ⟨.invalid msg, some requestId⟩

def AdminError.internal (requestId : String) : AdminError := ⟨.internal, some requestId⟩

/-- `struct AdminActor` (transport/admin/middleware.rs:62). -/
structure AdminActor where
  sub : String
  email : String
  groups : List String
  requestId : String
  deriving DecidableEq

/-- What a handler asks of its environment. -/
inductive AdminReq
  /-- `state_db.begin()`. -/
  | begin
  /-- A statement in the transaction. -/
  | stmt (st : Stmt)
  /-- `tx.commit()`. -/
  | commit
  /-- `tokio::spawn` of an invalidation; the handler does not wait for it. -/
  | spawn (scope : Scope)

/-- The replies. -/
abbrev AdminResp : AdminReq → Type
  | .begin => Except SqlxError Unit
  | .stmt st => Except SqlxError st.Resp
  | .commit => Except SqlxError Unit
  | .spawn _ => Unit

/-- The work of a handler. -/
abbrev AdminProg := ExceptT AdminError (Prog AdminReq AdminResp)

def check {α : Type} (result : Except AdminError α) : AdminProg α := ExceptT.mk (pure result)

/-- The value of an extractor, or the error for its rejection. -/
def extracted {α : Type} (value : Option α) (error : AdminError) : Except AdminError α :=
  match value with
  | some a => .ok a
  | none => .error error

theorem extracted_ok {α : Type} {value error} {a : α}
    (h : extracted value error = .ok a) : value = some a := by
  cases value with
  | none => cases h
  | some b =>
    cases h
    rfl

/-- `.await.map_err(onError)?`. -/
def awaited {α : Type} (p : Prog AdminReq AdminResp (Except SqlxError α))
    (onError : SqlxError → AdminError) : AdminProg α :=
  ExceptT.mk do
    match ← p with
    | .ok a => return .ok a
    | .error e => return .error (onError e)

/-- `state.state_db.begin()`. -/
def beginTx (actor : AdminActor) : AdminProg Unit :=
  awaited (ask AdminReq.begin) fun _ => .internal actor.requestId

/-- A statement whose failure is mapped by `onError`. -/
def queryMapped (st : Stmt) (onError : SqlxError → AdminError) : AdminProg st.Resp :=
  awaited (ask (AdminReq.stmt st)) onError

/-- A statement whose failure is an internal error. -/
def query (actor : AdminActor) (st : Stmt) : AdminProg st.Resp :=
  queryMapped st fun _ => .internal actor.requestId

/-- The call of `tx_upsert_actor` in a handler. -/
def upsertActor (actor : AdminActor) : AdminProg Uuid :=
  query actor (.upsertActor actor.sub actor.email actor.groups)

def logAndCommit (actor : AdminActor) (actorId : Uuid) (action : PermissionsAuditAction)
    (targetType : PermissionsAuditTargetType) (targetId : Uuid) (before after : Option Payload) :
    AdminProg Unit := do
  let row : PermissionsAuditRow :=
    { actorId, actorEmail := actor.email, action, targetType, targetId, before, after
      requestId := actor.requestId }
  query actor (.log row)
  awaited (ask AdminReq.commit) fun _ => .internal actor.requestId

/-- `PermissionsCache::spawn_invalidate` (authz/cache.rs:143); `cache` says that the
    cache is wired. -/
def spawnInvalidate (cache : Bool) (userSub : Option String) : AdminProg Unit :=
  match cache, userSub with
  | true, some sub => ExceptT.lift (ask (AdminReq.spawn (.one sub)))
  | _, _ => pure ()

/-- `PermissionsCache::spawn_invalidate_all` (authz/cache.rs:157). -/
def spawnInvalidateAll (cache : Bool) : AdminProg Unit :=
  if cache then ExceptT.lift (ask (AdminReq.spawn .all)) else pure ()

/-- `trimmed_non_empty` (transport/admin/users/mod.rs:104). -/
def trimmedNonEmpty (value field requestId : String) : Except AdminError String :=
  let trimmed := Text.trim value
  if trimmed = "" then .error (.invalid s!"{field} must be non-empty" requestId) else .ok trimmed

theorem trimmedNonEmpty_ok {value field requestId trimmed : String}
    (h : trimmedNonEmpty value field requestId = .ok trimmed) : Text.trim value = trimmed := by
  unfold trimmedNonEmpty at h
  dsimp only at h
  split_ifs at h
  exact Except.ok.inj h

/-- `invalid_body` of the three resources. -/
def invalidBody (requestId : String) : AdminError := .invalid "invalid JSON body" requestId

/-- What a handler returns: the status, and the row of the body if there is one.
    `UserResponse`, `DatabaseResponse` and `GrantResponse` have the members of the
    audit payload of the row. -/
structure AdminResponse where
  status : ℕ
  body : Option Payload

end DbMcpGateway.Admin
