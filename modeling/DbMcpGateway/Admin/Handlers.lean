import DbMcpGateway.Admin.Mutation

/-!
# The admin handlers

The nine mutation handlers of `/admin/v1/users` (users/handlers.rs), `/databases`
(databases/mod.rs) and `/grants` (grants/mod.rs), with their checks and error mappings.
The extractors of path and body give `none` when they reject.

Results:

* `handle_follows`: every handler follows the protocol of a mutation.
-/

namespace DbMcpGateway.Admin

open Async Async.Prog Audit Authz Config State

attribute [local simp] MayRun ReadsOnly Stmt.isRead

/-! ## Users -/

namespace Users

/-- `struct CreateUserRequest` (users/mod.rs:76). -/
structure CreateUserRequest where
  userSub : String
  userEmail : String
  groups : List String := []
  deriving DecidableEq

/-- `struct UpdateUserRequest` (users/mod.rs:84). -/
structure UpdateUserRequest where
  userEmail : Option String := none
  groups : Option (List String) := none
  deriving DecidableEq

/-- `invalid_id` (users/mod.rs:100). -/
def invalidId (requestId : String) : AdminError := .invalid "invalid user id" requestId

/-- `validate_groups` (users/mod.rs:120). -/
def validateGroups (groups : List String) (requestId : String) : Except AdminError (List String) :=
  groups.mapM fun g => trimmedNonEmpty g "groups[]" requestId

/-- `create` (users/handlers.rs:24). -/
def create (actor : AdminActor) (body : Option CreateUserRequest) : AdminProg AdminResponse := do
  let body ← check (extracted body (invalidBody actor.requestId))
  let userSub ← check (trimmedNonEmpty body.userSub "user_sub" actor.requestId)
  let userEmail ← check (trimmedNonEmpty body.userEmail "user_email" actor.requestId)
  let groups ← check (validateGroups body.groups actor.requestId)
  beginTx actor
  let before ← query actor (.getUserBySub userSub)
  let user ← query actor (.upsertUser userSub userEmail groups)
  let actorId ← (if actor.sub = userSub then pure user.id else upsertActor actor)
  logAndCommit actor actorId (if before.isSome then .update else .create) .user user.id
    (before.map userPayload) (some (userPayload user))
  return ⟨if before.isSome then 200 else 201, some (userPayload user)⟩

/-- `patch` (users/handlers.rs:128). -/
def patch (actor : AdminActor) (cache : Bool) (id : Option Uuid) (body : Option UpdateUserRequest) :
    AdminProg AdminResponse := do
  let id ← check (extracted id (invalidId actor.requestId))
  let body ← check (extracted body (invalidBody actor.requestId))
  check (if body.userEmail.isNone && body.groups.isNone then
    .error (.invalid "PATCH body must set at least one of user_email, groups" actor.requestId)
    else .ok ())
  let userEmail ← check (body.userEmail.mapM fun e => trimmedNonEmpty e "user_email" actor.requestId)
  let groups ← check (body.groups.mapM fun g => validateGroups g actor.requestId)
  beginTx actor
  let some before ← query actor (.getUserById id) | throw (.notFound actor.requestId)
  let some after ← query actor (.updateUser id userEmail groups)
    | throw (.notFound actor.requestId)
  let actorId ← (if actor.sub = before.userSub then pure after.id else upsertActor actor)
  logAndCommit actor actorId .update .user after.id (some (userPayload before))
    (some (userPayload after))
  spawnInvalidate cache (some after.userSub)
  return ⟨200, some (userPayload after)⟩

/-- `delete` (users/handlers.rs:207). -/
def delete (actor : AdminActor) (cache : Bool) (id : Option Uuid) : AdminProg AdminResponse := do
  let id ← check (extracted id (invalidId actor.requestId))
  beginTx actor
  let some before ← query actor (.getUserById id) | throw (.notFound actor.requestId)
  let .true ← query actor (.softDeleteUser id) | throw (.notFound actor.requestId)
  let actorId ← (if actor.sub = before.userSub then pure before.id else upsertActor actor)
  logAndCommit actor actorId .delete .user id (some (userPayload before)) none
  spawnInvalidate cache (some before.userSub)
  return ⟨204, none⟩

theorem create_follows (actor : AdminActor) (body : Option CreateUserRequest) :
    Follows actor (body.map fun b => Text.trim b.userSub) .start (create actor body) := by
  refine follows_check fun body' hbody => ?_
  refine follows_check fun userSub hsub => ?_
  refine follows_check fun userEmail _ => ?_
  refine follows_check fun groups _ => ?_
  have hsubject : body.map (fun b => Text.trim b.userSub) = some userSub := by
    rw [extracted_ok hbody, Option.map_some, trimmedNonEmpty_ok hsub]
  refine follows_beginTx ?_
  refine follows_query trivial fun before => ?_
  refine follows_query ⟨by simp, hsubject⟩ fun user => ?_
  refine follows_upsertActor_unless (m := .createUser userSub userEmail groups before user)
    rfl rfl fun actorId hactor => ?_
  exact follows_logAndCommit (m := .createUser userSub userEmail groups before user) rfl hactor
    ⟨rfl⟩

theorem patch_follows (actor : AdminActor) (id : Option Uuid) (body : Option UpdateUserRequest) :
    Follows actor none .start (patch actor true id body) := by
  refine follows_check fun id _ => ?_
  refine follows_check fun body _ => ?_
  refine follows_check fun _ _ => ?_
  refine follows_check fun userEmail _ => ?_
  refine follows_check fun groups _ => ?_
  refine follows_beginTx ?_
  refine follows_query trivial fun | none => follows_throw | some before => ?_
  refine follows_query (by simp) fun
    | none => follows_throw
    | some after => ?_
  refine follows_upsertActor_unless (m := .updateUser id userEmail groups before after)
    rfl rfl fun actorId hactor => ?_
  refine follows_logAndCommit (m := .updateUser id userEmail groups before after) rfl hactor ?_
  exact follows_spawnInvalidate rfl

theorem delete_follows (actor : AdminActor) (id : Option Uuid) :
    Follows actor none .start (delete actor true id) := by
  refine follows_check fun id _ => ?_
  refine follows_beginTx ?_
  refine follows_query trivial fun | none => follows_throw | some before => ?_
  refine follows_query (by simp) fun
    | false => follows_throw
    | true => ?_
  refine follows_upsertActor_unless (m := .deleteUser id before) rfl rfl fun actorId hactor => ?_
  refine follows_logAndCommit (m := .deleteUser id before) rfl hactor ?_
  exact follows_spawnInvalidate rfl

end Users

/-! ## Databases -/

namespace Databases

/-- `struct CreateDatabaseRequest` (databases/dto.rs:47). -/
structure CreateDatabaseRequest where
  server : String
  dbName : String
  dbType : String
  deriving DecidableEq

/-- `struct UpdateDatabaseRequest` (databases/dto.rs:56). -/
structure UpdateDatabaseRequest where
  server : Option String := none
  dbName : Option String := none
  dbType : Option String := none
  deriving DecidableEq

/-- `invalid_id` (databases/validation.rs:14). -/
def invalidId (requestId : String) : AdminError := .invalid "invalid database id" requestId

/-- `trimmed_non_empty` (databases/validation.rs:29): unlike that of the users, it
    refuses the text `*` too. -/
def trimmedNonEmpty (value field requestId : String) : Except AdminError String :=
  let trimmed := Text.trim value
  if trimmed = "" then .error (.invalid s!"{field} must be non-empty" requestId)
  else if trimmed = "*" then
    .error (.invalid (field ++ " cannot be the literal `*` — that string is reserved for " ++
      "wildcard grants (see db_name_wildcard on /admin/v1/grants)") requestId)
  else .ok trimmed

/-- `parse_db_type` (databases/validation.rs:56). -/
def parseDbType (value requestId : String) : Except AdminError DbType :=
  match DbType.parse (Text.trim value) with
  | some dbType => .ok dbType
  | none =>
    .error (.invalid s!"db_type `{value}` not supported (allowed: postgres, mysql)" requestId)

/-- `map_duplicate_database_error` (databases/validation.rs:110). -/
def mapDuplicateDatabaseError (server dbName requestId : String) : SqlxError → AdminError
  | .database (some "23505") (some "permissions_databases_server_db_name_live_idx") =>
    .invalid s!"database `{dbName}` on server `{server}` is already registered" requestId
  | _ => .internal requestId

/-- `create` (databases/mod.rs:86). -/
def create (actor : AdminActor) (cache : Bool) (body : Option CreateDatabaseRequest) :
    AdminProg AdminResponse := do
  let body ← check (extracted body (invalidBody actor.requestId))
  let server ← check (trimmedNonEmpty body.server "server" actor.requestId)
  let dbName ← check (trimmedNonEmpty body.dbName "db_name" actor.requestId)
  let dbType ← check (parseDbType body.dbType actor.requestId)
  beginTx actor
  let database ← queryMapped (.createDatabase server dbName dbType)
    (mapDuplicateDatabaseError server dbName actor.requestId)
  let actorId ← upsertActor actor
  logAndCommit actor actorId .create .database database.id none (some (databasePayload database))
  spawnInvalidateAll cache
  return ⟨201, some (databasePayload database)⟩

/-- `patch` (databases/mod.rs:177). -/
def patch (actor : AdminActor) (cache : Bool) (id : Option Uuid)
    (body : Option UpdateDatabaseRequest) : AdminProg AdminResponse := do
  let id ← check (extracted id (invalidId actor.requestId))
  let body ← check (extracted body (invalidBody actor.requestId))
  check (if body.server.isNone && body.dbName.isNone && body.dbType.isNone then
    .error (.invalid "PATCH body must set at least one of server, db_name, db_type"
      actor.requestId)
    else .ok ())
  let server ← check (body.server.mapM fun s => trimmedNonEmpty s "server" actor.requestId)
  let dbName ← check (body.dbName.mapM fun d => trimmedNonEmpty d "db_name" actor.requestId)
  let dbType ← check (body.dbType.mapM fun t => parseDbType t actor.requestId)
  beginTx actor
  let some before ← query actor (.getDatabaseById id) | throw (.notFound actor.requestId)
  let some after ← queryMapped (.updateDatabase id server dbName dbType)
    (mapDuplicateDatabaseError (server.getD before.server) (dbName.getD before.dbName)
      actor.requestId)
    | throw (.notFound actor.requestId)
  let actorId ← upsertActor actor
  logAndCommit actor actorId .update .database after.id (some (databasePayload before))
    (some (databasePayload after))
  spawnInvalidateAll cache
  return ⟨200, some (databasePayload after)⟩

/-- `delete` (databases/mod.rs:260). -/
def delete (actor : AdminActor) (cache : Bool) (id : Option Uuid) : AdminProg AdminResponse := do
  let id ← check (extracted id (invalidId actor.requestId))
  beginTx actor
  let some before ← query actor (.getDatabaseById id) | throw (.notFound actor.requestId)
  let .true ← query actor (.softDeleteDatabase id) | throw (.notFound actor.requestId)
  let actorId ← upsertActor actor
  logAndCommit actor actorId .delete .database id (some (databasePayload before)) none
  spawnInvalidateAll cache
  return ⟨204, none⟩

theorem trimmedNonEmpty_ne_star {value field requestId trimmed : String}
    (h : trimmedNonEmpty value field requestId = .ok trimmed) : trimmed ≠ "*" := by
  unfold trimmedNonEmpty at h
  dsimp only at h
  split_ifs at h with _ hstar
  rw [← Except.ok.inj h]
  exact hstar

/-- An optional name that passes the check is not `*`. -/
theorem mapM_trimmedNonEmpty_ne_star {value : Option String} {field requestId : String}
    {trimmed}
    (h : value.mapM (fun v => trimmedNonEmpty v field requestId) = .ok trimmed) :
    trimmed ≠ some "*" := by
  cases value with
  | none =>
    cases h
    simp
  | some v =>
    simp only [Option.mapM_some] at h
    cases hv : trimmedNonEmpty v field requestId with
    | error e =>
      rw [hv] at h
      cases h
    | ok t =>
      rw [hv] at h
      cases h
      simpa using trimmedNonEmpty_ne_star hv

theorem create_follows (actor : AdminActor) (body : Option CreateDatabaseRequest) :
    Follows actor none .start (create actor true body) := by
  refine follows_check fun body _ => ?_
  refine follows_check fun server hserver => ?_
  refine follows_check fun dbName hname => ?_
  refine follows_check fun dbType _ => ?_
  refine follows_beginTx ?_
  refine follows_queryMapped ⟨by simp, trimmedNonEmpty_ne_star hserver,
    trimmedNonEmpty_ne_star hname⟩ fun database => ?_
  refine follows_logged (.createDatabase server dbName dbType database) rfl rfl fun _ => ?_
  exact follows_spawnInvalidateAll rfl

theorem patch_follows (actor : AdminActor) (id : Option Uuid)
    (body : Option UpdateDatabaseRequest) : Follows actor none .start (patch actor true id body) := by
  refine follows_check fun id _ => ?_
  refine follows_check fun body _ => ?_
  refine follows_check fun _ _ => ?_
  refine follows_check fun server hserver => ?_
  refine follows_check fun dbName hname => ?_
  refine follows_check fun dbType _ => ?_
  refine follows_beginTx ?_
  refine follows_query trivial fun | none => follows_throw | some before => ?_
  refine follows_queryMapped ⟨by simp,
    mapM_trimmedNonEmpty_ne_star hserver, mapM_trimmedNonEmpty_ne_star hname⟩ fun
    | none => follows_throw
    | some after => ?_
  refine follows_logged (.updateDatabase id server dbName dbType before after) rfl rfl fun _ => ?_
  exact follows_spawnInvalidateAll rfl

theorem delete_follows (actor : AdminActor) (id : Option Uuid) :
    Follows actor none .start (delete actor true id) := by
  refine follows_check fun id _ => ?_
  refine follows_beginTx ?_
  refine follows_query trivial fun | none => follows_throw | some before => ?_
  refine follows_query (by simp) fun
    | false => follows_throw
    | true => ?_
  refine follows_logged (.deleteDatabase id before) rfl rfl fun _ => ?_
  exact follows_spawnInvalidateAll rfl

end Databases

/-! ## Grants -/

namespace Grants

/-- `struct CreateGrantRequest` (grants/dto.rs:27). -/
structure CreateGrantRequest where
  userId : Uuid
  databaseId : Option Uuid := none
  server : Option String := none
  dbNameWildcard : Option Bool := none
  action : String
  constraints : Constraints := {}
  deriving DecidableEq

/-- `struct UpdateGrantRequest` (grants/dto.rs:53). -/
structure UpdateGrantRequest where
  action : Option String := none
  constraints : Option Constraints := none
  deriving DecidableEq

/-- `invalid_id` (grants/validation.rs:15). -/
def invalidId (requestId : String) : AdminError := .invalid "invalid grant id" requestId

/-- `parse_grant_target` (grants/validation.rs:30). -/
def parseGrantTarget (body : CreateGrantRequest) (requestId : String) :
    Except AdminError GrantTarget :=
  match body.databaseId, body.server, body.dbNameWildcard.getD false with
  | some databaseId, none, false => .ok (.specific databaseId)
  | none, some server, true =>
    let trimmed := Text.trim server
    if trimmed = "" then .error (.invalid "server must be non-empty" requestId)
    else .ok (.wildcard trimmed)
  | _, _, _ =>
    .error (.invalid ("must set exactly one target: either `database_id` (specific), " ++
      "or `server` plus `db_name_wildcard: true` (wildcard)") requestId)

/-- `parse_action` (grants/validation.rs:58). -/
def parseAction (value requestId : String) : Except AdminError GrantAction :=
  match GrantAction.parse (Text.trim value) with
  | some action => .ok action
  | none =>
    .error (.invalid (s!"action `{value}` not supported " ++
      "(allowed: schema_read, query_read, query_write, history_read)") requestId)

/-- `constraints_to_json` (grants/validation.rs:68). -/
def constraintsToJson (c : Constraints) : Json :=
  let limit : Option ℕ → Json := fun
    | none => .null
    | some n => .int n
  .obj [("require_reason", .bool c.requireReason), ("row_limit", limit c.rowLimit),
    ("statement_timeout_ms", limit c.statementTimeoutMs)]

/-- `map_create_grant_error` (grants/validation.rs:132). -/
def mapCreateGrantError (requestId : String) : SqlxError → AdminError
  | .database (some "23503") _ =>
    .invalid "invalid grant reference: user or database does not exist" requestId
  | .database (some "23514") _ => .invalid "grant violates target/action constraints" requestId
  | _ => .internal requestId

/-- `create` (grants/mod.rs:81). -/
def create (actor : AdminActor) (cache : Bool) (body : Option CreateGrantRequest) :
    AdminProg AdminResponse := do
  let body ← check (extracted body (invalidBody actor.requestId))
  let target ← check (parseGrantTarget body actor.requestId)
  let action ← check (parseAction body.action actor.requestId)
  let constraints := constraintsToJson body.constraints
  beginTx actor
  let grant ← queryMapped (.createGrant body.userId target action constraints)
    (mapCreateGrantError actor.requestId)
  let userSub ← query actor (.userSubForId grant.userId)
  let actorId ← upsertActor actor
  logAndCommit actor actorId .create .grant grant.id none (some (grantPayload grant))
  spawnInvalidate cache userSub
  return ⟨201, some (grantPayload grant)⟩

/-- `patch` (grants/mod.rs:165). -/
def patch (actor : AdminActor) (cache : Bool) (id : Option Uuid)
    (body : Option UpdateGrantRequest) : AdminProg AdminResponse := do
  let id ← check (extracted id (invalidId actor.requestId))
  let body ← check (extracted body (invalidBody actor.requestId))
  check (if body.action.isNone && body.constraints.isNone then
    .error (.invalid "PATCH body must set at least one of action, constraints" actor.requestId)
    else .ok ())
  let action ← check (body.action.mapM fun a => parseAction a actor.requestId)
  let constraints := body.constraints.map constraintsToJson
  beginTx actor
  let some before ← query actor (.getGrantById id) | throw (.notFound actor.requestId)
  let some after ← query actor (.updateGrant id action constraints)
    | throw (.notFound actor.requestId)
  let userSub ← query actor (.userSubForId after.userId)
  let actorId ← upsertActor actor
  logAndCommit actor actorId .update .grant after.id (some (grantPayload before))
    (some (grantPayload after))
  spawnInvalidate cache userSub
  return ⟨200, some (grantPayload after)⟩

/-- `delete` (grants/mod.rs:235). -/
def delete (actor : AdminActor) (cache : Bool) (id : Option Uuid) : AdminProg AdminResponse := do
  let id ← check (extracted id (invalidId actor.requestId))
  beginTx actor
  let some before ← query actor (.getGrantById id) | throw (.notFound actor.requestId)
  let .true ← query actor (.revokeGrant id) | throw (.notFound actor.requestId)
  let userSub ← query actor (.userSubForId before.userId)
  let actorId ← upsertActor actor
  logAndCommit actor actorId .delete .grant id (some (grantPayload before)) none
  spawnInvalidate cache userSub
  return ⟨204, none⟩

theorem create_follows (actor : AdminActor) (body : Option CreateGrantRequest) :
    Follows actor none .start (create actor true body) := by
  refine follows_check fun body _ => ?_
  refine follows_check fun target _ => ?_
  refine follows_check fun action _ => ?_
  refine follows_beginTx ?_
  refine follows_queryMapped (by simp) fun grant => ?_
  refine follows_query trivial fun userSub => ?_
  refine follows_logged (.createGrant body.userId target action
    (constraintsToJson body.constraints) grant userSub) rfl rfl fun _ => ?_
  exact follows_spawnInvalidate rfl

theorem patch_follows (actor : AdminActor) (id : Option Uuid) (body : Option UpdateGrantRequest) :
    Follows actor none .start (patch actor true id body) := by
  refine follows_check fun id _ => ?_
  refine follows_check fun body _ => ?_
  refine follows_check fun _ _ => ?_
  refine follows_check fun action _ => ?_
  refine follows_beginTx ?_
  refine follows_query trivial fun | none => follows_throw | some before => ?_
  refine follows_query (by simp) fun
    | none => follows_throw
    | some after => ?_
  refine follows_query trivial fun userSub => ?_
  refine follows_logged (.updateGrant id action (body.constraints.map constraintsToJson) before
    after userSub) rfl rfl fun _ => ?_
  exact follows_spawnInvalidate rfl

theorem delete_follows (actor : AdminActor) (id : Option Uuid) :
    Follows actor none .start (delete actor true id) := by
  refine follows_check fun id _ => ?_
  refine follows_beginTx ?_
  refine follows_query trivial fun | none => follows_throw | some before => ?_
  refine follows_query (by simp) fun
    | false => follows_throw
    | true => ?_
  refine follows_query trivial fun userSub => ?_
  refine follows_logged (.deleteGrant id before userSub) rfl rfl fun _ => ?_
  exact follows_spawnInvalidate rfl

end Grants

/-! ## Requests to the admin API -/

/-- A mutation request, after its extractors. -/
inductive Operation
  | createUser (body : Option Users.CreateUserRequest)
  | patchUser (id : Option Uuid) (body : Option Users.UpdateUserRequest)
  | deleteUser (id : Option Uuid)
  | createDatabase (body : Option Databases.CreateDatabaseRequest)
  | patchDatabase (id : Option Uuid) (body : Option Databases.UpdateDatabaseRequest)
  | deleteDatabase (id : Option Uuid)
  | createGrant (body : Option Grants.CreateGrantRequest)
  | patchGrant (id : Option Uuid) (body : Option Grants.UpdateGrantRequest)
  | deleteGrant (id : Option Uuid)
  deriving DecidableEq

/-- A request with the actor that `require_admin_group` has let through. -/
structure AdminCall where
  actor : AdminActor
  operation : Operation
  deriving DecidableEq

/-- The route table (transport/admin/mod.rs:67), with the cache wired. -/
def handle (call : AdminCall) : AdminProg AdminResponse :=
  match call.operation with
  | .createUser body => Users.create call.actor body
  | .patchUser id body => Users.patch call.actor true id body
  | .deleteUser id => Users.delete call.actor true id
  | .createDatabase body => Databases.create call.actor true body
  | .patchDatabase id body => Databases.patch call.actor true id body
  | .deleteDatabase id => Databases.delete call.actor true id
  | .createGrant body => Grants.create call.actor true body
  | .patchGrant id body => Grants.patch call.actor true id body
  | .deleteGrant id => Grants.delete call.actor true id

/-- The subject a request registers. -/
def AdminCall.subject (call : AdminCall) : Option String :=
  match call.operation with
  | .createUser body => body.map fun b => Text.trim b.userSub
  | _ => none

/-- **Every handler follows the protocol of a mutation.** -/
theorem handle_follows (call : AdminCall) :
    Follows call.actor call.subject .start (handle call) := by
  obtain ⟨actor, operation⟩ := call
  cases operation with
  | createUser body => exact Users.create_follows actor body
  | patchUser id body => exact Users.patch_follows actor id body
  | deleteUser id => exact Users.delete_follows actor id
  | createDatabase body => exact Databases.create_follows actor body
  | patchDatabase id body => exact Databases.patch_follows actor id body
  | deleteDatabase id => exact Databases.delete_follows actor id
  | createGrant body => exact Grants.create_follows actor body
  | patchGrant id body => exact Grants.patch_follows actor id body
  | deleteGrant id => exact Grants.delete_follows actor id

end DbMcpGateway.Admin
