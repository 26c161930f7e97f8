import DbMcpGateway.Admin.Common

/-!
# The protocol of a mutation

What a handler has done when it commits is one of nine mutations: the statements it
ran, with their replies, are those of the mutation, then the upsert of the actor unless
the actor is the user it has just written, then the audit row. `protocol` says which
request a handler may make after which statements, and what it may return; each handler
is proved to follow it, and the system is proved correct for whoever follows it.

Results:

* `follows_query`, `follows_check` and the other rules, one for each step of a handler.
-/

namespace DbMcpGateway.Admin

open Async Async.Prog Audit Authz State

/-- A statement and its reply. -/
abbrev Exchange := (st : Stmt) × st.Resp

/-! ## Mutations -/

/-- A mutation, with what its statements returned. -/
inductive Mutation
  | createUser (userSub userEmail : String) (groups : List String)
      (before : Option PermissionsUser) (user : PermissionsUser)
  | updateUser (id : Uuid) (userEmail : Option String) (groups : Option (List String))
      (before after : PermissionsUser)
  | deleteUser (id : Uuid) (before : PermissionsUser)
  | createDatabase (server dbName : String) (dbType : DbType) (database : PermissionsDatabase)
  | updateDatabase (id : Uuid) (server dbName : Option String) (dbType : Option DbType)
      (before after : PermissionsDatabase)
  | deleteDatabase (id : Uuid) (before : PermissionsDatabase)
  | createGrant (userId : Uuid) (target : GrantTarget) (action : GrantAction) (constraints : Json)
      (grant : PermissionsGrant) (userSub : Option String)
  | updateGrant (id : Uuid) (action : Option GrantAction) (constraints : Option Json)
      (before after : PermissionsGrant) (userSub : Option String)
  | deleteGrant (id : Uuid) (before : PermissionsGrant) (userSub : Option String)

namespace Mutation

def exchanges : Mutation → List Exchange
  | .createUser userSub userEmail groups before user =>
    [⟨.getUserBySub userSub, before⟩, ⟨.upsertUser userSub userEmail groups, user⟩]
  | .updateUser id userEmail groups before after =>
    [⟨.getUserById id, some before⟩, ⟨.updateUser id userEmail groups, some after⟩]
  | .deleteUser id before => [⟨.getUserById id, some before⟩, ⟨.softDeleteUser id, true⟩]
  | .createDatabase server dbName dbType database =>
    [⟨.createDatabase server dbName dbType, database⟩]
  | .updateDatabase id server dbName dbType before after =>
    [⟨.getDatabaseById id, some before⟩, ⟨.updateDatabase id server dbName dbType, some after⟩]
  | .deleteDatabase id before =>
    [⟨.getDatabaseById id, some before⟩, ⟨.softDeleteDatabase id, true⟩]
  | .createGrant userId target action constraints grant userSub =>
    [⟨.createGrant userId target action constraints, grant⟩, ⟨.userSubForId grant.userId, userSub⟩]
  | .updateGrant id action constraints before after userSub =>
    [⟨.getGrantById id, some before⟩, ⟨.updateGrant id action constraints, some after⟩,
      ⟨.userSubForId after.userId, userSub⟩]
  | .deleteGrant id before userSub =>
    [⟨.getGrantById id, some before⟩, ⟨.revokeGrant id, true⟩,
      ⟨.userSubForId before.userId, userSub⟩]

def own : Mutation → Option (String × Uuid)
  | .createUser userSub _ _ _ user => some (userSub, user.id)
  | .updateUser _ _ _ before after => some (before.userSub, after.id)
  | .deleteUser _ before => some (before.userSub, before.id)
  | _ => none

/-- The mutation is of the actor's own row. -/
def IsOwn (m : Mutation) (actor : AdminActor) : Prop := m.own.map Prod.fst = some actor.sub

instance (m : Mutation) (actor : AdminActor) : Decidable (m.IsOwn actor) :=
  inferInstanceAs (Decidable (_ = _))

/-- The invalidation the handler spawns. -/
def scope : Mutation → Option Scope
  | .createUser _ _ _ _ _ => none
  | .updateUser _ _ _ _ after => some (.one after.userSub)
  | .deleteUser _ before => some (.one before.userSub)
  | .createDatabase _ _ _ _ => some .all
  | .updateDatabase _ _ _ _ _ _ => some .all
  | .deleteDatabase _ _ => some .all
  | .createGrant _ _ _ _ _ userSub => userSub.map .one
  | .updateGrant _ _ _ _ _ userSub => userSub.map .one
  | .deleteGrant _ _ userSub => userSub.map .one

def target : Mutation → PermissionsAuditTargetType × Uuid
  | .createUser _ _ _ _ user => (.user, user.id)
  | .updateUser _ _ _ _ after => (.user, after.id)
  | .deleteUser id _ => (.user, id)
  | .createDatabase _ _ _ database => (.database, database.id)
  | .updateDatabase _ _ _ _ _ after => (.database, after.id)
  | .deleteDatabase id _ => (.database, id)
  | .createGrant _ _ _ _ grant _ => (.grant, grant.id)
  | .updateGrant _ _ _ _ after _ => (.grant, after.id)
  | .deleteGrant id _ _ => (.grant, id)

/-- The `before` payload of the audit row. -/
def beforePayload : Mutation → Option Payload
  | .createUser _ _ _ before _ => before.map userPayload
  | .updateUser _ _ _ before _ => some (userPayload before)
  | .deleteUser _ before => some (userPayload before)
  | .createDatabase _ _ _ _ => none
  | .updateDatabase _ _ _ _ before _ => some (databasePayload before)
  | .deleteDatabase _ before => some (databasePayload before)
  | .createGrant _ _ _ _ _ _ => none
  | .updateGrant _ _ _ before _ _ => some (grantPayload before)
  | .deleteGrant _ before _ => some (grantPayload before)

/-- The `after` payload of the audit row. -/
def afterPayload : Mutation → Option Payload
  | .createUser _ _ _ _ user => some (userPayload user)
  | .updateUser _ _ _ _ after => some (userPayload after)
  | .deleteUser _ _ => none
  | .createDatabase _ _ _ database => some (databasePayload database)
  | .updateDatabase _ _ _ _ _ after => some (databasePayload after)
  | .deleteDatabase _ _ => none
  | .createGrant _ _ _ _ grant _ => some (grantPayload grant)
  | .updateGrant _ _ _ _ after _ => some (grantPayload after)
  | .deleteGrant _ _ _ => none

def action : Mutation → PermissionsAuditAction
  | .createUser _ _ _ before _ => if before.isSome then .update else .create
  | .updateUser _ _ _ _ _ => .update
  | .deleteUser _ _ => .delete
  | .createDatabase _ _ _ _ => .create
  | .updateDatabase _ _ _ _ _ _ => .update
  | .deleteDatabase _ _ => .delete
  | .createGrant _ _ _ _ _ _ => .create
  | .updateGrant _ _ _ _ _ _ => .update
  | .deleteGrant _ _ _ => .delete

def auditRow (m : Mutation) (actor : AdminActor) (actorId : Uuid) : PermissionsAuditRow :=
  { actorId, actorEmail := actor.email, action := m.action, targetType := m.target.1
    targetId := m.target.2, before := m.beforePayload, after := m.afterPayload
    requestId := actor.requestId }

def ofLog : List Exchange → Option Mutation
  | ⟨.getUserBySub _, before⟩ :: ⟨.upsertUser userSub userEmail groups, user⟩ :: _ =>
    some (.createUser userSub userEmail groups before user)
  | ⟨.getUserById _, some before⟩ :: ⟨.updateUser id userEmail groups, some after⟩ :: _ =>
    some (.updateUser id userEmail groups before after)
  | ⟨.getUserById _, some before⟩ :: ⟨.softDeleteUser id, true⟩ :: _ =>
    some (.deleteUser id before)
  | ⟨.createDatabase server dbName dbType, database⟩ :: _ =>
    some (.createDatabase server dbName dbType database)
  | ⟨.getDatabaseById _, some before⟩ :: ⟨.updateDatabase id server dbName dbType, some after⟩ :: _ =>
    some (.updateDatabase id server dbName dbType before after)
  | ⟨.getDatabaseById _, some before⟩ :: ⟨.softDeleteDatabase id, true⟩ :: _ =>
    some (.deleteDatabase id before)
  | ⟨.createGrant userId target action constraints, grant⟩ :: ⟨.userSubForId _, userSub⟩ :: _ =>
    some (.createGrant userId target action constraints grant userSub)
  | ⟨.getGrantById _, some before⟩ :: ⟨.updateGrant id action constraints, some after⟩ ::
      ⟨.userSubForId _, userSub⟩ :: _ =>
    some (.updateGrant id action constraints before after userSub)
  | ⟨.getGrantById _, some before⟩ :: ⟨.revokeGrant id, true⟩ :: ⟨.userSubForId _, userSub⟩ :: _ =>
    some (.deleteGrant id before userSub)
  | _ => none

theorem ofLog_exchanges (m : Mutation) (rest : List Exchange) :
    ofLog (m.exchanges ++ rest) = some m := by
  cases m <;> rfl

/-- The upsert of the actor, if the handler makes it. -/
def actorExchanges (m : Mutation) (actor : AdminActor) (actorId : Uuid) : List Exchange :=
  if m.IsOwn actor then []
  else [⟨.upsertActor actor.sub actor.email actor.groups, actorId⟩]

/-- All statements of the mutation. -/
def log (m : Mutation) (actor : AdminActor) (actorId : Uuid) : List Exchange :=
  m.exchanges ++ (m.actorExchanges actor actorId ++ [⟨.log (m.auditRow actor actorId), ()⟩])

/-- The actor id of the audit row is that of the upserted row, or of the actor's own row. -/
def ActorOk (m : Mutation) (actor : AdminActor) (actorId : Uuid) : Prop :=
  m.IsOwn actor → m.own.map Prod.snd = some actorId

end Mutation

/-! ## The protocol -/

/-- How far a handler is. -/
inductive Phase
  | start
  | inTx (log : List Exchange)
  | failed
  | committed (log : List Exchange)
  | spawned (log : List Exchange)

def ReadsOnly (log : List Exchange) : Prop := ∀ e ∈ log, e.1.isRead = true

/-- The statement may come after these exchanges; `subject` is the subject of a request
    to create a user. -/
def MayRun (actor : AdminActor) (subject : Option String) (log : List Exchange) : Stmt → Prop
  | .upsertUser sub _ _ => ReadsOnly log ∧ subject = some sub
  | .updateUser _ _ _ => ReadsOnly log
  | .softDeleteUser _ => ReadsOnly log
  | .upsertActor sub email groups => sub = actor.sub ∧ email = actor.email ∧
      groups = actor.groups ∧ ∃ m : Mutation, log = m.exchanges ∧ ¬ m.IsOwn actor
  | .createDatabase server dbName _ => ReadsOnly log ∧ server ≠ "*" ∧ dbName ≠ "*"
  | .updateDatabase _ server dbName _ => ReadsOnly log ∧ server ≠ some "*" ∧ dbName ≠ some "*"
  | .softDeleteDatabase _ => ReadsOnly log
  | .createGrant _ _ _ _ => ReadsOnly log
  | .updateGrant _ _ _ => ReadsOnly log
  | .revokeGrant _ => ReadsOnly log
  | _ => True

/-- All statements of a mutation have been run. -/
def Complete (actor : AdminActor) (log : List Exchange) : Prop :=
  ∃ (m : Mutation) (actorId : Uuid), log = m.log actor actorId ∧ m.ActorOk actor actorId

/-- The requests of a handler. -/
def protocol (actor : AdminActor) (subject : Option String) :
    Protocol AdminReq AdminResp Phase where
  replies _ _ := True
  allowed
    | .start, .begin => True
    | .inTx log, .stmt st => MayRun actor subject log st
    | .inTx log, .commit => Complete actor log
    | .committed log, .spawn scope => (Mutation.ofLog log).bind Mutation.scope = some scope
    | _, _ => False
  next
    | .start, .begin, .ok _ => .inTx []
    | .inTx log, .stmt st, .ok x => .inTx (log ++ [⟨st, x⟩])
    | .inTx log, .commit, .ok _ => .committed log
    | .committed log, .spawn _, _ => .spawned log
    | _, _, _ => .failed

/-- A success is returned after the commit and the invalidation, an error before. -/
def Final {α : Type} : Phase → Except AdminError α → Prop
  | .committed log, .ok _ => (Mutation.ofLog log).bind Mutation.scope = none
  | .spawned _, .ok _ => True
  | .start, .error _ => True
  | .inTx _, .error _ => True
  | .failed, .error _ => True
  | _, _ => False

/-! ## Rules for handlers -/

structure Follows {α : Type} (actor : AdminActor) (subject : Option String) (φ : Phase)
    (p : AdminProg α) : Prop where
  obeys : (protocol actor subject).Obeys Final φ p.run

section

variable {α β : Type} {actor : AdminActor} {subject : Option String} {φ : Phase}
  {log : List Exchange}

/-- A check of the input: a handler may fail before its transaction. -/
theorem follows_check {result} {f : α → AdminProg β}
    (hf : ∀ a, result = .ok a → Follows actor subject .start (f a)) :
    Follows actor subject .start (check result >>= f) := by
  cases result with
  | error e => exact ⟨trivial⟩
  | ok a => exact ⟨(hf a rfl).obeys⟩

variable {f : Unit → AdminProg β} {st : Stmt} {m : Mutation} {a : α}

theorem follows_beginTx (hf : Follows actor subject (.inTx []) (f ())) :
    Follows actor subject .start (beginTx actor >>= f) := by
  refine ⟨trivial, ?_⟩
  rintro (e | ⟨⟩) -
  · exact trivial
  · exact hf.obeys

theorem follows_queryMapped {onError : SqlxError → AdminError} {f : st.Resp → AdminProg β}
    (hst : MayRun actor subject log st)
    (hf : ∀ x, Follows actor subject (.inTx (log ++ [⟨st, x⟩])) (f x)) :
    Follows actor subject (.inTx log) (queryMapped st onError >>= f) := by
  refine ⟨hst, ?_⟩
  rintro (e | x) -
  · exact trivial
  · exact (hf x).obeys

theorem follows_query {f : st.Resp → AdminProg β} (hst : MayRun actor subject log st)
    (hf : ∀ x, Follows actor subject (.inTx (log ++ [⟨st, x⟩])) (f x)) :
    Follows actor subject (.inTx log) (query actor st >>= f) :=
  follows_queryMapped hst hf

theorem follows_upsertActor {f : Uuid → AdminProg β} (hlog : log = m.exchanges)
    (hown : ¬ m.IsOwn actor)
    (hf : ∀ actorId, Follows actor subject (.inTx (m.exchanges ++ m.actorExchanges actor actorId))
      (f actorId)) :
    Follows actor subject (.inTx log) (upsertActor actor >>= f) := by
  refine follows_query ⟨rfl, rfl, rfl, m, hlog, hown⟩ fun actorId => ?_
  have hnext := hf actorId
  rw [Mutation.actorExchanges, if_neg hown] at hnext
  rw [hlog]
  exact hnext

theorem follows_upsertActor_unless {sub : String} {id : Uuid} {f : Uuid → AdminProg β}
    (hlog : log = m.exchanges) (hown : m.own = some (sub, id))
    (hf : ∀ actorId, m.ActorOk actor actorId →
      Follows actor subject (.inTx (m.exchanges ++ m.actorExchanges actor actorId)) (f actorId)) :
    Follows actor subject (.inTx log)
      ((if actor.sub = sub then pure id else upsertActor actor) >>= f) := by
  have hiff : m.IsOwn actor ↔ actor.sub = sub := by
    simp [Mutation.IsOwn, hown, eq_comm]
  split_ifs with hsub
  · have hnext := hf id fun _ => by rw [hown]; rfl
    rw [Mutation.actorExchanges, if_pos (hiff.mpr hsub), List.append_nil] at hnext
    rw [hlog]
    exact hnext
  · exact follows_upsertActor hlog (fun h => hsub (hiff.mp h)) fun actorId =>
      hf actorId fun h => absurd (hiff.mp h) hsub

/-- The audit row and the commit. -/
theorem follows_logAndCommit {actorId : Uuid}
    (hlog : log = m.exchanges ++ m.actorExchanges actor actorId)
    (hactor : m.ActorOk actor actorId)
    (hf : Follows actor subject (.committed (m.log actor actorId)) (f ())) :
    Follows actor subject (.inTx log)
      (logAndCommit actor actorId m.action m.target.1 m.target.2 m.beforePayload m.afterPayload
        >>= f) := by
  subst hlog
  have hcomplete : m.exchanges ++ m.actorExchanges actor actorId ++
      [⟨.log (m.auditRow actor actorId), ()⟩] = m.log actor actorId := List.append_assoc _ _ _
  refine ⟨trivial, ?_⟩
  rintro (e | ⟨⟩) -
  · exact trivial
  refine ⟨⟨m, actorId, hcomplete, hactor⟩, ?_⟩
  rintro (e | ⟨⟩) -
  · exact trivial
  · rw [← hcomplete] at hf
    exact hf.obeys

/-- The end of a mutation of what is not a user. -/
theorem follows_logged (m : Mutation) (hlog : log = m.exchanges) (hown : m.own = none)
    (hf : ∀ actorId, Follows actor subject (.committed (m.log actor actorId)) (f ())) :
    Follows actor subject (.inTx log) (upsertActor actor >>= fun actorId =>
      logAndCommit actor actorId m.action m.target.1 m.target.2 m.beforePayload m.afterPayload
        >>= f) := by
  have hother : ¬ m.IsOwn actor := by simp [Mutation.IsOwn, hown]
  refine follows_upsertActor hlog hother fun actorId => ?_
  exact follows_logAndCommit rfl (fun h => absurd h hother) (hf actorId)

theorem follows_spawnInvalidate {userSub : Option String}
    (hscope : (Mutation.ofLog log).bind Mutation.scope = userSub.map .one) :
    Follows actor subject (.committed log) (do spawnInvalidate true userSub; return a) := by
  cases userSub with
  | none => exact ⟨hscope⟩
  | some sub => exact ⟨hscope, fun _ _ => trivial⟩

theorem follows_spawnInvalidateAll (hscope : (Mutation.ofLog log).bind Mutation.scope = some .all) :
    Follows actor subject (.committed log) (do spawnInvalidateAll true; return a) :=
  ⟨hscope, fun _ _ => trivial⟩

/-- The handler gives up inside of the transaction. -/
theorem follows_throw {e} : Follows actor subject (.inTx log) (throw e : AdminProg β) := ⟨trivial⟩

end

end DbMcpGateway.Admin
