import DbMcpGateway.State.PgSql
import DbMcpGateway.Tools.Common

/-!
# The loader of DB grants

`load_db_grants_for` (authz/loader.rs): three reads of the permissions store, each of
what is committed at that moment, and the projection of the rows to grants. The
program is cut at its awaits, so that a load under way is one of three programs.

Results:

* `load_eq`: a load of one store in closed form.
* `project_eq`: the projection is the decoding of the grants whose target resolves.
* `Unaffected.load_eq`: what a commit must leave alone for a load to return the same.
* `ReadFrom.read`: what is known of a load under way is kept by each of its reads.
-/

namespace DbMcpGateway.Authz

open Async Async.Prog Audit Config State Tools

/-! ## The program -/

/-- What the loader asks of the permissions store. -/
inductive RepoReq
  | getUserBySub (userSub : String)
  | listGrantsForUser (userId : Uuid)
  | allLiveDatabases

/-- The replies. -/
abbrev RepoResp : RepoReq → Type
  | .getUserBySub _ => Except SqlxError (Option PermissionsUser)
  | .listGrantsForUser _ => Except SqlxError (List PermissionsGrant)
  | .allLiveDatabases => Except SqlxError (List PermissionsDatabase)

abbrev LoadProg := Prog RepoReq RepoResp (Except LoadError (List Grant))

/-- `action_from_db` (authz/loader.rs:84). -/
def actionFromDb : GrantAction → Action
  | .schemaRead => .schemaRead
  | .queryRead => .queryRead
  | .queryWrite => .queryWrite
  | .historyRead => .historyRead

/-- `serde_json::from_value::<Constraints>`. -/
def decodeConstraints (v : Json) : Option Constraints :=
  let names := ["require_reason", "row_limit", "statement_timeout_ms"]
  if !v.knownFields names then none
  else match v.fields names with
    | some [requireReason, rowLimit, statementTimeoutMs] => do
      return { requireReason := ← Json.defaultBool requireReason
               rowLimit := ← Json.optU32 rowLimit
               statementTimeoutMs := ← Json.optU32 statementTimeoutMs }
    | _ => none

/-- The server and the database a grant is for, if its row is among the live ones. -/
def resolveTarget (databases : List PermissionsDatabase) : GrantTarget → Option (String × String)
  | .specific databaseId =>
    (databases.find? fun d => d.id = databaseId).map fun d => (d.server, d.dbName)
  | .wildcard server => some (server, "*")

/-- The loop over the grants (authz/loader.rs:54). -/
def project (databases : List PermissionsDatabase) :
    List PermissionsGrant → Except LoadError (List Grant)
  | [] => .ok []
  | grant :: rest =>
    match resolveTarget databases grant.target with
    | none => project databases rest
    | some (server, database) =>
      match decodeConstraints grant.constraints with
      | none => .error .decodeConstraints
      | some constraints =>
        (project databases rest).map
          ({ server, database, action := actionFromDb grant.action, constraints } :: ·)

/-- `load_db_grants_for` from the read of the databases on. -/
def loadDatabases (dbGrants : List PermissionsGrant) : LoadProg := do
  match ← ask RepoReq.allLiveDatabases with
  | .error _ => return .error .repo
  | .ok databases => return project databases dbGrants

/-- `load_db_grants_for` from the read of the grants on. -/
def loadGrants (userId : Uuid) : LoadProg := do
  match ← ask (RepoReq.listGrantsForUser userId) with
  | .error _ => return .error .repo
  | .ok dbGrants => if dbGrants.isEmpty then return .ok [] else loadDatabases dbGrants

/-- `load_db_grants_for` (authz/loader.rs:35). -/
def loadDbGrantsFor (userSub : String) : LoadProg := do
  match ← ask (RepoReq.getUserBySub userSub) with
  | .error _ => return .error .repo
  | .ok none => return .ok []
  | .ok (some user) => loadGrants user.id

/-! ## Loads of one store -/

def answer (s : Store) : (r : RepoReq) → RepoResp r
  | .getUserBySub userSub =>
    if Text.hasNul userSub then .error (.database (some "22021") none)
    else .ok (s.getUserBySub userSub)
  | .listGrantsForUser userId => .ok (s.listGrantsForUser userId)
  | .allLiveDatabases => .ok s.allLiveDatabases

/-- A reply that reports an error. -/
def refusal (e : SqlxError) : (r : RepoReq) → RepoResp r
  | .getUserBySub _ => .error e
  | .listGrantsForUser _ => .error e
  | .allLiveDatabases => .error e

def loadOn (s : Store) (p : LoadProg) : Except LoadError (List Grant) :=
  (Prog.run (fun r s => (answer s r, s)) p s).1

/-- What `load_db_grants_for` returns on a store. -/
def load (s : Store) (userSub : String) : Except LoadError (List Grant) :=
  loadOn s (loadDbGrantsFor userSub)

section

variable {s s' : Store} {userSub : String}

theorem loadOn_loadGrants (userId : Uuid) :
    loadOn s (loadGrants userId) =
      project s.allLiveDatabases (s.listGrantsForUser userId) := by
  unfold loadOn loadGrants
  simp only [ask_bind, run_await, answer]
  cases h : s.listGrantsForUser userId with
  | nil => rfl
  | cons g gs => rfl

/-- The result of a load whose reads are of three stores. -/
def loadFrom (s₁ s₂ s₃ : Store) (userSub : String) : Except LoadError (List Grant) :=
  if Text.hasNul userSub then .error .repo
  else match s₁.getUserBySub userSub with
    | none => .ok []
    | some user => project s₃.allLiveDatabases (s₂.listGrantsForUser user.id)

/-- A load in closed form. -/
theorem load_eq : load s userSub = loadFrom s s s userSub := by
  unfold load loadOn loadDbGrantsFor loadFrom
  simp only [ask_bind, run_await, answer]
  split_ifs
  · rfl
  · cases h : s.getUserBySub userSub with
    | none => rfl
    | some user => exact loadOn_loadGrants user.id

/-- The grant of a row whose target resolves to a pair. -/
def decodeGrant (row : PermissionsGrant × String × String) : Except LoadError Grant :=
  match decodeConstraints row.1.constraints with
  | none => .error .decodeConstraints
  | some constraints =>
    .ok { server := row.2.1, database := row.2.2, action := actionFromDb row.1.action, constraints }

/-- The rows whose target resolves, with what it resolves to. -/
def resolved (databases : List PermissionsDatabase) (dbGrants : List PermissionsGrant) :
    List (PermissionsGrant × String × String) :=
  dbGrants.filterMap fun g => (resolveTarget databases g.target).map fun pair => (g, pair)

/-- The loop decodes the rows whose target resolves, in their order. -/
theorem project_eq (databases : List PermissionsDatabase) (dbGrants : List PermissionsGrant) :
    project databases dbGrants = (resolved databases dbGrants).mapM decodeGrant := by
  induction dbGrants with
  | nil => rfl
  | cons g gs ih =>
    unfold project resolved
    cases hpair : resolveTarget databases g.target with
    | none =>
      rw [List.filterMap_cons_none (by rw [hpair]; rfl)]
      exact ih
    | some pair =>
      rw [List.filterMap_cons_some (b := (g, pair)) (by rw [hpair]; rfl), List.mapM_cons]
      change _ = (decodeGrant (g, pair) >>= fun grant =>
        (resolved databases gs).mapM decodeGrant >>= fun grants => pure (grant :: grants))
      rw [← ih]
      unfold decodeGrant
      cases decodeConstraints g.constraints with
      | none => rfl
      | some constraints =>
        cases project databases gs with
        | error e => rfl
        | ok grants => rfl

/-! ## Unaffected loads -/

/-- What a step from `s` to `s'` leaves alone for a load of `userSub`: its live user row
    keeps its id and its grants, a new user row has none, and the databases are the same. -/
structure Unaffected (userSub : String) (s s' : Store) : Prop where
  user : ∀ u, s.getUserBySub userSub = some u →
    ∃ u', s'.getUserBySub userSub = some u' ∧ u'.id = u.id
  newUser : s.getUserBySub userSub = none →
    ∀ u', s'.getUserBySub userSub = some u' → s'.listGrantsForUser u'.id = []
  grants : ∀ u, s.getUserBySub userSub = some u →
    s'.listGrantsForUser u.id = s.listGrantsForUser u.id
  databases : s'.allLiveDatabases = s.allLiveDatabases

theorem Unaffected.load_eq (h : Unaffected userSub s s') : load s' userSub = load s userSub := by
  rw [Authz.load_eq, Authz.load_eq]
  unfold loadFrom
  split_ifs
  · rfl
  · cases hu : s.getUserBySub userSub with
    | some u =>
      obtain ⟨u', hu', hid⟩ := h.user u hu
      rw [hu']
      dsimp only
      rw [hid, h.grants u hu, h.databases]
    | none =>
      cases hu' : s'.getUserBySub userSub with
      | none => rfl
      | some u' =>
        dsimp only
        rw [h.newUser hu u' hu']
        rfl

theorem Unaffected.refl (userSub : String) (s : Store) : Unaffected userSub s s :=
  ⟨fun u hu => ⟨u, hu, rfl⟩, fun hnone u' hu' => (by rw [hnone] at hu'; cases hu'), fun _ _ => rfl,
    rfl⟩

theorem Unaffected.trans {s'' : Store} (h : Unaffected userSub s s')
    (h' : Unaffected userSub s' s'') : Unaffected userSub s s'' := by
  refine ⟨?_, ?_, ?_, h'.databases.trans h.databases⟩
  · intro u hu
    obtain ⟨u', hu', hid⟩ := h.user u hu
    obtain ⟨u'', hu'', hid'⟩ := h'.user u' hu'
    exact ⟨u'', hu'', hid'.trans hid⟩
  · intro hnone u'' hu''
    cases hu' : s'.getUserBySub userSub with
    | none => exact h'.newUser hu' u'' hu''
    | some u' =>
      obtain ⟨u₁, hu₁, hid⟩ := h'.user u' hu'
      have heq : u₁ = u'' := Option.some.inj (hu₁.symm.trans hu'')
      rw [← heq, hid, h'.grants u' hu', h.newUser hnone u' hu']
  · intro u hu
    obtain ⟨u', hu', hid⟩ := h.user u hu
    rw [← h.grants u hu, ← hid, h'.grants u' hu']

theorem listGrantsForUser_eq_nil (hs : s.WellFormed) {id : Uuid} (hid : s.users.get id = none) :
    s.listGrantsForUser id = [] := by
  have hnone : (s.grants.rows.filter fun g => g.live && g.userId = id) = [] := by
    rw [List.filter_eq_nil_iff]
    intro g hg hlive
    simp only [Bool.and_eq_true, decide_eq_true_eq] at hlive
    obtain ⟨u, hu⟩ := hs.grantUser g hg
    rw [hlive.2, hid] at hu
    cases hu
  unfold Store.listGrantsForUser
  rw [hnone]
  rfl

/-- Writing a user row affects nobody, unless it is deleted, and then only its subject. -/
theorem unaffected_user (hs : s.WellFormed) {old} {new : PermissionsUser}
    (hfits : (Write.user old new).Fits s) (h : new.live = true ∨ new.userSub ≠ userSub) :
    Unaffected userSub s (s.apply (.user old new)) := by
  have hs' := Store.apply_wellFormed hs hfits
  obtain ⟨hget, hold, -⟩ := hfits
  refine ⟨?_, ?_, fun _ _ => rfl, rfl⟩
  · intro u hu
    obtain ⟨hmem, hlive, hsub⟩ := Store.getUserBySub_some hu
    by_cases hid : u.id = new.id
    · have holdu : old = some u := by
        rw [← hget, ← hid]
        exact Table.get_eq_some.mpr ⟨hmem, rfl⟩
      have hnew : new.userSub = userSub := ((hold u holdu).2).trans hsub
      refine ⟨new, ?_, hid.symm⟩
      exact (Store.getUserBySub_eq_some hs').mpr
        ⟨Table.mem_put.mpr (.inl rfl), h.resolve_right fun hne => hne hnew, hnew⟩
    · refine ⟨u, ?_, rfl⟩
      exact (Store.getUserBySub_eq_some hs').mpr
        ⟨Table.mem_put.mpr (.inr ⟨hmem, hid⟩), hlive, hsub⟩
  · intro hnone u' hu'
    obtain ⟨hmem, hlive, hsub⟩ := Store.getUserBySub_some hu'
    rw [Store.getUserBySub_none] at hnone
    rcases Table.mem_put.mp hmem with rfl | ⟨hmem, -⟩
    · refine listGrantsForUser_eq_nil hs ?_
      cases hold' : old with
      | none => rw [hget, hold']
      | some u =>
        rw [hold'] at hget
        obtain ⟨hmem, -⟩ := Table.get_eq_some.mp hget
        obtain ⟨hulive, husub⟩ := hold u hold'
        exact absurd (husub.symm.trans hsub) (hnone u hmem hulive)
    · exact absurd hsub (hnone u' hmem hlive)

theorem unaffected_grant {old} {new : PermissionsGrant}
    (hfits : (Write.grant old new).Fits s) {owner : PermissionsUser}
    (howner : s.users.get new.userId = some owner) (hne : owner.userSub ≠ userSub) :
    Unaffected userSub s (s.apply (.grant old new)) := by
  obtain ⟨hget, hold, -⟩ := hfits
  refine ⟨fun u hu => ⟨u, hu, rfl⟩, ?_, ?_, rfl⟩
  · intro hnone u' hu'
    have hsame : s.getUserBySub userSub = some u' := hu'
    rw [hnone] at hsame
    cases hsame
  · intro u hu
    obtain ⟨hmem, hlive, hsub⟩ := Store.getUserBySub_some hu
    have hid : new.userId ≠ u.id := by
      intro hid
      rw [hid, Table.get_eq_some.mpr ⟨hmem, rfl⟩] at howner
      exact hne (by rw [← Option.some.inj howner, hsub])
    unfold Store.listGrantsForUser
    congr 1
    refine Table.filter_put (by simp [hid]) ?_
    intro g hg
    have huser := (hold g (hget.symm.trans hg)).2.1
    simp [← huser, hid]

theorem unaffected_audit (row : PermissionsAuditRow) :
    Unaffected userSub s (s.apply (.audit row)) :=
  have h := Unaffected.refl userSub s
  ⟨h.user, h.newUser, h.grants, h.databases⟩

end

/-! ## Loads under way -/

/-- What is left of a load of `userSub`, every read so far being of a store in `R`. -/
inductive ReadFrom (R : Store → Prop) (userSub : String) : LoadProg → Prop
  | start : ReadFrom R userSub (loadDbGrantsFor userSub)
  | user {s : Store} {u : PermissionsUser} : R s → Text.hasNul userSub = false →
      s.getUserBySub userSub = some u → ReadFrom R userSub (loadGrants u.id)
  | grants {s s' : Store} {u : PermissionsUser} : R s → R s' → Text.hasNul userSub = false →
      s.getUserBySub userSub = some u →
      ReadFrom R userSub (loadDatabases (s'.listGrantsForUser u.id))

/-- The result of a load of `userSub` whose reads are of stores in `R`. -/
def LoadedFrom (R : Store → Prop) (userSub : String) (result : Except LoadError (List Grant)) :
    Prop :=
  ∃ s₁ s₂ s₃, R s₁ ∧ R s₂ ∧ R s₃ ∧ loadFrom s₁ s₂ s₃ userSub = result

section

variable {R R' : Store → Prop} {s s' : Store} {userSub : String} {p : LoadProg}
  {result : Except LoadError (List Grant)}

theorem ReadFrom.mono (h : ∀ s, R s → R' s) (hp : ReadFrom R userSub p) :
    ReadFrom R' userSub p := by
  cases hp with
  | start => exact .start
  | user hs hnul hu => exact .user (h _ hs) hnul hu
  | grants hs hs' hnul hu => exact .grants (h _ hs) (h _ hs') hnul hu

theorem LoadedFrom.mono (h : ∀ s, R s → R' s) (hresult : LoadedFrom R userSub result) :
    LoadedFrom R' userSub result := by
  obtain ⟨s₁, s₂, s₃, h₁, h₂, h₃, heq⟩ := hresult
  exact ⟨s₁, s₂, s₃, h _ h₁, h _ h₂, h _ h₃, heq⟩

theorem loadedFrom_eq : LoadedFrom (· = s) userSub result ↔ load s userSub = result := by
  rw [load_eq]
  constructor
  · rintro ⟨_, _, _, rfl, rfl, rfl, heq⟩
    exact heq
  · intro h
    exact ⟨s, s, s, rfl, rfl, rfl, h⟩

theorem ReadFrom.read {r : RepoReq} {k : RepoResp r → LoadProg} (hs : R s)
    (hp : ReadFrom R userSub (.await r k)) :
    (∃ result, k (answer s r) = .ret result ∧ LoadedFrom R userSub result) ∨
      ReadFrom R userSub (k (answer s r)) := by
  generalize hq : (Prog.await r k : LoadProg) = q at hp
  cases hp with
  | start =>
    cases hq
    by_cases hnul : Text.hasNul userSub = true
    · refine .inl ⟨.error .repo, ?_, s, s, s, hs, hs, hs, ?_⟩
      · simp only [answer, hnul]
        rfl
      · simp [loadFrom, hnul]
    · simp only [answer, hnul]
      cases hu : s.getUserBySub userSub with
      | none => exact .inl ⟨.ok [], rfl, s, s, s, hs, hs, hs, by simp [loadFrom, hnul, hu]⟩
      | some u => exact .inr (.user hs (by simpa using hnul) hu)
  | @user s₁ u h₁ hnul hu =>
    cases hq
    simp only [answer]
    cases hgrants : s.listGrantsForUser u.id with
    | nil =>
      exact .inl ⟨.ok [], rfl, s₁, s, s, h₁, hs, hs, by simp [loadFrom, hnul, hu, hgrants, project]⟩
    | cons g gs =>
      refine .inr ?_
      have hnext : ReadFrom R userSub (loadDatabases (s.listGrantsForUser u.id)) :=
        .grants h₁ hs hnul hu
      rw [hgrants] at hnext
      exact hnext
  | @grants s₁ s₂ u h₁ h₂ hnul hu =>
    cases hq
    exact .inl ⟨_, rfl, s₁, s₂, s, h₁, h₂, hs, by simp [loadFrom, hnul, hu]⟩

theorem ReadFrom.read_error {r : RepoReq} {k : RepoResp r → LoadProg} {e}
    (hp : ReadFrom R userSub (.await r k)) : k (refusal e r) = .ret (.error .repo) := by
  generalize hq : (Prog.await r k : LoadProg) = q at hp
  cases hp <;> cases hq <;> rfl

/-- What a load has read still agrees with the store after a step that does not affect it. -/
theorem ReadFrom.unaffected (hp : ReadFrom (· = s) userSub p) (h : Unaffected userSub s s') :
    ReadFrom (· = s') userSub p := by
  cases hp with
  | start => exact .start
  | user hs hnul hu =>
    subst hs
    obtain ⟨u', hu', hid⟩ := h.user _ hu
    rw [← hid]
    exact .user rfl hnul hu'
  | grants hs hs' hnul hu =>
    subst hs hs'
    obtain ⟨u', hu', hid⟩ := h.user _ hu
    rw [← h.grants _ hu, ← hid]
    exact .grants rfl rfl hnul hu'

end

end DbMcpGateway.Authz
