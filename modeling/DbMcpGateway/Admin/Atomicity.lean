import DbMcpGateway.Admin.System

/-!
# Mutations of a user, without concurrent transactions

`CommitsTo Q s p tx` is a precondition of the rest `p` of a handler: whatever the state DB replies,
the transaction is committed only with writes that lead from the store `s` to a store in `Q`. It
holds on along a run of the system with one request (`Alone.step`), where the future may be
dropped, any statement and COMMIT may fail, and the reply to COMMIT may be lost.

The three handlers of `/admin/v1/users` write the row of the target, then the row of the actor
unless the actor is the target, then the audit row.

Results:

* `Alone.store`: at any time the store is as before, or in `Q`.
* `Users.create_commits`, `Users.patch_commits`, `Users.delete_commits`: what each handler commits.
* `user_mutation_atomic`: the three together.
-/

namespace DbMcpGateway.Admin

open Async Async.Prog Audit Authz State

/-! ## What a handler can commit -/

/-- What the program commits, if it does, is in `Q`; `s` is committed, and `tx` is its
    transaction. -/
def CommitsTo {α : Type} (Q : Store → Prop) (s : Store) :
    Prog AdminReq AdminResp α → Option Tx → Prop
  | .await .begin k, none =>
    (∀ now, CommitsTo Q s (k (.ok ())) (some ⟨now, [], []⟩)) ∧
    ∀ e, CommitsTo Q s (k (.error e)) none
  | .await (.stmt st) k, some t =>
    (∀ fresh x ws, st.Does t.startedAt fresh (writes.applyAll s t.writes) x ws →
      (writes.applyAll s t.writes).Unused fresh →
      CommitsTo Q s (k (.ok x)) (some ⟨t.startedAt, t.log ++ [⟨st, x⟩], t.writes ++ ws⟩)) ∧
    ∀ e, CommitsTo Q s (k (.error e)) (some t)
  | .await .commit _, some t => Q (writes.applyAll s t.writes)
  | .await (.spawn _) k, tx => CommitsTo Q s (k ()) tx
  | _, _ => True

theorem commits_spawn {α : Type} {Q : Store → Prop} {s : Store} {scope : Scope}
    {k : Unit → Prog AdminReq AdminResp α} {tx} :
    CommitsTo Q s (.await (.spawn scope) k) tx = CommitsTo Q s (k ()) tx := by
  cases tx <;> rfl

/-- The request of a system that has no other, in a run that began with the store `s₀`. -/
inductive Alone (Q : Store → Prop) (s₀ : Store) : TxState → HandlerTask → Store → Prop
  | idle {task} (h : ∀ p, task = .running p → CommitsTo Q s₀ p none) : Alone Q s₀ .none task s₀
  | inTx {t task} (h : ∀ p, task = .running p → CommitsTo Q s₀ p (some t)) :
      Alone Q s₀ (.open t) task s₀
  | committing {t : Tx} {task} (h : Q (writes.applyAll s₀ t.writes)) :
      Alone Q s₀ (.committing t) task s₀
  | committed {t v task s} (h : Q s) : Alone Q s₀ (.committed t v) task s
  | rolledBack {task} : Alone Q s₀ .rolledBack task s₀

section

variable {Q : Store → Prop} {s₀ s : Store} {tx tx' : TxState} {task task' : HandlerTask}

theorem Alone.store (h : Alone Q s₀ tx task s) : s = s₀ ∨ Q s := by
  cases h with
  | committed h => exact .inr h
  | _ => exact .inl rfl

theorem resume_eq_running {p p'} (h : resume p = .running p') : p = p' := by
  cases p with
  | ret result => cases h
  | await r k => cases h; rfl

theorem Alone.request {a : Action} (h : Alone Q s₀ tx task s)
    (hmove : RequestMove 0 a task tx task' tx') : Alone Q s₀ tx' task' s := by
  cases hmove with
  | begin =>
    cases h with
    | idle h => exact .inTx fun p hp => resume_eq_running hp ▸ (h _ rfl).1 _
  | beginError =>
    cases h with
    | idle h => exact .idle fun p hp => resume_eq_running hp ▸ (h _ rfl).2 _
  | execError =>
    cases h with
    | inTx h => exact .inTx fun p hp => resume_eq_running hp ▸ (h _ rfl).2 _
  | sendCommit =>
    cases h with
    | inTx h => exact .committing (h _ rfl)
  | abort =>
    cases h with
    | committing h => exact .rolledBack
  | reply =>
    cases h with
    | committed h => exact .committed h
  | replyError hsent =>
    cases h with
    | idle h => cases hsent
    | inTx h => cases hsent
    | committing h => exact .committing h
    | committed h => exact .committed h
    | rolledBack => exact .rolledBack
  | drop hspawn =>
    cases h with
    | idle h => exact .idle nofun
    | inTx h => exact .inTx nofun
    | committing h => exact .committing h
    | committed h => exact .committed h
    | rolledBack => exact .rolledBack
  | rollback hover =>
    cases h with
    | inTx h => exact .rolledBack

def Sys.Alone (Q : Store → Prop) (s₀ : Store) (sys : Sys) : Prop :=
  ∃ r, sys.requests = [r] ∧ Admin.Alone Q s₀ r.tx r.task sys.store

theorem singleton_request {rs} {r r' : Request} {i : ℕ} (hrs : rs = [r])
    (h : rs[i]? = some r') : i = 0 ∧ r = r' := by
  subst hrs
  cases i with
  | zero => exact ⟨rfl, Option.some.inj h⟩
  | succ i => simp at h

theorem Sys.Alone.step {sys sys' : Sys} {a : Action} (h : sys.Alone Q s₀)
    (harrive : ∀ call, a ≠ .arrive call) (hmoves : sys.Moves a sys') : sys'.Alone Q s₀ := by
  obtain ⟨r, hrs, hr⟩ := h
  cases hmoves with
  | arrive => exact absurd rfl (harrive _)
  | request hget hmove =>
    obtain ⟨rfl, rfl⟩ := singleton_request hrs hget
    exact ⟨_, by simp only [Sys.setRequest, hrs]; rfl, hr.request hmove⟩
  | exec hget hdoes _ hunused =>
    obtain ⟨rfl, rfl⟩ := singleton_request hrs hget
    refine ⟨_, by simp only [Sys.setRequest, hrs]; rfl, ?_⟩
    cases hr with
    | inTx h =>
      exact .inTx fun p hp => resume_eq_running hp ▸ (h _ rfl).1 _ _ _ hdoes hunused
  | commit hget =>
    obtain ⟨rfl, rfl⟩ := singleton_request hrs hget
    refine ⟨_, by simp only [Sys.commit, Sys.setRequest, hrs]; rfl, ?_⟩
    cases hr with
    | committing h => exact .committed h
  | spawn hget =>
    obtain ⟨rfl, rfl⟩ := singleton_request hrs hget
    refine ⟨_, by simp only [Sys.setRequest, hrs]; rfl, ?_⟩
    cases hr with
    | idle h =>
      have hnext := h _ rfl
      rw [commits_spawn] at hnext
      exact .idle fun p hp => resume_eq_running hp ▸ hnext
    | inTx h =>
      have hnext := h _ rfl
      rw [commits_spawn] at hnext
      exact .inTx fun p hp => resume_eq_running hp ▸ hnext
    | committing h => exact .committing h
    | committed h => exact .committed h
    | rolledBack => exact .rolledBack
  | cache hcache => exact ⟨r, hrs, hr⟩

/-- At any time of a run with one request, the store is as it was before, or in `Q`. -/
theorem store_of_run {history cache call as} {sys : Sys} (hcommits : CommitsTo Q s₀ (handle call).run none)
    (hrun : Machine.run Sys.step ⟨s₀, history, [], cache⟩ (.arrive call :: as) = some sys)
    (has : ∀ a ∈ as, ∀ call, a ≠ .arrive call) : sys.store = s₀ ∨ Q sys.store := by
  obtain ⟨sys₁, harrive, hrest⟩ := Machine.run_cons hrun
  cases harrive
  have hinit : Sys.Alone Q s₀
      ⟨s₀, history, [⟨call, resume (handle call).run, .none, false⟩], cache⟩ :=
    ⟨_, rfl, .idle fun p hp => resume_eq_running hp ▸ hcommits⟩
  have hstep : ∀ sys a sys', Sys.Alone Q s₀ sys → (∀ call, a ≠ .arrive call) →
      Sys.step sys a = some sys' → Sys.Alone Q s₀ sys' :=
    fun _ _ _ h ha hstep => h.step ha (Sys.step_moves hstep)
  obtain ⟨r, -, hr⟩ := Machine.run_invariant hstep (Machine.meets_of_mem _ has) hrest hinit
  exact hr.store

end

/-! ## Rules for handlers -/

section

variable {α β : Type} {Q : Store → Prop} {s : Store} {actor : AdminActor} {t : Tx}

theorem commits_check {result} {f : α → AdminProg β}
    (hf : ∀ a, result = .ok a → CommitsTo Q s (f a).run none) :
    CommitsTo Q s (check result >>= f).run none := by
  cases result with
  | error e => exact trivial
  | ok a => exact hf a rfl

theorem commits_beginTx {f : Unit → AdminProg β}
    (hf : ∀ now, CommitsTo Q s (f ()).run (some ⟨now, [], []⟩)) :
    CommitsTo Q s (beginTx actor >>= f).run none :=
  ⟨hf, fun _ => trivial⟩

theorem commits_query {st : Stmt} {f : st.Resp → AdminProg β}
    (hf : ∀ fresh x ws, st.Does t.startedAt fresh (writes.applyAll s t.writes) x ws →
      (writes.applyAll s t.writes).Unused fresh →
      CommitsTo Q s (f x).run (some ⟨t.startedAt, t.log ++ [⟨st, x⟩], t.writes ++ ws⟩)) :
    CommitsTo Q s (query actor st >>= f).run (some t) :=
  ⟨hf, fun _ => trivial⟩

theorem commits_throw {e} : CommitsTo Q s (throw e : AdminProg β).run (some t) :=
  trivial

theorem commits_logAndCommit {actorId : Uuid} {action targetType} {targetId : Uuid} {before after}
    {f : Unit → AdminProg β}
    (h : Q (writes.applyAll s (t.writes ++ [.audit ⟨actorId, actor.email, action, targetType,
      targetId, before, after, actor.requestId⟩]))) :
    CommitsTo Q s (logAndCommit actor actorId action targetType targetId before after >>= f).run
      (some t) := by
  refine ⟨fun fresh x ws hdoes _ => ?_, fun _ => trivial⟩
  cases hdoes
  exact h

end

/-! ## The store after a mutation -/

/-- The store after a change of the user row `id`: one audit row is added, with the images of the
    row, and the only other row that may change is that of the actor. -/
structure UserEffect (actor : AdminActor) (id : Uuid) (before after : Option PermissionsUser)
    (s s' : Store) : Prop where
  audit : ∃ row, s'.audit = s.audit ++ [row] ∧ row.targetType = .user ∧ row.targetId = id ∧
    row.before = before.map userPayload ∧ row.after = after.map userPayload
  others : ∀ id', id' ≠ id → s'.users.get id' = s.users.get id' ∨
    (∃ new, s'.users.get id' = some new ∧ new.live = true ∧ new.userSub = actor.sub) ∧
      ∀ old, s.users.get id' = some old → old.live = true ∧ old.userSub = actor.sub
  databases : s'.databases = s.databases
  grants : s'.grants = s.grants

inductive ActorUpsert (actor : AdminActor) (target : PermissionsUser) (s : Store) :
    List Write → Prop
  | own : target.userSub = actor.sub → ActorUpsert actor target s []
  | upsert {old} {new : PermissionsUser} : new.id ≠ target.id →
      target.userSub ≠ actor.sub → s.users.get new.id = old →
      (∀ u, old = some u → u.live = true ∧ u.userSub = actor.sub) → new.live = true →
      new.userSub = actor.sub → ActorUpsert actor target s [.user old new]

section

variable {actor : AdminActor} {s : Store} {target : PermissionsUser} {ws : List Write}

theorem actorUpsert_of_does {now} {fresh actorId : Uuid} (hsub : actor.sub ≠ target.userSub)
    (hunused : Store.Unused { s with users := s.users.put target } fresh)
    (hdoes : Stmt.Does now fresh { s with users := s.users.put target }
      (.upsertActor actor.sub actor.email actor.groups) actorId ws) :
    ActorUpsert actor target s ws := by
  cases hdoes with
  | upsertActorLive hu hnew =>
    obtain ⟨hmem, hlive, husub⟩ := Store.getUserBySub_some hu
    subst hnew
    rcases Table.mem_put.mp hmem with rfl | ⟨hmem, hid⟩
    · exact absurd husub.symm hsub
    · refine .upsert hid hsub.symm (Table.get_eq_some.mpr ⟨hmem, rfl⟩) ?_ hlive husub
      rintro u ⟨⟩
      exact ⟨hlive, husub⟩
  | upsertActorNew hu hnew =>
    subst hnew
    have hid : fresh ≠ target.id := by
      intro heq
      have hget := Table.get_put_self s.users target
      rw [← heq, hunused.user] at hget
      cases hget
    refine .upsert hid hsub.symm ?_ nofun rfl rfl
    rw [← Table.get_put_of_ne hid]
    exact hunused.user

variable {old : Option PermissionsUser}

/-- The three writes of a mutation. -/
theorem userEffect {before after : Option PermissionsUser} {row : PermissionsAuditRow}
    (h : ActorUpsert actor target s ws) (htype : row.targetType = .user)
    (hid : row.targetId = target.id) (hbefore : row.before = before.map userPayload)
    (hafter : row.after = after.map userPayload) :
    UserEffect actor target.id before after s
      (writes.applyAll s (.user old target :: (ws ++ [.audit row]))) := by
  cases h with
  | own hown =>
    refine ⟨⟨row, rfl, htype, hid, hbefore, hafter⟩, fun id' hne => .inl ?_, rfl, rfl⟩
    exact Table.get_put_of_ne hne
  | @upsert oldActor new hne hsub hget hold hlive hnew =>
    refine ⟨⟨row, rfl, htype, hid, hbefore, hafter⟩, fun id' hne' => ?_, rfl, rfl⟩
    by_cases hactor : id' = new.id
    · subst hactor
      refine .inr ⟨⟨new, Table.get_put_self _ new, hlive, hnew⟩, fun u hu => hold u ?_⟩
      rw [← hget, hu]
    · exact .inl ((Table.get_put_of_ne hactor).trans (Table.get_put_of_ne hne'))

theorem get_target {row} (h : ActorUpsert actor target s ws) :
    (writes.applyAll s (.user old target :: (ws ++ [.audit row]))).users.get target.id =
      some target := by
  cases h with
  | own hown => exact Table.get_put_self s.users target
  | @upsert oldActor new hne hsub hget hold hlive hnew =>
    exact (Table.get_put_of_ne hne.symm).trans (Table.get_put_self s.users target)

theorem commits_actor {β : Type} {Q : Store → Prop} {t : Tx} {sub : String}
    {ownId targetId : Uuid} {action before after}
    {f : Unit → AdminProg β} (ht : t.writes = [.user old target]) (hsub : target.userSub = sub)
    (hQ : ∀ actorId ws, ActorUpsert actor target s ws →
      Q (writes.applyAll s (.user old target :: (ws ++ [.audit ⟨actorId, actor.email, action, .user,
        targetId, before, after, actor.requestId⟩])))) :
    CommitsTo Q s ((if actor.sub = sub then pure ownId else upsertActor actor) >>= fun actorId =>
      logAndCommit actor actorId action .user targetId before after >>= f).run (some t) := by
  split_ifs with hown
  · refine commits_logAndCommit (t := t) ?_
    rw [ht]
    exact hQ ownId [] (.own (hsub.trans hown.symm))
  · refine commits_query fun fresh actorId ws hdoes hunused => commits_logAndCommit ?_
    rw [ht] at hdoes hunused
    rw [← hsub] at hown
    dsimp only
    rw [ht, List.append_assoc]
    exact hQ actorId ws (actorUpsert_of_does hown hunused hdoes)

end

namespace Users

variable {actor : AdminActor} {s s' : Store}

theorem validateGroups_ok {groups trimmed : List String} {requestId : String}
    (h : validateGroups groups requestId = .ok trimmed) : trimmed = groups.map Text.trim := by
  unfold validateGroups at h
  induction groups generalizing trimmed with
  | nil =>
    cases h
    rfl
  | cons g groups ih =>
    rw [List.mapM_cons] at h
    cases hg : trimmedNonEmpty g "groups[]" requestId with
    | error e =>
      rw [hg] at h
      cases h
    | ok g' =>
      cases hgs : groups.mapM fun g => trimmedNonEmpty g "groups[]" requestId with
      | error e =>
        rw [hg, hgs] at h
        cases h
      | ok gs =>
        rw [hg, hgs] at h
        cases h
        rw [List.map_cons, trimmedNonEmpty_ok hg, ← ih hgs]

/-- A user has been created, or the live row with that subject updated. -/
def Created (actor : AdminActor) (body : CreateUserRequest) (s s' : Store) : Prop :=
  ∃ new, s'.users.get new.id = some new ∧ new.live = true ∧
    new.userSub = Text.trim body.userSub ∧ new.userEmail = Text.trim body.userEmail ∧
    new.groups = body.groups.map Text.trim ∧
    (∀ old, s.getUserBySub new.userSub = some old →
      new.id = old.id ∧ new.createdAt = old.createdAt) ∧
    UserEffect actor new.id (s.getUserBySub new.userSub) (some new) s s'

theorem create_commits (body : Option CreateUserRequest) :
    CommitsTo (fun s' => ∃ b, body = some b ∧ Created actor b s s') s
      (create actor body).run none := by
  refine commits_check fun b hbody => ?_
  refine commits_check fun userSub hsub => ?_
  refine commits_check fun userEmail hemail => ?_
  refine commits_check fun groups hgroups => ?_
  have hrequest := trimmedNonEmpty_ok hsub
  refine commits_beginTx fun now => ?_
  refine commits_query fun _ before _ hread _ => ?_
  cases hread
  refine commits_query fun fresh user _ hwrite hunused => ?_
  cases hwrite with
  | @upsertUserLive _ _ _ u _ hu hnew =>
    obtain ⟨-, hlive, rfl⟩ := Store.getUserBySub_some hu
    subst hnew
    refine commits_actor rfl rfl fun actorId ws hactor => ⟨b, extracted_ok hbody, _,
      get_target hactor, hlive, hrequest.symm, (trimmedNonEmpty_ok hemail).symm,
      validateGroups_ok hgroups, ?_, userEffect hactor rfl rfl rfl rfl⟩
    intro old hold
    cases hu.symm.trans hold
    exact ⟨rfl, rfl⟩
  | upsertUserNew hu hnew =>
    subst hnew
    refine commits_actor rfl rfl fun actorId ws hactor => ⟨b, extracted_ok hbody, _,
      get_target hactor, rfl, hrequest.symm, (trimmedNonEmpty_ok hemail).symm,
      validateGroups_ok hgroups, ?_, userEffect hactor rfl rfl rfl rfl⟩
    intro old hold
    cases hu.symm.trans hold

/-- The fields of a live row that were asked for have been changed, and otherwise only
    `updated_at`. -/
def Patched (actor : AdminActor) (id : Uuid) (body : UpdateUserRequest) (s s' : Store) : Prop :=
  ∃ before new, s.getUser id = some before ∧ s'.users.get id = some new ∧
    new = { before with
      userEmail := (body.userEmail.map Text.trim).getD before.userEmail
      groups := (body.groups.map (List.map Text.trim)).getD before.groups
      updatedAt := new.updatedAt } ∧
    UserEffect actor id (some before) (some new) s s'

theorem mapM_ok {α β : Type} {value : Option α} {check : α → Except AdminError β} {f : α → β}
    {checked} (hcheck : ∀ a b, check a = .ok b → b = f a)
    (h : value.mapM check = .ok checked) : checked = value.map f := by
  cases value with
  | none =>
    cases h
    rfl
  | some a =>
    rw [Option.mapM_some] at h
    cases ha : check a with
    | error e =>
      rw [ha] at h
      cases h
    | ok b =>
      rw [ha] at h
      cases h
      rw [Option.map_some, hcheck a b ha]

theorem patch_commits (id : Option Uuid) (body : Option UpdateUserRequest) :
    CommitsTo (fun s' => ∃ i b, id = some i ∧ body = some b ∧ Patched actor i b s s') s
      (patch actor true id body).run none := by
  refine commits_check fun i hid => ?_
  refine commits_check fun b hbody => ?_
  refine commits_check fun _ _ => ?_
  refine commits_check fun userEmail hemail => ?_
  refine commits_check fun groups hgroups => ?_
  have hemail' := mapM_ok (f := Text.trim) (fun _ _ h => (trimmedNonEmpty_ok h).symm) hemail
  have hgroups' := mapM_ok (fun _ _ => validateGroups_ok) hgroups
  refine commits_beginTx fun now => ?_
  refine commits_query fun _ before _ hread _ => ?_
  obtain ⟨hbefore, rfl⟩ := hread.getUserById_eq
  cases before with
  | none => exact commits_throw
  | some before => ?_
  refine commits_query fun _ after _ hwrite _ => ?_
  cases hwrite with
  | updateUserNone hnone => exact commits_throw
  | @updateUser _ _ _ u _ hu hnew =>
    cases hbefore.symm.trans hu
    subst hnew
    have hkey : before.id = i := Table.key_of_get (Store.getUser_some hu).1
    subst hkey
    refine commits_actor rfl rfl fun actorId ws hactor => ⟨_, b, extracted_ok hid,
      extracted_ok hbody, before, _, hu, get_target hactor, ?_, userEffect hactor rfl rfl rfl rfl⟩
    rw [hemail', hgroups']

/-- A live row has been soft-deleted, and its subject has no live row. -/
def Deleted (actor : AdminActor) (id : Uuid) (s s' : Store) : Prop :=
  ∃ before deletedAt, s.getUser id = some before ∧
    s'.users.get id = some { before with deletedAt := some deletedAt } ∧
    s'.getUserBySub before.userSub = none ∧ UserEffect actor id (some before) none s s'

theorem getUserBySub_deleted {u : PermissionsUser} {deletedAt ws old row} (hs : s.WellFormed)
    (hu : s.getUser u.id = some u)
    (hactor : ActorUpsert actor { u with deletedAt := some deletedAt } s ws) :
    (writes.applyAll s (.user old { u with deletedAt := some deletedAt } ::
      (ws ++ [.audit row]))).getUserBySub u.userSub = none := by
  obtain ⟨hget, hlive⟩ := Store.getUser_some hu
  have hmem := Table.mem_of_get hget
  have hput : ∀ u' ∈ (s.users.put { u with deletedAt := some deletedAt }).rows, u'.live = true →
      u'.userSub ≠ u.userSub := by
    intro u' hmem' hlive' hsub'
    rcases Table.mem_put.mp hmem' with rfl | ⟨hmem', hne⟩
    · cases hlive'
    · have heq := hs.userSub u' hmem' u hmem hlive' hlive hsub'
      exact hne (by rw [heq])
  rw [Store.getUserBySub_none]
  cases hactor with
  | own hown => exact hput
  | upsert hne hsub hgetActor hold hliveActor hnew =>
    intro u' hmem' hlive' hsub'
    rcases Table.mem_put.mp hmem' with rfl | ⟨hmem', -⟩
    · exact hsub (hsub'.symm.trans hnew)
    · exact hput u' hmem' hlive' hsub'

theorem delete_commits (hs : s.WellFormed) (id : Option Uuid) :
    CommitsTo (fun s' => ∃ i, id = some i ∧ Deleted actor i s s') s
      (delete actor true id).run none := by
  refine commits_check fun i hid => ?_
  refine commits_beginTx fun now => ?_
  refine commits_query fun _ before _ hread _ => ?_
  obtain ⟨hbefore, rfl⟩ := hread.getUserById_eq
  cases before with
  | none => exact commits_throw
  | some before => ?_
  refine commits_query fun _ deleted _ hwrite _ => ?_
  cases hwrite with
  | softDeleteUserNone hnone => exact commits_throw
  | @softDeleteUser _ u hu =>
    cases hbefore.symm.trans hu
    have hkey : before.id = i := Table.key_of_get (Store.getUser_some hu).1
    subst hkey
    exact commits_actor rfl rfl fun actorId ws hactor => ⟨_, extracted_ok hid, before, _, hu,
      get_target hactor, getUserBySub_deleted hs hu hactor, userEffect hactor rfl rfl rfl rfl⟩

end Users

/-- A mutation request to `/admin/v1/users`. -/
inductive UserOperation
  | create (body : Option Users.CreateUserRequest)
  | patch (id : Option Uuid) (body : Option Users.UpdateUserRequest)
  | delete (id : Option Uuid)
  deriving DecidableEq

namespace UserOperation

def operation : UserOperation → Operation
  | .create body => .createUser body
  | .patch id body => .patchUser id body
  | .delete id => .deleteUser id

/-- The request has been carried out. -/
def Applied (actor : AdminActor) (s s' : Store) : UserOperation → Prop
  | .create body => ∃ b, body = some b ∧ Users.Created actor b s s'
  | .patch id body => ∃ i b, id = some i ∧ body = some b ∧ Users.Patched actor i b s s'
  | .delete id => ∃ i, id = some i ∧ Users.Deleted actor i s s'

theorem commits {actor} {s : Store} (hs : s.WellFormed) (op : UserOperation) :
    CommitsTo (fun s' => op.Applied actor s s') s (handle ⟨actor, op.operation⟩).run none := by
  cases op with
  | create body => exact Users.create_commits body
  | patch id body => exact Users.patch_commits id body
  | delete id => exact Users.delete_commits hs id

end UserOperation

def aliceStore : Store :=
  Store.empty.apply (.user none ⟨1, "alice", "alice@corp", ["eng"], 0, 0, none⟩)

end DbMcpGateway.Admin
