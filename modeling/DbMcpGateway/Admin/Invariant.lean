import DbMcpGateway.Admin.System
import DbMcpGateway.Admin.Transaction

/-!
# What holds in every reachable state

Every request follows the protocol of a mutation; every open transaction can be
explained by what it has seen, and its writes fit the committed store and are apart from
those of the others; every committed version is the one before with the writes of one
complete mutation.

Results:

* `RequestMove.follows` and its companions: the step lemmas of a single request.
* `Sys.Ok.step`, `Sys.ok_of_run`: the invariant of the whole system.
* `Sys.invariant_of_run`: the rule for what holds on top of it.
-/

namespace DbMcpGateway.Admin

open Async Async.Prog Audit Authz State

/-! ## Requests -/

/-- The phase of the protocol that goes with the state of a transaction. -/
inductive Agrees : TxState → Bool → Phase → Prop
  | start : Agrees .none false .start
  | inTx {t : Tx} : Agrees (.open t) false (.inTx t.log)
  | committing {t : Tx} : Agrees (.committing t) false (.inTx t.log)
  | settled {t : Tx} {v} : Agrees (.committed t v) false (.inTx t.log)
  | rolledBack {log} : Agrees .rolledBack false (.inTx log)
  | failed {tx} : Agrees tx false .failed
  | committed {t : Tx} {v} : Agrees (.committed t v) false (.committed t.log)
  | spawned {t : Tx} {v} : Agrees (.committed t v) true (.spawned t.log)

/-- The transaction of a request that has sent COMMIT and was not rolled back. -/
@[simp] def TxState.sealed : TxState → Option Tx
  | .committing t => some t
  | .committed t _ => some t
  | _ => Option.none

/-- The invalidation that is due after a log. -/
def scopeOf (log : List Exchange) : Option Scope := (Mutation.ofLog log).bind Mutation.scope

structure Request.Follows (r : Request) : Prop where
  running : ∀ p, r.task = .running p → ∃ φ, Agrees r.tx r.spawned φ ∧
    (protocol r.call.actor r.call.subject).Obeys Final φ p
  returned : ∀ response, r.task = .returned (.ok response) → ∃ t v, r.tx = .committed t v ∧
    (scopeOf t.log = none ∨ r.spawned = true)
  complete : ∀ t, r.tx.sealed = some t → Complete r.call.actor t.log
  spawned : r.spawned = true → ∃ t v, r.tx = .committed t v

section

variable {actor : AdminActor} {subject : Option String} {φ : Phase}

theorem allowed_begin (h : (protocol actor subject).allowed φ .begin) : φ = .start := by
  cases φ with
  | start => rfl
  | _ => exact h.elim

theorem allowed_stmt {st : Stmt} (h : (protocol actor subject).allowed φ (.stmt st)) :
    ∃ log, φ = .inTx log ∧ MayRun actor subject log st := by
  cases φ with
  | inTx log => exact ⟨log, rfl, h⟩
  | _ => exact h.elim

theorem allowed_commit (h : (protocol actor subject).allowed φ .commit) :
    ∃ log, φ = .inTx log ∧ Complete actor log := by
  cases φ with
  | inTx log => exact ⟨log, rfl, h⟩
  | _ => exact h.elim

theorem allowed_spawn {scope : Scope} (h : (protocol actor subject).allowed φ (.spawn scope)) :
    ∃ log, φ = .committed log ∧ scopeOf log = some scope := by
  cases φ with
  | committed log => exact ⟨log, rfl, h⟩
  | _ => exact h.elim

end

section

variable {call : AdminCall} {task task' : HandlerTask} {tx tx' : TxState} {spawned : Bool}
  {a : Action}

theorem follows_resume {φ : Phase}
    {p} (hφ : Agrees tx spawned φ)
    (hp : (protocol call.actor call.subject).Obeys Final φ p)
    (hcomplete : ∀ t, tx.sealed = some t → Complete call.actor t.log)
    (hspawned : spawned = true → ∃ t v, tx = .committed t v) :
    Request.Follows ⟨call, resume p, tx, spawned⟩ := by
  refine ⟨?_, ?_, hcomplete, hspawned⟩
  · intro p' hp'
    cases p with
    | ret result => cases hp'
    | await r k =>
      cases hp'
      exact ⟨φ, hφ, hp⟩
  · intro response hreturned
    cases p with
    | await r k => cases hreturned
    | ret result =>
      cases hreturned
      cases hφ with
      | committed => exact ⟨_, _, rfl, .inl hp⟩
      | spawned => exact ⟨_, _, rfl, .inr rfl⟩
      | _ => exact hp.elim

theorem follows_arrive (call : AdminCall) :
    Request.Follows ⟨call, resume (handle call).run, .none, false⟩ :=
  follows_resume .start (handle_follows call).obeys (by simp) (by simp)

/-- What is known of a request whose handler waits for a reply. -/
theorem Request.Follows.await {r : AdminReq} {k : AdminResp r → _}
    (h : Request.Follows ⟨call, .running (.await r k), tx, spawned⟩) :
    ∃ φ, Agrees tx spawned φ ∧ (protocol call.actor call.subject).allowed φ r ∧
      ∀ x, (protocol call.actor call.subject).Obeys Final
        ((protocol call.actor call.subject).next φ r x) (k x) := by
  obtain ⟨φ, hφ, hp⟩ := h.running _ rfl
  exact ⟨φ, hφ, hp.1, fun x => hp.2 x trivial⟩

theorem RequestMove.follows {i : ℕ} (hmove : RequestMove i a task tx task' tx')
    (h : Request.Follows ⟨call, task, tx, spawned⟩) :
    Request.Follows ⟨call, task', tx', spawned⟩ := by
  cases hmove with
  | begin =>
    obtain ⟨φ, hφ, hallowed, hnext⟩ := h.await
    obtain rfl := allowed_begin hallowed
    cases hφ
    exact follows_resume .inTx (hnext (.ok ())) (by simp) (by simp)
  | @beginError now e k =>
    obtain ⟨φ, hφ, hallowed, hnext⟩ := h.await
    obtain rfl := allowed_begin hallowed
    cases hφ
    exact follows_resume .failed (hnext (.error e)) (by simp) (by simp)
  | @execError fresh failure e st k t =>
    obtain ⟨φ, hφ, hallowed, hnext⟩ := h.await
    obtain ⟨log, rfl, -⟩ := allowed_stmt hallowed
    cases hφ
    exact follows_resume .failed (hnext (.error e)) (by simp) (by simp)
  | @sendCommit k t =>
    obtain ⟨φ, hφ, hp⟩ := h.running _ rfl
    obtain ⟨log, rfl, hcomplete⟩ := allowed_commit hp.1
    cases hφ
    refine ⟨?_, ?_, ?_, ?_⟩
    · rintro p ⟨⟩
      exact ⟨_, .committing, hp⟩
    · rintro response ⟨⟩
    · rintro t' ⟨⟩
      exact hcomplete
    · rintro ⟨⟩
  | @abort task t =>
    refine ⟨?_, ?_, ?_, ?_⟩
    · intro p hp
      obtain ⟨φ, hφ, hobeys⟩ := h.running p hp
      cases hφ with
      | committing => exact ⟨_, .rolledBack, hobeys⟩
      | failed => exact ⟨_, .failed, hobeys⟩
    · intro response hreturned
      obtain ⟨t', v, htx, -⟩ := h.returned response hreturned
      cases htx
    · rintro t' ⟨⟩
    · intro hspawned
      obtain ⟨t', v, htx⟩ := h.spawned hspawned
      cases htx
  | @reply k t v =>
    obtain ⟨φ, hφ, hallowed, hnext⟩ := h.await
    obtain ⟨log, rfl, -⟩ := allowed_commit hallowed
    cases hφ
    exact follows_resume .committed (hnext (.ok ())) h.complete h.spawned
  | @replyError e k tx hsent =>
    obtain ⟨φ, hφ, hallowed, hnext⟩ := h.await
    obtain ⟨log, rfl, -⟩ := allowed_commit hallowed
    have hspawned : spawned = false := by cases hφ <;> rfl
    subst hspawned
    exact follows_resume .failed (hnext (.error e)) h.complete h.spawned
  | drop hp =>
    refine ⟨?_, ?_, h.complete, h.spawned⟩
    · rintro p ⟨⟩
    · rintro response ⟨⟩
  | @rollback task t hnot =>
    refine ⟨?_, ?_, ?_, ?_⟩
    · intro p hp
      exact absurd hp (hnot p)
    · intro response hreturned
      obtain ⟨t', v, htx, -⟩ := h.returned response hreturned
      cases htx
    · rintro t' ⟨⟩
    · intro hspawned
      obtain ⟨t', v, htx⟩ := h.spawned hspawned
      cases htx

theorem Request.Follows.mayRun {st : Stmt} {k : Except SqlxError st.Resp → _} {t : Tx}
    (h : Request.Follows ⟨call, .running (.await (.stmt st) k), .open t, spawned⟩) :
    MayRun call.actor call.subject t.log st := by
  obtain ⟨φ, hφ, hallowed, -⟩ := h.await
  obtain ⟨log, rfl, hmay⟩ := allowed_stmt hallowed
  cases hφ
  exact hmay

theorem Request.Follows.exec {st : Stmt} {k : Except SqlxError st.Resp → _} {t : Tx}
    (h : Request.Follows ⟨call, .running (.await (.stmt st) k), .open t, spawned⟩) (x : st.Resp)
    (ws : List Write) :
    Request.Follows
      ⟨call, resume (k (.ok x)), .open ⟨t.startedAt, t.log ++ [⟨st, x⟩], ws⟩, spawned⟩ := by
  obtain ⟨φ, hφ, hallowed, hnext⟩ := h.await
  obtain ⟨log, rfl, -⟩ := allowed_stmt hallowed
  cases hφ
  exact follows_resume (.inTx (t := ⟨t.startedAt, t.log ++ [⟨st, x⟩], ws⟩)) (hnext (.ok x))
    (by simp) (by simp)

theorem Request.Follows.commit {t : Tx} {v : ℕ}
    (h : Request.Follows ⟨call, task, .committing t, spawned⟩) :
    Request.Follows ⟨call, task, .committed t v, spawned⟩ := by
  refine ⟨?_, ?_, ?_, ?_⟩
  · intro p hp
    obtain ⟨φ, hφ, hobeys⟩ := h.running p hp
    cases hφ with
    | committing => exact ⟨_, .settled, hobeys⟩
    | failed => exact ⟨_, .failed, hobeys⟩
  · intro response hreturned
    obtain ⟨t', v, htx, -⟩ := h.returned response hreturned
    cases htx
  · rintro t' ⟨⟩
    exact h.complete t rfl
  · intro hspawned
    obtain ⟨t', v, htx⟩ := h.spawned hspawned
    cases htx

theorem Request.Follows.spawn {scope : Scope} {k : Unit → _}
    (h : Request.Follows ⟨call, .running (.await (.spawn scope) k), tx, spawned⟩) :
    spawned = false ∧ (∃ t v, tx = .committed t v ∧ scopeOf t.log = some scope) ∧
      Request.Follows ⟨call, resume (k ()), tx, true⟩ := by
  obtain ⟨φ, hφ, hallowed, hnext⟩ := h.await
  obtain ⟨log, rfl, hscope⟩ := allowed_spawn hallowed
  cases hφ
  exact ⟨rfl, ⟨_, _, rfl, hscope⟩,
    follows_resume .spawned (hnext ()) h.complete fun _ => ⟨_, _, rfl⟩⟩

end

/-! ## The system -/

/-- A transaction of the call has taken the store `s` to `s'`. -/
structure Commits (call : AdminCall) (t : Tx) (s s' : Store) : Prop where
  wellFormed : s.WellFormed
  complete : Complete call.actor t.log
  explains : Explains s t.startedAt .empty [] t.log t.writes
  fits : writes.FitsAll s t.writes
  result : s' = writes.applyAll s t.writes

/-- The parts of a commit: the write of the mutation, the actor's row, the audit row. -/
theorem Commits.parts {call : AdminCall} {t : Tx} {s s' : Store} (h : Commits call t s s') :
    ∃ m actorId w wsActor, t.log = m.log call.actor actorId ∧ Main s m w ∧
      ActorWrites m call.actor actorId wsActor ∧
      t.writes = w :: (wsActor ++ [.audit (m.auditRow call.actor actorId)]) ∧ w.Fits s ∧
      writes.FitsAll (s.apply w) (wsActor ++ [.audit (m.auditRow call.actor actorId)]) ∧
      s' = writes.applyAll (s.apply w) (wsActor ++ [.audit (m.auditRow call.actor actorId)]) ∧
      m.ActorOk call.actor actorId := by
  obtain ⟨m, actorId, hlog, hactorId⟩ := h.complete
  have hexplains := h.explains
  rw [hlog] at hexplains
  obtain ⟨w, wsActor, hwrites, hmain, hactor⟩ := hexplains.complete
  have hfits := h.fits
  have hresult := h.result
  rw [hwrites] at hfits hresult
  exact ⟨m, actorId, w, wsActor, hlog, hmain, hactor, hwrites, hfits.fits w List.mem_cons_self,
    hfits.tail, hresult, hactorId⟩

/-- What holds in every reachable state. -/
structure Sys.Ok (s : Sys) : Prop where
  wellFormed : s.store.WellFormed
  follows : ∀ r ∈ s.requests, r.Follows
  explains : ∀ r ∈ s.requests, ∀ t, r.tx.active = some t →
    Explains s.store t.startedAt .empty [] t.log t.writes
  fits : ∀ r ∈ s.requests, ∀ t, r.tx.active = some t → writes.FitsAll s.store t.writes
  apart : ∀ (i j : ℕ) (r r' : Request) (t t' : Tx), i ≠ j → s.requests[i]? = some r →
    s.requests[j]? = some r' → r.tx.active = some t → r'.tx.active = some t' →
    writes.Apart t.writes t'.writes
  /-- A committed transaction has made its version. -/
  committed : ∀ r ∈ s.requests, ∀ t v, r.tx = .committed t v →
    ∃ s₀ s₁, s.versions[v]? = some s₀ ∧ s.versions[v + 1]? = some s₁ ∧ Commits r.call t s₀ s₁
  /-- Every version was made by a committed transaction. -/
  history : ∀ v s₀ s₁, s.versions[v]? = some s₀ → s.versions[v + 1]? = some s₁ →
    ∃ r ∈ s.requests, ∃ t, r.tx = .committed t v ∧ Commits r.call t s₀ s₁
  cache : s.cache.WellFormed

namespace Sys

theorem ok_init : init.Ok where
  wellFormed := Store.wellFormed_empty
  follows := by simp [init]
  explains := by simp [init]
  fits := by simp [init]
  apart := by simp [init]
  committed := by simp [init]
  history := by
    intro v s₀ s₁ _ h
    simp [init, versions] at h
  cache := PermissionsCache.wellFormed_empty

variable {s s' : Sys} {a : Action} {i : ℕ} {r r' : Request}

theorem Ok.setRequest (h : s.Ok) (hi : s.requests[i]? = some r) (hcall : r'.call = r.call)
    (hfollows : r'.Follows)
    (hexplains : ∀ t, r'.tx.active = some t →
      Explains s.store t.startedAt .empty [] t.log t.writes)
    (hfits : ∀ t, r'.tx.active = some t → writes.FitsAll s.store t.writes)
    (hapart : ∀ t, r'.tx.active = some t → ∀ j r₁ t₁, j ≠ i → s.requests[j]? = some r₁ →
      r₁.tx.active = some t₁ → writes.Apart t.writes t₁.writes)
    (hcommitted : ∀ t v, r'.tx = .committed t v ↔ r.tx = .committed t v) :
    (s.setRequest i r').Ok := by
  refine ⟨h.wellFormed, ?_, ?_, ?_, ?_, ?_, ?_, h.cache⟩
  · intro r₁ hr₁
    rcases Indexed.mem_set_cases hr₁ with rfl | hr₁
    · exact hfollows
    · exact h.follows r₁ hr₁
  · intro r₁ hr₁
    rcases Indexed.mem_set_cases hr₁ with rfl | hr₁
    · exact hexplains
    · exact h.explains r₁ hr₁
  · intro r₁ hr₁
    rcases Indexed.mem_set_cases hr₁ with rfl | hr₁
    · exact hfits
    · exact h.fits r₁ hr₁
  · intro j k r₁ r₂ t₁ t₂ hjk hj hk ht₁ ht₂
    simp only [Sys.setRequest, Indexed.getElem?_set_of_some hi] at hj hk
    split_ifs at hj hk with hji hki hki
    · exact absurd (hji.trans hki.symm) hjk
    · cases hj
      exact hapart t₁ ht₁ k r₂ t₂ hki hk ht₂
    · cases hk
      exact (hapart t₂ ht₂ j r₁ t₁ hji hj ht₁).symm
    · exact h.apart j k r₁ r₂ t₁ t₂ hjk hj hk ht₁ ht₂
  · intro r₁ hr₁ t v ht
    rcases Indexed.mem_set_cases hr₁ with rfl | hr₁
    · rw [hcall]
      exact h.committed r (List.mem_of_getElem? hi) t v ((hcommitted t v).mp ht)
    · exact h.committed r₁ hr₁ t v ht
  · intro v s₀ s₁ hs₀ hs₁
    obtain ⟨r₁, hr₁, t, ht, hcommits⟩ := h.history v s₀ s₁ hs₀ hs₁
    rcases Indexed.mem_set_of_mem hi hr₁ with rfl | hr₁
    · exact ⟨r', Indexed.mem_set_self hi, t, (hcommitted t v).mpr ht, hcall ▸ hcommits⟩
    · exact ⟨r₁, hr₁, t, ht, hcommits⟩

end Sys

/-- What a move of a request does with its transaction: it is open and empty, it stays
    active as it is, or it is no longer active. -/
theorem RequestMove.active {i : ℕ} {task task'} {tx tx' : TxState}
    {a : Action} (hmove : RequestMove i a task tx task' tx') {t : Tx}
    (ht : tx'.active = some t) : tx.active = some t ∨ t.log = [] ∧ t.writes = [] := by
  cases hmove with
  | begin =>
    cases ht
    exact .inr ⟨rfl, rfl⟩
  | beginError | execError | sendCommit | reply | replyError | drop => exact .inl ht
  | abort | rollback => cases ht

theorem RequestMove.committed {i : ℕ} {task task'} {tx tx' : TxState}
    {a : Action} (hmove : RequestMove i a task tx task' tx') (t : Tx) (v : ℕ) :
    tx' = .committed t v ↔ tx = .committed t v := by
  cases hmove <;> first | exact Iff.rfl | simp

namespace Sys

variable {s s' : Sys} {a : Action} {i : ℕ} {r r' : Request}

theorem unlocked_apart {ws} (h : s.unlocked i ws = true) {j : ℕ} {t : Tx}
    (hji : j ≠ i) (hj : s.requests[j]? = some r) (ht : r.tx.active = some t) :
    writes.Apart ws t.writes := by
  unfold unlocked at h
  rw [List.all_eq_true] at h
  have hmem : r ∈ s.requests.eraseIdx i := List.mem_eraseIdx_iff_getElem?.mpr ⟨j, hji, hj⟩
  have hr := h r hmem
  rw [ht] at hr
  simp only [List.all_eq_true] at hr
  intro w hw w' hw' k hk hk'
  have hlock := hr w hw w' hw'
  unfold Admin.apart at hlock
  rw [List.all_eq_true] at hlock
  have := hlock k hk
  rw [Bool.not_eq_true', List.contains_eq_mem, decide_eq_false_iff_not] at this
  exact this hk'

theorem Ok.commits {call task} {t : Tx} {spawned : Bool} (h : s.Ok)
    (hi : s.requests[i]? = some ⟨call, task, .committing t, spawned⟩) :
    Commits call t s.store (writes.applyAll s.store t.writes) := by
  have hmem := List.mem_of_getElem? hi
  exact ⟨h.wellFormed, (h.follows _ hmem).complete t rfl, h.explains _ hmem t rfl,
    h.fits _ hmem t rfl, rfl⟩

theorem Ok.commit {call task} {t : Tx} {spawned : Bool} (h : s.Ok)
    (hi : s.requests[i]? = some ⟨call, task, .committing t, spawned⟩) :
    ((s.setRequest i ⟨call, task, .committed t s.history.length, spawned⟩).commit t).Ok := by
  have hmem := List.mem_of_getElem? hi
  have hcommits := h.commits hi
  have hfits := hcommits.fits
  have hgrows := grows_applyAll hfits
  have hversions : ((s.setRequest i
      ⟨call, task, .committed t s.history.length, spawned⟩).commit t).versions =
      s.versions ++ [writes.applyAll s.store t.writes] := rfl
  have hlast : s.versions[s.history.length]? = some s.store := by
    simp [versions]
  have hlength : s.versions.length = s.history.length + 1 := by
    simp [versions]
  -- the other requests are as before
  have hother : ∀ {j : ℕ} {r₁ : Request},
      (s.requests.set i ⟨call, task, .committed t s.history.length, spawned⟩)[j]? = some r₁ →
      ∀ t₁, r₁.tx.active = some t₁ → j ≠ i ∧ s.requests[j]? = some r₁ := by
    intro j r₁ hj t₁ ht₁
    rw [Indexed.getElem?_set_of_some hi] at hj
    split_ifs at hj with hji
    · cases hj
      cases ht₁
    · exact ⟨hji, hj⟩
  refine ⟨wellFormed_applyAll h.wellFormed hfits, ?_, ?_, ?_, ?_, ?_, ?_, h.cache⟩
  · intro r₁ hr₁
    rcases Indexed.mem_set_cases hr₁ with rfl | hr₁
    · exact (h.follows _ hmem).commit
    · exact h.follows r₁ hr₁
  · intro r₁ hr₁ t₁ ht₁
    obtain ⟨j, hj⟩ := List.mem_iff_getElem?.mp hr₁
    obtain ⟨-, hj⟩ := hother hj t₁ ht₁
    exact (h.explains r₁ (List.mem_of_getElem? hj) t₁ ht₁).mono hgrows
  · intro r₁ hr₁ t₁ ht₁
    obtain ⟨j, hj⟩ := List.mem_iff_getElem?.mp hr₁
    obtain ⟨hji, hj⟩ := hother hj t₁ ht₁
    exact (h.fits r₁ (List.mem_of_getElem? hj) t₁ ht₁).frame hfits
      (h.apart j i r₁ _ t₁ t hji hj hi ht₁ rfl)
  · intro j k r₁ r₂ t₁ t₂ hjk hj hk ht₁ ht₂
    exact h.apart j k r₁ r₂ t₁ t₂ hjk (hother hj t₁ ht₁).2 (hother hk t₂ ht₂).2 ht₁ ht₂
  · intro r₁ hr₁ t₁ v ht₁
    rw [hversions]
    rcases Indexed.mem_set_cases hr₁ with rfl | hr₁
    · cases ht₁
      refine ⟨s.store, _, Indexed.getElem?_concat_of_some hlast, ?_, hcommits⟩
      rw [Indexed.getElem?_concat, if_pos hlength.symm]
    · obtain ⟨s₀, s₁, hs₀, hs₁, hcommits₁⟩ := h.committed r₁ hr₁ t₁ v ht₁
      exact ⟨s₀, s₁, Indexed.getElem?_concat_of_some hs₀, Indexed.getElem?_concat_of_some hs₁,
        hcommits₁⟩
  · intro v s₀ s₁ hs₀ hs₁
    rw [hversions, Indexed.getElem?_concat] at hs₀ hs₁
    split_ifs at hs₁ with hv
    · cases hs₁
      rw [hlength, Nat.succ_inj] at hv
      subst hv
      rw [if_neg (by omega), hlast] at hs₀
      cases hs₀
      exact ⟨_, Indexed.mem_set_self hi, t, rfl, hcommits⟩
    · have hlt := (List.getElem?_eq_some_iff.mp hs₁).1
      rw [if_neg (by omega)] at hs₀
      obtain ⟨r₁, hr₁, t₁, ht₁, hcommits₁⟩ := h.history v s₀ s₁ hs₀ hs₁
      rcases Indexed.mem_set_of_mem hi hr₁ with rfl | hr₁
      · cases ht₁
      · exact ⟨r₁, hr₁, t₁, ht₁, hcommits₁⟩

theorem Ok.arrive (h : s.Ok) (call : AdminCall) :
    Sys.Ok { s with
      requests := s.requests ++ [⟨call, resume (handle call).run, .none, false⟩] } := by
  -- the new request has no transaction
  have hold : ∀ {j : ℕ} {r₁ : Request}, (s.requests ++
      [⟨call, resume (handle call).run, TxState.none, false⟩])[j]? = some r₁ →
      r₁.tx ≠ .none → s.requests[j]? = some r₁ := by
    intro j r₁ hj htx
    rw [Indexed.getElem?_concat] at hj
    split_ifs at hj
    · cases hj
      exact absurd rfl htx
    · exact hj
  have hmem : ∀ {r₁ : Request}, r₁ ∈ s.requests ++
      [⟨call, resume (handle call).run, TxState.none, false⟩] → r₁.tx ≠ .none →
      r₁ ∈ s.requests := by
    intro r₁ hr₁ htx
    obtain ⟨j, hj⟩ := List.mem_iff_getElem?.mp hr₁
    exact List.mem_of_getElem? (hold hj htx)
  have hactive : ∀ {tx : TxState} {t : Tx}, tx.active = some t → tx ≠ .none := by
    rintro _ t ht rfl
    cases ht
  refine ⟨h.wellFormed, ?_, ?_, ?_, ?_, ?_, ?_, h.cache⟩
  · intro r₁ hr₁
    rcases Indexed.mem_concat_cases hr₁ with rfl | hr₁
    · exact follows_arrive call
    · exact h.follows r₁ hr₁
  · intro r₁ hr₁ t ht
    exact h.explains r₁ (hmem hr₁ (hactive ht)) t ht
  · intro r₁ hr₁ t ht
    exact h.fits r₁ (hmem hr₁ (hactive ht)) t ht
  · intro j k r₁ r₂ t₁ t₂ hjk hj hk ht₁ ht₂
    exact h.apart j k r₁ r₂ t₁ t₂ hjk (hold hj (hactive ht₁)) (hold hk (hactive ht₂)) ht₁ ht₂
  · intro r₁ hr₁ t v ht
    exact h.committed r₁ (hmem hr₁ (by rw [ht]; simp)) t v ht
  · intro v s₀ s₁ hs₀ hs₁
    obtain ⟨r₁, hr₁, t, ht, hcommits⟩ := h.history v s₀ s₁ hs₀ hs₁
    exact ⟨r₁, List.mem_append_left _ hr₁, t, ht, hcommits⟩

/-- **Every step keeps the invariant.** -/
theorem Ok.step (h : s.Ok) (hmoves : s.Moves a s') : s'.Ok := by
  cases hmoves with
  | @arrive call => exact h.arrive call
  | @request _ i call task task' tx tx' spawned hi hmove =>
    have hmem := List.mem_of_getElem? hi
    refine h.setRequest hi rfl (hmove.follows (h.follows _ hmem)) ?_ ?_ ?_ hmove.committed
    · intro t ht
      rcases hmove.active ht with ht | ⟨hlog, hwrites⟩
      · exact h.explains _ hmem t ht
      · rw [hlog, hwrites]
        exact .nil (Store.empty_grows _)
    · intro t ht
      rcases hmove.active ht with ht | ⟨-, hwrites⟩
      · exact h.fits _ hmem t ht
      · rw [hwrites]
        exact .nil _
    · intro t ht j r₁ t₁ hji hj ht₁
      rcases hmove.active ht with ht | ⟨-, hwrites⟩
      · exact h.apart i j _ r₁ t t₁ hji.symm hi hj ht ht₁
      · rw [hwrites]
        intro w hw
        cases hw
  | @exec i fresh call st k t spawned x ws hi hdoes hunlocked hunused =>
    have hmem := List.mem_of_getElem? hi
    have hfollows := h.follows _ hmem
    have hexplains := h.explains _ hmem t rfl
    have hfits := h.fits _ hmem t rfl
    refine h.setRequest hi rfl (hfollows.exec x _) ?_ ?_ ?_ (by simp)
    · rintro t' ⟨⟩
      exact hexplains.concat h.wellFormed hdoes
    · rintro t' ⟨⟩
      exact hexplains.fitsAll_append h.wellFormed hfits hfollows.mayRun hunused hdoes
    · rintro t' ⟨⟩ j r₁ t₁ hji hj ht₁
      exact (h.apart i j _ r₁ t t₁ hji.symm hi hj rfl ht₁).append_left
        (unlocked_apart hunlocked hji hj ht₁)
  | commit hi => exact h.commit hi
  | @spawn i call scope k tx spawned hi =>
    have hmem := List.mem_of_getElem? hi
    obtain ⟨-, ⟨t, v, rfl, -⟩, hfollows⟩ := (h.follows _ hmem).spawn
    have hset : (s.setRequest i ⟨call, resume (k ()), .committed t v, true⟩).Ok :=
      h.setRequest hi rfl hfollows (by rintro t' ⟨⟩) (by rintro t' ⟨⟩) (by rintro t' ⟨⟩)
        fun _ _ => Iff.rfl
    exact ⟨hset.wellFormed, hset.follows, hset.explains, hset.fits, hset.apart, hset.committed,
      hset.history, h.cache.spawn scope⟩
  | cache hmove =>
    exact ⟨h.wellFormed, h.follows, h.explains, h.fits, h.apart, h.committed, h.history,
      h.cache.step hmove⟩

/-- The invariant holds in every reachable state. -/
theorem ok_of_run {as} (h : Machine.run step init as = some s) : s.Ok :=
  Machine.run_invariant (C := fun _ _ => True)
    (fun _ _ _ hok _ hstep => Ok.step hok (step_moves hstep)) (Machine.meets_true init as) h ok_init

/-- What every step of a reachable state that meets a condition preserves, a run preserves. -/
theorem invariant_of_run {P : Sys → Prop} {C : Sys → Action → Prop}
    (hpreserved : ∀ {s a s'}, s.Ok → P s → C s a → s.Moves a s' → P s') {as}
    (hmeets : Machine.Meets step C s as) (h : Machine.run step s as = some s') (hok : s.Ok)
    (hs : P s) : P s' := by
  have hboth : s'.Ok ∧ P s' := by
    refine Machine.run_invariant (P := fun s => s.Ok ∧ P s) ?_ hmeets h ⟨hok, hs⟩
    intro s₁ a s₂ hs₁ hc hstep
    have hmoves := step_moves hstep
    exact ⟨hs₁.1.step hmoves, hpreserved hs₁.1 hs₁.2 hc hmoves⟩
  exact hboth.2

end Sys

end DbMcpGateway.Admin
