import DbMcpGateway.Admin.Freshness

/-!
# Invalidations are executed

After its COMMIT a handler waits for the reply, spawns the invalidation and returns; the
detached task bumps the revision and removes entries once it gets the write lock. With a
fair runtime each of these happens, one after the other, unless the handler is dropped or
the connection fails while the COMMIT is under way: the server may have committed all the
same, and nobody is left to spawn.

Results:

* `Sys.Moves.touches`: what a step does to one request.
* `lock_free`: the write lock is free again and again.
* `invalidation_executed`: a mutation that affects a subject is followed by an
  invalidation that covers it, if no COMMIT is lost. If one is, it need not be
  (`invalidation_lost`).
-/

namespace DbMcpGateway.Admin

open Async Async.Prog Audit Authz State Machine

/-! ## One request -/

/-- What a step does to request `i`. -/
inductive Touches (i : ℕ) : Action → Request → Request → Prop
  | move {a call task task' tx tx' spawned} : RequestMove i a task tx task' tx' →
      Touches i a ⟨call, task, tx, spawned⟩ ⟨call, task', tx', spawned⟩
  | exec {fresh call st k} {t : Tx} {spawned x ws} :
      Touches i (.exec i fresh none) ⟨call, .running (.await (.stmt st) k), .open t, spawned⟩
        ⟨call, resume (k (.ok x)),
          .open ⟨t.startedAt, t.log ++ [⟨st, x⟩], t.writes ++ ws⟩, spawned⟩
  | commit {call task t v spawned} : Touches i (.settle i true) ⟨call, task, .committing t, spawned⟩
        ⟨call, task, .committed t v, spawned⟩
  | spawn {call scope k tx spawned} :
      Touches i (.spawn i) ⟨call, .running (.await (.spawn scope) k), tx, spawned⟩
        ⟨call, resume (k ()), tx, true⟩

namespace Sys

variable {s s' : Sys} {a : Action} {i j k : ℕ} {r : Request}

theorem Moves.touches (hmoves : s.Moves a s') (hi : s.requests[i]? = some r) :
    s'.requests[i]? = some r ∨ ∃ r', Touches i a r r' ∧ s'.requests[i]? = some r' := by
  have hset : ∀ {j : ℕ} {r₁ r₂ : Request}, s.requests[j]? = some r₁ → Touches j a r₁ r₂ →
      (s.requests.set j r₂)[i]? = some r ∨
        ∃ r', Touches i a r r' ∧ (s.requests.set j r₂)[i]? = some r' := by
    intro j r₁ r₂ hj htouches
    rw [Indexed.getElem?_set_of_some hj]
    split_ifs with hij
    · subst hij
      rw [hi] at hj
      cases hj
      exact .inr ⟨r₂, htouches, rfl⟩
    · exact .inl hi
  cases hmoves with
  | arrive => exact .inl (Indexed.getElem?_concat_of_some hi)
  | request hj hmove => exact hset hj (.move hmove)
  | exec hj => exact hset hj .exec
  | commit hj => exact hset hj .commit
  | spawn hj => exact hset hj .spawn
  | cache => exact .inl hi

theorem Moves.invalidation (hmoves : s.Moves a s') {t} (hk : s.cache.invalidations[k]? = some t) :
    s'.cache.invalidations[k]? = some t ∨ a = .cache (.bump k) ∨ a = .cache (.remove k) := by
  have hset : ∀ {l : ℕ} {t₁ t₂ : Invalidation}, s.cache.invalidations[l]? = some t₁ → l ≠ k →
      (s.cache.invalidations.set l t₂)[k]? = some t := by
    intro l t₁ t₂ hl hne
    rw [Indexed.getElem?_set_of_some hl, if_neg (Ne.symm hne)]
    exact hk
  cases hmoves with
  | spawn => exact .inl (Indexed.getElem?_concat_of_some hk)
  | cache hmove =>
    cases hmove with
    | @bump l scope hl =>
      by_cases hlk : l = k
      · exact .inr (.inl (by rw [hlk]))
      · exact .inl (hset hl hlk)
    | @remove l scope hl =>
      by_cases hlk : l = k
      · exact .inr (.inr (by rw [hlk]))
      · exact .inl (hset hl hlk)
    | _ => exact .inl hk
  | _ => exact .inl hk

theorem Moves.holder (hmoves : s.Moves a s') {sub : String} {st : GetFor}
    (hj : s.cache.calls[j]? = some ⟨sub, st⟩) (hst : PermissionsCache.writes st = true) :
    s'.cache.calls[j]? = some ⟨sub, st⟩ ∨ a = .cache (.recheck j) ∨ a = .cache (.insert j) := by
  have hset : ∀ {l : ℕ} {sub₁ : String} {st₁ st₂ : GetFor},
      s.cache.calls[l]? = some ⟨sub₁, st₁⟩ → l ≠ j →
      (s.cache.setCall l sub₁ st₂).calls[j]? = some ⟨sub, st⟩ := by
    intro l sub₁ st₁ st₂ hl hne
    rw [PermissionsCache.setCall, Indexed.getElem?_set_of_some hl, if_neg (Ne.symm hne)]
    exact hj
  -- a call in another state is another call
  have hother : ∀ {l : ℕ} {sub₁ : String} {st₁ : GetFor}, s.cache.calls[l]? = some ⟨sub₁, st₁⟩ →
      PermissionsCache.writes st₁ = false → l ≠ j := by
    rintro l sub₁ st₁ hl hfalse rfl
    rw [hj] at hl
    cases hl
    rw [hst] at hfalse
    cases hfalse
  cases hmoves with
  | cache hmove =>
    cases hmove with
    | getFor => exact .inl (Indexed.getElem?_concat_of_some hj)
    | call _ hl hcall => exact .inl (hset hl (hother hl (by cases hcall <;> rfl)))
    | lock hl => exact .inl (hset hl (hother hl rfl))
    | @recheck l sub₁ rev grants hl =>
      by_cases hlj : l = j
      · exact .inr (.inl (by rw [hlj]))
      · exact .inl (hset hl hlj)
    | @unlock l sub₁ rev grants hl =>
      by_cases hlj : l = j
      · exact .inr (.inl (by rw [hlj]))
      · exact .inl (hset hl hlj)
    | @insert l sub₁ grants hl =>
      by_cases hlj : l = j
      · exact .inr (.inr (by rw [hlj]))
      · exact .inl (hset hl hlj)
    | bump | remove => exact .inl hj
  | _ => exact .inl hj

end Sys

/-! ## A fair runtime -/

/-- Who moves. -/
inductive Agent
  | request (i : ℕ)
  | call (j : ℕ)
  | task (k : ℕ)
  deriving DecidableEq

/-- The moves that a fair runtime owes: a reply that has arrived is handed to the handler,
    which goes on; so do the detached tasks, and the call that has the write lock. -/
def agent : Action → Option Agent
  | .reply i none => some (.request i)
  | .spawn i => some (.request i)
  | .cache (.recheck j) => some (.call j)
  | .cache (.insert j) => some (.call j)
  | .cache (.bump k) => some (.task k)
  | .cache (.remove k) => some (.task k)
  | _ => none

theorem agent_eq_request {a : Action} {i : ℕ} (h : agent a = some (.request i)) :
    a = .reply i none ∨ a = .spawn i := by
  unfold agent at h
  split at h <;> simp_all

theorem agent_eq_call {a : Action} {j : ℕ} (h : agent a = some (.call j)) :
    a = .cache (.recheck j) ∨ a = .cache (.insert j) := by
  unfold agent at h
  split at h <;> simp_all

theorem agent_eq_task {a : Action} {k : ℕ} (h : agent a = some (.task k)) :
    a = .cache (.bump k) ∨ a = .cache (.remove k) := by
  unfold agent at h
  split at h <;> simp_all

/-- The step loses no COMMIT: while it is under way, and until its reply is handed over,
    the handler is not dropped and the connection does not fail, unless the server has
    rolled back. -/
def KeepsCommit (s : Sys) (a : Action) : Prop :=
  ∀ i r, s.requests[i]? = some r → (a = .drop i ∨ ∃ e, a = .reply i (some e)) →
    r.tx.sealed = none

/-- While its COMMIT is under way, a handler waits for the reply. -/
def Awaited (s : Sys) : Prop :=
  ∀ r ∈ s.requests, ∀ t, r.tx = .committing t → ∃ k, r.task = .running (.await .commit k)

theorem Awaited.step {s s' : Sys} {a : Action} (hok : s.Ok) (hkeeps : KeepsCommit s a)
    (h : Awaited s) (hmoves : s.Moves a s') : Awaited s' := by
  cases hmoves with
  | arrive =>
    intro r hr t htx
    rcases Indexed.mem_concat_cases hr with rfl | hr
    · cases htx
    · exact h r hr t htx
  | request hi hmove =>
    intro r hr t htx
    rcases Indexed.mem_set_cases hr with rfl | hr
    · cases hmove with
      | sendCommit => exact ⟨_, rfl⟩
      | replyError =>
        subst htx
        cases hkeeps _ _ hi (.inr ⟨_, rfl⟩)
      | drop =>
        subst htx
        cases hkeeps _ _ hi (.inl rfl)
      | _ => cases htx
    · exact h r hr t htx
  | exec | commit =>
    intro r hr t htx
    rcases Indexed.mem_set_cases hr with rfl | hr
    · cases htx
    · exact h r hr t htx
  | spawn hi =>
    obtain ⟨-, ⟨t', v, rfl, -⟩, -⟩ := (hok.follows _ (List.mem_of_getElem? hi)).spawn
    intro r hr t htx
    rcases Indexed.mem_set_cases hr with rfl | hr
    · cases htx
    · exact h r hr t htx
  | cache => exact h

theorem Request.Follows.due {call} {k : Except SqlxError Unit → _} {t : Tx} {v : ℕ}
    {scope : Scope} {spawned : Bool}
    (h : Request.Follows ⟨call, .running (.await .commit k), .committed t v, spawned⟩)
    (hscope : scopeOf t.log = some scope) : ∃ k', k (.ok ()) = .await (.spawn scope) k' := by
  obtain ⟨φ, hφ, hallowed, hnext⟩ := h.await
  obtain ⟨log, rfl, -⟩ := allowed_commit hallowed
  cases hφ
  have hobeys : (protocol call.actor call.subject).Obeys Final (.committed t.log) (k (.ok ())) :=
    hnext (.ok ())
  cases hk : k (.ok ()) with
  | ret result =>
    rw [hk] at hobeys
    cases result with
    | ok response =>
      have hnone : scopeOf t.log = none := hobeys
      rw [hscope] at hnone
      cases hnone
    | error e => exact hobeys.elim
  | await req k' =>
    rw [hk] at hobeys
    cases req with
    | spawn scope' =>
      have hscope' : scopeOf t.log = some scope' := hobeys.1
      rw [hscope] at hscope'
      cases hscope'
      exact ⟨k', rfl⟩
    | _ => exact hobeys.1.elim

/-! ## Runs that end -/

/-- No handler is about to be resumed, no task is left and nobody has the lock. -/
def Sys.idle (s : Sys) : Bool :=
  (s.requests.all fun r =>
    match r.task with
    | .running _ => false
    | _ => true) &&
  (s.cache.invalidations.all fun invalidation => invalidation.progress = .done) &&
  s.cache.calls.all fun call => !PermissionsCache.writes call.state

theorem Sys.idle_not_enabled {s : Sys} (h : s.idle = true) (g : Agent) :
    ¬ Enabled agent Sys.step g s := by
  simp only [Sys.idle, Bool.and_eq_true, List.all_eq_true, decide_eq_true_eq] at h
  obtain ⟨⟨hrequests, hinvalidations⟩, hcalls⟩ := h
  have hrunning : ∀ {i : ℕ} {call : AdminCall} {p : _} {tx : TxState} {spawned : Bool},
      s.requests[i]? ≠ some ⟨call, .running p, tx, spawned⟩ := by
    intro i call p tx spawned hi
    have hfalse := hrequests _ (List.mem_of_getElem? hi)
    cases hfalse
  have hlock : ∀ {j : ℕ} {sub : String} {st : GetFor}, s.cache.calls[j]? = some ⟨sub, st⟩ →
      PermissionsCache.writes st ≠ true := by
    intro j sub st hj hst
    have hfalse := hcalls _ (List.mem_of_getElem? hj)
    rw [hst] at hfalse
    cases hfalse
  have hdone : ∀ {k : ℕ} {t : Invalidation}, s.cache.invalidations[k]? = some t →
      t.progress = .done := fun hk => hinvalidations _ (List.mem_of_getElem? hk)
  rintro ⟨a, s', ha, hstep⟩
  cases g with
  | request i =>
    rcases agent_eq_request ha with rfl | rfl
    · cases step_moves hstep with
      | request hi hmove => cases hmove with | reply => exact hrunning hi
    · cases step_moves hstep with
      | request hi hmove => cases hmove
      | spawn hi => exact hrunning hi
  | call j =>
    rcases agent_eq_call ha with rfl | rfl
    all_goals
      simp only [step, PermissionsCache.step, Option.map_eq_some_iff] at hstep
      obtain ⟨c, hc, -⟩ := hstep
      split at hc
      · rename_i hj
        exact hlock hj rfl
      · cases hc
  | task k =>
    rcases agent_eq_task ha with rfl | rfl
    · simp only [step, PermissionsCache.step, Option.map_eq_some_iff] at hstep
      obtain ⟨c, hc, -⟩ := hstep
      split at hc
      · rename_i hk
        cases hdone hk
      · cases hc
    · simp only [step, PermissionsCache.step, Option.map_eq_some_iff] at hstep
      obtain ⟨c, hc, -⟩ := hstep
      split at hc
      · rename_i hk _
        cases hdone hk
      · cases hc

/-- The step drops a handler or fails the reply to its COMMIT. -/
def Action.loses : Action → Bool
  | .drop _ => true
  | .reply _ (some _) => true
  | _ => false

theorem keepsCommit_of_not_loses {s : Sys} {a : Action} (h : a.loses = false) :
    KeepsCommit s a := by
  rintro i r - (rfl | ⟨e, rfl⟩)
  · cases h
  · cases h

/-! ## Steps that are due -/

namespace Sys

variable {s : Sys} {i j k : ℕ}

variable {spawned : Bool} {scope : Scope} {sub : String}

theorem step_reply {call} {p : Except SqlxError Unit → _} {t : Tx} {v : ℕ}
    (hi : s.requests[i]? = some ⟨call, .running (.await .commit p), .committed t v, spawned⟩) :
    s.step (.reply i none) =
      some (s.setRequest i ⟨call, resume (p (.ok ())), .committed t v, spawned⟩) := by
  simp only [step, hi]

theorem step_spawn {call} {p : Unit → _} {tx : TxState}
    (hi : s.requests[i]? = some ⟨call, .running (.await (.spawn scope) p), tx, spawned⟩) :
    s.step (.spawn i) = some
      { s.setRequest i ⟨call, resume (p ()), tx, true⟩ with cache := s.cache.spawn scope } := by
  simp only [step, hi]

theorem step_bump (hk : s.cache.invalidations[k]? = some ⟨scope, .spawned⟩) :
    s.step (.cache (.bump k)) = some { s with
      cache := { s.cache.setProgress k scope .bumped with revision := s.cache.revision + 1 } } := by
  simp only [step, PermissionsCache.step, hk, Option.map_some]

theorem step_remove (hk : s.cache.invalidations[k]? = some ⟨scope, .bumped⟩)
    (hw : s.cache.writer = none) : ∃ s', s.step (.cache (.remove k)) = some s' := by
  simp only [step, PermissionsCache.step, hk, hw, Option.map_some]
  exact ⟨_, rfl⟩

theorem step_recheck {rev : ℕ} {grants} (hj : s.cache.calls[j]? = some ⟨sub, .locked rev grants⟩) :
    ∃ s', s.step (.cache (.recheck j)) = some s' ∧
      (s'.cache.writer = none ∨ s'.cache.calls[j]? = some ⟨sub, .inserting grants⟩) := by
  simp only [step, PermissionsCache.step, hj]
  split_ifs
  · refine ⟨_, rfl, .inr ?_⟩
    simp [PermissionsCache.setCall, Indexed.getElem?_set_of_some hj]
  · exact ⟨_, rfl, .inl rfl⟩

theorem step_insert {grants} (hj : s.cache.calls[j]? = some ⟨sub, .inserting grants⟩) :
    ∃ s', s.step (.cache (.insert j)) = some s' ∧ s'.cache.writer = none := by
  simp only [step, PermissionsCache.step, hj]
  exact ⟨_, rfl, rfl⟩

end Sys

/-! ## What happens eventually -/

section

variable {e : Execution Sys.step Sys.init} {n i j k : ℕ}

theorem ok_at (n : ℕ) : (e.state n).Ok :=
  Execution.invariant (C := fun _ _ => True)
    (fun _ _ _ hok _ hstep => hok.step (Sys.step_moves hstep)) (fun _ _ _ => trivial) Sys.ok_init n

variable {a : Action} {sub : String} {scope : Scope} {t : Tx} {v : ℕ} {spawned : Bool}

theorem moves_at (h : e.act n = some a) : (e.state n).Moves a (e.state (n + 1)) :=
  Sys.step_moves (e.next_some h)

theorem state_eq {s : Sys} (h : e.act n = some a) (hstep : (e.state n).step a = some s) :
    e.state (n + 1) = s := by
  have hnext := e.next_some h
  rw [hstep, Option.some.injEq] at hnext
  exact hnext.symm

section

variable (hfair : e.Fair agent)

include hfair

theorem insert_releases {grants}
    (hj : (e.state n).cache.calls[j]? = some ⟨sub, .inserting grants⟩) :
    ∃ m, n ≤ m ∧ (e.state m).cache.writer = none := by
  obtain ⟨m, hle, hm, a, hact, ha⟩ := hfair.progress (g := .call j)
    (P := fun s => s.cache.calls[j]? = some ⟨sub, .inserting grants⟩) hj
    (fun m hm => by
      obtain ⟨s', hstep, -⟩ := Sys.step_insert hm
      exact ⟨_, s', rfl, hstep⟩)
    (fun l a hact ha hl => by
      rcases (moves_at hact).holder hl rfl with h | rfl | rfl
      · exact h
      · exact absurd rfl ha
      · exact absurd rfl ha)
  rcases agent_eq_call ha with rfl | rfl
  · have hnext := e.next_some hact
    simp [Sys.step, PermissionsCache.step, hm] at hnext
  · obtain ⟨s', hstep, hnone⟩ := Sys.step_insert hm
    rw [← state_eq hact hstep] at hnone
    exact ⟨m + 1, by omega, hnone⟩

theorem locked_releases {rev : ℕ} {grants}
    (hj : (e.state n).cache.calls[j]? = some ⟨sub, .locked rev grants⟩) :
    ∃ m, n ≤ m ∧ (e.state m).cache.writer = none := by
  obtain ⟨m, hle, hm, a, hact, ha⟩ := hfair.progress (g := .call j)
    (P := fun s => s.cache.calls[j]? = some ⟨sub, .locked rev grants⟩) hj
    (fun m hm => by
      obtain ⟨s', hstep, -⟩ := Sys.step_recheck hm
      exact ⟨_, s', rfl, hstep⟩)
    (fun l a hact ha hl => by
      rcases (moves_at hact).holder hl rfl with h | rfl | rfl
      · exact h
      · exact absurd rfl ha
      · exact absurd rfl ha)
  rcases agent_eq_call ha with rfl | rfl
  · obtain ⟨s', hstep, hs'⟩ := Sys.step_recheck hm
    rw [← state_eq hact hstep] at hs'
    rcases hs' with hnone | hinserting
    · exact ⟨m + 1, by omega, hnone⟩
    · obtain ⟨m', hle', hnone⟩ := insert_releases hfair hinserting
      exact ⟨m', by omega, hnone⟩
  · have hnext := e.next_some hact
    simp [Sys.step, PermissionsCache.step, hm] at hnext

theorem lock_free (n : ℕ) :
    ∃ m, n ≤ m ∧ (e.state m).cache.writer = none := by
  cases hw : (e.state n).cache.writer with
  | none => exact ⟨n, le_rfl, hw⟩
  | some j =>
    obtain ⟨⟨sub, st⟩, hj, hst⟩ := ((ok_at n).cache.lock j).mp hw
    cases st with
    | locked rev grants => exact locked_releases hfair hj
    | inserting grants => exact insert_releases hfair hj
    | _ => cases hst

theorem spawned_executed (hk : (e.state n).cache.invalidations[k]? = some ⟨scope, .spawned⟩) :
    ∃ m₁ m₂, n ≤ m₁ ∧ m₁ < m₂ ∧ e.act m₁ = some (.cache (.bump k)) ∧
      e.act m₂ = some (.cache (.remove k)) ∧
      (e.state m₂).cache.invalidations[k]? = some ⟨scope, .bumped⟩ := by
  have hstay : ∀ (progress : Progress) (l : ℕ) (a : Action), e.act l = some a →
      agent a ≠ some (.task k) →
      (e.state l).cache.invalidations[k]? = some ⟨scope, progress⟩ →
      (e.state (l + 1)).cache.invalidations[k]? = some ⟨scope, progress⟩ := by
    intro progress l a hact ha hl
    rcases (moves_at hact).invalidation hl with h | rfl | rfl
    · exact h
    · exact absurd rfl ha
    · exact absurd rfl ha
  obtain ⟨m₁, hle₁, hm₁, a₁, hact₁, ha₁⟩ := hfair.progress (g := .task k)
    (P := fun s => s.cache.invalidations[k]? = some ⟨scope, .spawned⟩) hk
    (fun m hm => ⟨_, _, rfl, Sys.step_bump hm⟩) (hstay .spawned)
  have hbump : a₁ = .cache (.bump k) := by
    rcases agent_eq_task ha₁ with rfl | rfl
    · rfl
    · have hnext := e.next_some hact₁
      simp [Sys.step, PermissionsCache.step, hm₁] at hnext
  subst hbump
  have hbumped : (e.state (m₁ + 1)).cache.invalidations[k]? = some ⟨scope, .bumped⟩ := by
    rw [state_eq hact₁ (Sys.step_bump hm₁)]
    simp [PermissionsCache.setProgress, Indexed.getElem?_set_of_some hm₁]
  obtain ⟨m₂, hle₂, hm₂, a₂, hact₂, ha₂⟩ := hfair.progress_of_recurrent (g := .task k)
    (P := fun s => s.cache.invalidations[k]? = some ⟨scope, .bumped⟩)
    (Q := fun s => s.cache.writer = none) hbumped (lock_free hfair)
    (fun m hm hw => by
      obtain ⟨s', hstep⟩ := Sys.step_remove hm hw
      exact ⟨_, s', rfl, hstep⟩) (hstay .bumped)
  have hremove : a₂ = .cache (.remove k) := by
    rcases agent_eq_task ha₂ with rfl | rfl
    · have hnext := e.next_some hact₂
      simp [Sys.step, PermissionsCache.step, hm₂] at hnext
    · rfl
  subst hremove
  exact ⟨m₁, m₂, hle₁, by omega, hact₁, hact₂, hm₂⟩

/-- A handler that waits for the reply to a COMMIT that has succeeded gets it. -/
theorem replied (hkeeps : ∀ n a, e.act n = some a → KeepsCommit (e.state n) a) {call}
    {p : Except SqlxError Unit → Prog AdminReq AdminResp (Except AdminError AdminResponse)}
    (hi : (e.state n).requests[i]? =
      some ⟨call, .running (.await .commit p), .committed t v, spawned⟩) :
    ∃ m, n ≤ m ∧ (e.state m).requests[i]? =
      some ⟨call, resume (p (.ok ())), .committed t v, spawned⟩ := by
  obtain ⟨m, hle, hm, a, hact, ha⟩ := hfair.progress (g := .request i)
    (P := fun s => s.requests[i]? =
      some ⟨call, .running (.await .commit p), .committed t v, spawned⟩) hi
    (fun m hm => ⟨_, _, rfl, Sys.step_reply hm⟩)
    (fun l a hact ha hl => by
      rcases (moves_at hact).touches hl with h | ⟨r', htouches, -⟩
      · exact h
      · cases htouches with
        | move hmove =>
          cases hmove with
          | reply => exact absurd rfl ha
          | replyError =>
            have hnone := hkeeps l _ hact i _ hl (.inr ⟨_, rfl⟩)
            cases hnone
          | drop =>
            have hnone := hkeeps l _ hact i _ hl (.inl rfl)
            cases hnone)
  rcases agent_eq_request ha with rfl | rfl
  · refine ⟨m + 1, by omega, ?_⟩
    rw [state_eq hact (Sys.step_reply hm)]
    simp [Sys.setRequest, Indexed.getElem?_set_of_some hm]
  · have hnext := e.next_some hact
    simp [Sys.step, hm] at hnext

theorem due_spawned {call} {p : Unit → Prog AdminReq AdminResp (Except AdminError AdminResponse)}
    (hi : (e.state n).requests[i]? =
      some ⟨call, .running (.await (.spawn scope) p), .committed t v, spawned⟩) :
    ∃ m k : ℕ, n < m ∧ (e.state m).cache.invalidations[k]? = some ⟨scope, .spawned⟩ := by
  obtain ⟨m, hle, hm, a, hact, ha⟩ := hfair.progress (g := .request i)
    (P := fun s => s.requests[i]? =
      some ⟨call, .running (.await (.spawn scope) p), .committed t v, spawned⟩) hi
    (fun m hm => ⟨_, _, rfl, Sys.step_spawn hm⟩)
    (fun l a hact ha hl => by
      rcases (moves_at hact).touches hl with h | ⟨r', htouches, -⟩
      · exact h
      · cases htouches with
        | move hmove =>
          cases hmove with
          | drop hnot => exact absurd rfl (hnot _ _)
        | spawn => exact absurd rfl ha)
  rcases agent_eq_request ha with rfl | rfl
  · have hnext := e.next_some hact
    simp [Sys.step, hm] at hnext
  · refine ⟨m + 1, (e.state m).cache.invalidations.length, by omega, ?_⟩
    rw [state_eq hact (Sys.step_spawn hm)]
    simp [PermissionsCache.spawn]

end

/-- **Invalidations survive a disconnect** if no COMMIT is lost: when a transaction is
    committed and changes what is loaded for a subject, an invalidation that covers the
    subject is executed after it. -/
theorem invalidation_executed (hfair : e.Fair agent)
    (hkeeps : ∀ n a, e.act n = some a → KeepsCommit (e.state n) a)
    (hcommit : e.act n = some (.settle i true)) {sub : String}
    (hchanges : load (e.state n).store sub ≠ load (e.state (n + 1)).store sub) :
    ∃ m₁ m₂ k scope, n < m₁ ∧ m₁ < m₂ ∧ e.act m₁ = some (.cache (.bump k)) ∧
      e.act m₂ = some (.cache (.remove k)) ∧
      (e.state m₂).cache.invalidations[k]? = some ⟨scope, .bumped⟩ ∧ scope.covers sub = true := by
  have hawaited : (e.state n).Ok ∧ Awaited (e.state n) := by
    refine Execution.invariant (P := fun s => s.Ok ∧ Awaited s) (C := KeepsCommit) ?_ hkeeps
      ⟨Sys.ok_init, by simp [Awaited, Sys.init]⟩ n
    intro s a s' hs hc hstep
    have hmoves := Sys.step_moves hstep
    exact ⟨hs.1.step hmoves, hs.2.step hs.1 hc hmoves⟩
  have hmoves := moves_at hcommit
  generalize hs' : e.state (n + 1) = s' at hmoves hchanges
  cases hmoves with
  | request hi hmove => cases hmove
  | @commit _ call task t spawned hi =>
    obtain ⟨p, htask⟩ := hawaited.2 _ (List.mem_of_getElem? hi) t rfl
    dsimp only at htask
    subst htask
    -- the mutation owes an invalidation that covers the subject
    obtain ⟨scope, hscope, hcovers⟩ :=
      ((hawaited.1.commits hi).unaffected sub).resolve_left fun hsame => hchanges hsame.load_eq.symm
    have hcommitted : (e.state (n + 1)).requests[i]? =
        some ⟨call, .running (.await .commit p), .committed t (e.state n).history.length,
          spawned⟩ := by
      rw [hs']
      simp [Sys.commit, Sys.setRequest, Indexed.getElem?_set_of_some hi]
    have hfollows := (ok_at (n + 1)).follows _ (List.mem_of_getElem? hcommitted)
    obtain ⟨k', hk'⟩ := hfollows.due hscope
    -- the reply, the spawn, the task
    obtain ⟨m, hle, hreplied⟩ := replied hfair hkeeps hcommitted
    rw [hk'] at hreplied
    obtain ⟨m', k, hlt, hspawned⟩ := due_spawned hfair hreplied
    obtain ⟨m₁, m₂, hle₁, hlt₂, hbump, hremove, hbumped⟩ := spawned_executed hfair hspawned
    exact ⟨m₁, m₂, k, scope, by omega, hlt₂, hbump, hremove, hbumped, hcovers⟩

end

theorem invalidation_executed_alice : ∃ (e : Execution Sys.step Sys.init) (m₁ m₂ k : ℕ)
    (scope : Scope), e.Fair agent ∧ e.act 16 = some (.settle 1 true) ∧
    load (e.state 16).store "alice" ≠ load (e.state 17).store "alice" ∧
    16 < m₁ ∧ m₁ < m₂ ∧ e.act m₁ = some (.cache (.bump k)) ∧
    e.act m₂ = some (.cache (.remove k)) ∧ scope.covers "alice" = true := by
  have hcheck : (run Sys.step .init aliceCached).any Sys.idle = true := by decide +kernel
  obtain ⟨s, hrun, hidle⟩ := Option.any_eq_true _ _ |>.mp hcheck
  have hfair := Execution.ofRun_fair hrun (Sys.idle_not_enabled hidle)
  have hkept : ∀ a ∈ aliceCached, a.loses = false := by decide
  have hchanges : load ((Execution.ofRun hrun).state 16).store "alice" ≠
      load ((Execution.ofRun hrun).state 17).store "alice" := by
    rw [Execution.ofRun_state, Execution.ofRun_state]
    decide +kernel
  obtain ⟨m₁, m₂, k, scope, hlt₁, hlt₂, hbump, hremove, -, hcovers⟩ :=
    invalidation_executed hfair
      (fun _ _ hact => keepsCommit_of_not_loses (hkept _ (List.mem_of_getElem? hact)))
      (n := 16) (i := 1) rfl hchanges
  exact ⟨_, m₁, m₂, k, scope, hfair, rfl, hchanges, hlt₁, hlt₂, hbump, hremove, hcovers⟩

/-- The grant is revoked, and the handler is dropped before it gets the reply. -/
def revocationDropped : List Action :=
  aliceCached ++ upToCommit 2 revokeAlice 2 [15, 16, 17, 18, 19] ++
    [.sendCommit 2, .settle 2 true, .drop 2]

/-- The grant is revoked, no invalidation follows, and the cache keeps the grant. -/
theorem invalidation_lost : ∃ (e : Execution Sys.step Sys.init) (n : ℕ), e.Fair agent ∧
    e.act n = some (.settle 2 true) ∧ e.act (n + 1) = some (.drop 2) ∧
    load (e.state n).store "alice" ≠ load (e.state (n + 1)).store "alice" ∧
    ∀ m, n < m → (∀ k, e.act m ≠ some (.cache (.bump k)) ∧ e.act m ≠ some (.cache (.remove k))) ∧
      (e.state m).cache.entries "alice" = some [shopGrant] := by
  have hcheck : (run Sys.step .init revocationDropped).any (fun s =>
      s.idle && decide (s.cache.entries "alice" = some [shopGrant])) = true := by
    decide +kernel
  obtain ⟨s, hrun, hs⟩ := Option.any_eq_true _ _ |>.mp hcheck
  rw [Bool.and_eq_true, decide_eq_true_eq] at hs
  have hlength : revocationDropped.length = 41 := by decide
  refine ⟨Execution.ofRun hrun, 39, Execution.ofRun_fair hrun (Sys.idle_not_enabled hs.1), rfl, rfl,
    ?_, ?_⟩
  · rw [Execution.ofRun_state, Execution.ofRun_state]
    decide +kernel
  · intro m hm
    rcases Nat.lt_or_ge m 41 with hlt | hge
    · -- the drop
      obtain rfl : m = 40 := by omega
      refine ⟨fun k => ⟨by rintro ⟨⟩, by rintro ⟨⟩⟩, ?_⟩
      rw [Execution.ofRun_state]
      decide +kernel
    · have hnone : (Execution.ofRun hrun).act m = none :=
        List.getElem?_eq_none (by rw [hlength]; exact hge)
      rw [hnone, Execution.ofRun_state_of_le hrun (by rw [hlength]; exact hge)]
      exact ⟨fun k => ⟨by rintro ⟨⟩, by rintro ⟨⟩⟩, hs.2⟩

end DbMcpGateway.Admin
