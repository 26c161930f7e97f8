import DbMcpGateway.Admin.Handlers
import DbMcpGateway.Async.Machine
import DbMcpGateway.Authz.Coherence

/-!
# The gateway under concurrent requests

Admin requests, the state DB, and the permissions cache together. A step is one action
of one of them: a reply to a handler, the execution of a statement, the server side of a
COMMIT, a spawned invalidation, a step of a `get_for` call. Handlers run at READ
COMMITTED: a statement sees what is committed at that moment and the writes of its own
transaction, and a statement that writes waits until no other open transaction has a
lock it needs.

A handler's future may be dropped wherever it awaits. COMMIT is a round trip: it is sent,
the server commits or rolls back, the reply arrives or is lost; the handler may be
dropped in between. Ids of new rows are not in use. Statements that fail do not wait for
locks, and any reply may be an error instead.

Results:

* `Sys.step_moves`: what one step can do.
-/

namespace DbMcpGateway.Admin

open Async Async.Prog Audit Authz State

/-! ## States -/

/-- A transaction: its statements with their replies, and what they have written. -/
structure Tx where
  startedAt : Timestamp
  log : List Exchange
  writes : List Write

/-- The transaction of a request. -/
inductive TxState
  | none
  | open (t : Tx)
  | committing (t : Tx)
  /-- The server has committed; `version` counts the commits before. -/
  | committed (t : Tx) (version : ℕ)
  | rolledBack

/-- A transaction that holds its locks. -/
def TxState.active : TxState → Option Tx
  | .open t => some t
  | .committing t => some t
  | _ => Option.none

def TxState.sent : TxState → Bool
  | .committing _ => true
  | .committed _ _ => true
  | .rolledBack => true
  | _ => false

/-- What a handler is doing. -/
abbrev HandlerTask := Task AdminReq AdminResp (Except AdminError AdminResponse)

structure Request where
  call : AdminCall
  task : HandlerTask
  tx : TxState
  /-- The handler has spawned its invalidation. -/
  spawned : Bool

/-- The state of the gateway and of the state DB. -/
structure Sys where
  /-- What is committed. -/
  store : Store
  /-- What was committed before, from the first store on. -/
  history : List Store
  requests : List Request
  cache : PermissionsCache

/-- A fresh install. -/
def Sys.init : Sys := ⟨.empty, [], [], .empty⟩

/-- The committed stores in the order of their commits, the current one last. -/
def Sys.versions (s : Sys) : List Store := s.history ++ [s.store]

/-! ## Steps -/

/-- An action; requests are named by their position. -/
inductive Action
  | arrive (call : AdminCall)
  /-- The reply to BEGIN. -/
  | begin (i : ℕ) (now : Timestamp) (failure : Option SqlxError)
  /-- A statement is executed, or fails. -/
  | exec (i : ℕ) (fresh : Uuid) (failure : Option SqlxError)
  | sendCommit (i : ℕ)
  /-- The server commits or rolls back. -/
  | settle (i : ℕ) (ok : Bool)
  /-- The reply to COMMIT arrives, or the connection fails. -/
  | reply (i : ℕ) (failure : Option SqlxError)
  | spawn (i : ℕ)
  /-- The future of the handler is dropped. -/
  | drop (i : ℕ)
  /-- The transaction of a handler that is over is rolled back. -/
  | rollback (i : ℕ)
  | cache (a : CacheAction)
  deriving DecidableEq

/-- The task after a reply. -/
def resume : Prog AdminReq AdminResp (Except AdminError AdminResponse) → HandlerTask
  | .ret result => .returned result
  | p => .running p

/-- The locks of two writes are different. -/
def apart (w w' : Write) : Bool := w.locks.all fun k => !w'.locks.contains k

namespace Sys

/-- No other active transaction has a lock that the writes need. -/
def unlocked (s : Sys) (i : ℕ) (ws : List Write) : Bool :=
  (s.requests.eraseIdx i).all fun r =>
    match r.tx.active with
    | none => true
    | some t => ws.all fun w => t.writes.all fun w' => apart w w'

def setRequest (s : Sys) (i : ℕ) (r : Request) : Sys := { s with requests := s.requests.set i r }

/-- Commits a transaction. -/
def commit (s : Sys) (t : Tx) : Sys :=
  { s with store := writes.applyAll s.store t.writes, history := s.history ++ [s.store] }

/-- A step of the gateway or of the state DB. -/
def step (s : Sys) : Action → Option Sys
  | .arrive call =>
    some { s with requests := s.requests ++ [⟨call, resume (handle call).run, .none, false⟩] }
  | .begin i now failure =>
    match s.requests[i]? with
    | some ⟨call, .running (.await .begin k), .none, spawned⟩ =>
      match failure with
      | none => some (s.setRequest i ⟨call, resume (k (.ok ())), .open ⟨now, [], []⟩, spawned⟩)
      | some e => some (s.setRequest i ⟨call, resume (k (.error e)), .none, spawned⟩)
    | _ => none
  | .exec i fresh failure =>
    match s.requests[i]? with
    | some ⟨call, .running (.await (.stmt st) k), .open t, spawned⟩ =>
      let view := writes.applyAll s.store t.writes
      match failure, st.run t.startedAt fresh view with
      | some e, _ => some (s.setRequest i ⟨call, resume (k (.error e)), .open t, spawned⟩)
      | none, .error e => some (s.setRequest i ⟨call, resume (k (.error e)), .open t, spawned⟩)
      | none, .ok (x, ws) =>
        if s.unlocked i ws && view.unused fresh then
          some (s.setRequest i ⟨call, resume (k (.ok x)),
            .open ⟨t.startedAt, t.log ++ [⟨st, x⟩], t.writes ++ ws⟩, spawned⟩)
        else none
    | _ => none
  | .sendCommit i =>
    match s.requests[i]? with
    | some ⟨call, .running (.await .commit k), .open t, spawned⟩ =>
      some (s.setRequest i ⟨call, .running (.await .commit k), .committing t, spawned⟩)
    | _ => none
  | .settle i ok =>
    match s.requests[i]? with
    | some ⟨call, task, .committing t, spawned⟩ =>
      if ok then
        some ((s.setRequest i ⟨call, task, .committed t s.history.length, spawned⟩).commit t)
      else some (s.setRequest i ⟨call, task, .rolledBack, spawned⟩)
    | _ => none
  | .reply i failure =>
    match s.requests[i]? with
    | some ⟨call, .running (.await .commit k), tx, spawned⟩ =>
      match failure, tx with
      | none, .committed t v =>
        some (s.setRequest i ⟨call, resume (k (.ok ())), .committed t v, spawned⟩)
      | none, _ => none
      | some e, tx =>
        if tx.sent then some (s.setRequest i ⟨call, resume (k (.error e)), tx, spawned⟩) else none
    | _ => none
  | .spawn i =>
    match s.requests[i]? with
    | some ⟨call, .running (.await (.spawn scope) k), tx, _⟩ =>
      some { s.setRequest i ⟨call, resume (k ()), tx, true⟩ with cache := s.cache.spawn scope }
    | _ => none
  | .drop i =>
    match s.requests[i]? with
    -- the handler does not wait for a spawn
    | some ⟨_, .running (.await (.spawn _) _), _, _⟩ => none
    | some ⟨call, .running _, tx, spawned⟩ => some (s.setRequest i ⟨call, .dropped, tx, spawned⟩)
    | _ => none
  | .rollback i =>
    match s.requests[i]? with
    | some ⟨_, .running _, _, _⟩ => none
    | some ⟨call, task, .open _, spawned⟩ =>
      some (s.setRequest i ⟨call, task, .rolledBack, spawned⟩)
    | _ => none
  | .cache a => (s.cache.step s.store a).map fun c => { s with cache := c }

end Sys

/-! ## Schedules -/

/-- Request `i` arrives and runs up to its COMMIT, one id for each statement. -/
def upToCommit (i : ℕ) (call : AdminCall) (now : Timestamp) (ids : List Uuid) : List Action :=
  .arrive call :: .begin i now none :: ids.map fun id => .exec i id none

/-- Request `i` arrives and is served without a failure, up to the reply to COMMIT. -/
def serve (i : ℕ) (call : AdminCall) (now : Timestamp) (ids : List Uuid) : List Action :=
  upToCommit i call now ids ++ [.sendCommit i, .settle i true, .reply i none]

/-- Request `i` spawns its invalidation, the `k`-th one, which runs at once. -/
def invalidate (i k : ℕ) : List Action := [.spawn i, .cache (.bump k), .cache (.remove k)]

/-- Call `j` of `get_for` misses, loads with so many queries, and inserts. -/
def fill (j reads : ℕ) : List Action :=
  let cacheActions : List CacheAction :=
    .lookup j true :: .readRevision j :: List.replicate reads (.read j none) ++
      [.compareRevision j, .lock j, .recheck j, .insert j]
  cacheActions.map .cache

/-! ## What a step does -/

/-- A move of request `i` that touches nothing else. -/
inductive RequestMove (i : ℕ) :
    Action → HandlerTask → TxState → HandlerTask → TxState → Prop
  | begin {now k} : RequestMove i (.begin i now none) (.running (.await .begin k)) .none
        (resume (k (.ok ()))) (.open ⟨now, [], []⟩)
  | beginError {now e k} : RequestMove i (.begin i now (some e)) (.running (.await .begin k)) .none
        (resume (k (.error e))) .none
  | execError {fresh failure e st k t} :
      RequestMove i (.exec i fresh failure) (.running (.await (.stmt st) k)) (.open t)
        (resume (k (.error e))) (.open t)
  | sendCommit {k t} : RequestMove i (.sendCommit i) (.running (.await .commit k)) (.open t)
        (.running (.await .commit k)) (.committing t)
  | abort {task t} : RequestMove i (.settle i false) task (.committing t) task .rolledBack
  | reply {k t v} : RequestMove i (.reply i none) (.running (.await .commit k)) (.committed t v)
        (resume (k (.ok ()))) (.committed t v)
  | replyError {e k} {tx : TxState} : tx.sent = true →
      RequestMove i (.reply i (some e)) (.running (.await .commit k)) tx
        (resume (k (.error e))) tx
  | drop {p tx} : (∀ scope k, p ≠ .await (.spawn scope) k) →
      RequestMove i (.drop i) (.running p) tx .dropped tx
  | rollback {task t} : (∀ p, task ≠ .running p) →
      RequestMove i (.rollback i) task (.open t) task .rolledBack

namespace Sys

/-- What one step can do, with its guards. -/
inductive Moves (s : Sys) : Action → Sys → Prop
  | arrive {call} : Moves s (.arrive call)
        { s with requests := s.requests ++ [⟨call, resume (handle call).run, .none, false⟩] }
  | request {a i call task task' tx tx' spawned} : s.requests[i]? = some ⟨call, task, tx, spawned⟩ →
      RequestMove i a task tx task' tx' →
      Moves s a (s.setRequest i ⟨call, task', tx', spawned⟩)
  | exec {i fresh call st k} {t : Tx} {spawned x ws} :
      s.requests[i]? = some ⟨call, .running (.await (.stmt st) k), .open t, spawned⟩ →
      st.Does t.startedAt fresh (writes.applyAll s.store t.writes) x ws →
      s.unlocked i ws = true → (writes.applyAll s.store t.writes).Unused fresh →
      Moves s (.exec i fresh none)
        (s.setRequest i ⟨call, resume (k (.ok x)),
          .open ⟨t.startedAt, t.log ++ [⟨st, x⟩], t.writes ++ ws⟩, spawned⟩)
  | commit {i call task t spawned} : s.requests[i]? = some ⟨call, task, .committing t, spawned⟩ →
      Moves s (.settle i true)
        ((s.setRequest i ⟨call, task, .committed t s.history.length, spawned⟩).commit t)
  | spawn {i call scope k tx spawned} :
      s.requests[i]? = some ⟨call, .running (.await (.spawn scope) k), tx, spawned⟩ →
      Moves s (.spawn i)
        { s.setRequest i ⟨call, resume (k ()), tx, true⟩ with cache := s.cache.spawn scope }
  | cache {a c} : s.cache.Moves s.store a c →
      Moves s (.cache a) { s with cache := c }

theorem step_moves {s s' : Sys} {a : Action} (h : s.step a = some s') : s.Moves a s' := by
  cases a with
  | arrive call =>
    cases h
    exact .arrive
  | begin i now failure =>
    simp only [step] at h
    split at h
    · cases failure <;> cases h
      · exact .request ‹_› .begin
      · exact .request ‹_› .beginError
    · cases h
  | exec i fresh failure =>
    simp only [step] at h
    split at h
    · split at h
      · cases h
        exact .request ‹_› .execError
      · cases h
        exact .request ‹_› .execError
      · rename_i hrun
        split_ifs at h with hguard
        cases h
        rw [Bool.and_eq_true] at hguard
        exact .exec ‹_› (Stmt.run_does hrun) hguard.1 (Store.unused_spec hguard.2)
    · cases h
  | sendCommit i =>
    simp only [step] at h
    split at h
    · cases h
      exact .request ‹_› .sendCommit
    · cases h
  | settle i ok =>
    simp only [step] at h
    split at h
    · split_ifs at h with hok
      · cases h
        subst hok
        exact .commit ‹_›
      · cases h
        rw [Bool.not_eq_true] at hok
        subst hok
        exact .request ‹_› .abort
    · cases h
  | reply i failure =>
    simp only [step] at h
    split at h
    · split at h
      · cases h
        exact .request ‹_› .reply
      · cases h
      · split_ifs at h with hsent
        cases h
        exact .request ‹_› (.replyError hsent)
    · cases h
  | spawn i =>
    simp only [step] at h
    split at h
    · cases h
      exact .spawn ‹_›
    · cases h
  | drop i =>
    simp only [step] at h
    split at h
    · cases h
    · rename_i hnot hr
      cases h
      exact .request hr (.drop hnot)
    · cases h
  | rollback i =>
    simp only [step] at h
    split at h
    · cases h
    · rename_i hnot hr
      cases h
      exact .request hr (.rollback hnot)
    · cases h
  | cache a =>
    simp only [step, Option.map_eq_some_iff] at h
    obtain ⟨c, hc, rfl⟩ := h
    exact .cache (PermissionsCache.step_moves hc)

end Sys

end DbMcpGateway.Admin
