import DbMcpGateway.Async.Machine
import DbMcpGateway.Data.Indexed
import DbMcpGateway.Data.Table
import DbMcpGateway.Exec.Pg

/-!
# Cancelling the backend of a request

Any number of calls of `run_query_inner` on one adapter, as a machine: each runs its program of
`Exec.Pg` on a connection of the query pool; `CancelOnDrop` (exec/pg/cancel.rs) and
`cancel_and_rollback` (exec/pg/truncate.rs) ask for `pg_cancel_backend` on the cancel pool,
which runs some time later or never.

A call is dropped at an await, by a disconnect or by the deadline of `execute`. Its connection
goes back to the pool once the pending statement has ended and been rolled back, which does not
wait for the detached cancel.

Results:

* `no_stray_cancel`: a cancel hits statements of its own request only, if no connection is
  handed out while a cancel of its backend is outstanding.
* `stray_cancel`: without that, a request fails because another one was dropped.
-/

namespace DbMcpGateway.Exec.Pg

open Async Async.Prog Machine

/-! ## The model -/

/-- A connection of the query pool, named by the PID of its backend. -/
structure Backend where
  pid : ℤ
  /-- The request whose transaction has it. -/
  owner : Option ℕ
  /-- A statement of the owner runs. -/
  executing : Bool
  /-- The request on whose behalf that statement was cancelled. -/
  cancelledBy : Option ℕ
  deriving DecidableEq

/-- A call of `run_query_inner`. -/
structure PgCall where
  /-- What is left of it. -/
  prog : PgProg (Except ExecError ExecResult)
  /-- The connection of its transaction. -/
  tx : Option ℤ
  /-- The PID in its `CancelOnDrop` (exec/pg/cancel.rs:23). -/
  armed : Option ℤ
  dropped : Bool

/-- A `pg_cancel_backend` on behalf of a request that has not run yet. -/
structure Cancel where
  request : ℕ
  pid : ℤ
  deriving DecidableEq

/-- The adapter, with the calls that use it. -/
structure Pools where
  backends : Table Backend.pid
  calls : List PgCall
  cancels : List Cancel

/-- An adapter without connections. -/
def Pools.new : Pools := ⟨.empty, [], []⟩

/-- `DEFAULT_POOL_MAX_CONNECTIONS` (exec/pg/mod.rs:57). -/
def defaultPoolMaxConnections : ℕ := 5

/-- A step of the adapter. -/
inductive PoolAct
  | call (query : ExecQuery)
  /-- The pool hands out a connection, or opens one. -/
  | acquire (i : ℕ) (pid : ℤ)
  /-- The request that a call awaits is answered. -/
  | reply (i : ℕ) (answer : (r : PgReq) → PgResp r)
  /-- The future of a call is dropped. -/
  | drop (i : ℕ)
  /-- The connection of a transaction that is over goes back to the pool. -/
  | settle (pid : ℤ)
  /-- The pool closes an idle connection. -/
  | close (pid : ℤ)
  | runCancel (cancel : Cancel)
  | loseCancel (cancel : Cancel)

/-- A request that is not awaited: the guard, the clock, and the construction of the stream. -/
def PgReq.isLocal : PgReq → Bool
  | .armCancel _ | .fetch _ _ | .elapsed | .disarmCancel => true
  | _ => false

/-- A request that the backend of the transaction executes. -/
def PgReq.isStatement : PgReq → Bool
  | .backendPid | .setStatementTimeout _ | .nextRow | .describe _ | .rollback | .commit => true
  | _ => false

/-- The guard after a request. -/
def armedAfter (armed : Option ℤ) : PgReq → Option ℤ
  | .armCancel pid => some pid
  | .disarmCancel => none
  | _ => armed

/-- The transaction is over: what is left of the call does not use its connection. -/
def isOver : PgProg (Except ExecError ExecResult) → Bool
  | .ret _ => true
  | .await .elapsed _ => true
  | .await .disarmCancel _ => true
  | _ => false

/-- The backend begins a statement. The rest of an earlier one is read and ignored first; the
    rows of one statement are read one by one. -/
def Backend.start (b : Backend) : PgReq → Backend
  | .nextRow => { b with executing := true }
  | _ => { b with executing := true, cancelledBy := none }

/-- How a statement ended, if the answer says so: a row does not. -/
def PgReq.outcome : (r : PgReq) → PgResp r → Option (Except SqlxError Unit)
  | .begin, answer => some answer
  | .backendPid, answer => some (answer.map fun _ => ())
  | .setStatementTimeout _, answer => some answer
  | .nextRow, none => some (.ok ())
  | .nextRow, some (.error e) => some (.error e)
  | .nextRow, some (.ok _) => none
  | .describe _, answer => some (answer.map fun _ => ())
  | .rollback, answer => some answer
  | .commit, answer => some answer
  | .armCancel _, _ => none
  | .fetch _ _, _ => none
  | .cancelBackend _, _ => none
  | .elapsed, _ => none
  | .disarmCancel, _ => none

def Backend.answered (b : Backend) (r : PgReq) (answer : PgResp r) : Backend :=
  match r.outcome answer with
  | none => b
  | some _ => { b with executing := false, cancelledBy := none }

def queryCanceled : SqlxError := .database (some "57014")

/-- The pool could not hand out a connection. -/
def noConnection : (r : PgReq) → PgResp r → Bool
  | .begin, .error _ => true
  | _, _ => false

section

variable (s : Pools)

/-- The reply tells the PID of the backend; a cancel that was answered without an error has
    run. -/
def Pools.truthful (i : ℕ) (b : Backend) : (r : PgReq) → PgResp r → Bool
  | .backendPid, .ok pid => pid = b.pid
  | .cancelBackend pid, .ok () => !s.cancels.contains ⟨i, pid⟩
  | _, _ => true

/-- The answers that the target gives: a cancelled statement fails. -/
def Pools.answers (i : ℕ) (b : Backend) (r : PgReq) (answer : PgResp r) : Bool :=
  s.truthful i b r answer &&
    match r.outcome answer with
    | none => true
    | some (.ok ()) => b.cancelledBy.isNone
    | some (.error e) => b.cancelledBy.isNone || e = queryCanceled

/-- A change of the connection of a PID. -/
def Pools.onBackend (pid : ℤ) (f : Backend → Backend) : Pools :=
  match s.backends.get pid with
  | some b => { s with backends := s.backends.put { f b with pid } }
  | none => s

/-- A call goes on, up to what it awaits next, and asks for it. -/
def Pools.goOn (i : ℕ) (call : PgCall) : Pools :=
  let s := { s with calls := s.calls.set i call }
  match call.prog with
  | .ret _ => s
  | .await r _ =>
    match r, call.tx with
    | .cancelBackend pid, _ => { s with cancels := s.cancels ++ [⟨i, pid⟩] }
    | r, some pid => if r.isStatement then s.onBackend pid (Backend.start · r) else s
    | _, none => s

/-- A connection is free, or can be opened. -/
def Pools.canAcquire (pid : ℤ) : Bool :=
  match s.backends.get pid with
  | some b => b.owner.isNone
  | none => s.backends.rows.length < defaultPoolMaxConnections

/-- The awaited request of a call is answered. -/
def Pools.reply (i : ℕ) (call : PgCall) (answer : (r : PgReq) → PgResp r) : Option Pools :=
  match call.prog with
  | .ret _ => none
  | .await r k =>
    if r.isLocal then
      some (s.goOn i { call with prog := k (answer r), armed := armedAfter call.armed r })
    else
      match call.tx with
      | none =>
        if noConnection r (answer r) then some (s.goOn i { call with prog := k (answer r) })
        else none
      | some pid =>
        match s.backends.get pid with
        | none => none
        | some b =>
          if s.answers i b r (answer r) then
            some ((s.onBackend pid (Backend.answered · r (answer r))).goOn i
              { call with prog := k (answer r) })
          else none

def PgCall.awaits (call : PgCall) : Bool :=
  match call.prog with
  | .ret _ => false
  | .await r _ => !r.isLocal

/-- A step of the adapter. -/
def Pools.step : PoolAct → Option Pools
  | .call query =>
    some { s with calls := s.calls ++ [⟨runQueryInner query, none, none, false⟩] }
  | .acquire i pid =>
    match s.calls[i]? with
    | some ⟨.await .begin k, none, armed, false⟩ =>
      if s.canAcquire pid then
        some { s with
          backends := s.backends.put ⟨pid, some i, true, none⟩
          calls := s.calls.set i ⟨.await .begin k, some pid, armed, false⟩ }
      else none
    | _ => none
  | .reply i answer =>
    match s.calls[i]? with
    | some call => if call.dropped then none else s.reply i call answer
    | none => none
  | .drop i =>
    match s.calls[i]? with
    | some call =>
      if call.awaits && !call.dropped then
        some { s with
          calls := s.calls.set i { call with armed := none, dropped := true }
          cancels := s.cancels ++ (call.armed.map (Cancel.mk i)).toList }
      else none
    | none => none
  | .settle pid =>
    match s.backends.get pid with
    | some ⟨_, some i, _, _⟩ =>
      match s.calls[i]? with
      | some call =>
        if call.dropped || isOver call.prog then
          some { s with backends := s.backends.put ⟨pid, none, false, none⟩ }
        else none
      | none => none
    | _ => none
  | .close pid =>
    match s.backends.get pid with
    | some ⟨_, none, _, _⟩ => some { s with backends := s.backends.remove pid }
    | _ => none
  | .runCancel cancel =>
    if s.cancels.contains cancel then
      some ({ s with cancels := s.cancels.erase cancel }.onBackend cancel.pid fun b =>
        if b.executing then { b with cancelledBy := some cancel.request } else b)
    else none
  | .loseCancel cancel =>
    if s.cancels.contains cancel then some { s with cancels := s.cancels.erase cancel } else none

end

/-! ## What a step can do -/

/-- The steps, with what they find. -/
inductive PoolMoves (s : Pools) : PoolAct → Pools → Prop
  | call {query} : PoolMoves s (.call query)
        { s with calls := s.calls ++ [⟨runQueryInner query, none, none, false⟩] }
  | acquire {i pid} {call : PgCall} {k} :
      s.calls[i]? = some call → call.prog = .await .begin k → call.tx = none →
      call.dropped = false → s.canAcquire pid = true →
      PoolMoves s (.acquire i pid)
        { s with
          backends := s.backends.put ⟨pid, some i, true, none⟩
          calls := s.calls.set i { call with tx := some pid } }
  | here {i} {call : PgCall} {r : PgReq} {k answer} :
      s.calls[i]? = some call → call.dropped = false → call.prog = .await r k →
      r.isLocal = true →
      PoolMoves s (.reply i answer)
        (s.goOn i { call with prog := k (answer r), armed := armedAfter call.armed r })
  | refused {i} {call : PgCall} {r k answer} :
      s.calls[i]? = some call → call.dropped = false → call.prog = .await r k →
      call.tx = none → noConnection r (answer r) = true →
      PoolMoves s (.reply i answer) (s.goOn i { call with prog := k (answer r) })
  | answered {i} {call : PgCall} {r : PgReq} {pid b k answer} :
      s.calls[i]? = some call → call.dropped = false → call.prog = .await r k →
      r.isLocal = false → call.tx = some pid → s.backends.get pid = some b →
      s.answers i b r (answer r) = true →
      PoolMoves s (.reply i answer)
        ((s.onBackend pid (Backend.answered · r (answer r))).goOn i
          { call with prog := k (answer r) })
  | drop {i} {call : PgCall} : s.calls[i]? = some call → call.awaits = true → call.dropped = false →
      PoolMoves s (.drop i)
        { s with
          calls := s.calls.set i { call with armed := none, dropped := true }
          cancels := s.cancels ++ (call.armed.map (Cancel.mk i)).toList }
  | settle {i} {call : PgCall} {pid} {b : Backend} :
      s.backends.get pid = some b → b.owner = some i → s.calls[i]? = some call →
      call.dropped = true ∨ isOver call.prog = true →
      PoolMoves s (.settle pid) { s with backends := s.backends.put ⟨pid, none, false, none⟩ }
  | close {pid} {b : Backend} : s.backends.get pid = some b → b.owner = none →
      PoolMoves s (.close pid) { s with backends := s.backends.remove pid }
  | runCancel {cancel : Cancel} : cancel ∈ s.cancels →
      PoolMoves s (.runCancel cancel)
        ({ s with cancels := s.cancels.erase cancel }.onBackend cancel.pid fun b =>
          if b.executing then { b with cancelledBy := some cancel.request } else b)
  | loseCancel {cancel} : cancel ∈ s.cancels →
      PoolMoves s (.loseCancel cancel) { s with cancels := s.cancels.erase cancel }

section

variable {s s' : Pools} {a : PoolAct}

theorem moves_reply {i : ℕ} {call : PgCall} {answer : (r : PgReq) → PgResp r}
    (hi : s.calls[i]? = some call) (hdropped : call.dropped = false)
    (h : s.reply i call answer = some s') : PoolMoves s (.reply i answer) s' := by
  rw [Pools.reply] at h
  split at h
  · cases h
  · rename_i r k hprog
    by_cases hlocal : r.isLocal = true
    · rw [if_pos hlocal] at h
      cases h
      exact .here hi hdropped hprog hlocal
    · rw [if_neg hlocal] at h
      split at h
      · split_ifs at h with hrefused
        cases h
        exact .refused hi hdropped hprog ‹_› hrefused
      · split at h
        · cases h
        · split_ifs at h with hanswers
          cases h
          exact .answered hi hdropped hprog (by simpa using hlocal) ‹_› ‹_› hanswers

theorem pool_moves (h : s.step a = some s') : PoolMoves s a s' := by
  cases a with
  | call query =>
    cases h
    exact .call
  | acquire i pid =>
    rw [Pools.step] at h
    split at h
    · rename_i k armed hi
      split_ifs at h with hfree
      cases h
      exact .acquire hi rfl rfl rfl hfree
    · cases h
  | reply i answer =>
    rw [Pools.step] at h
    split at h
    · rename_i call hi
      split_ifs at h with hdropped
      exact moves_reply hi (by simpa using hdropped) h
    · cases h
  | drop i =>
    rw [Pools.step] at h
    split at h
    · rename_i call hi
      split_ifs at h with hawaits
      cases h
      rw [Bool.and_eq_true, Bool.not_eq_true'] at hawaits
      exact .drop hi hawaits.1 hawaits.2
    · cases h
  | settle pid =>
    rw [Pools.step] at h
    split at h
    · rename_i hb
      split at h
      · rename_i call hi
        split_ifs at h with hover
        cases h
        exact .settle hb rfl hi (by simpa using hover)
      · cases h
    · cases h
  | close pid =>
    rw [Pools.step] at h
    split at h
    · cases h
      exact .close ‹_› rfl
    · cases h
  | runCancel cancel =>
    rw [Pools.step] at h
    split_ifs at h with hmem
    cases h
    exact .runCancel (by simpa using hmem)
  | loseCancel cancel =>
    rw [Pools.step] at h
    split_ifs at h with hmem
    cases h
    exact .loseCancel (by simpa using hmem)

end

/-! ## The program under the guard -/

/-- The program of a call whose guard holds a PID: it cancels that backend only, and after the
    end of its transaction it only disarms the guard and returns. -/
def Guarded (pid : ℤ) : PgProg (Except ExecError ExecResult) → Prop
  | .ret _ => False
  | .await .begin _ => False
  | .await .backendPid _ => False
  | .await (.armCancel _) _ => False
  | .await (.setStatementTimeout _) k => ∀ x, Guarded pid (k x)
  | .await (.fetch _ _) k => ∀ x, Guarded pid (k x)
  | .await .nextRow k => ∀ x, Guarded pid (k x)
  | .await (.describe _) k => ∀ x, Guarded pid (k x)
  | .await (.cancelBackend p) k => p = pid ∧ ∀ x, Guarded pid (k x)
  | .await .rollback k => ∀ x, Guarded pid (k x)
  | .await .commit k => ∀ x, Guarded pid (k x)
  | .await .elapsed k => ∀ x, Guarded pid (k x) ∧ isOver (k x) = true
  | .await .disarmCancel k => ∀ x, ∃ result, k x = .ret result

section

variable {pid : ℤ}

/-- The end of `run_query_inner`. -/
def disarmed (result : Except ExecError ExecResult) : PgProg (Except ExecError ExecResult) := do
  driver .disarmCancel
  return result

theorem guarded_disarmed (result : Except ExecError ExecResult) :
    Guarded pid (disarmed result) := fun _ => ⟨result, rfl⟩

theorem guarded_fetchRows {room : ℕ} {columns rows}
    {f : Except ExecError (List String × List (List Json) × Bool) →
      PgProg (Except ExecError ExecResult)} (hf : ∀ x, Guarded pid (f x)) :
    Guarded pid (fetchRows room columns rows >>= f) := by
  induction room generalizing columns rows with
  | zero =>
    rw [fetchRows]
    rintro (_ | _ | _) <;> exact hf _
  | succ room ih =>
    rw [fetchRows]
    rintro (_ | _ | _)
    · exact hf _
    · exact hf _
    · exact ih

theorem guarded_describeColumns {sql : String} {columns}
    {f : List String → PgProg (Except ExecError ExecResult)} (hf : ∀ x, Guarded pid (f x)) :
    Guarded pid (describeColumns sql columns >>= f) := by
  unfold describeColumns
  split_ifs
  · rintro (_ | _) <;> exact hf _
  · exact hf _

theorem guarded_endTransaction {truncated : Bool}
    {f : Except ExecError Unit → PgProg (Except ExecError ExecResult)}
    (hf : ∀ x, Guarded pid (f x)) : Guarded pid (endTransaction pid truncated >>= f) := by
  unfold endTransaction
  split_ifs
  · exact ⟨rfl, fun _ _ => hf _⟩
  · rintro (_ | _) <;> exact hf _

theorem guarded_finish {sql : String} {columns rows}
    {truncated : Bool} : Guarded pid (finish sql pid columns rows truncated >>= disarmed) := by
  unfold finish
  rw [bind_assoc]
  refine guarded_describeColumns fun columns => ?_
  rw [bind_assoc]
  refine guarded_endTransaction fun x => ?_
  rcases x with _ | _
  · exact guarded_disarmed _
  · exact fun _ => ⟨guarded_disarmed _, rfl⟩

theorem guarded_runStatement (query : ExecQuery) :
    Guarded pid (runStatement query pid >>= disarmed) := by
  unfold runStatement
  rintro (_ | _)
  · exact guarded_disarmed _
  · intro _
    change Guarded pid ((fetchRows query.rowLimit [] [] >>= _) >>= disarmed)
    rw [bind_assoc]
    refine guarded_fetchRows fun x => ?_
    rcases x with _ | ⟨columns, rows, truncated⟩
    · exact guarded_disarmed _
    · exact guarded_finish

end

/-! ## The invariant -/

/-- The call once its guard can be armed. -/
def afterPid (query : ExecQuery) (pid : ℤ) : PgProg (Except ExecError ExecResult) :=
  .await (.armCancel pid) fun _ => runStatement query pid >>= disarmed

/-- The call once its transaction has begun. -/
def afterBegin (query : ExecQuery) : PgProg (Except ExecError ExecResult) :=
  .await .backendPid fun
    | .error e => .ret (.error (classify e))
    | .ok pid => afterPid query pid

theorem runQueryInner_eq (query : ExecQuery) :
    runQueryInner query = .await .begin fun
      | .error _ => .ret (.error .unavailable)
      | .ok () => afterBegin query := rfl

/-- The request that has the connection of a PID. -/
def Pools.ownerOf (s : Pools) (pid : ℤ) : Option ℕ := (s.backends.get pid).bind Backend.owner

/-- Where a call is, and the connection it has there. -/
inductive CallOk (s : Pools) (i : ℕ) : PgCall → Prop
  | waits {query} : CallOk s i ⟨runQueryInner query, none, none, false⟩
  | begins {query pid} : s.ownerOf pid = some i →
      CallOk s i ⟨runQueryInner query, some pid, none, false⟩
  | asks {query pid} : s.ownerOf pid = some i →
      CallOk s i ⟨afterBegin query, some pid, none, false⟩
  | arms {query pid} : s.ownerOf pid = some i →
      CallOk s i ⟨afterPid query pid, some pid, none, false⟩
  | guarded {prog pid} : Guarded pid prog →
      (isOver prog = false → s.ownerOf pid = some i) →
      CallOk s i ⟨prog, some pid, some pid, false⟩
  | ended {result tx armed} : CallOk s i ⟨.ret result, tx, armed, false⟩
  | dropped {prog tx} : CallOk s i ⟨prog, tx, none, true⟩

/-- What holds in a run in which no connection is handed out too early. -/
structure PoolInv (s : Pools) : Prop where
  calls : ∀ (i : ℕ) (call : PgCall), s.calls[i]? = some call → CallOk s i call
  /-- The backend that a cancel is for has no other owner. -/
  ours : ∀ cancel ∈ s.cancels, ∀ q, s.ownerOf cancel.pid = some q → q = cancel.request
  /-- A statement was cancelled on behalf of its own request. -/
  mine : ∀ b ∈ s.backends.rows, ∀ r q, b.cancelledBy = some r → b.owner = some q → q = r

section

variable {s s' : Pools} {i : ℕ} {pid : ℤ} {call : PgCall}

theorem CallOk.mono (h : CallOk s i call)
    (howner : ∀ pid, s.ownerOf pid = some i → s'.ownerOf pid = some i) : CallOk s' i call := by
  cases h with
  | waits => exact .waits
  | begins h => exact .begins (howner _ h)
  | asks h => exact .asks (howner _ h)
  | arms h => exact .arms (howner _ h)
  | guarded hprog h => exact .guarded hprog fun hover => howner _ (h hover)
  | ended => exact .ended
  | dropped => exact .dropped

variable {r : PgReq} {k : PgResp r → PgProg (Except ExecError ExecResult)}

theorem isOver_of_guarded (h : Guarded pid (.await r k)) (hlocal : r.isLocal = false) :
    isOver (.await r k) = false := by
  cases r with
  | elapsed | disarmCancel => cases hlocal
  | _ => rfl

theorem Guarded.next (h : Guarded pid (.await r k)) (hne : r ≠ .disarmCancel) (x : PgResp r) :
    Guarded pid (k x) ∧ (isOver (.await r k) = true → isOver (k x) = true) := by
  cases r with
  | begin | backendPid | armCancel => exact h.elim
  | cancelBackend p => exact ⟨h.2 x, nofun⟩
  | elapsed => exact ⟨(h x).1, fun _ => (h x).2⟩
  | disarmCancel => exact absurd rfl hne
  | _ => exact ⟨h x, nofun⟩

theorem callOk_next (h : Guarded pid (.await r k)) (hne : r ≠ .disarmCancel)
    (howner : isOver (.await r k) = false → s.ownerOf pid = some i) (x : PgResp r) :
    CallOk s i ⟨k x, some pid, some pid, false⟩ := by
  obtain ⟨hnext, hover⟩ := h.next hne x
  refine .guarded hnext fun hnot => howner ?_
  cases hprog : isOver (.await r k) with
  | false => rfl
  | true =>
    rw [hover hprog] at hnot
    cases hnot

theorem CallOk.here (h : CallOk s i call) (hdropped : call.dropped = false)
    (hprog : call.prog = .await r k) (hlocal : r.isLocal = true) (x : PgResp r) :
    CallOk s i { call with prog := k x, armed := armedAfter call.armed r } := by
  cases h with
  | waits | begins =>
    rw [runQueryInner_eq] at hprog
    cases hprog
    cases hlocal
  | asks =>
    cases hprog
    cases hlocal
  | arms howner =>
    cases hprog
    exact .guarded (guarded_runStatement _) fun _ => howner
  | @guarded _ pid hguarded howner =>
    cases hprog
    by_cases hr : r = .disarmCancel
    · subst hr
      obtain ⟨result, hresult⟩ := hguarded x
      rw [hresult]
      exact .ended
    · have harmed : armedAfter (some pid) r = some pid := by
        cases r with
        | armCancel => exact hguarded.elim
        | disarmCancel => exact absurd rfl hr
        | _ => rfl
      simp only [harmed]
      exact callOk_next hguarded hr howner x
  | ended => cases hprog
  | dropped => cases hdropped

theorem CallOk.refused {r : PgReq} {k : PgResp r → PgProg (Except ExecError ExecResult)}
    (h : CallOk s i call) (hdropped : call.dropped = false) (hprog : call.prog = .await r k)
    (htx : call.tx = none) {x : PgResp r} (hx : noConnection r x = true) :
    CallOk s i { call with prog := k x } := by
  cases h with
  | waits =>
    rw [runQueryInner_eq] at hprog
    cases hprog
    rcases x with _ | _
    · exact .ended
    · cases hx
  | begins | asks | arms | guarded => cases htx
  | ended => cases hprog
  | dropped => cases hdropped

theorem CallOk.answered {r : PgReq} {k : PgResp r → PgProg (Except ExecError ExecResult)}
    {b : Backend} (h : CallOk s i call) (hdropped : call.dropped = false)
    (hprog : call.prog = .await r k) (hlocal : r.isLocal = false) (htx : call.tx = some pid)
    (hb : s.backends.get pid = some b) {x : PgResp r} (hx : s.truthful i b r x = true) :
    CallOk s i { call with prog := k x } := by
  cases h with
  | waits => cases htx
  | begins howner =>
    rw [runQueryInner_eq] at hprog
    cases hprog
    rcases x with _ | _
    · exact .ended
    · exact .asks howner
  | asks howner =>
    cases hprog
    rcases x with _ | p
    · exact .ended
    · -- The backend told its own PID.
      cases htx
      have hp : p = pid := by
        rw [Pools.truthful, decide_eq_true_eq] at hx
        exact hx.trans (Table.key_of_get hb)
      subst hp
      exact .arms howner
  | arms =>
    cases hprog
    cases hlocal
  | guarded hguarded howner =>
    cases hprog
    refine callOk_next hguarded ?_ howner x
    rintro rfl
    cases hlocal
  | ended => cases hprog
  | dropped => cases hdropped

theorem CallOk.cancels {k : Except SqlxError Unit → PgProg (Except ExecError ExecResult)}
    (h : CallOk s i call) (hdropped : call.dropped = false)
    (hprog : call.prog = .await (.cancelBackend pid) k) : s.ownerOf pid = some i := by
  cases h with
  | waits | begins =>
    rw [runQueryInner_eq] at hprog
    cases hprog
  | asks | arms | ended => cases hprog
  | guarded hguarded howner =>
    cases hprog
    obtain ⟨rfl, -⟩ := hguarded
    exact howner rfl
  | dropped => cases hdropped

theorem CallOk.armed (h : CallOk s i call) (hawaits : call.awaits = true)
    (harmed : call.armed = some pid) : s.ownerOf pid = some i := by
  cases h with
  | waits | begins | asks | arms | dropped => cases harmed
  | ended => cases hawaits
  | @guarded prog _ hguarded howner =>
    cases harmed
    cases prog with
    | ret => exact hguarded.elim
    | await r k => exact howner (isOver_of_guarded hguarded (by simpa [PgCall.awaits] using hawaits))

theorem CallOk.settled (h : CallOk s i call) (hover : call.dropped = true ∨ isOver call.prog = true) :
    CallOk s' i call := by
  cases h with
  | waits => exact .waits
  | begins => simp [runQueryInner_eq, isOver] at hover
  | asks => simp [afterBegin, isOver] at hover
  | arms => simp [afterPid, isOver] at hover
  | guarded hguarded =>
    refine .guarded hguarded fun hnot => ?_
    simp [hnot] at hover
  | ended => exact .ended
  | dropped => exact .dropped

end

/-! ## A step keeps the invariant -/

section

variable {s s' : Pools} {i : ℕ} {pid p : ℤ} {call : PgCall} {f : Backend → Backend}

variable {row b : Backend} {call₀ : PgCall}

theorem ownerOf_put :
    ({ s with backends := s.backends.put row } : Pools).ownerOf p =
      if p = row.pid then row.owner else s.ownerOf p := by
  unfold Pools.ownerOf
  rw [Table.get_put]
  split_ifs <;> rfl

theorem ownerOf_onBackend (hf : ∀ b, (f b).owner = b.owner) :
    (s.onBackend pid f).ownerOf p = s.ownerOf p := by
  unfold Pools.onBackend
  split
  · rename_i b hb
    rw [ownerOf_put]
    split_ifs with hp
    · change p = pid at hp
      rw [hp, hf, Pools.ownerOf, hb, Option.bind_some]
    · rfl
  · rfl

theorem calls_onBackend : (s.onBackend pid f).calls = s.calls := by
  unfold Pools.onBackend
  split <;> rfl

theorem cancels_onBackend : (s.onBackend pid f).cancels = s.cancels := by
  unfold Pools.onBackend
  split <;> rfl

theorem mem_onBackend (hb : b ∈ (s.onBackend pid f).backends.rows) :
    b ∈ s.backends.rows ∨ ∃ b₀, s.backends.get pid = some b₀ ∧ b = { f b₀ with pid } := by
  unfold Pools.onBackend at hb
  split at hb
  · rcases Table.mem_put.mp hb with rfl | ⟨hb, -⟩
    · exact .inr ⟨_, ‹_›, rfl⟩
    · exact .inl hb
  · exact .inl hb

theorem owner_start (b : Backend) (r : PgReq) : (b.start r).owner = b.owner := by
  cases r <;> rfl

theorem cancelledBy_start (b : Backend) (r : PgReq) :
    (b.start r).cancelledBy = none ∨ (b.start r).cancelledBy = b.cancelledBy := by
  cases r with
  | nextRow => exact .inr rfl
  | _ => exact .inl rfl

theorem owner_answered (b : Backend) (r : PgReq) (x : PgResp r) :
    (b.answered r x).owner = b.owner := by
  unfold Backend.answered
  split <;> rfl

theorem cancelledBy_answered (b : Backend) (r : PgReq) (x : PgResp r) :
    (b.answered r x).cancelledBy = none ∨ (b.answered r x).cancelledBy = b.cancelledBy := by
  unfold Backend.answered
  split
  · exact .inr rfl
  · exact .inl rfl

/-- A statement that begins or ends is cancelled by no one else than before. -/
theorem PoolInv.onBackend (h : PoolInv s) (hf : ∀ b, (f b).owner = b.owner)
    (hcancelled : ∀ b, (f b).cancelledBy = none ∨ (f b).cancelledBy = b.cancelledBy) :
    PoolInv (s.onBackend pid f) where
  calls j call hj := by
    rw [calls_onBackend] at hj
    refine (h.calls j call hj).mono fun p hp => ?_
    rw [ownerOf_onBackend hf, hp]
  ours cancel hcancel q hq := by
    rw [cancels_onBackend] at hcancel
    rw [ownerOf_onBackend hf] at hq
    exact h.ours cancel hcancel q hq
  mine b hb r q hr hq := by
    rcases mem_onBackend hb with hb | ⟨b₀, hb₀, rfl⟩
    · exact h.mine b hb r q hr hq
    · change (f b₀).cancelledBy = some r at hr
      change (f b₀).owner = some q at hq
      rw [hf] at hq
      rcases hcancelled b₀ with hnone | hsame
      · rw [hnone] at hr
        cases hr
      · rw [hsame] at hr
        exact h.mine b₀ (Table.mem_of_get hb₀) r q hr hq

/-- A call is replaced by one that fits. -/
theorem PoolInv.setCall (h : PoolInv s) (hi : s.calls[i]? = some call₀) (hok : CallOk s i call) :
    PoolInv { s with calls := s.calls.set i call } where
  calls j call' hj := by
    rw [Indexed.getElem?_set_of_some hi] at hj
    split_ifs at hj with hji
    · cases hj
      rw [hji]
      exact hok.mono fun _ => id
    · exact (h.calls j call' hj).mono fun _ => id
  ours := h.ours
  mine := h.mine

/-- A cancel of a connection that the request has. -/
theorem PoolInv.addCancel (h : PoolInv s) (howner : s.ownerOf pid = some i) :
    PoolInv { s with cancels := s.cancels ++ [⟨i, pid⟩] } where
  calls j call hj := (h.calls j call hj).mono fun _ => id
  ours cancel hcancel q hq := by
    rcases Indexed.mem_concat_cases hcancel with rfl | hcancel
    · have heq : some q = some i := hq.symm.trans howner
      cases heq
      rfl
    · exact h.ours cancel hcancel q hq
  mine := h.mine

theorem PoolInv.goOn (h : PoolInv s) (hi : s.calls[i]? = some call₀) (hok : CallOk s i call)
    (hdropped : call.dropped = false) : PoolInv (s.goOn i call) := by
  have hset := h.setCall hi hok
  unfold Pools.goOn
  cases hprog : call.prog with
  | ret => exact hset
  | await r k =>
    dsimp only
    split
    · exact hset.addCancel (hok.cancels hdropped hprog)
    · split_ifs
      · exact hset.onBackend (owner_start · _) (cancelledBy_start · _)
      · exact hset
    · exact hset

/-- A connection changes its owner; the old one does not need it, and no cancel is for a new
    one. -/
theorem PoolInv.putBackend (h : PoolInv s) (hrow : row.cancelledBy = none)
    (hcalls : ∀ i call, s.calls[i]? = some call → CallOk { s with backends := s.backends.put row } i call)
    (hcancels : ∀ cancel ∈ s.cancels, cancel.pid = row.pid → row.owner = none) :
    PoolInv { s with backends := s.backends.put row } where
  calls := hcalls
  ours cancel hcancel q hq := by
    rw [ownerOf_put] at hq
    split_ifs at hq with hp
    · rw [hcancels cancel hcancel hp] at hq
      cases hq
    · exact h.ours cancel hcancel q hq
  mine b hb r q hr hq := by
    rcases Table.mem_put.mp hb with rfl | ⟨hb, -⟩
    · rw [hrow] at hr
      cases hr
    · exact h.mine b hb r q hr hq

def freshConnection (s : Pools) : PoolAct → Bool
  | .acquire _ pid => s.cancels.all fun cancel => cancel.pid ≠ pid
  | _ => true

theorem ownerOf_eq_none_of_canAcquire (h : s.canAcquire pid = true) : s.ownerOf pid = none := by
  unfold Pools.canAcquire at h
  unfold Pools.ownerOf
  split at h
  · rename_i b hb
    rw [hb, Option.bind_some]
    exact Option.isNone_iff_eq_none.mp h
  · rename_i hb
    rw [hb, Option.bind_none]

theorem PoolInv.acquire (h : PoolInv s) {k : Except SqlxError Unit → PgProg (Except ExecError ExecResult)}
    (hi : s.calls[i]? = some call) (hprog : call.prog = .await .begin k) (htx : call.tx = none)
    (hdropped : call.dropped = false) (hfree : s.canAcquire pid = true)
    (hfresh : freshConnection s (.acquire i pid) = true) :
    PoolInv { s with
      backends := s.backends.put ⟨pid, some i, true, none⟩
      calls := s.calls.set i { call with tx := some pid } } := by
  have hnone := ownerOf_eq_none_of_canAcquire hfree
  have hput : PoolInv { s with backends := s.backends.put ⟨pid, some i, true, none⟩ } := by
    refine h.putBackend rfl (fun j call' hj => (h.calls j call' hj).mono fun p hp => ?_) ?_
    · rw [ownerOf_put, if_neg, hp]
      intro hpid
      rw [show p = pid from hpid, hnone] at hp
      cases hp
    · intro cancel hcancel hpid
      rw [freshConnection, List.all_eq_true] at hfresh
      exact absurd hpid (by simpa using hfresh cancel hcancel)
  refine hput.setCall hi ?_
  have howner : ({ s with backends := s.backends.put ⟨pid, some i, true, none⟩ } : Pools).ownerOf pid =
      some i := by
    rw [ownerOf_put, if_pos rfl]
  cases h.calls i call hi with
  | waits => exact .begins howner
  | begins | asks | arms | guarded => cases htx
  | ended => cases hprog
  | dropped => cases hdropped

theorem PoolInv.settle (h : PoolInv s) (hb : s.backends.get pid = some b)
    (howner : b.owner = some i) (hi : s.calls[i]? = some call)
    (hover : call.dropped = true ∨ isOver call.prog = true) :
    PoolInv { s with backends := s.backends.put ⟨pid, none, false, none⟩ } := by
  refine h.putBackend rfl (fun j call' hj => ?_) fun _ _ _ => rfl
  by_cases hji : j = i
  · subst hji
    rw [hi] at hj
    cases hj
    exact (h.calls j call hi).settled hover
  · refine (h.calls j call' hj).mono fun p hp => ?_
    rw [ownerOf_put, if_neg, hp]
    intro hpid
    rw [show p = pid from hpid, Pools.ownerOf, hb, Option.bind_some, howner] at hp
    exact hji (Option.some.inj hp).symm

theorem PoolInv.close (h : PoolInv s) (hb : s.backends.get pid = some b) (howner : b.owner = none) :
    PoolInv { s with backends := s.backends.remove pid } := by
  have hsame : ∀ p, ({ s with backends := s.backends.remove pid } : Pools).ownerOf p = s.ownerOf p := by
    intro p
    unfold Pools.ownerOf
    rw [Table.get_remove]
    split_ifs with hp
    · rw [hp, hb, Option.bind_none, Option.bind_some, howner]
    · rfl
  constructor
  · intro j call hj
    exact (h.calls j call hj).mono fun p hp => (hsame p).trans hp
  · intro cancel hcancel q hq
    exact h.ours cancel hcancel q ((hsame _).symm.trans hq)
  · intro b hb
    exact h.mine b (Table.mem_remove.mp hb).1

theorem PoolInv.eraseCancel (h : PoolInv s) (cancel : Cancel) :
    PoolInv { s with cancels := s.cancels.erase cancel } where
  calls j call hj := (h.calls j call hj).mono fun _ => id
  ours c hc := h.ours c (List.mem_of_mem_erase hc)
  mine := h.mine

/-- A cancel that runs hits a statement of its own request. -/
theorem PoolInv.runCancel (h : PoolInv s) {cancel : Cancel} (hcancel : cancel ∈ s.cancels) :
    PoolInv ({ s with cancels := s.cancels.erase cancel }.onBackend cancel.pid fun b =>
      if b.executing then { b with cancelledBy := some cancel.request } else b) := by
  have herase := h.eraseCancel cancel
  have hf : ∀ b : Backend, (if b.executing then { b with cancelledBy := some cancel.request }
      else b).owner = b.owner := by
    intro b
    split_ifs <;> rfl
  constructor
  · intro j call hj
    rw [calls_onBackend] at hj
    refine (herase.calls j call hj).mono fun p hp => ?_
    rw [ownerOf_onBackend hf, hp]
  · intro c hc q hq
    rw [cancels_onBackend] at hc
    rw [ownerOf_onBackend hf] at hq
    exact herase.ours c hc q hq
  · intro b hb r q hr hq
    rcases mem_onBackend hb with hb | ⟨b₀, hb₀, rfl⟩
    · exact h.mine b hb r q hr hq
    · dsimp only at hr hq
      rw [hf] at hq
      split_ifs at hr
      · cases hr
        refine h.ours cancel hcancel q ?_
        change s.backends.get cancel.pid = some b₀ at hb₀
        rw [Pools.ownerOf, hb₀, Option.bind_some, hq]
      · exact h.mine b₀ (Table.mem_of_get hb₀) r q hr hq

theorem PoolInv.drop (h : PoolInv s) (hi : s.calls[i]? = some call)
    (hawaits : call.awaits = true) :
    PoolInv { s with
      calls := s.calls.set i { call with armed := none, dropped := true }
      cancels := s.cancels ++ (call.armed.map (Cancel.mk i)).toList } := by
  have hset : PoolInv { s with calls := s.calls.set i { call with armed := none, dropped := true } } :=
    h.setCall hi .dropped
  cases harmed : call.armed with
  | none =>
    rw [Option.map_none, Option.toList_none, List.append_nil]
    exact hset
  | some pid => exact hset.addCancel ((h.calls i call hi).armed hawaits harmed)

theorem PoolInv.step {a : PoolAct} (h : PoolInv s) (hfresh : freshConnection s a = true)
    (hmoves : PoolMoves s a s') : PoolInv s' := by
  cases hmoves with
  | call =>
    refine ⟨fun j call hj => ?_, h.ours, h.mine⟩
    rw [Indexed.getElem?_concat] at hj
    split_ifs at hj
    · cases hj
      exact .waits
    · exact (h.calls j call hj).mono fun _ => id
  | acquire hi hprog htx hdropped hfree => exact h.acquire hi hprog htx hdropped hfree hfresh
  | here hi hdropped hprog hlocal =>
    exact h.goOn hi ((h.calls _ _ hi).here hdropped hprog hlocal _) hdropped
  | refused hi hdropped hprog htx hrefused =>
    exact h.goOn hi ((h.calls _ _ hi).refused hdropped hprog htx hrefused) hdropped
  | @answered i call r pid b k answer hi hdropped hprog hlocal htx hb hanswers =>
    have hbackend : PoolInv (s.onBackend pid (Backend.answered · r (answer r))) :=
      h.onBackend (owner_answered · r (answer r)) (cancelledBy_answered · r (answer r))
    rw [Pools.answers, Bool.and_eq_true] at hanswers
    have hok := (h.calls i call hi).answered hdropped hprog hlocal htx hb hanswers.1
    have hi' : (s.onBackend pid (Backend.answered · r (answer r))).calls[i]? = some call := by
      rw [calls_onBackend, hi]
    refine hbackend.goOn hi' (hok.mono fun p hp => ?_) hdropped
    rw [ownerOf_onBackend (owner_answered · r (answer r)), hp]
  | drop hi hawaits => exact h.drop hi hawaits
  | settle hb howner hi hover => exact h.settle hb howner hi hover
  | close hb howner => exact h.close hb howner
  | runCancel hcancel => exact h.runCancel hcancel
  | loseCancel => exact h.eraseCancel _

theorem poolInv_new : PoolInv .new where
  calls i call hi := by simp [Pools.new] at hi
  ours _ hcancel := nomatch hcancel
  mine _ hb := nomatch hb

end

/-! ## The result -/

/-- No request is hit by the cancel of another one: neither by a cancel that is outstanding, if
    it runs now, nor by one that has run. -/
structure NoStray (s : Pools) : Prop where
  outstanding : ∀ cancel ∈ s.cancels, ∀ b, s.backends.get cancel.pid = some b →
    b.executing = true → ∀ q, b.owner = some q → q = cancel.request
  cancelled : ∀ b ∈ s.backends.rows, ∀ r q, b.cancelledBy = some r → b.owner = some q → q = r

/-- There are no stray cancels in a run in which no connection is handed out while a cancel of
    its backend is outstanding. -/
theorem no_stray_cancel {as : List PoolAct} {s : Pools}
    (hfresh : Meets Pools.step (fun s a => freshConnection s a = true) .new as)
    (hrun : run Pools.step .new as = some s) : NoStray s := by
  have hinv := run_invariant (P := PoolInv) (fun _ _ _ h hfresh hstep =>
    h.step hfresh (pool_moves hstep)) hfresh hrun poolInv_new
  refine ⟨?_, hinv.mine⟩
  intro cancel hcancel b hb _ q hq
  refine hinv.ours cancel hcancel q ?_
  rw [Pools.ownerOf, hb, Option.bind_some, hq]

def slowQuery : ExecQuery where
  sql := "SELECT count(*) FROM events"
  binds := []
  statementTimeoutMs := some 1000
  rowLimit := 10

/-- A target that fails nowhere. -/
def healthyAnswer : (r : PgReq) → PgResp r
  | .begin => .ok ()
  | .backendPid => .ok 7
  | .armCancel _ => ()
  | .setStatementTimeout _ => .ok ()
  | .fetch _ _ => ()
  | .nextRow => none
  | .describe _ => .ok ["count"]
  | .cancelBackend _ => .ok ()
  | .rollback => .ok ()
  | .commit => .ok ()
  | .elapsed => 3
  | .disarmCancel => ()

def canceledAnswer : (r : PgReq) → PgResp r
  | .nextRow => some (.error queryCanceled)
  | r => healthyAnswer r

/-- A call gets the connection of backend 7 and runs its statement. -/
def runsStatement (i : ℕ) : List PoolAct :=
  [.call slowQuery, .acquire i 7] ++ List.replicate 5 (.reply i healthyAnswer)

def PgCall.failure (call : PgCall) : Option ExecError :=
  match call.prog with
  | .ret (.error e) => some e
  | _ => none

/-- The first request is dropped and its statement ends; its cancel runs before the second
    request gets the connection. -/
def promptCancel : List PoolAct :=
  runsStatement 0 ++ [.drop 0, .runCancel ⟨0, 7⟩, .settle 7] ++ runsStatement 1

theorem no_stray_cancel_prompt :
    ∃ s, run Pools.step .new promptCancel = some s ∧
      s.backends.rows = [⟨7, some 1, true, none⟩] ∧ NoStray s := by
  have hrows : (run Pools.step .new promptCancel).map (fun s => s.backends.rows) =
      some [⟨7, some 1, true, none⟩] := by
    decide +kernel
  obtain ⟨s, hrun, hs⟩ := Option.map_eq_some_iff.mp hrows
  exact ⟨s, hrun, hs, no_stray_cancel (meets_of_checks (by decide +kernel)) hrun⟩

/-- The first request is dropped and its statement ends; the second request gets the
    connection before the cancel of the first runs. -/
def lateCancel : List PoolAct :=
  runsStatement 0 ++ [.drop 0, .settle 7] ++ runsStatement 1 ++ [.runCancel ⟨0, 7⟩]

/-- The cancel of the first request hits the statement of the second, which fails. -/
theorem stray_cancel :
    ∃ s s', run Pools.step .new lateCancel = some s ∧
      s.backends.rows = [⟨7, some 1, true, some 0⟩] ∧ ¬ NoStray s ∧
      run Pools.step s [.reply 1 canceledAnswer, .reply 1 canceledAnswer] = some s' ∧
      s'.calls.map PgCall.failure = [none, some .timeout] := by
  have hrows : (run Pools.step .new lateCancel).map (fun s => (s.backends.rows,
      (run Pools.step s [.reply 1 canceledAnswer, .reply 1 canceledAnswer]).map
        fun s' => s'.calls.map PgCall.failure)) =
      some ([⟨7, some 1, true, some 0⟩], some [none, some .timeout]) := by
    decide +kernel
  obtain ⟨s, hrun, hs⟩ := Option.map_eq_some_iff.mp hrows
  obtain ⟨hrows, hrest⟩ := Prod.ext_iff.mp hs
  obtain ⟨s', hrun', hfailure⟩ := Option.map_eq_some_iff.mp hrest
  refine ⟨s, s', hrun, hrows, fun hnone => ?_, hrun', hfailure⟩
  have hmem : (⟨7, some 1, true, some 0⟩ : Backend) ∈ s.backends.rows := by
    dsimp only at hrows
    rw [hrows]
    exact List.mem_singleton_self _
  cases hnone.cancelled _ hmem 0 1 rfl rfl

end DbMcpGateway.Exec.Pg
