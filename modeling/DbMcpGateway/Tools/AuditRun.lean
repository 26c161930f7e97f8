import DbMcpGateway.Tools.AuditDispatch

/-!
# Runs of the audit chokepoint

The chokepoint as a transition system. A state holds the request task, the task a
dropped guard has spawned, and the world: the guard, the inserts handed to the
state DB and not yet settled, the table, and what has been streamed and emitted.
In any order,

* the request task gets a reply, returns, or is dropped where it is suspended;
* the detached task gets a reply;
* the state DB commits an insert in flight, or loses it for good;
* other calls change rows of other ids.

An insert is acknowledged only when the table has a row of its id; an error or a
timeout can come at any moment, before or after the insert commits.

The program is known to the proofs only through the protocol it obeys
(`obeys_auditDispatch`, `obeys_fallback`), and each phase of the protocol fixes
what has been written (`expected`).

Results:

* `inv_steps`: every state of every run of a program that obeys the protocol is in
  one of the phases, with exactly what the phase says written and streamed.
-/

namespace DbMcpGateway.Tools

open Async Async.Prog Audit Authz Config Transport

/-! ## States and steps -/

/-- The environment of the work: which replies it gives, and what becomes of it
    when a pending request is abandoned. -/
structure Env (Req : Type) (Resp : Req → Type) (σ : Type) where
  answers : (r : Req) → σ → Resp r → σ → Prop
  abandons : (r : Req) → σ → σ → Prop

/-- Who handed an insert to the state DB. -/
inductive Writer
  | primary
  | fallback
  deriving DecidableEq

/-- What surrounds the tasks of one call. `started` and `completed` record that
    the work was started and what it returned. -/
structure World (σ : Type) where
  guard : Option CancelledAuditGuard := none
  inflight : List (Writer × AuditRow) := []
  table : List AuditRow
  lost : List Writer := []
  streamed : List (StreamSinkConfig × AuditRow) := []
  events : List Event := []
  env : σ
  started : Bool := false
  completed : Option Outcome := none

section

variable {Req : Type} {Resp : Req → Type} {σ : Type}

def Performs (E : Env Req Resp σ) (auditId : Uuid) (writer : Writer) :
    (r : DispatchReq Req) → World σ → DispatchResp Resp r → World σ → Prop
  | .tool r, w, x, w' => ∃ env, E.answers r w.env x env ∧ w' = { w with env }
  | .newUuid, w, x, w' => x = auditId ∧ w' = w
  | .armGuard guard, w, _, w' => w' = { w with guard := some guard, started := true }
  | .recordOutcome outcome, w, _, w' =>
    w' = { w with guard := w.guard.map (·.recordOutcome outcome), completed := some outcome }
  | .disarm, w, _, w' => w' = { w with guard := w.guard.map (·.disarm) }
  | .emit event, w, _, w' => w' = { w with events := w.events ++ [event] }
  | .insert row, w, _, w' => w' = { w with inflight := (writer, row) :: w.inflight }
  | .insertReply row, w, x, w' => w' = w ∧ (x = .ok () → rowsOf row.id w.table ≠ [])
  | .streamSend sinks row, w, _, w' =>
    w' = { w with streamed := w.streamed ++ sinks.map fun sink => (sink, row) }

/-- The task is dropped at a request: only where it is suspended. -/
def Abandons (E : Env Req Resp σ) : DispatchReq Req → World σ → World σ → Prop
  | .tool r, w, w' => ∃ env, E.abandons r w.env env ∧ w' = { w with env }
  | .insertReply _, w, w' => w' = w
  | _, _, _ => False

/-- The state DB settles an insert in flight. -/
inductive Settles : World σ → World σ → Prop
  | commit {w : World σ} {writer row} : (writer, row) ∈ w.inflight →
      Settles w { w with
        inflight := w.inflight.erase (writer, row), table := insertRow w.table row }
  | lose {w : World σ} {writer row} : (writer, row) ∈ w.inflight →
      Settles w { w with
        inflight := w.inflight.erase (writer, row), lost := writer :: w.lost }

/-- Other calls change the table, but not the rows of this call. -/
inductive Interferes (auditId : Uuid) : World σ → World σ → Prop
  | intro {w : World σ} {table} : rowsOf auditId table = rowsOf auditId w.table →
      Interferes auditId w { w with table }

/-- The request future. -/
abbrev RequestTask (Resp : Req → Type) := Task (DispatchReq Req) (DispatchResp Resp) Response

/-- A state of the system. -/
structure Run (Resp : Req → Type) (σ : Type) where
  task : RequestTask Resp
  detached : Option (DispatchProg Resp Unit)
  world : World σ

/-- The request future ends, and its guard goes out of scope. -/
def Run.leave (task : RequestTask Resp) (detached : Option (DispatchProg Resp Unit)) (w : World σ) :
    Run Resp σ :=
  match w.guard with
  | none => ⟨task, detached, w⟩
  | some guard =>
    let (events, spawned) := guard.drop
    ⟨task, spawned.or detached, { w with guard := none, events := w.events ++ events }⟩

/-- One step of the call or of the state DB. -/
inductive Progress (E : Env Req Resp σ) (auditId : Uuid) : Run Resp σ → Run Resp σ → Prop
  | reply {r k x d w w'} : Performs E auditId .primary r w x w' →
      Progress E auditId ⟨.running (await r k), d, w⟩ ⟨.running (k x), d, w'⟩
  | drop {r k d w w'} : Abandons E r w w' →
      Progress E auditId ⟨.running (await r k), d, w⟩ (.leave .dropped d w')
  | finish {response d w} :
      Progress E auditId ⟨.running (ret response), d, w⟩ (.leave (.returned response) d w)
  | detached {t r k x w w'} : Performs E auditId .fallback r w x w' →
      Progress E auditId ⟨t, some (await r k), w⟩ ⟨t, some (k x), w'⟩
  | settle {t d w w'} : Settles w w' →
      Progress E auditId ⟨t, d, w⟩ ⟨t, d, w'⟩

/-- One step of the call, of the state DB or of other calls. -/
inductive Step (E : Env Req Resp σ) (auditId : Uuid) : Run Resp σ → Run Resp σ → Prop
  | progress {s s'} : Progress E auditId s s' → Step E auditId s s'
  | interfere {s : Run Resp σ} {w} : Interferes auditId s.world w →
      Step E auditId s { s with world := w }

/-- The states of the runs from `s`. -/
abbrev Steps (E : Env Req Resp σ) (auditId : Uuid) : Run Resp σ → Run Resp σ → Prop :=
  Relation.ReflTransGen (Step E auditId)

namespace Steps

variable {E : Env Req Resp σ} {auditId d w w'} {s : Run Resp σ}

theorem reply (r) {k} (x) (h : Performs E auditId .primary r w x w') :
    Steps E auditId ⟨.running (k x), d, w'⟩ s → Steps E auditId ⟨.running (await r k), d, w⟩ s :=
  .head (.progress (.reply h))

theorem detached {t} (r) {k} (x) (h : Performs E auditId .fallback r w x w') :
    Steps E auditId ⟨t, some (k x), w'⟩ s → Steps E auditId ⟨t, some (await r k), w⟩ s :=
  .head (.progress (.detached h))

theorem settle {t} (h : Settles w w') : Steps E auditId ⟨t, d, w'⟩ s → Steps E auditId ⟨t, d, w⟩ s :=
  .head (.progress (.settle h))

end Steps

/-- The program starts: nothing is written yet. -/
def Run.start (program : DispatchProg Resp Response) (table : List AuditRow) (env : σ) :
    Run Resp σ :=
  ⟨.running program, none, { table, env }⟩

/-- Nothing of the call is left to do. -/
structure Run.Quiescent (s : Run Resp σ) : Prop where
  task : ∀ p, s.task ≠ .running p
  detached : ∀ r k, s.detached ≠ some (await r k)
  inflight : s.world.inflight = []

/-! ## The protocol of the request task -/

/-- The data of one call that reaches the chokepoint. -/
structure Call where
  ext : Extern
  id : Json
  identity : Identity
  requestCtx : RequestContext
  header : AuditHeader
  streamSinks : List StreamSinkConfig
  auditId : Uuid

namespace Call

variable (c : Call)

def pending : AuditRow := pendingRow c.auditId c.identity c.requestCtx c.header

def row (outcome : Outcome) : AuditRow :=
  auditRow c.auditId c.identity c.requestCtx c.header outcome

def guard : CancelledAuditGuard :=
  { row := some c.pending, tool := c.header.tool, streamSinks := c.streamSinks }

/-- What the sinks get when `row` is streamed. -/
def fanOut (row : AuditRow) : List (StreamSinkConfig × AuditRow) :=
  c.streamSinks.map fun sink => (sink, row)

end Call

/-- How far the request task has come. -/
inductive Phase
  | idle
  | named
  | armed
  | recorded (o : Outcome)
  | sent (o : Outcome)
  | acked (o : Outcome)
  | refused (o : Outcome) (err : AuditError)
  | streamed (o : Outcome)
  | disarmed (o : Outcome)

/-- The replies of the runs of the call: its id is the drawn one. -/
def Replies (auditId : Uuid) : (r : DispatchReq Req) → DispatchResp Resp r → Prop
  | .newUuid, x => x = auditId
  | _, _ => True

/-- What the request task may ask in each phase. -/
inductive RequestAllowed (c : Call) : Phase → DispatchReq Req → Prop
  | before (r : Req) : RequestAllowed c .idle (.tool r)
  | emitBefore (e : Event) : RequestAllowed c .idle (.emit e)
  | name : RequestAllowed c .idle .newUuid
  | arm : RequestAllowed c .named (.armGuard c.guard)
  | work (r : Req) : RequestAllowed c .armed (.tool r)
  | record (o : Outcome) : RequestAllowed c .armed (.recordOutcome o)
  | emitRecorded (o : Outcome) (e : Event) : RequestAllowed c (.recorded o) (.emit e)
  | insert (o : Outcome) : RequestAllowed c (.recorded o) (.insert (c.row o))
  | insertReply (o : Outcome) : RequestAllowed c (.sent o) (.insertReply (c.row o))
  | emitAcked (o : Outcome) (e : Event) : RequestAllowed c (.acked o) (.emit e)
  | emitRefused (o : Outcome) (err : AuditError) (e : Event) :
      RequestAllowed c (.refused o err) (.emit e)
  | stream (o : Outcome) : RequestAllowed c (.acked o) (.streamSend c.streamSinks (c.row o))
  | disarm (o : Outcome) : RequestAllowed c (.streamed o) .disarm

def requestProtocol (c : Call) : Protocol (DispatchReq Req) (DispatchResp Resp) Phase where
  replies := Replies c.auditId
  allowed := RequestAllowed c
  next
    | .idle, .newUuid, _ => .named
    | .named, .armGuard _, _ => .armed
    | .armed, .recordOutcome o, _ => .recorded o
    | .recorded o, .insert _, _ => .sent o
    | .sent o, .insertReply _, .ok _ => .acked o
    | .sent o, .insertReply _, .error err => .refused o err
    | .acked o, .streamSend _ _, _ => .streamed o
    | .streamed o, .disarm, _ => .disarmed o
    | φ, _, _ => φ

/-- Where the request task may return, and what. -/
def RequestFinal (c : Call) (early : Response → Prop) : Phase → Response → Prop
  | .idle, response => early response
  | .refused _ err, response => response = auditRejected c.ext c.id err
  | .disarmed o, response => response = o.response
  | _, _ => False

/-- The answer of the chokepoint that is given before the work is started. -/
def Unavailable (c : Call) (stateDb : Bool) (response : Response) : Prop :=
  stateDb = false ∧ response = auditUnavailable c.id c.header.tool

theorem obeys_emitDuration {Φ : Type} {P : Protocol (DispatchReq Req) (DispatchResp Resp) Φ} {φ : Φ}
    {tool : Tool} {elapsedMs} {final : Φ → Unit → Prop}
    (hallowed : ∀ ms, P.allowed φ (.emit (.queryDuration tool ms)))
    (hnext : ∀ ms x, P.next φ (.emit (.queryDuration tool ms)) x = φ) (h : final φ ()) :
    P.Obeys final φ (emitDuration tool elapsedMs) := by
  cases elapsedMs with
  | none => exact h
  | some ms => exact ⟨hallowed _, fun x _ => (hnext _ x).symm ▸ h⟩

theorem obeys_finishDispatch (c : Call) (early : Response → Prop) (o : Outcome) :
    (requestProtocol c).Obeys (RequestFinal c early) .armed
      (finishDispatch c.ext c.id c.identity c.requestCtx c.header c.streamSinks c.auditId o :
        DispatchProg Resp Response) := by
  refine ⟨.record o, fun _ _ => ⟨.emitRecorded o _, fun _ _ => ?_⟩⟩
  refine Protocol.Obeys.bind (p := emitDuration c.header.tool o.elapsedMs)
    (obeys_emitDuration (fun _ => .emitRecorded o _) (fun _ _ => rfl) ?_)
  refine ⟨.emitRecorded o _, fun _ _ => ⟨.insert o, fun _ _ => ⟨.insertReply o, ?_⟩⟩⟩
  rintro (err | _) -
  · exact ⟨.emitRefused o err _, fun _ _ => ⟨.emitRefused o err _, fun _ _ => rfl⟩⟩
  · exact ⟨.emitAcked o _, fun _ _ => ⟨.stream o, fun _ _ => ⟨.disarm o, fun _ _ => rfl⟩⟩⟩

theorem obeys_auditDispatch (c : Call) (stateDb : Bool) (work : Prog Req Resp Outcome) :
    (requestProtocol c).Obeys (RequestFinal c (Unavailable c stateDb)) .idle
      (auditDispatch c.ext c.id c.identity stateDb c.requestCtx c.header c.streamSinks work) := by
  cases stateDb with
  | false => exact ⟨.emitBefore _, fun _ _ => ⟨.emitBefore _, fun _ _ => ⟨rfl, rfl⟩⟩⟩
  | true =>
    refine ⟨.name, ?_⟩
    rintro _ rfl
    refine ⟨.arm, fun _ _ => ?_⟩
    refine Protocol.Obeys.bind (p := liftWork work) ?_
    exact Protocol.obeys_embed RequestAllowed.work (fun _ _ => rfl) work (obeys_finishDispatch c _)

/-! ## The protocol of the detached task -/

/-- How far the detached task has come. -/
inductive RetryPhase
  | ready
  | sent
  | acked
  | refused
  | streamed

/-- What the detached task may ask in each phase. -/
inductive RetryAllowed (sinks : List StreamSinkConfig) (row : AuditRow) :
    RetryPhase → DispatchReq Req → Prop
  | insert : RetryAllowed sinks row .ready (.insert row)
  | insertReply : RetryAllowed sinks row .sent (.insertReply row)
  | stream : RetryAllowed sinks row .acked (.streamSend sinks row)
  | emit (e : Event) : RetryAllowed sinks row .refused (.emit e)

/-- The protocol of the detached task. -/
def retryProtocol (sinks : List StreamSinkConfig) (row : AuditRow) :
    Protocol (DispatchReq Req) (DispatchResp Resp) RetryPhase where
  replies _ _ := True
  allowed := RetryAllowed sinks row
  next
    | .ready, .insert _, _ => .sent
    | .sent, .insertReply _, .ok _ => .acked
    | .sent, .insertReply _, .error _ => .refused
    | .acked, .streamSend _ _, _ => .streamed
    | ψ, _, _ => ψ

/-- Where the detached task may end. -/
def RetryFinal : RetryPhase → Unit → Prop
  | .refused, _ => True
  | .streamed, _ => True
  | _, _ => False

theorem obeys_fallback (sinks : List StreamSinkConfig) (row : AuditRow) :
    (retryProtocol sinks row).Obeys RetryFinal .ready
      (fallback sinks row : DispatchProg Resp Unit) := by
  refine ⟨.insert, fun _ _ => ⟨.insertReply, ?_⟩⟩
  rintro (err | _) -
  · exact ⟨.emit _, fun _ _ => trivial⟩
  · exact ⟨.stream, fun _ _ => trivial⟩

/-! ## What has been written -/

/-- What the call may have written so far. -/
inductive Written
  | nothing
  | maybe (row : AuditRow)
  | durable (row : AuditRow)

/-- The table and the inserts in flight are as said. -/
def Written.Holds (auditId : Uuid) (w : World σ) : Written → Prop
  | .nothing => w.inflight = [] ∧ rowsOf auditId w.table = []
  | .maybe row => row.id = auditId ∧ (∀ e ∈ w.inflight, e.2 = row) ∧
      (rowsOf auditId w.table = [] ∨ rowsOf auditId w.table = [row])
  | .durable row => row.id = auditId ∧ (∀ e ∈ w.inflight, e.2 = row) ∧
      rowsOf auditId w.table = [row]

variable {auditId : Uuid} {w w' : World σ} {written : Written} {row : AuditRow} {E : Env Req Resp σ}
  {c : Call} {φ : Phase} {r : DispatchReq Req} {x : DispatchResp Resp r}
  {completed : Option Outcome} {early : Response → Prop} {s : Run Resp σ}

theorem Written.Holds.settles (h : written.Holds auditId w) (hs : Settles w w') :
    written.Holds auditId w' := by
  cases hs with
  | @commit writer row hmem =>
    cases written with
    | nothing => simp [h.1] at hmem
    | maybe row' =>
      obtain ⟨rfl, hrows, htable⟩ := h
      obtain rfl : row = row' := hrows _ hmem
      refine ⟨rfl, fun e he => hrows e (List.mem_of_mem_erase he), .inr ?_⟩
      rcases htable with htable | htable <;> simp [rowsOf_insertRow, htable]
    | durable row' =>
      obtain ⟨rfl, hrows, htable⟩ := h
      obtain rfl : row = row' := hrows _ hmem
      refine ⟨rfl, fun e he => hrows e (List.mem_of_mem_erase he), ?_⟩
      simp [rowsOf_insertRow, htable]
  | @lose writer row hmem =>
    cases written with
    | nothing => simp [h.1] at hmem
    | maybe row' | durable row' =>
      exact ⟨h.1, fun e he => h.2.1 e (List.mem_of_mem_erase he), h.2.2⟩

theorem Written.Holds.interferes (h : written.Holds auditId w) (hi : Interferes auditId w w') :
    written.Holds auditId w' := by
  obtain ⟨ht⟩ := hi
  cases written with
  | nothing => exact ⟨h.1, ht.trans h.2⟩
  | maybe row => exact ⟨h.1, h.2.1, by rw [ht]; exact h.2.2⟩
  | durable row => exact ⟨h.1, h.2.1, ht.trans h.2.2⟩

/-- What a phase says about the world. -/
structure Expected where
  guard : Option CancelledAuditGuard := none
  started : Bool := false
  completed : Option Outcome := none
  streamed : List (StreamSinkConfig × AuditRow) := []
  written : Written := .nothing

structure Expected.Holds (auditId : Uuid) (e : Expected) (w : World σ) : Prop where
  guard : w.guard = e.guard
  started : w.started = e.started
  completed : w.completed = e.completed
  streamed : w.streamed = e.streamed
  written : e.written.Holds auditId w

variable {e : Expected} {t : RequestTask Resp}

theorem Expected.Holds.settles (h : e.Holds auditId w) (hs : Settles w w') :
    e.Holds auditId w' := by
  have hw := h.written.settles hs
  cases hs with
  | commit | lose => exact ⟨h.guard, h.started, h.completed, h.streamed, hw⟩

theorem Expected.Holds.interferes (h : e.Holds auditId w) (hi : Interferes auditId w w') :
    e.Holds auditId w' := by
  have hw := h.written.interferes hi
  obtain ⟨ht⟩ := hi
  exact ⟨h.guard, h.started, h.completed, h.streamed, hw⟩

/-- The world in each phase of the request task. -/
def expected (c : Call) : Phase → Expected
  | .idle => {}
  | .named => {}
  | .armed => { guard := some c.guard, started := true }
  | .recorded o =>
    { guard := some (c.guard.recordOutcome o), started := true, completed := some o }
  | .sent o =>
    { guard := some (c.guard.recordOutcome o), started := true, completed := some o
      written := .maybe (c.row o) }
  | .refused o _ =>
    { guard := some (c.guard.recordOutcome o), started := true, completed := some o
      written := .maybe (c.row o) }
  | .acked o =>
    { guard := some (c.guard.recordOutcome o), started := true, completed := some o
      written := .durable (c.row o) }
  | .streamed o =>
    { guard := some (c.guard.recordOutcome o), started := true, completed := some o
      streamed := c.fanOut (c.row o), written := .durable (c.row o) }
  | .disarmed o =>
    { guard := some (c.guard.recordOutcome o).disarm, started := true, completed := some o
      streamed := c.fanOut (c.row o), written := .durable (c.row o) }

/-- The world after the request task has returned the response of its work. -/
def doneExpected (c : Call) (o : Outcome) : Expected :=
  { started := true, completed := some o, streamed := c.fanOut (c.row o)
    written := .durable (c.row o) }

/-- An acknowledged row is durable. -/
theorem Written.Holds.acked (h : (Written.maybe row).Holds auditId w)
    (hack : rowsOf row.id w.table ≠ []) :
    (Written.durable row).Holds auditId w := by
  obtain ⟨rfl, hrows, htable⟩ := h
  exact ⟨rfl, hrows, htable.resolve_left hack⟩

/-- A reply moves the world to the next phase. -/
theorem performs_expected (hallowed : RequestAllowed c φ r)
    (hw : (expected c φ).Holds c.auditId w) (hp : Performs E c.auditId .primary r w x w') :
    (expected c ((requestProtocol c).next φ r x)).Holds c.auditId w' := by
  obtain ⟨hguard, hstarted, hcompleted, hstreamed, hwritten⟩ := hw
  cases hallowed with
  | before r | work r =>
    obtain ⟨env, -, rfl⟩ := hp
    exact ⟨hguard, hstarted, hcompleted, hstreamed, hwritten⟩
  | emitBefore e | emitRecorded o e | emitAcked o e | emitRefused o err e =>
    obtain rfl := hp
    exact ⟨hguard, hstarted, hcompleted, hstreamed, hwritten⟩
  | name =>
    obtain ⟨-, rfl⟩ := hp
    exact ⟨hguard, hstarted, hcompleted, hstreamed, hwritten⟩
  | arm =>
    obtain rfl := hp
    exact ⟨rfl, rfl, hcompleted, hstreamed, hwritten⟩
  | record o =>
    obtain rfl := hp
    exact ⟨by rw [hguard]; rfl, hstarted, rfl, hstreamed, hwritten⟩
  | insert o =>
    obtain rfl := hp
    obtain ⟨hinflight, htable⟩ := hwritten
    refine ⟨hguard, hstarted, hcompleted, hstreamed, rfl, ?_, .inl htable⟩
    simp [hinflight]
  | insertReply o =>
    obtain ⟨rfl, hack⟩ := hp
    cases x with
    | ok _ => exact ⟨hguard, hstarted, hcompleted, hstreamed, hwritten.acked (hack rfl)⟩
    | error err => exact ⟨hguard, hstarted, hcompleted, hstreamed, hwritten⟩
  | stream o =>
    obtain rfl := hp
    exact ⟨hguard, hstarted, hcompleted, by rw [hstreamed]; rfl, hwritten⟩
  | disarm o =>
    obtain rfl := hp
    exact ⟨by rw [hguard]; rfl, hstarted, hcompleted, hstreamed, hwritten⟩

/-- The world in each phase of the detached task. -/
def retryExpected (c : Call) (completed : Option Outcome) (row : AuditRow) : RetryPhase → Expected
  | .ready => { started := true, completed, written := .maybe row }
  | .sent => { started := true, completed, written := .maybe row }
  | .refused => { started := true, completed, written := .maybe row }
  | .acked => { started := true, completed, written := .durable row }
  | .streamed => { started := true, completed, streamed := c.fanOut row, written := .durable row }

/-- The detached insert is lost, in flight, or in the table. -/
def Kept (row : AuditRow) (w : World σ) : Prop :=
  .fallback ∈ w.lost ∨ (.fallback, row) ∈ w.inflight ∨ rowsOf row.id w.table ≠ []

theorem Kept.settles (h : Kept row w) (hs : Settles w w') :
    Kept row w' := by
  cases hs with
  | @commit writer row' hmem =>
    rcases h with h | h | h
    · exact .inl h
    · by_cases heq : (Writer.fallback, row) = (writer, row')
      · cases heq
        refine .inr (.inr ?_)
        simp only [rowsOf_insertRow]
        split_ifs with hnil
        · simp
        · exact hnil
      · exact .inr (.inl ((List.mem_erase_of_ne heq).mpr h))
    · refine .inr (.inr fun hnil => h ?_)
      by_cases hid : row'.id = row.id
      · rw [← hid] at hnil ⊢
        rw [rowsOf_insertRow] at hnil
        split_ifs at hnil
        exact hnil
      · rwa [rowsOf_insertRow_of_ne hid] at hnil
  | @lose writer row' hmem =>
    rcases h with h | h | h
    · exact .inl (List.mem_cons_of_mem _ h)
    · by_cases heq : (Writer.fallback, row) = (writer, row')
      · cases heq
        exact .inl List.mem_cons_self
      · exact .inr (.inl ((List.mem_erase_of_ne heq).mpr h))
    · exact .inr (.inr h)

theorem Kept.interferes (h : Kept row w) (hi : Interferes row.id w w') : Kept row w' := by
  obtain ⟨ht⟩ := hi
  exact h.imp_right (Or.imp_right fun h => by rwa [ht])

/-- A reply moves the world to the next phase of the detached task. -/
theorem performs_retryExpected {ψ} (hallowed : RetryAllowed c.streamSinks row ψ r)
    (hw : (retryExpected c completed row ψ).Holds c.auditId w) (hkept : ψ ≠ .ready → Kept row w)
    (hp : Performs E c.auditId .fallback r w x w') :
    (retryExpected c completed row ((retryProtocol c.streamSinks row).next ψ r x)).Holds
        c.auditId w' ∧ Kept row w' := by
  obtain ⟨hguard, hstarted, hcompleted, hstreamed, hwritten⟩ := hw
  cases hallowed with
  | insert =>
    obtain rfl := hp
    obtain ⟨hid, hrows, htable⟩ := hwritten
    refine ⟨⟨hguard, hstarted, hcompleted, hstreamed, hid, ?_, htable⟩, ?_⟩
    · simpa using hrows
    · exact .inr (.inl List.mem_cons_self)
  | insertReply =>
    obtain ⟨rfl, hack⟩ := hp
    refine ⟨?_, hkept (by simp)⟩
    cases x with
    | ok _ => exact ⟨hguard, hstarted, hcompleted, hstreamed, hwritten.acked (hack rfl)⟩
    | error err => exact ⟨hguard, hstarted, hcompleted, hstreamed, hwritten⟩
  | stream =>
    obtain rfl := hp
    exact ⟨⟨hguard, hstarted, hcompleted, by rw [hstreamed]; rfl, hwritten⟩, hkept (by simp)⟩
  | emit e =>
    obtain rfl := hp
    exact ⟨⟨hguard, hstarted, hcompleted, hstreamed, hwritten⟩, hkept (by simp)⟩

/-! ## The invariant -/

/-- Where a detached write comes from: the outcome it records, its row, and how
    the request task ended. -/
inductive Origin (c : Call) : Option Outcome → AuditRow → RequestTask Resp → Prop
  | midWork : Origin c none (finalizeDroppedRow c.pending) .dropped
  | midWrite (o : Outcome) : Origin c (some o) (c.row o) .dropped
  | refused (o : Outcome) (err : AuditError) :
      Origin c (some o) (c.row o) (.returned (auditRejected c.ext c.id err))

/-- The reachable states: the request task is running in some phase; or it ended
    before the work started; or it ended after a durable write; or it left the
    write to the detached task. -/
inductive Inv (c : Call) (early : Response → Prop) : Run Resp σ → Prop
  | running {p : DispatchProg Resp Response} {φ : Phase} {w : World σ} :
      (requestProtocol c).Obeys (RequestFinal c early) φ p → (expected c φ).Holds c.auditId w →
      Inv c early ⟨.running p, none, w⟩
  | droppedEarly {w : World σ} : (expected c .idle).Holds c.auditId w →
      Inv c early ⟨.dropped, none, w⟩
  | returnedEarly {w : World σ} {response : Response} : early response →
      (expected c .idle).Holds c.auditId w → Inv c early ⟨.returned response, none, w⟩
  | done {w : World σ} {o : Outcome} :
      (doneExpected c o).Holds c.auditId w →
      Inv c early ⟨.returned o.response, none, w⟩
  | retry {t : RequestTask Resp} {d : DispatchProg Resp Unit}
      {w : World σ} {completed : Option Outcome} {row : AuditRow} {ψ : RetryPhase} :
      Origin c completed row t → (retryProtocol c.streamSinks row).Obeys RetryFinal ψ d →
      (retryExpected c completed row ψ).Holds c.auditId w → (ψ ≠ .ready → Kept row w) →
      Inv c early ⟨t, some d, w⟩

theorem Origin.row_id (h : Origin c completed row t) :
    row.id = c.auditId := by
  cases h with
  | midWork => exact finalizeDroppedRow_id _
  | midWrite o | refused o err => rfl

/-- Dropping the guard armed with `row` leaves the write to the detached task. -/
theorem inv_leave_armed (row : AuditRow) (ht : Origin c completed (finalizeDroppedRow row) t)
    (hw : ({ guard := some { c.guard with row := some row }, started := true, completed, written } :
      Expected).Holds c.auditId w)
    (hwritten : (Written.maybe (finalizeDroppedRow row)).Holds c.auditId w) :
    Inv c early (Run.leave t none w) := by
  have hleave : Run.leave t none w = ⟨t, some (fallback c.streamSinks (finalizeDroppedRow row)),
      { w with guard := none, events := w.events ++
        if row.outcome = "" then [.toolCalls c.header.tool (finalizeDroppedRow row).outcome]
        else [] }⟩ := by
    simp only [Run.leave, hw.guard]
    rfl
  rw [hleave]
  exact .retry ht (obeys_fallback c.streamSinks _)
    ⟨rfl, hw.started, hw.completed, hw.streamed, hwritten⟩ (fun h => absurd rfl h)

theorem inv_settles (hs : Settles s.world w) (h : Inv c early s) :
    Inv c early { s with world := w } := by
  cases h with
  | running hobeys hw => exact .running hobeys (hw.settles hs)
  | droppedEarly hw => exact .droppedEarly (hw.settles hs)
  | returnedEarly he hw => exact .returnedEarly he (hw.settles hs)
  | done hw => exact .done (hw.settles hs)
  | retry ht hobeys hw hkept =>
    exact .retry ht hobeys (hw.settles hs) fun h => (hkept h).settles hs

theorem inv_interferes (hi : Interferes c.auditId s.world w) (h : Inv c early s) :
    Inv c early { s with world := w } := by
  cases h with
  | running hobeys hw => exact .running hobeys (hw.interferes hi)
  | droppedEarly hw => exact .droppedEarly (hw.interferes hi)
  | returnedEarly he hw => exact .returnedEarly he (hw.interferes hi)
  | done hw => exact .done (hw.interferes hi)
  | retry ht hobeys hw hkept =>
    exact .retry ht hobeys (hw.interferes hi) fun h => (hkept h).interferes (ht.row_id ▸ hi)

theorem inv_drop (hallowed : RequestAllowed c φ r) (hw : (expected c φ).Holds c.auditId w)
    (hr : Abandons E r w w') :
    Inv c early (Run.leave .dropped none w' : Run Resp σ) := by
  cases hallowed with
  | before r =>
    obtain ⟨env, -, rfl⟩ := hr
    have hleave : (Run.leave .dropped none { w with env } : Run Resp σ) =
        ⟨.dropped, none, { w with env }⟩ := by
      simp only [Run.leave, hw.guard, expected]
    rw [hleave]
    exact .droppedEarly ⟨hw.guard, hw.started, hw.completed, hw.streamed, hw.written⟩
  | work r =>
    obtain ⟨env, -, rfl⟩ := hr
    obtain ⟨hinflight, htable⟩ := hw.written
    refine inv_leave_armed c.pending .midWork
      ⟨hw.guard, hw.started, hw.completed, hw.streamed, hw.written⟩ ⟨?_, ?_, .inl htable⟩
    · exact finalizeDroppedRow_id _
    · simp [hinflight]
  | insertReply o =>
    obtain rfl := hr
    have hrow : finalizeDroppedRow (c.row o) = c.row o := finalizeDroppedRow_auditRow _ _ _ _ _
    refine inv_leave_armed (c.row o) ?_ hw ?_
    · rw [hrow]
      exact .midWrite o
    · rw [hrow]
      exact hw.written
  | _ => exact hr.elim

theorem inv_finish {response : Response} (hfinal : RequestFinal c early φ response)
    (hw : (expected c φ).Holds c.auditId w) :
    Inv c early (Run.leave (.returned response) none w : Run Resp σ) := by
  cases φ with
  | idle =>
    have hleave : (Run.leave (.returned response) none w : Run Resp σ) =
        ⟨.returned response, none, w⟩ := by
      simp only [Run.leave, hw.guard, expected]
    rw [hleave]
    exact .returnedEarly hfinal hw
  | refused o err =>
    obtain rfl := hfinal
    have hrow : finalizeDroppedRow (c.row o) = c.row o := finalizeDroppedRow_auditRow _ _ _ _ _
    refine inv_leave_armed (c.row o) ?_ hw ?_
    · rw [hrow]
      exact .refused o err
    · rw [hrow]
      exact hw.written
  | disarmed o =>
    obtain rfl := hfinal
    have hleave : (Run.leave (.returned o.response) none w : Run Resp σ) =
        ⟨.returned o.response, none, { w with guard := none, events := w.events ++ [] }⟩ := by
      simp only [Run.leave, hw.guard, expected]
      rfl
    rw [hleave]
    exact .done ⟨rfl, hw.started, hw.completed, hw.streamed, hw.written⟩
  | _ => exact hfinal.elim

theorem performs_replies {writer : Writer} (hp : Performs E auditId writer r w x w') :
    Replies auditId r x := by
  cases r with
  | newUuid => exact hp.1
  | _ => trivial

theorem inv_step {s' : Run Resp σ} (hstep : Step E c.auditId s s') (h : Inv c early s) :
    Inv c early s' := by
  cases hstep with
  | interfere hi => exact inv_interferes hi h
  | progress hp =>
    cases hp with
    | settle hs => exact inv_settles hs h
    | reply hp =>
      cases h with
      | running hobeys hw =>
        exact .running (hobeys.2 _ (performs_replies hp)) (performs_expected hobeys.1 hw hp)
      | retry ht => cases ht
    | drop hr =>
      cases h with
      | running hobeys hw => exact inv_drop hobeys.1 hw hr
      | retry ht => cases ht
    | finish =>
      cases h with
      | running hobeys hw => exact inv_finish hobeys hw
      | retry ht => cases ht
    | detached hp =>
      cases h with
      | retry ht hobeys hw hkept =>
        obtain ⟨hw', hkept'⟩ := performs_retryExpected hobeys.1 hw hkept hp
        exact .retry ht (hobeys.2 _ trivial) hw' fun _ => hkept'

/-- Every state of every run satisfies the invariant. -/
theorem inv_steps {program : DispatchProg Resp Response} {table : List AuditRow} {env : σ}
    (hprogram : (requestProtocol c).Obeys (RequestFinal c early) .idle program)
    (hfresh : rowsOf c.auditId table = [])
    (hs : Steps E c.auditId (Run.start program table env) s) : Inv c early s := by
  induction hs with
  | refl => exact .running hprogram ⟨rfl, rfl, rfl, rfl, rfl, hfresh⟩
  | tail _ hstep ih => exact inv_step hstep ih

end

end DbMcpGateway.Tools
