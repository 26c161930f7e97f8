import DbMcpGateway.Async.Trail
import DbMcpGateway.Tools.AuditGuarantee

/-!
# The work under audit

What the chokepoint owes to the work it runs. The environment keeps a record of
what the work has asked of it (`Env.recording`): the outcome of the work is what
the work yields after these exchanges, and the work is started with its first
request. The chokepoint writes neither.

Results:

* `tied_steps`: in every run the chokepoint asks only what the work asks, only
  with the guard armed, and the outcome it records is that of the work.
* `auditDispatch_audited`: no unaudited success, at most one row, the real
  outcome, at most one fan-out and only of a durable row, and exactly one row in
  the end if the state DB keeps the detached insert.
-/

namespace DbMcpGateway.Tools

open Async Async.Prog Audit Authz Config Transport
open Relation.ReflTransGen (head)

section

variable {Req : Type} {Resp : Req → Type} {σ : Type}

/-! ## The record of the work -/

/-- The state of an environment, with what the work has asked of it: the requests
    that were answered, and the one that was abandoned. -/
structure Recorded (Req : Type) (Resp : Req → Type) (σ : Type) where
  env : σ
  exchanged : List (Exchange Req Resp) := []
  abandoned : Option Req := none

/-- The environment, keeping the record. -/
def Env.recording (E : Env Req Resp σ) : Env Req Resp (Recorded Req Resp σ) where
  answers r e x e' := E.answers r e.env x e'.env ∧
    e'.exchanged = e.exchanged ++ [⟨r, x⟩] ∧ e'.abandoned = e.abandoned
  abandons r e e' := E.abandons r e.env e'.env ∧
    e'.exchanged = e.exchanged ∧ e'.abandoned = some r

/-- The work has made a request, which is answered, pending or abandoned. -/
def Run.HasAsked (s : Run Resp (Recorded Req Resp σ)) : Prop :=
  s.world.env.exchanged ≠ [] ∨ s.AwaitsWork ∨ s.world.env.abandoned ≠ none

/-- What the audit owes to the work of a call, in every state of a run. -/
structure AuditedWork (c : Call) (stateDb : Bool) (work : Prog Req Resp Outcome)
    (s : Run Resp (Recorded Req Resp σ)) : Prop where
  /-- What is asked is what the work asks. -/
  exchanged : (∃ r, work.Issues s.world.env.exchanged r) ∨ ∃ o, work.Yields s.world.env.exchanged o
  /-- The response of the work is returned only with a durable row of its outcome;
      any other response is an error of the chokepoint. -/
  response : ∀ response, s.task = .returned response →
    (∃ o, work.Yields s.world.env.exchanged o ∧ response = o.response ∧
      ∃ row ∈ s.world.table, row.id = c.auditId ∧ row.outcome = o.code.text) ∨
    Unavailable c stateDb response ∨ ∃ err, response = auditRejected c.ext c.id err
  /-- There is at most one row. -/
  atMostOne : (rowsOf c.auditId s.world.table).length ≤ 1
  /-- If the work has returned, the row has its outcome. -/
  outcome : ∀ o, work.Yields s.world.env.exchanged o → ∀ row ∈ s.world.table,
    row.id = c.auditId → row.outcome = o.code.text ∧ row.outcome ≠ "cancelled"
  /-- Each sink is handed the row at most once, and only a durable one. -/
  streamed : s.world.streamed = [] ∨ ∃ row ∈ s.world.table, row.id = c.auditId ∧
    s.world.streamed = c.streamSinks.map fun sink => (sink, row)
  /-- The work is started only with a state DB. -/
  started : s.HasAsked → stateDb = true
  /-- With a state DB there is exactly one row when all is done, wherever the work
      was abandoned, if the state DB did not lose the detached insert. -/
  exactlyOne : s.Quiescent → stateDb = true → .fallback ∉ s.world.lost →
    ∃ row, rowsOf c.auditId s.world.table = [row]

/-! ## The protocol of the work -/

/-- How far the work has come. -/
inductive WorkPhase (Req : Type) (Resp : Req → Type)
  | unstarted
  | working (es : List (Exchange Req Resp))
  | finished (es : List (Exchange Req Resp)) (o : Outcome)

/-- The requests of the chokepoint after the work. -/
def DispatchReq.AfterWork : DispatchReq Req → Prop
  | .disarm | .emit _ | .insert _ | .insertReply _ | .streamSend _ _ => True
  | _ => False

/-- What may be asked in each phase: the guard is armed before the work asks
    anything, and records what the work yields. -/
inductive WorkAllowed (stateDb : Bool) (work : Prog Req Resp Outcome) :
    WorkPhase Req Resp → DispatchReq Req → Prop
  | emit {event} : WorkAllowed stateDb work .unstarted (.emit event)
  | name : WorkAllowed stateDb work .unstarted .newUuid
  | arm {guard} : stateDb = true →
      WorkAllowed stateDb work .unstarted (.armGuard guard)
  | asks {es r} : work.Issues es r →
      WorkAllowed stateDb work (.working es) (.tool r)
  | record {es o} : work.Yields es o →
      WorkAllowed stateDb work (.working es) (.recordOutcome o)
  | after {es o r} : r.AfterWork →
      WorkAllowed stateDb work (.finished es o) r

def workProtocol (stateDb : Bool) (work : Prog Req Resp Outcome) :
    Protocol (DispatchReq Req) (DispatchResp Resp) (WorkPhase Req Resp) where
  replies _ _ := True
  allowed := WorkAllowed stateDb work
  next
    | .unstarted, .armGuard _, _ => .working []
    | .working es, .tool r, x => .working (es ++ [⟨r, x⟩])
    | .working es, .recordOutcome o, _ => .finished es o
    | φ, _, _ => φ

/-- Where the request task may return. -/
def WorkFinal (stateDb : Bool) : WorkPhase Req Resp → Response → Prop
  | .unstarted, _ => stateDb = false
  | .working _, _ => False
  | .finished _ _, _ => True

variable {stateDb : Bool} {work q : Prog Req Resp Outcome} {es : List (Exchange Req Resp)}
  {o : Outcome}

theorem obeys_liftWork {final : WorkPhase Req Resp → Outcome → Prop} (h : work.Reaches es q)
    (hfinal : ∀ es o, work.Yields es o → final (.working es) o) :
    (workProtocol stateDb work).Obeys final (.working es) (liftWork q) := by
  -- along the rest of the work, which the exchanges have reached
  induction q generalizing es with
  | ret o => exact hfinal es o h.yields
  | await r k ih => exact ⟨.asks h.issues, fun x _ => ih x (h.concat x)⟩

theorem obeys_finishDispatch_work (c : Call) (h : work.Yields es o) :
    (workProtocol stateDb work).Obeys (WorkFinal stateDb) (.working es)
      (finishDispatch c.ext c.id c.identity c.requestCtx c.header c.streamSinks c.auditId o) := by
  refine ⟨.record h, fun _ _ => ⟨.after trivial, fun _ _ => ?_⟩⟩
  refine Protocol.Obeys.bind (p := emitDuration c.header.tool o.elapsedMs)
    (obeys_emitDuration (fun _ => .after trivial) (fun _ _ => rfl) ?_)
  refine ⟨.after trivial, fun _ _ => ⟨.after trivial, fun _ _ => ⟨.after trivial, ?_⟩⟩⟩
  rintro (err | _) -
  · exact ⟨.after trivial, fun _ _ => ⟨.after trivial, fun _ _ => trivial⟩⟩
  · exact ⟨.after trivial, fun _ _ =>
      ⟨.after trivial, fun _ _ => ⟨.after trivial, fun _ _ => trivial⟩⟩⟩

theorem obeys_auditDispatch_work (c : Call) (stateDb : Bool) (work : Prog Req Resp Outcome) :
    (workProtocol stateDb work).Obeys (WorkFinal stateDb) .unstarted
      (auditDispatch c.ext c.id c.identity stateDb c.requestCtx c.header c.streamSinks work) := by
  cases stateDb with
  | false => exact ⟨.emit, fun _ _ => ⟨.emit, fun _ _ => rfl⟩⟩
  | true =>
    refine ⟨.name, fun auditId _ => ⟨.arm rfl, fun _ _ => ?_⟩⟩
    refine Protocol.Obeys.bind (p := liftWork work) (obeys_liftWork .refl ?_)
    intro es o hyields
    exact obeys_finishDispatch_work { c with auditId } hyields

/-! ## The invariant of the record -/

/-- What the guard and the environment know about the work: whether it was
    started, the outcome recorded, the exchanges and the abandoned request. -/
abbrev WorkSeen (Req : Type) (Resp : Req → Type) : Type :=
  Bool × Option Outcome × List (Exchange Req Resp) × Option Req

def World.seen (w : World (Recorded Req Resp σ)) : WorkSeen Req Resp :=
  (w.started, w.completed, w.env.exchanged, w.env.abandoned)

/-- What is known in each phase. -/
def WorkPhase.seen : WorkPhase Req Resp → WorkSeen Req Resp
  | .unstarted => (false, none, [], none)
  | .working es => (true, none, es, none)
  | .finished es o => (true, some o, es, none)

/-- A phase that runs of `work` come to. -/
def WorkPhase.Valid (stateDb : Bool) (work : Prog Req Resp Outcome) : WorkPhase Req Resp → Prop
  | .unstarted => True
  | .working _ => stateDb = true
  | .finished es o => stateDb = true ∧ work.Yields es o

/-- How the request task ends, and what is known then. -/
inductive WorkEnded (stateDb : Bool) (work : Prog Req Resp Outcome) :
    RequestTask Resp → WorkSeen Req Resp → Prop
  | refused {response : Response} : stateDb = false →
      WorkEnded stateDb work (.returned response) (false, none, [], none)
  | abandoned {es : List (Exchange Req Resp)} {r : Req} : stateDb = true → work.Issues es r →
      WorkEnded stateDb work .dropped (true, none, es, some r)
  | dropped {es : List (Exchange Req Resp)} {o : Outcome} : stateDb = true → work.Yields es o →
      WorkEnded stateDb work .dropped (true, some o, es, none)
  | returned {es : List (Exchange Req Resp)} {o : Outcome} {response : Response} :
      stateDb = true → work.Yields es o →
      WorkEnded stateDb work (.returned response) (true, some o, es, none)

inductive Tied (stateDb : Bool) (work : Prog Req Resp Outcome) :
    Run Resp (Recorded Req Resp σ) → Prop
  | running {p : DispatchProg Resp Response} {φ : WorkPhase Req Resp}
      {d : Option (DispatchProg Resp Unit)} {w : World (Recorded Req Resp σ)} :
      (workProtocol stateDb work).Obeys (WorkFinal stateDb) φ p → φ.Valid stateDb work →
      w.seen = φ.seen → Tied stateDb work ⟨.running p, d, w⟩
  | ended {t : RequestTask Resp} {d} {w : World (Recorded Req Resp σ)} :
      WorkEnded stateDb work t w.seen → Tied stateDb work ⟨t, d, w⟩

variable {E : Env Req Resp σ} {c : Call} {auditId : Uuid} {writer : Writer}
  {φ : WorkPhase Req Resp} {r : DispatchReq Req} {x : DispatchResp Resp r} {row : AuditRow}
  {w w' : World (Recorded Req Resp σ)} {d d' : Option (DispatchProg Resp Unit)}
  {t : RequestTask Resp} {s s' : Run Resp (Recorded Req Resp σ)} {early : Response → Prop}

theorem WorkAllowed.valid_next (h : WorkAllowed stateDb work φ r) (hvalid : φ.Valid stateDb work) :
    ((workProtocol stateDb work).next φ r x).Valid stateDb work := by
  cases h with
  | emit | name => trivial
  | arm hdb => exact hdb
  | asks | after => exact hvalid
  | record hyields => exact ⟨hvalid, hyields⟩

/-- A reply to the request task moves the record to the next phase. -/
theorem performs_seen (h : WorkAllowed stateDb work φ r) (hw : w.seen = φ.seen)
    (hp : Performs E.recording auditId writer r w x w') :
    w'.seen = ((workProtocol stateDb work).next φ r x).seen := by
  simp only [World.seen, WorkPhase.seen, Prod.ext_iff] at hw ⊢
  cases h with
  | emit =>
    obtain rfl := hp
    exact hw
  | name =>
    obtain ⟨-, rfl⟩ := hp
    exact hw
  | arm =>
    obtain rfl := hp
    exact ⟨rfl, hw.2⟩
  | asks =>
    obtain ⟨env, ⟨-, hexchanged, habandoned⟩, rfl⟩ := hp
    obtain ⟨hstarted, hcompleted, hes, hnone⟩ := hw
    refine ⟨hstarted, hcompleted, ?_, habandoned.trans hnone⟩
    show env.exchanged = _
    rw [hexchanged, hes]
    rfl
  | record =>
    obtain rfl := hp
    exact ⟨hw.1, rfl, hw.2.2⟩
  | @after es o r hr =>
    cases r with
    | tool | newUuid | armGuard | recordOutcome => exact hr.elim
    | insertReply =>
      obtain ⟨rfl, -⟩ := hp
      exact hw
    | disarm | emit | insert | streamSend =>
      obtain rfl := hp
      exact hw

/-- The detached task knows nothing of the work. -/
theorem RetryAllowed.seen {sinks ψ}
    (h : RetryAllowed sinks row ψ r) (hp : Performs E.recording auditId writer r w x w') :
    w'.seen = w.seen := by
  cases h with
  | insert | stream | emit =>
    obtain rfl := hp
    rfl
  | insertReply =>
    obtain ⟨rfl, -⟩ := hp
    rfl

theorem Settles.seen (h : Settles w w') : w'.seen = w.seen := by
  cases h <;> rfl

theorem Tied.of_seen (h : Tied stateDb work ⟨t, d, w⟩) (hw : w'.seen = w.seen) :
    Tied stateDb work ⟨t, d', w'⟩ := by
  cases h with
  | running hobeys hvalid hphase => exact .running hobeys hvalid (hw.trans hphase)
  | ended h => exact .ended (hw ▸ h)

theorem tied_leave (h : WorkEnded stateDb work t w.seen) : Tied stateDb work (Run.leave t d w) := by
  unfold Run.leave
  cases w.guard with
  | none | some guard => exact .ended h

theorem workEnded_drop (h : WorkAllowed stateDb work φ r) (hvalid : φ.Valid stateDb work)
    (hw : w.seen = φ.seen) (hr : Abandons E.recording r w w') :
    WorkEnded stateDb work .dropped w'.seen := by
  cases h with
  | asks hissues =>
    obtain ⟨env, ⟨-, hexchanged, habandoned⟩, rfl⟩ := hr
    simp only [World.seen, WorkPhase.seen, Prod.ext_iff] at hw
    obtain ⟨hstarted, hcompleted, hes, -⟩ := hw
    show WorkEnded _ _ _ (w.started, w.completed, env.exchanged, env.abandoned)
    rw [hstarted, hcompleted, hexchanged, hes, habandoned]
    exact .abandoned hvalid hissues
  | @after es o r hafter =>
    cases r with
    | insertReply =>
      obtain rfl := hr
      rw [hw]
      exact .dropped hvalid.1 hvalid.2
    | tool => exact hafter.elim
    | _ => exact hr.elim
  | _ => exact hr.elim

theorem tied_step (hstep : Step E.recording c.auditId s s') (hinv : Inv c early s)
    (h : Tied stateDb work s) : Tied stateDb work s' := by
  cases hstep with
  | interfere hi =>
    obtain ⟨ht⟩ := hi
    exact h.of_seen rfl
  | progress hp =>
    cases hp with
    | settle hs => exact h.of_seen hs.seen
    | reply hp =>
      cases h with
      | running hobeys hvalid hw =>
        exact .running (hobeys.2 _ trivial) (hobeys.1.valid_next hvalid)
          (performs_seen hobeys.1 hw hp)
      | ended h => cases h
    | drop hr =>
      cases h with
      | running hobeys hvalid hw => exact tied_leave (workEnded_drop hobeys.1 hvalid hw hr)
      | ended h => cases h
    | @finish response d w =>
      cases h with
      | @running _ φ _ _ hfinal hvalid hw =>
        apply tied_leave
        rw [hw]
        cases φ with
        | unstarted => exact .refused hfinal
        | working es => exact hfinal.elim
        | finished es o => exact .returned hvalid.1 hvalid.2
      | ended h => cases h
    | detached hp =>
      cases hinv with
      | retry _ hobeys _ _ => exact h.of_seen (hobeys.1.seen hp)

theorem tied_steps {table : List AuditRow} {env : σ} (hfresh : rowsOf c.auditId table = [])
    (hs : Steps E.recording c.auditId (Run.start (auditDispatch c.ext c.id c.identity stateDb
      c.requestCtx c.header c.streamSinks work) table { env }) s) : Tied stateDb work s := by
  induction hs with
  | refl => exact .running (obeys_auditDispatch_work c stateDb work) trivial rfl
  | tail hs hstep ih =>
    exact tied_step hstep (inv_steps (obeys_auditDispatch c stateDb work) hfresh hs) ih

/-! ## No unaudited success -/

/-- What the record tells about the work. -/
structure Known (stateDb : Bool) (work : Prog Req Resp Outcome) (t : RequestTask Resp)
    (v : WorkSeen Req Resp) : Prop where
  exchanged : (∃ r, work.Issues v.2.2.1 r) ∨ ∃ o, work.Yields v.2.2.1 o
  completed : ∀ o, v.2.1 = some o → work.Yields v.2.2.1 o
  dropped : t = .dropped → v.2.1 = none → ∃ r, work.Issues v.2.2.1 r
  started : v.2.2.1 ≠ [] ∨ (∃ r k, t = .running (await (.tool r) k)) ∨ v.2.2.2 ≠ none →
    stateDb = true
  ended : (∀ p, t ≠ .running p) → stateDb = true → v.1 = true

theorem issues_or_yields_nil (work : Prog Req Resp Outcome) :
    (∃ r, work.Issues [] r) ∨ ∃ o, work.Yields [] o := by
  cases work with
  | ret o => exact .inr ⟨o, rfl, rfl⟩
  | await r k => exact .inl ⟨r, .inl ⟨rfl, rfl⟩⟩

theorem WorkEnded.known {v : WorkSeen Req Resp} (h : WorkEnded stateDb work t v) :
    Known stateDb work t v := by
  cases h with
  | refused hdb =>
    refine ⟨issues_or_yields_nil work, by simp, by simp, by simp, fun _ h => ?_⟩
    cases hdb.symm.trans h
  | @abandoned es r hdb hissues =>
    exact ⟨.inl ⟨r, hissues⟩, by simp, fun _ _ => ⟨r, hissues⟩, fun _ => hdb, fun _ _ => rfl⟩
  | dropped hdb hyields | returned hdb hyields =>
    refine ⟨.inr ⟨_, hyields⟩, ?_, by simp, fun _ => hdb, fun _ _ => rfl⟩
    rintro _ ⟨⟩
    exact hyields

theorem known_running {p} (hobeys : (workProtocol stateDb work).Obeys (WorkFinal stateDb) φ p)
    (hvalid : φ.Valid stateDb work) : Known stateDb work (.running p) φ.seen := by
  cases φ with
  | unstarted =>
    refine ⟨issues_or_yields_nil work, by simp [WorkPhase.seen], by simp, ?_, by simp⟩
    rintro (h | ⟨r, k, h⟩ | h)
    · exact absurd rfl h
    · cases h
      cases hobeys.1
    · exact absurd rfl h
  | working es =>
    refine ⟨?_, by simp [WorkPhase.seen], by simp, fun _ => hvalid, by simp⟩
    -- the task is at a request of the work, or records what the work has yielded
    cases p with
    | ret response => exact hobeys.elim
    | await r k =>
      cases hobeys.1 with
      | asks hissues => exact .inl ⟨_, hissues⟩
      | record hyields => exact .inr ⟨_, hyields⟩
  | finished es o =>
    refine ⟨.inr ⟨o, hvalid.2⟩, ?_, by simp, fun _ => hvalid.1, by simp⟩
    rintro _ ⟨⟩
    exact hvalid.2

theorem Tied.known (h : Tied stateDb work s) : Known stateDb work s.task s.world.seen := by
  cases h with
  | running hobeys hvalid hw =>
    show Known _ _ _ (World.seen _)
    rw [hw]
    exact known_running hobeys hvalid
  | ended h => exact h.known

theorem Inv.recorded_or_dropped (h : Inv c early s) (hmem : row ∈ s.world.table)
    (hid : row.id = c.auditId) : (∃ o, s.world.completed = some o) ∨ s.task = .dropped := by
  have hnothing : Written.nothing.Holds c.auditId s.world → False := by
    intro hw
    have hrows : row ∈ rowsOf c.auditId s.world.table := mem_rowsOf.mpr ⟨hmem, hid⟩
    rw [hw.2] at hrows
    cases hrows
  cases h with
  | @running p φ w hobeys hw =>
    cases φ with
    | idle | named | armed => exact (hnothing hw.written).elim
    | recorded o | sent o | acked o | refused o | streamed o | disarmed o =>
      exact .inl ⟨o, hw.completed⟩
  | droppedEarly => exact .inr rfl
  | returnedEarly _ hw => exact (hnothing hw.written).elim
  | @done w o hw => exact .inl ⟨o, hw.completed⟩
  | @retry t d w completed row' ψ ht _ hw _ =>
    have hcompleted : w.completed = completed := by
      rw [hw.completed]
      cases ψ <;> rfl
    cases ht with
    | midWork => exact .inr rfl
    | midWrite o | refused o err => exact .inl ⟨o, hcompleted⟩

theorem auditedWork_of_inv (hinv : Inv c (Unavailable c stateDb) s) (h : Tied stateDb work s) :
    AuditedWork c stateDb work s := by
  have haudited := audited_of_inv hinv
  have hknown := h.known
  refine ⟨hknown.exchanged, ?_, haudited.atMostOne, ?_, haudited.streamed, hknown.started, ?_⟩
  · intro response htask
    refine (haudited.response response htask).imp_left ?_
    rintro ⟨o, ho, hresponse, hrow⟩
    exact ⟨o, hknown.completed o ho, hresponse, hrow⟩
  · intro o ho row hmem hid
    rcases hcompleted : s.world.completed with _ | o'
    · -- the call was dropped at a request of the work, which has then not returned
      rcases hinv.recorded_or_dropped hmem hid with ⟨o', ho'⟩ | hdropped
      · cases hcompleted.symm.trans ho'
      · obtain ⟨r, hissues⟩ := hknown.dropped hdropped hcompleted
        exact absurd ho hissues.not_yields
    · obtain rfl : o = o' := ho.unique (hknown.completed o' hcompleted) (List.prefix_refl _)
        (List.prefix_refl _)
      exact haudited.outcome o hcompleted row hmem hid
  · intro hq hdb
    exact haudited.exactlyOne hq (hknown.ended hq.task hdb)

/-- **No unaudited success.** In every state of every run of `audit_dispatch`, for
    every work and every behaviour of its environment, of the state DB and of
    other calls, and wherever the future is dropped, the work is audited as it
    should be; every run of the call ends; and none ends before all is done, unless
    the work is left waiting. -/
theorem auditDispatch_audited (E : Env Req Resp σ) (c : Call) (stateDb : Bool)
    (work : Prog Req Resp Outcome) (table : List AuditRow) (env : σ)
    (hfresh : rowsOf c.auditId table = []) :
    (∀ s, Steps E.recording c.auditId (Run.start (auditDispatch c.ext c.id c.identity stateDb
        c.requestCtx c.header c.streamSinks work) table { env }) s →
        AuditedWork c stateDb work s ∧
          (s.Quiescent ∨ s.AwaitsWork ∨ ∃ s', Progress E.recording c.auditId s s')) ∧
      WellFounded fun s' s : Run Resp (Recorded Req Resp σ) =>
        ∃ w, (w = s.world ∨ Interferes c.auditId s.world w) ∧
          Progress E.recording c.auditId { s with world := w } s' := by
  refine ⟨fun s hs => ?_, progress_wf E.recording c.auditId⟩
  have hinv := inv_steps (obeys_auditDispatch c stateDb work) hfresh hs
  exact ⟨auditedWork_of_inv hinv (tied_steps hfresh hs), hinv.continues E.recording⟩

end

def timedOut : Outcome := errorOutcome plainExtern (.int 1) .timeout "query timed out"

/-- A work that asks once, and succeeds or fails by the reply. -/
def askingWork : Prog Unit (fun _ => Bool) Outcome :=
  await () fun ok => ret (if ok then plainOutcome else timedOut)

def askingEnv : Env Unit (fun _ => Bool) Unit where
  answers _ _ _ _ := True
  abandons _ _ _ := True

/-- The theorem in two runs. The work fails, and the primary insert times out and
    commits anyway: the detached insert finds the row, and streams it. The work is
    abandoned: the detached insert writes the row. -/
theorem auditDispatch_audited_lateCommit :
    (∃ s : Run (fun _ : Unit => Bool) (Recorded Unit _ Unit),
      AuditedWork plainCall true askingWork s ∧
      s.task = .returned (auditRejected plainExtern (.int 1) .timeout) ∧
      s.world.env.exchanged = [⟨(), false⟩] ∧ .fallback ∉ s.world.lost ∧
      s.world.streamed = [(.stdout, plainCall.row timedOut)]) ∧
    ∃ s : Run (fun _ : Unit => Bool) (Recorded Unit _ Unit),
      AuditedWork plainCall true askingWork s ∧
      s.task = .dropped ∧ s.world.env.abandoned = some () ∧ .fallback ∉ s.world.lost ∧
      s.world.table = [finalizeDroppedRow plainCall.pending] := by
  constructor
  · apply Exists.intro
    apply And.intro
    · apply And.left
      apply (auditDispatch_audited askingEnv plainCall true askingWork [] () rfl).1
      apply Steps.reply .newUuid 7 ⟨rfl, rfl⟩
      apply Steps.reply (.armGuard _) () rfl
      apply Steps.reply (E := askingEnv.recording) (.tool ()) false
        ⟨⟨(), [⟨(), false⟩], none⟩, ⟨trivial, rfl, rfl⟩, rfl⟩
      apply Steps.reply (.recordOutcome _) () rfl
      apply Steps.reply (.emit _) () rfl
      apply Steps.reply (.emit _) () rfl
      apply Steps.reply (.insert _) () rfl
      apply Steps.reply (.insertReply _) (.error .timeout) ⟨rfl, nofun⟩
      apply Steps.reply (.emit _) () rfl
      apply Steps.reply (.emit _) () rfl
      apply head (.progress .finish)
      apply Steps.settle (.commit List.mem_cons_self)
      apply Steps.detached (.insert _) () rfl
      apply Steps.settle (.commit List.mem_cons_self)
      apply Steps.detached (.insertReply _) (.ok ()) ⟨rfl, fun _ => by decide⟩
      apply Steps.detached (.streamSend _ _) () rfl
      exact .refl
    · exact ⟨rfl, rfl, List.not_mem_nil, rfl⟩
  · apply Exists.intro
    apply And.intro
    · apply And.left
      apply (auditDispatch_audited askingEnv plainCall true askingWork [] () rfl).1
      apply Steps.reply .newUuid 7 ⟨rfl, rfl⟩
      apply Steps.reply (.armGuard _) () rfl
      apply head (.progress (.drop (r := .tool ()) ⟨⟨(), [], some ()⟩, ⟨trivial, rfl, rfl⟩, rfl⟩))
      apply Steps.detached (.insert _) () rfl
      apply Steps.settle (.commit List.mem_cons_self)
      exact .refl
    · exact ⟨rfl, rfl, List.not_mem_nil, rfl⟩

end DbMcpGateway.Tools
