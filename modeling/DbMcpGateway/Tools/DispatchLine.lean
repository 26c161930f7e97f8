import DbMcpGateway.Tools.AuditGuarantee

/-!
# The dispatch line and the count of a call

`audit_dispatch` counts the call in `tool_calls` and writes the line "tool dispatched" when the
work is done; a guard that is dropped during the work counts the call as cancelled, and writes
no line. What has been recorded is fixed by how far the request task has come (`recorded`), and
the detached task records nothing.

Results:

* `lineInv_steps`: the records in every state of every run.
* `oneRecord_iff`: a call that ended has one count and one line, with the outcome of its row,
  exactly if it was not dropped during its work.
-/

namespace DbMcpGateway.Tools

open Async Async.Prog Audit Authz Config Transport
open Relation.ReflTransGen (head)

/-! ## Records -/

inductive Record
  | count (tool : Tool) (outcome : String)
  | line (call : CallLabel) (outcome : String)
  deriving DecidableEq

def Event.record : Event → Option Record
  | .toolCalls tool outcome => some (.count tool outcome)
  | .dispatched call outcome _ => some (.line call outcome)
  | _ => none

/-- The counts and dispatch lines among the events. -/
def records (events : List Event) : List Record := events.filterMap Event.record

@[simp] theorem records_append (events events' : List Event) :
    records (events ++ events') = records events ++ records events' :=
  List.filterMap_append

def Call.label (c : Call) : CallLabel := callLabel c.identity c.requestCtx c.header

def Call.count (c : Call) (outcome : String) : Record := .count c.header.tool outcome

def Call.line (c : Call) (outcome : String) : Record := .line c.label outcome

section

variable {Req : Type} {Resp : Req → Type} {σ : Type}

/-! ## The protocol -/

/-- How far the request task has come with its records. -/
inductive LinePhase
  | idle
  /-- Without a state DB: counted, and done. -/
  | refusing
  | refused
  | working
  | completed (o : Outcome)
  | counted (o : Outcome)
  | lined (o : Outcome)

/-- What the request task may ask in each phase. -/
inductive LineAllowed (c : Call) : LinePhase → DispatchReq Req → Prop
  | countRefused : LineAllowed c .idle (.emit (.toolCalls c.header.tool "unavailable"))
  | lineRefused : LineAllowed c .refusing (.emit (.dispatched c.label "unavailable" 0))
  | name : LineAllowed c .idle .newUuid
  | arm : LineAllowed c .idle (.armGuard c.guard)
  | work (r : Req) : LineAllowed c .working (.tool r)
  | record (o : Outcome) : LineAllowed c .working (.recordOutcome o)
  | count (o : Outcome) : LineAllowed c (.completed o) (.emit (.toolCalls c.header.tool o.code.text))
  | duration (o : Outcome) (ms : ℕ) :
      LineAllowed c (.counted o) (.emit (.queryDuration c.header.tool ms))
  | line (o : Outcome) (ms : ℕ) : LineAllowed c (.counted o) (.emit (.dispatched c.label o.code.text ms))
  | insert (o : Outcome) (row : AuditRow) : LineAllowed c (.lined o) (.insert row)
  | insertReply (o : Outcome) (row : AuditRow) : LineAllowed c (.lined o) (.insertReply row)
  | emit (o : Outcome) {e : Event} : e.record = none → LineAllowed c (.lined o) (.emit e)
  | stream (o : Outcome) (sinks : List StreamSinkConfig) (row : AuditRow) :
      LineAllowed c (.lined o) (.streamSend sinks row)
  | disarm (o : Outcome) : LineAllowed c (.lined o) .disarm

def lineProtocol (c : Call) : Protocol (DispatchReq Req) (DispatchResp Resp) LinePhase where
  replies := Replies c.auditId
  allowed := LineAllowed c
  next
    | .idle, .emit _, _ => .refusing
    | .refusing, .emit _, _ => .refused
    | .idle, .armGuard _, _ => .working
    | .working, .recordOutcome o, _ => .completed o
    | .completed o, .emit _, _ => .counted o
    | .counted o, .emit (.dispatched _ _ _), _ => .lined o
    | φ, _, _ => φ

/-- Where the request task may return. -/
def LineFinal : LinePhase → Response → Prop
  | .refused, _ => True
  | .lined _, _ => True
  | _, _ => False

theorem line_finishDispatch (c : Call) (o : Outcome) :
    (lineProtocol c).Obeys LineFinal .working
      (finishDispatch c.ext c.id c.identity c.requestCtx c.header c.streamSinks c.auditId o :
        DispatchProg Resp Response) := by
  refine ⟨.record o, fun _ _ => ⟨.count o, fun _ _ => ?_⟩⟩
  refine Protocol.Obeys.bind (p := emitDuration c.header.tool o.elapsedMs)
    (obeys_emitDuration (fun ms => .duration o ms) (fun _ _ => rfl) ?_)
  refine ⟨.line o _, fun _ _ => ⟨.insert o _, fun _ _ => ⟨.insertReply o _, ?_⟩⟩⟩
  rintro (err | _) -
  · exact ⟨.emit o rfl, fun _ _ => ⟨.emit o rfl, fun _ _ => trivial⟩⟩
  · exact ⟨.emit o rfl, fun _ _ => ⟨.stream o _ _, fun _ _ => ⟨.disarm o, fun _ _ => trivial⟩⟩⟩

theorem line_auditDispatch (c : Call) (stateDb : Bool) (work : Prog Req Resp Outcome) :
    (lineProtocol c).Obeys LineFinal .idle
      (auditDispatch c.ext c.id c.identity stateDb c.requestCtx c.header c.streamSinks work) := by
  cases stateDb with
  | false => exact ⟨.countRefused, fun _ _ => ⟨.lineRefused, fun _ _ => trivial⟩⟩
  | true =>
    refine ⟨.name, ?_⟩
    rintro _ rfl
    refine ⟨.arm, fun _ _ => ?_⟩
    refine Protocol.Obeys.bind (p := liftWork work) ?_
    exact Protocol.obeys_embed LineAllowed.work (fun _ _ => rfl) work (line_finishDispatch c)

/-- What the detached task may ask: nothing that records. -/
inductive Quiet : DispatchReq Req → Prop
  | insert (row : AuditRow) : Quiet (.insert row)
  | insertReply (row : AuditRow) : Quiet (.insertReply row)
  | stream (sinks : List StreamSinkConfig) (row : AuditRow) : Quiet (.streamSend sinks row)
  | emit {e : Event} : e.record = none → Quiet (.emit e)

/-- The protocol of the detached task. -/
def quietProtocol : Protocol (DispatchReq Req) (DispatchResp Resp) Unit :=
  .always (fun _ _ => True) Quiet

theorem quiet_fallback (sinks : List StreamSinkConfig) (row : AuditRow) :
    quietProtocol.Obeys (fun _ _ => True) () (fallback sinks row : DispatchProg Resp Unit) := by
  refine ⟨.insert row, fun _ _ => ⟨.insertReply row, ?_⟩⟩
  rintro (err | _) -
  · exact ⟨.emit rfl, fun _ _ => trivial⟩
  · exact ⟨.stream sinks row, fun _ _ => trivial⟩

/-! ## The invariant -/

def recorded (c : Call) : LinePhase → List Record
  | .idle | .working | .completed _ => []
  | .refusing => [c.count "unavailable"]
  | .refused => [c.count "unavailable", c.line "unavailable"]
  | .counted o => [c.count o.code.text]
  | .lined o => [c.count o.code.text, c.line o.code.text]

/-- What is known of the work and of the guard in each phase. -/
def LinePhase.Holds (c : Call) (w : World σ) : LinePhase → Prop
  | .idle | .refusing | .refused => w.completed = none ∧ w.started = false ∧ w.guard = none
  | .working => w.completed = none ∧ w.guard = some c.guard
  | .completed o | .counted o | .lined o => w.completed = some o ∧
      ∃ guard, w.guard = some guard ∧ ∀ row, guard.row = some row → row.outcome ≠ ""

inductive Ended (c : Call) (w : World σ) : RequestTask Resp → Prop
  | refused {response} : w.completed = none → w.started = false →
      records w.events = [c.count "unavailable", c.line "unavailable"] →
      Ended c w (.returned response)
  | done {t} {o : Outcome} : (∀ p, t ≠ .running p) → w.completed = some o →
      records w.events = [c.count o.code.text, c.line o.code.text] → Ended c w t
  | cancelled : w.completed = none → records w.events = [c.count "cancelled"] →
      Ended c w .dropped

structure LineInv (c : Call) (s : Run Resp σ) : Prop where
  running : ∀ p, s.task = .running p → ∃ φ, (lineProtocol c).Obeys LineFinal φ p ∧
    records s.world.events = recorded c φ ∧ φ.Holds c s.world
  ended : (∀ p, s.task ≠ .running p) → Ended c s.world s.task
  detached : ∀ d, s.detached = some d → quietProtocol.Obeys (fun _ _ => True) () d

variable {E : Env Req Resp σ} {c : Call} {φ : LinePhase} {r : DispatchReq Req} {w w' : World σ}
  {t : RequestTask Resp} {d : Option (DispatchProg Resp Unit)} {s : Run Resp σ}

theorem performs_recorded {x} (hallowed : LineAllowed c φ r)
    (hrecords : records w.events = recorded c φ) (hw : φ.Holds c w)
    (hp : Performs E c.auditId .primary r w x w') :
    records w'.events = recorded c ((lineProtocol c).next φ r x) ∧
      ((lineProtocol c).next φ r x).Holds c w' := by
  cases hallowed with
  | countRefused | lineRefused | count o | duration o ms | line o ms =>
    obtain rfl := hp
    exact ⟨by rw [records_append, hrecords]; rfl, hw⟩
  | name =>
    obtain ⟨-, rfl⟩ := hp
    exact ⟨hrecords, hw⟩
  | arm =>
    obtain rfl := hp
    exact ⟨hrecords, hw.1, rfl⟩
  | work r =>
    obtain ⟨env, -, rfl⟩ := hp
    exact ⟨hrecords, hw⟩
  | record o =>
    obtain rfl := hp
    refine ⟨hrecords, rfl, c.guard.recordOutcome o, ?_, ?_⟩
    · simp only [hw.2, Option.map_some]
    · rintro _ ⟨⟩
      exact o.code.text_ne_empty
  | insert o row | stream o sinks row =>
    obtain rfl := hp
    exact ⟨hrecords, hw⟩
  | insertReply o row =>
    obtain ⟨rfl, -⟩ := hp
    exact ⟨hrecords, hw⟩
  | emit o hnone =>
    obtain rfl := hp
    exact ⟨by rw [records_append, hrecords, records, List.filterMap_cons_none hnone]; rfl, hw⟩
  | disarm o =>
    obtain rfl := hp
    obtain ⟨hcompleted, guard, hguard, -⟩ := hw
    refine ⟨hrecords, hcompleted, guard.disarm, by simp only [hguard, Option.map_some], ?_⟩
    rintro _ ⟨⟩

/-- What the records are about is unchanged. -/
structure SameRecords (w w' : World σ) : Prop where
  records : records w'.events = records w.events
  completed : w'.completed = w.completed
  started : w'.started = w.started
  guard : w'.guard = w.guard

theorem LinePhase.Holds.same (h : φ.Holds c w) (hsame : SameRecords w w') : φ.Holds c w' := by
  cases φ with
  | idle | refusing | refused =>
    exact ⟨hsame.completed.trans h.1, hsame.started.trans h.2.1, hsame.guard.trans h.2.2⟩
  | working => exact ⟨hsame.completed.trans h.1, hsame.guard.trans h.2⟩
  | completed o | counted o | lined o =>
    obtain ⟨hcompleted, guard, hguard, hrow⟩ := h
    exact ⟨hsame.completed.trans hcompleted, guard, hsame.guard.trans hguard, hrow⟩

theorem Ended.same (h : Ended c w t) (hsame : SameRecords w w') : Ended c w' t := by
  cases h with
  | refused hcompleted hstarted hrecords =>
    exact .refused (hsame.completed.trans hcompleted) (hsame.started.trans hstarted)
      (hsame.records.trans hrecords)
  | done ht hcompleted hrecords =>
    exact .done ht (hsame.completed.trans hcompleted) (hsame.records.trans hrecords)
  | cancelled hcompleted hrecords =>
    exact .cancelled (hsame.completed.trans hcompleted) (hsame.records.trans hrecords)

/-- The world may change outside of what the records are about, and the detached task may go
    on. -/
theorem LineInv.same {d'} (h : LineInv c ⟨t, d, w⟩) (hsame : SameRecords w w')
    (hd : ∀ p, d' = some p → quietProtocol.Obeys (fun _ _ => True) () p) :
    LineInv c ⟨t, d', w'⟩ where
  running p ht := by
    obtain ⟨φ, hobeys, hrecords, hholds⟩ := h.running p ht
    exact ⟨φ, hobeys, hsame.records.trans hrecords, hholds.same hsame⟩
  ended ht := (h.ended ht).same hsame
  detached := hd

/-- The detached task records nothing. -/
theorem performs_quiet {auditId : Uuid} {x} (hquiet : Quiet r)
    (hp : Performs E auditId .fallback r w x w') : SameRecords w w' := by
  cases hquiet with
  | insert row | stream sinks row =>
    obtain rfl := hp
    exact ⟨rfl, rfl, rfl, rfl⟩
  | insertReply row =>
    obtain ⟨rfl, -⟩ := hp
    exact ⟨rfl, rfl, rfl, rfl⟩
  | emit hnone =>
    obtain rfl := hp
    refine ⟨?_, rfl, rfl, rfl⟩
    rw [records_append]
    simp [records, List.filterMap_cons_none hnone]

theorem Settles.sameRecords (h : Settles w w') : SameRecords w w' := by
  cases h with
  | commit | lose => exact ⟨rfl, rfl, rfl, rfl⟩

theorem Interferes.sameRecords {auditId : Uuid} (h : Interferes auditId w w') :
    SameRecords w w' := by
  obtain ⟨-⟩ := h
  exact ⟨rfl, rfl, rfl, rfl⟩

/-! ## The end of the request task -/

/-- What is left to the detached task records nothing. -/
theorem leave_quiet (hd : ∀ p, d = some p → quietProtocol.Obeys (fun _ _ => True) () p) :
    ∀ p, (Run.leave t d w).detached = some p → quietProtocol.Obeys (fun _ _ => True) () p := by
  intro p hp
  cases hguard : w.guard with
  | none =>
    simp only [Run.leave, hguard] at hp
    exact hd p hp
  | some guard =>
    cases hrow : guard.row with
    | none =>
      simp only [Run.leave, hguard, CancelledAuditGuard.drop, hrow, Option.none_or] at hp
      exact hd p hp
    | some row =>
      simp only [Run.leave, hguard, CancelledAuditGuard.drop, hrow, Option.some_or] at hp
      obtain rfl := Option.some.inj hp
      exact quiet_fallback _ _

theorem leave_same {guard : CancelledAuditGuard} (hguard : w.guard = some guard)
    (hrow : ∀ row, guard.row = some row → row.outcome ≠ "") :
    records (Run.leave t d w).world.events = records w.events ∧
      (Run.leave t d w).world.completed = w.completed := by
  simp only [Run.leave, hguard, CancelledAuditGuard.drop]
  split
  · simp [records]
  · rename_i row hsome
    simp [records, hrow row hsome]

theorem leave_none (hguard : w.guard = none) :
    Run.leave t d w = ⟨t, d, w⟩ := by
  simp only [Run.leave, hguard]

theorem leave_pending (hguard : w.guard = some c.guard) :
    records (Run.leave t d w).world.events = records w.events ++ [c.count "cancelled"] ∧
      (Run.leave t d w).world.completed = w.completed := by
  simp only [Run.leave, hguard]
  exact ⟨records_append _ _, trivial⟩

theorem ended_lined {o : Outcome} (ht : ∀ p, t ≠ .running p)
    (hrecords : records w.events = recorded c (.lined o)) (hw : (LinePhase.lined o).Holds c w) :
    Ended c (Run.leave t d w).world t := by
  obtain ⟨hcompleted, guard, hguard, hrow⟩ := hw
  obtain ⟨hsame, hdone⟩ := leave_same (t := t) (d := d) hguard hrow
  exact .done ht (hdone.trans hcompleted) (hsame.trans hrecords)

theorem ended_drop (hallowed : LineAllowed c φ r) (hrecords : records w.events = recorded c φ)
    (hw : φ.Holds c w) (hr : Abandons E r w w') :
    Ended c (Run.leave (.dropped : RequestTask Resp) d w').world (.dropped : RequestTask Resp) := by
  cases hallowed with
  | work r =>
    obtain ⟨env, -, rfl⟩ := hr
    obtain ⟨hcount, hdone⟩ := leave_pending (t := .dropped) (d := d) (w := { w with env }) hw.2
    refine .cancelled (hdone.trans hw.1) (hcount.trans ?_)
    rw [hrecords]
    rfl
  | insertReply o row =>
    obtain rfl := hr
    exact ended_lined nofun hrecords hw
  | _ => exact hr.elim

theorem ended_finish {response : Response} (hfinal : LineFinal φ response)
    (hrecords : records w.events = recorded c φ) (hw : φ.Holds c w) :
    Ended c (Run.leave (.returned response) d w).world
      (.returned response : RequestTask Resp) := by
  cases φ with
  | refused =>
    rw [leave_none hw.2.2]
    exact .refused hw.1 hw.2.1 hrecords
  | lined o => exact ended_lined nofun hrecords hw
  | _ => exact hfinal.elim

theorem LineInv.leave {c : Call} {t : RequestTask Resp}
    {w : World σ} {d : Option (DispatchProg Resp Unit)} (ht : ∀ p, t ≠ .running p)
    (hended : Ended c (Run.leave t d w).world t)
    (hd : ∀ p, d = some p → quietProtocol.Obeys (fun _ _ => True) () p) :
    LineInv c (Run.leave t d w) where
  running p hp := absurd ((leave_task t d w).symm.trans hp) (ht p)
  ended _ := by
    rw [leave_task]
    exact hended
  detached := leave_quiet hd

theorem lineInv_step {s' : Run Resp σ} (hstep : Step E c.auditId s s') (h : LineInv c s) :
    LineInv c s' := by
  cases hstep with
  | interfere hi => exact h.same hi.sameRecords h.detached
  | progress hp =>
    cases hp with
    | settle hs => exact h.same hs.sameRecords h.detached
    | reply hp =>
      obtain ⟨φ, hobeys, hrecords, hw⟩ := h.running _ rfl
      obtain ⟨hrecords', hw'⟩ := performs_recorded hobeys.1 hrecords hw hp
      refine ⟨?_, fun ht => absurd rfl (ht _), h.detached⟩
      rintro _ ⟨⟩
      exact ⟨_, hobeys.2 _ (performs_replies hp), hrecords', hw'⟩
    | drop hr =>
      obtain ⟨φ, hobeys, hrecords, hw⟩ := h.running _ rfl
      exact .leave nofun (ended_drop hobeys.1 hrecords hw hr) h.detached
    | finish =>
      obtain ⟨φ, hobeys, hrecords, hw⟩ := h.running _ rfl
      exact .leave nofun (ended_finish hobeys hrecords hw) h.detached
    | detached hp =>
      have hobeys := h.detached _ rfl
      refine h.same (performs_quiet hobeys.1 hp) ?_
      rintro _ ⟨⟩
      exact hobeys.2 _ trivial

theorem lineInv_steps {stateDb : Bool} {work table} {env : σ}
    (hs : Steps E c.auditId (Run.start (auditDispatch c.ext c.id c.identity stateDb c.requestCtx
      c.header c.streamSinks work) table env) s) : LineInv c s := by
  induction hs with
  | refl =>
    refine ⟨?_, fun ht => absurd rfl (ht _), nofun⟩
    rintro _ ⟨⟩
    exact ⟨.idle, line_auditDispatch c stateDb work, rfl, rfl, rfl, rfl⟩
  | tail _ hstep ih => exact lineInv_step hstep ih

/-! ## One record -/

theorem expected_unwritten {φ : Phase} (h : (expected c φ).completed = none) :
    (expected c φ).written = .nothing := by
  cases φ with
  | idle | named | armed => rfl
  | recorded o | sent o | refused o err | acked o | streamed o | disarmed o => cases h

/-- If the work did not complete, a row of the call is cancelled, and the work was started. -/
theorem cancelled_of_inv {early : Response → Prop} (h : Inv c early s)
    (hcompleted : s.world.completed = none) {row : AuditRow} (hmem : row ∈ s.world.table)
    (hid : row.id = c.auditId) : row.outcome = "cancelled" ∧ s.world.started = true := by
  have hphase : ∀ φ, ¬ (expected c φ).Holds c.auditId s.world := by
    intro φ hw
    have hwritten := hw.written
    rw [expected_unwritten (hw.completed.symm.trans hcompleted)] at hwritten
    have hrow := mem_rowsOf.mpr ⟨hmem, hid⟩
    rw [hwritten.2] at hrow
    cases hrow
  cases h with
  | running _ hw | droppedEarly hw | returnedEarly _ hw => exact absurd hw (hphase _)
  | done hw => cases hw.completed.symm.trans hcompleted
  | @retry t d w completed row' ψ ht hobeys hw hkept =>
    have hstarted : w.started = true := by
      rw [hw.started]
      cases ψ <;> rfl
    refine ⟨?_, hstarted⟩
    obtain rfl := hw.written.eq_of_mem (retryExpected_only c completed row' ψ) hmem hid
    have hnone : completed = none := by
      rw [← hcompleted, hw.completed]
      cases ψ <;> rfl
    subst hnone
    cases ht
    rfl

/-- The call is counted once and has one dispatch line, with the outcome of its row. -/
def OneRecord (c : Call) (s : Run Resp σ) : Prop :=
  ∃ outcome, records s.world.events = [c.count outcome, c.line outcome] ∧
    ∀ row ∈ s.world.table, row.id = c.auditId → row.outcome = outcome

/-- **One dispatch line and one count**, for every work, every behaviour of its environment, of
    the state DB and of other calls, and wherever the future is dropped: exactly if it was not
    dropped during its work. -/
theorem oneRecord_iff (E : Env Req Resp σ) (c : Call) (stateDb : Bool)
    (work : Prog Req Resp Outcome) (table : List AuditRow) (env : σ)
    (hfresh : rowsOf c.auditId table = []) (s : Run Resp σ)
    (hs : Steps E c.auditId (Run.start (auditDispatch c.ext c.id c.identity stateDb c.requestCtx
      c.header c.streamSinks work) table env) s) (hended : ∀ p, s.task ≠ .running p) :
    OneRecord c s ↔ (s.task = .dropped → s.world.completed ≠ none) := by
  have hinv := inv_steps (obeys_auditDispatch c stateDb work) hfresh hs
  have haudited := audited_of_inv hinv
  have hline := (lineInv_steps hs).ended hended
  obtain ⟨t, d, w⟩ := s
  cases hline with
  | refused hcompleted hstarted hrecords =>
    refine iff_of_true ⟨_, hrecords, fun row hmem hid => ?_⟩ nofun
    have hrow := (cancelled_of_inv hinv hcompleted hmem hid).2
    cases hrow.symm.trans hstarted
  | @done _ o ht hcompleted hrecords =>
    refine iff_of_true ⟨_, hrecords, fun row hmem hid => ?_⟩ fun _ hnone => ?_
    · exact (haudited.outcome o hcompleted row hmem hid).1
    · cases hcompleted.symm.trans hnone
  | cancelled hcompleted hrecords =>
    refine iff_of_false ?_ fun h => h rfl hcompleted
    rintro ⟨outcome, hone, -⟩
    cases hrecords.symm.trans hone

end

theorem plain_answers : ∃ s : Run (fun _ : Empty => Unit) Unit,
    Steps plainEnv plainCall.auditId (Run.start (auditDispatch plainExtern (.int 1)
      plainCall.identity true plainCall.requestCtx plainCall.header plainCall.streamSinks
      (ret plainOutcome)) [] ()) s ∧ s.task = .returned plainOutcome.response := by
  apply Exists.intro
  apply And.intro
  · apply Steps.reply .newUuid 7 ⟨rfl, rfl⟩
    apply Steps.reply (.armGuard _) () rfl
    apply Steps.reply (.recordOutcome _) () rfl
    apply Steps.reply (.emit _) () rfl
    apply Steps.reply (.emit _) () rfl
    apply Steps.reply (.insert _) () rfl
    apply Steps.settle (.commit List.mem_cons_self)
    apply Steps.reply (.insertReply _) (.ok ()) ⟨rfl, fun _ => by decide⟩
    apply Steps.reply (.emit _) () rfl
    apply Steps.reply (.streamSend _ _) () rfl
    apply Steps.reply .disarm () rfl
    apply head (.progress .finish)
    exact .refl
  · rfl

theorem oneRecord_plain : ∃ s : Run (fun _ : Empty => Unit) Unit,
    s.task = .returned plainOutcome.response ∧ OneRecord plainCall s := by
  obtain ⟨s, hs, htask⟩ := plain_answers
  refine ⟨s, htask, ?_⟩
  refine (oneRecord_iff plainEnv plainCall true (ret plainOutcome) [] () rfl s hs ?_).mpr ?_
  · rw [htask]
    exact nofun
  · rw [htask]
    exact nofun

def waitingEnv : Env Unit (fun _ => Unit) Unit where
  answers _ _ _ _ := True
  abandons _ _ _ := True

theorem waiting_drops : ∃ s : Run (fun _ : Unit => Unit) Unit,
    Steps waitingEnv plainCall.auditId (Run.start (auditDispatch plainExtern (.int 1)
      plainCall.identity true plainCall.requestCtx plainCall.header plainCall.streamSinks
      (await () fun _ => ret plainOutcome)) [] ()) s ∧ s.task = .dropped ∧
    records s.world.events = [plainCall.count "cancelled"] := by
  apply Exists.intro
  apply And.intro
  · apply Steps.reply .newUuid 7 ⟨rfl, rfl⟩
    apply Steps.reply (.armGuard _) () rfl
    exact .single (.progress (.drop (r := .tool ()) ⟨(), trivial, rfl⟩))
  · exact ⟨rfl, rfl⟩

/-- A call that is dropped during its work is counted, and has no dispatch line. -/
theorem cancelled_unlined :
    ¬ ∀ (E : Env Unit (fun _ => Unit) Unit) (c : Call) (stateDb : Bool)
      (work : Prog Unit (fun _ => Unit) Outcome) (table : List AuditRow)
      (s : Run (fun _ : Unit => Unit) Unit), rowsOf c.auditId table = [] →
      Steps E c.auditId (Run.start (auditDispatch c.ext c.id c.identity stateDb c.requestCtx
        c.header c.streamSinks work) table ()) s →
      (∀ p, s.task ≠ .running p) → OneRecord c s := by
  intro h
  obtain ⟨s, hs, htask, hcancelled⟩ := waiting_drops
  obtain ⟨outcome, hrecords, -⟩ := h waitingEnv plainCall true _ [] s rfl hs (by
    rw [htask]
    exact nofun)
  cases hcancelled.symm.trans hrecords

end DbMcpGateway.Tools
