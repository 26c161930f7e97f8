import DbMcpGateway.Tools.AuditRun

/-!
# What the audit guarantees

The guarantees of the chokepoint, read off the phases of its runs, and the end of
every run.

Results:

* `progress_wf`: every run of a call ends.
* `Inv.continues`: a run does not end before all is done, unless the work waits.
* `audited_of_inv`: no unaudited success, at most one row, the recorded outcome,
  at most one fan-out and only of a durable row, and exactly one row in the end if
  the state DB keeps the detached insert.
-/

namespace DbMcpGateway.Tools

open Async Async.Prog Audit Authz Config Transport

section

variable {Req : Type} {Resp : Req → Type} {σ : Type}

/-! ## Every run ends -/

/-- What is left to do: of the request task, of the detached task, and the number
    of inserts in flight. -/
abbrev Remaining (Resp : Req → Type) : Type :=
  RequestTask Resp × Task (DispatchReq Req) (DispatchResp Resp) Unit × ℕ

def Run.remaining (s : Run Resp σ) : Remaining Resp :=
  (s.task, s.detached.elim .dropped .running, s.world.inflight.length)

/-- The order of what is left to do. -/
def Less : Remaining Resp → Remaining Resp → Prop :=
  Prod.Lex Task.Rest (Prod.Lex Task.Rest (· < ·))

theorem less_wf : WellFounded (Less : Remaining Resp → Remaining Resp → Prop) :=
  WellFounded.prod_lex Task.rest_wf (WellFounded.prod_lex Task.rest_wf wellFounded_lt)

theorem leave_task (t : RequestTask Resp) (d : Option (DispatchProg Resp Unit)) (w : World σ) :
    (Run.leave t d w).task = t := by
  unfold Run.leave
  cases w.guard <;> rfl

theorem length_erase_lt {inflight : List (Writer × AuditRow)} {e}
    (h : e ∈ inflight) : (inflight.erase e).length < inflight.length := by
  have hpos := List.length_pos_of_mem h
  rw [List.length_erase_of_mem h]
  omega

variable {auditId : Uuid} {s : Run Resp σ} {w : World σ} {row : AuditRow} {c : Call}
  {completed : Option Outcome} {early : Response → Prop} {written : Written}

/-- Each step of the call or of the state DB leaves less to do. -/
theorem progress_less {E} {s' : Run Resp σ} (h : Progress E auditId s s') :
    Less s'.remaining s.remaining := by
  cases h with
  | reply hp => exact .left _ _ (.reply _)
  | drop hr =>
    refine .left _ _ ?_
    rw [leave_task]
    exact .dropped
  | finish =>
    refine .left _ _ ?_
    rw [leave_task]
    exact .returned
  | detached hp => exact .right _ (.left _ _ (.reply _))
  | settle hs =>
    refine .right _ (.right _ ?_)
    cases hs with
    | commit hmem | lose hmem => exact length_erase_lt hmem

theorem interferes_remaining (h : Interferes auditId s.world w) :
    { s with world := w }.remaining = s.remaining := by
  obtain ⟨ht⟩ := h
  rfl

/-- No run takes infinitely many steps of the call or of the state DB, however
    the other calls interfere. -/
theorem progress_wf (E : Env Req Resp σ) (auditId : Uuid) :
    WellFounded fun s' s : Run Resp σ => ∃ w, (w = s.world ∨ Interferes auditId s.world w) ∧
      Progress E auditId { s with world := w } s' := by
  refine Subrelation.wf ?_ (InvImage.wf Run.remaining less_wf)
  rintro s' s ⟨w, hw, hp⟩
  have hless := progress_less hp
  rcases hw with rfl | hi
  · exact hless
  · rwa [interferes_remaining hi] at hless

/-! ## No run is stuck -/

/-- The request task waits for a reply to its work. -/
def Run.AwaitsWork (s : Run Resp σ) : Prop := ∃ r k, s.task = .running (await (.tool r) k)

/-- Every request but those of the work can be answered: the clock and the guard
    always answer, and an insert can time out. -/
theorem performs_total (E : Env Req Resp σ) (auditId : Uuid) (writer : Writer)
    {r} (hr : ∀ r', r ≠ .tool r') (w : World σ) :
    ∃ x w', Performs E auditId writer r w x w' := by
  cases r with
  | tool r => exact absurd rfl (hr r)
  | newUuid => exact ⟨auditId, w, rfl, rfl⟩
  | insertReply row => exact ⟨.error .timeout, w, rfl, by rintro ⟨⟩⟩
  | armGuard _ | recordOutcome _ | disarm | emit _ | insert _ | streamSend _ _ =>
    exact ⟨(), _, rfl⟩

theorem RetryAllowed.ne_tool {sinks ψ r} (h : RetryAllowed sinks row ψ r) (r' : Req) : r ≠ .tool r' := by
  rintro rfl
  cases h

theorem Origin.not_running {t}
    (h : Origin c completed row t) (p : DispatchProg Resp Response) : t ≠ .running p := by
  rintro rfl
  cases h

/-- As long as something is left to do, some step can be taken, or the work is
    waiting for its environment. -/
theorem Inv.continues (h : Inv c early s) (E : Env Req Resp σ) :
    s.Quiescent ∨ s.AwaitsWork ∨ ∃ s', Progress E c.auditId s s' := by
  by_cases hinflight : s.world.inflight = []
  · cases h with
    | @running p φ w hobeys hw =>
      cases p with
      | ret response => exact .inr (.inr ⟨_, .finish⟩)
      | await r k =>
        by_cases hr : ∃ r', r = .tool r'
        · obtain ⟨r', rfl⟩ := hr
          exact .inr (.inl ⟨r', k, rfl⟩)
        · obtain ⟨x, w', hp⟩ :=
            performs_total E c.auditId .primary (fun r' h => hr ⟨r', h⟩) w
          exact .inr (.inr ⟨_, .reply hp⟩)
    | droppedEarly | returnedEarly | done =>
      exact .inl ⟨by rintro _ ⟨⟩, by rintro _ _ ⟨⟩, hinflight⟩
    | @retry t d w completed row ψ ht hobeys hw hkept =>
      cases d with
      | ret u => exact .inl ⟨ht.not_running, by rintro _ _ ⟨⟩, hinflight⟩
      | await r k =>
        obtain ⟨x, w', hp⟩ := performs_total E c.auditId .fallback hobeys.1.ne_tool w
        exact .inr (.inr ⟨_, .detached hp⟩)
  · obtain ⟨⟨writer, row⟩, hmem⟩ := List.exists_mem_of_ne_nil _ hinflight
    exact .inr (.inr ⟨_, .settle (.commit hmem)⟩)

/-! ## No unaudited success -/

/-- What the audit owes to a call, in every state of a run. -/
structure Audited (c : Call) (early : Response → Prop) (s : Run Resp σ) : Prop where
  /-- The response of the work is returned only with a durable row of its outcome;
      any other response is an error of the chokepoint. -/
  response : ∀ response, s.task = .returned response →
    (∃ o, s.world.completed = some o ∧ response = o.response ∧
      ∃ row ∈ s.world.table, row.id = c.auditId ∧ row.outcome = o.code.text) ∨
    early response ∨ ∃ err, response = auditRejected c.ext c.id err
  /-- There is at most one row. -/
  atMostOne : (rowsOf c.auditId s.world.table).length ≤ 1
  outcome : ∀ o, s.world.completed = some o → ∀ row ∈ s.world.table, row.id = c.auditId →
    row.outcome = o.code.text ∧ row.outcome ≠ "cancelled"
  /-- Each sink is handed the row at most once, and only a durable one. -/
  streamed : s.world.streamed = [] ∨ ∃ row ∈ s.world.table, row.id = c.auditId ∧
    s.world.streamed = c.streamSinks.map fun sink => (sink, row)
  /-- When all is done there is exactly one row, if the work was started and the
      state DB did not lose the detached insert. -/
  exactlyOne : s.Quiescent → s.world.started = true → .fallback ∉ s.world.lost →
    ∃ row, rowsOf c.auditId s.world.table = [row]

/-- The only row that may be written is `row`. -/
def Written.Only (row : AuditRow) (written : Written) : Prop :=
  written = .nothing ∨ written = .maybe row ∨ written = .durable row

theorem Written.Holds.length_le (h : written.Holds auditId w) :
    (rowsOf auditId w.table).length ≤ 1 := by
  cases written with
  | nothing => simp [h.2]
  | maybe row => rcases h.2.2 with h | h <;> simp [h]
  | durable row => simp [h.2.2]

theorem Written.Holds.eq_of_mem {row' : AuditRow} (h : written.Holds auditId w)
    (honly : written.Only row) (hmem : row' ∈ w.table) (hid : row'.id = auditId) : row' = row := by
  have hrows : row' ∈ rowsOf auditId w.table := mem_rowsOf.mpr ⟨hmem, hid⟩
  rcases honly with rfl | rfl | rfl
  · simp [h.2] at hrows
  · rcases h.2.2 with h | h
    · simp [h] at hrows
    · simpa [h] using hrows
  · simpa [h.2.2] using hrows

theorem Written.Holds.mem (h : (Written.durable row).Holds auditId w) :
    row ∈ w.table ∧ row.id = auditId := by
  rw [← mem_rowsOf, h.2.2]
  exact List.mem_cons_self

/-- What every phase says: a completed work is written with its outcome, and only
    a durable row is streamed. -/
structure Expected.Sound (c : Call) (e : Expected) : Prop where
  outcome : ∀ o, e.completed = some o → e.written.Only (c.row o)
  streamed : e.streamed = [] ∨ ∃ row, e.written = .durable row ∧ e.streamed = c.fanOut row

theorem expected_sound (c : Call) (φ : Phase) : (expected c φ).Sound c := by
  cases φ with
  | idle | named | armed | recorded o => exact ⟨fun _ _ => .inl rfl, .inl rfl⟩
  | sent o | refused o err => exact ⟨by rintro _ ⟨⟩; exact .inr (.inl rfl), .inl rfl⟩
  | acked o => exact ⟨by rintro _ ⟨⟩; exact .inr (.inr rfl), .inl rfl⟩
  | streamed o | disarmed o => exact ⟨by rintro _ ⟨⟩; exact .inr (.inr rfl), .inr ⟨_, rfl, rfl⟩⟩

theorem Origin.row_eq {t : RequestTask Resp} (h : Origin c completed row t) :
    ∀ o, completed = some o → row = c.row o := by
  cases h with
  | midWork =>
    intro o h
    cases h
  | midWrite o | refused o err => rintro _ ⟨⟩; rfl

theorem retryExpected_sound (hrow : ∀ o, completed = some o → row = c.row o) (ψ : RetryPhase) :
    (retryExpected c completed row ψ).Sound c := by
  have hmaybe : ∀ o, completed = some o → (Written.maybe row).Only (c.row o) := fun o h =>
    .inr (.inl (congrArg Written.maybe (hrow o h)))
  have hdurable : ∀ o, completed = some o → (Written.durable row).Only (c.row o) := fun o h =>
    .inr (.inr (congrArg Written.durable (hrow o h)))
  cases ψ with
  | ready | sent | refused => exact ⟨hmaybe, .inl rfl⟩
  | acked => exact ⟨hdurable, .inl rfl⟩
  | streamed => exact ⟨hdurable, .inr ⟨_, rfl, rfl⟩⟩

/-- The part of the guarantee that every phase gives. -/
theorem Expected.Sound.audited {e : Expected} (he : e.Sound c) (hw : e.Holds c.auditId s.world)
    (hresponse : ∀ response, s.task = .returned response →
      (∃ o, s.world.completed = some o ∧ response = o.response ∧
        ∃ row ∈ s.world.table, row.id = c.auditId ∧ row.outcome = o.code.text) ∨
      early response ∨ ∃ err, response = auditRejected c.ext c.id err)
    (hone : s.Quiescent → s.world.started = true → .fallback ∉ s.world.lost →
      ∃ row, rowsOf c.auditId s.world.table = [row]) : Audited c early s where
  response := hresponse
  atMostOne := hw.written.length_le
  outcome o ho row hmem hid := by
    have hrow : row = c.row o :=
      hw.written.eq_of_mem (he.outcome o (hw.completed.symm.trans ho)) hmem hid
    rw [hrow]
    exact ⟨rfl, o.code.text_ne_cancelled⟩
  streamed := by
    rcases he.streamed with h | ⟨row, hrow, h⟩
    · exact .inl (hw.streamed.trans h)
    · have hdurable := hw.written
      rw [hrow] at hdurable
      exact .inr ⟨row, hdurable.mem.1, hdurable.mem.2, hw.streamed.trans h⟩
  exactlyOne := hone

/-- The detached task is at its end and its insert is settled. -/
theorem Kept.exactlyOne (hkept : Kept row w) (hid : row.id = auditId)
    (hwritten : written.Holds auditId w) (hinflight : w.inflight = [])
    (hlost : .fallback ∉ w.lost) :
    ∃ row, rowsOf auditId w.table = [row] := by
  have hne : rowsOf auditId w.table ≠ [] := by
    rcases hkept with h | h | h
    · exact absurd h hlost
    · simp [hinflight] at h
    · rwa [← hid]
  have hle := hwritten.length_le
  match hrows : rowsOf auditId w.table with
  | [] => exact absurd hrows hne
  | [row] => exact ⟨row, rfl⟩
  | _ :: _ :: _ => simp [hrows] at hle

theorem audited_of_inv (h : Inv c early s) : Audited c early s := by
  cases h with
  | @running p φ w hobeys hw =>
    exact (expected_sound c φ).audited hw nofun fun hq => absurd rfl (hq.task p)
  | droppedEarly hw =>
    refine (expected_sound c .idle).audited hw nofun fun _ hstarted => ?_
    exact absurd (hw.started.symm.trans hstarted) (by simp [expected])
  | returnedEarly he hw =>
    refine (expected_sound c .idle).audited hw ?_ fun _ hstarted => ?_
    · rintro _ ⟨⟩
      exact .inr (.inl he)
    · exact absurd (hw.started.symm.trans hstarted) (by simp [expected])
  | @done w o hw =>
    have hsound : (doneExpected c o).Sound c :=
      ⟨(expected_sound c (.disarmed o)).outcome, (expected_sound c (.disarmed o)).streamed⟩
    refine hsound.audited hw ?_ fun _ _ _ => ?_
    · rintro _ ⟨⟩
      exact .inl ⟨o, hw.completed, rfl, _, hw.written.mem.1, hw.written.mem.2, rfl⟩
    · exact ⟨_, hw.written.2.2⟩
  | @retry t d w completed row ψ ht hobeys hw hkept =>
    refine (retryExpected_sound ht.row_eq ψ).audited hw ?_ fun hq _ hlost => ?_
    · rintro _ rfl
      cases ht
      exact .inr (.inr ⟨_, rfl⟩)
    · have hready : ψ ≠ .ready := by
        rintro rfl
        cases d with
        | ret u => exact hobeys
        | await r k => exact hq.detached r k rfl
      exact (hkept hready).exactlyOne ht.row_id hw.written hq.inflight hlost

/-- The rows of a call: with the outcome of its work, or cancelled. -/
def Call.IsRow (c : Call) (row : AuditRow) : Prop :=
  (∃ o, row = c.row o) ∨ row = finalizeDroppedRow c.pending

theorem expected_only (c : Call) (φ : Phase) :
    ∃ row, (expected c φ).written.Only row ∧ c.IsRow row := by
  cases φ with
  | idle | named | armed | recorded o => exact ⟨_, .inl rfl, .inr rfl⟩
  | sent o | refused o err => exact ⟨_, .inr (.inl rfl), .inl ⟨o, rfl⟩⟩
  | acked o | streamed o | disarmed o => exact ⟨_, .inr (.inr rfl), .inl ⟨o, rfl⟩⟩

theorem retryExpected_only (c : Call) (completed : Option Outcome) (row : AuditRow)
    (ψ : RetryPhase) : (retryExpected c completed row ψ).written.Only row := by
  cases ψ with
  | ready | sent | refused => exact .inr (.inl rfl)
  | acked | streamed => exact .inr (.inr rfl)

/-- Whatever a call has written is one of its rows. -/
theorem isRow_of_inv (h : Inv c early s) (hmem : row ∈ s.world.table) (hid : row.id = c.auditId) :
    c.IsRow row := by
  have hphase : ∀ φ, (expected c φ).Holds c.auditId s.world → c.IsRow row := by
    intro φ hw
    obtain ⟨row', honly, hrow⟩ := expected_only c φ
    rwa [hw.written.eq_of_mem honly hmem hid]
  cases h with
  | running _ hw | droppedEarly hw | returnedEarly _ hw => exact hphase _ hw
  | @done w o hw => exact .inl ⟨o, hw.written.eq_of_mem (.inr (.inr rfl)) hmem hid⟩
  | @retry t d w completed row' ψ ht _ hw _ =>
    rw [hw.written.eq_of_mem (retryExpected_only c completed row' ψ) hmem hid]
    cases ht with
    | midWork => exact .inr rfl
    | midWrite o | refused o err => exact .inl ⟨o, rfl⟩

end

/-- Stand-ins for the functions of other crates. -/
def plainExtern : Extern where
  parseSql _ := .ok []
  parseRfc3339 _ := none
  fromStr _ := none
  render _ := ""
  toText _ := some ""
  toText_withElapsed _ _ _ := rfl

/-- A call without requests of its own, with one sink. -/
def plainCall : Call where
  ext := plainExtern
  id := .int 1
  identity := ⟨"alice", "alice@example.com", []⟩
  requestCtx := { requestId := "r1" }
  header := { tool := .listServers }
  streamSinks := [.stdout]
  auditId := 7

def plainOutcome : Outcome := successOutcome (.int 1) "ok" none (some 0) (some false)

/-- An environment of a work without requests. -/
def plainEnv : Env Empty (fun _ => Unit) Unit where
  answers _ _ _ _ := True
  abandons _ _ _ := True

end DbMcpGateway.Tools
