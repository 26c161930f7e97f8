import DbMcpGateway.Exec.Pg
import DbMcpGateway.Tools.Policy

/-!
# Writes and their audit rows

A write commits on the target before its audit row is written, and the two stores
share no transaction. `targets` is the environment of a call as far as its writes
go: the statements whose transactions have committed on a Postgres target. The
system is the one of `Tools.AuditRun` with `dispatch_call` as its program.

Nothing is executed before the guard is armed (`armFirst_dispatchCall`), so a
call that has committed anything is one that was started, and a started call
leaves a row unless the state DB loses the insert of the detached retry.

Results:

* `dispatchCall_write_audited`: in every run in which the state DB does not lose
  the insert of the detached retry, a call that has committed a statement has a row.
* `dispatchCall_unaudited_write`: otherwise a write can be committed, rejected and
  without a row.
-/

namespace DbMcpGateway.Tools

open Async Async.Prog Audit Authz Config Exec Transport
open Relation.ReflTransGen (head)

/-! ## The targets of a call -/

/-- How `execute` of the Postgres adapter (exec/pg/mod.rs:139) ends, and whether
    the transaction has committed: `run_query_inner` answers, or the deadline
    around it passes and drops it at any point. -/
inductive PgExecutes (query : ExecQuery) : Except ExecError ExecResult → Bool → Prop
  | answered (t : Pg.PgTarget) :
      PgExecutes query (Pg.runOn t query).1 (decide ((Pg.runOn t query).2.tx = .committed))
  | elapsed (committed : Bool) : PgExecutes query (.error .timeout) committed

/-- The environment of a call; its state is the list of committed statements.
    Only a Postgres target can be changed. A dropped execution may have committed. -/
def targets : Env ToolReq ToolResp (List ExecQuery) where
  answers
    | .execute server _ query, done, x, done' =>
      if server.kind = .postgres then
        ∃ committed, PgExecutes query x committed ∧
          done' = if committed then done ++ [query] else done
      else done' = done
    | _, done, _, done' => done' = done
  abandons
    | .execute server _ query, done, done' =>
      done' = done ∨ server.kind = .postgres ∧ done' = done ++ [query]
    | _, done, done' => done' = done

/-! ## The guard is armed first -/

/-- The request has a statement executed. -/
def IsExecute (r : DispatchReq ToolReq) : Prop :=
  ∃ server database query, r = .tool (.execute server database query)

/-- A statement is executed only after the guard has been armed. -/
def armFirst : Protocol (DispatchReq ToolReq) (DispatchResp ToolResp) Bool where
  replies _ _ := True
  allowed armed r := armed = true ∨ ¬ IsExecute r
  next
    | _, .armGuard _, _ => true
    | armed, _, _ => armed

def ArmsFirst (program : DispatchProg ToolResp Response) : Prop :=
  armFirst.Obeys (fun _ _ => True) false program

theorem obeys_armed (program : DispatchProg ToolResp Response) :
    armFirst.Obeys (fun _ _ => True) true program := by
  induction program with
  | ret response => trivial
  | await r k ih =>
    refine ⟨.inl rfl, fun x _ => ?_⟩
    have hnext : armFirst.next true r x = true := by cases r <;> rfl
    rw [hnext]
    exact ih x

theorem armsFirst_dispatchWork (ctx : ToolContext) (header : AuditHeader)
    (work : ToolProg Outcome) : ArmsFirst (dispatchWork ctx header work) := by
  have hemit : ∀ e, armFirst.allowed false (.emit e) := by
    intro e
    refine .inr ?_
    rintro ⟨_, _, _, ⟨⟩⟩
  unfold dispatchWork auditDispatch
  split_ifs
  · exact ⟨hemit _, fun _ _ => ⟨hemit _, fun _ _ => trivial⟩⟩
  · refine ⟨.inr (by rintro ⟨_, _, _, ⟨⟩⟩), fun _ _ => ?_⟩
    exact ⟨.inr (by rintro ⟨_, _, _, ⟨⟩⟩), fun _ _ => obeys_armed _⟩

theorem Dispatches.armsFirst {ctx header program} (h : Dispatches ctx header program) :
    ArmsFirst program := by
  cases h with
  | work work => exact armsFirst_dispatchWork ctx header work
  | withGrants work =>
    refine Protocol.Obeys.bind (p := loadOrEmpty ctx) ?_
    unfold loadOrEmpty
    split_ifs
    · refine ⟨.inr (by rintro ⟨_, _, _, ⟨⟩⟩), ?_⟩
      rintro (_ | dbGrants) -
      · exact armsFirst_dispatchWork ctx header _
      · exact armsFirst_dispatchWork ctx header _
    · exact armsFirst_dispatchWork ctx header _

/-! ## Runs -/

section

variable {Req : Type} {Resp : Req → Type} {σ : Type}

variable {E : Env Req Resp σ} {r : DispatchReq Req} {w w' : World σ}

theorem performs_started {auditId : Uuid} {writer : Writer} {x : DispatchResp Resp r}
    (hp : Performs E auditId writer r w x w') (h : w.started = true) : w'.started = true := by
  cases r with
  | tool r =>
    obtain ⟨env, -, rfl⟩ := hp
    exact h
  | newUuid =>
    obtain ⟨-, rfl⟩ := hp
    exact h
  | armGuard guard =>
    obtain rfl := hp
    rfl
  | insertReply row =>
    obtain ⟨rfl, -⟩ := hp
    exact h
  | recordOutcome o | disarm | emit e | insert row | streamSend sinks row =>
    obtain rfl := hp
    exact h

theorem abandons_started (ha : Abandons E r w w') : w'.started = w.started := by
  cases r with
  | tool r =>
    obtain ⟨env, -, rfl⟩ := ha
    rfl
  | insertReply row => rw [ha]
  | _ => exact ha.elim

theorem retryExpected_started (c : Call) (completed : Option Outcome) (row : AuditRow)
    (ψ : RetryPhase) : (retryExpected c completed row ψ).started = true := by
  cases ψ <;> rfl

section

variable (t : RequestTask Resp)
  (d : Option (DispatchProg Resp Unit)) (w : World σ)

theorem leave_env : (Run.leave t d w).world.env = w.env := by
  unfold Run.leave
  cases w.guard <;> rfl

theorem leave_started :
    (Run.leave t d w).world.started = w.started := by
  unfold Run.leave
  cases w.guard <;> rfl

end

end

/-- What has been committed was committed by a started call, and a call that has
    not been started will arm its guard first. -/
structure Ordered (s : Run ToolResp (List ExecQuery)) : Prop where
  committed : s.world.env ≠ [] → s.world.started = true
  program : ∀ program, s.task = .running program → s.world.started = false → ArmsFirst program

variable {s : Run ToolResp (List ExecQuery)} {w : World (List ExecQuery)} {c : Call}
  {early : Response → Prop}

theorem ordered_of_started (h : s.world.started = true) :
    Ordered s where
  committed _ := h
  program _ _ hnot := by simp [h] at hnot

theorem answers_of_not_execute {r : ToolReq} {x done done'}
    (h : targets.answers r done x done') (hr : ¬ IsExecute (.tool r)) : done' = done := by
  cases r with
  | execute server database query => exact absurd ⟨server, database, query, rfl⟩ hr
  | _ => exact h

theorem abandons_of_not_execute {r : ToolReq} {done done'}
    (h : targets.abandons r done done') (hr : ¬ IsExecute (.tool r)) : done' = done := by
  cases r with
  | execute server database query => exact absurd ⟨server, database, query, rfl⟩ hr
  | _ => exact h

/-- The request task gets a reply before the guard is armed. -/
theorem ordered_reply {auditId : Uuid} {r x}
    {k : DispatchResp ToolResp r → DispatchProg ToolResp Response}
    {d w'}
    (hp : Performs targets auditId .primary r w x w') (henv : w.env = [])
    (hprogram : ArmsFirst (await r k)) : Ordered ⟨.running (k x), d, w'⟩ := by
  obtain ⟨hallowed, hrest⟩ := hprogram
  have hexec : ¬ IsExecute r := hallowed.resolve_left (by simp)
  have hordered : w'.env = [] → armFirst.next false r x = false →
      Ordered ⟨.running (k x), d, w'⟩ := by
    intro henv' hnext
    refine ⟨fun h => absurd henv' h, ?_⟩
    rintro _ ⟨⟩ -
    have hobeys := hrest x trivial
    rwa [hnext] at hobeys
  cases r with
  | tool r =>
    obtain ⟨env, hanswers, rfl⟩ := hp
    exact hordered ((answers_of_not_execute hanswers hexec).trans henv) rfl
  | newUuid =>
    obtain ⟨-, rfl⟩ := hp
    exact hordered henv rfl
  | armGuard guard =>
    obtain rfl := hp
    exact ordered_of_started rfl
  | insertReply row =>
    obtain ⟨rfl, -⟩ := hp
    exact hordered henv rfl
  | recordOutcome o | disarm | emit e | insert row | streamSend sinks row =>
    obtain rfl := hp
    exact hordered henv rfl

/-- A task dropped anywhere but in an execution has committed nothing more. -/
theorem abandons_env {r} {w' : World (List ExecQuery)}
    (ha : Abandons targets r w w') (hexec : ¬ IsExecute r) : w'.env = w.env := by
  cases r with
  | tool r =>
    obtain ⟨env, habandons, rfl⟩ := ha
    exact abandons_of_not_execute habandons hexec
  | insertReply row => rw [ha]
  | _ => exact ha.elim

/-- The request task ends; its end is not a program. -/
theorem ordered_leave {t d} (ht : ∀ program, t ≠ .running program)
    (h : w.env ≠ [] → w.started = true) :
    Ordered (Run.leave t d w) where
  committed hne := by
    rw [leave_env] at hne
    rw [leave_started]
    exact h hne
  program program hrunning := by
    rw [leave_task] at hrunning
    exact absurd hrunning (ht program)

theorem ordered_step {s' : Run ToolResp (List ExecQuery)} (hinv : Inv c early s) (h : Ordered s)
    (hstep : Step targets c.auditId s s') : Ordered s' := by
  by_cases hstarted : s.world.started = true
  · -- a started call stays started
    refine ordered_of_started ?_
    cases hstep with
    | interfere hi =>
      obtain ⟨-⟩ := hi
      exact hstarted
    | progress hp =>
      cases hp with
      | reply hp | detached hp => exact performs_started hp hstarted
      | drop ha => rw [leave_started, abandons_started ha]; exact hstarted
      | finish => rw [leave_started]; exact hstarted
      | settle hs => cases hs <;> exact hstarted
  · have hnot : s.world.started = false := by simpa using hstarted
    have henv : s.world.env = [] := by
      by_contra hne
      exact hstarted (h.committed hne)
    cases hstep with
    | interfere hi =>
      obtain ⟨-⟩ := hi
      exact ⟨h.committed, h.program⟩
    | progress hp =>
      cases hp with
      | reply hp => exact ordered_reply hp henv (h.program _ rfl hnot)
      | drop ha =>
        have hallowed := (h.program _ rfl hnot).1
        have henv' := abandons_env ha (hallowed.resolve_left (by simp))
        exact ordered_leave (by rintro _ ⟨⟩) fun hne => absurd (henv'.trans henv) hne
      | finish => exact ordered_leave (by rintro _ ⟨⟩) h.committed
      | detached hp =>
        -- a detached task is there only after the start
        cases hinv with
        | retry _ _ hw _ =>
          have hretry := hw.started
          rw [retryExpected_started] at hretry
          exact absurd hretry hstarted
      | settle hs => cases hs <;> exact ⟨h.committed, h.program⟩

theorem ordered_steps {program table}
    (hprogram : (requestProtocol c).Obeys (RequestFinal c early) .idle program)
    (hfresh : rowsOf c.auditId table = []) (harms : ArmsFirst program)
    (hs : Steps targets c.auditId (Run.start program table []) s) : Ordered s := by
  induction hs with
  | refl =>
    refine ⟨fun h => absurd rfl h, ?_⟩
    rintro _ ⟨⟩ -
    exact harms
  | tail hs hstep ih => exact ordered_step (inv_steps hprogram hfresh hs) ih hstep

/-! ## Every committed statement is audited -/

/-- When all is done, a call that has committed a statement has an audit row. -/
def WriteAudited (auditId : Uuid) (s : Run ToolResp (List ExecQuery)) : Prop :=
  s.Quiescent → s.world.env ≠ [] → ∃ row ∈ s.world.table, row.id = auditId

theorem writeAudited_of_obeys {program table}
    (hprogram : (requestProtocol c).Obeys (RequestFinal c early) .idle program)
    (hfresh : rowsOf c.auditId table = []) (harms : ArmsFirst program)
    (hs : Steps targets c.auditId (Run.start program table []) s)
    (hkept : .fallback ∉ s.world.lost) : WriteAudited c.auditId s := by
  intro hquiescent hcommitted
  have hstarted := (ordered_steps hprogram hfresh harms hs).committed hcommitted
  have haudited := audited_of_inv (inv_steps hprogram hfresh hs)
  obtain ⟨row, hrow⟩ := haudited.exactlyOne hquiescent hstarted hkept
  have hmem : row ∈ rowsOf c.auditId s.world.table := by simp [hrow]
  exact ⟨row, mem_rowsOf.mp hmem⟩

/-- **No unaudited write, while the state DB keeps the retry.** In every run of
    every call, for every behaviour of the targets and of the state DB and
    wherever the call is dropped: if the state DB has not lost the insert of the
    detached retry, then when all is done a call that has committed a statement
    has a durable audit row. -/
theorem dispatchCall_write_audited (ext : Extern) (id : Json) (identity : Option Identity)
    (config : ConfigFile) (permissionsCache stateDb : Bool) (requestCtx : RequestContext)
    (params : Option Json) (auditId : Uuid) (table : List AuditRow)
    (hfresh : rowsOf auditId table = []) (s : Run ToolResp (List ExecQuery))
    (hs : Steps targets auditId (Run.start (dispatchCall ext id identity config permissionsCache
      stateDb requestCtx params) table []) s)
    (hkept : .fallback ∉ s.world.lost) : WriteAudited auditId s := by
  rcases dispatchCall_cases ext id identity config permissionsCache stateDb requestCtx params with
    ⟨response, hret⟩ | ⟨caller, header, hdispatches⟩
  · -- answered on the spot: the protocol of any call is obeyed
    rw [hret] at hs
    let c : Call := ⟨ext, id, ⟨"", "", []⟩, requestCtx, { tool := .listServers }, [], auditId⟩
    have hobeys : (requestProtocol c).Obeys (RequestFinal c fun _ => True) .idle
      (ret response : DispatchProg ToolResp Response) := trivial
    have harms : ArmsFirst (ret response) := trivial
    exact writeAudited_of_obeys hobeys hfresh harms hs hkept
  · exact writeAudited_of_obeys hdispatches.follows hfresh hdispatches.armsFirst hs hkept

/-! ## An unaudited write -/

/-- A parser that finds one `INSERT` in every text. -/
def insertExtern : Extern := { plainExtern with parseSql := fun _ => .ok [.insert none []] }

/-- Writers may write to the orders. -/
def writerConfig : ConfigFile where
  servers := [shopServer]
  permissions := [⟨"writers", [⟨"shop", "orders", .queryWrite, {}⟩]⟩]

/-- A writer's call, with a state DB. -/
def insertContext : ToolContext where
  ext := insertExtern
  id := .int 1
  identity := ⟨"wil", "wil@example.com", ["writers"]⟩
  config := writerConfig
  permissionsCache := false
  stateDb := true
  requestCtx := { requestId := "r1" }

def insertArguments : RunQuery.Arguments where
  server := "shop"
  database := "orders"
  sql := "INSERT INTO lines VALUES (1)"
  limit := none
  reason := none

/-- The statement it executes. -/
def insertQuery : ExecQuery where
  sql := "INSERT INTO lines VALUES (1)"
  binds := []
  statementTimeoutMs := none
  rowLimit := 1000

def insertCall : DispatchProg ToolResp Response :=
  dispatchCall insertExtern (.int 1) (some insertContext.identity) writerConfig false true
    { requestId := "r1" }
    (some (.obj [("name", .str "run_query"), ("arguments", .obj [("server", .str "shop"),
      ("database", .str "orders"), ("sql", .str "INSERT INTO lines VALUES (1)")])]))

/-- A target that executes it without any failure. -/
def writableTarget : Pg.PgTarget := { Pg.healthyTarget with rows := [] }

theorem computeOutcome_insert :
    RunQuery.computeOutcome insertContext [] insertArguments =
      await (.logDispatch "r1" "wil" "shop" "orders" 1000 none) fun _ =>
        executeOn insertContext RunQuery.errorMessages shopServer ordersDatabase insertQuery
          (rowsOutcome insertContext) := by
  have hfound : findServerDb insertContext.config insertArguments.server insertArguments.database =
      some (shopServer, ordersDatabase) := by decide
  have hallowed : evaluateEffective insertContext.identity .queryRead shopServer.name
      ordersDatabase.name insertContext.config.permissions [] = .allow {} := by decide
  have haccess : RunQuery.access insertContext [] shopServer ordersDatabase = .readWrite := by decide
  unfold RunQuery.computeOutcome withTarget
  simp only [hfound, hallowed, haccess]
  rfl

theorem insertCall_eq : insertCall =
    dispatchWork insertContext (RunQuery.header writerConfig insertArguments)
      (RunQuery.computeOutcome insertContext [] insertArguments) := by
  have hname : (⟨"run_query", some (.obj [("server", .str "shop"), ("database", .str "orders"),
      ("sql", .str "INSERT INTO lines VALUES (1)")])⟩ : CallParams).name = Tool.runQuery.name := rfl
  exact dispatchTool_of_name hname

theorem runOn_writable : ∃ result,
    Pg.runOn writableTarget insertQuery = (.ok result, ⟨.committed, []⟩) := by
  obtain ⟨pid, h⟩ := Pg.runOn_reached insertQuery (t := writableTarget) ⟨rfl, ⟨7, rfl⟩, rfl⟩
  exact ⟨_, h.trans rfl⟩

theorem answers_insert : ∃ result, targets.answers (.execute shopServer ordersDatabase insertQuery) []
    (.ok result) [insertQuery] := by
  obtain ⟨result, hrun⟩ := runOn_writable
  have hexec : PgExecutes insertQuery (Pg.runOn writableTarget insertQuery).1
      (decide ((Pg.runOn writableTarget insertQuery).2.tx = .committed)) := .answered writableTarget
  rw [hrun] at hexec
  exact ⟨result, true, hexec, rfl⟩

/-- The `INSERT` commits on the target, the state DB loses the insert of the row,
    and the caller is told that the request was rejected; the retry is to come. -/
theorem insertCall_rejected : ∃ (row : AuditRow) (w : World (List ExecQuery)),
    Steps targets 7 (Run.start insertCall [] [])
        ⟨.returned (auditRejected insertExtern (.int 1) .write), some (fallback [] row), w⟩ ∧
      w.env = [insertQuery] ∧ w.table = [] ∧ w.inflight = [] ∧ w.lost = [.primary] := by
  obtain ⟨result, hresult⟩ := answers_insert
  rw [insertCall_eq, computeOutcome_insert]
  apply Exists.intro
  apply Exists.intro
  apply And.intro
  · apply Steps.reply .newUuid 7 ⟨rfl, rfl⟩
    apply Steps.reply (.armGuard _) () rfl
    apply Steps.reply (.tool (ToolReq.logDispatch _ _ _ _ _ _)) () ⟨_, rfl, rfl⟩
    apply Steps.reply (.tool (ToolReq.getOrOpen _ _)) (.ok ()) ⟨_, rfl, rfl⟩
    apply Steps.reply (.tool (ToolReq.execute _ _ _)) (.ok result) ⟨_, hresult, rfl⟩
    apply Steps.reply (.recordOutcome _) () rfl
    apply Steps.reply (.emit _) () rfl
    apply Steps.reply (.emit _) () rfl
    apply Steps.reply (.emit _) () rfl
    apply Steps.reply (.insert _) () rfl
    apply Steps.settle (.lose List.mem_cons_self)
    apply Steps.reply (.insertReply _) (.error .write) ⟨rfl, by rintro ⟨⟩⟩
    apply Steps.reply (.emit _) () rfl
    apply Steps.reply (.emit _) () rfl
    exact .single (.progress .finish)
  · refine ⟨rfl, rfl, ?_, rfl⟩
    simp

/-- A write without a row: the `INSERT` commits on the target, the state DB loses
    the insert of the row and the one of the detached retry, and the caller is
    told that the request was rejected. -/
theorem dispatchCall_unaudited_write : ∃ s : Run ToolResp (List ExecQuery),
    Steps targets 7 (Run.start insertCall [] []) s ∧ s.Quiescent ∧
      s.task = .returned (auditRejected insertExtern (.int 1) .write) ∧
      s.world.env = [insertQuery] ∧
      insertExtern.parseSql insertQuery.sql = .ok [.insert none []] ∧ s.world.table = [] := by
  obtain ⟨row, w, hsteps, henv, htable, hinflight, -⟩ := insertCall_rejected
  apply Exists.intro
  apply And.intro
  · apply hsteps.trans
    apply Steps.detached (.insert _) () rfl
    apply Steps.settle (.lose List.mem_cons_self)
    apply Steps.detached (.insertReply _) (.error .write) ⟨rfl, by rintro ⟨⟩⟩
    exact .single (.progress (.detached (r := .emit _) (x := ()) rfl))
  · refine ⟨⟨by rintro _ ⟨⟩, by rintro _ _ ⟨⟩, ?_⟩, rfl, henv, rfl, htable⟩
    simp [hinflight]

/-- The theorem in the run whose detached retry commits. -/
theorem dispatchCall_write_audited_retry : ∃ s : Run ToolResp (List ExecQuery),
    s.Quiescent ∧ s.task = .returned (auditRejected insertExtern (.int 1) .write) ∧
      s.world.env = [insertQuery] ∧ WriteAudited 7 s ∧ ∃ row ∈ s.world.table, row.id = 7 := by
  obtain ⟨row, w, hsteps, henv, htable, hinflight, hlost⟩ := insertCall_rejected
  have hack : rowsOf row.id (insertRow w.table row) ≠ [] := by
    have hempty : rowsOf row.id w.table = [] := by rw [htable]; rfl
    rw [rowsOf_insertRow, if_pos hempty]
    simp
  have hretry : ∃ w' : World (List ExecQuery), Steps targets 7 (Run.start insertCall [] [])
        ⟨.returned (auditRejected insertExtern (.int 1) .write), some (ret ()), w'⟩ ∧
      w'.env = [insertQuery] ∧ w'.inflight = [] ∧ w'.lost = [.primary] := by
    apply Exists.intro
    apply And.intro
    · apply hsteps.trans
      apply Steps.detached (.insert _) () rfl
      apply Steps.settle (.commit List.mem_cons_self)
      apply Steps.detached (.insertReply _) (.ok ()) ⟨rfl, fun _ => hack⟩
      exact .single (.progress (.detached (r := .streamSend _ _) (x := ()) rfl))
    · exact ⟨henv, by simp [hinflight], hlost⟩
  obtain ⟨w', hsteps', henv', hinflight', hlost'⟩ := hretry
  have haudited := dispatchCall_write_audited insertExtern (.int 1) (some insertContext.identity)
    writerConfig false true { requestId := "r1" } _ 7 [] rfl _ hsteps' (by simp [hlost'])
  have hquiescent : Run.Quiescent (⟨.returned (auditRejected insertExtern (.int 1) .write),
      some (ret ()), w'⟩ : Run ToolResp (List ExecQuery)) :=
    ⟨by rintro _ ⟨⟩, by rintro _ _ ⟨⟩, hinflight'⟩
  exact ⟨_, hquiescent, rfl, henv', haudited, haudited hquiescent (by simp [henv'])⟩

end DbMcpGateway.Tools
