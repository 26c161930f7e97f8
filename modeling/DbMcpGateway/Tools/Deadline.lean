import DbMcpGateway.Admin.Handlers
import DbMcpGateway.Config.Yaml
import DbMcpGateway.Exec.Mongo
import DbMcpGateway.Exec.Pg
import DbMcpGateway.Tools.Policy

/-!
# The deadline of a statement

The timeout of a grant comes from the config file or, through its JSON form, from the admin
API; it is merged with those of the other applicable grants, clamped by the adapter, and sent
as `SET LOCAL statement_timeout` or `maxTimeMS`. To both databases 0 means that there is no
deadline.

Results:

* `asks_setStatementTimeout`, `execute_maxTimeMS`: what the two adapters send.
* `bounded_iff`: when it is a deadline within the ceiling.
* `deadline_iff`: for which grants every statement of a call has one.
-/

namespace DbMcpGateway.Tools

open Async Async.Prog Audit Authz Config Exec Transport

/-! ## What the adapters send -/

section

variable {A : (r : Pg.PgReq) → Pg.PgResp r → Prop} {query : ExecQuery} {ms : ℕ}

variable {columns : List String} {pid : ℤ}

theorem not_asks_fetchRows {room : ℕ} {rows} :
    ¬ Asks A (Pg.fetchRows room columns rows) (.setStatementTimeout ms) := by
  intro h
  induction room generalizing columns rows with
  | zero =>
    rw [Pg.fetchRows, ask_bind, asks_await] at h
    rcases h with h | ⟨_ | _ | row, -, h⟩
    · cases h
    · exact asks_ret h
    · exact asks_ret h
    · exact asks_ret h
  | succ room ih =>
    rw [Pg.fetchRows, ask_bind, asks_await] at h
    rcases h with h | ⟨_ | _ | row, -, h⟩
    · cases h
    · exact asks_ret h
    · exact asks_ret h
    · exact ih h

theorem not_asks_describeColumns {sql : String} :
    ¬ Asks A (Pg.describeColumns sql columns) (.setStatementTimeout ms) := by
  unfold Pg.describeColumns
  split_ifs
  · rw [ask_bind, asks_await]
    rintro (h | ⟨_ | _, -, h⟩) <;> cases h
  · exact asks_ret

theorem not_asks_endTransaction {truncated : Bool} :
    ¬ Asks A (Pg.endTransaction pid truncated) (.setStatementTimeout ms) := by
  unfold Pg.endTransaction
  split_ifs
  · simp [Pg.cancelAndRollback]
  · rw [ask_bind, asks_await]
    rintro (h | ⟨_ | _, -, h⟩) <;> cases h

theorem not_asks_finish {sql : String} {rows} {truncated : Bool} :
    ¬ Asks A (Pg.finish sql pid columns rows truncated) (.setStatementTimeout ms) := by
  intro h
  rcases asks_bind.mp h with h | ⟨columns', -, h⟩
  · exact not_asks_describeColumns h
  · rcases asks_bind.mp h with h | ⟨_ | _, -, h⟩
    · exact not_asks_endTransaction h
    · exact asks_ret h
    · simp at h

theorem asks_runStatement (h : Asks A (Pg.runStatement query pid) (.setStatementTimeout ms)) :
    ms = effectiveTimeoutMs query.statementTimeoutMs := by
  rw [Pg.runStatement, ask_bind, asks_await] at h
  rcases h with h | ⟨_ | _, -, h⟩
  · injection h
  · exact absurd h asks_ret
  · rw [ask_bind, asks_await] at h
    rcases h with h | ⟨_, -, h⟩
    · cases h
    rcases asks_bind.mp h with h | ⟨_ | ⟨columns, rows, truncated⟩, -, h⟩
    · exact absurd h not_asks_fetchRows
    · exact absurd h asks_ret
    · exact absurd h not_asks_finish

theorem asks_setStatementTimeout
    (h : Asks A (Pg.runQueryInner query) (.setStatementTimeout ms)) :
    ms = effectiveTimeoutMs query.statementTimeoutMs := by
  rw [Pg.runQueryInner, ask_bind, asks_await] at h
  rcases h with h | ⟨_ | _, -, h⟩
  · cases h
  · exact absurd h asks_ret
  rw [ask_bind, asks_await] at h
  rcases h with h | ⟨_ | pid, -, h⟩
  · cases h
  · exact absurd h asks_ret
  dsimp only at h
  rw [ask_bind, asks_await] at h
  rcases h with h | ⟨_, -, h⟩
  · cases h
  rcases asks_bind.mp h with h | ⟨result, -, h⟩
  · exact asks_runStatement h
  · simp at h

end

theorem setStatementTimeout_asked (query : ExecQuery) :
    Asks (fun _ _ => True) (Pg.runQueryInner query)
      (.setStatementTimeout (effectiveTimeoutMs query.statementTimeoutMs)) :=
  .later (x := .ok ()) trivial (.later (x := .ok 0) trivial (.later (x := ()) trivial .here))

/-- `maxTimeMS` is the effective timeout in every command. -/
theorem execute_maxTimeMS {lib parseJson} {query : ExecQuery}
    {A : (r : Mongo.MongoReq) → Mongo.MongoResp r → Prop} {r cmd}
    (h : Asks A (Mongo.execute lib parseJson query) r) (hsends : Mongo.Sends r cmd) :
    OrdMap.get? cmd "maxTimeMS" = some (.int (effectiveTimeoutMs query.statementTimeoutMs)) := by
  unfold Mongo.execute at h
  split at h
  · exact absurd h asks_ret
  cases hdoc : Mongo.parseDocument lib parseJson query.sql with
  | none =>
    simp only [Mongo.dispatch, hdoc] at h
    exact absurd h asks_ret
  | some doc =>
    cases hfirst : Mongo.firstCommandName doc with
    | none =>
      simp only [Mongo.dispatch, hdoc, hfirst] at h
      exact absurd h asks_ret
    | some command =>
      obtain ⟨_, -, hstamped⟩ := Mongo.dispatch_sends hdoc hfirst h hsends
      exact hstamped.maxTimeMS

/-! ## Deadlines within the ceiling -/

/-- A deadline within the ceiling of the gateway. -/
def IsDeadline (ms : ℕ) : Prop := 1 ≤ ms ∧ ms ≤ defaultStatementTimeoutMs

/-- Whatever the databases reply, both adapters send a deadline within the ceiling. -/
structure Bounded (query : ExecQuery) : Prop where
  pg : ∀ A ms, Asks A (Pg.runQueryInner query) (.setStatementTimeout ms) → IsDeadline ms
  mongo : ∀ lib parseJson A r cmd, Asks A (Mongo.execute lib parseJson query) r →
    Mongo.Sends r cmd → ∃ ms : ℕ, OrdMap.get? cmd "maxTimeMS" = some (.int ms) ∧ IsDeadline ms

theorem isDeadline_effectiveTimeoutMs {grant} :
    IsDeadline (effectiveTimeoutMs grant) ↔ grant ≠ some 0 := by
  cases grant with
  | none => simp [IsDeadline, effectiveTimeoutMs, defaultStatementTimeoutMs]
  | some n =>
    simp only [IsDeadline, effectiveTimeoutMs, defaultStatementTimeoutMs, Option.getD_some, ne_eq,
      Option.some.injEq]
    omega

theorem bounded_iff {query : ExecQuery} : Bounded query ↔ query.statementTimeoutMs ≠ some 0 := by
  rw [← isDeadline_effectiveTimeoutMs]
  constructor
  · intro h
    exact h.pg _ _ (setStatementTimeout_asked query)
  · intro h
    refine ⟨fun A ms hasks => ?_, fun lib parseJson A r cmd hasks hsends => ?_⟩
    · rw [asks_setStatementTimeout hasks]
      exact h
    · exact ⟨_, execute_maxTimeMS hasks hsends, h⟩

theorem timeout_eq_zero_iff {identity : Identity} {action : Action} {server database : String}
    {permissions dbGrants} {c : Constraints}
    (h : evaluateEffective identity action server database permissions dbGrants = .allow c) :
    c.statementTimeoutMs = some 0 ↔
      ∃ g ∈ applicable identity action server database permissions dbGrants,
        g.constraints.statementTimeoutMs = some 0 := by
  have hleast := (evaluateEffective_mostRestrictive h).timeout
  constructor
  · intro hzero
    rw [hzero] at hleast
    obtain ⟨⟨_, ⟨g, hg, rfl⟩, hn⟩, -⟩ := hleast
    exact ⟨g, hg, hn⟩
  · rintro ⟨g, hg, hn⟩
    obtain ⟨m, hm, hle⟩ := (restricts_of_applicable h hg).timeout 0 hn
    rw [hm, Nat.le_zero.mp hle]

section

variable (ext : Extern) (id : Json) (identity : Option Identity) (config : ConfigFile)
  (permissionsCache stateDb : Bool) (requestCtx : RequestContext) (params : Option Json)
  (grants : List Grant) (auditId : Uuid)

/-- **Which grants leave a statement without a deadline.** For every caller, config, DB grants
    and parameters, a statement that a call executes has a deadline within the ceiling exactly
    if no applicable grant has the timeout 0. -/
theorem deadline_iff (server : Server) (database : Database) (query : ExecQuery)
    (h : Asks (Within auditId (LoadsGrants grants))
      (dispatchCall ext id identity config permissionsCache stateDb requestCtx params)
      (.tool (.execute server database query))) :
    ∃ caller call tool action, identity = some caller ∧
      params.bind CallParams.fromValue = some call ∧ call.name = Tool.name tool ∧
      tool.action = some action ∧
      (Bounded query ↔
        ∀ g ∈ applicable caller action server.name database.name config.permissions
          (if permissionsCache then grants else []), g.constraints.statementTimeoutMs ≠ some 0) := by
  obtain ⟨caller, call, tool, hidentity, hcall, hname, -, server, database, constraints, query,
    hexec, ⟨⟩⟩ := (asks_dispatchCall rfl).mp h
  obtain ⟨action, target, haction, -, -, hallowed⟩ := hexec.decides
  refine ⟨caller, call, tool, action, hidentity, hcall, hname, haction, ?_⟩
  rw [bounded_iff, hexec.statementTimeoutMs, Ne, timeout_eq_zero_iff hallowed]
  push Not
  rfl

end

/-! ### Grants with a timeout -/

/-- A grant of the file with a timeout. -/
def timedConfig (ms : ℕ) : ConfigFile where
  servers := [shopServer]
  permissions := [⟨"analysts", [⟨"shop", "*", .queryRead, { statementTimeoutMs := some ms }⟩]⟩]

/-- The statement of a sample under that grant. -/
def timedQuery (ms : ℕ) : ExecQuery where
  sql := SampleTable.sampleSql "public" "lines" (SampleTable.saturatingSucc 10)
  binds := []
  statementTimeoutMs := some ms
  rowLimit := 10

def sampleParams : Json := .obj [("name", .str "sample_table"), ("arguments", sampleArguments)]

theorem asks_timedQuery {config : ConfigFile} {grants} {ms : ℕ}
    (hfound : findServerDb config "shop" "orders" = some (shopServer, ordersDatabase))
    (hallowed : evaluateEffective analyst .queryRead "shop" "orders" config.permissions grants =
      .allow { statementTimeoutMs := some ms }) :
    Asks (Within 7 (LoadsGrants grants))
      (dispatchCall plainExtern (.int 1) (some analyst) config true true { requestId := "r1" }
        (some sampleParams)) (.tool (.execute shopServer ordersDatabase (timedQuery ms))) := by
  refine (asks_dispatchCall rfl).mpr ⟨analyst, ⟨"sample_table", some sampleArguments⟩, .sampleTable,
    rfl, rfl, rfl, rfl, shopServer, ordersDatabase, { statementTimeoutMs := some ms }, timedQuery ms,
    ?_, .execute⟩
  apply Executes.sampleTable (show (some sampleArguments).bind SampleTable.Arguments.fromValue =
    some ⟨"shop", "orders", "lines", none, none, none⟩ from rfl)
  · exact ⟨hfound, hallowed⟩
  · rintro ⟨⟩
  · decide
  · decide
  · rfl

/-- A grant with a timeout of a quarter of a second bounds the sample. -/
theorem deadline_sample :
    Asks (Within 7 (LoadsGrants []))
      (dispatchCall plainExtern (.int 1) (some analyst) (timedConfig 250) true true
        { requestId := "r1" } (some sampleParams))
      (.tool (.execute shopServer ordersDatabase (timedQuery 250))) ∧ Bounded (timedQuery 250) := by
  have h := @asks_timedQuery (timedConfig 250) [] 250 rfl rfl
  refine ⟨h, ?_⟩
  obtain ⟨caller, call, tool, action, ⟨⟩, -, -, -, hiff⟩ :=
    deadline_iff plainExtern (.int 1) (some analyst) (timedConfig 250) true true _ _ [] 7 _ _ _ h
  refine hiff.mpr ?_
  rintro g ⟨⟨p, hp, -, hg⟩ | hg, -⟩
  · obtain rfl := List.mem_singleton.mp hp
    obtain rfl := List.mem_singleton.mp hg
    decide
  · cases hg

/-- The constraints of a grant with a timeout, as the admin API stores them. -/
def timedJson (ms : ℕ) : Json := Admin.Grants.constraintsToJson { statementTimeoutMs := some ms }

/-- The body of a request for such a grant on the database 5. -/
def timedRequest (ms : ℕ) : Admin.Grants.CreateGrantRequest where
  userId := 2
  databaseId := some 5
  action := "query_read"
  constraints := { statementTimeoutMs := some ms }

/-- The timeout 0 is accepted in the config file and by the admin API, and leaves the
    statement without a deadline. -/
theorem zero_timeout_unbounded :
    (validate (timedConfig 0) = .ok () ∧
      Asks (Within 7 (LoadsGrants []))
        (dispatchCall plainExtern (.int 1) (some analyst) (timedConfig 0) true true
          { requestId := "r1" } (some sampleParams))
        (.tool (.execute shopServer ordersDatabase (timedQuery 0)))) ∧
    (Asks (fun _ _ => True)
        (Admin.Grants.create ⟨"root", "root@example.com", [], "r2"⟩ true (some (timedRequest 0))).run
        (.stmt (.createGrant 2 (.specific 5) .queryRead (timedJson 0))) ∧
      ∃ grants, project [⟨5, "shop", "orders", .postgres, 0, 0, none⟩]
          [⟨1, 2, .specific 5, .queryRead, timedJson 0, 0, 0, none⟩] = .ok grants ∧
        Asks (Within 7 (LoadsGrants grants))
          (dispatchCall plainExtern (.int 1) (some analyst) { servers := [shopServer] } true true
            { requestId := "r1" } (some sampleParams))
          (.tool (.execute shopServer ordersDatabase (timedQuery 0)))) ∧
    ¬ Bounded (timedQuery 0) := by
  refine ⟨⟨by decide +kernel, asks_timedQuery rfl rfl⟩, ⟨?_, _, rfl, asks_timedQuery rfl rfl⟩, ?_⟩
  · exact .later (x := .ok ()) trivial .here
  · rw [bounded_iff]
    exact not_not.mpr rfl

end DbMcpGateway.Tools
