import DbMcpGateway.Tools.Policy
import DbMcpGateway.Tools.Simulation
import DbMcpGateway.Tools.View

/-!
# Uncovered targets do not leak

A two-run property: for one caller and two configurations that differ only in
what no grant of the caller covers, every call gives the same response, if what
the call waits for behaves the same in both runs. Elapsed times are ignored.

Each tool looks its target up and authorizes it before it does anything else, so
that an unknown target and one without a grant are answered alike
(`withTarget_of_not_covers`, `listDatabases_hidden`); a covered target is the same
in both configurations.

Results:

* `sim_dispatchCall`: the two programs of a call are in step.
* `dispatchCall_nonleak`: in environments that behave the same, the responses are
  the same.
-/

namespace DbMcpGateway.Tools

open Async Async.Prog Audit Authz Config Exec Transport

/-! ## The tools -/

section

variable {ctx : ToolContext} {config' : ConfigFile} {grants : List Grant}

variable {dbGrants : List Grant} {server server' : Server}

theorem sameServer_of_restrict {caller : Identity} {permissions}
    (h : restrict caller permissions dbGrants server' = restrict caller permissions dbGrants server) :
    SameServer server server' := by
  have hfields := congrArg (fun s : Server => { s with databases := [] }) h
  exact hfields.symm

theorem SameServer.name (h : SameServer server server') :
    server'.name = server.name := by
  have hname := congrArg Server.name h
  exact hname.symm

theorem SameServer.kind (h : SameServer server server') :
    server'.kind = server.kind := by
  have hkind := congrArg Server.kind h
  exact hkind.symm

variable {ctx : ToolContext} {action : Action} {serverName databaseName : String}
  {k : Server → Database → Constraints → ToolProg Outcome}

theorem withTarget_of_not_covers
    (h : covers ctx.identity ctx.config.permissions dbGrants serverName databaseName = false) :
    withTarget ctx action dbGrants serverName databaseName k = ret (forbidden ctx) := by
  unfold withTarget
  cases hfound : findServerDb ctx.config serverName databaseName with
  | none => rfl
  | some target =>
    obtain ⟨server, database⟩ := target
    obtain ⟨-, rfl, -, rfl⟩ := findServerDb_some hfound
    dsimp only
    rw [deny_of_not_covers h action]
    rfl

/-- The databases that `list_databases` shows are covered. -/
theorem filter_visible (dbGrants : List Grant) (server : Server) :
    server.databases.filter (ListDatabases.visible ctx dbGrants server) =
      (restrict ctx.identity ctx.config.permissions dbGrants server).databases.filter
        (ListDatabases.visible ctx dbGrants server) := by
  rw [restrict, List.filter_filter]
  refine List.filter_congr fun database _ => ?_
  cases hcovers : covers ctx.identity ctx.config.permissions dbGrants server.name database.name with
  | true => simp
  | false => simp [ListDatabases.visible, deny_of_not_covers hcovers]

theorem filter_visible_hidden
    (h : canSeeServerEffective ctx.identity server ctx.config.permissions dbGrants = false) :
    server.databases.filter (ListDatabases.visible ctx dbGrants server) = [] := by
  rw [List.filter_eq_nil_iff]
  intro database hmem
  cases hcovers : covers ctx.identity ctx.config.permissions dbGrants server.name database.name with
  | true => rw [canSee_of_covers hmem hcovers] at h; cases h
  | false => simp [ListDatabases.visible, deny_of_not_covers hcovers]

theorem listDatabases_hidden {args : ListDatabases.Arguments}
    (h : ∀ server, findServer ctx.config args.server = some server →
      canSeeServerEffective ctx.identity server ctx.config.permissions dbGrants = false) :
    ListDatabases.computeOutcome ctx dbGrants args =
      failWith ctx .forbidden "no grants for this server" := by
  unfold ListDatabases.computeOutcome
  cases hfound : findServer ctx.config args.server with
  | none => rfl
  | some server =>
    dsimp only
    rw [filter_visible_hidden (h server hfound)]
    rfl

/-- `get_query_history` looks its target up like the other tools. -/
theorem history_eq (ctx : ToolContext) (dbGrants : List Grant) (args : GetQueryHistory.Arguments)
    (since : Option Timestamp) (limit : ℕ) :
    GetQueryHistory.computeOutcome ctx dbGrants args since limit =
      withTarget ctx .historyRead dbGrants args.server args.database fun _ _ _ =>
        if !ctx.stateDb then return failWith ctx .unavailable "state DB unavailable"
        else do
          match ← call (.queryUserHistory ctx.identity.userSub args.server args.database since
            limit) with
          | .error _ => return failWith ctx .internal "history query failed"
          | .ok entries => return GetQueryHistory.entriesOutcome ctx args limit entries := by
  unfold GetQueryHistory.computeOutcome withTarget findServerDb
  cases hserver : findServer ctx.config args.server with
  | none => rfl
  | some server =>
    have hname := (findServer_mem hserver).2
    dsimp only
    cases hdatabase : server.databases.find? fun d => d.name == args.database with
    | none =>
      have hany : (server.databases.any fun d => d.name == args.database) = false := by
        simpa using List.find?_eq_none.mp hdatabase
      rw [hany]
      rfl
    | some database =>
      have hdatabaseName : database.name = args.database := by
        simpa using List.find?_some hdatabase
      have hany : (server.databases.any fun d => d.name == args.database) = true :=
        List.any_eq_true.mpr
          ⟨database, List.mem_of_find?_eq_some hdatabase, by simp [hdatabaseName]⟩
      rw [hany]
      dsimp only
      rw [hname, hdatabaseName]
      rfl

section

variable (hview : SameView ctx.identity (ctx.dbGrants grants) ctx.config config')

include hview

/-- `list_servers` shows only what is in the view. -/
theorem listServers_outcome :
    ListServers.computeOutcome { ctx with config := config' } (ctx.dbGrants grants) =
      ListServers.computeOutcome ctx (ctx.dbGrants grants) := by
  have hshown : ∀ servers : List Server,
      (view ctx.identity ctx.config.permissions (ctx.dbGrants grants) servers).map
        ListServers.safeServerView =
      (servers.filter fun s => canSeeServerEffective ctx.identity s ctx.config.permissions
        (ctx.dbGrants grants)).map ListServers.safeServerView := by
    intro servers
    rw [view, List.map_map]
    rfl
  have hlength : ∀ servers : List Server,
      (view ctx.identity ctx.config.permissions (ctx.dbGrants grants) servers).length =
      (servers.filter fun s => canSeeServerEffective ctx.identity s ctx.config.permissions
        (ctx.dbGrants grants)).length := by
    intro servers
    rw [view, List.length_map]
  unfold ListServers.computeOutcome
  dsimp only
  rw [hview.permissions, ← hshown, ← hshown, ← hlength, ← hlength, hview.servers]
  rfl

theorem sim_listServers :
    CallSim ctx.ext ctx.id grants (ListServers.run ctx)
      (ListServers.run { ctx with config := config' }) := by
  refine sim_dispatchWithGrants none hview.stream ?_
  rw [listServers_outcome hview]
  exact SameOutcome.refl _

variable (hwf : WellFormed ctx.config) (hwf' : WellFormed config') (arguments : Option Json)

include hwf hwf'

theorem sim_withTarget
    {k' : Server → Database → Constraints → ToolProg Outcome}
    (hk : ∀ server server' database constraints, SameServer server server' →
      WorkSim ctx.ext ctx.id grants (k server database constraints)
        (k' server' database constraints)) :
    WorkSim ctx.ext ctx.id grants
      (withTarget ctx action (ctx.dbGrants grants) serverName databaseName k)
      (withTarget { ctx with config := config' } action (ctx.dbGrants grants) serverName databaseName
        k') := by
  cases hcovers : covers ctx.identity ctx.config.permissions (ctx.dbGrants grants) serverName
    databaseName with
  | false =>
    have hcovers' : covers ctx.identity config'.permissions (ctx.dbGrants grants) serverName
        databaseName = false := by rw [hview.permissions]; exact hcovers
    rw [withTarget_of_not_covers hcovers, withTarget_of_not_covers hcovers']
    exact SameOutcome.refl _
  | true =>
    unfold withTarget
    dsimp only
    rw [hview.permissions]
    cases hfound : findServerDb ctx.config serverName databaseName with
    | none =>
      -- the other configuration has no such target either
      have hfound' : findServerDb config' serverName databaseName = none := by
        by_contra hne
        obtain ⟨⟨server', database⟩, hsome⟩ := Option.ne_none_iff_exists'.mp hne
        have hcovers' : covers ctx.identity config'.permissions (ctx.dbGrants grants) serverName
            databaseName = true := by rw [hview.permissions]; exact hcovers
        obtain ⟨server, hfound', -⟩ :=
          findServerDb_of_sameView hview.symm hwf' hwf hsome hcovers'
        rw [hfound] at hfound'
        cases hfound'
      rw [hfound']
      exact SameOutcome.refl _
    | some target =>
      obtain ⟨server, database⟩ := target
      obtain ⟨server', hfound', hrestrict⟩ :=
        findServerDb_of_sameView hview hwf hwf' hfound hcovers
      have hserver := sameServer_of_restrict hrestrict
      rw [hfound']
      dsimp only
      rw [hserver.name]
      cases evaluateEffective ctx.identity action server.name database.name ctx.config.permissions
        (ctx.dbGrants grants) with
      | deny => exact SameOutcome.refl _
      | allow constraints => exact hk server server' database constraints hserver

theorem sim_runQuery :
    CallSim ctx.ext ctx.id grants (RunQuery.run ctx arguments)
      (RunQuery.run { ctx with config := config' } arguments) := by
  unfold RunQuery.run
  cases arguments.bind RunQuery.Arguments.fromValue with
  | none => exact SameResponse.same _
  | some args =>
    refine sim_dispatchWithGrants (dbTypeForServer config' args.server) hview.stream ?_
    refine sim_withTarget hview hwf hwf' fun server server' database constraints hserver => ?_
    have hwrites : RunQuery.writesAllowed { ctx with config := config' } (ctx.dbGrants grants)
        server' database = RunQuery.writesAllowed ctx (ctx.dbGrants grants) server database := by
      simp only [RunQuery.writesAllowed, hserver.name, hview.permissions]
    have haccess : RunQuery.access { ctx with config := config' } (ctx.dbGrants grants) server'
        database = RunQuery.access ctx (ctx.dbGrants grants) server database := by
      simp only [RunQuery.access, hwrites]
    dsimp only
    rw [haccess, hserver.kind, hserver.name]
    refine sim_withReason ?_
    cases (if server.kind = .postgres then checkSql ctx.ext.parseSql args.sql
      (RunQuery.access ctx (ctx.dbGrants grants) server database) else .ok ()) with
    | error err => exact SameOutcome.refl _
    | ok _ =>
      refine ⟨.same _, fun _ _ _ => ?_⟩
      exact sim_executeOn hserver sameOutcome_rowsOutcome

theorem sim_explain :
    CallSim ctx.ext ctx.id grants (Explain.run ctx arguments)
      (Explain.run { ctx with config := config' } arguments) := by
  unfold Explain.run
  cases arguments.bind Explain.Arguments.fromValue with
  | none => exact SameResponse.same _
  | some args =>
    refine sim_dispatchWithGrants (dbTypeForServer config' args.server) hview.stream ?_
    refine sim_withTarget hview hwf hwf' fun server server' database constraints hserver => ?_
    refine sim_withReason ?_
    dsimp only
    cases isReadOnly ctx.ext.parseSql args.sql with
    | error err => exact SameOutcome.refl _
    | ok _ => exact sim_executeOn hserver sameOutcome_planOutcome

theorem sim_sampleTable :
    CallSim ctx.ext ctx.id grants (SampleTable.run ctx arguments)
      (SampleTable.run { ctx with config := config' } arguments) := by
  unfold SampleTable.run
  cases arguments.bind SampleTable.Arguments.fromValue with
  | none => exact SameResponse.same _
  | some args =>
    refine sim_dispatchWithGrants (dbTypeForServer config' args.server) hview.stream ?_
    refine sim_withTarget hview hwf hwf' fun server server' database constraints hserver => ?_
    refine sim_withReason ?_
    dsimp only
    split_ifs
    · exact SameOutcome.refl _
    · exact SameOutcome.refl _
    · exact sim_executeOn hserver sameOutcome_rowsOutcome

theorem sim_describeSchema :
    CallSim ctx.ext ctx.id grants (DescribeSchema.run ctx arguments)
      (DescribeSchema.run { ctx with config := config' } arguments) := by
  unfold DescribeSchema.run
  cases arguments.bind DescribeSchema.Arguments.fromValue with
  | none => exact SameResponse.same _
  | some args =>
    refine sim_dispatchWithGrants (dbTypeForServer config' args.server) hview.stream ?_
    refine sim_withTarget hview hwf hwf' fun server server' database constraints hserver => ?_
    exact sim_executeOn hserver sameOutcome_tablesOutcome

theorem listDatabases_outcome (args : ListDatabases.Arguments) :
    ListDatabases.computeOutcome { ctx with config := config' } (ctx.dbGrants grants) args =
      ListDatabases.computeOutcome ctx (ctx.dbGrants grants) args := by
  by_cases hsee : ∃ server, findServer ctx.config args.server = some server ∧
      canSeeServerEffective ctx.identity server ctx.config.permissions (ctx.dbGrants grants) = true
  · obtain ⟨server, hfound, hsee⟩ := hsee
    obtain ⟨server', hfound', -, hrestrict⟩ := findServer_of_sameView hview hwf' hfound hsee
    have hvisible : ListDatabases.visible { ctx with config := config' } (ctx.dbGrants grants) server' =
        ListDatabases.visible ctx (ctx.dbGrants grants) server := by
      funext database
      simp only [ListDatabases.visible, restrict_name hrestrict, hview.permissions]
    have hdatabases : server'.databases.filter
          (ListDatabases.visible { ctx with config := config' } (ctx.dbGrants grants) server') =
        server.databases.filter (ListDatabases.visible ctx (ctx.dbGrants grants) server) := by
      rw [filter_visible, filter_visible, hvisible]
      dsimp only
      rw [hview.permissions, hrestrict]
    unfold ListDatabases.computeOutcome
    dsimp only
    rw [hfound, hfound']
    dsimp only
    rw [hdatabases]
    rfl
  · -- a server seen in the other configuration would be seen in this one
    have hsee' : ∀ server', findServer config' args.server = some server' →
        canSeeServerEffective ctx.identity server' config'.permissions (ctx.dbGrants grants) =
          false := by
      intro server' hfound'
      by_contra hne
      obtain ⟨server, hfound, hseen, -⟩ :=
        findServer_of_sameView hview.symm hwf hfound' (by simpa using hne)
      rw [hview.permissions] at hseen
      exact hsee ⟨server, hfound, hseen⟩
    have hhidden : ∀ server, findServer ctx.config args.server = some server →
        canSeeServerEffective ctx.identity server ctx.config.permissions (ctx.dbGrants grants) =
          false := by
      intro server hfound
      by_contra hne
      exact hsee ⟨server, hfound, by simpa using hne⟩
    calc ListDatabases.computeOutcome { ctx with config := config' } (ctx.dbGrants grants) args
        = failWith ctx .forbidden "no grants for this server" := listDatabases_hidden hsee'
      _ = ListDatabases.computeOutcome ctx (ctx.dbGrants grants) args :=
        (listDatabases_hidden hhidden).symm

theorem sim_listDatabases :
    CallSim ctx.ext ctx.id grants (ListDatabases.run ctx arguments)
      (ListDatabases.run { ctx with config := config' } arguments) := by
  unfold ListDatabases.run
  cases arguments.bind ListDatabases.Arguments.fromValue with
  | none => exact SameResponse.same _
  | some args =>
    refine sim_dispatchWithGrants (dbTypeForServer config' args.server) hview.stream ?_
    rw [listDatabases_outcome hview hwf hwf']
    exact SameOutcome.refl _

theorem sim_getQueryHistory :
    CallSim ctx.ext ctx.id grants (GetQueryHistory.run ctx arguments)
      (GetQueryHistory.run { ctx with config := config' } arguments) := by
  unfold GetQueryHistory.run
  cases arguments.bind GetQueryHistory.Arguments.fromValue with
  | none => exact SameResponse.same _
  | some args =>
    dsimp only
    cases GetQueryHistory.parseSince ctx.ext args.since with
    | error _ =>
      exact sim_dispatchWork (dbTypeForServer config' args.server) hview.stream (SameOutcome.refl _)
    | ok since =>
      dsimp only
      split_ifs
      · exact sim_dispatchWork (dbTypeForServer config' args.server) hview.stream
          (SameOutcome.refl _)
      · refine sim_dispatchWithGrants (dbTypeForServer config' args.server) hview.stream ?_
        rw [history_eq, history_eq]
        refine sim_withTarget hview hwf hwf' fun _ _ _ _ _ => ?_
        dsimp only
        split_ifs
        · exact SameOutcome.refl _
        · refine ⟨.same _, ?_⟩
          rintro x _ rfl
          cases x with
          | error _ | ok entries => exact SameOutcome.refl _

end

end

/-! ## Every call -/

/-- The two programs of a call are in step. -/
theorem sim_dispatchCall (ext : Extern) (id : Json) (caller : Identity) {config config'}
    (permissionsCache stateDb : Bool) (requestCtx : RequestContext) (params : Option Json)
    {grants}
    (hview : SameView caller (if permissionsCache then grants else []) config config')
    (hwf : WellFormed config) (hwf' : WellFormed config') :
    CallSim ext id grants
      (dispatchCall ext id (some caller) config permissionsCache stateDb requestCtx params)
      (dispatchCall ext id (some caller) config' permissionsCache stateDb requestCtx params) := by
  unfold dispatchCall
  dsimp only
  cases params.bind CallParams.fromValue with
  | none => exact SameResponse.same _
  | some call =>
    dsimp only
    let ctx : ToolContext := ⟨ext, id, caller, config, permissionsCache, stateDb, requestCtx⟩
    have hview : SameView ctx.identity (ctx.dbGrants grants) ctx.config config' := hview
    by_cases hname : ∃ tool : Tool, call.name = tool.name
    · obtain ⟨tool, htool⟩ := hname
      rw [dispatchTool_of_name htool, dispatchTool_of_name htool]
      cases tool with
      | listServers => exact sim_listServers hview
      | listDatabases => exact sim_listDatabases hview hwf hwf' _
      | describeSchema => exact sim_describeSchema hview hwf hwf' _
      | sampleTable => exact sim_sampleTable hview hwf hwf' _
      | explain => exact sim_explain hview hwf hwf' _
      | runQuery => exact sim_runQuery hview hwf hwf' _
      | getQueryHistory => exact sim_getQueryHistory hview hwf hwf' _
    · rw [dispatchTool_unknown fun tool h => hname ⟨tool, h⟩,
        dispatchTool_unknown fun tool h => hname ⟨tool, h⟩]
      exact SameResponse.same _

/-- What answers the requests of a call: a state and a reply to each request. -/
abbrev Answers (σ : Type) := (r : DispatchReq ToolReq) → σ → DispatchResp ToolResp r × σ

/-- Two environments behave the same towards the caller: from states related by
    `I` they give corresponding replies to corresponding requests, and stay
    related. -/
def BehaveSame (ext : Extern) (id : Json) (grants : List Grant) {σ σ' : Type} (I : σ → σ' → Prop)
    (h : Answers σ) (h' : Answers σ') : Prop :=
  ∀ r r' s s', SameReq ext id r r' → I s s' →
    SameReply grants r r' (h r s).1 (h' r' s').1 ∧ I (h r s).2 (h' r' s').2

/-- **Uncovered targets do not leak.** For every caller with their DB grants, any
    two accepted configurations that differ only in servers no grant of the caller
    can see and databases no grant of the caller matches, and every call, the
    responses are the same up to elapsed times, in all environments that behave
    the same. -/
theorem dispatchCall_nonleak (ext : Extern) (id : Json) (caller : Identity)
    (config config' : AcceptedConfig) (permissionsCache stateDb : Bool)
    (requestCtx : RequestContext) (params : Option Json) (grants : List Grant)
    (hview : SameView caller (if permissionsCache then grants else []) config.file config'.file)
    {σ σ' : Type} (I : σ → σ' → Prop) (h : Answers σ) (h' : Answers σ')
    (hsame : BehaveSame ext id grants I h h') (s : σ) (s' : σ') (hs : I s s') :
    SameResponse ext id
      (run h (dispatchCall ext id (some caller) config.file permissionsCache stateDb requestCtx
        params) s).1
      (run h' (dispatchCall ext id (some caller) config'.file permissionsCache stateDb requestCtx
        params) s').1 :=
  (sim_dispatchCall ext id caller permissionsCache stateDb requestCtx params hview config.wellFormed
    config'.wellFormed).run hsame hs

/-- A server that no analyst has a grant on. -/
def vaultServer : Server where
  name := "vault"
  kind := .mongo
  databases := [{ name := "keys", role := "vault_ro" }]

/-- The configuration with and without it. -/
def shopAccepted : AcceptedConfig := ⟨shopConfig, by decide⟩

def vaultAccepted : AcceptedConfig :=
  ⟨{ shopConfig with servers := [vaultServer, shopServer] }, by decide⟩

/-- Everything is up, and there are no DB grants. -/
def plainAnswers : Answers Unit
  | .tool (.getFor _), s => (.ok [], s)
  | .tool (.getOrOpen _ _), s => (.ok (), s)
  | .tool (.execute _ _ _), s => (.ok ⟨[], [], false, 3⟩, s)
  | .tool (.queryUserHistory _ _ _ _ _), s => (.ok [], s)
  | .tool .elapsed, s => (3, s)
  | .tool (.logDispatch _ _ _ _ _ _), s => ((), s)
  | .newUuid, s => (7, s)
  | .armGuard _, s => ((), s)
  | .recordOutcome _, s => ((), s)
  | .disarm, s => ((), s)
  | .emit _, s => ((), s)
  | .insert _, s => ((), s)
  | .insertReply _, s => (.ok (), s)
  | .streamSend _ _, s => ((), s)

/-- The theorem for an analyst who asks for the databases of the other server. -/
theorem dispatchCall_nonleak_vault :
    shopAccepted.file ≠ vaultAccepted.file ∧
    SameResponse plainExtern (.int 1)
      (run plainAnswers (dispatchCall plainExtern (.int 1) (some analyst) shopAccepted.file true true
        { requestId := "r1" } (some (.obj [("name", .str "list_databases"),
          ("arguments", .obj [("server", .str "vault")])]))) ()).1
      (run plainAnswers (dispatchCall plainExtern (.int 1) (some analyst) vaultAccepted.file true true
        { requestId := "r1" } (some (.obj [("name", .str "list_databases"),
          ("arguments", .obj [("server", .str "vault")])]))) ()).1 := by
  have hview : SameView analyst [] shopAccepted.file vaultAccepted.file := ⟨rfl, by decide⟩
  have hsame : BehaveSame plainExtern (.int 1) [] (fun _ _ => True) plainAnswers plainAnswers := by
    intro r r' s s' hr _
    refine ⟨?_, trivial⟩
    cases hr with
    | @tool r _ hr =>
      cases hr with
      | getOrOpen database hserver => rfl
      | execute database query hserver => exact .ok _ _
      | same =>
        cases r with
        | getFor userSub => exact ⟨rfl, by rintro _ ⟨⟩; rfl⟩
        | getOrOpen server database | queryUserHistory userSub server database since limit => rfl
        | execute server database query => exact .ok _ _
        | elapsed | logDispatch => trivial
    | insertReply hrow => rfl
    | newUuid | armGuard | recordOutcome | disarm | emit | insert | streamSend => trivial
  exact ⟨by decide, dispatchCall_nonleak plainExtern (.int 1) analyst shopAccepted vaultAccepted true
    true { requestId := "r1" } _ [] hview _ _ _ hsame () () trivial⟩

end DbMcpGateway.Tools
