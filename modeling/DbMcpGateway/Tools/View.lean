import DbMcpGateway.Config.Yaml
import DbMcpGateway.Tools.Common

/-!
# What a caller's grants cover

The part of a configuration that a caller can know: the servers some grant of the
caller can see, each with the databases some grant of the caller is on. Two
configurations with the same view differ only in what no grant of the caller
covers.

Outside the view every decision is a denial (`deny_of_not_covers`), and inside it
lookups agree: server and database names of an accepted configuration are unique,
so a name finds the covered server in both or in neither.

Results:

* `findServer_of_sameView`, `findServerDb_of_sameView`: lookups of covered targets
  agree.
* `visible_iff_usable`: a server is listed exactly if something on it can be used, unless a
  grant on all its databases is on a server without databases.
-/

namespace DbMcpGateway.Tools

open Authz Config

section

variable (caller : Identity) (permissions : List Permission) (dbGrants : List Grant)

/-- Some grant of the caller is on the target, whatever its action. -/
def covers (server database : String) : Bool :=
  (yamlGrants caller permissions ++ dbGrants).any fun g =>
    (g.server == "*" || g.server == server) && (g.database == "*" || g.database == database)

/-- The server with the databases that are covered. -/
def restrict (server : Server) : Server :=
  { server with
    databases := server.databases.filter fun d => covers caller permissions dbGrants server.name d.name }

/-- The servers the caller can see, with the databases that are covered. -/
def view (servers : List Server) : List Server :=
  (servers.filter fun s => canSeeServerEffective caller s permissions dbGrants).map
    (restrict caller permissions dbGrants)

end

/-- The configurations differ only in servers that no grant of the caller can see
    and in databases that no grant of the caller matches. -/
structure SameView (caller : Identity) (dbGrants : List Grant) (config config' : ConfigFile) :
    Prop where
  rest : { config with servers := [] } = { config' with servers := [] }
  servers : view caller config.permissions dbGrants config.servers =
    view caller config.permissions dbGrants config'.servers

section

variable {caller : Identity} {permissions : List Permission} {dbGrants : List Grant}

/-! ## Outside the view -/

theorem covers_iff {server database : String} :
    covers caller permissions dbGrants server database = true ↔
      ∃ g ∈ callerGrants caller permissions dbGrants, Targets g server database := by
  simp [covers, callerGrants, mem_yamlGrants, Targets, or_and_right, exists_or]

variable {server : Server}

theorem grantCanSee_iff {g : Grant} : grantCanSee g server = true ↔
    (g.server = "*" ∨ g.server = server.name) ∧
      (g.database = "*" ∨ ∃ database ∈ server.databases, database.name = g.database) := by
  by_cases hserver : g.server = "*" ∨ g.server = server.name
  · simp [grantCanSee, hserver]
  · simp [grantCanSee, not_or.mp hserver]

theorem canSeeServerEffective_iff :
    canSeeServerEffective caller server permissions dbGrants = true ↔
      ∃ g ∈ callerGrants caller permissions dbGrants, grantCanSee g server = true := by
  simp only [canSeeServerEffective, canSeeServer, Bool.or_eq_true, List.any_eq_true, mem_yamlGrants,
    mem_callerGrants, or_and_right, exists_or]

section

variable {server' : Server}
  (h : restrict caller permissions dbGrants server' = restrict caller permissions dbGrants server)

include h

theorem restrict_name :
    server'.name = server.name := by
  have hname := congrArg Server.name h
  exact hname

theorem mem_databases_of_restrict {database : Database} (hmem : database ∈ server.databases)
    (hcovers : covers caller permissions dbGrants server.name database.name = true) :
    database ∈ server'.databases := by
  have hdatabases := congrArg Server.databases h
  have hfilter : database ∈ (restrict caller permissions dbGrants server').databases := by
    rw [hdatabases]
    exact List.mem_filter.mpr ⟨hmem, hcovers⟩
  exact (List.mem_filter.mp hfilter).1

end

/-- Nothing is allowed where no grant is. -/
theorem deny_of_not_covers {server database : String}
    (h : covers caller permissions dbGrants server database = false) (action : Action) :
    evaluateEffective caller action server database permissions dbGrants = .deny := by
  cases hdecision : evaluateEffective caller action server database permissions dbGrants with
  | deny => rfl
  | allow c =>
    obtain ⟨g, hg, htargets, -⟩ := evaluateEffective_allows.mp ⟨c, hdecision⟩
    have hcovers := covers_iff.mpr ⟨g, hg, htargets⟩
    rw [h] at hcovers
    cases hcovers

theorem canSee_of_covers {database : Database} (hmem : database ∈ server.databases)
    (h : covers caller permissions dbGrants server.name database.name = true) :
    canSeeServerEffective caller server permissions dbGrants = true := by
  obtain ⟨g, hg, hserver, hdatabase⟩ := covers_iff.mp h
  refine canSeeServerEffective_iff.mpr ⟨g, hg, grantCanSee_iff.mpr ⟨hserver, ?_⟩⟩
  rcases hdatabase with hdatabase | hdatabase
  · exact .inl hdatabase
  · exact .inr ⟨database, hmem, hdatabase.symm⟩

end

/-! ## Lookups -/

/-- In a list with distinct names, a name finds its element. -/
theorem find?_of_mem {α : Type} (f : α → String) {l : List α} (hnodup : (l.map f).Nodup) {a : α}
    (ha : a ∈ l) : (l.find? fun x => f x == f a) = some a := by
  induction l with
  | nil => cases ha
  | cons x l ih =>
    rw [List.map_cons, List.nodup_cons] at hnodup
    rcases List.mem_cons.mp ha with rfl | ha
    · simp
    · have hne : f x ≠ f a := by
        intro heq
        exact hnodup.1 (heq ▸ List.mem_map_of_mem ha)
      rw [List.find?_cons_of_neg (by simpa using hne)]
      exact ih hnodup.2 ha

variable {config : ConfigFile} {server : Server}

theorem findServer_mem {name : String} (h : findServer config name = some server) :
    server ∈ config.servers ∧ server.name = name :=
  ⟨List.mem_of_find?_eq_some h, by simpa using List.find?_some h⟩

theorem findServer_of_mem (hwf : WellFormed config) (h : server ∈ config.servers) :
    findServer config server.name = some server :=
  find?_of_mem Server.name hwf.serverNames h

theorem findServerDb_of_mem (hwf : WellFormed config) {database : Database}
    (hserver : server ∈ config.servers) (hdatabase : database ∈ server.databases) :
    findServerDb config server.name database.name = some (server, database) := by
  have hfind : (server.databases.find? fun d => d.name == database.name) = some database :=
    find?_of_mem Database.name (hwf.databaseNames server hserver) hdatabase
  simp only [findServerDb, findServer_of_mem hwf hserver, hfind]

section

variable {caller : Identity} {dbGrants : List Grant} {config config' : ConfigFile}

section

variable (h : SameView caller dbGrants config config')

include h

theorem SameView.permissions :
    config'.permissions = config.permissions :=
  (congrArg ConfigFile.permissions h.rest).symm

theorem SameView.stream :
    config'.stream = config.stream :=
  (congrArg ConfigFile.stream h.rest).symm

theorem SameView.symm :
    SameView caller dbGrants config' config where
  rest := h.rest.symm
  servers := by
    rw [h.permissions]
    exact h.servers.symm

theorem findServer_of_sameView (hwf' : WellFormed config') {name : String} {server : Server}
    (hfound : findServer config name = some server)
    (hsee : canSeeServerEffective caller server config.permissions dbGrants = true) :
    ∃ server', findServer config' name = some server' ∧
      canSeeServerEffective caller server' config.permissions dbGrants = true ∧
      restrict caller config.permissions dbGrants server' =
        restrict caller config.permissions dbGrants server := by
  obtain ⟨hmem, rfl⟩ := findServer_mem hfound
  have hview : restrict caller config.permissions dbGrants server ∈
      view caller config.permissions dbGrants config'.servers := by
    rw [← h.servers]
    exact List.mem_map_of_mem (List.mem_filter.mpr ⟨hmem, hsee⟩)
  obtain ⟨server', hmem', hrestrict⟩ := List.mem_map.mp hview
  obtain ⟨hmem', hsee'⟩ := List.mem_filter.mp hmem'
  have hname : server'.name = server.name := restrict_name hrestrict
  refine ⟨server', ?_, hsee', hrestrict⟩
  rw [← hname]
  exact findServer_of_mem hwf' hmem'

theorem findServerDb_of_sameView (hwf : WellFormed config) (hwf' : WellFormed config')
    {serverName databaseName : String} {server : Server} {database : Database}
    (hfound : findServerDb config serverName databaseName = some (server, database))
    (hcovers : covers caller config.permissions dbGrants serverName databaseName = true) :
    ∃ server', findServerDb config' serverName databaseName = some (server', database) ∧
      restrict caller config.permissions dbGrants server' =
        restrict caller config.permissions dbGrants server := by
  obtain ⟨hserver, rfl, hdatabase, rfl⟩ := findServerDb_some hfound
  have hsee := canSee_of_covers hdatabase hcovers
  obtain ⟨server', hfound', -, hrestrict⟩ :=
    findServer_of_sameView h hwf' (findServer_of_mem hwf hserver) hsee
  have hdatabase' := mem_databases_of_restrict hrestrict hdatabase hcovers
  refine ⟨server', ?_, hrestrict⟩
  rw [← restrict_name hrestrict]
  exact findServerDb_of_mem hwf' (findServer_mem hfound').1 hdatabase'

end

end

/-! ## Visibility and use -/

section

variable (caller : Identity) (permissions : List Permission) (dbGrants : List Grant)
  (server : Server)

/-- Some action is allowed on some database of the server. -/
def Usable : Prop :=
  ∃ database ∈ server.databases, ∃ action c,
    evaluateEffective caller action server.name database.name permissions dbGrants = .allow c

/-- The caller has a grant on all databases of the server. -/
def HasWildcard : Prop :=
  ∃ g ∈ callerGrants caller permissions dbGrants,
    (g.server = "*" ∨ g.server = server.name) ∧ g.database = "*"

variable {caller permissions dbGrants server}

theorem usable_iff_covers : Usable caller permissions dbGrants server ↔
    ∃ database ∈ server.databases,
      covers caller permissions dbGrants server.name database.name = true := by
  refine exists_congr fun database => and_congr_right fun _ => ?_
  simp only [evaluateEffective_allows, covers_iff]
  constructor
  · rintro ⟨action, g, hg, htargets, -⟩
    exact ⟨g, hg, htargets⟩
  · rintro ⟨g, hg, htargets⟩
    exact ⟨g.action, g, hg, htargets, Action.includes_refl g.action⟩

theorem canSee_of_usable (h : Usable caller permissions dbGrants server) :
    canSeeServerEffective caller server permissions dbGrants = true := by
  obtain ⟨database, hmem, hcovers⟩ := usable_iff_covers.mp h
  exact canSee_of_covers hmem hcovers

theorem canSee_iff : canSeeServerEffective caller server permissions dbGrants = true ↔
    HasWildcard caller permissions dbGrants server ∨ Usable caller permissions dbGrants server := by
  constructor
  · intro h
    obtain ⟨g, hg, hsees⟩ := canSeeServerEffective_iff.mp h
    obtain ⟨hserver, hdatabase | ⟨database, hmem, hname⟩⟩ := grantCanSee_iff.mp hsees
    · exact .inl ⟨g, hg, hserver, hdatabase⟩
    · exact .inr (usable_iff_covers.mpr
        ⟨database, hmem, covers_iff.mpr ⟨g, hg, hserver, .inr hname.symm⟩⟩)
  · rintro (⟨g, hg, hserver, hdatabase⟩ | h)
    · exact canSeeServerEffective_iff.mpr ⟨g, hg, grantCanSee_iff.mpr ⟨hserver, .inl hdatabase⟩⟩
    · exact canSee_of_usable h

theorem HasWildcard.usable (h : HasWildcard caller permissions dbGrants server)
    (hdatabases : server.databases ≠ []) : Usable caller permissions dbGrants server := by
  obtain ⟨g, hg, hserver, hdatabase⟩ := h
  obtain ⟨database, hmem⟩ := List.exists_mem_of_ne_nil _ hdatabases
  exact usable_iff_covers.mpr ⟨database, hmem, covers_iff.mpr ⟨g, hg, hserver, .inl hdatabase⟩⟩

end

/-- **Visibility is use**, for every caller and every server of an accepted configuration,
    exactly if the server has a database or the caller has no grant on all of them. -/
theorem visible_iff_usable (config : AcceptedConfig) (caller : Identity) (dbGrants : List Grant) :
    ∀ server ∈ config.file.servers,
      ((canSeeServerEffective caller server config.file.permissions dbGrants = true ↔
        Usable caller config.file.permissions dbGrants server) ↔
      (server.databases ≠ [] ∨ ¬ HasWildcard caller config.file.permissions dbGrants server)) := by
  intro server _
  rw [canSee_iff]
  constructor
  · intro h
    by_contra hnot
    obtain ⟨hempty, hwildcard⟩ := not_or.mp hnot
    obtain ⟨database, hmem, -⟩ := h.mp (.inl (not_not.mp hwildcard))
    rw [not_not.mp hempty] at hmem
    cases hmem
  · rintro (hdatabases | hwildcard)
    · exact ⟨fun h => h.elim (fun h => h.usable hdatabases) id, .inr⟩
    · exact ⟨fun h => h.resolve_left hwildcard, .inr⟩

/-- A server without databases. -/
def emptyServer : Server := { name := "empty", kind := .postgres }

def ledgerServer : Server where
  name := "ledger"
  kind := .postgres
  databases := [{ name := "books", role := "gateway_ro" }]

def twoServers : AcceptedConfig := ⟨{ servers := [emptyServer, ledgerServer] }, by decide⟩

/-- A DB grant on everything. -/
def anyGrant : Grant := ⟨"*", "*", .queryRead, {}⟩

theorem visible_iff_usable_ledger :
    canSeeServerEffective reader ledgerServer [] [anyGrant] = true ↔
      Usable reader [] [anyGrant] ledgerServer :=
  (visible_iff_usable twoServers reader [anyGrant] ledgerServer (by decide)).mpr (.inl (by decide))

/-- With a grant on all databases, a server without databases is visible. -/
theorem empty_visible :
    ¬ ∀ (config : AcceptedConfig) (caller : Identity) (dbGrants : List Grant),
      ∀ server ∈ config.file.servers,
        (canSeeServerEffective caller server config.file.permissions dbGrants = true ↔
          Usable caller config.file.permissions dbGrants server) := by
  intro h
  obtain ⟨database, hmem, -⟩ :=
    (h twoServers reader [anyGrant] emptyServer (by decide)).mp (by decide)
  cases hmem

end DbMcpGateway.Tools
