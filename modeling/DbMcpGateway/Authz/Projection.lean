import DbMcpGateway.Authz.Loader

/-!
# What the loader is for

The grants of a subject as a query over the tables: the unrevoked grants whose user row
is live and has the subject, each with its target as the database row now has it. The
loader reads the three tables one after the other and joins them in memory.

Results:

* `load_eq_projection`: a load of a well-formed store returns the query's rows.
* `not_mem_activeGrants`, `projection_eq_none`: a grant whose user or whose database was
  deleted is in no later result.
-/

namespace DbMcpGateway.State.Store

open Audit Authz Config

/-- The user row is live and has the subject. -/
def ownedBy (s : Store) (userSub : String) (userId : Uuid) : Bool :=
  (s.users.get userId).any fun u => u.live && u.userSub = userSub

/-- The unrevoked grants of the live user with the subject, in the order of creation. -/
def activeGrants (s : Store) (userSub : String) : List PermissionsGrant :=
  (s.grants.rows.filter fun g => g.live && s.ownedBy userSub g.userId).insertionSort fun g g' =>
    g.createdAt ≤ g'.createdAt

def targetOf (s : Store) : GrantTarget → Option (String × String)
  | .specific databaseId => (s.getDatabase databaseId).map fun d => (d.server, d.dbName)
  | .wildcard server => some (server, "*")

/-- The grant that a row stands for now. -/
def projection (s : Store) (g : PermissionsGrant) : Option Grant := do
  let (server, database) ← s.targetOf g.target
  let constraints ← decodeConstraints g.constraints
  return { server, database, action := actionFromDb g.action, constraints }

variable {s s' : Store} {userSub : String}

variable {d : PermissionsDatabase} {g g' : PermissionsGrant}

theorem mem_allLiveDatabases :
    d ∈ s.allLiveDatabases ↔ d ∈ s.databases.rows ∧ d.live = true := by
  unfold allLiveDatabases databasesByName
  rw [List.mem_insertionSort, List.mem_filter]

theorem find_live {databases : List PermissionsDatabase}
    (h : ∀ d, d ∈ databases ↔ d ∈ s.databases.rows ∧ d.live = true) (databaseId : Uuid) :
    (databases.find? fun d => d.id = databaseId) = s.getDatabase databaseId := by
  cases hfind : databases.find? fun d => d.id = databaseId with
  | some d =>
    have hid := List.find?_some hfind
    rw [decide_eq_true_eq] at hid
    obtain ⟨hmem, hlive⟩ := (h d).mp (List.mem_of_find?_eq_some hfind)
    exact (Option.filter_eq_some_iff.mpr ⟨Table.get_eq_some.mpr ⟨hmem, hid⟩, hlive⟩).symm
  | none =>
    cases hget : s.getDatabase databaseId with
    | none => rfl
    | some d =>
      obtain ⟨hd, hlive⟩ := getDatabase_some hget
      obtain ⟨hmem, hid⟩ := Table.get_eq_some.mp hd
      have hne := List.find?_eq_none.mp hfind d ((h d).mpr ⟨hmem, hlive⟩)
      exact absurd (decide_eq_true hid) hne

theorem resolveTarget_live {databases}
    (h : ∀ d, d ∈ databases ↔ d ∈ s.databases.rows ∧ d.live = true) (target : GrantTarget) :
    resolveTarget databases target = s.targetOf target := by
  cases target with
  | specific databaseId => rw [resolveTarget, find_live h, targetOf]
  | wildcard server => rfl

/-- The loop over rows that decode. -/
theorem project_allLiveDatabases {rows : List PermissionsGrant}
    (hdecodes : ∀ g ∈ rows, ∃ c, decodeConstraints g.constraints = some c) :
    project s.allLiveDatabases rows = .ok (rows.filterMap s.projection) := by
  induction rows with
  | nil => rfl
  | cons g rows ih =>
    rw [List.forall_mem_cons] at hdecodes
    obtain ⟨c, hc⟩ := hdecodes.1
    unfold project
    rw [resolveTarget_live fun _ => mem_allLiveDatabases, ih hdecodes.2]
    cases htarget : s.targetOf g.target with
    | none => rw [List.filterMap_cons_none (by simp [projection, htarget])]
    | some pair =>
      rw [hc]
      rw [List.filterMap_cons_some (by simp [projection, htarget, hc]; rfl)]
      rfl

theorem activeGrants_eq (hs : s.WellFormed) (userSub : String) :
    s.activeGrants userSub =
      match s.getUserBySub userSub with
      | none => []
      | some u => s.listGrantsForUser u.id := by
  unfold activeGrants
  cases hu : s.getUserBySub userSub with
  | none =>
    have hnone : (s.grants.rows.filter fun g => g.live && s.ownedBy userSub g.userId) = [] := by
      rw [List.filter_eq_nil_iff]
      intro g _ h
      simp only [ownedBy, Bool.and_eq_true, Option.any_eq_true, decide_eq_true_eq] at h
      obtain ⟨-, u, hget, hlive, hsub⟩ := h
      exact getUserBySub_none.mp hu u (Table.mem_of_get hget) hlive hsub
    rw [hnone]
    rfl
  | some u =>
    obtain ⟨hmem, hlive, hsub⟩ := getUserBySub_some hu
    dsimp only
    unfold listGrantsForUser
    congr 1
    refine List.filter_congr fun g _ => ?_
    congr 1
    rw [Bool.eq_iff_iff]
    simp only [ownedBy, Bool.and_eq_true, Option.any_eq_true, decide_eq_true_eq]
    constructor
    · rintro ⟨u', hget, hlive', hsub'⟩
      obtain ⟨hmem', hid⟩ := Table.get_eq_some.mp hget
      rw [← hid, hs.userSub u' hmem' u hmem hlive' hlive (hsub'.trans hsub.symm)]
    · intro hid
      exact ⟨u, Table.get_eq_some.mpr ⟨hmem, hid.symm⟩, hlive, hsub⟩

/-- **A load returns the rows of the query.** A subject that PostgreSQL cannot store is
    refused. -/
theorem load_eq_projection (hs : s.WellFormed)
    (hdecodes : ∀ g ∈ s.activeGrants userSub, ∃ c, decodeConstraints g.constraints = some c) :
    load s userSub =
      if Text.hasNul userSub then .error .repo
      else .ok ((s.activeGrants userSub).filterMap s.projection) := by
  rw [load_eq, loadFrom]
  split_ifs
  · rfl
  · have hactive := activeGrants_eq hs userSub
    cases hu : s.getUserBySub userSub with
    | none =>
      rw [hu] at hactive
      rw [hactive]
      rfl
    | some u =>
      rw [hu] at hactive
      rw [hactive] at hdecodes ⊢
      exact project_allLiveDatabases hdecodes

theorem mem_activeGrants : g ∈ s.activeGrants userSub ↔
    g ∈ s.grants.rows ∧ g.live = true ∧
      ∃ u, s.users.get g.userId = some u ∧ u.live = true ∧ u.userSub = userSub := by
  unfold activeGrants
  rw [List.mem_insertionSort, List.mem_filter]
  simp only [ownedBy, Bool.and_eq_true, Option.any_eq_true, decide_eq_true_eq]

/-- The grant of a deleted user is in nobody's result, whoever registers. -/
theorem not_mem_activeGrants (hgrows : s.Grows s') {u : PermissionsUser} (hg : g ∈ s.grants.rows)
    (hu : s.users.get g.userId = some u) (hdead : u.live = false) (hid : g'.id = g.id) :
    g' ∉ s'.activeGrants userSub := by
  intro hmem
  obtain ⟨hg', -, u', hu', hlive, -⟩ := mem_activeGrants.mp hmem
  obtain ⟨g'', hget, huser, -, -⟩ := hgrows.grants g (Table.get_eq_some.mpr ⟨hg, rfl⟩)
  have heq : g'' = g' := Option.some.inj (hget.symm.trans (Table.get_eq_some.mpr ⟨hg', hid⟩))
  have huid := Table.key_of_get hu
  obtain ⟨u'', hu'', -, hsame⟩ := hgrows.users u (by rw [huid]; exact hu)
  rw [huid, ← huser, heq, hu'] at hu''
  rw [Option.some.inj hu'', hsame hdead, hdead] at hlive
  cases hlive

/-- The grant on a deleted database stands for nothing, whichever pair is registered. -/
theorem projection_eq_none (hgrows : s.Grows s') {databaseId : Uuid} (hg : g ∈ s.grants.rows)
    (htarget : g.target = .specific databaseId) (hd : s.databases.get databaseId = some d)
    (hdead : d.live = false) (hg' : g' ∈ s'.grants.rows) (hid : g'.id = g.id) :
    s'.projection g' = none := by
  obtain ⟨g'', hget, -, htarget', -⟩ := hgrows.grants g (Table.get_eq_some.mpr ⟨hg, rfl⟩)
  have heq : g'' = g' := Option.some.inj (hget.symm.trans (Table.get_eq_some.mpr ⟨hg', hid⟩))
  have hdid := Table.key_of_get hd
  obtain ⟨d', hd', hsame⟩ := hgrows.databases d (by rw [hdid]; exact hd)
  rw [hdid, hsame hdead] at hd'
  have hnone : s'.getDatabase databaseId = none := by
    rw [getDatabase, hd', Option.filter_some, hdead]
    rfl
  rw [projection, ← heq, htarget', htarget, targetOf, hnone]
  rfl

end DbMcpGateway.State.Store
