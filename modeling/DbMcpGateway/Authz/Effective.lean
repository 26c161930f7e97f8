import DbMcpGateway.Authz.Merge

/-!
# Effective evaluation of grants

`evaluate_effective` and `can_see_server_effective` (authz/effective.rs): the
YAML grants of the caller's groups and the caller's DB grants feed one
most-restrictive merge.

The abstract reading is a set: `callerGrants` are the grants the caller holds,
`applicable` those that match the target and whose action includes the requested
one. `evaluateEffective_eq` reduces the two filtered streams and the flag of the
loop to `mergeAll` over the applicable grants, and everything else follows from
the set alone.

Results:

* `evaluateEffective_spec`: allowed iff some grant applies, with exactly the
  most restrictive constraints of the applicable ones; independent of order,
  repetition and source; monotone in the grants and along the action hierarchy.
* `evaluateEffective_restricts`: the constraints bind as hard as each grant on the
  target whose action includes the requested one.
* `neverWidens_iff`: a wildcard grant widens nothing exactly if its own action was
  allowed before.
-/

namespace DbMcpGateway.Authz

open Config

/-- `struct Identity` (auth/session.rs:50): the authenticated caller. -/
structure Identity where
  userSub : String
  userEmail : String
  groups : List String
  deriving DecidableEq

/-- `enum Decision` (authz/mod.rs:37). -/
inductive Decision
  | allow (constraints : Constraints)
  | deny
  deriving DecidableEq

/-- `grant_can_see` (authz/mod.rs:75). -/
def grantCanSee (grant : Grant) (server : Server) : Bool :=
  if !(grant.server == "*" || grant.server == server.name) then false
  else grant.database == "*" || server.databases.any fun db => db.name == grant.database

/-- `grant_applies` (authz/mod.rs:85). -/
def grantApplies (grant : Grant) (action : Action) (server database : String) : Bool :=
  (grant.server == "*" || grant.server == server) &&
    (grant.database == "*" || grant.database == database) && grant.action.includes action

/-- The grants of the permission blocks of the caller's groups, in file order. -/
def yamlGrants (identity : Identity) (permissions : List Permission) : List Grant :=
  (permissions.filter fun p => identity.groups.any fun g => g == p.group).flatMap (·.grants)

/-- `can_see_server` (authz/mod.rs:51). -/
def canSeeServer (identity : Identity) (server : Server) (permissions : List Permission) : Bool :=
  (yamlGrants identity permissions).any fun grant => grantCanSee grant server

/-- `can_see_server_effective` (authz/effective.rs:17). -/
def canSeeServerEffective (identity : Identity) (server : Server)
    (yamlPermissions : List Permission) (dbGrantsForIdentity : List Grant) : Bool :=
  canSeeServer identity server yamlPermissions ||
    dbGrantsForIdentity.any fun grant => grantCanSee grant server

/-- `evaluate_effective` (authz/effective.rs:34). The loop carries the flag
    `merged_some` and the accumulator `merged`. -/
def evaluateEffective (identity : Identity) (action : Action) (server database : String)
    (yamlPermissions : List Permission) (dbGrantsForIdentity : List Grant) : Decision :=
  let yamlMatches :=
    (yamlGrants identity yamlPermissions).filter fun g => grantApplies g action server database
  let dbMatches := dbGrantsForIdentity.filter fun g => grantApplies g action server database
  let (mergedSome, merged) := ((yamlMatches ++ dbMatches).map (·.constraints)).foldl
    (fun (acc : Bool × Constraints) c => (true, merge acc.2 c)) (false, {})
  if mergedSome then .allow merged else .deny

/-! ## The grants of a caller -/

/-- `g` targets `(server, database)`: each name is equal or the wildcard. -/
def Targets (g : Grant) (server database : String) : Prop :=
  (g.server = "*" ∨ g.server = server) ∧ (g.database = "*" ∨ g.database = database)

/-- The grants the caller holds: those of a YAML block of one of their groups
    and their DB grants. -/
def callerGrants (identity : Identity) (permissions : List Permission) (dbGrants : List Grant) :
    Set Grant :=
  {g | (∃ p ∈ permissions, p.group ∈ identity.groups ∧ g ∈ p.grants) ∨ g ∈ dbGrants}

/-- The caller's grants on the target whose action includes the requested one. -/
def applicable (identity : Identity) (action : Action) (server database : String)
    (permissions : List Permission) (dbGrants : List Grant) : Set Grant :=
  {g | g ∈ callerGrants identity permissions dbGrants ∧ Targets g server database ∧
    g.action.includes action = true}

section

variable {identity : Identity} {action : Action} {server database : String}
  {permissions permissions' : List Permission} {dbGrants dbGrants' : List Grant}

variable {g : Grant} {c : Constraints} {identity' : Identity}

theorem mem_callerGrants :
    g ∈ callerGrants identity permissions dbGrants ↔
      (∃ p ∈ permissions, p.group ∈ identity.groups ∧ g ∈ p.grants) ∨ g ∈ dbGrants := Iff.rfl

theorem grantApplies_iff :
    grantApplies g action server database = true ↔
      Targets g server database ∧ g.action.includes action = true := by
  simp [grantApplies, Targets]

theorem mem_yamlGrants :
    g ∈ yamlGrants identity permissions ↔
      ∃ p ∈ permissions, p.group ∈ identity.groups ∧ g ∈ p.grants := by
  simp [yamlGrants, and_assoc]

/-- The grants the loop of `evaluate_effective` visits. -/
def matching (identity : Identity) (action : Action) (server database : String)
    (permissions : List Permission) (dbGrants : List Grant) : List Grant :=
  (yamlGrants identity permissions ++ dbGrants).filter fun g =>
    grantApplies g action server database

theorem mem_matching :
    g ∈ matching identity action server database permissions dbGrants ↔
      g ∈ applicable identity action server database permissions dbGrants := by
  simp [matching, applicable, callerGrants, mem_yamlGrants, grantApplies_iff, or_and_right]

theorem foldl_flag (cs : List Constraints) (b : Bool) (init : Constraints) :
    cs.foldl (fun (acc : Bool × Constraints) c => (true, merge acc.2 c)) (b, init) =
      (b || !cs.isEmpty, cs.foldl merge init) := by
  induction cs generalizing b init with
  | nil => simp
  | cons c cs ih => simp [ih]

/-- `evaluate_effective` in one line: deny without a match, otherwise merge. -/
theorem evaluateEffective_eq :
    evaluateEffective identity action server database permissions dbGrants =
      if matching identity action server database permissions dbGrants = [] then .deny
      else .allow (mergeAll
        ((matching identity action server database permissions dbGrants).map (·.constraints))) := by
  simp only [evaluateEffective, foldl_flag, ← List.filter_append]
  rw [← matching]
  cases matching identity action server database permissions dbGrants with
  | nil => rfl
  | cons g gs => rfl

theorem evaluateEffective_allow_iff :
    evaluateEffective identity action server database permissions dbGrants = .allow c ↔
      (∃ g, g ∈ applicable identity action server database permissions dbGrants) ∧
        c = mergeAll
          ((matching identity action server database permissions dbGrants).map (·.constraints)) := by
  have hne : (∃ g, g ∈ applicable identity action server database permissions dbGrants) ↔
      matching identity action server database permissions dbGrants ≠ [] := by
    simp [← mem_matching, List.eq_nil_iff_forall_not_mem]
  rw [evaluateEffective_eq, hne]
  split_ifs with h
  · simp [h]
  · simp [h, eq_comm]

theorem evaluateEffective_allows :
    (∃ c, evaluateEffective identity action server database permissions dbGrants = .allow c) ↔
      ∃ g, g ∈ applicable identity action server database permissions dbGrants := by
  simp [evaluateEffective_allow_iff]

theorem evaluateEffective_mono {action' : Action}
    (hsub : ∀ g, g ∈ applicable identity action server database permissions dbGrants →
      g ∈ applicable identity' action' server database permissions' dbGrants')
    (h : evaluateEffective identity action server database permissions dbGrants = .allow c) :
    ∃ c', evaluateEffective identity' action' server database permissions' dbGrants' = .allow c' ∧
      Restricts c' c := by
  obtain ⟨⟨g, hg⟩, rfl⟩ := evaluateEffective_allow_iff.mp h
  refine ⟨_, evaluateEffective_allow_iff.mpr ⟨⟨g, hsub g hg⟩, rfl⟩, ?_⟩
  refine mergeAll_anti fun c hc => ?_
  obtain ⟨g, hg, rfl⟩ := List.mem_map.mp hc
  exact List.mem_map.mpr ⟨g, mem_matching.mpr (hsub g (mem_matching.mp hg)), rfl⟩

theorem evaluateEffective_congr
    (hset : ∀ g, g ∈ applicable identity action server database permissions dbGrants ↔
      g ∈ applicable identity' action server database permissions' dbGrants') :
    evaluateEffective identity action server database permissions dbGrants =
      evaluateEffective identity' action server database permissions' dbGrants' := by
  have hmem : ∀ g, g ∈ matching identity action server database permissions dbGrants ↔
      g ∈ matching identity' action server database permissions' dbGrants' := by
    intro g
    rw [mem_matching, mem_matching, hset]
  have hnil : matching identity action server database permissions dbGrants = [] ↔
      matching identity' action server database permissions' dbGrants' = [] := by
    simp only [List.eq_nil_iff_forall_not_mem, hmem]
  have hmerge : mergeAll
      ((matching identity action server database permissions dbGrants).map (·.constraints)) =
      mergeAll
        ((matching identity' action server database permissions' dbGrants').map (·.constraints)) :=
    mergeAll_congr fun c => by simp only [List.mem_map, hmem]
  rw [evaluateEffective_eq, evaluateEffective_eq, hmerge]
  simp only [hnil]

theorem evaluateEffective_congr_callerGrants
    (hset : ∀ g, g ∈ callerGrants identity permissions dbGrants ↔
      g ∈ callerGrants identity' permissions' dbGrants') :
    evaluateEffective identity action server database permissions dbGrants =
      evaluateEffective identity' action server database permissions' dbGrants' :=
  evaluateEffective_congr fun g => and_congr_left fun _ => hset g

theorem applicable_mono (hsub : g ∈ callerGrants identity permissions dbGrants →
      g ∈ callerGrants identity permissions' dbGrants')
    (hg : g ∈ applicable identity action server database permissions dbGrants) :
    g ∈ applicable identity action server database permissions' dbGrants' :=
  ⟨hsub hg.1, hg.2⟩

theorem applicable_of_includes {action' : Action} (h : action.includes action' = true)
    (hg : g ∈ applicable identity action server database permissions dbGrants) :
    g ∈ applicable identity action' server database permissions dbGrants :=
  ⟨hg.1, hg.2.1, Action.includes_trans hg.2.2 h⟩

theorem restricts_of_applicable
    (h : evaluateEffective identity action server database permissions dbGrants = .allow c)
    (hg : g ∈ applicable identity action server database permissions dbGrants) :
    Restricts c g.constraints := by
  obtain ⟨-, rfl⟩ := evaluateEffective_allow_iff.mp h
  exact mergeAll_le (List.mem_map.mpr ⟨g, mem_matching.mpr hg, rfl⟩)

theorem evaluateEffective_mostRestrictive
    (h : evaluateEffective identity action server database permissions dbGrants = .allow c) :
    MostRestrictive
      (Set.image Grant.constraints
        (applicable identity action server database permissions dbGrants)) c := by
  obtain ⟨-, rfl⟩ := evaluateEffective_allow_iff.mp h
  have hset : Set.image Grant.constraints
      (applicable identity action server database permissions dbGrants) =
      {c | c ∈ (matching identity action server database permissions dbGrants).map
        (·.constraints)} := by
    ext c
    simp [mem_matching]
  rw [hset]
  exact mergeAll_mostRestrictive _

end

/-! ## The specification -/

/-- What a grant evaluator must do, stated on the sets of grants. Lists with the
    same members cover every permutation and every duplication. -/
structure EffectiveSpec
    (eval : Identity → Action → String → String → List Permission → List Grant → Decision) :
    Prop where
  /-- Allowed exactly when some grant applies. -/
  allow_iff : ∀ identity action server database permissions dbGrants,
    (∃ c, eval identity action server database permissions dbGrants = .allow c) ↔
      ∃ g, g ∈ applicable identity action server database permissions dbGrants
  /-- The constraints are the pointwise most restrictive of the applicable grants. -/
  constraints : ∀ identity action server database permissions dbGrants c,
    eval identity action server database permissions dbGrants = .allow c →
      MostRestrictive
        (Set.image Grant.constraints
          (applicable identity action server database permissions dbGrants)) c
  /-- The caller's groups may be permuted and repeated. -/
  groups : ∀ identity action server database permissions dbGrants (groups' : List String),
    (∀ g, g ∈ identity.groups ↔ g ∈ groups') →
      eval identity action server database permissions dbGrants =
        eval { identity with groups := groups' } action server database permissions dbGrants
  /-- Permission blocks may be permuted and repeated. -/
  blocks : ∀ identity action server database permissions permissions' dbGrants,
    (∀ p : Permission, p ∈ permissions ↔ p ∈ permissions') →
      eval identity action server database permissions dbGrants =
        eval identity action server database permissions' dbGrants
  /-- The grants of a block may be permuted and repeated. -/
  blockGrants : ∀ identity action server database before after group grants grants' dbGrants,
    (∀ g : Grant, g ∈ grants ↔ g ∈ grants') →
      eval identity action server database (before ++ ⟨group, grants⟩ :: after) dbGrants =
        eval identity action server database (before ++ ⟨group, grants'⟩ :: after) dbGrants
  /-- The DB grants may be permuted and repeated. -/
  dbGrants : ∀ identity action server database permissions dbGrants dbGrants',
    (∀ g : Grant, g ∈ dbGrants ↔ g ∈ dbGrants') →
      eval identity action server database permissions dbGrants =
        eval identity action server database permissions dbGrants'
  move : ∀ identity action server database before after group grants₁ grants₂ db₁ db₂ (g : Grant),
    group ∈ identity.groups →
      eval identity action server database
          (before ++ ⟨group, grants₁ ++ g :: grants₂⟩ :: after) (db₁ ++ db₂) =
        eval identity action server database
          (before ++ ⟨group, grants₁ ++ grants₂⟩ :: after) (db₁ ++ g :: db₂)
  /-- More grants keep an allow and relax no constraint. -/
  add : ∀ identity action server database permissions permissions' dbGrants dbGrants' c,
    (∀ g, g ∈ callerGrants identity permissions dbGrants →
      g ∈ callerGrants identity permissions' dbGrants') →
    eval identity action server database permissions dbGrants = .allow c →
      ∃ c', eval identity action server database permissions' dbGrants' = .allow c' ∧
        Restricts c' c
  /-- Allowing an action allows what it includes, at least as restrictively. -/
  hierarchy : ∀ identity (action action' : Action) server database permissions dbGrants c,
    action.includes action' = true →
    eval identity action server database permissions dbGrants = .allow c →
      ∃ c', eval identity action' server database permissions dbGrants = .allow c' ∧
        Restricts c' c

/-- **`evaluate_effective` meets its specification** for every identity, action,
    target, permission list and DB grant list. -/
theorem evaluateEffective_spec : EffectiveSpec evaluateEffective where
  allow_iff _ _ _ _ _ _ := evaluateEffective_allows
  constraints _ _ _ _ _ _ _ h := evaluateEffective_mostRestrictive h
  groups _ _ _ _ _ _ groups' h := by
    refine evaluateEffective_congr_callerGrants fun g => ?_
    simp only [mem_callerGrants, h]
  blocks _ _ _ _ _ _ _ h := by
    refine evaluateEffective_congr_callerGrants fun g => ?_
    simp only [mem_callerGrants, h]
  blockGrants _ _ _ _ _ _ _ _ _ _ h := by
    refine evaluateEffective_congr_callerGrants fun g => ?_
    simp only [mem_callerGrants, List.mem_append, List.mem_cons, or_and_right,
      exists_or, exists_eq_left, h]
  dbGrants _ _ _ _ _ _ _ h := by
    refine evaluateEffective_congr_callerGrants fun g => ?_
    simp only [mem_callerGrants, h]
  move _ _ _ _ _ _ _ _ _ _ _ _ hgroup := by
    refine evaluateEffective_congr_callerGrants fun g => ?_
    simp only [mem_callerGrants, List.mem_append, List.mem_cons, or_and_right,
      exists_or, exists_eq_left, hgroup, true_and]
    grind
  add _ _ _ _ _ _ _ _ _ hsub h := evaluateEffective_mono (fun g => applicable_mono (hsub g)) h
  hierarchy _ _ _ _ _ _ _ _ hinc h := evaluateEffective_mono (fun _ => applicable_of_includes hinc) h

/-- **The constraints of every matching grant bind**: an allow is at least as
    restrictive as each of the caller's grants on the target whose action
    includes the requested action. -/
theorem evaluateEffective_restricts (identity : Identity) (action : Action)
    (server database : String) (permissions : List Permission) (dbGrants : List Grant)
    (c : Constraints)
    (h : evaluateEffective identity action server database permissions dbGrants = .allow c)
    (g : Grant) (hg : g ∈ callerGrants identity permissions dbGrants)
    (ht : Targets g server database) (ha : g.action.includes action = true) :
    Restricts c g.constraints :=
  restricts_of_applicable h ⟨hg, ht, ha⟩

/-- A caller with an unconstrained `query_read` DB grant on a target. -/
def reader : Identity := ⟨"sub", "reader@example.com", []⟩

/-- An unconstrained `query_read` grant. -/
def readGrant : Grant := ⟨"prod", "app", .queryRead, {}⟩

/-- A `schema_read` grant on the same target that demands a reason. -/
def reasonedSchemaGrant : Grant := ⟨"prod", "app", .schemaRead, { requireReason := true }⟩

theorem evaluateEffective_restricts_reader :
    ∃ c, evaluateEffective reader .schemaRead "prod" "app" [] [readGrant, reasonedSchemaGrant] =
        .allow c ∧ Restricts c reasonedSchemaGrant.constraints :=
  ⟨{ requireReason := true }, by decide,
    evaluateEffective_restricts reader .schemaRead "prod" "app" [] [readGrant, reasonedSchemaGrant] _
      (by decide) reasonedSchemaGrant (.inr (by decide)) ⟨.inr rfl, .inr rfl⟩ rfl⟩

/-- A grant on the target whose action does not include the requested one does
    not bind: its `require_reason` is not in the merged constraints. -/
theorem evaluateEffective_ignores_lower_action :
    ¬ ∀ identity action server database permissions dbGrants c,
      evaluateEffective identity action server database permissions dbGrants = .allow c →
      ∀ g ∈ callerGrants identity permissions dbGrants, Targets g server database →
        Restricts c g.constraints := by
  intro h
  have hr := h reader .queryRead "prod" "app" [] [readGrant, reasonedSchemaGrant] {} (by decide)
    reasonedSchemaGrant (.inr (by decide)) ⟨.inr rfl, .inr rfl⟩
  exact absurd (hr.reason rfl) (by decide)

/-! ## Wildcards -/

/-- The grants of `grants'` are those of `grants` and `w`. -/
def Adds (w : Grant) (grants grants' : Set Grant) : Prop := grants' = insert w grants

/-- With other grants the action is allowed only if it was allowed, at least as restrictively. -/
def NeverWidens (before after : Decision) : Prop :=
  ∀ c', after = .allow c' → ∃ c, before = .allow c ∧ Restricts c' c

section

variable {identity : Identity} {server database : String} {permissions permissions' : List Permission}
  {dbGrants dbGrants' : List Grant} {w : Grant}

section

variable
  (hadd : Adds w (callerGrants identity permissions dbGrants)
    (callerGrants identity permissions' dbGrants'))

include hadd

theorem restricts_of_adds {action : Action} {c}
    (hbefore : evaluateEffective identity action server database permissions dbGrants = .allow c) :
    ∃ c', evaluateEffective identity action server database permissions' dbGrants' = .allow c' ∧
      Restricts c' c := by
  refine evaluateEffective_mono (fun g => applicable_mono fun hg => ?_) hbefore
  rw [hadd]
  exact .inr hg

theorem neverWidens_of_allowed {action : Action} (h : w.action.includes action = true →
      ∃ g, g ∈ applicable identity action server database permissions dbGrants) :
    NeverWidens (evaluateEffective identity action server database permissions dbGrants)
      (evaluateEffective identity action server database permissions' dbGrants') := by
  intro c' hafter
  have hallowed : ∃ g, g ∈ applicable identity action server database permissions dbGrants := by
    obtain ⟨g, hg, htargets, hincludes⟩ := evaluateEffective_allows.mp ⟨c', hafter⟩
    rw [hadd] at hg
    rcases hg with rfl | hg
    · exact h hincludes
    · exact ⟨g, hg, htargets, hincludes⟩
  obtain ⟨c, hbefore⟩ := evaluateEffective_allows.mpr hallowed
  refine ⟨c, hbefore, ?_⟩
  obtain ⟨c'', hmono, hrestricts⟩ := restricts_of_adds hadd hbefore
  obtain rfl := Decision.allow.inj (hafter.symm.trans hmono)
  exact hrestricts

end

/-- **Where a wildcard does not widen.** For every caller, adding a grant on all databases of
    the server relaxes no decision that was allowed, and it widens no decision on a database exactly
    if the action of the added grant was allowed there. -/
theorem neverWidens_iff
    (hserver : w.server = "*" ∨ w.server = server) (hdatabase : w.database = "*")
    (hadd : Adds w (callerGrants identity permissions dbGrants)
      (callerGrants identity permissions' dbGrants')) :
    (∀ action c,
      evaluateEffective identity action server database permissions dbGrants = .allow c →
      ∃ c', evaluateEffective identity action server database permissions' dbGrants' = .allow c' ∧
        Restricts c' c) ∧
    ((∀ action, NeverWidens (evaluateEffective identity action server database permissions dbGrants)
      (evaluateEffective identity action server database permissions' dbGrants')) ↔
    ∃ g, g ∈ applicable identity w.action server database permissions dbGrants) := by
  refine ⟨fun action c => restricts_of_adds hadd, ?_⟩
  constructor
  · intro h
    have hw : w ∈ applicable identity w.action server database permissions' dbGrants' := by
      refine ⟨?_, ⟨hserver, .inl hdatabase⟩, Action.includes_refl w.action⟩
      rw [hadd]
      exact .inl rfl
    obtain ⟨c', hafter⟩ := evaluateEffective_allows.mpr ⟨w, hw⟩
    obtain ⟨c, hbefore, -⟩ := h w.action c' hafter
    exact evaluateEffective_allows.mp ⟨c, hbefore⟩
  · rintro ⟨g, hg⟩ action
    exact neverWidens_of_allowed hadd fun hincludes => ⟨g, applicable_of_includes hincludes hg⟩

end

/-- An unconstrained grant on all databases of a server. -/
def wildcardGrant (action : Action) : Grant := ⟨"prod", "*", action, {}⟩

theorem adds_dbGrant (identity : Identity) (permissions : List Permission) (w : Grant)
    (dbGrants : List Grant) :
    Adds w (callerGrants identity permissions dbGrants)
      (callerGrants identity permissions (w :: dbGrants)) := by
  ext g
  simp only [mem_callerGrants, Set.mem_insert_iff, List.mem_cons]
  exact or_left_comm

/-- A `schema_read` wildcard widens nothing for a reader of the database. -/
theorem neverWidens_reader :
    readGrant ∈ applicable reader .schemaRead "prod" "app" [] [readGrant] ∧
    ∀ action, NeverWidens (evaluateEffective reader action "prod" "app" [] [readGrant])
      (evaluateEffective reader action "prod" "app" [] [wildcardGrant .schemaRead, readGrant]) := by
  have happlies : readGrant ∈ applicable reader .schemaRead "prod" "app" [] [readGrant] :=
    ⟨.inr (by decide), ⟨.inr rfl, .inr rfl⟩, rfl⟩
  exact ⟨happlies, (neverWidens_iff (w := wildcardGrant .schemaRead) (.inr rfl) rfl
    (adds_dbGrant reader [] _ [readGrant])).2.mpr ⟨readGrant, happlies⟩⟩

/-- A `query_write` wildcard lets a reader of the database write. -/
theorem wildcard_widens :
    ¬ ∀ (identity : Identity) (action : Action) (server database : String)
      (permissions permissions' : List Permission) (dbGrants dbGrants' : List Grant) (w : Grant),
      (∃ g ∈ callerGrants identity permissions dbGrants, g.server = server ∧ g.database = database) →
      w.server = server → w.database = "*" →
      Adds w (callerGrants identity permissions dbGrants)
        (callerGrants identity permissions' dbGrants') →
      NeverWidens (evaluateEffective identity action server database permissions dbGrants)
        (evaluateEffective identity action server database permissions' dbGrants') := by
  intro h
  obtain ⟨c, hbefore, -⟩ := h reader .queryWrite "prod" "app" [] [] [readGrant]
    [wildcardGrant .queryWrite, readGrant] (wildcardGrant .queryWrite)
    ⟨readGrant, .inr (by decide), rfl, rfl⟩ rfl rfl (adds_dbGrant reader [] _ [readGrant]) {}
    (by decide)
  cases hbefore

end DbMcpGateway.Authz
