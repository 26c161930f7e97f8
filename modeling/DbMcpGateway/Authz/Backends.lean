import DbMcpGateway.Async.Machine
import DbMcpGateway.Authz.Projection
import DbMcpGateway.State.Mysql

/-!
# The two backends

The resolver reads through `PermissionsRepo`, so the PostgreSQL and the MySQL backend have
to agree. They are compared on the same calls, with the same clock and the same ids for
new rows.

Results:

* `repos_agree`: they do, for as long as the collation of the MySQL server tells the texts
  of a call apart from those of the live rows, and so do the loads.
* `disagree_of_weights_eq`: two texts of equal weights are enough to make them disagree. The
  default collation of MySQL 8 has such texts (`repos_disagree`).
-/

namespace DbMcpGateway.Authz

open Async Async.Prog Audit Config Machine State
open Tools (LoadError)

/-! ## Loads through a backend -/

/-- What a backend replies to the loader. -/
def repoAnswer (repo : PermissionsRepo) (now : Timestamp) (fresh : Uuid) (s : Store) :
    (r : RepoReq) → RepoResp r
  | .getUserBySub userSub => (repo.run now fresh s (.getUserBySub userSub)).1
  | .listGrantsForUser userId => (repo.run now fresh s (.listGrantsForUser userId)).1
  | .allLiveDatabases => (repo.run now fresh s .allLiveDatabases).1

/-- What `load_db_grants_for` returns through a backend. -/
def loadVia (repo : PermissionsRepo) (now : Timestamp) (fresh : Uuid) (s : Store)
    (userSub : String) : Except LoadError (List Grant) :=
  (Prog.run (fun r s => (repoAnswer repo now fresh s r, s)) (loadDbGrantsFor userSub) s).1

section

variable {repo : PermissionsRepo} {c : Collation} {textLe : String → String → Bool} {s : Store}
  {now : Timestamp} {fresh : Uuid} {userSub : String}

theorem project_congr {databases databases'}
    (h : ∀ target, resolveTarget databases target = resolveTarget databases' target)
    (dbGrants : List PermissionsGrant) :
    project databases dbGrants = project databases' dbGrants := by
  simp only [project_eq, resolved, h]

/-- A backend that finds the same user and lists the live databases in some order loads
    the same grants. -/
theorem loadVia_eq (databases : List PermissionsDatabase)
    (huser : repoAnswer repo now fresh s (.getUserBySub userSub) =
      answer s (.getUserBySub userSub))
    (hgrants : ∀ userId, repoAnswer repo now fresh s (.listGrantsForUser userId) =
      .ok (s.listGrantsForUser userId))
    (hdatabases : repoAnswer repo now fresh s .allLiveDatabases = .ok databases)
    (hlive : ∀ d, d ∈ databases ↔ d ∈ s.databases.rows ∧ d.live = true) :
    loadVia repo now fresh s userSub = load s userSub := by
  have hproject : ∀ dbGrants, project databases dbGrants = project s.allLiveDatabases dbGrants := by
    refine project_congr fun target => ?_
    rw [Store.resolveTarget_live hlive,
      Store.resolveTarget_live fun _ => Store.mem_allLiveDatabases]
  rw [load_eq]
  unfold loadVia loadDbGrantsFor loadFrom
  simp only [ask_bind, run_await, huser, answer]
  split_ifs
  · rfl
  · cases s.getUserBySub userSub with
    | none => rfl
    | some u =>
      dsimp only
      unfold loadGrants
      simp only [ask_bind, run_await, hgrants]
      cases s.listGrantsForUser u.id with
      | nil => rfl
      | cons g gs =>
        rw [← hproject]
        simp only [List.isEmpty_cons, Bool.false_eq_true, if_false, loadDatabases, ask_bind,
          run_await, hdatabases]
        rfl

theorem loadVia_pg : loadVia (pgRepo textLe) now fresh s userSub = load s userSub := by
  refine loadVia_eq (s.databasesByName textLe) ?_ (fun _ => rfl) rfl ?_
  · change (autocommit s (if Text.hasNul userSub then .error _ else .ok _)).1 =
      if Text.hasNul userSub then .error _ else .ok _
    split_ifs <;> rfl
  · intro d
    unfold Store.databasesByName
    rw [List.mem_insertionSort, List.mem_filter]

theorem loadVia_mysql (hnul : Text.hasNul userSub = false) (htells : c.tellsUser s userSub = true) :
    loadVia (mysqlRepo c) now fresh s userSub = load s userSub := by
  refine loadVia_eq (Mysql.databasesByName c s) ?_ (fun _ => rfl) rfl ?_
  · simp only [repoAnswer, answer, mysqlRepo, Mysql.getUserBySub_eq htells, hnul]
    rfl
  · intro d
    unfold Mysql.databasesByName
    rw [List.mem_insertionSort, List.mem_filter]

end

/-! ## Sequences of calls -/

/-- The id of a new row is not in use, both databases can store the texts of the call, and
    the collation tells them apart from those of the live rows. -/
def admissible (c : Collation) (textLe : String → String → Bool) (s : Store) (call : RepoCall) :
    Bool :=
  s.unused call.fresh && call.op.storable && c.tells textLe s call.op

section

variable {c : Collation} {textLe : String → String → Bool} {s : Store} {calls : List RepoCall}

/-- The calls return the same and lead to the same store, which is well formed. -/
theorem runs_agree (hs : s.WellFormed)
    (h : Meets (pgRepo textLe).step (fun s call => admissible c textLe s call = true) s calls) :
    (mysqlRepo c).results s calls = (pgRepo textLe).results s calls ∧
    ∃ s', s'.WellFormed ∧ Machine.run (pgRepo textLe).step s calls = some s' ∧
      Machine.run (mysqlRepo c).step s calls = some s' := by
  induction calls generalizing s with
  | nil => exact ⟨rfl, s, hs, rfl, rfl⟩
  | cons call calls ih =>
    obtain ⟨hcall, hcalls⟩ := h
    simp only [admissible, Bool.and_eq_true] at hcall
    obtain ⟨⟨hunused, hstorable⟩, htells⟩ := hcall
    have hfresh := Store.unused_spec hunused
    obtain ⟨hresult, hstore⟩ : Agree ((mysqlRepo c).run call.now call.fresh s call.op)
      ((pgRepo textLe).run call.now call.fresh s call.op) := agree_step hs hfresh hstorable htells
    obtain ⟨hresults, s', hs', hpg, hmysql⟩ :=
      ih (pgRepo_wellFormed hs hfresh call.op) (hcalls _ rfl)
    refine ⟨?_, s', hs', hpg, ?_⟩
    · simp only [PermissionsRepo.results]
      rw [hresult, hstore, hresults]
    · change Machine.run (mysqlRepo c).step
        ((mysqlRepo c).run call.now call.fresh s call.op).2 calls = some s'
      rw [hstore]
      exact hmysql

end

/-- **The backends agree** on every sequence of calls whose texts the collation tells apart
    from those of the live rows: they return the same, a subject is found exactly if a live
    row has it, and the loads are the same. -/
theorem repos_agree (c : Collation) (textLe : String → String → Bool) {calls : List RepoCall}
    (h : Meets (pgRepo textLe).step (fun s call => admissible c textLe s call = true) .empty calls) :
    (mysqlRepo c).results .empty calls = (pgRepo textLe).results .empty calls ∧
    ∃ s, Machine.run (pgRepo textLe).step .empty calls = some s ∧
      Machine.run (mysqlRepo c).step .empty calls = some s ∧
      ∀ userSub, Text.hasNul userSub = false → c.tellsUser s userSub = true → ∀ now fresh,
        ((∃ u, ((mysqlRepo c).run now fresh s (.getUserBySub userSub)).1 = .ok (some u)) ↔
          ∃ u ∈ s.users.rows, u.live = true ∧ u.userSub = userSub) ∧
        loadVia (mysqlRepo c) now fresh s userSub = loadVia (pgRepo textLe) now fresh s userSub := by
  obtain ⟨hresults, s, hs, hpg, hmysql⟩ := runs_agree Store.wellFormed_empty h
  refine ⟨hresults, s, hpg, hmysql, fun userSub hnul htells now fresh => ⟨?_, ?_⟩⟩
  · refine exists_congr fun u => ?_
    change Except.ok (Mysql.getUserBySub c s userSub) = _ ↔ _
    rw [Mysql.getUserBySub_eq htells, Except.ok.injEq, Store.getUserBySub_eq_some hs]
  · rw [loadVia_mysql hnul htells, loadVia_pg]

def codePointLe (a b : String) : Bool := a ≤ b

/-- `utf8mb4_0900_ai_ci` on texts of ASCII letters and digits: upper and lower case have the
    same weight, and digits come before letters. -/
def caseless : Collation := ⟨fun text => (Text.asciiLowercase text).map Char.toNat⟩

def carolId : Uuid := 1

def stockId : Uuid := 2

/-- Carol and two databases are registered, Carol gets a grant on one of them, and the
    databases are listed. -/
def registration : List RepoCall :=
  [⟨.upsertUser "carol" "carol@corp" ["dev"], 0, carolId⟩,
    ⟨.createDatabase "shop" "stock" .postgres, 1, stockId⟩,
    ⟨.createDatabase "shop" "sales" .mysql, 2, 3⟩,
    ⟨.createGrant carolId (.specific stockId) .queryRead (.obj []), 3, 4⟩,
    ⟨.allLiveDatabases, 4, 5⟩]

def stockGrant : Grant :=
  { server := "shop", database := "stock", action := .queryRead
    constraints := { requireReason := false, rowLimit := none, statementTimeoutMs := none } }

theorem repos_agree_carol :
    (mysqlRepo caseless).results .empty registration =
      (pgRepo codePointLe).results .empty registration ∧
    ∃ s, Machine.run (mysqlRepo caseless).step .empty registration = some s ∧
      loadVia (mysqlRepo caseless) 5 6 s "carol" = loadVia (pgRepo codePointLe) 5 6 s "carol" := by
  have hcheck : (Machine.run (pgRepo codePointLe).step .empty registration).any (fun s =>
      caseless.tellsUser s "carol") = true := by decide +kernel
  have hmeets : checks (pgRepo codePointLe).step (admissible caseless codePointLe) .empty
      registration = true := by decide +kernel
  simp only [Option.any_eq_true] at hcheck
  obtain ⟨s₁, hrun₁, htells⟩ := hcheck
  obtain ⟨hresults, s, hrun, hmysql, hall⟩ :=
    repos_agree caseless codePointLe (meets_of_checks hmeets)
  obtain rfl : s₁ = s := Option.some.inj (hrun₁.symm.trans hrun)
  exact ⟨hresults, s₁, hmysql, (hall "carol" (by decide) htells 5 6).2⟩

/-- **Two texts of equal weights make the backends disagree**: one is registered and the
    other one is found. -/
theorem disagree_of_weights_eq {c : Collation} {textLe : String → String → Bool}
    {a b email : String} {groups} (hne : a ≠ b) (hweights : c.weights a = c.weights b)
    (ha : (RepoOp.upsertUser a email groups).storable = true) (hb : Text.hasNul b = false)
    {now now'} {fresh fresh' : Uuid} :
    (mysqlRepo c).results .empty
        [⟨.upsertUser a email groups, now, fresh⟩, ⟨.getUserBySub b, now', fresh'⟩] ≠
      (pgRepo textLe).results .empty
        [⟨.upsertUser a email groups, now, fresh⟩, ⟨.getUserBySub b, now', fresh'⟩] := by
  have htells : c.tellsUser .empty a = true := rfl
  have hfresh : Store.empty.Unused fresh := ⟨rfl, rfl, rfl⟩
  obtain ⟨hresult, hstore⟩ : Agree ((mysqlRepo c).run now fresh .empty (.upsertUser a email groups))
    ((pgRepo textLe).run now fresh .empty (.upsertUser a email groups)) :=
    agree_upsertUser Store.wellFormed_empty hfresh ha htells
  intro heq
  simp only [PermissionsRepo.results, hresult, hstore, pgRepo_upsertUser ha, List.cons.injEq,
    Sigma.mk.injEq, heq_eq_eq, true_and, and_true] at heq
  change some (Mysql.getUserBySub c _ b) = (autocommit _ _).1.toOption at heq
  rw [autocommit_run (by exact hb)] at heq
  change some (Mysql.getUserBySub c _ b) = some (Store.getUserBySub _ b) at heq
  -- the store has one row, of `a`, which MySQL finds for `b`
  have hrows : (Store.empty.apply (Store.empty.upsertUser now fresh a email groups).2).users.rows =
      [⟨fresh, a, email, groups, now, now, none⟩] := rfl
  simp [Mysql.getUserBySub, Store.getUserBySub, hrows, Collation.eq, hweights,
    PermissionsUser.live, hne] at heq

def carol : PermissionsUser := ⟨carolId, "carol", "carol@corp", ["dev"], 0, 0, none⟩

/-- Whoever comes as Carol has the grants of carol. -/
theorem repos_disagree :
    (mysqlRepo caseless).results .empty
        [⟨.upsertUser "carol" "carol@corp" ["dev"], 0, carolId⟩, ⟨.getUserBySub "Carol", 1, 2⟩] ≠
      (pgRepo codePointLe).results .empty
        [⟨.upsertUser "carol" "carol@corp" ["dev"], 0, carolId⟩, ⟨.getUserBySub "Carol", 1, 2⟩] ∧
    ∃ s, Machine.run (mysqlRepo caseless).step .empty registration = some s ∧
      Machine.run (pgRepo codePointLe).step .empty registration = some s ∧
      ((mysqlRepo caseless).run 5 6 s (.getUserBySub "Carol")).1 = .ok (some carol) ∧
      ((pgRepo codePointLe).run 5 6 s (.getUserBySub "Carol")).1 = .ok none ∧
      loadVia (mysqlRepo caseless) 5 6 s "Carol" = .ok [stockGrant] ∧
      loadVia (pgRepo codePointLe) 5 6 s "Carol" = .ok [] := by
  refine ⟨disagree_of_weights_eq (by decide) (by decide) (by decide) (by decide), ?_⟩
  have hmeets : checks (pgRepo codePointLe).step (admissible caseless codePointLe) .empty
      registration = true := by decide +kernel
  have hcheck : (Machine.run (pgRepo codePointLe).step .empty registration).any (fun s =>
      decide (((mysqlRepo caseless).run 5 6 s (.getUserBySub "Carol")).1 = .ok (some carol)) &&
      decide (((pgRepo codePointLe).run 5 6 s (.getUserBySub "Carol")).1 = .ok none) &&
      decide (loadVia (mysqlRepo caseless) 5 6 s "Carol" = .ok [stockGrant]) &&
      decide (loadVia (pgRepo codePointLe) 5 6 s "Carol" = .ok [])) = true := by decide +kernel
  simp only [Option.any_eq_true, Bool.and_eq_true, decide_eq_true_eq] at hcheck
  obtain ⟨s, hpg, ⟨⟨hfound, hmissing⟩, hgranted⟩, hdenied⟩ := hcheck
  obtain ⟨-, s', -, hpg', hmysql⟩ := runs_agree Store.wellFormed_empty (meets_of_checks hmeets)
  obtain rfl : s = s' := Option.some.inj (hpg.symm.trans hpg')
  exact ⟨s, hmysql, hpg, hfound, hmissing, hgranted, hdenied⟩

end DbMcpGateway.Authz
