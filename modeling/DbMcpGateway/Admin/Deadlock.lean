import DbMcpGateway.Admin.Invariant

/-!
# Deadlocks of admin transactions

A transaction waits for another one if the statement it is at needs a lock that the other one
has. A statement takes its locks at once; they are held to the end of the transaction. Every
handler first writes the row of its target and then, unless the target is the actor's own user,
upserts the actor's user row, so a transaction that has a lock and waits does so at the upsert.

Results:

* `Sys.Waits.targets`: in a chain of waiting transactions, each one has changed the user row of
  the actor before it.
* `no_deadlock`: so there is no cycle unless administrators change each other's user rows in a
  circle.
* `mutual_patch_deadlock`: two administrators who do.
-/

namespace DbMcpGateway.Admin

open Async Async.Prog Audit Authz Relation State

/-! ## Waiting -/

namespace Sys

/-- The id is new to every transaction. -/
def isNew (s : Sys) (fresh : Uuid) : Bool :=
  s.requests.all fun r =>
    match r.tx.active with
    | none => true
    | some t => (writes.applyAll s.store t.writes).unused fresh

/-- The statement of the first request, with the given id for a new row, needs a lock that the
    transaction of the second one has. -/
def waitsFor (s : Sys) (i j : ℕ) (fresh : Uuid) : Bool :=
  match s.requests[i]?, s.requests[j]? with
  | some ⟨_, .running (.await (.stmt st) _), .open t, _⟩, some r =>
    match r.tx.active, st.run t.startedAt fresh (writes.applyAll s.store t.writes) with
    | some t', .ok (_, ws) => i ≠ j && ws.any fun w => t'.writes.any fun w' => !apart w w'
    | _, _ => false
  | _, _ => false

/-- The first request waits for the end of the second one's transaction. -/
def Waits (s : Sys) (i j : ℕ) : Prop := ∃ fresh, s.isNew fresh = true ∧ s.waitsFor i j fresh = true

/-- A cycle of requests, each waiting for the next. -/
def Deadlocked (s : Sys) : Prop := ∃ i, TransGen s.Waits i i

/-- The transaction of the second request has changed the user row of the first one's actor,
    who is another administrator. -/
def targets (s : Sys) (i j : ℕ) : Bool :=
  match s.requests[i]?, s.requests[j]? with
  | some r, some r' =>
    match r'.tx.active with
    | none => false
    | some t => r'.call.actor.sub ≠ r.call.actor.sub && t.writes.any fun w =>
      match w with
      | .user _ new => new.userSub = r.call.actor.sub
      | _ => false
  | _, _ => false

end Sys

section

variable {s : Sys} {i j k : ℕ}

/-- The parts of `waitsFor`. -/
structure Sys.WaitsAt (s : Sys) (i j : ℕ) (fresh : Uuid) (call : AdminCall) (st : Stmt) (t : Tx)
    (ws : List Write) (r : Request) (t' : Tx) : Prop where
  ne : i ≠ j
  waiter : ∃ next spawned,
    s.requests[i]? = some ⟨call, .running (.await (.stmt st) next), .open t, spawned⟩
  does : ∃ x, st.Does t.startedAt fresh (writes.applyAll s.store t.writes) x ws
  holder : s.requests[j]? = some r
  active : r.tx.active = some t'
  conflict : ∃ w ∈ ws, ∃ w' ∈ t'.writes, apart w w' = false

variable {fresh : Uuid} {w : Write} {call : AdminCall} {t : Tx} {ws : List Write}

theorem Sys.waitsAt_of_waitsFor (h : s.waitsFor i j fresh = true) :
    ∃ call st t ws r t', s.WaitsAt i j fresh call st t ws r t' := by
  unfold waitsFor at h
  split at h
  · rename_i call st next t spawned r hi hj
    split at h
    · rename_i t' x ws hactive hrun
      rw [Bool.and_eq_true, decide_eq_true_eq, List.any_eq_true] at h
      obtain ⟨hne, w, hw, hany⟩ := h
      obtain ⟨w', hw', hapart⟩ := List.any_eq_true.mp hany
      rw [Bool.not_eq_true'] at hapart
      exact ⟨call, st, t, ws, r, t', hne, ⟨next, spawned, hi⟩, ⟨x, Stmt.run_does hrun⟩, hj, hactive,
        w, hw, w', hw', hapart⟩
    · cases h
  · cases h

/-- The transaction of the request has written something. -/
def Sys.Holds (s : Sys) (i : ℕ) : Prop :=
  ∃ r t, s.requests[i]? = some r ∧ r.tx.active = some t ∧ t.writes ≠ []

theorem Sys.Waits.holds (h : s.Waits i j) : s.Holds j := by
  obtain ⟨fresh, -, h⟩ := h
  obtain ⟨call, st, t, ws, r, t', hat⟩ := waitsAt_of_waitsFor h
  obtain ⟨w, -, w', hw', -⟩ := hat.conflict
  exact ⟨r, t', hat.holder, hat.active, List.ne_nil_of_mem hw'⟩

theorem apart_audit {row} : apart (.audit row) w = true := rfl

/-- A request that has a lock and waits is at the upsert of its actor, who is not the user it
    has changed. -/
structure Sys.Stuck (s : Sys) (call : AdminCall) (t : Tx) (ws : List Write) (m : Mutation)
    (w : Write) (fresh : Uuid) : Prop where
  main : Main s.store m w
  notOwn : ¬ m.IsOwn call.actor
  writes : t.writes = [w]
  upsert : ∃ x, (Stmt.upsertActor call.actor.sub call.actor.email call.actor.groups).Does
    t.startedAt fresh (s.store.apply w) x ws

theorem Sys.WaitsAt.stuck {st : Stmt} {t' : Tx} {r : Request} (hok : s.Ok)
    (h : s.WaitsAt i j fresh call st t ws r t') (hholds : s.Holds i) :
    ∃ m w, s.Stuck call t ws m w fresh := by
  obtain ⟨next, spawned, hi⟩ := h.waiter
  obtain ⟨x, hdoes⟩ := h.does
  have hmem := List.mem_of_getElem? hi
  have hexplains := hok.explains _ hmem t rfl
  have hwritten : t.writes ≠ [] := by
    obtain ⟨r', t₁, hi', hactive, hne⟩ := hholds
    rw [hi] at hi'
    cases hi'
    cases hactive
    exact hne
  obtain ⟨w, hw, w', hw', hconflict⟩ := h.conflict
  rcases (hok.follows _ hmem).mayRun.cases with hread | hreads | ⟨row, rfl⟩ | ⟨rfl, m, hlog, hown⟩
  · rw [hdoes.of_read hread] at hw
    cases hw
  · exact absurd (hexplains.readsOnly hreads) hwritten
  · -- The audit row needs no lock.
    cases hdoes
    cases List.mem_singleton.mp hw
    rw [apart_audit] at hconflict
    cases hconflict
  · rw [hlog] at hexplains
    obtain ⟨w₀, hwrites, hmain⟩ := hexplains.main
    rw [hwrites] at hdoes
    exact ⟨m, w₀, hmain, hown, hwrites, x, hdoes⟩

theorem Sys.Stuck.userSub_ne {m : Mutation} {old} {new : PermissionsUser}
    (h : s.Stuck call t ws m (.user old new) fresh) : new.userSub ≠ call.actor.sub := by
  intro hsub
  refine h.notOwn ?_
  rw [Mutation.IsOwn, h.main.own, Option.map_some, hsub]

theorem Sys.Stuck.upserts {m : Mutation} (h : s.Stuck call t ws m w fresh) :
    ∃ old new, ws = [.user old new] ∧ new.userSub = call.actor.sub ∧
      (new.id = fresh ∨ ∃ u, s.store.users.get new.id = some u ∧ u.userSub = call.actor.sub) := by
  obtain ⟨x, hdoes⟩ := h.upsert
  cases hdoes with
  | upsertActorNew hnone hnew =>
    subst hnew
    exact ⟨_, _, rfl, rfl, .inl rfl⟩
  | @upsertActorLive _ _ _ u new hu hnew =>
    obtain ⟨hmem, -, hsub⟩ := Store.getUserBySub_some hu
    subst hnew
    refine ⟨_, _, rfl, hsub, .inr ⟨u, ?_, hsub⟩⟩
    have hget := Table.get_eq_some.mpr ⟨hmem, rfl⟩
    -- The write of the request is of another user, so the row was there before.
    cases w with
    | user old' new' =>
      refine (Table.get_put_of_ne ?_).symm.trans hget
      intro hid
      change (s.store.users.put new').get u.id = some u at hget
      rw [show u.id = new'.id from hid, Table.get_put_self] at hget
      cases hget
      exact h.userSub_ne hsub
    | database | grant | audit => exact hget

/-- Two user rows with a common lock. -/
theorem apart_user {old} {new : PermissionsUser} (h : apart (.user old new) w = false) :
    ∃ old' new', w = .user old' new' ∧ (new.id = new'.id ∨ new.userSub = new'.userSub) := by
  cases w with
  | user old' new' =>
    refine ⟨old', new', rfl, ?_⟩
    by_contra hne
    rw [not_or] at hne
    simp [apart, hne.1, hne.2] at h
  | database old' new' => cases old' <;> simp [apart] at h
  | grant old' new' | audit row => simp [apart] at h

/-- A request that has a lock and waits for one that waits itself: the latter has changed the
    user row of the former's actor. -/
theorem Sys.Waits.targets (hok : s.Ok) (h : s.Waits i j) (hholds : s.Holds i)
    (hnext : s.Waits j k) : s.targets i j = true := by
  have hholder := h.holds
  obtain ⟨fresh, hnew, h⟩ := h
  obtain ⟨call, st, t, ws, r, t', hat⟩ := waitsAt_of_waitsFor h
  obtain ⟨m, w, hstuck⟩ := hat.stuck hok hholds
  obtain ⟨fresh', -, hnext⟩ := hnext
  obtain ⟨call', st', t₁, ws', r', t₂, hat'⟩ := waitsAt_of_waitsFor hnext
  obtain ⟨m', w', hstuck'⟩ := hat'.stuck hok hholder
  obtain ⟨next', spawned', hj⟩ := hat'.waiter
  -- The transaction that is waited for is the one that is stuck.
  have hholder := hat.holder
  rw [hj] at hholder
  cases hholder
  have hactive := hat.active
  cases hactive
  have hmem := List.mem_of_getElem? hj
  have hfits := (hok.fits _ hmem t' rfl).fits
  rw [hstuck'.writes] at hfits
  obtain ⟨old, new, rfl, hsub, hid⟩ := hstuck.upserts
  obtain ⟨w₁, hw₁, w₂, hw₂, hconflict⟩ := hat.conflict
  rw [List.mem_singleton.mp hw₁] at hconflict
  rw [hstuck'.writes] at hw₂
  rw [List.mem_singleton.mp hw₂] at hconflict
  obtain ⟨old', new', rfl, hshared⟩ := apart_user hconflict
  have hsub' : new'.userSub = call.actor.sub := by
    rcases hshared with hshared | hshared
    · rcases hid with hid | ⟨u, hu, husub⟩
      · -- No transaction has a row of a new id.
        have hunused := List.all_eq_true.mp hnew _ hmem
        dsimp only [TxState.active] at hunused
        rw [hstuck'.writes] at hunused
        have hnone := (Store.unused_spec hunused).user
        rw [← hid, hshared] at hnone
        change (s.store.users.put new').get new'.id = none at hnone
        rw [Table.get_put_self] at hnone
        cases hnone
      · obtain ⟨hget, hold, -⟩ := hfits _ (List.mem_singleton_self _)
        rw [← hshared, hu] at hget
        rw [(hold u hget.symm).2, husub]
    · rw [← hshared, hsub]
  have hne : call'.actor.sub ≠ call.actor.sub := by
    rw [← hsub']
    exact hstuck'.userSub_ne.symm
  obtain ⟨next, spawned, hi⟩ := hat.waiter
  unfold Sys.targets
  rw [hi, hj]
  simp [TxState.active, hstuck'.writes, hsub', hne]

theorem Sys.transGen_waits_head (h : TransGen s.Waits i j) : ∃ k, s.Waits i k := by
  obtain ⟨k, hik, -⟩ := TransGen.head'_iff.mp h
  exact ⟨k, hik⟩

/-- A chain of waiting requests that begins at one with a lock and ends at one that waits. -/
theorem Sys.transGen_targets (hok : s.Ok) (h : TransGen s.Waits i j) (hholds : s.Holds i)
    (hnext : s.Waits j k) : TransGen (fun i j => s.targets i j = true) i j := by
  induction h using TransGen.head_induction_on with
  | single h => exact .single (h.targets hok hholds hnext)
  | head h hrest ih =>
    obtain ⟨m, hm⟩ := transGen_waits_head hrest
    exact .head (h.targets hok hholds hm) (ih h.holds)

/-- There is no deadlock, unless the open transactions of some administrators have changed each
    other's user rows in a circle. -/
theorem no_deadlock {as : List Action} (hrun : Machine.run Sys.step .init as = some s)
    (hcircle : ∀ i, ¬ TransGen (fun i j => s.targets i j = true) i i) : ¬ s.Deadlocked := by
  rintro ⟨i, hcycle⟩
  obtain ⟨k, hnext⟩ := Sys.transGen_waits_head hcycle
  obtain ⟨j, -, hlast⟩ := TransGen.tail'_iff.mp hcycle
  exact hcircle i (Sys.transGen_targets (Sys.ok_of_run hrun) hcycle hlast.holds hnext)

end

/-! ## Two administrators -/

def alice : AdminActor := ⟨"alice", "alice@corp", ["db-admins"], "request"⟩

def bob : AdminActor := ⟨"bob", "bob@corp", ["db-admins"], "request"⟩

def aliceRow : Uuid := 1
def bobRow : Uuid := 2

/-- Both have a user row. -/
def bothRegistered : List Action :=
  serve 0 ⟨alice, .createUser (some ⟨"bob", "bob@corp", []⟩)⟩ 0 [10, bobRow, aliceRow, 11]

/-- Alice changes the user row of bob, who registers a database. -/
def patchAndCreate : List Action :=
  bothRegistered ++
    upToCommit 1 ⟨alice, .patchUser (some bobRow) (some ⟨none, some ["dev"]⟩)⟩ 1 [12, 13] ++
    upToCommit 2 ⟨bob, .createDatabase (some ⟨"shop", "orders", "postgres"⟩)⟩ 2 [14]

theorem no_deadlock_patchAndCreate :
    ∃ s, Machine.run Sys.step .init patchAndCreate = some s ∧ s.Waits 2 1 ∧ ¬ s.Deadlocked := by
  have hcheck : (Machine.run Sys.step .init patchAndCreate).any (fun s =>
      s.isNew 20 && s.waitsFor 2 1 20 && decide (s.requests.length = 3) &&
        (List.range 3).all fun i => (List.range 3).all fun j => !s.targets i j || decide (j < i)) =
      true := by
    decide +kernel
  obtain ⟨s, hrun, hs⟩ := Option.any_eq_true _ _ |>.mp hcheck
  simp only [Bool.and_eq_true, decide_eq_true_eq] at hs
  obtain ⟨⟨⟨hnew, hwaits⟩, hlength⟩, hdown⟩ := hs
  refine ⟨s, hrun, ⟨20, hnew, hwaits⟩, no_deadlock hrun fun i hcircle => ?_⟩
  have hlt : ∀ i j, s.targets i j = true → j < i := by
    intro i j htargets
    have hi : i < 3 := by
      by_contra hge
      have hnone : s.requests[i]? = none := List.getElem?_eq_none (by omega)
      simp [Sys.targets, hnone] at htargets
    have hj : j < 3 := by
      by_contra hge
      have hnone : s.requests[j]? = none := List.getElem?_eq_none (by omega)
      simp [Sys.targets, hnone] at htargets
    have hij := List.all_eq_true.mp (List.all_eq_true.mp hdown i (List.mem_range.mpr hi)) j
      (List.mem_range.mpr hj)
    simpa [htargets] using hij
  have hbelow : ∀ j, TransGen (fun i j => s.targets i j = true) i j → j < i := by
    intro j hpath
    induction hpath with
    | single h => exact hlt _ _ h
    | tail _ h ih => exact lt_trans (hlt _ _ h) ih
  exact lt_irrefl i (hbelow i hcircle)

/-- Each changes the user row of the other. -/
def mutualPatch : List Action :=
  bothRegistered ++
    upToCommit 1 ⟨alice, .patchUser (some bobRow) (some ⟨none, some ["dev"]⟩)⟩ 1 [12, 13] ++
    upToCommit 2 ⟨bob, .patchUser (some aliceRow) (some ⟨none, some ["dev"]⟩)⟩ 2 [14, 15]

/-- The kind of error that a handler has returned. -/
def Request.failure (r : Request) : Option AdminErrorKind :=
  match r.task with
  | .returned (.error e) => some e.kind
  | _ => none

/-- Each waits for the user row that the other has changed, and the one whose transaction
    PostgreSQL gives up fails with an internal error. -/
theorem mutual_patch_deadlock :
    ∃ s s', Machine.run Sys.step .init mutualPatch = some s ∧ s.Waits 1 2 ∧ s.Waits 2 1 ∧
      s.Deadlocked ∧ s.step (.exec 1 20 (some (.database (some "40P01") none))) = some s' ∧
      s'.requests.map Request.failure = [none, some .internal, none] := by
  have hcheck : (Machine.run Sys.step .init mutualPatch).any (fun s =>
      s.isNew 20 && s.waitsFor 1 2 20 && s.waitsFor 2 1 20 &&
        (s.step (.exec 1 20 (some (.database (some "40P01") none)))).any fun s' =>
          decide (s'.requests.map Request.failure = [none, some .internal, none])) = true := by
    decide +kernel
  obtain ⟨s, hrun, hs⟩ := Option.any_eq_true _ _ |>.mp hcheck
  simp only [Bool.and_eq_true] at hs
  obtain ⟨⟨⟨hnew, hwaits⟩, hwaits'⟩, hfails⟩ := hs
  obtain ⟨s', hstep, hs'⟩ := Option.any_eq_true _ _ |>.mp hfails
  have h12 : s.Waits 1 2 := ⟨20, hnew, hwaits⟩
  have h21 : s.Waits 2 1 := ⟨20, hnew, hwaits'⟩
  exact ⟨s, s', hrun, h12, h21, ⟨1, .head h12 (.single h21)⟩, hstep, of_decide_eq_true hs'⟩

end DbMcpGateway.Admin
