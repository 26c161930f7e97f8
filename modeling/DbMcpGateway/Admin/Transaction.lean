import DbMcpGateway.Admin.Mutation

/-!
# What a transaction has done

The log of a transaction is explained by the stores its statements saw: each statement
ran on what was committed at that moment, with the writes of the transaction so far.
Rows never disappear, so what a statement saw still says something about the store at
the commit.

Results:

* `Explains.main`: the one write that the statements of a mutation make, and how it is
  related to the rows they returned.
* `Explains.complete`: the writes of a whole mutation.
* `Explains.fitsAll_append`: whatever a handler may run next, its write fits the committed store.
-/

namespace DbMcpGateway.Admin

open Audit Authz State

/-! ## Explained logs -/

/-- The log was produced, with these writes, by a transaction that had made the writes
    `ws₀` when `s₀` was committed, and now `s` is committed. -/
inductive Explains (s : Store) (now : Timestamp) :
    Store → List Write → List Exchange → List Write → Prop
  | nil {s₀ ws₀} : s₀.Grows s → Explains s now s₀ ws₀ [] []
  | cons {s₀ s₁ ws₀ ws ws' fresh st x log} : s₀.Grows s₁ → s₁.WellFormed →
      st.Does now fresh (writes.applyAll s₁ ws₀) x ws →
      Explains s now s₁ (ws₀ ++ ws) log ws' → Explains s now s₀ ws₀ (⟨st, x⟩ :: log) (ws ++ ws')

section

variable {s s' s₀ : Store} {now : Timestamp} {ws₀ ws : List Write} {log log' : List Exchange}

theorem Explains.grows (h : Explains s now s₀ ws₀ log ws) : s₀.Grows s := by
  induction h with
  | nil hgrows => exact hgrows
  | cons hgrows _ _ _ ih => exact hgrows.trans ih

theorem Explains.mono (hgrows : s.Grows s') (h : Explains s now s₀ ws₀ log ws) :
    Explains s' now s₀ ws₀ log ws := by
  induction h with
  | nil h => exact .nil (h.trans hgrows)
  | cons h hs hdoes _ ih => exact .cons h hs hdoes ih

/-- The transaction runs one more statement. -/
theorem Explains.concat {fresh : Uuid} {st : Stmt} {x : st.Resp} {ws'}
    (h : Explains s now s₀ ws₀ log ws) (hs : s.WellFormed)
    (hdoes : st.Does now fresh (writes.applyAll s (ws₀ ++ ws)) x ws') :
    Explains s now s₀ ws₀ (log ++ [⟨st, x⟩]) (ws ++ ws') := by
  induction h with
  | @nil s₀ ws₀ hgrows =>
    rw [List.append_nil] at hdoes
    have hcons := Explains.cons hgrows hs hdoes (.nil (Store.Grows.refl s))
    rw [List.append_nil] at hcons
    exact hcons
  | cons hgrows hs₁ hfirst _ ih =>
    rw [List.cons_append, List.append_assoc]
    rw [← List.append_assoc] at hdoes
    exact .cons hgrows hs₁ hfirst (ih hdoes)

/-- A log in two parts. -/
theorem Explains.split (h : Explains s now s₀ ws₀ (log ++ log') ws) :
    ∃ s₁ ws₁ ws₂, ws = ws₁ ++ ws₂ ∧ Explains s now s₀ ws₀ log ws₁ ∧
      Explains s now s₁ (ws₀ ++ ws₁) log' ws₂ := by
  induction log generalizing s₀ ws₀ ws with
  | nil => exact ⟨s₀, [], ws, rfl, .nil h.grows, by rwa [List.append_nil]⟩
  | cons e log ih =>
    cases h with
    | @cons _ s₁ _ ws₁ _ fresh st x _ hgrows hs₁ hdoes hrest =>
      obtain ⟨s₂, ws₂, ws₃, rfl, hlog, hlog'⟩ := ih hrest
      refine ⟨s₂, ws₁ ++ ws₂, ws₃, (List.append_assoc _ _ _).symm, .cons hgrows hs₁ hdoes hlog, ?_⟩
      rwa [← List.append_assoc]

/-- Reads write nothing. -/
theorem Explains.readsOnly (hreads : ReadsOnly log) (h : Explains s now s₀ ws₀ log ws) :
    ws = [] := by
  induction h with
  | nil => rfl
  | cons _ _ hdoes _ ih =>
    unfold ReadsOnly at hreads
    rw [List.forall_mem_cons] at hreads
    rw [hdoes.of_read hreads.1, ih hreads.2]
    rfl

end

/-! ## The write of a mutation -/

/-- The write that the statements of a mutation make, in relation to the rows they have
    returned. -/
inductive Main (s : Store) : Mutation → Write → Prop
  | createUser {userSub userEmail groups before old} {user : PermissionsUser} :
      user.userSub = userSub → user.live = true →
      Main s (.createUser userSub userEmail groups before user) (.user old user)
  | updateUser {id userEmail groups} {before after u : PermissionsUser} :
      after.id = id → before.userSub = after.userSub → after.live = true →
      Main s (.updateUser id userEmail groups before after) (.user (some u) after)
  | deleteUser {id} {before u : PermissionsUser} {deletedAt} :
      u.id = id → before.id = id → before.userSub = u.userSub →
      Main s (.deleteUser id before) (.user (some u) { u with deletedAt := some deletedAt })
  | createDatabase {server dbName dbType} {database : PermissionsDatabase} : database.live = true →
      Main s (.createDatabase server dbName dbType database) (.database none database)
  | updateDatabase {id server dbName dbType} {before after d : PermissionsDatabase} :
      after.id = id → before.id = id → after.live = true →
      Main s (.updateDatabase id server dbName dbType before after) (.database (some d) after)
  | deleteDatabase {id} {before d : PermissionsDatabase} {deletedAt} : d.id = id → before.id = id →
      Main s (.deleteDatabase id before) (.database (some d) { d with deletedAt := some deletedAt })
  | createGrant {userId target action constraints}
      {grant : PermissionsGrant} {u : PermissionsUser} :
      grant.live = true → s.users.get grant.userId = some u →
      Main s (.createGrant userId target action constraints grant (some u.userSub))
        (.grant none grant)
  | updateGrant {id action constraints} {before after g : PermissionsGrant} {u : PermissionsUser} :
      after.id = id → before.id = id → after.live = true → s.users.get after.userId = some u →
      Main s (.updateGrant id action constraints before after (some u.userSub))
        (.grant (some g) after)
  | deleteGrant {id} {before g : PermissionsGrant} {revokedAt} {u : PermissionsUser} :
      g.id = id → before.id = id → s.users.get g.userId = some u →
      Main s (.deleteGrant id before (some u.userSub))
        (.grant (some g) { g with revokedAt := some revokedAt })

section

variable {s s₀ s₁ : Store} {now : Timestamp} {ws : List Write}

variable {id : Uuid} {new : PermissionsUser} {actorId : Uuid} {st : Stmt}

/-- Two readings of a user row give one subject. -/
theorem userSub_eq_of_grows {s₂ : Store} {u u' : PermissionsUser} (h : s₁.users.get id = some u)
    (h' : s₂.users.get id = some u') (hgrows : s₁.Grows s) (hgrows' : s₂.Grows s) :
    u.userSub = u'.userSub := by
  have hid : u.id = id := Table.key_of_get h
  have hid' : u'.id = id := Table.key_of_get h'
  obtain ⟨v, hv, hsub, -⟩ := hgrows.users u (by rw [hid]; exact h)
  obtain ⟨v', hv', hsub', -⟩ := hgrows'.users u' (by rw [hid']; exact h')
  rw [hid] at hv
  rw [hid', hv] at hv'
  rw [← hsub, ← hsub', Option.some.inj hv']

/-- The subject that `userSubForId` returns for a row that was there before. -/
theorem userSubForId_of_grows {u} (h : s₀.users.get id = some u) (hgrows : s₀.Grows s₁)
    (hgrows' : s₁.Grows s) :
    ∃ u', s.users.get id = some u' ∧ s₁.userSubForId id = some u'.userSub := by
  have hid : u.id = id := Table.key_of_get h
  obtain ⟨u₁, hu₁, -, -⟩ := hgrows.users u (by rw [hid]; exact h)
  rw [hid] at hu₁
  have hid₁ : u₁.id = id := Table.key_of_get hu₁
  obtain ⟨u', hu', hsub, -⟩ := hgrows'.users u₁ (by rw [hid₁]; exact hu₁)
  rw [hid₁] at hu'
  refine ⟨u', hu', ?_⟩
  rw [Store.userSubForId, hu₁, Option.map_some, hsub]

variable {m : Mutation}

/-- A mutation makes one write. -/
theorem Explains.main (h : Explains s now s₀ [] m.exchanges ws) :
    ∃ w, ws = [w] ∧ Main s m w := by
  cases m with
  | createUser userSub userEmail groups before user =>
    obtain - | ⟨-, -, hread, h⟩ := h
    cases hread
    obtain - | ⟨-, -, hwrite, h⟩ := h
    cases h
    cases hwrite with
    | upsertUserLive hu hnew =>
      obtain ⟨-, hlive, hsub⟩ := Store.getUserBySub_some hu
      subst hnew
      exact ⟨_, rfl, .createUser hsub hlive⟩
    | upsertUserNew hu hnew =>
      subst hnew
      exact ⟨_, rfl, .createUser rfl rfl⟩
  | updateUser id userEmail groups before after =>
    obtain - | ⟨-, -, hread, h⟩ := h
    obtain ⟨hbefore, rfl⟩ := hread.getUserById_eq
    have hgrows := h.grows
    obtain - | ⟨-, -, hwrite, h⟩ := h
    cases h with | nil hlast => ?_
    cases hwrite with
    | @updateUser _ _ _ u _ hu hnew =>
      obtain ⟨hget, hlive⟩ := Store.getUser_some hu
      have hsub : before.userSub = u.userSub :=
        userSub_eq_of_grows (Store.getUser_some hbefore).1 hget hgrows hlast
      subst hnew
      exact ⟨_, rfl, .updateUser (Table.key_of_get hget :) hsub hlive⟩
  | deleteUser id before =>
    obtain - | ⟨-, -, hread, h⟩ := h
    obtain ⟨hbefore, rfl⟩ := hread.getUserById_eq
    have hgrows := h.grows
    obtain - | ⟨-, -, hwrite, h⟩ := h
    cases h with | nil hlast => ?_
    cases hwrite with
    | @softDeleteUser _ u hu =>
      obtain ⟨hget, hlive⟩ := Store.getUser_some hu
      have hget' := (Store.getUser_some hbefore).1
      exact ⟨_, rfl, .deleteUser (Table.key_of_get hget) (Table.key_of_get hget')
        (userSub_eq_of_grows hget' hget hgrows hlast)⟩
  | createDatabase server dbName dbType database =>
    obtain - | ⟨-, -, hwrite, h⟩ := h
    cases h
    cases hwrite with
    | createDatabase hnone hnew =>
      subst hnew
      exact ⟨_, rfl, .createDatabase rfl⟩
  | updateDatabase id server dbName dbType before after =>
    obtain - | ⟨-, -, hread, h⟩ := h
    obtain ⟨hbefore, rfl⟩ := hread.getDatabaseById_eq
    obtain - | ⟨-, -, hwrite, h⟩ := h
    cases h
    cases hwrite with
    | updateDatabase hd hnew _ =>
      obtain ⟨hget, hlive⟩ := Store.getDatabase_some hd
      have hget' := (Store.getDatabase_some hbefore).1
      subst hnew
      exact ⟨_, rfl, .updateDatabase (Table.key_of_get hget :) (Table.key_of_get hget')
        hlive⟩
  | deleteDatabase id before =>
    obtain - | ⟨-, -, hread, h⟩ := h
    obtain ⟨hbefore, rfl⟩ := hread.getDatabaseById_eq
    obtain - | ⟨-, -, hwrite, h⟩ := h
    cases h
    cases hwrite with
    | softDeleteDatabase hd =>
      have hget := (Store.getDatabase_some hd).1
      have hget' := (Store.getDatabase_some hbefore).1
      exact ⟨_, rfl, .deleteDatabase (Table.key_of_get hget) (Table.key_of_get hget')⟩
  | createGrant userId target action constraints grant userSub =>
    obtain - | ⟨-, -, hwrite, h⟩ := h
    obtain - | ⟨hgrows, -, hread, h⟩ := h
    obtain ⟨hsub, rfl⟩ := hread.userSubForId_eq
    cases h with | nil hlast => ?_
    cases hwrite with
    | createGrant hnone hnew =>
      obtain ⟨⟨u, hu⟩, -⟩ := Store.missingReference_none hnone
      subst hnew
      obtain ⟨u', hu', hsub'⟩ := userSubForId_of_grows hu hgrows hlast
      have heq : userSub = some u'.userSub := hsub.symm.trans hsub'
      subst heq
      exact ⟨_, rfl, .createGrant rfl hu'⟩
  | updateGrant id action constraints before after userSub =>
    obtain - | ⟨-, -, hread, h⟩ := h
    obtain ⟨hbefore, rfl⟩ := hread.getGrantById_eq
    obtain - | ⟨-, hs, hwrite, h⟩ := h
    obtain - | ⟨hgrows, -, hread', h⟩ := h
    obtain ⟨hsub, rfl⟩ := hread'.userSubForId_eq
    cases h with | nil hlast => ?_
    cases hwrite with
    | @updateGrant _ _ _ g _ hg hnew =>
      obtain ⟨hget, hlive⟩ := Store.getGrant_some hg
      have hget' := (Store.getGrant_some hbefore).1
      obtain ⟨u, hu⟩ := hs.grantUser g (Table.mem_of_get hget)
      subst hnew
      obtain ⟨u', hu', hsub'⟩ := userSubForId_of_grows hu hgrows hlast
      have heq : userSub = some u'.userSub := hsub.symm.trans hsub'
      subst heq
      exact ⟨_, rfl, .updateGrant (Table.key_of_get hget :) (Table.key_of_get hget')
        hlive hu'⟩
  | deleteGrant id before userSub =>
    obtain - | ⟨-, -, hread, h⟩ := h
    obtain ⟨hbefore, rfl⟩ := hread.getGrantById_eq
    obtain - | ⟨hgrows', hs, hwrite, h⟩ := h
    obtain - | ⟨hgrows, -, hread', h⟩ := h
    obtain ⟨hsub, rfl⟩ := hread'.userSubForId_eq
    cases h with | nil hlast => ?_
    cases hwrite with
    | @revokeGrant _ g hg =>
      have hget := (Store.getGrant_some hg).1
      have hget' := (Store.getGrant_some hbefore).1
      have hid := Table.key_of_get hget'
      -- the row read before is the row that is revoked, so they have one user
      obtain ⟨g', hg', huser, -⟩ := hgrows'.grants before (by rw [hid]; exact hget')
      rw [hid] at hg'
      have heq : g' = g := Option.some.inj (hg'.symm.trans hget)
      rw [heq] at huser
      obtain ⟨u, hu⟩ := hs.grantUser g (Table.mem_of_get hget)
      obtain ⟨u', hu', hsub'⟩ := userSubForId_of_grows hu hgrows hlast
      have hsub'' : userSub = some u'.userSub := by
        rw [← hsub, ← huser]
        exact hsub'
      subst hsub''
      exact ⟨_, rfl, .deleteGrant (Table.key_of_get hget) hid hu'⟩

/-- The subject of a user that a mutation writes is the one it is the owner of. -/
theorem Main.own {old} (h : Main s m (.user old new)) : m.own = some (new.userSub, new.id) := by
  cases h with
  | createUser hsub _ | updateUser _ hsub _ => simp [Mutation.own, hsub]
  | deleteUser hid hid' hsub => simp [Mutation.own, hsub, hid, hid']

/-! ## Whole mutations -/

inductive ActorWrites (m : Mutation) (actor : AdminActor) (actorId : Uuid) : List Write → Prop
  | own : m.IsOwn actor → ActorWrites m actor actorId []
  | upsert {old} {new : PermissionsUser} : ¬ m.IsOwn actor →
      new.id = actorId → new.userSub = actor.sub → new.userEmail = actor.email →
      new.groups = actor.groups → new.live = true → ActorWrites m actor actorId [.user old new]

theorem Explains.actor {actor} {ws₀}
    (h : Explains s now s₀ ws₀ (m.actorExchanges actor actorId) ws) :
    ActorWrites m actor actorId ws := by
  unfold Mutation.actorExchanges at h
  split_ifs at h with hown
  · cases h
    exact .own hown
  · obtain - | ⟨-, -, hwrite, h⟩ := h
    cases h
    cases hwrite with
    | upsertActorLive hu hnew =>
      obtain ⟨-, hlive, hsub⟩ := Store.getUserBySub_some hu
      subst hnew
      exact .upsert hown rfl hsub rfl rfl hlive
    | upsertActorNew hu hnew =>
      subst hnew
      exact .upsert hown rfl rfl rfl rfl rfl

theorem Explains.complete {actor} (h : Explains s now s₀ [] (m.log actor actorId) ws) :
    ∃ w wsActor, ws = w :: (wsActor ++ [.audit (m.auditRow actor actorId)]) ∧ Main s m w ∧
      ActorWrites m actor actorId wsActor := by
  unfold Mutation.log at h
  obtain ⟨s₁, wsMain, ws', rfl, hmain, hrest⟩ := h.split
  obtain ⟨s₂, wsActor, wsLog, rfl, hactor, hlog⟩ := hrest.split
  obtain ⟨w, rfl, hw⟩ := hmain.main
  obtain - | ⟨-, -, hwrite, hnil⟩ := hlog
  cases hnil
  cases hwrite
  exact ⟨w, wsActor, rfl, hw, hactor.actor⟩

/-! ## The next write fits -/

theorem Main.disjoint_actor {actor : AdminActor} {w : Write} {old} (hw : Main s m w)
    (hown : ¬ m.IsOwn actor) (hsub : new.userSub = actor.sub)
    (hfits : (Write.user old new).Fits (s.apply w)) :
    w.locks.Disjoint (Write.user old new).locks := by
  cases w with
  | user old' new' =>
    have hne : new'.userSub ≠ new.userSub := by
      intro heq
      refine hown ?_
      rw [Mutation.IsOwn, hw.own, Option.map_some, heq, hsub]
    have hid : new'.id ≠ new.id := by
      intro heq
      obtain ⟨hget, hold, -⟩ := hfits
      have holdu : old = some new' := by
        rw [← hget, ← heq]
        exact Table.get_put_self s.users new'
      exact hne (hold new' holdu).2.symm
    simp [hid.symm, hne.symm]
  | database old' new' => cases old' <;> simp
  | grant old' new' | audit row => simp

/-- Which statements may come next, with what is known of the log. -/
theorem MayRun.cases {actor : AdminActor} {subject log} (h : MayRun actor subject log st) :
    st.isRead = true ∨ ReadsOnly log ∨ (∃ row, st = .log row) ∨
      st = .upsertActor actor.sub actor.email actor.groups ∧
        ∃ m : Mutation, log = m.exchanges ∧ ¬ m.IsOwn actor := by
  cases st with
  | upsertUser | createDatabase | updateDatabase => exact .inr (.inl h.1)
  | updateUser | softDeleteUser | softDeleteDatabase | createGrant | updateGrant | revokeGrant =>
    exact .inr (.inl h)
  | upsertActor sub email groups =>
    obtain ⟨rfl, rfl, rfl, hm⟩ := h
    exact .inr (.inr (.inr ⟨rfl, hm⟩))
  | log row => exact .inr (.inr (.inl ⟨row, rfl⟩))
  | _ => exact .inl rfl

theorem wellFormed_applyAll (hs : s.WellFormed) (hfits : writes.FitsAll s ws) :
    (writes.applyAll s ws).WellFormed :=
  hfits.induction (P := Store.WellFormed) (fun _ _ hs hw => Store.apply_wellFormed hs hw) hs

/-- A transaction only lets the store grow. -/
theorem grows_applyAll (hfits : writes.FitsAll s ws) : s.Grows (writes.applyAll s ws) :=
  hfits.induction (P := fun s' => s.Grows s') (fun _ _ hs hw => hs.trans (Store.apply_grows hw))
    (Store.Grows.refl s)

/-- **Whatever a handler may run next, its writes fit the committed store.** -/
theorem Explains.fitsAll_append {actor subject log} {x : st.Resp} {fresh : Uuid} {ws'}
    (h : Explains s now s₀ [] log ws) (hs : s.WellFormed) (hfits : writes.FitsAll s ws)
    (hmay : MayRun actor subject log st) (hunused : (writes.applyAll s ws).Unused fresh)
    (hdoes : st.Does now fresh (writes.applyAll s ws) x ws') : writes.FitsAll s (ws ++ ws') := by
  have hview := hdoes.fits (wellFormed_applyAll hs hfits) hunused
  rcases hmay.cases with hread | hreads | ⟨row, rfl⟩ | ⟨rfl, m, rfl, hown⟩
  · rw [hdoes.of_read hread, List.append_nil]
    exact hfits
  · -- nothing is written yet, so the statement sees the committed store
    have hnil := h.readsOnly hreads
    subst hnil
    rcases hdoes.writes with rfl | ⟨w, rfl⟩
    · exact hfits
    · exact hfits.concat (hview w (List.mem_singleton_self w)) (by simp)
  · cases hdoes
    exact hfits.concat trivial fun w _ => by simp [writes]
  · -- the write of the mutation is there, of another user
    obtain ⟨w, rfl, hmain⟩ := h.main
    have hw : w.Fits s := hfits.fits w (List.mem_singleton_self w)
    have hupsert : ∃ old new, ws' = [.user old new] ∧ new.userSub = actor.sub := by
      cases hdoes with
      | upsertActorLive hu hnew =>
        exact ⟨_, _, rfl, by rw [hnew]; exact (Store.getUserBySub_some hu).2.2⟩
      | upsertActorNew hu hnew => exact ⟨_, _, rfl, by rw [hnew]⟩
    obtain ⟨old, new, rfl, hsub⟩ := hupsert
    have hnew : (Write.user old new).Fits (s.apply w) := hview _ (List.mem_singleton_self _)
    have hdisjoint := hmain.disjoint_actor hown hsub hnew
    exact hfits.concat (Write.user_fits_of_apply hw hdisjoint hnew)
      (List.forall_mem_singleton.mpr hdisjoint)

end

end DbMcpGateway.Admin
