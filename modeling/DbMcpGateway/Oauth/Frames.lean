import DbMcpGateway.Oauth.Effects

/-!
# What one request does

`serve_frame` says which parts of the shared state a request leaves alone. For each part
there is then one inversion of `serve`: what a request can do to it and what its reply says
about it.
-/

namespace DbMcpGateway.Oauth

open Async Machine

/-! ## Frames -/

/-- The parts of the shared state. -/
inductive Part
  | texts
  | ids
  | sessions
  | cache
  | jwts
  | flows
  | codes
  | refresh
  | refreshMap
  | clients
  deriving DecidableEq

@[simp] def AuthReq.parts : AuthReq → List Part
  | .randomToken | .newClientId | .newRequestId => [.texts]
  | .newSessionId => [.ids]
  | .insertSession _ | .revokeSession _ => [.sessions]
  | .cacheInsert _ _ | .cacheRemove _ => [.cache]
  | .jwtIssue _ _ _ => [.texts, .jwts]
  | .flowInsert _ _ _ _ | .flowTake _ | .flowGc => [.flows]
  | .codeInsert _ _ _ _ _ | .codeTake _ | .codeGc => [.codes]
  | .refreshUpsert _ | .refreshTake _ | .refreshPurge _ | .refreshGc => [.refresh]
  | .memoryStore _ _ | .memoryTake _ _ | .memoryPurge _ | .memoryGc _ => [.refreshMap]
  | .clientsGc | .clientUpsert _ _ _ | .clientTouch _ _ => [.clients]
  | .utcNow | .panic | .selectSession _ | .cacheGet _ _ | .jwtVerify _ | .refreshExists _
  | .refreshCount | .authorizeUrl _ _ _ | .exchangeAndVerify _ _ _ | .clientExists _
  | .clientCount => []

/-- The states agree but for some parts. -/
structure Frame (parts : List Part) (s s' : AuthState) : Prop where
  wall : s'.wall = s.wall
  mono : s'.mono = s.mono
  used : .texts ∉ parts → s'.used = s.used
  usedIds : .ids ∉ parts → s'.usedIds = s.usedIds
  sessions : .sessions ∉ parts → s'.sessions = s.sessions
  cache : .cache ∉ parts → s'.cache = s.cache
  jwts : .jwts ∉ parts → s'.jwts = s.jwts
  flows : .flows ∉ parts → s'.flows = s.flows
  codes : .codes ∉ parts → s'.codes = s.codes
  refresh : .refresh ∉ parts → s'.refresh = s.refresh
  refreshMap : .refreshMap ∉ parts → s'.refreshMap = s.refreshMap
  clients : .clients ∉ parts → s'.clients = s.clients

variable {cfg : SessionCacheConfig} {s s' : AuthState} {o : Choice} {r : AuthReq} {x : AuthResp r}

theorem Frame.refl (parts : List Part) (s : AuthState) : Frame parts s s :=
  ⟨rfl, rfl, fun _ => rfl, fun _ => rfl, fun _ => rfl, fun _ => rfl, fun _ => rfl, fun _ => rfl,
    fun _ => rfl, fun _ => rfl, fun _ => rfl, fun _ => rfl⟩

theorem insertSession_frame (s : AuthState) (row : Session) :
    Frame [.sessions] s (s.insertSession row).2 := by
  unfold AuthState.insertSession
  split_ifs <;> constructor <;> simp

theorem revokeSession_frame (s : AuthState) (id : SessionId) :
    Frame [.sessions] s (s.revokeSession id) := by
  unfold AuthState.revokeSession
  split
  · split_ifs <;> constructor <;> simp
  · exact .refl _ _

theorem serve_frame (h : serve cfg s o r = some (x, s')) : Frame r.parts s s' := by
  cases r with
  | panic => cases x
  | insertSession row =>
    have hs' : s' = (s.insertSession row).2 := (congrArg Prod.snd (Option.some.inj h)).symm
    rw [hs']
    exact insertSession_frame s row
  | revokeSession id =>
    cases h
    exact revokeSession_frame s id
  | randomToken | newClientId | newRequestId | newSessionId | authorizeUrl | exchangeAndVerify =>
    dsimp only [serve] at h
    split at h
    · first
      | split_ifs at h
        cases h
        constructor <;> simp [AuthState.draw]
      | cases h
        exact .refl _ _
    · cases h
  | jwtIssue =>
    dsimp only [serve] at h
    split at h
    · cases h
      exact .refl _ _
    · split_ifs at h
      cases h
      constructor <;> simp [AuthState.issueJwt]
    · cases h
  | cacheInsert id session =>
    obtain ⟨cache, -, hs'⟩ := Option.map_eq_some_iff.mp h
    cases hs'
    constructor <;> simp
  | _ =>
    cases h
    constructor <;> simp

theorem tick_eq (h : tick s o = some s') :
    ∃ wall mono, s.mono ≤ mono ∧ s' = { s with wall, mono } := by
  unfold tick at h
  split at h
  · split_ifs at h with hle
    exact ⟨_, _, hle, (Option.some.inj h).symm⟩
  · cases h

/-! ## Random values -/

/-- Texts that are in use stay so. -/
theorem serve_used (h : serve cfg s o r = some (x, s')) : s.used ⊆ s'.used := by
  by_cases hparts : Part.texts ∈ r.parts
  · cases r with
    | randomToken | newClientId | newRequestId =>
      dsimp only [serve] at h
      split at h
      · split_ifs at h
        cases h
        exact List.subset_cons_self _ _
      · cases h
    | jwtIssue =>
      dsimp only [serve] at h
      split at h
      · cases h
        exact List.Subset.refl _
      · split_ifs at h
        cases h
        exact List.subset_cons_self _ _
      · cases h
    | _ => simp at hparts
  · rw [(serve_frame h).used hparts]
    exact List.Subset.refl _

theorem serve_usedIds (h : serve cfg s o r = some (x, s')) : s.usedIds ⊆ s'.usedIds := by
  by_cases hparts : Part.ids ∈ r.parts
  · cases r with
    | newSessionId =>
      dsimp only [serve] at h
      split at h
      · split_ifs at h
        cases h
        exact List.subset_cons_self _ _
      · cases h
    | _ => simp at hparts
  · rw [(serve_frame h).usedIds hparts]
    exact List.Subset.refl _

theorem serve_newSessionId {id} (h : serve cfg s o .newSessionId = some (id, s')) :
    id ∉ s.usedIds ∧ s'.usedIds = id :: s.usedIds := by
  dsimp only [serve] at h
  split at h
  · split_ifs at h with hused
    cases h
    exact ⟨hused, rfl⟩
  · cases h

theorem presents_used {C α : Type} {cfg} {presents : C → Presented}
    {code : C → AuthProg α} {init as} {s : AuthPool C α}
    (h : run (service cfg presents code).step (Service.start init) as = some s) {i : ℕ}
    {e : Entry AuthReq AuthResp C α} (he : s.entries[i]? = some e) :
    (presents e.call).texts ⊆ s.shared.used ∧ (presents e.call).ids ⊆ s.shared.usedIds := by
  refine run_invariant (P := fun s : AuthPool C α => ∀ (i : ℕ) e, s.entries[i]? = some e →
    (presents e.call).texts ⊆ s.shared.used ∧ (presents e.call).ids ⊆ s.shared.usedIds)
    (C := fun _ _ => True) ?_ (meets_true _ as) h (by simp [Service.start]) i e he
  intro s a s' hs _ hstep i e' he'
  have hgrow : s.shared.used ⊆ s'.shared.used ∧ s.shared.usedIds ⊆ s'.shared.usedIds := by
    cases Service.step_moves hstep with
    | arrive => exact ⟨List.subset_append_right _ _, List.subset_append_right _ _⟩
    | serve _ hserve | late _ hserve => exact ⟨serve_used hserve, serve_usedIds hserve⟩
    | env henv =>
      obtain ⟨wall, mono, -, rfl⟩ := tick_eq henv
      exact ⟨List.Subset.refl _, List.Subset.refl _⟩
    | _ => exact ⟨List.Subset.refl _, List.Subset.refl _⟩
  cases hold : s.entries[i]? with
  | some e =>
    have hcall : e'.call = e.call := Service.step_call hstep hold he'
    rw [hcall]
    exact ⟨fun t ht => hgrow.1 ((hs i e hold).1 ht), fun t ht => hgrow.2 ((hs i e hold).2 ht)⟩
  | none =>
    obtain ⟨c, rfl, rfl⟩ := Service.step_new hstep hold he'
    cases hstep
    exact ⟨List.subset_append_left _ _, List.subset_append_left _ _⟩

/-! ## Sessions -/

theorem serve_sessions (h : serve cfg s o r = some (x, s')) :
    s'.sessions = s.sessions ∨
    (∃ row : Session, r = .insertSession row ∧ s.sessions.get row.id = none ∧
      s'.sessions = s.sessions.put row.stored) ∨
    ∃ id row, r = .revokeSession id ∧ s.sessions.get id = some row ∧
      s'.sessions = s.sessions.put { row with revokedAt := some (timestamptz s.wall) } := by
  by_cases hparts : Part.sessions ∈ r.parts
  · cases r with
    | insertSession row =>
      have hs' : s' = (s.insertSession row).2 := (congrArg Prod.snd (Option.some.inj h)).symm
      unfold AuthState.insertSession at hs'
      split_ifs at hs' with hnew
      · rw [Bool.and_eq_true, Option.isNone_iff_eq_none] at hnew
        exact .inr (.inl ⟨row, rfl, hnew.2, by rw [hs']⟩)
      · exact .inl (by rw [hs'])
    | revokeSession id =>
      cases h
      unfold AuthState.revokeSession
      split
      · rename_i row hrow
        split_ifs
        · exact .inr (.inr ⟨id, row, rfl, hrow, rfl⟩)
        · exact .inl rfl
      · exact .inl rfl
    | _ => simp at hparts
  · exact .inl ((serve_frame h).sessions hparts)

/-- After the UPDATE of `revoke` the row is revoked. -/
theorem revokeSession_revokedAt {id} {row : Session}
    (h : (s.revokeSession id).sessions.get id = some row) : row.revokedAt ≠ none := by
  unfold AuthState.revokeSession at h
  split at h
  · rename_i old hold
    obtain ⟨-, rfl⟩ := Table.get_eq_some.mp hold
    split_ifs at h with hnone
    · rw [Table.get_put, if_pos rfl] at h
      cases h
      exact Option.some_ne_none _
    · rw [hold] at h
      cases h
      rwa [Option.isNone_iff_eq_none] at hnone
  · rename_i hnone
    rw [hnone] at h
    cases h

theorem serve_cache (h : serve cfg s o r = some (x, s')) {e} (he : e ∈ s'.cache.rows) :
    e ∈ s.cache.rows ∨ ∃ id session, r = .cacheInsert id session ∧ e = ⟨id, session, s.mono⟩ := by
  by_cases hparts : Part.cache ∈ r.parts
  · cases r with
    | cacheInsert id session =>
      obtain ⟨cache, hinsert, hs'⟩ := Option.map_eq_some_iff.mp h
      cases hs'
      rcases cfg.mem_insert hinsert he with rfl | he
      · exact .inr ⟨id, session, rfl, rfl⟩
      · exact .inl he
    | cacheRemove id =>
      cases h
      exact .inl (Table.mem_remove.mp he).1
    | _ => simp at hparts
  · rw [(serve_frame h).cache hparts] at he
    exact .inl he

end DbMcpGateway.Oauth
