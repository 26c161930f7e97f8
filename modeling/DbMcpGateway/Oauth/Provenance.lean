import DbMcpGateway.Oauth.Frames

/-!
# What the stores give out

For any service over the shared state: which requests put something into a store, and that
a store shows nothing else. Random values are drawn once; codes and refresh tokens are taken
once.

Results:

* `texts_fresh`, `ids_fresh`: random values.
* `flows_passage`, `codes_passage`, `rows_passage`, `entries_passage`, `sessions_passage`,
  `cache_passage`, `jwts_passage`, `clients_passage`: what the stores show.
* `codes_slots`, `rows_slots`, `entries_slots`: what is taken is gone.
-/

namespace DbMcpGateway.Oauth

open Async Async.Service

variable {C α : Type} {cfg : SessionCacheConfig} {presents : C → Presented} {code : C → AuthProg α}
  {s s' : AuthState} {o : Choice} {r : AuthReq} {x : AuthResp r}

/-! ## Random values -/

/-- An executed request. -/
abbrev AuthDeed := Deed AuthReq AuthResp Stamp

/-- The request draws a text. -/
inductive Draws : (r : AuthReq) → AuthResp r → String → Prop
  | token {v} : Draws .randomToken v v
  | client {v} : Draws .newClientId v v
  | request {v} : Draws .newRequestId v v
  | jwt {id sub ttl v} : Draws (.jwtIssue id sub ttl) (some v) v

inductive DrawsId : (r : AuthReq) → AuthResp r → SessionId → Prop
  | mk {id} : DrawsId .newSessionId id id

theorem serve_draws {v : String} (h : serve cfg s o r = some (x, s')) (hv : Draws r x v) :
    v ∉ s.used ∧ v ∈ s'.used := by
  cases hv with
  | token | client | request =>
    dsimp only [serve] at h
    split at h
    · split_ifs at h with hused
      cases h
      exact ⟨hused, List.mem_cons_self⟩
    · cases h
  | jwt =>
    dsimp only [serve] at h
    split at h
    · cases h
    · split_ifs at h with hused
      cases h
      exact ⟨hused, List.mem_cons_self⟩
    · cases h

theorem texts_fresh : (service cfg presents code).Fresh (fun s v => v ∈ s.used) Draws where
  new h hv := serve_draws h hv
  keep h hv := serve_used h hv
  accept hv := List.mem_append_right _ hv
  env henv hv := by
    obtain ⟨wall, mono, -, rfl⟩ := tick_eq henv
    exact hv

theorem ids_fresh : (service cfg presents code).Fresh (fun s id => id ∈ s.usedIds) DrawsId where
  new h hid := by
    cases hid
    obtain ⟨hnew, hused⟩ := @serve_newSessionId cfg _ _ _ _ h
    exact ⟨hnew, by rw [hused]; exact List.mem_cons_self⟩
  keep h hid := serve_usedIds h hid
  accept hid := List.mem_append_right _ hid
  env henv hid := by
    obtain ⟨wall, mono, -, rfl⟩ := tick_eq henv
    exact hid

/-! ## Pending logins -/

inductive PutsFlow : Stamp → (r : AuthReq) → AuthResp r → String × PendingFlow → Prop
  | mk {t : Stamp} {state nonce idpVerifier bridge} :
      PutsFlow t (.flowInsert state nonce idpVerifier bridge) (.ok ())
        (state, ⟨nonce, idpVerifier, bridge, t.mono + flowTtl⟩)

/-- The request takes a pending login. -/
inductive TakesFlow : Stamp → (r : AuthReq) → AuthResp r → String × PendingFlow → Prop
  | mk {t : Stamp} {state} {flow : PendingFlow} : t.mono < flow.expiresAt →
      TakesFlow t (.flowTake state) (some flow) (state, flow)

/-- The reply has a pending login. -/
inductive HitsFlow : (r : AuthReq) → AuthResp r → String → PendingFlow → Prop
  | mk {state flow} : HitsFlow (.flowTake state) (some flow) state flow

variable {t : Stamp} {hash : Digest} {row : RefreshRow}

theorem PutsFlow.inv {state : String} {flow : PendingFlow} (h : PutsFlow t r x (state, flow)) :
    (⟨r, x⟩ : Exchange AuthReq AuthResp) =
      ⟨.flowInsert state flow.nonce flow.idpVerifier flow.bridge, .ok ()⟩ ∧
      flow.expiresAt = t.mono + flowTtl := by
  cases h
  exact ⟨rfl, rfl⟩

/-- The pending login that was taken. -/
theorem TakesFlow.of_hits {e} {state : String} {flow : PendingFlow}
    (h : TakesFlow t r x e) (hhits : HitsFlow r x state flow) :
    e = (state, flow) ∧ t.mono < flow.expiresAt := by
  cases h with
  | mk hlive =>
    cases hhits
    exact ⟨rfl, hlive⟩

theorem serve_flows {e} (h : serve cfg s o r = some (x, s'))
    (he : e ∈ s'.flows.rows) : e ∈ s.flows.rows ∨ PutsFlow ⟨s.wall, s.mono⟩ r x e := by
  by_cases hparts : Part.flows ∈ r.parts
  · cases r with
    | flowInsert state nonce idpVerifier bridge =>
      cases h
      rcases PendingFlows.mem_insertFlow he with he | ⟨hok, rfl⟩
      · exact .inl he
      · rw [hok]
        exact .inr .mk
    | flowTake state =>
      cases h
      exact .inl (PendingFlows.mem_take he)
    | flowGc =>
      cases h
      exact .inl (Table.mem_retain.mp he).1
    | _ => simp at hparts
  · rw [(serve_frame h).flows hparts] at he
    exact .inl he

theorem flows_passage : (service cfg presents code).Passage (fun s e => e ∈ s.flows.rows) PutsFlow
    (fun r x => ∃ state flow, HitsFlow r x state flow) TakesFlow where
  put h he := serve_flows h he
  hit h hhit := by
    obtain ⟨state, flow, ⟨⟩⟩ := hhit
    have htake := congrArg Prod.fst (Option.some.inj h)
    obtain ⟨hmem, hlive⟩ := PendingFlows.take_some htake
    exact ⟨_, hmem, .mk hlive⟩
  accept he := he
  env henv he := by
    obtain ⟨wall, mono, -, rfl⟩ := tick_eq henv
    exact he

/-! ## Authorization codes -/

/-- The request stores a code. -/
inductive PutsCode : Stamp → (r : AuthReq) → AuthResp r → Digest × AuthCode → Prop
  | mk {t : Stamp} {hash identity codeChallenge redirectUri clientId} :
      PutsCode t (.codeInsert hash identity codeChallenge redirectUri clientId) (.ok ())
        (hash, ⟨identity, codeChallenge, redirectUri, clientId, t.mono + codeTtl⟩)

inductive TakesCode : Stamp → (r : AuthReq) → AuthResp r → Digest × AuthCode → Prop
  | mk {t : Stamp} {hash} {entry : AuthCode} : t.mono < entry.expiresAt →
      TakesCode t (.codeTake hash) (some entry) (hash, entry)

inductive HitsCode : (r : AuthReq) → AuthResp r → Digest → AuthCode → Prop
  | mk {hash : Digest} {entry : AuthCode} : HitsCode (.codeTake hash) (some entry) hash entry

theorem PutsCode.inv {entry : AuthCode} (h : PutsCode t r x (hash, entry)) :
    (⟨r, x⟩ : Exchange AuthReq AuthResp) = ⟨.codeInsert hash entry.identity entry.codeChallenge
      entry.redirectUri entry.clientId, .ok ()⟩ ∧ entry.expiresAt = t.mono + codeTtl := by
  cases h
  exact ⟨rfl, rfl⟩

theorem TakesCode.of_hits {e : Digest × AuthCode} {entry : AuthCode} (h : TakesCode t r x e)
    (hhits : HitsCode r x hash entry) :
    e = (hash, entry) ∧ t.mono < entry.expiresAt := by
  cases h with
  | mk hlive =>
    cases hhits
    exact ⟨rfl, hlive⟩

theorem serve_codes {e} (h : serve cfg s o r = some (x, s'))
    (he : e ∈ s'.codes.rows) : e ∈ s.codes.rows ∨ PutsCode ⟨s.wall, s.mono⟩ r x e := by
  by_cases hparts : Part.codes ∈ r.parts
  · cases r with
    | codeInsert hash identity codeChallenge redirectUri clientId =>
      cases h
      rcases AuthCodes.mem_insert he with he | ⟨hok, rfl⟩
      · exact .inl he
      · rw [hok]
        exact .inr .mk
    | codeTake hash =>
      cases h
      exact .inl (AuthCodes.mem_take he)
    | codeGc =>
      cases h
      exact .inl (Table.mem_retain.mp he).1
    | _ => simp at hparts
  · rw [(serve_frame h).codes hparts] at he
    exact .inl he

theorem serve_codeTake {hash : Digest} {entry : AuthCode}
    (h : serve cfg s o (.codeTake hash) = some (some entry, s')) :
    ((hash, entry) ∈ s.codes.rows ∧ s.mono < entry.expiresAt) ∧ s'.codes.get hash = none := by
  obtain ⟨htake, rfl⟩ := Prod.mk.inj (Option.some.inj h)
  exact AuthCodes.take_some htake

theorem codes_passage : (service cfg presents code).Passage (fun s e => e ∈ s.codes.rows) PutsCode
    (fun r x => ∃ hash entry, HitsCode r x hash entry) TakesCode where
  put h he := serve_codes h he
  hit := by
    intro s o r x s' h hhit
    obtain ⟨hash, entry, ⟨⟩⟩ := hhit
    obtain ⟨⟨hmem, hlive⟩, -⟩ := @serve_codeTake cfg s s' o _ _ h
    exact ⟨_, hmem, .mk hlive⟩
  accept he := he
  env henv he := by
    obtain ⟨wall, mono, -, rfl⟩ := tick_eq henv
    exact he

theorem codes_slots : (service cfg presents code).Slots
    (fun s hash => ∃ entry, (hash, entry) ∈ s.codes.rows)
    (fun r x hash => ∃ t entry, PutsCode t r x (hash, entry))
    (fun r x hash => ∃ entry, HitsCode r x hash entry) where
  put h hpresent := by
    obtain ⟨entry, hentry⟩ := hpresent
    exact (serve_codes h hentry).imp (fun he => ⟨entry, he⟩) fun hput => ⟨_, entry, hput⟩
  take := by
    rintro s o r x s' k h ⟨entry, ⟨⟩⟩
    obtain ⟨⟨hmem, -⟩, hgone⟩ := @serve_codeTake cfg s s' o _ _ h
    exact ⟨⟨_, hmem⟩, fun ⟨entry, hentry⟩ => Table.get_eq_none.mp hgone _ hentry rfl⟩
  accept hpresent := hpresent
  env henv hpresent := by
    obtain ⟨wall, mono, -, rfl⟩ := tick_eq henv
    exact hpresent

/-! ## Refresh tokens -/

inductive PutsRow : (r : AuthReq) → AuthResp r → RefreshRow → Prop
  | mk {row : RefreshRow} : PutsRow (.refreshUpsert row) (.ok ()) row

/-- The request takes a refresh token. -/
inductive TakesRow : Stamp → (r : AuthReq) → AuthResp r → RefreshRow → Prop
  | mk {t : Stamp} {row : RefreshRow} : timestamptz t.wall < row.expiresAt →
      TakesRow t (.refreshTake row.tokenHash) (.ok (some row.token)) row

inductive HitsRow : (r : AuthReq) → AuthResp r → Digest → RefreshToken → Prop
  | mk {hash : Digest} {token : RefreshToken} :
      HitsRow (.refreshTake hash) (.ok (some token)) hash token

theorem PutsRow.req_eq (h : PutsRow r x row) : r = .refreshUpsert row := by
  cases h
  rfl

theorem TakesRow.of_hits {token : RefreshToken} (h : TakesRow t r x row)
    (hhits : HitsRow r x hash token) :
    row.tokenHash = hash ∧ row.token = token ∧ timestamptz t.wall < row.expiresAt := by
  cases h with
  | mk hlive =>
    cases hhits
    exact ⟨rfl, rfl, hlive⟩

theorem serve_rows (h : serve cfg s o r = some (x, s')) (hrow : row ∈ s'.refresh.rows) :
    row ∈ s.refresh.rows ∨ ∃ put : RefreshRow, PutsRow r x put ∧ row = put.stored := by
  by_cases hparts : Part.refresh ∈ r.parts
  · cases r with
    | refreshUpsert put =>
      cases h
      rcases RefreshRows.mem_upsert hrow with hrow | ⟨hok, rfl⟩
      · exact .inl hrow
      · rw [hok]
        exact .inr ⟨put, .mk, rfl⟩
    | refreshTake hash =>
      cases h
      exact .inl (RefreshRows.mem_take hrow)
    | refreshPurge sub | refreshGc =>
      cases h
      exact .inl (Table.mem_retain.mp hrow).1
    | _ => simp at hparts
  · rw [(serve_frame h).refresh hparts] at hrow
    exact .inl hrow

theorem serve_refreshTake {hash : Digest} {token}
    (h : serve cfg s o (.refreshTake hash) = some (.ok (some token), s')) :
    (∃ row ∈ s.refresh.rows, row.tokenHash = hash ∧ row.token = token ∧
      timestamptz s.wall < row.expiresAt) ∧ s'.refresh.get hash = none := by
  obtain ⟨htake, rfl⟩ := Prod.mk.inj (Option.some.inj h)
  exact RefreshRows.take_some (Except.ok.inj htake)

theorem rows_passage : (service cfg presents code).Passage (fun s row => row ∈ s.refresh.rows)
    (fun _ r x row => ∃ put : RefreshRow, PutsRow r x put ∧ row = put.stored)
    (fun r x => ∃ hash token, HitsRow r x hash token) TakesRow where
  put h hrow := serve_rows h hrow
  hit := by
    intro s o r x s' h hhit
    obtain ⟨hash, token, ⟨⟩⟩ := hhit
    obtain ⟨⟨row, hmem, rfl, rfl, hlive⟩, -⟩ := @serve_refreshTake cfg s s' o _ _ h
    exact ⟨row, hmem, .mk hlive⟩
  accept hrow := hrow
  env henv hrow := by
    obtain ⟨wall, mono, -, rfl⟩ := tick_eq henv
    exact hrow

theorem rows_slots : (service cfg presents code).Slots
    (fun s hash => ∃ row ∈ s.refresh.rows, row.tokenHash = hash)
    (fun r x hash => ∃ put : RefreshRow, PutsRow r x put ∧ put.tokenHash = hash)
    (fun r x hash => ∃ token, HitsRow r x hash token) where
  put h hpresent := by
    obtain ⟨row, hrow, rfl⟩ := hpresent
    rcases serve_rows h hrow with hrow | ⟨put, hput, rfl⟩
    · exact .inl ⟨row, hrow, rfl⟩
    · exact .inr ⟨put, hput, rfl⟩
  take := by
    rintro s o r x s' k h ⟨token, ⟨⟩⟩
    obtain ⟨⟨row, hmem, rfl, -, -⟩, hgone⟩ := @serve_refreshTake cfg s s' o _ _ h
    exact ⟨⟨row, hmem, rfl⟩, fun ⟨_, hrow', hhash⟩ => Table.get_eq_none.mp hgone _ hrow' hhash⟩
  accept hpresent := hpresent
  env henv hpresent := by
    obtain ⟨wall, mono, -, rfl⟩ := tick_eq henv
    exact hpresent

inductive TakesEntry : Stamp → (r : AuthReq) → AuthResp r → Digest × RefreshToken → Prop
  | mk {t : Stamp} {ttl hash} {token : RefreshToken} :
      chainExpired token.issuedAt t.wall ttl = false →
      TakesEntry t (.memoryTake ttl hash) (some token) (hash, token)

/-- The request stores a refresh token in the map. -/
inductive PutsEntry : (r : AuthReq) → AuthResp r → Digest × RefreshToken → Prop
  | mk {hash : Digest} {token : RefreshToken} :
      PutsEntry (.memoryStore hash token) (.ok ()) (hash, token)

theorem serve_entries {e : Digest × RefreshToken} (h : serve cfg s o r = some (x, s'))
    (he : e ∈ s'.refreshMap.rows) : e ∈ s.refreshMap.rows ∨ PutsEntry r x e := by
  by_cases hparts : Part.refreshMap ∈ r.parts
  · cases r with
    | memoryStore hash token =>
      cases h
      rcases RefreshMap.mem_store he with he | ⟨hok, rfl⟩
      · exact .inl he
      · rw [hok]
        exact .inr .mk
    | memoryTake ttl hash =>
      cases h
      exact .inl (RefreshMap.mem_take he)
    | memoryPurge sub | memoryGc ttl =>
      cases h
      exact .inl (Table.mem_retain.mp he).1
    | _ => simp at hparts
  · rw [(serve_frame h).refreshMap hparts] at he
    exact .inl he

theorem entries_passage : (service cfg presents code).Passage
    (fun s e => e ∈ s.refreshMap.rows) (fun _ => PutsEntry)
    (fun r x => ∃ ttl hash token,
      (⟨r, x⟩ : Exchange AuthReq AuthResp) = ⟨.memoryTake ttl hash, some token⟩) TakesEntry where
  put h he := serve_entries h he
  hit := by
    rintro s o r x s' h ⟨ttl, hash, token, ⟨⟩⟩
    obtain ⟨hmem, hlive⟩ := RefreshMap.take_some (congrArg Prod.fst (Option.some.inj h))
    exact ⟨_, hmem, .mk hlive⟩
  accept he := he
  env henv he := by
    obtain ⟨wall, mono, -, rfl⟩ := tick_eq henv
    exact he

theorem entries_slots : (service cfg presents code).Slots
    (fun s hash => ∃ token, (hash, token) ∈ s.refreshMap.rows)
    (fun r x hash => ∃ token, PutsEntry r x (hash, token))
    (fun r x hash => ∃ ttl token,
      (⟨r, x⟩ : Exchange AuthReq AuthResp) = ⟨.memoryTake ttl hash, some token⟩) where
  put h hpresent := by
    obtain ⟨token, he⟩ := hpresent
    exact (serve_entries h he).imp (fun he => ⟨token, he⟩) fun hput => ⟨token, hput⟩
  take := by
    rintro s o r x s' hash h ⟨ttl, token, ⟨⟩⟩
    obtain ⟨htake, rfl⟩ := Prod.mk.inj (Option.some.inj h)
    obtain ⟨hmem, -⟩ := RefreshMap.take_some htake
    exact ⟨⟨token, hmem⟩, fun ⟨_, hmem'⟩ => Table.get_eq_none.mp RefreshMap.get_take _ hmem' rfl⟩
  accept hpresent := hpresent
  env henv hpresent := by
    obtain ⟨wall, mono, -, rfl⟩ := tick_eq henv
    exact hpresent

inductive StoresToken : (r : AuthReq) → AuthResp r → Digest → RefreshToken → Prop
  | row {row : RefreshRow} : StoresToken (.refreshUpsert row) (.ok ()) row.tokenHash row.token
  | entry {hash : Digest} {token : RefreshToken} :
      StoresToken (.memoryStore hash token) (.ok ()) hash token

theorem StoresToken.of_row {r : AuthReq} {x : AuthResp r} {row : RefreshRow}
    (h : PutsRow r x row) : StoresToken r x row.tokenHash row.token := by
  cases h
  exact .row

theorem StoresToken.of_entry {r : AuthReq} {x : AuthResp r} {e : Digest × RefreshToken}
    (h : PutsEntry r x e) : StoresToken r x e.1 e.2 := by
  cases h
  exact .entry

/-! ## Sessions -/

inductive PutsSession : (r : AuthReq) → AuthResp r → Session → Prop
  | mk {row : Session} : PutsSession (.insertSession row) (.ok ()) row

/-- The reply has a row of the sessions. -/
inductive ShowsSession : (r : AuthReq) → AuthResp r → Session → Prop
  | mk {row : Session} : ShowsSession (.selectSession row.id) (.ok (some row)) row.core

theorem PutsSession.req_eq {row : Session} (h : PutsSession r x row) : r = .insertSession row := by
  cases h
  rfl

/-- A row was there, but for its revocation, or is inserted. -/
theorem serve_session_rows {row : Session} (h : serve cfg s o r = some (x, s'))
    (hrow : row ∈ s'.sessions.rows) : (∃ old ∈ s.sessions.rows, old.core = row.core) ∨
      ∃ put, PutsSession r x put ∧ row.core = put.stored.core := by
  rcases serve_sessions h with heq | ⟨put, rfl, -, hput⟩ | ⟨id, old, rfl, hold, hput⟩
  · rw [heq] at hrow
    exact .inl ⟨row, hrow, rfl⟩
  · have hserve := Option.some.inj h
    unfold AuthState.insertSession at hserve
    split_ifs at hserve
    · cases hserve
      rcases Table.mem_put.mp hrow with rfl | ⟨hrow, -⟩
      · exact .inr ⟨put, .mk, rfl⟩
      · exact .inl ⟨row, hrow, rfl⟩
    · cases hserve
      exact .inl ⟨row, hrow, rfl⟩
  · rw [hput] at hrow
    rcases Table.mem_put.mp hrow with rfl | ⟨hrow, -⟩
    · exact .inl ⟨old, Table.mem_of_get hold, rfl⟩
    · exact .inl ⟨row, hrow, rfl⟩

theorem sessions_passage : (service cfg presents code).Passage
    (fun s core => ∃ row ∈ s.sessions.rows, row.core = core)
    (fun _ r x core => ∃ put, PutsSession r x put ∧ core = put.stored.core)
    (fun r x => ∃ id row,
      (⟨r, x⟩ : Exchange AuthReq AuthResp) = ⟨.selectSession id, .ok (some row)⟩)
    (fun _ => ShowsSession) where
  put h hcore := by
    obtain ⟨row, hrow, rfl⟩ := hcore
    exact serve_session_rows h hrow
  hit := by
    rintro s o r x s' h ⟨id, row, ⟨⟩⟩
    have hget : s.sessions.get id = some row :=
      Except.ok.inj (congrArg Prod.fst (Option.some.inj h))
    obtain ⟨hmem, rfl⟩ := Table.get_eq_some.mp hget
    exact ⟨_, ⟨row, hmem, rfl⟩, .mk⟩
  accept hcore := hcore
  env henv hcore := by
    obtain ⟨wall, mono, -, rfl⟩ := tick_eq henv
    exact hcore

inductive PutsCached : (r : AuthReq) → AuthResp r → SessionId × Session → Prop
  | mk {id session} : PutsCached (.cacheInsert id session) () (id, session)

theorem PutsCached.req_eq {e} (h : PutsCached r x e) : r = .cacheInsert e.1 e.2 := by
  cases h
  rfl

/-- The reply has an active session of the cache. -/
inductive ShowsCached : (r : AuthReq) → AuthResp r → SessionId × Session → Prop
  | mk {id now} {session : Session} : session.isActive now = true →
      ShowsCached (.cacheGet id now) (some session) (id, session)

theorem cache_passage : (service cfg presents code).Passage
    (fun s e => ∃ cachedAt, ⟨e.1, e.2, cachedAt⟩ ∈ s.cache.rows) (fun _ => PutsCached)
    (fun r x => ∃ id now session,
      (⟨r, x⟩ : Exchange AuthReq AuthResp) = ⟨.cacheGet id now, some session⟩)
    (fun _ => ShowsCached) where
  put h he := by
    obtain ⟨cachedAt, he⟩ := he
    rcases serve_cache h he with he | ⟨id, session, rfl, heq⟩
    · exact .inl ⟨cachedAt, he⟩
    · cases heq
      exact .inr .mk
  hit := by
    rintro s o r x s' h ⟨id, now, session, ⟨⟩⟩
    have hget := congrArg Prod.fst (Option.some.inj h)
    obtain ⟨hmem, hactive⟩ := cfg.get_eq_some hget
    exact ⟨(id, session), hmem, .mk hactive⟩
  accept he := he
  env henv he := by
    obtain ⟨wall, mono, -, rfl⟩ := tick_eq henv
    exact he

/-! ## Session JWTs -/

inductive PutsJwt : Stamp → (r : AuthReq) → AuthResp r → IssuedJwt → Prop
  | mk {t : Stamp} {id sub ttl token} : PutsJwt t (.jwtIssue id sub ttl) (some token)
        ⟨token, sub, id, unixNow t.wall, unixNow t.wall + ttl⟩

/-- The reply has the claims of a JWT. -/
inductive ShowsJwt : (r : AuthReq) → AuthResp r → IssuedJwt → Prop
  | mk {token claims} : ShowsJwt (.jwtVerify token) (some claims) ⟨token, claims⟩

theorem serve_jwts {jwt} (h : serve cfg s o r = some (x, s')) (hjwt : jwt ∈ s'.jwts) :
    jwt ∈ s.jwts ∨ PutsJwt ⟨s.wall, s.mono⟩ r x jwt := by
  by_cases hparts : Part.jwts ∈ r.parts
  · cases r with
    | jwtIssue id sub ttl =>
      dsimp only [serve] at h
      split at h
      · cases h
        exact .inl hjwt
      · split_ifs at h
        cases h
        rcases Indexed.mem_concat_cases hjwt with rfl | hjwt
        · exact .inr .mk
        · exact .inl hjwt
      · cases h
    | _ => simp at hparts
  · rw [(serve_frame h).jwts hparts] at hjwt
    exact .inl hjwt

theorem verifyJwt_eq_some {token : String} {claims}
    (h : s.verifyJwt token = some claims) : ⟨token, claims⟩ ∈ s.jwts := by
  unfold AuthState.verifyJwt at h
  split at h
  · rename_i jwt hfind
    split_ifs at h
    cases h
    have htoken : jwt.token = token := by simpa using List.find?_some hfind
    rw [← htoken]
    exact List.mem_of_find?_eq_some hfind
  · cases h

theorem jwts_passage : (service cfg presents code).Passage (fun s jwt => jwt ∈ s.jwts) PutsJwt
    (fun r x => ∃ jwt, ShowsJwt r x jwt) (fun _ => ShowsJwt) where
  put h hjwt := serve_jwts h hjwt
  hit := by
    rintro s o r x s' h ⟨jwt, ⟨⟩⟩
    have hverify := congrArg Prod.fst (Option.some.inj h)
    exact ⟨_, verifyJwt_eq_some hverify, .mk⟩
  accept hjwt := hjwt
  env henv hjwt := by
    obtain ⟨wall, mono, -, rfl⟩ := tick_eq henv
    exact hjwt

/-! ## Registered clients -/

/-- The request stores the redirect URIs of a client. -/
inductive PutsClient : (r : AuthReq) → AuthResp r → String → List String → Prop
  | mk {clientId uris expiresAt} :
      PutsClient (.clientUpsert clientId uris expiresAt) (.ok ()) clientId uris

theorem PutsClient.inv {clientId : String} {uris} (h : PutsClient r x clientId uris) :
    ∃ expiresAt, (⟨r, x⟩ : Exchange AuthReq AuthResp) =
      ⟨.clientUpsert clientId uris expiresAt, .ok ()⟩ := by
  cases h
  exact ⟨_, rfl⟩

inductive HitsClient : (r : AuthReq) → AuthResp r → String → List String → Prop
  | mk {clientId uris expiresAt} :
      HitsClient (.clientTouch clientId expiresAt) (.ok (some uris)) clientId uris

/-- The client is registered with the redirect URIs. -/
def HasClient (s : AuthState) (clientId : String) (uris : List String) : Prop :=
  ∃ row ∈ s.clients.rows, row.clientId = clientId ∧ row.redirectUris = uris

theorem serve_clients {clientId : String} {uris}
    (h : serve cfg s o r = some (x, s')) (hclient : HasClient s' clientId uris) :
    HasClient s clientId uris ∨ PutsClient r x clientId uris := by
  obtain ⟨row, hrow, rfl, rfl⟩ := hclient
  by_cases hparts : Part.clients ∈ r.parts
  · cases r with
    | clientsGc =>
      cases h
      exact .inl ⟨row, (Table.mem_retain.mp hrow).1, rfl, rfl⟩
    | clientUpsert clientId uris expiresAt =>
      cases h
      rcases ClientRows.mem_upsert hrow with hrow | ⟨hok, rfl, rfl⟩
      · exact .inl ⟨row, hrow, rfl, rfl⟩
      · rw [hok]
        exact .inr .mk
    | clientTouch clientId expiresAt =>
      cases h
      exact .inl (ClientRows.mem_touch hrow)
    | _ => simp at hparts
  · rw [(serve_frame h).clients hparts] at hrow
    exact .inl ⟨row, hrow, rfl, rfl⟩

theorem clients_passage : (service cfg presents code).Passage
    (fun s (client : String × List String) => HasClient s client.1 client.2)
    (fun _ r x client => PutsClient r x client.1 client.2)
    (fun r x => ∃ clientId uris, HitsClient r x clientId uris)
    (fun _ r x client => HitsClient r x client.1 client.2) where
  put h hclient := serve_clients h hclient
  hit := by
    rintro s o r x s' h ⟨clientId, uris, ⟨⟩⟩
    have htouch := congrArg Prod.fst (Option.some.inj h)
    obtain ⟨row, hrow, rfl, rfl, -⟩ := ClientRows.touch_some htouch
    exact ⟨(row.clientId, row.redirectUris), ⟨row, hrow, rfl, rfl⟩, .mk⟩
  accept hclient := hclient
  env henv hclient := by
    obtain ⟨wall, mono, -, rfl⟩ := tick_eq henv
    exact hclient

end DbMcpGateway.Oauth
