import DbMcpGateway.Oauth.Endpoints

/-!
# The paths of the handlers

What a call has exchanged when it makes a request. The proofs about the gateway use these
and not the handlers.

Results:

* `HttpCall.kind_mem`: the requests that a call makes.
* `issues_token`, `yields_token`: a `/token` request redeems a credential (`Grants`) and then
  issues tokens for the identity it got.
* `issues_issueToken`, `yields_issueToken`: what it has exchanged on the way.
* `issues_callback`: a callback takes its flow and verifies the login, and then stores a code or
  creates a session.
* `issues_authorize`, `issues_startLogin`: `/authorize` resolves the redirect URI and then begins a
  login.
-/

namespace DbMcpGateway.Oauth

open Async Async.Prog SessionStore

variable {app : AppState} {auth : AuthFacade} {es : AuthTrail} {r : AuthReq}

/-! ## Requests of the handlers -/

inductive Kind
  | plain
  | draw
  | drawId
  | insertSession
  | selectSession
  | revokeSession
  | cacheInsert
  | cacheRemove
  | jwtIssue
  | jwtVerify
  | flowInsert
  | flowTake
  | codeInsert
  | codeTake
  | gc
  | refreshRead
  | refreshUpsert
  | refreshTake
  | refreshPurge
  | memoryStore
  | memoryTake
  | memoryPurge
  | idp
  | clientRead
  | clientGc
  | clientUpsert
  | clientTouch
  deriving DecidableEq

def AuthReq.kind : AuthReq → Kind
  | .utcNow | .panic | .cacheGet _ _ => .plain
  | .randomToken | .newClientId | .newRequestId => .draw
  | .newSessionId => .drawId
  | .insertSession _ => .insertSession
  | .selectSession _ => .selectSession
  | .revokeSession _ => .revokeSession
  | .cacheInsert _ _ => .cacheInsert
  | .cacheRemove _ => .cacheRemove
  | .jwtIssue _ _ _ => .jwtIssue
  | .jwtVerify _ => .jwtVerify
  | .flowInsert _ _ _ _ => .flowInsert
  | .flowTake _ => .flowTake
  | .codeInsert _ _ _ _ _ => .codeInsert
  | .codeTake _ => .codeTake
  | .flowGc | .codeGc | .refreshGc | .memoryGc _ => .gc
  | .refreshExists _ | .refreshCount => .refreshRead
  | .refreshUpsert _ => .refreshUpsert
  | .refreshTake _ => .refreshTake
  | .refreshPurge _ => .refreshPurge
  | .memoryStore _ _ => .memoryStore
  | .memoryTake _ _ => .memoryTake
  | .memoryPurge _ => .memoryPurge
  | .authorizeUrl _ _ _ | .exchangeAndVerify _ _ _ => .idp
  | .clientExists _ | .clientCount => .clientRead
  | .clientsGc => .clientGc
  | .clientUpsert _ _ _ => .clientUpsert
  | .clientTouch _ _ => .clientTouch

def OfKind (kinds : List Kind) (r : AuthReq) : Prop := r.kind ∈ kinds

attribute [local simp] AuthReq.kind OfKind

instance (kinds : List Kind) (r : AuthReq) : Decidable (OfKind kinds r) :=
  inferInstanceAs (Decidable (r.kind ∈ kinds))

/-- What the creation of a session asks. -/
def createKinds : List Kind := [.plain, .drawId, .insertSession, .cacheInsert]

/-- What `bearer_auth` asks. -/
def bearerKinds : List Kind := [.plain, .drawId, .jwtVerify, .selectSession, .cacheInsert, .cacheRemove]

/-- What `/auth/callback` asks. -/
def callbackKinds : List Kind := createKinds ++ [.flowTake, .idp, .draw, .codeInsert, .jwtIssue]

/-- What `/token` asks. -/
def tokenKinds : List Kind :=
  createKinds ++ [.codeTake, .refreshTake, .memoryTake, .jwtIssue, .draw, .refreshRead,
    .refreshUpsert, .memoryStore]

/-- What `/revoke` asks. -/
def revokeKinds : List Kind :=
  [.plain, .refreshTake, .memoryTake, .jwtVerify, .revokeSession, .cacheRemove]

/-- What `/auth/logout` asks. -/
def logoutKinds : List Kind := bearerKinds ++ [.revokeSession, .refreshPurge, .memoryPurge]

/-- What the admin routes ask. -/
def adminKinds : List Kind := bearerKinds ++ [.draw]

def HttpCall.kinds : HttpCall → List Kind
  | .login => [.draw, .idp, .flowInsert]
  | .callback _ _ => callbackKinds
  | .authorize _ =>
    [.plain, .clientTouch, .clientGc, .clientRead, .clientUpsert, .draw, .idp, .flowInsert]
  | .register _ => [.plain, .draw, .clientGc, .clientRead, .clientUpsert]
  | .token _ => tokenKinds
  | .revoke _ => revokeKinds
  | .logout _ => logoutKinds
  | .mcp _ => bearerKinds
  | .admin _ _ => adminKinds
  | .gc => [.gc]

@[simp] theorem within_checked {α : Type} {K : AuthReq → Prop} {o : Option α} :
    Within K (checked o) ↔ (o = none → K .panic) := by
  cases o with
  | some a => simp [checked]
  | none => simp [checked, Within]

section

variable {kinds : List Kind} {tokens : RefreshTokens} {sha256 : List UInt8 → Digest} {token : String}

theorem within_take (h : [.plain, .refreshTake, .memoryTake] ⊆ kinds) :
    Within (OfKind kinds) (tokens.take sha256 token) := by
  simp only [List.cons_subset] at h
  unfold RefreshTokens.take
  split <;> simp [h]

theorem within_store {identity : GrantIdentity} {issuedAt : ℤ}
    (h : [.plain, .refreshRead, .refreshUpsert, .memoryStore] ⊆ kinds) :
    Within (OfKind kinds) (tokens.store sha256 token identity issuedAt) := by
  simp only [List.cons_subset] at h
  unfold RefreshTokens.store
  split <;> simp [RefreshTokens.storeDb, RefreshTokens.upsertRow, h]

theorem within_purge {sub : String} (h : [.refreshPurge, .memoryPurge] ⊆ kinds) :
    Within (OfKind kinds) (tokens.purgeForSub sub) := by
  simp only [List.cons_subset] at h
  unfold RefreshTokens.purgeForSub
  split <;> simp [h]

theorem within_gcExpired (h : .gc ∈ kinds) : Within (OfKind kinds) tokens.gcExpired := by
  unfold RefreshTokens.gcExpired
  split <;> simp [h]

theorem within_create {userSub userEmail : String} {groups : List String} {ttl : Seconds}
    {birth : Option ℤ} (h : createKinds ⊆ kinds) :
    Within (OfKind kinds) (create userSub userEmail groups ttl none birth) := by
  simp only [createKinds, List.cons_subset] at h
  simp [create, h]

theorem within_bearerAuth {authorization} (h : bearerKinds ⊆ kinds) :
    Within (OfKind kinds) (bearerAuth app authorization) := by
  simp only [bearerKinds, List.cons_subset] at h
  simp [bearerAuth, resolveIdentity, lookup, h]

theorem within_issueToken {identity birth} (h : createKinds ⊆ kinds)
    (h' : [.jwtIssue, .draw, .refreshRead, .refreshUpsert, .memoryStore] ⊆ kinds) :
    Within (OfKind kinds) (issueTokenResponse app auth identity birth) := by
  have hcreate : Within (OfKind kinds) (create identity.sub identity.email identity.groups
      auth.config.sessionTtl none birth) := within_create h
  simp only [createKinds, List.cons_subset] at h h'
  have hstore : ∀ token issuedAt, Within (OfKind kinds)
      (auth.refresh.store app.crates.sha256 token identity issuedAt) :=
    fun token issuedAt => within_store (by simp [h, h'])
  simp [issueTokenResponse, hcreate, hstore, h, h']

end

theorem within_callback {code state : String} :
    Within (OfKind callbackKinds) (callback app code state) := by
  have hcreate : ∀ {userSub userEmail groups ttl birth}, Within (OfKind callbackKinds)
      (create userSub userEmail groups ttl none birth) := within_create (by decide)
  have hkinds : .flowTake ∈ callbackKinds ∧ .idp ∈ callbackKinds ∧ .draw ∈ callbackKinds ∧
      .codeInsert ∈ callbackKinds ∧ .jwtIssue ∈ callbackKinds := by decide
  simp [callback, completeBridgeLogin, completeLogin, hcreate, hkinds]

theorem within_token {form} : Within (OfKind tokenKinds) (token app form) := by
  have hissue : ∀ auth identity birth, Within (OfKind tokenKinds)
      (issueTokenResponse app auth identity birth) :=
    fun _ _ _ => within_issueToken (by decide) (by decide)
  have htake : ∀ (auth : AuthFacade) token, Within (OfKind tokenKinds)
      (auth.refresh.take app.crates.sha256 token) := fun _ _ => within_take (by decide)
  have hkind : .codeTake ∈ tokenKinds := by decide
  simp [token, tokenRefresh, tokenAuthorizationCode, hissue, htake, hkind]

theorem within_revoke {presented} : Within (OfKind revokeKinds) (revoke app presented) := by
  have htake : ∀ (auth : AuthFacade) token, Within (OfKind revokeKinds)
      (auth.refresh.take app.crates.sha256 token) := fun _ _ => within_take (by decide)
  have hkinds : .jwtVerify ∈ revokeKinds ∧ .revokeSession ∈ revokeKinds ∧
      .cacheRemove ∈ revokeKinds := by decide
  simp [revoke, SessionStore.revoke, htake, hkinds]

theorem within_logout {identity : Identity} {kinds}
    (h : [.revokeSession, .cacheRemove, .refreshPurge, .memoryPurge] ⊆ kinds) :
    Within (OfKind kinds) (logout app identity) := by
  simp only [List.cons_subset] at h
  have hpurge : ∀ (auth : AuthFacade) sub, Within (OfKind kinds)
      (auth.refresh.purgeForSub sub) := fun _ _ => within_purge (by simp [h])
  simp [logout, SessionStore.revoke, hpurge, h]

theorem within_requireAdminGroup {requestId} {identity : Identity}
    {kinds} (h : [.plain, .draw] ⊆ kinds) :
    Within (OfKind kinds) (requireAdminGroup app requestId identity) := by
  simp only [List.cons_subset] at h
  simp [requireAdminGroup, h]

/-- What the insertion of a client asks. -/
def registryKinds : List Kind := [.plain, .clientGc, .clientRead, .clientUpsert]

theorem within_registryInsert {kinds : List Kind} {clientId : String} {uris : List String}
    (h : registryKinds ⊆ kinds) : Within (OfKind kinds) (ClientRegistry.insert clientId uris) := by
  simp only [registryKinds, List.cons_subset] at h
  simp [ClientRegistry.insert, ClientRegistry.upsertRow, h]

theorem within_resolveRedirect {kinds : List Kind} {clientId requestedUri : String}
    (h : .clientTouch :: registryKinds ⊆ kinds) :
    Within (OfKind kinds) (resolveRedirect app clientId requestedUri) := by
  have hinsert : ∀ uris, Within (OfKind kinds) (ClientRegistry.insert clientId uris) :=
    fun _ => within_registryInsert (List.cons_subset.mp h).2
  simp only [registryKinds, List.cons_subset] at h
  simp [resolveRedirect, ClientRegistry.redirectUris, hinsert, h]

theorem HttpCall.within (c : HttpCall) : Within (OfKind c.kinds) (c.code app) := by
  cases c with
  | login =>
    simp [Oauth.login, HttpCall.kinds]
  | callback code state => exact within_callback
  | authorize p =>
    have hresolve : ∀ clientId requestedUri, Within (OfKind (HttpCall.authorize p).kinds)
        (resolveRedirect app clientId requestedUri) := fun _ _ =>
      within_resolveRedirect (by rw [HttpCall.kinds]; decide)
    simp [Oauth.authorize, startLogin, hresolve]
    simp [HttpCall.kinds]
  | register req =>
    have hinsert : ∀ clientId, Within (OfKind (HttpCall.register req).kinds)
        (ClientRegistry.insert clientId req.redirectUris) :=
      fun _ => within_registryInsert (by rw [HttpCall.kinds]; decide)
    simp [Oauth.register, hinsert]
    simp [HttpCall.kinds]
  | token form => exact within_token
  | revoke presented => exact within_revoke
  | logout authorization =>
    exact within_okOr.mpr ⟨within_bearerAuth (List.subset_append_left _ _),
      fun _ _ => within_logout (by simp [HttpCall.kinds, logoutKinds, bearerKinds])⟩
  | mcp authorization =>
    exact within_okOr.mpr ⟨within_bearerAuth (List.Subset.refl _), fun _ _ => within_ret⟩
  | admin authorization requestId =>
    exact within_okOr.mpr ⟨within_bearerAuth (List.subset_append_left _ _),
      fun _ _ => within_requireAdminGroup (by simp [HttpCall.kinds, adminKinds, bearerKinds])⟩
  | gc => simp [gcTick, within_gcExpired, HttpCall.kinds]

theorem HttpCall.kind_mem {c : HttpCall} (h : Issues (c.code app) es r) : r.kind ∈ c.kinds :=
  c.within.issues h

theorem HttpCall.kind_mem_trail {c : HttpCall} (h : Issues (c.code app) es r) :
    ∀ e ∈ es, e.1.kind ∈ c.kinds :=
  c.within.trail h

-- whether a call makes a request of some kind is decided by computing the kinds
attribute [simp] AuthReq.kind createKinds bearerKinds callbackKinds tokenKinds revokeKinds
  logoutKinds adminKinds registryKinds HttpCall.kinds

def RefreshRow.identity (row : RefreshRow) : GrantIdentity := ⟨row.userSub, row.email, row.groups⟩

/-! ## Redeeming a credential -/

/-- The exchanges in which a `/token` request gets an identity for its credential, and the
    birth of the chain if it is a refresh token. -/
inductive Grants (app : AppState) (auth : AuthFacade) (form : TokenForm) :
    AuthTrail → GrantIdentity → Option ℤ → Prop
  | code {code verifier} {entry : AuthCode} :
      form.grantType = some "authorization_code" → form.code = some code →
      form.codeVerifier = some verifier → (∀ sent ∈ form.clientId, sent = entry.clientId) →
      form.redirectUri = some entry.redirectUri →
      verify app.crates verifier entry.codeChallenge = true →
      Grants app auth form [⟨.codeTake (hashSecret app.crates.sha256 code), some entry⟩]
        entry.identity none
  | refresh {token} {entry : RefreshToken} {now} :
      form.grantType = some "refresh_token" → form.refreshToken = some token →
      auth.refresh.backend = .db → chainExpired entry.issuedAt now auth.refresh.ttl = false →
      Grants app auth form
        [⟨.refreshTake (hashSecret app.crates.sha256 token), .ok (some entry)⟩, ⟨.utcNow, now⟩]
        entry.identity (some entry.issuedAt)
  | refreshMemory {token} {entry : RefreshToken} :
      form.grantType = some "refresh_token" → form.refreshToken = some token →
      auth.refresh.backend = .memory →
      Grants app auth form
        [⟨.memoryTake auth.refresh.ttl (hashSecret app.crates.sha256 token), some entry⟩]
        entry.identity (some entry.issuedAt)

/-- The requests before a `/token` request has its identity. -/
def Redeems : AuthReq → Prop
  | .codeTake _ | .refreshTake _ | .memoryTake _ _ | .utcNow => True
  | _ => False

section

variable {tokens : RefreshTokens} {sha256 : List UInt8 → Digest} {token : String}

theorem yields_take_some {entry : RefreshToken}
    (h : Yields (tokens.take sha256 token) es (some entry)) :
    (tokens.backend = .db ∧ ∃ now, chainExpired entry.issuedAt now tokens.ttl = false ∧
      es = [⟨.refreshTake (hashSecret sha256 token), .ok (some entry)⟩, ⟨.utcNow, now⟩]) ∨
    tokens.backend = .memory ∧
      es = [⟨.memoryTake tokens.ttl (hashSecret sha256 token), some entry⟩] := by
  unfold RefreshTokens.take at h
  split at h
  · rename_i hdb
    simp at h
    obtain ⟨now, hes, hlive⟩ := h
    exact .inl ⟨hdb, now, hlive, hes⟩
  · rename_i hmemory
    exact .inr ⟨hmemory, by simpa using h⟩

theorem issues_take (h : Issues (tokens.take sha256 token) es r) :
    es = [] ∧ r = .refreshTake (hashSecret sha256 token) ∨ r = .utcNow ∨
    es = [] ∧ r = .memoryTake tokens.ttl (hashSecret sha256 token) := by
  unfold RefreshTokens.take at h
  split at h
  · simp at h
    rcases h with h | ⟨_, _, rfl⟩
    · exact .inl h
    · exact .inr (.inl rfl)
  · exact .inr (.inr (by simpa using h))

end

theorem issues_tokenRefresh {form : TokenForm} (hgrant : form.grantType = some "refresh_token")
    (h : Issues (tokenRefresh app auth form) es r) :
    Redeems r ∨ ∃ identity birth es₁ es₂, es = es₁ ++ es₂ ∧
      Grants app auth form es₁ identity birth ∧
      Issues (issueTokenResponse app auth identity birth) es₂ r := by
  simp [tokenRefresh] at h
  obtain ⟨token, htoken, htake | ⟨es₁, entry, es₂, rfl, htake, hissue⟩⟩ := h
  · rcases issues_take htake with ⟨-, rfl⟩ | rfl | ⟨-, rfl⟩ <;> exact .inl trivial
  · refine .inr ⟨_, _, es₁, es₂, rfl, ?_, hissue⟩
    rcases yields_take_some htake with ⟨hdb, now, hlive, rfl⟩ | ⟨hmemory, rfl⟩
    · exact .refresh hgrant htoken.symm hdb hlive
    · exact .refreshMemory hgrant htoken.symm hmemory

/-- The paths of a code redemption. -/
theorem issues_tokenAuthorizationCode {form : TokenForm}
    (hgrant : form.grantType = some "authorization_code")
    (h : Issues (tokenAuthorizationCode app auth form) es r) :
    Redeems r ∨ ∃ identity birth es₁ es₂, es = es₁ ++ es₂ ∧
      Grants app auth form es₁ identity birth ∧
      Issues (issueTokenResponse app auth identity birth) es₂ r := by
  simp [tokenAuthorizationCode] at h
  obtain ⟨code, hcode, verifier, hverifier, ⟨-, rfl⟩ | ⟨entry, es₂, rfl, hclient, hredirect, hverify,
    hissue⟩⟩ := h
  · exact .inl trivial
  · exact .inr ⟨_, _, [_], es₂, rfl,
      .code hgrant hcode.symm hverifier.symm hclient hredirect.symm hverify, hissue⟩

theorem issues_token {form} (h : Issues (token app form) es r) :
    Redeems r ∨ ∃ auth identity birth es₁ es₂, app.auth = some auth ∧ es = es₁ ++ es₂ ∧
      Grants app auth form es₁ identity birth ∧
      Issues (issueTokenResponse app auth identity birth) es₂ r := by
  simp [token] at h
  obtain ⟨hgrant, auth, hauth, ⟨hrefresh, h⟩ | ⟨hcode, h⟩⟩ := h
  · exact (issues_tokenRefresh hrefresh h).imp_right fun ⟨identity, birth, es₁, es₂, h⟩ =>
      ⟨auth, identity, birth, es₁, es₂, hauth.symm, h⟩
  · exact (issues_tokenAuthorizationCode (hgrant.resolve_right hcode) h).imp_right
      fun ⟨identity, birth, es₁, es₂, h⟩ => ⟨auth, identity, birth, es₁, es₂, hauth.symm, h⟩

/-- A `/token` request that succeeds. -/
theorem yields_token {form} {access refresh : String} {expiresIn : Seconds}
    (h : Yields (token app form) es (.tokens access expiresIn refresh)) :
    ∃ auth identity birth es₁ es₂, app.auth = some auth ∧ es = es₁ ++ es₂ ∧
      Grants app auth form es₁ identity birth ∧
      Yields (issueTokenResponse app auth identity birth) es₂ (.tokens access expiresIn refresh) := by
  simp [token] at h
  obtain ⟨hgrant, auth, hauth, ⟨hrefresh, h⟩ | ⟨hcode, h⟩⟩ := h
  · simp [tokenRefresh] at h
    obtain ⟨token, es₁, entry, es₂, rfl, htoken, htake, hissue⟩ := h
    refine ⟨auth, _, _, es₁, es₂, hauth.symm, rfl, ?_, hissue⟩
    rcases yields_take_some htake with ⟨hdb, now, hlive, rfl⟩ | ⟨hmemory, rfl⟩
    · exact .refresh hrefresh htoken.symm hdb hlive
    · exact .refreshMemory hrefresh htoken.symm hmemory
  · simp [tokenAuthorizationCode] at h
    obtain ⟨code, verifier, entry, es₂, rfl, hcode', hverifier, hclient, hredirect, hverify,
      hissue⟩ := h
    exact ⟨auth, _, _, [_], es₂, hauth.symm, rfl, .code (hgrant.resolve_right hcode) hcode'.symm
      hverifier.symm hclient hredirect.symm hverify, hissue⟩

/-! ## Issuing tokens -/

def Created (auth : AuthFacade) (identity : GrantIdentity) (birth : Option ℤ) (now : ℤ)
    (session : Session) : Prop :=
  ∃ expiresAt, deadline now auth.config.sessionTtl (nanos (8 * 3600)) = some expiresAt ∧
    session = ⟨session.id, identity.sub, identity.email, identity.groups, none, birth.getD now,
      expiresAt, none⟩

/-- How the birth of the chain is known: it is carried, or read from the clock. -/
def Birth (birth : Option ℤ) (issuedAt : ℤ) (es : AuthTrail) : Prop :=
  birth = some issuedAt ∧ es = [] ∨ birth = none ∧ es = [⟨.utcNow, issuedAt⟩]

/-- The exchanges until the refresh token is drawn. -/
def issuedTrail (auth : AuthFacade) (session : Session) (now : ℤ) (access refresh : String) :
    AuthTrail :=
  createTrail session now ++
    [⟨.jwtIssue session.id session.userSub auth.config.sessionTtl, some access⟩,
      ⟨.randomToken, refresh⟩]

/-- The requests of `create`. -/
inductive IssuesCreate (auth : AuthFacade) (identity : GrantIdentity) (birth : Option ℤ) :
    AuthTrail → AuthReq → Prop
  | draw : IssuesCreate auth identity birth [] .newSessionId
  | clock {id} : IssuesCreate auth identity birth [⟨.newSessionId, id⟩] .utcNow
  | panic {id now} : IssuesCreate auth identity birth [⟨.newSessionId, id⟩, ⟨.utcNow, now⟩] .panic
  | insert {session : Session} {now} : Created auth identity birth now session →
      IssuesCreate auth identity birth [⟨.newSessionId, session.id⟩, ⟨.utcNow, now⟩]
        (.insertSession session)
  | fill {session : Session} {now} : Created auth identity birth now session →
      IssuesCreate auth identity birth ([⟨.newSessionId, session.id⟩, ⟨.utcNow, now⟩] ++
        [⟨.insertSession session, .ok ()⟩]) (.cacheInsert session.id session)

/-- The requests of `issue_token_response`. -/
inductive IssuesTokens (app : AppState) (auth : AuthFacade) (identity : GrantIdentity)
    (birth : Option ℤ) : AuthTrail → AuthReq → Prop
  | create {es : AuthTrail} {r : AuthReq} :
      Issues (create identity.sub identity.email identity.groups auth.config.sessionTtl none birth)
        es r → IssuesTokens app auth identity birth es r
  | jwt {session : Session} {now : ℤ} : Created auth identity birth now session →
      IssuesTokens app auth identity birth (createTrail session now)
        (.jwtIssue session.id session.userSub auth.config.sessionTtl)
  | draw {session : Session} {now : ℤ} {access : String} : Created auth identity birth now session →
      IssuesTokens app auth identity birth (createTrail session now ++
        [⟨.jwtIssue session.id session.userSub auth.config.sessionTtl, some access⟩]) .randomToken
  | clock {session : Session} {now : ℤ} {access refresh : String} :
      Created auth identity birth now session →
      IssuesTokens app auth identity birth (issuedTrail auth session now access refresh) .utcNow
  | store {session : Session} {now issuedAt : ℤ} {access refresh : String} {es₁ es₂ : AuthTrail}
      {r : AuthReq} : Created auth identity birth now session → Birth birth issuedAt es₁ →
      Issues (auth.refresh.store app.crates.sha256 refresh identity issuedAt) es₂ r →
      IssuesTokens app auth identity birth
        (issuedTrail auth session now access refresh ++ es₁ ++ es₂) r

section

variable {identity : GrantIdentity} {birth : Option ℤ}

theorem yields_create {session : Session}
    (h : Yields (create identity.sub identity.email identity.groups auth.config.sessionTtl none
      birth) es (.ok session)) :
    ∃ now, Created auth identity birth now session ∧ es = createTrail session now := by
  obtain ⟨now, expiresAt, hdeadline, hsession, hes⟩ := yields_create_ok.mp h
  exact ⟨now, ⟨expiresAt, hdeadline, hsession⟩, hes⟩

theorem issues_create_cases
    (h : Issues (create identity.sub identity.email identity.groups auth.config.sessionTtl none
      birth) es r) : IssuesCreate auth identity birth es r := by
  simp [create] at h
  obtain ⟨rfl, rfl⟩ | ⟨id, _, rfl, ⟨rfl, rfl⟩ | ⟨now, _, rfl, ⟨-, rfl, rfl⟩ |
    ⟨expiresAt, hdeadline, ⟨rfl, rfl⟩ | ⟨⟨_, rfl⟩, rfl⟩⟩⟩⟩ := h
  · exact .draw
  · exact .clock
  · exact .panic
  all_goals
    have hcreated : Created auth identity birth now ⟨id, identity.sub, identity.email,
      identity.groups, none, birth.getD now, expiresAt, none⟩ := ⟨expiresAt, hdeadline, rfl⟩
  · exact .insert hcreated
  · exact .fill hcreated

theorem Created.userSub {now : ℤ} {session : Session} (h : Created auth identity birth now session) :
    session.userSub = identity.sub := by
  obtain ⟨expiresAt, -, hsession⟩ := h
  rw [hsession]

theorem issues_issueToken (h : Issues (issueTokenResponse app auth identity birth) es r) :
    IssuesTokens app auth identity birth es r := by
  rw [issueTokenResponse, issues_okOr] at h
  rcases h with h | ⟨es₁, session, es₂, rfl, hcreate, h⟩
  · exact .create h
  · obtain ⟨now, hcreated, rfl⟩ := yields_create hcreate
    rw [← hcreated.userSub] at h
    simp at h
    rcases h with ⟨rfl, rfl⟩ | ⟨access, _, rfl, ⟨rfl, rfl⟩ | ⟨refresh, es₂, rfl,
      ⟨issuedAt, hbirth, hstore⟩ | ⟨hbirth, ⟨rfl, rfl⟩ | ⟨issuedAt, es₂, rfl, hstore⟩⟩⟩⟩
    · rw [List.append_nil]
      exact .jwt hcreated
    · exact .draw hcreated
    · have hissues : IssuesTokens app auth identity birth
          (issuedTrail auth session now access refresh ++ [] ++ es₂) r :=
        .store hcreated (.inl ⟨hbirth, rfl⟩) hstore
      simpa [issuedTrail] using hissues
    · exact .clock hcreated
    · have hissues : IssuesTokens app auth identity birth
          (issuedTrail auth session now access refresh ++ [⟨.utcNow, issuedAt⟩] ++ es₂) r :=
        .store hcreated (.inr ⟨hbirth, rfl⟩) hstore
      simpa [issuedTrail] using hissues

theorem yields_issueToken {access refresh : String} {expiresIn : Seconds}
    (h : Yields (issueTokenResponse app auth identity birth) es (.tokens access expiresIn refresh)) :
    ∃ session now issuedAt es₁ es₂, Created auth identity birth now session ∧
      Birth birth issuedAt es₁ ∧
      Yields (auth.refresh.store app.crates.sha256 refresh identity issuedAt) es₂ (.ok ()) ∧
      es = issuedTrail auth session now access refresh ++ es₁ ++ es₂ := by
  simp [issueTokenResponse] at h
  obtain ⟨es₁, session, es₂, rfl, hcreate, ⟨_, hstore⟩, -⟩ := h
  obtain ⟨now, hcreated, rfl⟩ := yields_create hcreate
  rw [← hcreated.userSub]
  rcases hstore with ⟨issuedAt, hbirth, hstore⟩ | ⟨hbirth, issuedAt, es₂, rfl, hstore⟩
  · exact ⟨session, now, issuedAt, [], es₂, hcreated, .inl ⟨hbirth, rfl⟩, hstore,
      by simp [issuedTrail]⟩
  · exact ⟨session, now, issuedAt, [_], es₂, hcreated, .inr ⟨hbirth, rfl⟩, hstore,
      by simp [issuedTrail]⟩

end

def ReadsRefresh (e : Exchange AuthReq AuthResp) : Prop :=
  (∃ hash, e.1 = .refreshExists hash) ∨ e.1 = .refreshCount

/-- The requests of `store`. -/
inductive IssuesStore (tokens : RefreshTokens) (hash : Digest) (identity : GrantIdentity)
    (issuedAt : ℤ) : AuthTrail → AuthReq → Prop
  | found {es : AuthTrail} : IssuesStore tokens hash identity issuedAt es (.refreshExists hash)
  | count {es : AuthTrail} : IssuesStore tokens hash identity issuedAt es .refreshCount
  | panic {es : AuthTrail} : IssuesStore tokens hash identity issuedAt es .panic
  | memory : tokens.backend = .memory →
      IssuesStore tokens hash identity issuedAt [] (.memoryStore hash ⟨identity, issuedAt⟩)
  | upsert {es : AuthTrail} {expiresAt : ℤ} : tokens.backend = .db →
      deadline issuedAt tokens.ttl (nanos (24 * 3600)) = some expiresAt →
      (∀ e ∈ es, ReadsRefresh e) →
      IssuesStore tokens hash identity issuedAt es (.refreshUpsert
        ⟨hash, identity.sub, identity.email, identity.groups, issuedAt, expiresAt⟩)

theorem issues_store {tokens : RefreshTokens} {sha256 : List UInt8 → Digest} {token : String}
    {identity : GrantIdentity} {issuedAt : ℤ}
    (h : Issues (tokens.store sha256 token identity issuedAt) es r) :
    IssuesStore tokens (hashSecret sha256 token) identity issuedAt es r := by
  unfold RefreshTokens.store at h
  split at h
  · rename_i hdb
    simp [RefreshTokens.storeDb, RefreshTokens.upsertRow] at h
    rcases h with ⟨-, rfl⟩ | ⟨_, ⟨_, rfl, rfl, ⟨-, rfl⟩ | ⟨count, _, rfl, -, ⟨-, -, rfl⟩ |
      ⟨expiresAt, ⟨rfl, hdeadline⟩, rfl⟩⟩⟩ | ⟨_, rfl, rfl, ⟨-, -, rfl⟩ |
      ⟨expiresAt, ⟨rfl, hdeadline⟩, rfl⟩⟩⟩
    · exact .found
    · exact .count
    · exact .panic
    · exact .upsert hdb hdeadline (by simp [ReadsRefresh])
    · exact .panic
    · exact .upsert hdb hdeadline (by simp [ReadsRefresh])
  · rename_i hmemory
    simp at h
    obtain ⟨rfl, rfl⟩ := h
    exact .memory hmemory

/-! ## Callbacks -/

/-- The exchanges of `callback` until it knows the identity. -/
def verifiedTrail (code state : String) (flow : PendingFlow) (identity : GrantIdentity) :
    AuthTrail :=
  [⟨.flowTake state, some flow⟩,
    ⟨.exchangeAndVerify code flow.nonce flow.idpVerifier, .ok identity⟩]

/-- The requests of `callback`. -/
inductive IssuesCallback (app : AppState) (code state : String) : AuthTrail → AuthReq → Prop
  | take : IssuesCallback app code state [] (.flowTake state)
  | verify {flow : PendingFlow} : IssuesCallback app code state [⟨.flowTake state, some flow⟩]
      (.exchangeAndVerify code flow.nonce flow.idpVerifier)
  | draw {flow identity} :
      IssuesCallback app code state (verifiedTrail code state flow identity) .randomToken
  | store {flow : PendingFlow} {identity} {bridge : OAuthBridge}
      {authCode} : flow.bridge = some bridge →
      IssuesCallback app code state
        (verifiedTrail code state flow identity ++ [⟨.randomToken, authCode⟩])
        (.codeInsert (hashSecret app.crates.sha256 authCode) identity bridge.codeChallenge
          bridge.clientRedirectUri bridge.clientId)
  | create {auth : AuthFacade} {flow : PendingFlow} {identity : GrantIdentity} {es r} :
      app.auth = some auth → flow.bridge = none →
      Issues (create identity.sub identity.email identity.groups auth.config.sessionTtl none none)
        es r → IssuesCallback app code state (verifiedTrail code state flow identity ++ es) r
  | jwt {auth : AuthFacade} {flow : PendingFlow} {identity : GrantIdentity} {session : Session}
      {now} : app.auth = some auth → flow.bridge = none →
      Created auth identity none now session →
      IssuesCallback app code state
        (verifiedTrail code state flow identity ++ createTrail session now)
        (.jwtIssue session.id identity.sub auth.config.sessionTtl)

theorem issues_callback {code state : String} (h : Issues (callback app code state) es r) :
    IssuesCallback app code state es r := by
  simp [callback, completeBridgeLogin, completeLogin] at h
  obtain ⟨auth, hauth, ⟨rfl, rfl⟩ | ⟨flow, es₂, rfl, ⟨bridge, hbridge, -, h⟩ | ⟨hbridge, h⟩⟩⟩ := h
  · exact .take
  · obtain ⟨rfl, rfl⟩ | ⟨identity, es₃, rfl, ⟨rfl, rfl⟩ | ⟨authCode, rfl, rfl⟩⟩ := h
    · exact .verify
    · exact .draw
    · exact .store hbridge
  · obtain ⟨rfl, rfl⟩ | ⟨identity, es₃, rfl, hcreate | ⟨session, hcreate, rfl⟩⟩ := h
    · exact .verify
    · exact .create hauth.symm hbridge hcreate
    · obtain ⟨now, hcreated, rfl⟩ := yields_create hcreate
      exact .jwt hauth.symm hbridge hcreated

/-! ## Authorization requests -/

/-- The requests of `authorize`. -/
inductive IssuesAuthorize (app : AppState) (p : AuthorizeParams) : AuthTrail → AuthReq → Prop
  | resolve {clientId requestedUri es r} :
      nonEmpty p.clientId = some clientId → nonEmpty p.redirectUri = some requestedUri →
      Issues (resolveRedirect app clientId requestedUri) es r → IssuesAuthorize app p es r
  | login {clientId requestedUri redirectUri clientState codeChallenge es₁ es₂ r} :
      nonEmpty p.clientId = some clientId →
      nonEmpty p.redirectUri = some requestedUri → nonEmpty p.codeChallenge = some codeChallenge →
      Yields (resolveRedirect app clientId requestedUri) es₁ (.ok redirectUri) →
      Issues (startLogin app ⟨clientId, redirectUri, clientState, codeChallenge, p.resource⟩) es₂ r →
      IssuesAuthorize app p (es₁ ++ es₂) r

theorem issues_authorize {p} (h : Issues (authorize app p) es r) : IssuesAuthorize app p es r := by
  simp [authorize] at h
  obtain ⟨-, clientId, hclient, requestedUri, huri, h | ⟨es₁, redirectUri, es₂, rfl, hresolve,
    codeChallenge, hchallenge, -, clientState, -, -, h⟩⟩ := h
  · exact .resolve hclient.symm huri.symm h
  · exact .login hclient.symm huri.symm hchallenge.symm hresolve h

/-- The requests of the login at the identity provider. -/
inductive IssuesLogin (bridge : OAuthBridge) : AuthTrail → AuthReq → Prop
  | draw {es : AuthTrail} : IssuesLogin bridge es .randomToken
  | url {es : AuthTrail} {csrfState nonce challenge : String} :
      IssuesLogin bridge es (.authorizeUrl csrfState nonce challenge)
  | insert {csrfState nonce idpVerifier : String} {es : AuthTrail} :
      IssuesLogin bridge (⟨.randomToken, csrfState⟩ :: ⟨.randomToken, nonce⟩ :: es)
        (.flowInsert csrfState nonce idpVerifier (some bridge))

theorem issues_startLogin {bridge : OAuthBridge} (h : Issues (startLogin app bridge) es r) :
    IssuesLogin bridge es r := by
  simp [startLogin] at h
  obtain ⟨-, rfl⟩ | ⟨csrfState, _, rfl, ⟨-, rfl⟩ | ⟨nonce, _, rfl, ⟨-, rfl⟩ | ⟨_, _, rfl, ⟨-, rfl⟩ |
    ⟨_, _, rfl, ⟨-, rfl⟩ | ⟨-, rfl⟩⟩⟩⟩⟩ := h
  · exact .draw
  · exact .draw
  · exact .draw
  · exact .draw
  · exact .url
  · exact .insert

end DbMcpGateway.Oauth
