import DbMcpGateway.Oauth.Paths

/-!
# Where rows and tokens come from

What a call has exchanged when it inserts a session, stores a refresh token, a code or a
pending login, or issues a JWT.

Results:

* `issues_insertSession`, `issues_upsert`, `issues_codeInsert`, `issues_flowInsert`,
  `issues_jwtIssue`: the path to each of these requests.
* `yields_bearerAuth`: how `bearer_auth` gets an identity.
-/

namespace DbMcpGateway.Oauth

open Async Async.Prog SessionStore

variable {app : AppState} {auth : AuthFacade} {es : AuthTrail} {r : AuthReq}

/-! ## Paths -/

/-- How a call got the identity it creates a session for. -/
inductive Origin (app : AppState) (auth : AuthFacade) :
    HttpCall → AuthTrail → GrantIdentity → Option ℤ → Prop
  | login {code state} {flow : PendingFlow} {identity} : flow.bridge = none →
      Origin app auth (.callback code state) [⟨.flowTake state, some flow⟩,
        ⟨.exchangeAndVerify code flow.nonce flow.idpVerifier, .ok identity⟩] identity none
  | grant {form es identity birth} :
      Grants app auth form es identity birth → Origin app auth (.token form) es identity birth

structure SessionPath (app : AppState) (c : HttpCall) (es : AuthTrail) (row : Session) where
  auth : AuthFacade
  identity : GrantIdentity
  birth : Option ℤ
  origin : AuthTrail
  now : ℤ
  configured : app.auth = some auth
  got : Origin app auth c origin identity birth
  created : Created auth identity birth now row
  trail : es = origin ++ [⟨.newSessionId, row.id⟩, ⟨.utcNow, now⟩]

structure StorePath (app : AppState) (c : HttpCall) (es : AuthTrail) (digest : Digest)
    (token : RefreshToken) where
  form : TokenForm
  auth : AuthFacade
  birth : Option ℤ
  grant : AuthTrail
  session : Session
  now : ℤ
  access : String
  refresh : String
  clock : AuthTrail
  reads : AuthTrail
  call : c = .token form
  configured : app.auth = some auth
  got : Grants app auth form grant token.identity birth
  created : Created auth token.identity birth now session
  born : Birth birth token.issuedAt clock
  hash : digest = hashSecret app.crates.sha256 refresh
  readsOnly : ∀ e ∈ reads, ReadsRefresh e
  trail : es = grant ++ (issuedTrail auth session now access refresh ++ clock ++ reads)

structure UpsertPath (app : AppState) (c : HttpCall) (es : AuthTrail) (row : RefreshRow)
    extends StorePath app c es row.tokenHash row.token where
  db : auth.refresh.backend = .db
  lifetime : deadline row.chainIssuedAt auth.refresh.ttl (nanos (24 * 3600)) = some row.expiresAt

structure CodePath (app : AppState) (c : HttpCall) (es : AuthTrail) (hash : Digest)
    (identity : GrantIdentity) (codeChallenge redirectUri clientId : String) where
  code : String
  state : String
  flow : PendingFlow
  bridge : OAuthBridge
  authCode : String
  call : c = .callback code state
  bridged : flow.bridge = some bridge
  minted : hash = hashSecret app.crates.sha256 authCode
  challenge : codeChallenge = bridge.codeChallenge
  redirect : redirectUri = bridge.clientRedirectUri
  client : clientId = bridge.clientId
  trail : es = [⟨.flowTake state, some flow⟩,
    ⟨.exchangeAndVerify code flow.nonce flow.idpVerifier, .ok identity⟩, ⟨.randomToken, authCode⟩]

section

variable {c : HttpCall} {hash : Digest} {identity : GrantIdentity}
  {codeChallenge redirectUri clientId : String}
  (p : CodePath app c es hash identity codeChallenge redirectUri clientId)

theorem CodePath.mem_trail {e} (he : e ∈ [⟨.flowTake p.state, some p.flow⟩,
    ⟨.exchangeAndVerify p.code p.flow.nonce p.flow.idpVerifier, .ok identity⟩,
    ⟨.randomToken, p.authCode⟩]) : e ∈ es := by
  rw [p.trail]
  exact he

theorem CodePath.took : ⟨.flowTake p.state, some p.flow⟩ ∈ es := p.mem_trail (by simp)

theorem CodePath.verified :
    ⟨.exchangeAndVerify p.code p.flow.nonce p.flow.idpVerifier, .ok identity⟩ ∈ es :=
  p.mem_trail (by simp)

theorem CodePath.drawn : ⟨.randomToken, p.authCode⟩ ∈ es := p.mem_trail (by simp)

end

/-- How `/authorize` accepts the redirect URI `u`: it matches a registered one, or the client is
    adopted. -/
inductive Resolves (app : AppState) (clientId u : String) : AuthTrail → Prop
  | matched {es : AuthTrail} {expiresAt : ℤ} {registered : List String} {r : String} :
      ⟨.clientTouch clientId expiresAt, .ok (some registered)⟩ ∈ es → r ∈ registered →
      redirectUriMatches app.crates r u = true → Resolves app clientId u es
  | adopted {es : AuthTrail} {expiresAt : ℤ} : isLoopbackRedirectUri app.crates u = true →
      ⟨.clientUpsert clientId [u] expiresAt, .ok ()⟩ ∈ es → Resolves app clientId u es

theorem Resolves.mono {clientId u : String} {es' : AuthTrail} (h : Resolves app clientId u es)
    (hsub : es ⊆ es') : Resolves app clientId u es' := by
  cases h with
  | matched htouch hr hmatches => exact .matched (hsub htouch) hr hmatches
  | adopted hloopback hupsert => exact .adopted hloopback (hsub hupsert)

/-- The path to the storing of a flow of `/authorize`. -/
structure FlowPath (app : AppState) (c : HttpCall) (es : AuthTrail) (state nonce : String)
    (bridge : OAuthBridge) where
  params : AuthorizeParams
  registry : AuthTrail
  rest : AuthTrail
  call : c = .authorize params
  challenge : params.codeChallenge = some bridge.codeChallenge
  redirect : params.redirectUri = some bridge.clientRedirectUri
  client : params.clientId = some bridge.clientId
  resolved : Resolves app bridge.clientId bridge.clientRedirectUri es
  trail : es = registry ++ ⟨.randomToken, state⟩ :: ⟨.randomToken, nonce⟩ :: rest

section

variable {c : HttpCall} {state nonce : String} {bridge : OAuthBridge}
  (q : FlowPath app c es state nonce bridge)

include q

theorem FlowPath.drewState : ⟨.randomToken, state⟩ ∈ es := by
  rw [q.trail]
  simp

theorem FlowPath.drewNonce : ⟨.randomToken, nonce⟩ ∈ es := by
  rw [q.trail]
  simp

end

structure JwtPath (app : AppState) (c : HttpCall) (es : AuthTrail) (id : SessionId) (sub : String)
    (ttl : Seconds) where
  auth : AuthFacade
  identity : GrantIdentity
  birth : Option ℤ
  origin : AuthTrail
  now : ℤ
  session : Session
  configured : app.auth = some auth
  got : Origin app auth c origin identity birth
  created : Created auth identity birth now session
  sid : id = session.id
  trail : es = origin ++ createTrail session now

theorem JwtPath.drewId {c : HttpCall} {id} {sub : String} {ttl : Seconds}
    (p : JwtPath app c es id sub ttl) : ⟨.newSessionId, id⟩ ∈ es := by
  rw [p.trail]
  simp [createTrail, p.sid]

section

variable {c : HttpCall}

variable {identity : GrantIdentity} {clientId : String} {form : TokenForm} {birth : Option ℤ}

theorem issues_codeInsert {hash : Digest} {codeChallenge redirectUri : String}
    (h : Issues (c.code app) es (.codeInsert hash identity codeChallenge redirectUri clientId)) :
    Nonempty (CodePath app c es hash identity codeChallenge redirectUri clientId) := by
  have hkind := HttpCall.kind_mem h
  cases c with
  | callback code state =>
    cases issues_callback h with
    | store hbridge => exact ⟨code, state, _, _, _, rfl, hbridge, rfl, rfl, rfl, rfl, rfl⟩
    | create _ _ h => cases issues_create_cases h
  | _ =>
    simp at hkind

theorem yields_redirectUris {registered}
    (h : Yields (ClientRegistry.redirectUris clientId) es (some registered)) :
    ∃ expiresAt, ⟨.clientTouch clientId expiresAt, .ok (some registered)⟩ ∈ es := by
  simp [ClientRegistry.redirectUris] at h
  obtain ⟨now, expiresAt, rfl, -⟩ := h
  exact ⟨expiresAt, by simp⟩

theorem yields_upsertRow {uris}
    (h : Yields (ClientRegistry.upsertRow clientId uris) es (.ok true)) :
    ∃ expiresAt, ⟨.clientUpsert clientId uris expiresAt, .ok ()⟩ ∈ es := by
  simp [ClientRegistry.upsertRow] at h
  obtain ⟨_, expiresAt, ⟨_, rfl⟩, -⟩ := h
  exact ⟨expiresAt, by simp⟩

theorem yields_registryInsert {uris} (h : Yields (ClientRegistry.insert clientId uris) es true) :
    ∃ expiresAt, ⟨.clientUpsert clientId uris expiresAt, .ok ()⟩ ∈ es := by
  simp [ClientRegistry.insert] at h
  obtain ⟨_, _, rfl, _, ⟨_, es', rfl, rfl, -, hupsert⟩ | ⟨es', rfl, rfl, hupsert⟩⟩ := h
  all_goals
    obtain ⟨expiresAt, hmem⟩ := yields_upsertRow hupsert
    exact ⟨expiresAt, by simp [hmem]⟩

theorem yields_resolveRedirect {requestedUri redirectUri : String}
    (h : Yields (resolveRedirect app clientId requestedUri) es (.ok redirectUri)) :
    redirectUri = requestedUri ∧ Resolves app clientId requestedUri es := by
  simp [resolveRedirect] at h
  obtain ⟨es₁, known, es₂, rfl, hknown, ⟨registered, rfl, ⟨r, hr, hmatches⟩, -, rfl⟩ |
    ⟨-, ⟨hloopback, -⟩, hinsert, rfl⟩⟩ := h
  · obtain ⟨expiresAt, htouch⟩ := yields_redirectUris hknown
    exact ⟨rfl, .matched (List.mem_append_left _ htouch) hr hmatches⟩
  · obtain ⟨expiresAt, hupsert⟩ := yields_registryInsert hinsert
    exact ⟨rfl, .adopted hloopback (List.mem_append_right _ hupsert)⟩

theorem not_issues_resolveRedirect {requestedUri state nonce idpVerifier : String}
    {bridge} :
    ¬ Issues (resolveRedirect app clientId requestedUri) es
      (.flowInsert state nonce idpVerifier bridge) := by
  intro h
  have hkind := (within_resolveRedirect (List.Subset.refl _)).issues h
  simp [OfKind] at hkind

theorem nonEmpty_eq_some {text} {t : String} (h : nonEmpty text = some t) : text = some t :=
  (Option.filter_eq_some_iff.mp h).1

theorem issues_flowInsert {state nonce idpVerifier : String} {bridge : OAuthBridge}
    (h : Issues (c.code app) es (.flowInsert state nonce idpVerifier (some bridge))) :
    Nonempty (FlowPath app c es state nonce bridge) := by
  have hkind := HttpCall.kind_mem h
  cases c with
  | login => simp [login] at h
  | authorize p =>
    cases issues_authorize h with
    | resolve _ _ h => exact absurd h not_issues_resolveRedirect
    | login hclient huri hchallenge hresolve h =>
      cases issues_startLogin h with
      | insert =>
        obtain ⟨rfl, hresolves⟩ := yields_resolveRedirect hresolve
        exact ⟨p, _, _, rfl, nonEmpty_eq_some hchallenge, nonEmpty_eq_some huri,
          nonEmpty_eq_some hclient, hresolves.mono (List.subset_append_left _ _), rfl⟩
  | _ =>
    simp at hkind

theorem issues_insertSession {row : Session} (h : Issues (c.code app) es (.insertSession row)) :
    Nonempty (SessionPath app c es row) := by
  have hkind := HttpCall.kind_mem h
  cases c with
  | callback code state =>
    cases issues_callback h with
    | create hauth hbridge h =>
      cases issues_create_cases h with
      | insert hcreated => exact ⟨_, _, none, _, _, hauth, .login hbridge, hcreated, rfl⟩
  | token form =>
    rcases issues_token h with hredeems | ⟨auth, identity, birth, es₁, es₂, hauth, rfl, hgrant, h⟩
    · exact hredeems.elim
    · cases issues_issueToken h with
      | create h =>
        cases issues_create_cases h with
        | insert hcreated => exact ⟨auth, identity, birth, es₁, _, hauth, .grant hgrant, hcreated, rfl⟩
      | store _ _ h => cases issues_store h
  | _ =>
    simp at hkind

theorem issues_upsert {row} (h : Issues (c.code app) es (.refreshUpsert row)) :
    Nonempty (UpsertPath app c es row) := by
  have hkind := HttpCall.kind_mem h
  cases c with
  | token form =>
    rcases issues_token h with hredeems | ⟨auth, identity, birth, es₁, es₂, hauth, rfl, hgrant, h⟩
    · exact hredeems.elim
    · cases issues_issueToken h with
      | create h => cases issues_create_cases h
      | store hcreated hbirth h =>
        cases issues_store h with
        | upsert hdb hdeadline hreads =>
          exact ⟨⟨form, auth, birth, es₁, _, _, _, _, _, _, rfl, hauth, hgrant, hcreated, hbirth, rfl,
            hreads, rfl⟩, hdb, hdeadline⟩
  | _ =>
    simp at hkind

theorem issues_memoryStore {hash : Digest} {token}
    (h : Issues (c.code app) es (.memoryStore hash token)) :
    Nonempty (StorePath app c es hash token) := by
  have hkind := HttpCall.kind_mem h
  cases c with
  | token form =>
    rcases issues_token h with hredeems | ⟨auth, identity, birth, es₁, es₂, hauth, rfl, hgrant, h⟩
    · exact hredeems.elim
    · cases issues_issueToken h with
      | create h => cases issues_create_cases h
      | store hcreated hbirth h =>
        cases issues_store h with
        | memory =>
          exact ⟨form, auth, birth, es₁, _, _, _, _, _, [], rfl, hauth, hgrant, hcreated, hbirth, rfl,
            nofun, rfl⟩
  | _ =>
    simp at hkind

theorem issues_jwtIssue {id} {sub : String} {ttl : Seconds}
    (h : Issues (c.code app) es (.jwtIssue id sub ttl)) : Nonempty (JwtPath app c es id sub ttl) := by
  have hkind := HttpCall.kind_mem h
  cases c with
  | callback code state =>
    cases issues_callback h with
    | create _ _ h => cases issues_create_cases h
    | jwt hauth hbridge hcreated =>
      exact ⟨_, _, none, _, _, _, hauth, .login hbridge, hcreated, rfl, rfl⟩
  | token form =>
    rcases issues_token h with hredeems | ⟨auth, identity, birth, es₁, es₂, hauth, rfl, hgrant, h⟩
    · exact hredeems.elim
    · cases issues_issueToken h with
      | create h => cases issues_create_cases h
      | jwt hcreated => exact ⟨auth, identity, birth, es₁, _, _, hauth, .grant hgrant, hcreated, rfl, rfl⟩
      | store _ _ h => cases issues_store h
  | _ =>
    simp at hkind

/-! ## On the way to a refresh token -/

theorem Grants.kind_mem (h : Grants app auth form es identity birth) :
    ∀ e ∈ es, e.1.kind ∈ [Kind.codeTake, .refreshTake, .memoryTake, .plain] := by
  cases h <;> simp

theorem Grants.of_take {hash : Digest} {token : RefreshToken}
    (h : Grants app auth form es identity birth)
    (hmem : ⟨.refreshTake hash, .ok (some token)⟩ ∈ es) :
    identity = token.identity ∧ birth = some token.issuedAt ∧
      ∃ now, es = [⟨.refreshTake hash, .ok (some token)⟩, ⟨.utcNow, now⟩] ∧
        chainExpired token.issuedAt now auth.refresh.ttl = false := by
  cases h with
  | code => simp at hmem
  | refresh hgrant htoken hdb hlive =>
    simp at hmem
    obtain ⟨rfl, rfl⟩ := hmem
    exact ⟨rfl, rfl, _, rfl, hlive⟩
  | refreshMemory => simp at hmem

theorem Grants.shape (h : Grants app auth form es identity birth) :
    (∃ hash entry, es = [⟨.codeTake hash, some entry⟩] ∧ identity = entry.identity) ∨
    (∃ hash token now, es = [⟨.refreshTake hash, .ok (some token)⟩, ⟨.utcNow, now⟩] ∧
      identity = token.identity) ∨ auth.refresh.backend = .memory := by
  cases h with
  | code => exact .inl ⟨_, _, rfl, rfl⟩
  | refresh => exact .inr (.inl ⟨_, _, _, rfl, rfl⟩)
  | refreshMemory _ _ hmemory => exact .inr (.inr hmemory)

/-- The kinds of requests that store a refresh token. -/
def storeKinds : List Kind := [.refreshUpsert, .memoryStore]

/-- The kinds of requests between the grant and the storing. -/
def issueKinds : List Kind :=
  [.plain, .drawId, .insertSession, .cacheInsert, .jwtIssue, .draw, .refreshRead]

section

variable {digest : Digest} {token : RefreshToken} (p : StorePath app c es digest token)

theorem StorePath.kind_mem : ∀ e ∈ es, e ∈ p.grant ∨ e.1.kind ∈ issueKinds := by
  intro e he
  rw [p.trail, List.mem_append] at he
  refine he.imp_right fun he => ?_
  rcases List.mem_append.mp he with he | he
  · rcases List.mem_append.mp he with he | he
    · simp only [issuedTrail, createTrail, List.cons_append, List.nil_append, List.mem_cons,
        List.not_mem_nil, or_false] at he
      rcases he with rfl | rfl | rfl | rfl | rfl | rfl <;> simp [issueKinds]
    · rcases p.born with ⟨-, hclock⟩ | ⟨-, hclock⟩
      · rw [hclock] at he
        cases he
      · rw [hclock, List.mem_singleton] at he
        subst he
        simp [issueKinds]
  · rcases p.readsOnly e he with ⟨hash, hreq⟩ | hreq
    · rw [hreq]
      simp [issueKinds]
    · rw [hreq]
      simp [issueKinds]

include p in
/-- A call stores one refresh token. -/
theorem StorePath.not_store : ∀ e ∈ es, e.1.kind ∉ storeKinds := by
  intro e he hkind
  have hmem : e.1.kind ∈ [Kind.codeTake, .refreshTake, .memoryTake, .plain] ++ issueKinds := by
    rcases p.kind_mem e he with hgrant | hkind
    · exact List.mem_append_left _ (p.got.kind_mem e hgrant)
    · exact List.mem_append_right _ hkind
  revert hmem hkind
  generalize e.1.kind = kind
  revert kind
  decide

theorem StorePath.drawn : ⟨.randomToken, p.refresh⟩ ∈ es := by
  have hmem : ⟨.randomToken, p.refresh⟩ ∈ p.grant ++
      (issuedTrail p.auth p.session p.now p.access p.refresh ++ p.clock ++ p.reads) := by
    simp [issuedTrail]
  rwa [← p.trail] at hmem

theorem StorePath.mem_grant {e} (he : e ∈ p.grant) : e ∈ es := by
  rw [p.trail]
  exact List.mem_append_left _ he

end

section

variable {row : RefreshRow} (p : UpsertPath app c es row)

include p in
theorem UpsertPath.grant_cases :
    (∃ hash entry, ⟨.codeTake hash, some entry⟩ ∈ es) ∨
    ∃ hash token, ⟨.refreshTake hash, .ok (some token)⟩ ∈ es := by
  rcases p.got.shape with ⟨hash, entry, hgrant, -⟩ | ⟨hash, token, now, hgrant, -⟩ | hmemory
  · exact .inl ⟨hash, entry, p.mem_grant (by rw [hgrant]; simp)⟩
  · exact .inr ⟨hash, token, p.mem_grant (by rw [hgrant]; simp)⟩
  · rw [p.db] at hmemory
    cases hmemory

/-- What the call took if it redeems a code. -/
theorem UpsertPath.of_code {hash : Digest} {entry : AuthCode}
    (hmem : ⟨.codeTake hash, some entry⟩ ∈ es) : p.grant = [⟨.codeTake hash, some entry⟩] := by
  have hgrant : ⟨.codeTake hash, some entry⟩ ∈ p.grant := by
    rcases p.kind_mem _ hmem with hgrant | hkind
    · exact hgrant
    · simp [issueKinds] at hkind
  rcases p.got.shape with ⟨hash', entry', hshape, -⟩ | ⟨hash', token, now, hshape, -⟩ | hmemory
  · rw [hshape, List.mem_singleton] at hgrant
    rw [hshape, hgrant]
  · rw [hshape] at hgrant
    simp at hgrant
  · rw [p.db] at hmemory
    cases hmemory

/-- What the call took if it rotates a token. -/
theorem UpsertPath.of_take {hash : Digest} {token : RefreshToken}
    (hmem : ⟨.refreshTake hash, .ok (some token)⟩ ∈ es) :
    row.identity = token.identity ∧ row.chainIssuedAt = token.issuedAt ∧
      ∃ now, p.grant = [⟨.refreshTake hash, .ok (some token)⟩, ⟨.utcNow, now⟩] ∧
        chainExpired token.issuedAt now p.auth.refresh.ttl = false := by
  have hgrant : ⟨.refreshTake hash, .ok (some token)⟩ ∈ p.grant := by
    rcases p.kind_mem _ hmem with hgrant | hkind
    · exact hgrant
    · simp [issueKinds] at hkind
  obtain ⟨hidentity, hbirth, hshape⟩ := p.got.of_take hgrant
  rcases p.born with ⟨hborn, -⟩ | ⟨hborn, -⟩
  · rw [hbirth] at hborn
    exact ⟨hidentity, (Option.some.inj hborn).symm, hshape⟩
  · rw [hbirth] at hborn
    cases hborn

end

/-! ## Identities -/

def Session.grantee (session : Session) : GrantIdentity :=
  ⟨session.userSub, session.userEmail, session.groups⟩

variable {identity : GrantIdentity} {birth : Option ℤ} {session : Session} {id : SessionId}

theorem Created.grantee {now : ℤ} (h : Created auth identity birth now session) :
    session.grantee = identity := by
  obtain ⟨expiresAt, -, hsession⟩ := h
  rw [hsession]
  rfl

structure Carries (identity : GrantIdentity) (r : AuthReq) : Prop where
  session : ∀ row, r = .insertSession row → row.grantee = identity
  row : ∀ row, r = .refreshUpsert row → row.identity = identity
  memory : ∀ hash token, r = .memoryStore hash token → token.identity = identity

theorem Carries.of_kind (h : r.kind ∉ [Kind.insertSession, .refreshUpsert, .memoryStore]) :
    Carries identity r := by
  refine ⟨?_, ?_, ?_⟩
  · rintro row rfl
    simp at h
  · rintro row rfl
    simp at h
  · rintro hash token rfl
    simp at h

theorem Redeems.carries (h : Redeems r) : Carries identity r := by
  refine ⟨?_, ?_, ?_⟩
  · rintro row rfl
    exact h.elim
  · rintro row rfl
    exact h.elim
  · rintro hash token rfl
    exact h.elim

/-- What `issue_token_response` stores is for the identity it was called with. -/
theorem carries_issueToken (h : Issues (issueTokenResponse app auth identity birth) es r) :
    Carries identity r := by
  refine ⟨?_, ?_, ?_⟩
  · rintro row rfl
    cases issues_issueToken h with
    | create h =>
      cases issues_create_cases h with
      | insert hcreated => exact hcreated.grantee
    | store _ _ h => cases issues_store h
  · rintro row rfl
    cases issues_issueToken h with
    | create h => cases issues_create_cases h
    | store _ _ h =>
      cases issues_store h
      rfl
  · rintro hash token rfl
    cases issues_issueToken h with
    | create h => cases issues_create_cases h
    | store _ _ h =>
      cases issues_store h
      rfl

/-- What `issue_token_response` exchanges is no redemption. -/
theorem issueToken_trail (h : Issues (issueTokenResponse app auth identity birth) es r) :
    ∀ e ∈ es, e.1.kind ∉ [Kind.codeTake, .refreshTake, .memoryTake] := by
  intro e he hkind
  have hkinds : e.1.kind ∈ issueKinds ++ [.refreshUpsert, .memoryStore] :=
    (within_issueToken (by decide) (by decide)).trail h e he
  simp only [issueKinds, List.cons_append, List.nil_append, List.mem_cons, List.not_mem_nil,
    or_false] at hkind hkinds
  rcases hkind with hkind | hkind | hkind <;> rw [hkind] at hkinds <;> simp at hkinds

/-- What a `/token` request stores is for the identity of the code it took. -/
theorem carries_of_code {hash : Digest} {entry : AuthCode} (h : Issues (c.code app) es r)
    (hmem : ⟨.codeTake hash, some entry⟩ ∈ es) : Carries entry.identity r := by
  have hkind := HttpCall.kind_mem_trail h _ hmem
  cases c with
  | token form =>
    rcases issues_token h with hredeems | ⟨auth, identity, birth, es₁, es₂, -, rfl, hgrants, hissue⟩
    · exact hredeems.carries
    · have hgrant : ⟨.codeTake hash, some entry⟩ ∈ es₁ := by
        refine (List.mem_append.mp hmem).resolve_right fun hmem => ?_
        exact issueToken_trail hissue _ hmem (by simp)
      have hidentity : identity = entry.identity := by
        cases hgrants <;> simp at hgrant
        rw [hgrant.2]
      rw [← hidentity]
      exact carries_issueToken hissue
  | _ =>
    simp at hkind

/-- The same for a refresh token; a `/revoke` request stores nothing. -/
theorem carries_of_take {hash : Digest} {token : RefreshToken} (h : Issues (c.code app) es r)
    (hmem : ⟨.refreshTake hash, .ok (some token)⟩ ∈ es) : Carries token.identity r := by
  have hkind := HttpCall.kind_mem_trail h _ hmem
  cases c with
  | token form =>
    rcases issues_token h with hredeems | ⟨auth, identity, birth, es₁, es₂, -, rfl, hgrants, hissue⟩
    · exact hredeems.carries
    · have hgrant : ⟨.refreshTake hash, .ok (some token)⟩ ∈ es₁ := by
        refine (List.mem_append.mp hmem).resolve_right fun hmem => ?_
        exact issueToken_trail hissue _ hmem (by simp)
      rw [← (hgrants.of_take hgrant).1]
      exact carries_issueToken hissue
  | revoke presented =>
    have hreq := HttpCall.kind_mem h
    refine .of_kind fun hkind' => ?_
    simp only [List.mem_cons, List.not_mem_nil, or_false] at hkind'
    rcases hkind' with hkind' | hkind' | hkind' <;> rw [hkind'] at hreq <;>
      simp at hreq
  | _ =>
    simp at hkind

theorem yields_store {tokens : RefreshTokens} {sha256 : List UInt8 → Digest} {token : String}
    {issuedAt : ℤ} (h : Yields (tokens.store sha256 token identity issuedAt) es (.ok ())) :
    (∃ row : RefreshRow, row.tokenHash = hashSecret sha256 token ∧ row.identity = identity ∧
      ⟨.refreshUpsert row, .ok ()⟩ ∈ es) ∨
    ⟨.memoryStore (hashSecret sha256 token) ⟨identity, issuedAt⟩, .ok ()⟩ ∈ es := by
  unfold RefreshTokens.store at h
  split at h
  · simp [RefreshTokens.storeDb, RefreshTokens.upsertRow] at h
    obtain ⟨_, es₁, ⟨_, expiresAt, rfl, -, -, -⟩ | ⟨expiresAt, rfl, -, -⟩⟩ := h
    all_goals
      refine .inl ⟨⟨hashSecret sha256 token, identity.sub, identity.email, identity.groups, issuedAt,
        expiresAt⟩, rfl, rfl, ?_⟩
      simp
  · simp at h
    subst h
    exact .inr (List.mem_singleton.mpr rfl)

/-! ## Accepted requests -/

inductive Finds (id : SessionId) (now : ℤ) : AuthTrail → Session → Prop
  | cached {session : Session} : Finds id now [⟨.cacheGet id now, some session⟩] session
  | read {session : Session} : session.isActive now = true →
      Finds id now [⟨.cacheGet id now, none⟩, ⟨.selectSession id, .ok (some session)⟩,
        ⟨.cacheInsert id session, ()⟩] session

/-- How `bearer_auth` gets an identity: from a service token, or from the session of a JWT. -/
inductive Accepts (auth : AuthFacade) (authorization : Option String) : AuthTrail → Identity → Prop
  | service {token : String} {caller : Authz.Identity} {now : ℤ} {id : SessionId} :
      bearerToken authorization = .ok token →
      Auth.authenticate auth.serviceTokens token = some caller →
      Accepts auth authorization [⟨.utcNow, now⟩, ⟨.newSessionId, id⟩] ⟨caller, id, now⟩
  | session {token : String} {claims : SessionClaims} {arrived now : ℤ} {es : AuthTrail}
      {session : Session} : bearerToken authorization = .ok token →
      Auth.authenticate auth.serviceTokens token = none → Finds claims.sid now es session →
      Accepts auth authorization (⟨.utcNow, arrived⟩ :: ⟨.jwtVerify token, some claims⟩ ::
        ⟨.utcNow, now⟩ :: es) session.identity

theorem yields_lookup {identity : Identity} (h : Yields (lookup id) es (.ok identity)) :
    ∃ now es' session, es = ⟨.utcNow, now⟩ :: es' ∧ Finds id now es' session ∧
      identity = session.identity := by
  simp [lookup] at h
  obtain ⟨now, cached, es', rfl, ⟨session, rfl, rfl, rfl⟩ | ⟨rfl, session, ⟨_, rfl⟩, hactive, rfl⟩⟩ := h
  · exact ⟨now, _, session, rfl, .cached, rfl⟩
  · exact ⟨now, _, session, rfl, .read hactive, rfl⟩

theorem yields_bearerAuth {authorization : Option String} {identity : Identity}
    (h : Yields (bearerAuth app authorization) es (.ok identity)) :
    ∃ auth, app.auth = some auth ∧ Accepts auth authorization es identity := by
  simp [bearerAuth, resolveIdentity] at h
  obtain ⟨auth, token, arrived, es₁, service, es₂, rfl, hauth, htoken, hservice, h⟩ := h
  refine ⟨auth, hauth.symm, ?_⟩
  rcases h with ⟨rfl, rfl⟩ | ⟨rfl, claims, es₂, rfl, h⟩
  · obtain ⟨-, hnone⟩ | ⟨caller, id, rfl, hcaller, heq⟩ := hservice
    · cases hnone
    · cases heq
      exact .service htoken.symm hcaller.symm
  · obtain ⟨⟨rfl, hnone⟩, -⟩ | ⟨_, _, -, -, hsome⟩ := hservice
    · obtain ⟨now, es', session, rfl, hfinds, rfl⟩ := yields_lookup h
      exact .session htoken.symm hnone.symm hfinds
    · cases hsome

theorem issues_bearerAuth_fill {authorization}
    (h : Issues (bearerAuth app authorization) es (.cacheInsert id session)) :
    ∃ es', es = es' ++ [⟨.selectSession id, .ok (some session)⟩] ∧ session.revokedAt = none := by
  simp [bearerAuth, resolveIdentity, lookup] at h
  obtain ⟨_, token, arrived, claims, now, rfl, -, -, -, hactive, rfl⟩ := h
  exact ⟨[⟨.utcNow, arrived⟩, ⟨.jwtVerify token, some claims⟩, ⟨.utcNow, now⟩,
    ⟨.cacheGet claims.sid now, none⟩], rfl, (Session.isActive_iff.mp hactive).1⟩

/-- A call fills the cache with the row it inserted, or with an active row it read. -/
theorem issues_fill (h : Issues (c.code app) es (.cacheInsert id session)) :
    (∃ es', es = es' ++ [⟨.insertSession session, .ok ()⟩] ∧ session.id = id) ∨
    ∃ es', es = es' ++ [⟨.selectSession id, .ok (some session)⟩] ∧ session.revokedAt = none := by
  have hkind := HttpCall.kind_mem h
  have hcreate : ∀ {es₁ es₂ auth identity birth},
      IssuesCreate auth identity birth es₂ (.cacheInsert id session) →
      ∃ es', es₁ ++ es₂ = es' ++ [⟨.insertSession session, .ok ()⟩] ∧ session.id = id := by
    intro es₁ es₂ _ _ _ h
    cases h with
    | fill => exact ⟨_, (List.append_assoc _ _ _).symm, rfl⟩
  cases c with
  | callback code state =>
    cases issues_callback h with
    | create _ _ h => exact .inl (hcreate (issues_create_cases h))
  | token form =>
    rcases issues_token h with hredeems | ⟨auth, identity, birth, es₁, es₂, hauth, rfl, hgrant, h⟩
    · exact hredeems.elim
    · cases issues_issueToken h with
      | create h => exact .inl (hcreate (issues_create_cases h))
      | store _ _ h => cases issues_store h
  | logout authorization =>
    rcases issues_okOr.mp h with h | ⟨_, _, _, -, -, h⟩
    · exact .inr (issues_bearerAuth_fill h)
    · have hkind := (within_logout (List.Subset.refl _)).issues h
      simp [OfKind] at hkind
  | mcp authorization =>
    rcases issues_okOr.mp h with h | ⟨_, _, _, -, -, h⟩
    · exact .inr (issues_bearerAuth_fill h)
    · exact h.elim
  | admin authorization requestId =>
    rcases issues_okOr.mp h with h | ⟨_, _, _, -, -, h⟩
    · exact .inr (issues_bearerAuth_fill h)
    · have hkind := (within_requireAdminGroup (List.Subset.refl _)).issues h
      simp [OfKind] at hkind
  | _ => simp at hkind

end

end DbMcpGateway.Oauth
