import DbMcpGateway.Oauth.Http

/-!
# The auth endpoints

The handlers of `/authorize`, `/token`, `/revoke` and `/register` (transport/oauth), of
`/auth/login`, `/auth/callback` and `/auth/logout` (transport/auth_routes.rs), the middleware
in front of the authenticated routes (transport/auth_middleware.rs) and of the admin routes
(transport/admin/middleware.rs), and the background collection of expired state (startup.rs).
`gateway` is the service they make up.

Left out are log lines, metrics and the rate limiter in front of the handlers.
-/

namespace DbMcpGateway.Oauth

open Async Async.Prog

/-! ## The application -/

/-- `struct AuthConfig` (auth/config.rs:28), what the handlers read of it. -/
structure AuthConfig where
  sessionTtl : Seconds
  deriving DecidableEq

/-- `struct AuthFacade` (transport/app_state.rs:90); the stores are in `AuthState`. -/
structure AuthFacade where
  config : AuthConfig
  refresh : RefreshTokens
  serviceTokens : List Auth.ResolvedServiceToken
  deriving DecidableEq

/-- `struct AdminMiddlewareState` (transport/admin/middleware.rs:72). -/
structure AdminMiddlewareState where
  adminGroup : String
  maxSessionAge : Option Seconds
  deriving DecidableEq

/-- `struct AppState` (transport/app_state.rs:25), what the handlers read of it. -/
structure AppState where
  crates : Crates
  auth : Option AuthFacade
  admin : AdminMiddlewareState

variable (app : AppState)

/-- A parameter that must not be empty. -/
def nonEmpty (text : Option String) : Option String := text.filter fun t => t ≠ ""

/-- `generate` (auth/pkce.rs:27): the verifier; its challenge is `challengeFor`. -/
@[simp] def generateVerifier : AuthProg String := do
  let first : String ← call .randomToken
  let second : String ← call .randomToken
  return first ++ second

/-! ## Logins -/

/-- `redirect_with_error` (transport/oauth/helpers.rs:21). -/
def redirectWithError (bridge : OAuthBridge) (error : String) : Response :=
  match buildRedirect app.crates bridge.clientRedirectUri
      [("error", error), ("state", bridge.clientState)] with
  | some url => .redirect url
  | none => .oauthError 502 error "login failed"

/-- `login` (transport/auth_routes.rs:26). -/
def login : AuthProg Response :=
  someOr (ret app.auth) (.authError .discovery) fun _ => do
    let csrfState : String ← call .randomToken
    let nonce : String ← call .randomToken
    let verifier ← generateVerifier
    okOr (call (.authorizeUrl csrfState nonce (challengeFor app.crates verifier))) .authError
      fun (url : String) =>
    okOr (call (.flowInsert csrfState nonce verifier none))
      (fun (_ : StoreError) => .authError .storeFull) fun (_ : Unit) =>
    ret (.login url csrfState)

/-- The response of `complete_bridge_login` once the code is stored. -/
def bridgeRedirect (bridge : OAuthBridge) (authCode : String) : Response :=
  match buildRedirect app.crates bridge.clientRedirectUri
      [("code", authCode), ("state", bridge.clientState)] with
  | some url => .redirect url
  | none => .oauthError 400 "invalid_request" "invalid redirect_uri"

/-- `complete_bridge_login` (transport/oauth/authorize.rs:210). -/
def completeBridgeLogin (bridge : OAuthBridge) (code nonce idpVerifier : String) :
    AuthProg Response :=
  someOr (ret app.auth) (redirectWithError app bridge "server_error") fun _ =>
  okOr (call (.exchangeAndVerify code nonce idpVerifier))
    (fun (_ : AuthError) => redirectWithError app bridge "access_denied")
    fun (verified : GrantIdentity) => do
  let authCode : String ← call .randomToken
  okOr (call (.codeInsert (hashSecret app.crates.sha256 authCode) verified bridge.codeChallenge
      bridge.clientRedirectUri bridge.clientId))
    (fun (_ : StoreError) => redirectWithError app bridge "temporarily_unavailable")
    fun (_ : Unit) =>
  ret (bridgeRedirect app bridge authCode)

/-- The part of `callback` for logins that `/auth/login` began. -/
def completeLogin (auth : AuthFacade) (code nonce idpVerifier : String) : AuthProg Response :=
  okOr (call (.exchangeAndVerify code nonce idpVerifier)) .authError
    fun (verified : GrantIdentity) =>
  okOr (SessionStore.create verified.sub verified.email verified.groups auth.config.sessionTtl none
    none) .authError fun session =>
  someOr (call (.jwtIssue session.id verified.sub auth.config.sessionTtl)) (.authError .jwt)
    fun (token : String) =>
  ret (.session token auth.config.sessionTtl)

/-- `callback` (transport/auth_routes.rs:57). -/
def callback (code state : String) : AuthProg Response :=
  someOr (ret app.auth) (.authError .discovery) fun auth =>
  someOr (call (.flowTake state)) .loginExpired fun (flow : PendingFlow) =>
  ifSome flow.bridge
    (fun bridge => completeBridgeLogin app bridge code flow.nonce flow.idpVerifier)
    (completeLogin auth code flow.nonce flow.idpVerifier)

/-! ## Clients -/

/-- The redirect URI of `authorize`: the one requested, if the client may use it. -/
def resolveRedirect (clientId requestedUri : String) : AuthProg (Except Response String) := do
  let known ← ClientRegistry.redirectUris clientId
  ifSome known
    (fun registered =>
      require (registered.any fun r => redirectUriMatches app.crates r requestedUri)
        (.error (.oauthError 400 "invalid_request"
          "redirect_uri must exactly match a registered redirect URI")) <|
      ret (.ok requestedUri)) <|
    require (isLoopbackRedirectUri app.crates requestedUri && isAdoptableClientId clientId)
      (.error (.oauthError 400 "invalid_client"
        "unknown client_id; register via /register first")) do
    let inserted ← ClientRegistry.insert clientId [requestedUri]
    require inserted
      (.error (.oauthError 503 "temporarily_unavailable"
        "client registration capacity reached; retry later")) <|
    ret (.ok requestedUri)

/-- The login of `authorize` at the identity provider. -/
def startLogin (bridge : OAuthBridge) : AuthProg Response := do
  let csrfState : String ← call .randomToken
  let nonce : String ← call .randomToken
  let idpVerifier ← generateVerifier
  okOr (call (.authorizeUrl csrfState nonce (challengeFor app.crates idpVerifier)))
    (fun (_ : AuthError) =>
      .oauthError 502 "server_error" "could not reach the identity provider")
    fun (idpUrl : String) =>
  okOr (call (.flowInsert csrfState nonce idpVerifier (some bridge)))
    (fun (_ : StoreError) =>
      .oauthError 503 "server_error" "gateway temporarily overloaded; try again")
    fun (_ : Unit) =>
  ret (.redirect idpUrl)

/-- `authorize` (transport/oauth/authorize.rs:43). -/
def authorize (p : AuthorizeParams) : AuthProg Response :=
  require (p.responseType = some "code")
    (.oauthError 400 "unsupported_response_type" "only response_type=code is supported") <|
  someOr (ret (nonEmpty p.clientId))
    (.oauthError 400 "invalid_request" "client_id is required") fun clientId =>
  someOr (ret (nonEmpty p.redirectUri))
    (.oauthError 400 "invalid_request" "redirect_uri is required") fun requestedUri =>
  okOr (resolveRedirect app clientId requestedUri) id fun redirectUri =>
  someOr (ret (nonEmpty p.codeChallenge))
    (.oauthError 400 "invalid_request" "code_challenge is required (PKCE)") fun codeChallenge =>
  require (p.codeChallengeMethod = some "S256")
    (.oauthError 400 "invalid_request" "code_challenge_method must be S256") <|
  someOr (ret (nonEmpty p.state))
    (.oauthError 400 "invalid_request" "state is required") fun clientState =>
  someOr (ret app.auth) (.oauthError 500 "server_error" "auth not configured") fun _ =>
  startLogin app ⟨clientId, redirectUri, clientState, codeChallenge, p.resource⟩

/-- `register` (transport/oauth/register.rs:27). -/
def register (req : RegisterRequest) : AuthProg Response :=
  require (req.redirectUris ≠ [] ∧ req.redirectUris.all (isValidRedirectUri app.crates))
    (.oauthError 400 "invalid_redirect_uri"
      "redirect_uris must be non-empty; each loopback or https") do
  let clientId : String ← call .newClientId
  let inserted ← ClientRegistry.insert clientId req.redirectUris
  require inserted
    (.oauthError 503 "temporarily_unavailable"
      "client registration capacity reached; retry later") <|
  ret (.registered clientId req.redirectUris req.clientName)

/-! ## Tokens -/

/-- `issue_token_response` (transport/oauth/token.rs:160). -/
def issueTokenResponse (auth : AuthFacade) (identity : GrantIdentity) (chainIssuedAt : Option ℤ) :
    AuthProg Response :=
  okOr (SessionStore.create identity.sub identity.email identity.groups auth.config.sessionTtl none
    chainIssuedAt)
    (fun _ => .oauthError 500 "server_error" "could not create session") fun session =>
  someOr (call (.jwtIssue session.id identity.sub auth.config.sessionTtl))
    (.oauthError 500 "server_error" "could not issue token") fun (accessToken : String) => do
  let refreshToken : String ← call .randomToken
  let stored := ifSome chainIssuedAt
    (fun issuedAt => auth.refresh.insertRotated app.crates.sha256 refreshToken identity issuedAt)
    (auth.refresh.insert app.crates.sha256 refreshToken identity)
  okOr stored
    (fun _ => .oauthError 503 "server_error" "gateway temporarily overloaded; try again") fun _ =>
  ret (.tokens accessToken auth.config.sessionTtl refreshToken)

/-- `token_authorization_code` (transport/oauth/token.rs:65). -/
def tokenAuthorizationCode (auth : AuthFacade) (form : TokenForm) : AuthProg Response :=
  let required := .oauthError 400 "invalid_request" "code and code_verifier are required"
  someOr (ret form.code) required fun code =>
  someOr (ret form.codeVerifier) required fun verifier =>
  someOr (call (.codeTake (hashSecret app.crates.sha256 code)))
    (.oauthError 400 "invalid_grant" "authorization code is invalid or expired")
    fun (entry : AuthCode) =>
  require (∀ sent ∈ form.clientId, sent = entry.clientId)
    (.oauthError 400 "invalid_grant" "client_id mismatch") <|
  someOr (ret form.redirectUri)
    (.oauthError 400 "invalid_request" "redirect_uri is required") fun sent =>
  require (sent = entry.redirectUri)
    (.oauthError 400 "invalid_grant" "redirect_uri mismatch") <|
  require (verify app.crates verifier entry.codeChallenge)
    (.oauthError 400 "invalid_grant" "PKCE verification failed") <|
  issueTokenResponse app auth entry.identity none

/-- `token_refresh` (transport/oauth/token.rs:126). -/
def tokenRefresh (auth : AuthFacade) (form : TokenForm) : AuthProg Response :=
  someOr (ret form.refreshToken)
    (.oauthError 400 "invalid_request" "refresh_token is required") fun token =>
  someOr (auth.refresh.take app.crates.sha256 token)
    (.oauthError 400 "invalid_grant" "refresh token is invalid or expired") fun entry =>
  issueTokenResponse app auth entry.identity (some entry.issuedAt)

/-- `token` (transport/oauth/token.rs:37). -/
def token (form : TokenForm) : AuthProg Response :=
  require (form.grantType = some "authorization_code" ∨ form.grantType = some "refresh_token")
    (.oauthError 400 "unsupported_grant_type"
      "supported grant types: authorization_code, refresh_token") <|
  someOr (ret app.auth) (.oauthError 500 "server_error" "auth not configured") fun auth =>
  if form.grantType = some "refresh_token" then tokenRefresh app auth form
  else tokenAuthorizationCode app auth form

/-- `revoke` (transport/oauth/revoke.rs:34). -/
def revoke (presented : Option String) : AuthProg Response :=
  someOr (ret (nonEmpty presented))
    (.oauthError 400 "invalid_request" "token is required") fun token =>
  someOr (ret app.auth) (.oauthError 500 "server_error" "auth not configured") fun auth => do
  let _refreshRevoked ← auth.refresh.take app.crates.sha256 token
  someOr (call (.jwtVerify token)) .ok fun (claims : SessionClaims) => do
  let _sessionRevoked ← SessionStore.revoke claims.sid
  return .ok

/-! ## Authenticated routes -/

theorem authResp_utcNow : AuthResp .utcNow = ℤ := rfl

theorem authResp_newSessionId : AuthResp .newSessionId = SessionId := rfl

/-- `ServiceTokenStore::authenticate` (auth/service_token.rs:145); the session id and the
    time of issue are made up for each request. -/
@[simp] def authenticateService (auth : AuthFacade) (token : String) : AuthProg (Option Identity) := do
  let now ← call .utcNow authResp_utcNow
  someOr (ret (Auth.authenticate auth.serviceTokens token)) none fun identity => do
  let sessionId ← call .newSessionId authResp_newSessionId
  return some { toIdentity := identity, sessionId, issuedAt := now }

/-- `resolve_identity` (transport/auth_middleware.rs:71). -/
def resolveIdentity (token : String) : AuthProg (Except AuthError Identity) :=
  someOr (call (.jwtVerify token)) (.error .jwt) fun (claims : SessionClaims) =>
  SessionStore.lookup claims.sid

/-- `bearer_auth` (transport/auth_middleware.rs:28). -/
def bearerAuth (authorization : Option String) : AuthProg (Except Response Identity) :=
  someOr (ret app.auth) (.error (.unauthorized .missingBearer)) fun auth =>
  okOr (ret (bearerToken authorization)) (fun e => .error (.unauthorized e)) fun token => do
  let service ← authenticateService auth token
  ifSome service (fun identity => ret (.ok identity)) <|
    okOr (resolveIdentity token) (fun e => .error (.unauthorized e)) fun identity =>
    ret (.ok identity)

/-- `logout` (transport/auth_routes.rs:130). -/
def logout (identity : Identity) : AuthProg Response :=
  someOr (ret app.auth) (.authError .discovery) fun auth =>
  okOr (SessionStore.revoke identity.sessionId) .authError fun _ => do
  let _purged ← auth.refresh.purgeForSub identity.userSub
  return .noContent

/-- `require_admin_group` (transport/admin/middleware.rs:90). -/
def requireAdminGroup (requestIdHeader : Option String) (identity : Identity) :
    AuthProg Response := do
  let requestId ← ifSome (nonEmpty requestIdHeader) (fun id => ret id) (call .newRequestId)
  let admitted := ret (.admin ⟨identity.userSub, identity.userEmail, identity.groups, requestId⟩)
  require (identity.groups.contains app.admin.adminGroup) (.adminError .forbidden requestId) <|
  ifSome app.admin.maxSessionAge
    (fun maxAge => do
      let now ← call .utcNow authResp_utcNow
      let sessionAge := now - identity.issuedAt
      require (0 ≤ sessionAge ∧ sessionAge ≤ nanos maxAge.toNat)
        (.adminError .sessionTooOld requestId) admitted)
    admitted

/-- A tick of `spawn_oauth_state_gc` (startup.rs:34). -/
def gcTick : AuthProg Response :=
  someOr (ret app.auth) .ok fun auth => do
    (call .flowGc : AuthProg Unit)
    (call .codeGc : AuthProg Unit)
    auth.refresh.gcExpired
    return .ok

/-! ## The service -/

/-- A request to the gateway; `gc` is a tick of the background task. -/
inductive HttpCall
  | login
  | callback (code state : String)
  | authorize (params : AuthorizeParams)
  | register (req : RegisterRequest)
  | token (form : TokenForm)
  | revoke (presented : Option String)
  | logout (authorization : Option String)
  /-- A request to a route behind `bearer_auth`. -/
  | mcp (authorization : Option String)
  /-- A request to a route behind `bearer_auth` and `require_admin_group`. -/
  | admin (authorization requestId : Option String)
  | gc
  deriving DecidableEq

/-- What a call runs. -/
@[simp] def HttpCall.code : HttpCall → AuthProg Response
  | .login => Oauth.login app
  | .callback code state => Oauth.callback app code state
  | .authorize params => Oauth.authorize app params
  | .register req => Oauth.register app req
  | .token form => Oauth.token app form
  | .revoke presented => Oauth.revoke app presented
  | .logout authorization => okOr (bearerAuth app authorization) id (Oauth.logout app)
  | .mcp authorization => okOr (bearerAuth app authorization) id fun identity => ret (.next identity)
  | .admin authorization requestId =>
    okOr (bearerAuth app authorization) id (requireAdminGroup app requestId)
  | .gc => gcTick app

def HttpCall.texts : HttpCall → List String
  | .login | .gc => []
  | .callback code state => [code, state]
  | .authorize p =>
    [p.responseType, p.redirectUri, p.codeChallenge, p.codeChallengeMethod, p.state, p.clientId,
      p.resource].reduceOption
  | .register req => req.redirectUris ++ req.clientName.toList
  | .token form =>
    [form.grantType, form.code, form.redirectUri, form.codeVerifier, form.refreshToken,
      form.clientId].reduceOption
  | .revoke presented => presented.toList
  | .logout authorization | .mcp authorization =>
    authorization.toList ++ ((bearerToken authorization).toOption).toList
  | .admin authorization requestId =>
    authorization.toList ++ ((bearerToken authorization).toOption).toList ++ requestId.toList

def gateway (cfg : SessionCacheConfig) :
    Service AuthReq AuthResp AuthState Choice Stamp HttpCall Response :=
  service cfg (fun c => ⟨c.texts, []⟩) (HttpCall.code app)

end DbMcpGateway.Oauth
