import DbMcpGateway.Async.Passage
import DbMcpGateway.Auth.ServiceToken
import DbMcpGateway.Oauth.State

/-!
# What the auth endpoints ask of their environment

The requests of the session store, the OAuth stores and the handlers above them: clocks,
random values, statements on the state DB, operations on the maps behind locks, the session
JWT and the identity provider. `AuthState` is everything they share, `serve` one request on
it.

Statements may fail. Random values are not in use: they differ from every value drawn or
presented so far. Session JWTs cannot be forged: the tokens that verify are the ones that
were issued. What the identity provider answers is arbitrary.
-/

namespace DbMcpGateway.Oauth

open Async

/-! ## Requests -/

/-- `enum AuthError` (auth/errors.rs:8). -/
inductive AuthError
  | httpClient
  | discovery
  | codeExchange
  | idToken
  | emailUnverified
  | invalidSession
  | revokedSession
  | missingBearer
  | state (source : SqlxError)
  | jwt
  | storeFull
  deriving DecidableEq

/-- `struct SessionClaims` (auth/jwt.rs:19); every token has the same issuer. -/
structure SessionClaims where
  sub : String
  sid : SessionId
  iat : UInt64
  exp : UInt64
  deriving DecidableEq

inductive AuthReq
  /-- `Utc::now()`. -/
  | utcNow
  /-- `random_token()`. -/
  | randomToken
  /-- `format!("mcp-{}", Uuid::new_v4().simple())`. -/
  | newClientId
  /-- `Uuid::new_v4().to_string()`. -/
  | newRequestId
  /-- `SessionId::new()`. -/
  | newSessionId
  /-- A panic: the request is never answered. -/
  | panic
  | insertSession (row : Session)
  | selectSession (id : SessionId)
  | revokeSession (id : SessionId)
  | cacheGet (id : SessionId) (now : ℤ)
  | cacheInsert (id : SessionId) (session : Session)
  | cacheRemove (id : SessionId)
  | jwtIssue (sessionId : SessionId) (userSub : String) (ttl : Seconds)
  | jwtVerify (token : String)
  | flowInsert (state nonce idpVerifier : String) (bridge : Option OAuthBridge)
  | flowTake (state : String)
  | flowGc
  | codeInsert (hash : Digest) (identity : GrantIdentity)
      (codeChallenge redirectUri clientId : String)
  | codeTake (hash : Digest)
  | codeGc
  | refreshExists (hash : Digest)
  | refreshCount
  | refreshUpsert (row : RefreshRow)
  | refreshTake (hash : Digest)
  | refreshPurge (sub : String)
  | refreshGc
  | memoryStore (hash : Digest) (token : RefreshToken)
  | memoryTake (ttl : Seconds) (hash : Digest)
  | memoryPurge (sub : String)
  | memoryGc (ttl : Seconds)
  | authorizeUrl (state nonce codeChallenge : String)
  | exchangeAndVerify (code nonce codeVerifier : String)
  | clientsGc
  | clientExists (clientId : String)
  | clientCount
  | clientUpsert (clientId : String) (redirectUris : List String) (expiresAt : ℤ)
  | clientTouch (clientId : String) (expiresAt : ℤ)
  deriving DecidableEq

abbrev AuthResp : AuthReq → Type
  | .utcNow => ℤ
  | .randomToken => String
  | .newClientId => String
  | .newRequestId => String
  | .newSessionId => SessionId
  | .panic => Empty
  | .insertSession _ => Except SqlxError Unit
  | .selectSession _ => Except SqlxError (Option Session)
  | .revokeSession _ => Except SqlxError Unit
  | .cacheGet _ _ => Option Session
  | .cacheInsert _ _ => Unit
  | .cacheRemove _ => Unit
  | .jwtIssue _ _ _ => Option String
  | .jwtVerify _ => Option SessionClaims
  | .flowInsert _ _ _ _ => Except StoreError Unit
  | .flowTake _ => Option PendingFlow
  | .flowGc => Unit
  | .codeInsert _ _ _ _ _ => Except StoreError Unit
  | .codeTake _ => Option AuthCode
  | .codeGc => Unit
  | .refreshExists _ => Except SqlxError Bool
  | .refreshCount => Except SqlxError ℕ
  | .refreshUpsert _ => Except SqlxError Unit
  | .refreshTake _ => Except SqlxError (Option RefreshToken)
  | .refreshPurge _ => Except SqlxError ℕ
  | .refreshGc => Except SqlxError Unit
  | .memoryStore _ _ => Except StoreError Unit
  | .memoryTake _ _ => Option RefreshToken
  | .memoryPurge _ => ℕ
  | .memoryGc _ => Unit
  | .authorizeUrl _ _ _ => Except AuthError String
  | .exchangeAndVerify _ _ _ => Except AuthError GrantIdentity
  | .clientsGc => Except SqlxError Unit
  | .clientExists _ => Except SqlxError Bool
  | .clientCount => Except SqlxError ℕ
  | .clientUpsert _ _ _ => Except SqlxError Unit
  | .clientTouch _ _ => Except SqlxError (Option (List String))

/-- An `async fn` of the auth endpoints. -/
abbrev AuthProg := Prog AuthReq AuthResp

/-- What a call has exchanged. -/
abbrev AuthTrail := List (Exchange AuthReq AuthResp)

/-- The error reply of a statement. -/
def failure : (r : AuthReq) → Option (AuthResp r)
  | .insertSession _ => some (.error .unavailable)
  | .selectSession _ => some (.error .unavailable)
  | .revokeSession _ => some (.error .unavailable)
  | .refreshExists _ => some (.error .unavailable)
  | .refreshCount => some (.error .unavailable)
  | .refreshUpsert _ => some (.error .unavailable)
  | .refreshTake _ => some (.error .unavailable)
  | .refreshPurge _ => some (.error .unavailable)
  | .refreshGc => some (.error .unavailable)
  | .clientsGc => some (.error .unavailable)
  | .clientExists _ => some (.error .unavailable)
  | .clientCount => some (.error .unavailable)
  | .clientUpsert _ _ _ => some (.error .unavailable)
  | .clientTouch _ _ => some (.error .unavailable)
  | _ => none

/-! ## The shared state -/

structure IssuedJwt where
  token : String
  claims : SessionClaims
  deriving DecidableEq

structure AuthState where
  /-- The wall clock, of the gateway and of the state DB. -/
  wall : ℤ
  /-- The monotonic clock. -/
  mono : ℕ
  /-- Texts that were drawn or presented. -/
  used : List String
  /-- Session ids that were drawn or presented. -/
  usedIds : List SessionId
  sessions : Table Session.id
  cache : SessionMap
  jwts : List IssuedJwt
  flows : PendingFlows
  codes : AuthCodes
  refresh : RefreshRows
  refreshMap : RefreshMap
  clients : ClientRows

/-- A fresh install. -/
def AuthState.init (wall : ℤ) : AuthState where
  wall
  mono := 0
  used := []
  usedIds := []
  sessions := .empty
  cache := .empty
  jwts := []
  flows := .empty
  codes := .empty
  refresh := .empty
  refreshMap := .empty
  clients := .empty

/-- What the state does not determine. -/
inductive Choice
  | go
  /-- A random text. -/
  | draw (value : String)
  /-- A random id. -/
  | drawId (value : SessionId)
  /-- The result of the JWT encoder. -/
  | sign (token : Option String)
  /-- The entry a full cache evicts. -/
  | evict (oldest : SessionId)
  /-- The answer of the identity provider. -/
  | url (answer : Except AuthError String)
  | verified (answer : Except AuthError GrantIdentity)
  /-- Both clocks move. -/
  | clock (wall : ℤ) (mono : ℕ)
  deriving DecidableEq

/-- `unix_now` (auth/jwt.rs:63). -/
def unixNow (wall : ℤ) : UInt64 := UInt64.ofNat (wall / 1000000000 + 946684800).toNat

/-- `jwt::verify` (auth/jwt.rs:49), on the claims of a token with a valid signature: the
    leeway of `jsonwebtoken` is 60 seconds. -/
def SessionClaims.valid (claims : SessionClaims) (now : UInt64) : Bool :=
  !(claims.exp.toNat < now.toNat - 60)

namespace AuthState

variable (s : AuthState)

/-- A text is drawn. -/
def draw (value : String) : AuthState := { s with used := value :: s.used }

/-- The INSERT of `SessionStore::create`, with the CHECK and the primary key of the table. -/
def insertSession (row : Session) : Except SqlxError Unit × AuthState :=
  if row.stored.issuedAt < row.stored.expiresAt && (s.sessions.get row.id).isNone then
    (.ok (), { s with sessions := s.sessions.put row.stored })
  else (.error .constraint, s)

/-- The UPDATE of `SessionStore::revoke`. -/
def revokeSession (id : SessionId) : AuthState :=
  match s.sessions.get id with
  | some row =>
    if row.revokedAt.isNone then
      { s with sessions := s.sessions.put { row with revokedAt := some (timestamptz s.wall) } }
    else s
  | none => s

/-- `jwt::issue` (auth/jwt.rs:27). -/
def issueJwt (sessionId : SessionId) (userSub : String) (ttl : Seconds) (token : String) :
    AuthState :=
  let now := unixNow s.wall
  { s with
    used := token :: s.used
    jwts := s.jwts ++ [⟨token, ⟨userSub, sessionId, now, now + ttl⟩⟩] }

/-- `jwt::verify` (auth/jwt.rs:49). -/
def verifyJwt (token : String) : Option SessionClaims :=
  match s.jwts.find? fun j => j.token == token with
  | some j => if j.claims.valid (unixNow s.wall) then some j.claims else none
  | none => none

end AuthState

/-- One request on the shared state. -/
def serve (cfg : SessionCacheConfig) (s : AuthState) (o : Choice) :
    (r : AuthReq) → Option (AuthResp r × AuthState)
  | .utcNow => some (s.wall, s)
  | .randomToken =>
    match o with
    | .draw value => if value ∈ s.used then none else some (value, s.draw value)
    | _ => none
  | .newClientId =>
    match o with
    | .draw value =>
      if "mcp-" ++ value ∈ s.used then none else some ("mcp-" ++ value, s.draw ("mcp-" ++ value))
    | _ => none
  | .newRequestId =>
    match o with
    | .draw value => if value ∈ s.used then none else some (value, s.draw value)
    | _ => none
  | .newSessionId =>
    match o with
    | .drawId id => if id ∈ s.usedIds then none else some (id, { s with usedIds := id :: s.usedIds })
    | _ => none
  | .panic => none
  | .insertSession row => some (s.insertSession row)
  | .selectSession id => some (.ok (s.sessions.get id), s)
  | .revokeSession id => some (.ok (), s.revokeSession id)
  | .cacheGet id now => some (cfg.get s.cache s.mono id now, s)
  | .cacheInsert id session =>
    let oldest := match o with
      | .evict oldest => oldest
      | _ => id
    (cfg.insert s.cache s.mono oldest id session).map fun cache => ((), { s with cache })
  | .cacheRemove id => some ((), { s with cache := s.cache.remove id })
  | .jwtIssue sessionId userSub ttl =>
    match o with
    | .sign none => some (none, s)
    | .sign (some token) =>
      if token ∈ s.used then none else some (some token, s.issueJwt sessionId userSub ttl token)
    | _ => none
  | .jwtVerify token => some (s.verifyJwt token, s)
  | .flowInsert state nonce idpVerifier bridge =>
    let after := s.flows.insertFlow s.mono state nonce idpVerifier bridge
    some (after.1, { s with flows := after.2 })
  | .flowTake state =>
    let after := s.flows.take s.mono state
    some (after.1, { s with flows := after.2 })
  | .flowGc => some ((), { s with flows := s.flows.gcExpired s.mono })
  | .codeInsert hash identity codeChallenge redirectUri clientId =>
    let after := s.codes.insert s.mono hash identity codeChallenge redirectUri clientId
    some (after.1, { s with codes := after.2 })
  | .codeTake hash =>
    let after := s.codes.take s.mono hash
    some (after.1, { s with codes := after.2 })
  | .codeGc => some ((), { s with codes := s.codes.gcExpired s.mono })
  | .refreshExists hash => some (.ok (s.refresh.get hash).isSome, s)
  | .refreshCount => some (.ok s.refresh.rows.length, s)
  | .refreshUpsert row =>
    let after := s.refresh.upsert row
    some (after.1, { s with refresh := after.2 })
  | .refreshTake hash =>
    let after := s.refresh.take s.wall hash
    some (.ok after.1, { s with refresh := after.2 })
  | .refreshPurge sub =>
    let refresh := s.refresh.purge sub
    some (.ok (s.refresh.rows.length - refresh.rows.length), { s with refresh })
  | .refreshGc => some (.ok (), { s with refresh := s.refresh.gc s.wall })
  | .memoryStore hash token =>
    let after := s.refreshMap.store hash token
    some (after.1, { s with refreshMap := after.2 })
  | .memoryTake ttl hash =>
    let after := s.refreshMap.take s.wall ttl hash
    some (after.1, { s with refreshMap := after.2 })
  | .memoryPurge sub =>
    let refreshMap := s.refreshMap.purge sub
    some (s.refreshMap.rows.length - refreshMap.rows.length, { s with refreshMap })
  | .memoryGc ttl => some ((), { s with refreshMap := s.refreshMap.gc s.wall ttl })
  | .authorizeUrl _ _ _ =>
    match o with
    | .url answer => some (answer, s)
    | _ => none
  | .exchangeAndVerify _ _ _ =>
    match o with
    | .verified answer => some (answer, s)
    | _ => none
  | .clientsGc => some (.ok (), { s with clients := s.clients.gc s.wall })
  | .clientExists clientId => some (.ok (s.clients.get clientId).isSome, s)
  | .clientCount => some (.ok s.clients.rows.length, s)
  | .clientUpsert clientId redirectUris expiresAt =>
    let after := s.clients.upsert s.wall clientId redirectUris expiresAt
    some (after.1, { s with clients := after.2 })
  | .clientTouch clientId expiresAt =>
    let after := s.clients.touch s.wall clientId expiresAt
    some (after.1, { s with clients := after.2 })

/-- The clocks move; the monotonic one does not go back. -/
def tick (s : AuthState) : Choice → Option AuthState
  | .clock wall mono => if s.mono ≤ mono then some { s with wall, mono } else none
  | _ => none

/-- The moment of a request. -/
structure Stamp where
  wall : ℤ
  mono : ℕ
  deriving DecidableEq

/-- Calls on the shared state. -/
abbrev AuthPool (C α : Type) := Pool AuthReq AuthResp AuthState Stamp C α

/-- What a call presents. -/
structure Presented where
  texts : List String
  ids : List SessionId

/-- The service of some calls. -/
def service {C α : Type} (cfg : SessionCacheConfig) (presents : C → Presented)
    (code : C → AuthProg α) : Service AuthReq AuthResp AuthState Choice Stamp C α where
  serve := serve cfg
  failure
  env := tick
  accept s c :=
    { s with used := (presents c).texts ++ s.used, usedIds := (presents c).ids ++ s.usedIds }
  stamp s := ⟨s.wall, s.mono⟩
  code

end DbMcpGateway.Oauth
