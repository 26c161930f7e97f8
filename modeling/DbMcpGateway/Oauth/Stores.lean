import DbMcpGateway.Oauth.Effects

/-!
# The stores of the auth endpoints

`SessionStore` (auth/session.rs), `RefreshTokens` (transport/oauth_state.rs) and
`ClientRegistry` (transport/client_registry.rs) as programs over the statements and the map
operations they are made of. The production registry is modelled; the one in memory is for
tests.
-/

namespace DbMcpGateway.Oauth

open Async Async.Prog

/-- Await the reply to a request. -/
abbrev call {α : Type} (r : AuthReq) (h : AuthResp r = α := by rfl) : AuthProg α := askAs r h

/-- The value of an addition that panics on overflow. -/
def checked {α : Type} : Option α → AuthProg α
  | some a => ret a
  | none => await .panic fun x => nomatch x

@[simp] theorem issues_checked {α : Type} {o : Option α} {r : AuthReq}
    {es} :
    Issues (checked o) es r ↔ o = none ∧ es = [] ∧ r = .panic := by
  cases o with
  | some a => simp [checked]
  | none => simp [checked]

@[simp] theorem yields_checked {α : Type} {o} {a : α} {es} :
    Yields (checked o) es a ↔ es = [] ∧ o = some a := by
  cases o with
  | some b => simp [checked, eq_comm]
  | none => simp [checked]

/-! ## Sessions -/

namespace SessionStore

/-- `SessionStore::create` (auth/session.rs:159). -/
def create (userSub userEmail : String) (groups : List String) (ttl : Seconds)
    (agentClient : Option String) (originalIssuedAt : Option ℤ) :
    AuthProg (Except AuthError Session) := do
  let id : SessionId ← call .newSessionId
  let now : ℤ ← call .utcNow
  let expiresAt ← checked (deadline now ttl (nanos (8 * 3600)))
  let session : Session :=
    { id, userSub, userEmail, groups, agentClient, issuedAt := originalIssuedAt.getD now
      expiresAt, revokedAt := none }
  okOr (call (.insertSession session)) (fun e => .error (.state e)) fun (_ : Unit) => do
    (call (.cacheInsert id session) : AuthProg Unit)
    return .ok session

/-- `SessionStore::lookup` (auth/session.rs:207). -/
def lookup (id : SessionId) : AuthProg (Except AuthError Identity) := do
  let now : ℤ ← call .utcNow
  let cached : Option Session ← call (.cacheGet id now)
  ifSome cached (fun session => ret (.ok session.identity)) <|
    okOr (call (.selectSession id)) (fun e => .error (.state e)) fun (row : Option Session) =>
      ifSome row
        (fun session =>
          if session.isActive now then do
            (call (.cacheInsert id session) : AuthProg Unit)
            return .ok session.identity
          else do
            (call (.cacheRemove id) : AuthProg Unit)
            return .error .revokedSession)
        do
          (call (.cacheRemove id) : AuthProg Unit)
          return .error .invalidSession

/-- `SessionStore::revoke` (auth/session.rs:239). -/
def revoke (id : SessionId) : AuthProg (Except AuthError Unit) :=
  okOr (call (.revokeSession id)) (fun e => .error (.state e)) fun (_ : Unit) => do
    (call (.cacheRemove id) : AuthProg Unit)
    return .ok ()

section

variable {userSub userEmail : String} {groups : List String} {ttl : Seconds}
  {agentClient : Option String} {originalIssuedAt : Option ℤ} {session : Session} {es : AuthTrail}

def createTrail (session : Session) (now : ℤ) : AuthTrail :=
  [⟨.newSessionId, session.id⟩, ⟨.utcNow, now⟩, ⟨.insertSession session, .ok ()⟩,
    ⟨.cacheInsert session.id session, ()⟩]

theorem yields_create_ok :
    Yields (create userSub userEmail groups ttl agentClient originalIssuedAt) es (.ok session) ↔
      ∃ now expiresAt, deadline now ttl (nanos (8 * 3600)) = some expiresAt ∧
        session = ⟨session.id, userSub, userEmail, groups, agentClient, originalIssuedAt.getD now,
          expiresAt, none⟩ ∧
        es = createTrail session now := by
  simp [create, createTrail]
  constructor
  · rintro ⟨id, now, expiresAt, ⟨_, _, rfl⟩, hdeadline, rfl⟩
    exact ⟨now, expiresAt, hdeadline, rfl, rfl⟩
  · rintro ⟨now, expiresAt, hdeadline, hsession, rfl⟩
    refine ⟨session.id, now, expiresAt, ⟨(), (), ?_⟩, hdeadline, hsession⟩
    rw [← hsession]

end

end SessionStore

/-! ## Refresh tokens -/

/-- The two backends of `RefreshTokens` (transport/oauth_state.rs:393). -/
inductive RefreshBackend
  | db
  | memory
  deriving DecidableEq

/-- `struct RefreshTokens` (transport/oauth_state.rs:393). -/
structure RefreshTokens where
  backend : RefreshBackend
  ttl : Seconds
  deriving DecidableEq

/-- `hash_secret` (transport/oauth_state.rs:64). -/
def hashSecret (sha256 : List UInt8 → Digest) (secret : String) : Digest :=
  sha256 (Auth.asBytes secret)

namespace RefreshTokens

variable (tokens : RefreshTokens) (sha256 : List UInt8 → Digest)

/-- The upsert at the end of `store_db`. -/
def upsertRow (tokenHash : Digest) (identity : GrantIdentity) (issuedAt : ℤ) (ttl : Seconds) :
    AuthProg (Except SqlxError Unit) := do
  let expiresAt ← checked (deadline issuedAt ttl (nanos (24 * 3600)))
  call (.refreshUpsert
    ⟨tokenHash, identity.sub, identity.email, identity.groups, issuedAt, expiresAt⟩)

/-- `store_db` (transport/oauth_state.rs:601). -/
def storeDb (tokenHash : Digest) (identity : GrantIdentity) (issuedAt : ℤ) (ttl : Seconds) :
    AuthProg (Except SqlxError Unit) :=
  okOr (call (.refreshExists tokenHash)) .error fun (found : Bool) =>
    if found then upsertRow tokenHash identity issuedAt ttl
    else
      okOr (call .refreshCount) .error fun (count : ℕ) =>
        require (count < refreshTokensMaxSize) (.error (.protocol "refresh token store full")) <|
          upsertRow tokenHash identity issuedAt ttl

/-- `store` (transport/oauth_state.rs:477). -/
def store (token : String) (identity : GrantIdentity) (issuedAt : ℤ) :
    AuthProg (Except StoreError Unit) :=
  match tokens.backend with
  | .db =>
    okOr (storeDb (hashSecret sha256 token) identity issuedAt tokens.ttl) (fun _ => .error .backend)
      fun _ => return .ok ()
  | .memory => call (.memoryStore (hashSecret sha256 token) ⟨identity, issuedAt⟩)

/-- `RefreshTokens::insert` (transport/oauth_state.rs:462). -/
@[simp] def insert (token : String) (identity : GrantIdentity) : AuthProg (Except StoreError Unit) := do
  let now : ℤ ← call .utcNow
  tokens.store sha256 token identity now

/-- `RefreshTokens::insert_rotated` (transport/oauth_state.rs:468). -/
@[simp] def insertRotated (token : String) (identity : GrantIdentity) (issuedAt : ℤ) :
    AuthProg (Except StoreError Unit) :=
  tokens.store sha256 token identity issuedAt

/-- `RefreshTokens::take` (transport/oauth_state.rs:519). -/
def take (token : String) : AuthProg (Option RefreshToken) :=
  match tokens.backend with
  | .db =>
    okOr (call (.refreshTake (hashSecret sha256 token))) (fun (_ : SqlxError) => none)
      fun (found : Option RefreshToken) =>
        someOr (ret found) none fun token => do
          let now : ℤ ← call .utcNow
          return if chainExpired token.issuedAt now tokens.ttl then none else some token
  | .memory => call (.memoryTake tokens.ttl (hashSecret sha256 token))

/-- `RefreshTokens::purge_for_sub` (transport/oauth_state.rs:550). -/
def purgeForSub (sub : String) : AuthProg ℕ :=
  match tokens.backend with
  | .db => okOr (call (.refreshPurge sub)) (fun (_ : SqlxError) => 0) fun (purged : ℕ) => ret purged
  | .memory => call (.memoryPurge sub)

/-- `RefreshTokens::gc_expired` (transport/oauth_state.rs:577). -/
def gcExpired : AuthProg Unit :=
  match tokens.backend with
  | .db => okOr (call .refreshGc) (fun (_ : SqlxError) => ()) fun (_ : Unit) => ret ()
  | .memory => call (.memoryGc tokens.ttl)

end RefreshTokens

/-! ## Registered clients -/

namespace ClientRegistry

/-- The upsert at the end of `insert_db`. -/
def upsertRow (clientId : String) (redirectUris : List String) :
    AuthProg (Except SqlxError Bool) := do
  let now : ℤ ← call .utcNow
  let expiresAt ← checked (deadline now clientTtl (nanos (24 * 3600)))
  okOr (call (.clientUpsert clientId redirectUris expiresAt)) .error fun (_ : Unit) =>
    ret (.ok true)

/-- `insert_db` (transport/client_registry.rs:175). -/
@[simp] def insertDb (clientId : String) (redirectUris : List String) :
    AuthProg (Except SqlxError Bool) :=
  okOr (call .clientsGc) .error fun (_ : Unit) =>
  okOr (call (.clientExists clientId)) .error fun (found : Bool) =>
    if found then upsertRow clientId redirectUris
    else
      okOr (call .clientCount) .error fun (count : ℕ) =>
        require (count < clientCap) (.ok false) <| upsertRow clientId redirectUris

/-- `ClientRegistry::insert` (transport/client_registry.rs:117). -/
def insert (clientId : String) (redirectUris : List String) : AuthProg Bool :=
  okOr (insertDb clientId redirectUris) (fun _ => false) ret

/-- `touch_db` (transport/client_registry.rs:223). -/
@[simp] def touchDb (clientId : String) : AuthProg (Except SqlxError (Option (List String))) := do
  let now : ℤ ← call .utcNow
  let expiresAt ← checked (deadline now clientTtl (nanos (90 * 24 * 3600)))
  call (.clientTouch clientId expiresAt)

/-- `ClientRegistry::redirect_uris` (transport/client_registry.rs:153). -/
def redirectUris (clientId : String) : AuthProg (Option (List String)) :=
  okOr (touchDb clientId) (fun _ => none) ret

end ClientRegistry

end DbMcpGateway.Oauth
