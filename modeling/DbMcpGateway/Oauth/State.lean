import DbMcpGateway.Data.Expiring
import DbMcpGateway.Oauth.Session

/-!
# Flow state of the OAuth bridge

The stores of transport/oauth_state.rs: pending logins, authorization codes and refresh
tokens, and the registrations of transport/client_registry.rs. Pending logins and codes are
maps behind a lock, so each operation is one step. Refresh tokens have two backends: rows of
`oauth_refresh_tokens` (migrations/0009_oauth_refresh_tokens.sql), touched by single
statements, and a map behind a lock. Registrations are rows of `oauth_clients`
(migrations/0008_oauth_clients.sql).

Results:

* `PendingFlows.mem_insertFlow`, `AuthCodes.mem_insert`, `RefreshRows.mem_upsert`: what is in a
  store after an insertion.
* `PendingFlows.take_some`, `AuthCodes.take_some`, `RefreshRows.take_some`: what is taken was
  there and has not expired.
* `loginStores_sound`: pending logins and codes are bounded, taken once and never dropped before
  they expire.
-/

namespace DbMcpGateway.Oauth

/-- A map with the entries as pairs. -/
abbrev HashMap (κ β : Type) [DecidableEq κ] := Table (Prod.fst : κ × β → κ)

/-- A SHA-256 digest. -/
abbrev Digest := List UInt8

/-- `enum StoreError` (transport/oauth_state.rs:40). -/
inductive StoreError
  | storeFull
  | backend
  deriving DecidableEq

/-- A failed statement: a violated constraint, no answer, or an error the gateway makes. -/
inductive SqlxError
  | constraint
  | unavailable
  | protocol (message : String)
  deriving DecidableEq

/-! ## Pending flows -/

/-- `PENDING_FLOWS_MAX_SIZE` (transport/oauth_state.rs:28). -/
def pendingFlowsMaxSize : ℕ := 10000

/-- `FLOW_TTL` (transport/oauth_state.rs:77). -/
def flowTtl : ℕ := nanos (15 * 60)

/-- `struct OAuthBridge` (transport/oauth_state.rs:84). -/
structure OAuthBridge where
  clientId : String
  clientRedirectUri : String
  clientState : String
  codeChallenge : String
  resource : Option String
  deriving DecidableEq

/-- `struct PendingFlow` (transport/oauth_state.rs:104). -/
structure PendingFlow where
  nonce : String
  idpVerifier : String
  bridge : Option OAuthBridge
  expiresAt : ℕ
  deriving DecidableEq

/-- `struct PendingFlows` (transport/oauth_state.rs:99). -/
abbrev PendingFlows := HashMap String PendingFlow

namespace PendingFlows

/-- `PendingFlows::gc_expired` (transport/oauth_state.rs:195). -/
def gcExpired (map : PendingFlows) (mono : ℕ) : PendingFlows :=
  map.retain fun e => mono < e.2.expiresAt

/-- `PendingFlows::insert_flow` (transport/oauth_state.rs:139). -/
def insertFlow (map : PendingFlows) (mono : ℕ) (state nonce idpVerifier : String)
    (bridge : Option OAuthBridge) : Except StoreError Unit × PendingFlows :=
  let map := if pendingFlowsMaxSize ≤ map.rows.length then map.gcExpired mono else map
  if pendingFlowsMaxSize ≤ map.rows.length then (.error .storeFull, map)
  else (.ok (), map.put (state, ⟨nonce, idpVerifier, bridge, mono + flowTtl⟩))

/-- `PendingFlows::take` (transport/oauth_state.rs:178). -/
def take (map : PendingFlows) (mono : ℕ) (state : String) : Option PendingFlow × PendingFlows :=
  match map.get state with
  | some (_, flow) => (if mono < flow.expiresAt then some flow else none, map.remove state)
  | none => (none, map)

variable {map : PendingFlows} {mono : ℕ} {state nonce idpVerifier : String}
  {bridge : Option OAuthBridge} {e : String × PendingFlow}

def store : Expiring.Store String (String × String × Option OAuthBridge) PendingFlow StoreError where
  cap := pendingFlowsMaxSize
  full := .storeFull
  value mono a := ⟨a.1, a.2.1, a.2.2, mono + flowTtl⟩
  expires := PendingFlow.expiresAt
  insert map mono state a := PendingFlows.insertFlow map mono state a.1 a.2.1 a.2.2
  take := PendingFlows.take
  gc := PendingFlows.gcExpired

theorem store_isBounded : Expiring.IsBounded store where
  insert := rfl
  take := by
    funext map mono state
    dsimp only [store, Expiring.bounded, PendingFlows.take]
    cases map.get state <;> rfl
  gc := rfl

theorem mem_insertFlow (h : e ∈ (map.insertFlow mono state nonce idpVerifier bridge).2.rows) :
    e ∈ map.rows ∨ (map.insertFlow mono state nonce idpVerifier bridge).1 = .ok () ∧
      e = (state, ⟨nonce, idpVerifier, bridge, mono + flowTtl⟩) :=
  Expiring.mem_insert store_isBounded (a := (nonce, idpVerifier, bridge)) h

theorem mem_take (h : e ∈ (map.take mono state).2.rows) : e ∈ map.rows :=
  ((Expiring.mem_take store_isBounded).mp h).1

theorem take_some {flow : PendingFlow} (h : (map.take mono state).1 = some flow) :
    (state, flow) ∈ map.rows ∧ mono < flow.expiresAt :=
  (Expiring.take_eq_some store_isBounded).mp h

end PendingFlows

/-! ## Authorization codes -/

/-- `AUTH_CODES_MAX_SIZE` (transport/oauth_state.rs:32). -/
def authCodesMaxSize : ℕ := 10000

/-- `CODE_TTL` (transport/oauth_state.rs:224). -/
def codeTtl : ℕ := nanos 60

/-- `struct GrantIdentity` (transport/oauth_state.rs:229). `VerifiedIdentity`
    (auth/oidc/types.rs:37) has the same fields. -/
structure GrantIdentity where
  sub : String
  email : String
  groups : List String
  deriving DecidableEq

/-- `struct AuthCode` (transport/oauth_state.rs:245). -/
structure AuthCode where
  identity : GrantIdentity
  codeChallenge : String
  redirectUri : String
  clientId : String
  expiresAt : ℕ
  deriving DecidableEq

/-- `struct AuthCodes` (transport/oauth_state.rs:240). -/
abbrev AuthCodes := HashMap Digest AuthCode

namespace AuthCodes

/-- `AuthCodes::gc_expired` (transport/oauth_state.rs:312). -/
def gcExpired (map : AuthCodes) (mono : ℕ) : AuthCodes := map.retain fun e => mono < e.2.expiresAt

/-- `AuthCodes::insert` (transport/oauth_state.rs:259). -/
def insert (map : AuthCodes) (mono : ℕ) (hash : Digest) (identity : GrantIdentity)
    (codeChallenge redirectUri clientId : String) : Except StoreError Unit × AuthCodes :=
  let map := if authCodesMaxSize ≤ map.rows.length then map.gcExpired mono else map
  if authCodesMaxSize ≤ map.rows.length then (.error .storeFull, map)
  else (.ok (), map.put (hash, ⟨identity, codeChallenge, redirectUri, clientId, mono + codeTtl⟩))

/-- `AuthCodes::take` (transport/oauth_state.rs:295). -/
def take (map : AuthCodes) (mono : ℕ) (hash : Digest) : Option AuthCode × AuthCodes :=
  match map.get hash with
  | some (_, code) => (if mono < code.expiresAt then some code else none, map.remove hash)
  | none => (none, map)

variable {map : AuthCodes} {mono : ℕ} {hash : Digest} {identity : GrantIdentity}
  {codeChallenge redirectUri clientId : String} {e : Digest × AuthCode}

/-- The codes as a map whose entries expire. -/
def store : Expiring.Store Digest (GrantIdentity × String × String × String) AuthCode StoreError where
  cap := authCodesMaxSize
  full := .storeFull
  value mono a := ⟨a.1, a.2.1, a.2.2.1, a.2.2.2, mono + codeTtl⟩
  expires := AuthCode.expiresAt
  insert map mono hash a := AuthCodes.insert map mono hash a.1 a.2.1 a.2.2.1 a.2.2.2
  take := AuthCodes.take
  gc := AuthCodes.gcExpired

theorem store_isBounded : Expiring.IsBounded store where
  insert := rfl
  take := by
    funext map mono hash
    dsimp only [store, Expiring.bounded, AuthCodes.take]
    cases map.get hash <;> rfl
  gc := rfl

theorem mem_insert
    (h : e ∈ (map.insert mono hash identity codeChallenge redirectUri clientId).2.rows) :
    e ∈ map.rows ∨ (map.insert mono hash identity codeChallenge redirectUri clientId).1 = .ok () ∧
      e = (hash, ⟨identity, codeChallenge, redirectUri, clientId, mono + codeTtl⟩) :=
  Expiring.mem_insert store_isBounded (a := (identity, codeChallenge, redirectUri, clientId)) h

theorem mem_take (h : e ∈ (map.take mono hash).2.rows) : e ∈ map.rows :=
  ((Expiring.mem_take store_isBounded).mp h).1

theorem take_some {code : AuthCode} (h : (map.take mono hash).1 = some code) :
    ((hash, code) ∈ map.rows ∧ mono < code.expiresAt) ∧ (map.take mono hash).2.get hash = none := by
  refine ⟨(Expiring.take_eq_some store_isBounded).mp h, Table.get_eq_none.mpr fun e he => ?_⟩
  exact ((Expiring.mem_take store_isBounded).mp he).2

end AuthCodes

/-- **The login stores are bounded, one-time and never drop live entries**, over every history of
    insertions with fresh keys, takes and collections at times that do not go back. -/
theorem loginStores_sound : Expiring.Sound PendingFlows.store ∧ Expiring.Sound AuthCodes.store :=
  ⟨Expiring.sound_of_isBounded PendingFlows.store_isBounded,
    Expiring.sound_of_isBounded AuthCodes.store_isBounded⟩

def codeHistory : List (ℕ × Expiring.Op Digest (GrantIdentity × String × String × String)) :=
  [(0, .insert [1] (⟨"alice", "alice@example.com", []⟩, "challenge", "http://127.0.0.1/cb", "mcp-a")),
    (1, .gc)]

def storedCode : AuthCode :=
  ⟨⟨"alice", "alice@example.com", []⟩, "challenge", "http://127.0.0.1/cb", "mcp-a", codeTtl⟩

/-- A code is kept by a collection, taken in its lifetime, and not taken at its end. -/
theorem loginStores_sound_code :
    ([1], storedCode) ∈ (AuthCodes.store.after (codeHistory ++ [(2, .gc)])).rows ∧
    (AuthCodes.store.take (AuthCodes.store.after codeHistory) 2 [1]).1 = some storedCode ∧
    (AuthCodes.store.take (AuthCodes.store.after codeHistory) codeTtl [1]).1 ≠ some storedCode := by
  have hstored : AuthCodes.store.Stored codeHistory [1] storedCode :=
    ⟨[], 0, _, [(1, .gc)], rfl, rfl, rfl, by simp⟩
  refine ⟨?_, ?_, fun h => ?_⟩
  · exact loginStores_sound.2.kept codeHistory 2 .gc ⟨by decide, by decide⟩ ([1], storedCode)
      (by decide) (by decide) nofun
  · exact (loginStores_sound.2.taken codeHistory 2 [1] storedCode ⟨by decide, by decide⟩).mpr
      ⟨hstored, by decide⟩
  · have htaken := loginStores_sound.2.taken codeHistory codeTtl [1] storedCode
      ⟨by decide, by decide⟩
    exact absurd (htaken.mp h).2 (by decide)

/-! ## Refresh tokens -/

/-- `REFRESH_TOKENS_MAX_SIZE` (transport/oauth_state.rs:36). -/
def refreshTokensMaxSize : ℕ := 100000

/-- `struct RefreshToken` (transport/oauth_state.rs:426). -/
structure RefreshToken where
  identity : GrantIdentity
  issuedAt : ℤ
  deriving DecidableEq

/-- A row of `oauth_refresh_tokens`. -/
structure RefreshRow where
  tokenHash : Digest
  userSub : String
  email : String
  groups : List String
  chainIssuedAt : ℤ
  expiresAt : ℤ
  deriving DecidableEq

namespace RefreshRow

/-- The row as the table keeps it. -/
def stored (row : RefreshRow) : RefreshRow :=
  { row with
    chainIssuedAt := timestamptz row.chainIssuedAt
    expiresAt := timestamptz row.expiresAt }

/-- What the statement of `take_db` returns of a row. -/
def token (row : RefreshRow) : RefreshToken :=
  ⟨⟨row.userSub, row.email, row.groups⟩, row.chainIssuedAt⟩

end RefreshRow

/-- The table `oauth_refresh_tokens`. -/
abbrev RefreshRows := Table RefreshRow.tokenHash

namespace RefreshRows

/-- The upsert of `store_db`, with the CHECK of the table. -/
def upsert (rows : RefreshRows) (row : RefreshRow) : Except SqlxError Unit × RefreshRows :=
  if row.stored.chainIssuedAt < row.stored.expiresAt then (.ok (), rows.put row.stored)
  else (.error .constraint, rows)

/-- The DELETE ... RETURNING of `take_db`. -/
def take (rows : RefreshRows) (now : ℤ) (hash : Digest) : Option RefreshToken × RefreshRows :=
  match rows.get hash with
  | some row => if timestamptz now < row.expiresAt then (some row.token, rows.remove hash)
    else (none, rows)
  | none => (none, rows)

/-- The DELETE of `purge_for_sub`. -/
def purge (rows : RefreshRows) (sub : String) : RefreshRows := rows.retain fun r => r.userSub ≠ sub

/-- The DELETE of `gc_expired`. -/
def gc (rows : RefreshRows) (now : ℤ) : RefreshRows :=
  rows.retain fun r => timestamptz now < r.expiresAt

variable {rows : RefreshRows} {row r : RefreshRow} {now : ℤ} {hash : Digest}

theorem mem_upsert (h : r ∈ (rows.upsert row).2.rows) :
    r ∈ rows.rows ∨ (rows.upsert row).1 = .ok () ∧ r = row.stored := by
  unfold upsert at h ⊢
  split_ifs at h ⊢
  · rcases Table.mem_put.mp h with rfl | ⟨h, -⟩
    · exact .inr ⟨rfl, rfl⟩
    · exact .inl h
  · exact .inl h

theorem mem_take (h : r ∈ (rows.take now hash).2.rows) : r ∈ rows.rows := by
  unfold take at h
  split at h
  · split_ifs at h
    · exact (Table.mem_remove.mp h).1
    · exact h
  · exact h

theorem take_some {token} (h : (rows.take now hash).1 = some token) :
    (∃ row ∈ rows.rows, row.tokenHash = hash ∧ row.token = token ∧ timestamptz now < row.expiresAt) ∧
      (rows.take now hash).2.get hash = none := by
  unfold take at h ⊢
  split at h
  · rename_i row hget
    split_ifs at h ⊢ with hlive
    cases h
    obtain ⟨hmem, rfl⟩ := Table.get_eq_some.mp hget
    exact ⟨⟨row, hmem, rfl, rfl, hlive⟩, by rw [Table.get_remove, if_pos rfl]⟩
  · cases h

end RefreshRows

/-- The map of the in-memory backend. -/
abbrev RefreshMap := HashMap Digest RefreshToken

namespace RefreshMap

/-- `store` (transport/oauth_state.rs:477), in memory. -/
def store (map : RefreshMap) (hash : Digest) (token : RefreshToken) :
    Except StoreError Unit × RefreshMap :=
  if refreshTokensMaxSize ≤ map.rows.length && (map.get hash).isNone then (.error .storeFull, map)
  else (.ok (), map.put (hash, token))

/-- `take` (transport/oauth_state.rs:519), in memory. -/
def take (map : RefreshMap) (now : ℤ) (ttl : Seconds) (hash : Digest) :
    Option RefreshToken × RefreshMap :=
  match map.get hash with
  | some (_, rt) => (if chainExpired rt.issuedAt now ttl then none else some rt, map.remove hash)
  | none => (none, map)

/-- `purge_for_sub` (transport/oauth_state.rs:550), in memory. -/
def purge (map : RefreshMap) (sub : String) : RefreshMap := map.retain fun e => e.2.identity.sub ≠ sub

/-- `gc_expired` (transport/oauth_state.rs:577), in memory. -/
def gc (map : RefreshMap) (now : ℤ) (ttl : Seconds) : RefreshMap :=
  map.retain fun e => !chainExpired e.2.issuedAt now ttl

variable {map : RefreshMap} {e : Digest × RefreshToken} {now : ℤ} {ttl : Seconds} {hash : Digest}
  {token : RefreshToken}

theorem mem_store (h : e ∈ (map.store hash token).2.rows) :
    e ∈ map.rows ∨ (map.store hash token).1 = .ok () ∧ e = (hash, token) := by
  unfold store at h ⊢
  split_ifs at h ⊢
  · exact .inl h
  · rcases Table.mem_put.mp h with rfl | ⟨h, -⟩
    · exact .inr ⟨rfl, rfl⟩
    · exact .inl h

theorem mem_take (h : e ∈ (map.take now ttl hash).2.rows) : e ∈ map.rows := by
  unfold take at h
  split at h
  · exact (Table.mem_remove.mp h).1
  · exact h

theorem get_take : (map.take now ttl hash).2.get hash = none := by
  unfold take
  split
  · rw [Table.get_remove, if_pos rfl]
  · assumption

theorem take_some (h : (map.take now ttl hash).1 = some token) :
    (hash, token) ∈ map.rows ∧ chainExpired token.issuedAt now ttl = false := by
  unfold take at h
  split at h
  · rename_i found hget
    obtain ⟨hmem, rfl⟩ := Table.get_eq_some.mp hget
    split_ifs at h with hexpired
    cases h
    exact ⟨hmem, Bool.not_eq_true _ ▸ hexpired⟩
  · cases h

end RefreshMap

/-! ## Registered clients -/

/-- `CLIENT_TTL` (transport/client_registry.rs:40). -/
def clientTtl : Seconds := 90 * 24 * 3600

/-- `CLIENT_CAP` (transport/client_registry.rs:49). -/
def clientCap : ℕ := 10000

/-- A row of `oauth_clients`. -/
structure ClientRow where
  clientId : String
  redirectUris : List String
  createdAt : ℤ
  expiresAt : ℤ
  deriving DecidableEq

/-- The table `oauth_clients`. -/
abbrev ClientRows := Table ClientRow.clientId

namespace ClientRows

/-- The row is written if it satisfies the CHECK of the table. -/
def write (rows : ClientRows) (row : ClientRow) : Except SqlxError Unit × ClientRows :=
  if row.createdAt < row.expiresAt then (.ok (), rows.put row) else (.error .constraint, rows)

/-- The upsert of `insert_db`; `created_at` is `now()` in a new row. -/
def upsert (rows : ClientRows) (now : ℤ) (clientId : String) (redirectUris : List String)
    (expiresAt : ℤ) : Except SqlxError Unit × ClientRows :=
  let createdAt := ((rows.get clientId).map ClientRow.createdAt).getD (timestamptz now)
  rows.write ⟨clientId, redirectUris, createdAt, timestamptz expiresAt⟩

/-- The UPDATE ... RETURNING of `touch_db`. -/
def touch (rows : ClientRows) (now : ℤ) (clientId : String) (expiresAt : ℤ) :
    Except SqlxError (Option (List String)) × ClientRows :=
  match rows.get clientId with
  | some row =>
    if timestamptz now < row.expiresAt then
      let (result, rows) := rows.write { row with expiresAt := timestamptz expiresAt }
      (result.map fun _ => some row.redirectUris, rows)
    else (.ok none, rows)
  | none => (.ok none, rows)

/-- The DELETE of `insert_db`. -/
def gc (rows : ClientRows) (now : ℤ) : ClientRows :=
  rows.retain fun r => timestamptz now < r.expiresAt

variable {rows : ClientRows} {row r : ClientRow} {now expiresAt : ℤ} {clientId : String}
  {uris : List String}

theorem mem_write (h : r ∈ (rows.write row).2.rows) :
    r ∈ rows.rows ∨ (rows.write row).1 = .ok () ∧ r = row := by
  unfold write at h ⊢
  split_ifs at h ⊢
  · rcases Table.mem_put.mp h with rfl | ⟨h, -⟩
    · exact .inr ⟨rfl, rfl⟩
    · exact .inl h
  · exact .inl h

theorem mem_upsert (h : r ∈ (rows.upsert now clientId uris expiresAt).2.rows) :
    r ∈ rows.rows ∨ (rows.upsert now clientId uris expiresAt).1 = .ok () ∧
      r.clientId = clientId ∧ r.redirectUris = uris := by
  rcases mem_write h with h | ⟨hok, rfl⟩
  · exact .inl h
  · exact .inr ⟨hok, rfl, rfl⟩

theorem mem_touch (h : r ∈ (rows.touch now clientId expiresAt).2.rows) :
    ∃ row ∈ rows.rows, row.clientId = r.clientId ∧ row.redirectUris = r.redirectUris := by
  unfold touch at h
  split at h
  · rename_i row hget
    split_ifs at h
    · rcases mem_write h with h | ⟨-, rfl⟩
      · exact ⟨r, h, rfl, rfl⟩
      · exact ⟨row, Table.mem_of_get hget, rfl, rfl⟩
    · exact ⟨r, h, rfl, rfl⟩
  · exact ⟨r, h, rfl, rfl⟩

theorem touch_some (h : (rows.touch now clientId expiresAt).1 = .ok (some uris)) :
    ∃ row ∈ rows.rows, row.clientId = clientId ∧ row.redirectUris = uris ∧
      timestamptz now < row.expiresAt := by
  unfold touch at h
  split at h
  · rename_i row hget
    split_ifs at h with hlive
    · obtain ⟨hmem, hid⟩ := Table.get_eq_some.mp hget
      refine ⟨row, hmem, hid, ?_, hlive⟩
      dsimp only at h
      cases hwrite : (rows.write { row with expiresAt := timestamptz expiresAt }).1 with
      | error e =>
        rw [hwrite] at h
        cases h
      | ok _ =>
        rw [hwrite] at h
        cases h
        rfl
    · cases h
  · cases h

end ClientRows

end DbMcpGateway.Oauth
