import DbMcpGateway.Audit.Row
import DbMcpGateway.Data.Table
import DbMcpGateway.Oauth.Clock

/-!
# Sessions and their cache

The session row (auth/session.rs, migrations/0001_sessions.sql) and the bounded cache in
front of the table (auth/session_cache.rs).

Results:

* `SessionCacheConfig.mem_insert`: what is in the cache after an insert.
-/

namespace DbMcpGateway.Oauth

/-- `struct SessionId` (auth/session.rs:20). -/
abbrev SessionId := Audit.Uuid

/-- `struct Identity` (auth/session.rs:50). -/
structure Identity extends Authz.Identity where
  sessionId : SessionId
  issuedAt : ℤ
  deriving DecidableEq

/-- `struct Session` (auth/session.rs:77); `SessionRow` (auth/session.rs:257) has the same
    columns. -/
structure Session where
  id : SessionId
  userSub : String
  userEmail : String
  groups : List String
  agentClient : Option String
  issuedAt : ℤ
  expiresAt : ℤ
  revokedAt : Option ℤ
  deriving DecidableEq

namespace Session

/-- `Session::identity` (auth/session.rs:105). -/
def identity (s : Session) : Identity where
  userSub := s.userSub
  userEmail := s.userEmail
  groups := s.groups
  sessionId := s.id
  issuedAt := s.issuedAt

/-- `Session::is_active` (auth/session.rs:115). -/
def isActive (s : Session) (now : ℤ) : Bool := s.revokedAt.isNone && s.expiresAt > now

/-- The row as the table keeps it. -/
def stored (s : Session) : Session :=
  { s with
    issuedAt := timestamptz s.issuedAt
    expiresAt := timestamptz s.expiresAt
    revokedAt := s.revokedAt.map timestamptz }

/-- The row but for its revocation. -/
def core (s : Session) : Session := { s with revokedAt := none }

theorem isActive_iff {s : Session} {now : ℤ} :
    s.isActive now = true ↔ s.revokedAt = none ∧ now < s.expiresAt := by
  simp [isActive]

end Session

/-! ## The cache -/

/-- `struct CacheEntry` (auth/session_cache.rs:63) with its key. -/
structure CacheEntry where
  id : SessionId
  session : Session
  cachedAt : ℕ
  deriving DecidableEq

/-- The map of `SessionCache` (auth/session_cache.rs:70). -/
abbrev SessionMap := Table CacheEntry.id

/-- `struct SessionCacheConfig` (auth/session_cache.rs:45); the lifetime in nanoseconds. -/
structure SessionCacheConfig where
  ttl : ℕ
  maxEntries : ℕ
  deriving DecidableEq

namespace SessionCacheConfig

/-- `SessionCacheConfig::default` (auth/session_cache.rs:55). -/
def default : SessionCacheConfig := ⟨nanos 30, 100000⟩

variable (cfg : SessionCacheConfig)

/-- `max_entries` as `SessionCache::new` clamps it (auth/session_cache.rs:82). -/
def cap : ℕ := max cfg.maxEntries 1

/-- `SessionCache::get` (auth/session_cache.rs:90). -/
def get (map : SessionMap) (mono : ℕ) (id : SessionId) (now : ℤ) : Option Session :=
  match map.get id with
  | none => none
  | some entry =>
    if cfg.ttl ≤ mono - entry.cachedAt || !entry.session.isActive now then none
    else some entry.session

/-- `evict_one` (auth/session_cache.rs:128). The map has no order: `oldest` is the entry
    that `min_by_key` finds. -/
def evictOne (map : SessionMap) (mono : ℕ) (oldest : SessionId) : Option SessionMap :=
  let fresh := map.retain fun e => mono - e.cachedAt < cfg.ttl
  if fresh.rows.length < map.rows.length then some fresh
  else match map.get oldest with
    | some entry =>
      if map.rows.all fun e => entry.cachedAt ≤ e.cachedAt then some (map.remove oldest) else none
    | none => if map.rows.isEmpty then some map else none

/-- `SessionCache::insert` (auth/session_cache.rs:102). -/
def insert (map : SessionMap) (mono : ℕ) (oldest id : SessionId) (session : Session) :
    Option SessionMap :=
  let entry := ⟨id, session, mono⟩
  if cfg.cap ≤ map.rows.length && (map.get id).isNone then
    (cfg.evictOne map mono oldest).map fun map => map.put entry
  else some (map.put entry)

variable {map : SessionMap} {mono : ℕ} {id : SessionId}

theorem get_eq_some {now : ℤ} {session : Session} (h : cfg.get map mono id now = some session) :
    (∃ cachedAt, ⟨id, session, cachedAt⟩ ∈ map.rows) ∧ session.isActive now = true := by
  unfold get at h
  split at h
  · cases h
  · rename_i entry hentry
    split_ifs at h with hbad
    cases h
    obtain ⟨hmem, rfl⟩ := Table.get_eq_some.mp hentry
    rw [Bool.or_eq_true, not_or, Bool.not_eq_true', Bool.not_eq_false] at hbad
    exact ⟨⟨entry.cachedAt, hmem⟩, hbad.2⟩

/-- Without an entry there is no hit. -/
theorem get_eq_none (h : map.get id = none) (mono : ℕ) (now : ℤ) :
    cfg.get map mono id now = none := by
  rw [get, h]

theorem evictOne_subset {map' : SessionMap} {oldest}
    (h : cfg.evictOne map mono oldest = some map') : ∀ e ∈ map'.rows, e ∈ map.rows := by
  unfold evictOne at h
  dsimp only at h
  intro e he
  split at h
  · cases h
    exact (Table.mem_retain.mp he).1
  · split at h
    · split_ifs at h
      cases h
      exact (Table.mem_remove.mp he).1
    · split_ifs at h
      cases h
      exact he

theorem mem_insert {map' : SessionMap} {oldest} {session : Session}
    (h : cfg.insert map mono oldest id session = some map') {e} (he : e ∈ map'.rows) :
    e = ⟨id, session, mono⟩ ∨ e ∈ map.rows := by
  unfold insert at h
  dsimp only at h
  split_ifs at h
  · obtain ⟨map₁, hevict, rfl⟩ := Option.map_eq_some_iff.mp h
    rcases Table.mem_put.mp he with rfl | ⟨he, -⟩
    · exact .inl rfl
    · exact .inr (cfg.evictOne_subset hevict e he)
  · cases h
    rcases Table.mem_put.mp he with rfl | ⟨he, -⟩
    · exact .inl rfl
    · exact .inr he

end SessionCacheConfig

end DbMcpGateway.Oauth
