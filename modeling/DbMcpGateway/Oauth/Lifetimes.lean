import DbMcpGateway.Oauth.RefreshOps

/-!
# The configured lifetimes

`AuthConfig::from_env` (auth/config.rs:109) multiplies the hours of `SESSION_TTL_HOURS` and the
days of `REFRESH_TTL_DAYS` in `u64`; a release build wraps. `create`, `jwt::issue` and `store_db`
add the lifetimes to the time: `chrono` falls back to eight hours or a day for a lifetime it
cannot represent, and panics beyond its last time.

Results:

* `deadline_exact`: up to the last time of `chrono` a deadline is exact.
* `ttlExact_iff`: the lifetimes and all deadlines are exact exactly if the deadlines are not
  beyond that time.
* `hours_wrap`: a number of hours that `from_env` accepts and that gives a session of an hour.
-/

namespace DbMcpGateway.Oauth

open Async Async.Prog Text

/-! ## Configuration -/

/-- `std::num::ParseIntError`, its kinds for an unsigned type. -/
inductive ParseIntError
  | empty
  | invalidDigit
  | posOverflow
  deriving DecidableEq

/-- One more digit of a `u64`. -/
def pushDigit (n : UInt64) (c : Char) : Except ParseIntError UInt64 :=
  if isAsciiDigit c then
    let next := n.toNat * 10 + (c.toNat - '0'.toNat)
    if next < 2 ^ 64 then .ok (UInt64.ofNat next) else .error .posOverflow
  else .error .invalidDigit

/-- `u64::from_str`. -/
def parseU64 (value : String) : Except ParseIntError UInt64 :=
  match value.toList with
  | [] => .error .empty
  | ['+'] => .error .invalidDigit
  | '+' :: digits => digits.foldlM pushDigit 0
  | digits => digits.foldlM pushDigit 0

example : parseU64 "+08" = .ok 8 := by decide
example : parseU64 "18446744073709551616" = .error .posOverflow := by decide
example : parseU64 "-8" = .error .invalidDigit := by decide

/-- The variants of `AuthConfigError` (auth/config.rs:67) for the lifetimes. -/
inductive AuthConfigError
  | sessionTtl (value : String) (source : ParseIntError)
  | refreshTtl (value : String) (source : ParseIntError)
  deriving DecidableEq

/-- The session lifetime for `SESSION_TTL_HOURS`; the product wraps in a release build. -/
def sessionTtl (hours : Option UInt64) : Seconds := hours.getD 8 * 3600

/-- A lifetime that is read from a variable of the environment. -/
def envTtl (ttl : Option UInt64 → Seconds) (error : String → ParseIntError → AuthConfigError) :
    Option String → Except AuthConfigError Seconds
  | none => .ok (ttl none)
  | some value =>
    match parseU64 value with
    | .ok n => .ok (ttl (some n))
    | .error source => .error (error value source)

/-- The lifetimes of `AuthConfig`. -/
structure Lifetimes where
  session : Seconds
  refresh : Seconds
  deriving DecidableEq

/-- `AuthConfig::from_env` (auth/config.rs:109), the lifetimes. -/
def lifetimesFromEnv (sessionTtlHours refreshTtlDays : Option String) :
    Except AuthConfigError Lifetimes := do
  let session ← envTtl sessionTtl .sessionTtl sessionTtlHours
  let refresh ← envTtl refreshTtl .refreshTtl refreshTtlDays
  return ⟨session, refresh⟩

/-- 1970-01-01; `Utc::now()` panics before it. -/
def unixEpoch : ℤ := -946684800 * 1000000000

/-! ## Exact arithmetic -/

/-- The lifetimes are `hours` and `days`, and what is created at `t` ends accordingly. -/
structure TtlExact (config : Lifetimes) (hours days : ℕ) (t : ℤ) : Prop where
  session : config.session.toNat = 3600 * hours
  refresh : config.refresh.toNat = 86400 * days
  /-- `SessionStore::create` inserts a row, and does not panic. -/
  create : ∀ userSub userEmail groups agentClient birth id r,
    Issues (SessionStore.create userSub userEmail groups config.session agentClient birth)
      [⟨.newSessionId, id⟩, ⟨.utcNow, t⟩] r →
    ∃ row, r = .insertSession row ∧ row.expiresAt = t + nanos (3600 * hours)
  /-- `jwt::issue` gives the token the same duration. -/
  issue : ∀ s : AuthState, s.wall = t → ∀ sessionId userSub token, ∃ claims,
    (s.issueJwt sessionId userSub config.session token).jwts = s.jwts ++ [⟨token, claims⟩] ∧
    claims.exp.toNat = claims.iat.toNat + 3600 * hours
  /-- `RefreshTokens::store` writes a row, and does not panic. -/
  store : ∀ backend sha256 token identity es r,
    Issues (RefreshTokens.store ⟨backend, config.refresh⟩ sha256 token identity t) es r →
    r ≠ .panic ∧ ∀ row, r = .refreshUpsert row → row.expiresAt = t + nanos (86400 * days)
  /-- Fewer hours or days do not end later. -/
  sessionMono : ∀ hours' : UInt64, hours'.toNat ≤ hours → ∃ u u',
    deadline t config.session (nanos (8 * 3600)) = some u ∧
    deadline t (sessionTtl (some hours')) (nanos (8 * 3600)) = some u' ∧ u' ≤ u ∧
    unixNow t + sessionTtl (some hours') ≤ unixNow t + config.session
  refreshMono : ∀ days' : UInt64, days'.toNat ≤ days → ∃ u u',
    deadline t config.refresh (nanos (24 * 3600)) = some u ∧
    deadline t (refreshTtl (some days')) (nanos (24 * 3600)) = some u' ∧ u' ≤ u

/-- The last time that `chrono` can represent is far from the ends of the other types. -/
theorem lt_of_le_maxTime {t : ℤ} {n : ℕ} (ht : unixEpoch ≤ t) (h : t + nanos n ≤ maxTime) :
    n < 8300000000000 := by
  unfold unixEpoch at ht
  unfold nanos maxTime at h
  omega

theorem sessionTtl_toNat {hours : UInt64} (h : 3600 * hours.toNat < 2 ^ 64) :
    (sessionTtl (some hours)).toNat = 3600 * hours.toNat := by
  rw [sessionTtl, Option.getD_some, UInt64.toNat_mul]
  have hnum : (3600 : UInt64).toNat = 3600 := rfl
  rw [hnum]
  omega

theorem refreshTtl_toNat {days : UInt64} (h : 86400 * days.toNat < 2 ^ 64) :
    (refreshTtl (some days)).toNat = 86400 * days.toNat := by
  rw [refreshTtl, Option.getD_some, UInt64.toNat_mul, UInt64.toNat_mul]
  have hday : (24 : UInt64).toNat = 24 := rfl
  have hhour : (3600 : UInt64).toNat = 3600 := rfl
  rw [hday, hhour]
  omega

/-- Up to the last time of `chrono` a deadline is exact. -/
theorem deadline_exact {t : ℤ} {ttl : Seconds} {fallback : ℤ} (ht : unixEpoch ≤ t)
    (h : t + nanos ttl.toNat ≤ maxTime) : deadline t ttl fallback = some (t + nanos ttl.toNat) := by
  have hlt := lt_of_le_maxTime ht h
  have hstd : fromStd ttl = some (nanos ttl.toNat : ℤ) := if_pos (by omega)
  rw [deadline, hstd, Option.getD_some]
  exact if_pos h

/-- And so is the expiry of a JWT. -/
theorem unixNow_add {t : ℤ} {ttl : Seconds} (ht : unixEpoch ≤ t)
    (h : t + nanos ttl.toNat ≤ maxTime) :
    (unixNow t + ttl).toNat = (unixNow t).toNat + ttl.toNat := by
  have hlt := lt_of_le_maxTime ht h
  have hnow : (unixNow t).toNat < 2 ^ 63 := by
    unfold unixNow
    rw [UInt64.toNat_ofNat']
    unfold nanos maxTime at h
    omega
  rw [UInt64.toNat_add]
  omega

/-! ## The deadlines -/

section

variable {t : ℤ} {ttl : Seconds} {r : AuthReq}

theorem deadline_le_maxTime {u fallback : ℤ} (h : deadline t ttl fallback = some u) :
    u ≤ maxTime := by
  unfold deadline checkedAdd at h
  split_ifs at h with hle
  rw [← Option.some.inj h]
  exact hle

/-- What `create` does after it has read the clock. -/
theorem issues_create {userSub userEmail : String} {groups agentClient} {birth : Option ℤ} {id} :
    Issues (SessionStore.create userSub userEmail groups ttl agentClient birth)
      [⟨.newSessionId, id⟩, ⟨.utcNow, t⟩] r ↔
    deadline t ttl (nanos (8 * 3600)) = none ∧ r = .panic ∨
    ∃ u, deadline t ttl (nanos (8 * 3600)) = some u ∧ r = .insertSession
      ⟨id, userSub, userEmail, groups, agentClient, birth.getD t, u, none⟩ := by
  simp [SessionStore.create]

/-- What the database backend of `store` can do. -/
theorem issues_upsertRow {hash : Digest} {identity : GrantIdentity} {es} :
    Issues (RefreshTokens.upsertRow hash identity t ttl) es r ↔ es = [] ∧
    (deadline t ttl (nanos (24 * 3600)) = none ∧ r = .panic ∨
    ∃ u, deadline t ttl (nanos (24 * 3600)) = some u ∧ r = .refreshUpsert
      ⟨hash, identity.sub, identity.email, identity.groups, t, u⟩) := by
  simp [RefreshTokens.upsertRow]
  grind

theorem upsertRow_of_issues_store {backend} {sha256 : List UInt8 → Digest}
    {token : String} {identity es}
    (h : Issues (RefreshTokens.store ⟨backend, ttl⟩ sha256 token identity t) es r) :
    r ≠ .panic ∧ (∀ row, r ≠ .refreshUpsert row) ∨
    Issues (RefreshTokens.upsertRow (hashSecret sha256 token) identity t ttl) [] r := by
  cases backend with
  | memory =>
    simp only [RefreshTokens.store, issues_askAs] at h
    rw [h.2]
    exact .inl ⟨by simp, by simp⟩
  | db =>
    simp [RefreshTokens.store, RefreshTokens.storeDb] at h
    obtain ⟨-, rfl⟩ | ⟨es₁, ⟨es₂, -, -, hcount⟩ | ⟨es₂, -, -, hupsert⟩⟩ := h
    · exact .inl ⟨by simp, by simp⟩
    · obtain ⟨-, rfl⟩ | ⟨a, es₃, -, -, hupsert⟩ := hcount
      · exact .inl ⟨by simp, by simp⟩
      · exact .inr (issues_upsertRow.mpr ⟨rfl, (issues_upsertRow.mp hupsert).2⟩)
    · exact .inr (issues_upsertRow.mpr ⟨rfl, (issues_upsertRow.mp hupsert).2⟩)

theorem issues_store_of_upsertRow {sha256 : List UInt8 → Digest} {token : String}
    {identity}
    (h : Issues (RefreshTokens.upsertRow (hashSecret sha256 token) identity t ttl) [] r) :
    Issues (RefreshTokens.store ⟨.db, ttl⟩ sha256 token identity t)
      [⟨.refreshExists (hashSecret sha256 token), .ok true⟩] r := by
  simp [RefreshTokens.store, RefreshTokens.storeDb]
  exact ⟨_, .inr ⟨[], rfl, rfl, h⟩⟩

end

section

variable {hours days : UInt64} {t : ℤ} (ht : unixEpoch ≤ t)
include ht

theorem session_exact (h : t + nanos (3600 * hours.toNat) ≤ maxTime) :
    (sessionTtl (some hours)).toNat = 3600 * hours.toNat := by
  have hlt := lt_of_le_maxTime ht h
  exact sessionTtl_toNat (by omega)

theorem refresh_exact (h : t + nanos (86400 * days.toNat) ≤ maxTime) :
    (refreshTtl (some days)).toNat = 86400 * days.toNat := by
  have hlt := lt_of_le_maxTime ht h
  exact refreshTtl_toNat (by omega)

theorem session_deadline (h : t + nanos (3600 * hours.toNat) ≤ maxTime) (fallback : ℤ) :
    deadline t (sessionTtl (some hours)) fallback = some (t + nanos (3600 * hours.toNat)) := by
  have hexact := session_exact ht h
  rw [← hexact] at h ⊢
  exact deadline_exact ht h

theorem refresh_deadline (h : t + nanos (86400 * days.toNat) ≤ maxTime) (fallback : ℤ) :
    deadline t (refreshTtl (some days)) fallback = some (t + nanos (86400 * days.toNat)) := by
  have hexact := refresh_exact ht h
  rw [← hexact] at h ⊢
  exact deadline_exact ht h

theorem session_unixNow (h : t + nanos (3600 * hours.toNat) ≤ maxTime) :
    (unixNow t + sessionTtl (some hours)).toNat = (unixNow t).toNat + 3600 * hours.toNat := by
  have hexact := session_exact ht h
  rw [← hexact] at h ⊢
  exact unixNow_add ht h

theorem ttlExact_of_le (hs : t + nanos (3600 * hours.toNat) ≤ maxTime)
    (hr : t + nanos (86400 * days.toNat) ≤ maxTime) :
    TtlExact ⟨sessionTtl (some hours), refreshTtl (some days)⟩ hours.toNat days.toNat t where
  session := session_exact ht hs
  refresh := refresh_exact ht hr
  create _ _ _ _ _ _ _ hissues := by
    have hdeadline := session_deadline ht hs (nanos (8 * 3600))
    obtain ⟨hnone, -⟩ | ⟨u, hu, rfl⟩ := issues_create.mp hissues
    · rw [hdeadline] at hnone
      cases hnone
    · rw [hdeadline] at hu
      exact ⟨_, rfl, (Option.some.inj hu).symm⟩
  issue s hwall sessionId userSub token := by
    refine ⟨_, rfl, ?_⟩
    rw [hwall]
    exact session_unixNow ht hs
  store _ _ _ _ _ _ hissues := by
    have hdeadline := refresh_deadline ht hr (nanos (24 * 3600))
    obtain ⟨hpanic, hrow⟩ | hupsert := upsertRow_of_issues_store hissues
    · exact ⟨hpanic, fun row h => absurd h (hrow row)⟩
    · obtain ⟨-, ⟨hnone, -⟩ | ⟨u, hu, rfl⟩⟩ := issues_upsertRow.mp hupsert
      · rw [hdeadline] at hnone
        cases hnone
      · rw [hdeadline] at hu
        refine ⟨nofun, ?_⟩
        rintro row ⟨⟩
        exact (Option.some.inj hu).symm
  sessionMono hours' hle := by
    have hnanos : nanos (3600 * hours'.toNat) ≤ nanos (3600 * hours.toNat) := by
      unfold nanos
      omega
    have hs' : t + nanos (3600 * hours'.toNat) ≤ maxTime := by omega
    refine ⟨_, _, session_deadline ht hs _, session_deadline ht hs' _, by omega, ?_⟩
    rw [UInt64.le_iff_toNat_le, session_unixNow ht hs, session_unixNow ht hs']
    omega
  refreshMono days' hle := by
    have hnanos : nanos (86400 * days'.toNat) ≤ nanos (86400 * days.toNat) := by
      unfold nanos
      omega
    have hr' : t + nanos (86400 * days'.toNat) ≤ maxTime := by omega
    exact ⟨_, _, refresh_deadline ht hr _, refresh_deadline ht hr' _, by omega⟩

end

theorem TtlExact.session_le {config} {hours days : ℕ} {t : ℤ}
    (h : TtlExact config hours days t) : t + nanos (3600 * hours) ≤ maxTime := by
  have hcreate := h.create "" "" [] none none 0
  cases hdeadline : deadline t config.session (nanos (8 * 3600)) with
  | none =>
    obtain ⟨row, hrow, -⟩ := hcreate .panic (issues_create.mpr (.inl ⟨hdeadline, rfl⟩))
    cases hrow
  | some u =>
    obtain ⟨row, hrow, hu⟩ := hcreate _ (issues_create.mpr (.inr ⟨u, hdeadline, rfl⟩))
    cases hrow
    rw [← hu]
    exact deadline_le_maxTime hdeadline

theorem TtlExact.refresh_le {config} {hours days : ℕ} {t : ℤ}
    (h : TtlExact config hours days t) : t + nanos (86400 * days) ≤ maxTime := by
  have hstore := fun r hissues => h.store .db id "" ⟨"", "", []⟩ _ r (issues_store_of_upsertRow hissues)
  cases hdeadline : deadline t config.refresh (nanos (24 * 3600)) with
  | none =>
    have hpanic := hstore .panic (issues_upsertRow.mpr ⟨rfl, .inl ⟨hdeadline, rfl⟩⟩)
    exact absurd rfl hpanic.1
  | some u =>
    have hrow := hstore _ (issues_upsertRow.mpr ⟨rfl, .inr ⟨u, hdeadline, rfl⟩⟩)
    rw [← hrow.2 _ rfl]
    exact deadline_le_maxTime hdeadline

/-- The lifetimes are exact exactly as long as the deadlines are not beyond the last time of
    `chrono`. -/
theorem ttlExact_iff {sessionTtlHours refreshTtlDays : String} {hours days : UInt64} {t : ℤ}
    (hhours : parseU64 sessionTtlHours = .ok hours) (hdays : parseU64 refreshTtlDays = .ok days)
    (ht : unixEpoch ≤ t) :
    ∃ config, lifetimesFromEnv (some sessionTtlHours) (some refreshTtlDays) = .ok config ∧
      (TtlExact config hours.toNat days.toNat t ↔
        t + nanos (3600 * hours.toNat) ≤ maxTime ∧ t + nanos (86400 * days.toNat) ≤ maxTime) := by
  refine ⟨⟨sessionTtl (some hours), refreshTtl (some days)⟩, ?_, ?_, ?_⟩
  · simp [lifetimesFromEnv, envTtl, hhours, hdays]
    rfl
  · exact fun h => ⟨h.session_le, h.refresh_le⟩
  · rintro ⟨hsession, hrefresh⟩
    exact ttlExact_of_le ht hsession hrefresh

/-- The defaults, at the Unix epoch. -/
theorem ttlExact_iff_defaults : ∃ config,
    lifetimesFromEnv (some "8") (some "1") = .ok config ∧
    (TtlExact config 8 1 unixEpoch ↔
      unixEpoch + nanos (3600 * 8) ≤ maxTime ∧ unixEpoch + nanos (86400 * 1) ≤ maxTime) :=
  @ttlExact_iff "8" "1" 8 1 unixEpoch (by decide) (by decide) le_rfl

/-- `SESSION_TTL_HOURS=5124095576030432` is accepted, and a session lasts less than an hour. -/
theorem hours_wrap :
    lifetimesFromEnv (some "5124095576030432") (some "1") = .ok ⟨3584, 86400⟩ ∧
    ¬ TtlExact ⟨3584, 86400⟩ 5124095576030432 1 0 := by
  refine ⟨by decide, fun h => ?_⟩
  have hsession := h.session
  revert hsession
  decide

end DbMcpGateway.Oauth
