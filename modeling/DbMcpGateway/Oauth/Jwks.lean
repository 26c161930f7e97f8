import Mathlib.Algebra.GroupWithZero.Nat
import Mathlib.Data.List.Dedup
import DbMcpGateway.Oauth.Http

/-!
# Keys of the identity provider

`OidcClient::decoding_key` (auth/oidc/mod.rs:246) and `discover` (auth/oidc/mod.rs:205), as programs
over the two caches of the client, the clock and the GETs to the provider. Calls are sequential
here: each runs to its end before the next one starts. `Url::parse` and
`DecodingKey::from_rsa_components` are parameters, and a GET is answered with a document or fails.

A comment in `decoding_key` says that the cache is written before the lookup so that later calls
for the same unknown kid use the cached set. They do not: a fresh set answers only for the kids it
has, and a kid that is not in it is fetched again by every call. So the number of fetches is bounded
by the number of kids only as long as no unknown kid is asked for twice.

Results:

* `call_of_lookup`, `call_of_miss`: one call, by what the cached set has.
* `Warm.trace`: within the lifetime of a fetched set, a call makes one GET if its kid is unknown,
  and none otherwise.
* `jwks_requests_iff`: what bounds the GETs by the kids.
-/

namespace DbMcpGateway.Oauth.Oidc

open Async Async.Prog

/-! ## Model -/

/-- `struct DiscoveryDocument` (auth/oidc/types.rs:8). -/
structure DiscoveryDocument where
  issuer : String
  authorizationEndpoint : String
  tokenEndpoint : String
  jwksUri : String
  deriving DecidableEq

/-- `struct Jwk` (auth/oidc/types.rs:21). -/
structure Jwk where
  kid : Option String
  kty : String
  use_ : Option String
  n : Option String
  e : Option String
  deriving DecidableEq

/-- `struct JwksCache` (auth/oidc/types.rs:45); an `Instant` is in nanoseconds. -/
structure JwksCache (Key : Type) where
  keys : List (String × Key)
  fetchedAt : ℕ

/-- `JWKS_TTL` (auth/oidc/helpers.rs:10). -/
def jwksTtl : ℕ := nanos 3600

/-- What `discover` and `decoding_key` do outside of their own code. -/
inductive IdpReq (Key : Type)
  | readDiscovery
  | writeDiscovery (doc : DiscoveryDocument)
  | readJwks
  | writeJwks (cache : JwksCache Key)
  | getDiscovery (url : String)
  | getJwks (url : String)
  /-- `Instant::elapsed`. -/
  | elapsed (since : ℕ)
  /-- `Instant::now`. -/
  | instantNow

/-- The replies; a GET that fails, or whose answer is not of the expected form, has none. -/
def IdpResp {Key : Type} : IdpReq Key → Type
  | .readDiscovery => Option DiscoveryDocument
  | .writeDiscovery _ => Unit
  | .readJwks => Option (JwksCache Key)
  | .writeJwks _ => Unit
  | .getDiscovery _ => Option DiscoveryDocument
  | .getJwks _ => Option (List Jwk)
  | .elapsed _ => ℕ
  | .instantNow => ℕ

abbrev IdpProg (Key : Type) := Prog (IdpReq Key) IdpResp

structure Config (Key : Type) where
  issuer : String
  /-- `Url::parse(..).ok()`. -/
  parseUrl : String → Option Url
  /-- `DecodingKey::from_rsa_components(..).ok()`. -/
  fromRsaComponents : String → String → Option Key

/-- `is_loopback` (auth/oidc/helpers.rs:36). -/
def isLoopback (url : Url) : Bool :=
  match url.host with
  | some (.domain host) => Text.eqIgnoreAsciiCase host "localhost"
  | some (.ipv4 ip) => ip >>> 24 == 127
  | some (.ipv6 ip) => ip == 1
  | none => false

/-- `trim_end_matches('/')`. -/
def trimSlashes (s : String) : String :=
  String.ofList (s.toList.reverse.dropWhile (· == '/')).reverse

section

variable {Key : Type} (cfg : Config Key)

abbrev idp {α : Type} (r : IdpReq Key) (h : IdpResp r = α := by rfl) : IdpProg Key α := askAs r h

/-- `require_secure_url` (auth/oidc/helpers.rs:15). -/
def requireSecureUrl (raw : String) : Except AuthError Unit :=
  match cfg.parseUrl raw with
  | none => .error .discovery
  | some url =>
    if url.scheme = "https" then .ok ()
    else if url.scheme = "http" ∧ isLoopback url then .ok ()
    else .error .discovery

def checkDocument (doc : DiscoveryDocument) : Except AuthError Unit := do
  if trimSlashes doc.issuer ≠ trimSlashes cfg.issuer then throw .discovery
  requireSecureUrl cfg doc.authorizationEndpoint
  requireSecureUrl cfg doc.tokenEndpoint
  requireSecureUrl cfg doc.jwksUri

/-- The end of `discover`, with a fetched document. -/
def acceptDocument (doc : DiscoveryDocument) : IdpProg Key (Except AuthError DiscoveryDocument) :=
  okOr (ret (checkDocument cfg doc)) .error fun _ => do
  let _ : Unit ← idp (.writeDiscovery doc)
  ret (.ok doc)

/-- `discover` without a cached document. -/
def fetchDocument : IdpProg Key (Except AuthError DiscoveryDocument) :=
  okOr (ret (requireSecureUrl cfg cfg.issuer)) .error fun _ =>
  someOr (idp (.getDiscovery (trimSlashes cfg.issuer ++ "/.well-known/openid-configuration")))
    (.error .discovery) fun (doc : DiscoveryDocument) => acceptDocument cfg doc

/-- `discover` (auth/oidc/mod.rs:205). -/
def discover : IdpProg Key (Except AuthError DiscoveryDocument) := do
  let cached : Option DiscoveryDocument ← idp .readDiscovery
  ifSome cached (fun doc => ret (.ok doc)) (fetchDocument cfg)

/-- The kid and the key of a JWK that can verify a signature. -/
def usableKey (jwk : Jwk) : Option (String × Key) := do
  let kid ← jwk.kid
  guard (jwk.kty = "RSA")
  guard (jwk.use_.all (· = "sig"))
  let n ← jwk.n
  let e ← jwk.e
  let key ← cfg.fromRsaComponents n e
  return (kid, key)

/-- The map `by_kid` of `decoding_key`: a later key replaces an earlier one of its kid. -/
def byKid (jwks : List Jwk) : List (String × Key) := OrdMap.ofList (jwks.filterMap (usableKey cfg))

/-- The fast path of `decoding_key`: a key of a set that has not aged out. -/
def cachedKey (kid : String) : IdpProg Key (Option Key) := do
  let cache : Option (JwksCache Key) ← idp .readJwks
  ifSome cache
    (fun cache => do
      let elapsed : ℕ ← idp (.elapsed cache.fetchedAt)
      ret (if elapsed < jwksTtl then OrdMap.get? cache.keys kid else none))
    (ret none)

/-- The rest of `decoding_key`. The set is stored also if the kid is not in it. -/
def fetchKey (kid : String) : IdpProg Key (Except AuthError Key) :=
  okOr (discover cfg) .error fun discovery =>
  someOr (idp (.getJwks discovery.jwksUri)) (.error .discovery) fun (jwks : List Jwk) => do
  let fetchedAt : ℕ ← idp .instantNow
  let _ : Unit ← idp (.writeJwks ⟨byKid cfg jwks, fetchedAt⟩)
  ret ((OrdMap.get? (byKid cfg jwks) kid).elim (.error .idToken) .ok)

/-- `decoding_key` (auth/oidc/mod.rs:246). -/
def decodingKey (kid : String) : IdpProg Key (Except AuthError Key) := do
  let cached ← cachedKey kid
  ifSome cached (fun key => ret (.ok key)) (fetchKey cfg kid)

/-! ## Sequential calls -/

structure Client (Key : Type) where
  discovery : Option DiscoveryDocument
  jwks : Option (JwksCache Key)

/-- A call, and what it meets: the clock when it looks at the cached set, the answers to its GETs
    if it makes them, and the clock when it stores a set. -/
structure Call where
  kid : String
  now : ℕ
  discovery : Option DiscoveryDocument
  jwks : Option (List Jwk)
  fetchedAt : ℕ

/-- The replies to a call. The GETs of key sets are logged. -/
def serve (c : Call) : (r : IdpReq Key) → Client Key × List String →
    Option (IdpResp r × (Client Key × List String))
  | .readDiscovery, s => some (s.1.discovery, s)
  | .writeDiscovery doc, s => some ((), { s.1 with discovery := some doc }, s.2)
  | .readJwks, s => some (s.1.jwks, s)
  | .writeJwks cache, s => some ((), { s.1 with jwks := some cache }, s.2)
  | .getDiscovery _, s => some (c.discovery, s)
  | .getJwks url, s => some (c.jwks, s.1, s.2 ++ [url])
  | .elapsed since, s => some (c.now - since, s)
  | .instantNow, s => some (c.fetchedAt, s)

/-- A call: its result, the caches after it, and the GETs of key sets that it made. -/
def Client.call (client : Client Key) (c : Call) :
    Option (Except AuthError Key × (Client Key × List String)) :=
  (decodingKey cfg c.kid).exec (serve c) (client, [])

/-- The kid of each call with the number of its GETs of key sets. -/
def Client.trace (client : Client Key) : List Call → Option (List (String × ℕ))
  | [] => some []
  | c :: calls =>
    (client.call cfg c).bind fun x =>
      (Client.trace x.2.1 calls).map fun trace => (c.kid, x.2.2.length) :: trace

/-- The GETs that the calls for a kid made. -/
def requestsFor (trace : List (String × ℕ)) (kid : String) : ℕ :=
  ((trace.filter fun x => x.1 = kid).map (·.2)).sum

/-- The GETs of all calls. -/
def requests (trace : List (String × ℕ)) : ℕ := (trace.map (·.2)).sum

/-- The key that the cached set has for a kid, while it is fresh. -/
def Client.lookup (client : Client Key) (now : ℕ) (kid : String) : Option Key :=
  client.jwks.bind fun cache =>
    if now - cache.fetchedAt < jwksTtl then OrdMap.get? cache.keys kid else none

/-! ## One call -/

theorem exec_cachedKey (c : Call) (kid : String) (client : Client Key) (sent : List String) :
    (cachedKey kid).exec (serve c) (client, sent) =
      some (client.lookup c.now kid, client, sent) := by
  obtain ⟨discovery, _ | cache⟩ := client <;> rfl

variable {client : Client Key} {doc : DiscoveryDocument} {c : Call} {client' : Client Key}
  {sent : List String}

/-- A document that is in the cache is returned without a request. -/
theorem exec_discover_of_cached (c : Call) (h : client.discovery = some doc) (sent : List String) :
    (discover cfg).exec (serve c) (client, sent) = some (.ok doc, client, sent) := by
  obtain ⟨_, jwks⟩ := client
  cases h
  rfl

theorem exec_acceptDocument (c : Call) (doc : DiscoveryDocument) (client : Client Key)
    (sent : List String) :
    (acceptDocument cfg doc).exec (serve c) (client, sent) =
      match checkDocument cfg doc with
      | .ok _ => some (.ok doc, { client with discovery := some doc }, sent)
      | .error e => some (.error e, client, sent) := by
  rw [acceptDocument]
  cases checkDocument cfg doc <;> rfl

theorem exec_getDiscovery (c : Call) (url : String) (s : Client Key × List String) :
    (idp (.getDiscovery url)).exec (serve c) s = some (c.discovery, s) := exec_askAs _ rfl rfl

theorem exec_fetchDocument (c : Call) (client : Client Key) (sent : List String) :
    (fetchDocument cfg).exec (serve c) (client, sent) =
      match requireSecureUrl cfg cfg.issuer, c.discovery with
      | .error e, _ => some (.error e, client, sent)
      | .ok _, none => some (.error .discovery, client, sent)
      | .ok _, some doc => (acceptDocument cfg doc).exec (serve c) (client, sent) := by
  rw [fetchDocument]
  cases requireSecureUrl cfg cfg.issuer with
  | error e => rfl
  | ok _ =>
    rw [okOr, ret_bind, someOr, exec_bind, exec_getDiscovery]
    cases c.discovery <;> rfl

theorem exec_discover_of_none (c : Call) (h : client.discovery = none) (sent : List String) :
    (discover cfg).exec (serve c) (client, sent) =
      (fetchDocument cfg).exec (serve c) (client, sent) := by
  obtain ⟨_, jwks⟩ := client
  cases h
  rfl

/-- If `discover` returns a document, it is in the cache; the key set is not touched. -/
theorem exec_discover (c : Call) (client : Client Key) (sent : List String) :
    (∃ doc, (discover cfg).exec (serve c) (client, sent) =
      some (.ok doc, { client with discovery := some doc }, sent)) ∨
    ∃ e, (discover cfg).exec (serve c) (client, sent) = some (.error e, client, sent) := by
  cases hcached : client.discovery with
  | some doc =>
    refine .inl ⟨doc, ?_⟩
    rw [exec_discover_of_cached cfg c hcached, ← hcached]
  | none =>
    rw [exec_discover_of_none cfg c hcached, exec_fetchDocument]
    split
    · exact .inr ⟨_, rfl⟩
    · exact .inr ⟨_, rfl⟩
    · rw [exec_acceptDocument]
      split
      · exact .inl ⟨_, rfl⟩
      · exact .inr ⟨_, rfl⟩

def fetched (c : Call) : Except AuthError Key :=
  c.jwks.elim (.error .discovery) fun jwks =>
    (OrdMap.get? (byKid cfg jwks) c.kid).elim (.error .idToken) .ok

/-- The caches after a fetch: a set that was answered replaces the one that was there. -/
def Client.store (client : Client Key) (c : Call) : Client Key :=
  match c.jwks with
  | some jwks => { client with jwks := some ⟨byKid cfg jwks, c.fetchedAt⟩ }
  | none => client

theorem exec_fetchKey
    (h : (discover cfg).exec (serve c) (client, sent) = some (.ok doc, client', sent)) :
    (fetchKey cfg c.kid).exec (serve c) (client, sent) =
      some (fetched cfg c, client'.store cfg c, sent ++ [doc.jwksUri]) := by
  rw [fetchKey, okOr, exec_bind, h]
  obtain ⟨kid, now, document, _ | jwks, fetchedAt⟩ := c <;> rfl

/-- A key of a fresh set is returned without a request. -/
theorem call_of_lookup {key : Key} (h : client.lookup c.now c.kid = some key) :
    client.call cfg c = some (.ok key, client, []) := by
  rw [Client.call, decodingKey, exec_bind, exec_cachedKey, h]
  rfl

theorem call_of_lookup_none (h : client.lookup c.now c.kid = none) :
    client.call cfg c = (fetchKey cfg c.kid).exec (serve c) (client, []) := by
  rw [Client.call, decodingKey, exec_bind, exec_cachedKey, h]
  rfl

/-- A call with a discovery document and without a key makes one GET, whatever it finds. -/
theorem call_of_miss (hdoc : client.discovery = some doc) (h : client.lookup c.now c.kid = none) :
    client.call cfg c = some (fetched cfg c, client.store cfg c, [doc.jwksUri]) := by
  rw [call_of_lookup_none cfg h]
  exact exec_fetchKey cfg (exec_discover_of_cached cfg c hdoc [])

/-- A call that made a GET has a discovery document, and it stored what was answered. -/
theorem call_sent {result}
    (h : client.call cfg c = some (result, client', sent)) (hsent : sent ≠ []) :
    ∃ doc, sent = [doc.jwksUri] ∧
      client' = Client.store cfg { client with discovery := some doc } c := by
  cases hlookup : client.lookup c.now c.kid with
  | some key =>
    rw [call_of_lookup cfg hlookup] at h
    cases h
    exact absurd rfl hsent
  | none =>
    rw [call_of_lookup_none cfg hlookup] at h
    obtain ⟨doc, hdiscover⟩ | ⟨e, hdiscover⟩ := exec_discover cfg c client []
    · rw [exec_fetchKey cfg hdiscover] at h
      cases h
      exact ⟨doc, rfl, rfl⟩
    · rw [fetchKey, okOr, exec_bind, hdiscover] at h
      cases h
      exact absurd rfl hsent

/-! ## Calls within the lifetime of a set -/

/-- The provider serves the keys `jwks`; they were fetched at `start` or later. -/
structure Warm (jwks : List Jwk) (start : ℕ) (client : Client Key) : Prop where
  discovery : ∃ doc, client.discovery = some doc
  jwks : ∃ fetchedAt, start ≤ fetchedAt ∧ client.jwks = some ⟨byKid cfg jwks, fetchedAt⟩

/-- A call within `JWKS_TTL` of `start`, answered with the keys `jwks` if at all. -/
structure Within (jwks : List Jwk) (start : ℕ) (c : Call) : Prop where
  answer : c.jwks = none ∨ c.jwks = some jwks
  now : start ≤ c.now
  stored : c.now ≤ c.fetchedAt
  fresh : c.now < start + jwksTtl

/-- The provider has a usable key for the kid. -/
def Known (jwks : List Jwk) (kid : String) : Prop := (OrdMap.get? (byKid cfg jwks) kid).isSome

instance (jwks : List Jwk) (kid : String) : Decidable (Known cfg jwks kid) :=
  inferInstanceAs (Decidable (_ = true))

/-- The GETs of a call for a kid. -/
def cost (jwks : List Jwk) (kid : String) : ℕ := if Known cfg jwks kid then 0 else 1

/-- The trace of calls for the kids. -/
def costs (jwks : List Jwk) (kids : List String) : List (String × ℕ) :=
  kids.map fun kid => (kid, cost cfg jwks kid)

variable {cfg} {jwks : List Jwk} {start : ℕ}

theorem Warm.lookup (hwarm : Warm cfg jwks start client) (hc : Within jwks start c) :
    client.lookup c.now c.kid = OrdMap.get? (byKid cfg jwks) c.kid := by
  obtain ⟨fetchedAt, hle, hcache⟩ := hwarm.jwks
  have hfresh : c.now - fetchedAt < jwksTtl := by
    have := hc.fresh
    have := hc.now
    omega
  rw [Client.lookup, hcache, Option.bind_some, if_pos hfresh]

theorem Warm.store {client : Client Key} (hwarm : Warm cfg jwks start client) {c : Call}
    (hc : Within jwks start c) : Warm cfg jwks start (client.store cfg c) := by
  rcases hc.answer with hnone | hsome
  · rwa [Client.store, hnone]
  · rw [Client.store, hsome]
    exact ⟨hwarm.discovery, c.fetchedAt, hc.now.trans hc.stored, rfl⟩

theorem Warm.call (hwarm : Warm cfg jwks start client) (hc : Within jwks start c) :
    ∃ result client' sent, client.call cfg c = some (result, client', sent) ∧
      sent.length = cost cfg jwks c.kid ∧ Warm cfg jwks start client' := by
  have hlookup := hwarm.lookup hc
  cases hkey : OrdMap.get? (byKid cfg jwks) c.kid with
  | some key =>
    have hknown : Known cfg jwks c.kid := by simp [Known, hkey]
    exact ⟨_, _, _, call_of_lookup cfg (hlookup.trans hkey), (if_pos hknown).symm, hwarm⟩
  | none =>
    have hunknown : ¬ Known cfg jwks c.kid := by simp [Known, hkey]
    obtain ⟨doc, hdoc⟩ := hwarm.discovery
    exact ⟨_, _, _, call_of_miss cfg hdoc (hlookup.trans hkey), (if_neg hunknown).symm,
      hwarm.store hc⟩

theorem Warm.trace (hwarm : Warm cfg jwks start client) {calls : List Call}
    (hcalls : ∀ c ∈ calls, Within jwks start c) :
    client.trace cfg calls = some (costs cfg jwks (calls.map Call.kid)) := by
  induction calls generalizing client with
  | nil => rfl
  | cons c calls ih =>
    obtain ⟨result, client', sent, hcall, hlength, hwarm'⟩ :=
      hwarm.call (hcalls c List.mem_cons_self)
    have hrest := ih hwarm' fun c' hc' => hcalls c' (List.mem_cons_of_mem c hc')
    rw [Client.trace, hcall, Option.bind_some, hrest, Option.map_some, hlength]
    rfl

theorem warm_of_call {result}
    (h : client.call cfg c = some (result, client', sent)) (hsent : sent ≠ [])
    (hjwks : c.jwks = some jwks) : Warm cfg jwks c.fetchedAt client' := by
  obtain ⟨doc, -, rfl⟩ := call_sent cfg h hsent
  rw [Client.store, hjwks]
  exact ⟨⟨doc, rfl⟩, c.fetchedAt, le_rfl, rfl⟩

/-! ## Counting -/

theorem costs_cons (kid : String) (kids : List String) :
    costs cfg jwks (kid :: kids) = (kid, cost cfg jwks kid) :: costs cfg jwks kids := rfl

theorem cost_of_known {kid : String} (h : Known cfg jwks kid) : cost cfg jwks kid = 0 := if_pos h

theorem cost_of_not_known {kid : String} (h : ¬ Known cfg jwks kid) : cost cfg jwks kid = 1 :=
  if_neg h

theorem requestsFor_cons (x : String × ℕ) (trace : List (String × ℕ)) (kid : String) :
    requestsFor (x :: trace) kid = (if x.1 = kid then x.2 else 0) + requestsFor trace kid := by
  unfold requestsFor
  by_cases hx : x.1 = kid <;> simp [hx]

theorem requestsFor_costs (kids : List String) (kid : String) :
    requestsFor (costs cfg jwks kids) kid = kids.count kid * cost cfg jwks kid := by
  induction kids with
  | nil => simp [costs, requestsFor]
  | cons k kids ih =>
    rw [costs_cons, requestsFor_cons, ih]
    by_cases hk : k = kid
    · subst hk
      rw [if_pos rfl, List.count_cons_self, Nat.succ_mul, Nat.add_comm]
    · rw [if_neg hk, Nat.zero_add, List.count_cons_of_ne hk]

theorem requests_costs (kids : List String) :
    requests (costs cfg jwks kids) = (kids.filter fun k => ¬ Known cfg jwks k).length := by
  induction kids with
  | nil => rfl
  | cons k kids ih =>
    rw [costs_cons, requests, List.map_cons, List.sum_cons, ← requests, ih]
    by_cases hk : Known cfg jwks k
    · simp [cost_of_known hk, hk]
    · simp [cost_of_not_known hk, hk, Nat.add_comm]

/-- The GETs are bounded for each kid exactly if no unknown kid is asked for twice. -/
theorem requestsFor_le_one_iff (kids : List String) :
    (∀ kid, requestsFor (costs cfg jwks kids) kid ≤ 1) ↔
      ∀ kid, ¬ Known cfg jwks kid → kids.count kid ≤ 1 := by
  refine forall_congr' fun kid => ?_
  rw [requestsFor_costs]
  by_cases hk : Known cfg jwks kid
  · simp [cost_of_known hk, hk]
  · simp [cost_of_not_known hk, hk]

/-- Unknown kids that are asked for once are at most as many as the kids. -/
theorem requests_le {kids : List String}
    (h : ∀ kid, ¬ Known cfg jwks kid → kids.count kid ≤ 1) :
    requests (costs cfg jwks kids) ≤ kids.dedup.length := by
  have hnodup : (kids.filter fun k => ¬ Known cfg jwks k).Nodup := by
    refine List.nodup_iff_count_le_one.mpr fun kid => ?_
    by_cases hk : Known cfg jwks kid
    · have hnot : kid ∉ kids.filter fun k => ¬ Known cfg jwks k := by simp [hk]
      rw [List.count_eq_zero_of_not_mem hnot]
      exact Nat.zero_le 1
    · exact (List.Sublist.count_le kid List.filter_sublist).trans (h kid hk)
  have hsubset : (kids.filter fun k => ¬ Known cfg jwks k) ⊆ kids.dedup :=
    fun k hk => List.mem_dedup.mpr (List.mem_of_mem_filter hk)
  rw [requests_costs]
  exact (hnodup.subperm hsubset).length_le

/-- After a successful fetch, and within its lifetime, the calls for a kid make at most one more
    GET exactly if no kid without a usable key is asked for twice; then the GETs are at most
    one and one for each kid. -/
theorem jwks_requests_iff {client client' : Client Key} {first : Call}
    {result : Except AuthError Key} {sent : List String} {calls : List Call}
    (hfirst : client.call cfg first = some (result, client', sent)) (hsent : sent ≠ [])
    (hjwks : first.jwks = some jwks) (hcalls : ∀ c ∈ calls, Within jwks first.fetchedAt c) :
    ∃ trace, client'.trace cfg calls = some trace ∧
      ((∀ kid, requestsFor trace kid ≤ 1) ↔
        ∀ kid, ¬ Known cfg jwks kid → (calls.map Call.kid).count kid ≤ 1) ∧
      ((∀ kid, requestsFor trace kid ≤ 1) →
        sent.length + requests trace ≤ 1 + (calls.map Call.kid).dedup.length) := by
  have hwarm := warm_of_call hfirst hsent hjwks
  obtain ⟨doc, rfl, -⟩ := call_sent cfg hfirst hsent
  refine ⟨costs cfg jwks (calls.map Call.kid), hwarm.trace hcalls, requestsFor_le_one_iff _, ?_⟩
  intro hone
  have hle := requests_le ((requestsFor_le_one_iff (calls.map Call.kid)).mp hone)
  rw [List.length_singleton]
  omega

end

/-! ## One unknown kid -/

/-- A provider at `https://idp`; every URL is taken for one of it. -/
def demoConfig : Config String :=
  { issuer := "https://idp"
    parseUrl := fun _ => some ⟨"https", some (.domain "idp"), "", none, "/", none, none⟩
    fromRsaComponents := fun n _ => some n }

def demoDocument : DiscoveryDocument :=
  ⟨"https://idp", "https://idp/authorize", "https://idp/token", "https://idp/jwks"⟩

/-- One usable key, of the kid `a`. -/
def demoJwks : List Jwk := [⟨some "a", "RSA", some "sig", some "n", some "AQAB"⟩]

/-- A call `t` seconds after the start; the provider answers. -/
def demoCall (kid : String) (t : ℕ) : Call :=
  ⟨kid, nanos t, some demoDocument, some demoJwks, nanos t⟩

/-- The client after a first call, for the kid `a`. -/
def demoClient : Client String := ⟨some demoDocument, some ⟨[("a", "n")], 0⟩⟩

theorem call_demoCall : Client.call demoConfig ⟨none, none⟩ (demoCall "a" 0) =
    some (.ok "n", demoClient, ["https://idp/jwks"]) := by
  rfl

theorem within_demoCall (kid : String) {t : ℕ} (h : t < 3600) :
    Within demoJwks (demoCall "a" 0).fetchedAt (demoCall kid t) := by
  refine ⟨.inr rfl, ?_, le_rfl, ?_⟩
  · exact Nat.zero_le _
  · change nanos t < nanos 0 + nanos 3600
    unfold nanos
    omega

/-- A known kid twice and an unknown one once. -/
theorem jwks_requests_iff_demo :
    ∃ trace, demoClient.trace demoConfig
        [demoCall "a" 1, demoCall "x" 2, demoCall "a" 3] = some trace ∧
      (∀ kid, requestsFor trace kid ≤ 1) ∧ 1 + requests trace ≤ 3 := by
  have hcalls : ∀ c ∈ [demoCall "a" 1, demoCall "x" 2, demoCall "a" 3],
      Within demoJwks (demoCall "a" 0).fetchedAt c := by
    simp only [List.forall_mem_cons]
    exact ⟨within_demoCall _ (by decide), within_demoCall _ (by decide),
      within_demoCall _ (by decide), fun _ h => absurd h List.not_mem_nil⟩
  obtain ⟨trace, htrace, hiff, hle⟩ :=
    jwks_requests_iff call_demoCall (List.cons_ne_nil _ _) rfl hcalls
  have hone : ∀ kid, requestsFor trace kid ≤ 1 := by
    refine hiff.mpr fun kid hkid => ?_
    have ha : kid ≠ "a" := by
      rintro rfl
      exact hkid (by decide)
    change ["a", "x", "a"].count kid ≤ 1
    rw [List.count_cons_of_ne ha.symm]
    by_cases hx : "x" = kid
    · subst hx
      decide
    · rw [List.count_cons_of_ne hx, List.count_cons_of_ne ha.symm]
      exact Nat.zero_le 1
  exact ⟨trace, htrace, hone, hle hone⟩

/-- Two calls for a kid that the provider does not have, one and two seconds after a fetch: each
    fetches the set again, which is more than one GET for the kid and for each kid. -/
theorem unknown_kid_refetched :
    (∀ c ∈ [demoCall "x" 1, demoCall "x" 2],
      Within demoJwks (demoCall "a" 0).fetchedAt c) ∧
    Client.call demoConfig ⟨none, none⟩ (demoCall "a" 0) =
      some (.ok "n", demoClient, ["https://idp/jwks"]) ∧
    ∃ trace, demoClient.trace demoConfig [demoCall "x" 1, demoCall "x" 2] =
        some trace ∧
      requestsFor trace "x" = 2 ∧
      1 + (["x", "x"] : List String).dedup.length < 1 + requests trace := by
  refine ⟨?_, call_demoCall, [("x", 1), ("x", 1)], by rfl, by decide, by decide⟩
  simp only [List.forall_mem_cons]
  exact ⟨within_demoCall _ (by decide), within_demoCall _ (by decide),
    fun _ h => absurd h List.not_mem_nil⟩

end DbMcpGateway.Oauth.Oidc
