import DbMcpGateway.Oauth.Jwks

/-!
# The OIDC client under concurrent calls

`OidcClient` (auth/oidc/mod.rs:27) is shared by all requests of the gateway: its clones have one
cache for the discovery document and one for the key set of the provider. `authorize_url`
(auth/oidc/mod.rs:81) and `exchange_and_verify` (auth/oidc/mod.rs:106) are programs over the two
caches, the clocks and the requests to the provider, and run here as the calls of a service: any
number at once, dropped wherever they wait, with any answers of the provider. The sequential
account of the caches is in `Oauth.Jwks`.

No lock is held over a fetch, so an older document or key set may replace a newer one. A call that
finds one in a cache relies on the checks of the call that stored it.

`jsonwebtoken::decode_header` and `decode` are parameters, with the `Validation` that the code
hands to `decode`.

Results:

* `obeys_code`: what a call has exchanged when it writes to a cache, posts a code or returns.
* `vouched_of_found`, `keyVouched_of_found`: where the content of the caches comes from.
* `authorizeUrl_vouched`: where users are sent to log in.
* `credentials_stay_with_issuer`: the code, its verifier and the client secret are only ever sent
  to the token endpoint of a document of the configured issuer, over `https` or to this host.
* `identity_verified`: what stands behind an identity that `exchange_and_verify` returns.
-/

namespace DbMcpGateway.Oauth.Oidc

open Async Async.Prog Async.Service

/-! ## Model -/

/-- `jsonwebtoken::Algorithm`, as far as it is used here. -/
inductive Algorithm
  | rs256
  deriving DecidableEq

/-- `jsonwebtoken::Validation`: what the code sets. The leeway and the other fields have their
    defaults. -/
structure Validation where
  algorithms : List Algorithm
  requiredSpecClaims : List String
  issuer : List String
  audience : List String
  validateExp : Bool
  validateNbf : Bool
  deriving DecidableEq

/-- The fields of `AuthConfig` (auth/config.rs:28) that the client reads, and the libraries. -/
structure ClientConfig (Key : Type) extends Config Key where
  clientId : String
  clientSecret : String
  redirectUrl : String
  audience : String
  groupsClaim : String
  /-- The text of a URL after pairs were appended to its query. -/
  appendPairs : String → List (String × String) → String
  /-- The `kid` of `decode_header`, if the header can be read. -/
  decodeHeader : String → Option (Option String)
  /-- The claims of `decode` at a Unix time, if the token passes. -/
  decode : String → Key → Validation → ℕ → Option Json

/-- What the client does outside of its own code. -/
inductive OidcReq (Key : Type)
  /-- A request of `discover` or `decoding_key`. -/
  | idp (r : IdpReq Key)
  | postToken (url : String) (form : List (String × String))
  /-- The clock that `decode` reads. -/
  | unixNow

/-- The replies. A POST that fails, is not answered with success or not with an ID token has
    none. -/
abbrev OidcResp {Key : Type} : OidcReq Key → Type
  | .idp r => IdpResp r
  | .postToken _ _ => Option String
  | .unixNow => ℕ

abbrev OidcProg (Key : Type) := Prog (OidcReq Key) OidcResp

/-- `SCOPES` (auth/oidc/helpers.rs:7). -/
def scopes : String := "openid email profile groups"

/-- `claim_is_true` (auth/oidc/helpers.rs:28). -/
def claimIsTrue : Option Json → Bool
  | some (.bool b) => b
  | some (.str s) => Text.eqIgnoreAsciiCase s "true"
  | _ => false

/-- `Value::get` with a name. -/
def claim (claims : Json) (name : String) : Option Json :=
  match claims with
  | .obj members => OrdMap.get? members name
  | _ => none

def claimStr (claims : Json) (name : String) : Option String := Json.string (claim claims name)

/-- The strings of a claim that is an array, and nothing for any other claim. -/
def claimStrings (claims : Json) (name : String) : List String :=
  match claim claims name with
  | some (.arr items) => items.filterMap fun item => Json.string (some item)
  | _ => []

section

variable {Key : Type} (cfg : ClientConfig Key)

abbrev request {α : Type} (r : OidcReq Key) (h : OidcResp r = α := by rfl) : OidcProg Key α :=
  askAs r h

/-- A program over the caches and the provider as a part of the client. -/
def client {α : Type} (p : IdpProg Key α) : OidcProg Key α := p.embed .idp fun _ x => x

/-- The pairs that `authorize_url` appends. -/
def authorizePairs (state nonce codeChallenge : String) : List (String × String) :=
  [("response_type", "code"), ("client_id", cfg.clientId), ("redirect_uri", cfg.redirectUrl),
    ("scope", scopes), ("state", state), ("nonce", nonce), ("code_challenge", codeChallenge),
    ("code_challenge_method", "S256")]

/-- `authorize_url` (auth/oidc/mod.rs:81). -/
def authorizeUrl (state nonce codeChallenge : String) : OidcProg Key (Except AuthError String) :=
  okOr (client (discover cfg.toConfig)) .error fun discovery =>
  someOr (ret (cfg.parseUrl discovery.authorizationEndpoint)) (.error .discovery) fun _ =>
  ret (.ok (cfg.appendPairs discovery.authorizationEndpoint
    (authorizePairs cfg state nonce codeChallenge)))

/-- The form that `exchange_and_verify` posts. -/
def tokenForm (code codeVerifier : String) : List (String × String) :=
  [("grant_type", "authorization_code"), ("code", code), ("redirect_uri", cfg.redirectUrl),
    ("client_id", cfg.clientId), ("client_secret", cfg.clientSecret),
    ("code_verifier", codeVerifier)]

/-- The `Validation` of `verify_id_token`. -/
def idTokenValidation : Validation where
  algorithms := [.rs256]
  requiredSpecClaims := ["exp", "iss", "aud", "sub"]
  issuer := [cfg.issuer]
  audience := [cfg.audience]
  validateExp := true
  validateNbf := true

/-- The end of `verify_id_token`: the identity of verified claims. -/
def identityOf (claims : Json) (expectedNonce : String) : Except AuthError GrantIdentity :=
  if (claimStr claims "nonce").getD "" ≠ expectedNonce then .error .idToken
  else match claimStr claims "sub" with
    | none => .error .idToken
    | some sub =>
      match (claimStr claims "email").filter (· ≠ "") with
      | none => .error .emailUnverified
      | some email =>
        if claimIsTrue (claim claims "email_verified") then
          .ok ⟨sub, email, claimStrings claims cfg.groupsClaim⟩
        else .error .emailUnverified

/-- `verify_id_token` (auth/oidc/mod.rs:137). -/
def verifyIdToken (idToken expectedNonce : String) : OidcProg Key (Except AuthError GrantIdentity) :=
  someOr (ret (cfg.decodeHeader idToken)) (.error .idToken) fun kid =>
  someOr (ret kid) (.error .idToken) fun kid =>
  okOr (client (decodingKey cfg.toConfig kid)) .error fun key => do
  let now : ℕ ← request .unixNow
  someOr (ret (cfg.decode idToken key (idTokenValidation cfg) now)) (.error .idToken) fun claims =>
  ret (identityOf cfg claims expectedNonce)

/-- `exchange_and_verify` (auth/oidc/mod.rs:106). -/
def exchangeAndVerify (code expectedNonce codeVerifier : String) :
    OidcProg Key (Except AuthError GrantIdentity) :=
  okOr (client (discover cfg.toConfig)) .error fun discovery =>
  someOr (request (.postToken discovery.tokenEndpoint (tokenForm cfg code codeVerifier)))
    (.error .codeExchange) fun (idToken : String) =>
  verifyIdToken cfg idToken expectedNonce

/-! ## The shared client -/

/-- The caches and the monotonic clock. -/
structure OidcState (Key : Type) where
  caches : Client Key
  now : ℕ

/-- `OidcClient::new` (auth/oidc/mod.rs:50), at some time. -/
def OidcState.new (now : ℕ) : OidcState Key := ⟨⟨none, none⟩, now⟩

/-- What the client does not determine: the answers of the provider, the wall clock, and the time
    that passes. -/
structure Provider where
  discovery : Option DiscoveryDocument
  jwks : Option (List Jwk)
  token : Option String
  unix : ℕ
  passes : ℕ

inductive OidcCall
  | authorizeUrl (state nonce codeChallenge : String)
  | exchangeAndVerify (code expectedNonce codeVerifier : String)
  deriving DecidableEq

/-- What a call returns. -/
inductive OidcAnswer
  | url (url : String)
  | identity (identity : GrantIdentity)
  | error (e : AuthError)
  deriving DecidableEq

def OidcAnswer.of {α : Type} (f : α → OidcAnswer) : Except AuthError α → OidcAnswer
  | .ok a => f a
  | .error e => .error e

/-- The program of a call. -/
def OidcCall.code : OidcCall → OidcProg Key OidcAnswer
  | .authorizeUrl state nonce codeChallenge => do
    let url ← Oidc.authorizeUrl cfg state nonce codeChallenge
    ret (.of .url url)
  | .exchangeAndVerify code expectedNonce codeVerifier => do
    let identity ← Oidc.exchangeAndVerify cfg code expectedNonce codeVerifier
    ret (.of .identity identity)

/-- One request on the shared client. -/
def serveClient (s : OidcState Key) (o : Provider) :
    (r : OidcReq Key) → Option (OidcResp r × OidcState Key)
  | .idp .readDiscovery => some (s.caches.discovery, s)
  | .idp (.writeDiscovery doc) => some ((), { s with caches.discovery := some doc })
  | .idp .readJwks => some (s.caches.jwks, s)
  | .idp (.writeJwks cache) => some ((), { s with caches.jwks := some cache })
  | .idp (.getDiscovery _) => some (o.discovery, s)
  | .idp (.getJwks _) => some (o.jwks, s)
  | .idp (.elapsed since) => some (s.now - since, s)
  | .idp .instantNow => some (s.now, s)
  | .postToken _ _ => some (o.token, s)
  | .unixNow => some (o.unix, s)

/-- A request to the provider whose answer is lost; it may have arrived. -/
def lost : (r : OidcReq Key) → Option (OidcResp r)
  | .idp (.getDiscovery _) => some none
  | .idp (.getJwks _) => some none
  | .postToken _ _ => some none
  | _ => none

/-- The client, shared by its calls. The log keeps the monotonic clock. -/
def sharedClient : Service (OidcReq Key) OidcResp (OidcState Key) Provider ℕ OidcCall OidcAnswer where
  serve := serveClient
  failure := lost
  env s o := some { s with now := s.now + o.passes }
  accept s _ := s
  stamp := OidcState.now
  code := OidcCall.code cfg

/-- A state of the client under execution. -/
abbrev OidcPool (Key : Type) := Pool (OidcReq Key) OidcResp (OidcState Key) ℕ OidcCall OidcAnswer

end

/-! ## Specification -/

section

variable {Key : Type} (cfg : Config Key)

/-- The URL is `https`, or `http` to this host. -/
def Secure (raw : String) : Prop :=
  ∃ url, cfg.parseUrl raw = some url ∧ (url.scheme = "https" ∨ url.scheme = "http" ∧ isLoopback url)

/-- A document of the configured issuer, with endpoints that secrets may be sent to. -/
structure Trusted (doc : DiscoveryDocument) : Prop where
  issuer : trimSlashes doc.issuer = trimSlashes cfg.issuer
  authorization : Secure cfg doc.authorizationEndpoint
  token : Secure cfg doc.tokenEndpoint
  jwks : Secure cfg doc.jwksUri

def discoveryUrl : String := trimSlashes cfg.issuer ++ "/.well-known/openid-configuration"

def Offers (jwks : List Jwk) (kid : String) (key : Key) : Prop :=
  ∃ jwk ∈ jwks, jwk.kid = some kid ∧ jwk.kty = "RSA" ∧ (jwk.use_ = none ∨ jwk.use_ = some "sig") ∧
    ∃ n e, jwk.n = some n ∧ jwk.e = some e ∧ cfg.fromRsaComponents n e = some key

/-! ### What a call has exchanged -/

abbrev OidcTrail (Key : Type) := List (Exchange (OidcReq Key) OidcResp)

variable (es : OidcTrail Key)

/-- The document was in the cache, or was fetched and checked. -/
def Found (doc : DiscoveryDocument) : Prop :=
  ⟨.idp .readDiscovery, some doc⟩ ∈ es ∨
    Trusted cfg doc ∧ ⟨.idp (.getDiscovery (discoveryUrl cfg)), some doc⟩ ∈ es

/-- The key set was fetched from a document's URL, and the clock was read. -/
structure Fetched (doc : DiscoveryDocument) (jwks : List Jwk) (fetchedAt : ℕ) : Prop where
  found : Found cfg es doc
  answered : ⟨.idp (.getJwks doc.jwksUri), some jwks⟩ ∈ es
  clock : ⟨.idp .instantNow, fetchedAt⟩ ∈ es

/-- The key is one of a fresh set in the cache, or of a set that was fetched. -/
def KeyFound (kid : String) (key : Key) : Prop :=
  (∃ cache, ∃ elapsed : ℕ, ⟨.idp .readJwks, some cache⟩ ∈ es ∧
    ⟨.idp (.elapsed cache.fetchedAt), elapsed⟩ ∈ es ∧ elapsed < jwksTtl ∧
    OrdMap.get? cache.keys kid = some key) ∨
  ∃ doc jwks fetchedAt, Fetched cfg es doc jwks fetchedAt ∧
    OrdMap.get? (byKid cfg jwks) kid = some key

variable {cfg es} {es' : OidcTrail Key}

variable {doc : DiscoveryDocument} {jwks : List Jwk} {kid : String} {key : Key}

theorem Found.mono (h : Found cfg es doc) (hle : es <+: es') :
    Found cfg es' doc :=
  h.imp (hle.subset ·) fun h => ⟨h.1, hle.subset h.2⟩

theorem Fetched.mono {fetchedAt : ℕ} (h : Fetched cfg es doc jwks fetchedAt) (hle : es <+: es') :
    Fetched cfg es' doc jwks fetchedAt :=
  ⟨h.found.mono hle, hle.subset h.answered, hle.subset h.clock⟩

theorem KeyFound.mono (h : KeyFound cfg es kid key) (hle : es <+: es') :
    KeyFound cfg es' kid key := by
  rcases h with ⟨cache, elapsed, hread, helapsed, hlt, hkey⟩ | ⟨doc, jwks, fetchedAt, hfetched, hkey⟩
  · exact .inl ⟨cache, elapsed, hle.subset hread, hle.subset helapsed, hlt, hkey⟩
  · exact .inr ⟨doc, jwks, fetchedAt, hfetched.mono hle, hkey⟩

/-! ## Checks -/

theorem requireSecureUrl_eq_ok {raw : String} (h : requireSecureUrl cfg raw = .ok ()) :
    Secure cfg raw := by
  unfold requireSecureUrl at h
  split at h
  · cases h
  · rename_i url hurl
    split_ifs at h with hhttps hloopback
    · exact ⟨url, hurl, .inl hhttps⟩
    · exact ⟨url, hurl, .inr hloopback⟩

theorem checkDocument_eq_ok (h : checkDocument cfg doc = .ok ()) :
    Trusted cfg doc := by
  unfold checkDocument at h
  split_ifs at h with hissuer
  · cases h
  · cases hauthorization : requireSecureUrl cfg doc.authorizationEndpoint with
    | error e =>
      rw [hauthorization] at h
      cases h
    | ok _ =>
      cases htoken : requireSecureUrl cfg doc.tokenEndpoint with
      | error e =>
        rw [hauthorization, htoken] at h
        cases h
      | ok _ =>
        rw [hauthorization, htoken] at h
        exact ⟨not_not.mp hissuer, requireSecureUrl_eq_ok hauthorization,
          requireSecureUrl_eq_ok htoken, requireSecureUrl_eq_ok h⟩

theorem offers_of_usableKey {jwk : Jwk} (hjwk : jwk ∈ jwks)
    (h : usableKey cfg jwk = some (kid, key)) : Offers cfg jwks kid key := by
  refine ⟨jwk, hjwk, ?_⟩
  obtain ⟨kid', kty, use', n, e⟩ := jwk
  simp only [usableKey, Option.bind_eq_bind, Option.bind_eq_some_iff, Option.guard_eq_some',
    Option.pure_def, Option.some.injEq, Prod.mk.injEq] at h
  obtain ⟨_, rfl, _, rfl, _, huse, n, rfl, e, rfl, key', hkey, rfl, rfl⟩ := h
  refine ⟨rfl, rfl, ?_, n, e, rfl, rfl, hkey⟩
  cases use' with
  | none => exact .inl rfl
  | some u => exact .inr (congrArg some (of_decide_eq_true huse))

theorem offers_of_byKid (h : OrdMap.get? (byKid cfg jwks) kid = some key) :
    Offers cfg jwks kid key := by
  obtain ⟨⟨kid', key'⟩, hfind, rfl⟩ := Option.map_eq_some_iff.mp h
  obtain rfl : kid' = kid := by simpa using List.find?_some hfind
  have hmem := OrdMap.mem_of_mem_ofList (List.mem_of_find?_eq_some hfind)
  obtain ⟨jwk, hjwk, husable⟩ := List.mem_filterMap.mp hmem
  exact offers_of_usableKey hjwk husable

end

/-! ## Paths -/

section

variable {Key : Type} (cfg : ClientConfig Key)

def Ready (c : OidcCall) (es : OidcTrail Key) : OidcReq Key → Prop
  | .idp (.writeDiscovery doc) => Trusted cfg.toConfig doc ∧
      ⟨.idp (.getDiscovery (discoveryUrl cfg.toConfig)), some doc⟩ ∈ es
  | .idp (.writeJwks cache) => ∃ doc jwks, Fetched cfg.toConfig es doc jwks cache.fetchedAt ∧
      cache.keys = byKid cfg.toConfig jwks
  | .postToken url form => ∃ doc code nonce verifier, c = .exchangeAndVerify code nonce verifier ∧
      Found cfg.toConfig es doc ∧ url = doc.tokenEndpoint ∧ form = tokenForm cfg code verifier
  | _ => True

/-- What `verify_id_token` has checked. -/
structure Checked (idToken kid : String) (key : Key) (now : ℕ) (claims : Json) (nonce : String)
    (identity : GrantIdentity) : Prop where
  header : cfg.decodeHeader idToken = some (some kid)
  decoded : cfg.decode idToken key (idTokenValidation cfg) now = some claims
  nonce : (claimStr claims "nonce").getD "" = nonce
  sub : claimStr claims "sub" = some identity.sub
  email : claimStr claims "email" = some identity.email
  nonempty : identity.email ≠ ""
  verified : claimIsTrue (claim claims "email_verified") = true
  groups : identity.groups = claimStrings claims cfg.groupsClaim

/-- What a call has exchanged for the identity that it returns. -/
structure Earned (es : OidcTrail Key) (code nonce verifier : String) (identity : GrantIdentity)
    (doc : DiscoveryDocument) (idToken kid : String) (key : Key) (now : ℕ) (claims : Json) :
    Prop where
  found : Found cfg.toConfig es doc
  posted : ⟨.postToken doc.tokenEndpoint (tokenForm cfg code verifier), some idToken⟩ ∈ es
  keyFound : KeyFound cfg.toConfig es kid key
  clock : ⟨.unixNow, now⟩ ∈ es
  checked : Checked cfg idToken kid key now claims nonce identity

def Proven (c : OidcCall) (es : OidcTrail Key) : OidcAnswer → Prop
  | .url url => ∃ state nonce codeChallenge doc, c = .authorizeUrl state nonce codeChallenge ∧
      Found cfg.toConfig es doc ∧
      url = cfg.appendPairs doc.authorizationEndpoint (authorizePairs cfg state nonce codeChallenge)
  | .identity identity => ∃ code nonce verifier doc idToken kid key now claims,
      c = .exchangeAndVerify code nonce verifier ∧
      Earned cfg es code nonce verifier identity doc idToken kid key now claims
  | .error _ => True

variable {cfg}

theorem checked_of_identityOf {idToken kid nonce : String} {key : Key} {now : ℕ} {claims : Json}
    {identity} (hheader : cfg.decodeHeader idToken = some (some kid))
    (hdecode : cfg.decode idToken key (idTokenValidation cfg) now = some claims)
    (h : identityOf cfg claims nonce = .ok identity) :
    Checked cfg idToken kid key now claims nonce identity := by
  unfold identityOf at h
  split at h
  · cases h
  · rename_i hnonce
    split at h
    · cases h
    · rename_i sub hsub
      split at h
      · cases h
      · rename_i email hemail
        rw [Option.filter_eq_some_iff] at hemail
        split_ifs at h with hverified
        cases h
        exact ⟨hheader, hdecode, not_not.mp hnonce, hsub, hemail.1, of_decide_eq_true hemail.2,
          hverified, rfl⟩

variable {c : OidcCall} {es : OidcTrail Key}

theorem obeys_acceptDocument {doc}
    (h : ⟨.idp (.getDiscovery (discoveryUrl cfg.toConfig)), some doc⟩ ∈ es) :
    (Protocol.history (Ready cfg c)).Obeys
      (fun es x => ∀ doc, x = .ok doc → Found cfg.toConfig es doc) es
      (client (acceptDocument cfg.toConfig doc)) := by
  unfold acceptDocument
  cases hcheck : checkDocument cfg.toConfig doc with
  | error e => rintro _ ⟨⟩
  | ok _ =>
    have htrusted := checkDocument_eq_ok hcheck
    refine ⟨⟨htrusted, h⟩, fun _ _ => ?_⟩
    rintro _ ⟨⟩
    exact .inr ⟨htrusted, List.mem_append_left _ h⟩

theorem obeys_discover (es : OidcTrail Key) :
    (Protocol.history (Ready cfg c)).Obeys
      (fun es x => ∀ doc, x = .ok doc → Found cfg.toConfig es doc) es
      (client (discover cfg.toConfig)) := by
  refine ⟨trivial, fun cached _ => ?_⟩
  cases cached with
  | some doc =>
    rintro _ ⟨⟩
    exact .inl List.mem_concat_self
  | none =>
    change (Protocol.history _).Obeys _ _ (client (fetchDocument cfg.toConfig))
    unfold fetchDocument
    cases requireSecureUrl cfg.toConfig cfg.issuer with
    | error e => rintro _ ⟨⟩
    | ok _ =>
      refine ⟨trivial, fun answer _ => ?_⟩
      cases answer with
      | none => rintro _ ⟨⟩
      | some doc =>
        dsimp only [Prog.bind]
        exact obeys_acceptDocument List.mem_concat_self

theorem obeys_cachedKey (es : OidcTrail Key) (kid : String) :
    (Protocol.history (Ready cfg c)).Obeys
      (fun es x => ∀ key, x = some key → KeyFound cfg.toConfig es kid key) es
      (client (cachedKey kid)) := by
  refine ⟨trivial, fun cached _ => ?_⟩
  cases cached with
  | none => rintro _ ⟨⟩
  | some cache =>
    refine ⟨trivial, fun elapsed _ key hkey => ?_⟩
    change (if _ then _ else _) = _ at hkey
    split_ifs at hkey with hlt
    exact .inl ⟨cache, elapsed, List.mem_append_left _ List.mem_concat_self, List.mem_concat_self, hlt,
      hkey⟩

theorem obeys_fetchKey (es : OidcTrail Key) (kid : String) :
    (Protocol.history (Ready cfg c)).Obeys
      (fun es x => ∀ key, x = .ok key → KeyFound cfg.toConfig es kid key) es
      (client (fetchKey cfg.toConfig kid)) := by
  refine ((obeys_discover es).imp fun es x hx => ?_).embed_bind
  cases x with
  | error e => rintro _ ⟨⟩
  | ok doc =>
    refine ⟨trivial, fun answer _ => ?_⟩
    cases answer with
    | none => rintro _ ⟨⟩
    | some jwks =>
      refine ⟨trivial, fun fetchedAt _ => ?_⟩
      have hfetched : Fetched cfg.toConfig (es ++ [⟨.idp (.getJwks doc.jwksUri), some jwks⟩] ++
          [⟨.idp .instantNow, fetchedAt⟩]) doc jwks fetchedAt :=
        ⟨(hx doc rfl).mono (by simp), List.mem_append_left _ List.mem_concat_self,
          List.mem_concat_self⟩
      refine ⟨⟨doc, jwks, hfetched, rfl⟩, fun _ _ key hkey => ?_⟩
      refine .inr ⟨doc, jwks, fetchedAt, hfetched.mono (List.prefix_append _ _), ?_⟩
      change (OrdMap.get? (byKid cfg.toConfig jwks) kid).elim _ _ = _ at hkey
      cases hget : OrdMap.get? (byKid cfg.toConfig jwks) kid with
      | none =>
        rw [hget] at hkey
        cases hkey
      | some key' =>
        rw [hget] at hkey
        cases hkey
        rfl

theorem obeys_decodingKey (es : OidcTrail Key) (kid : String) :
    (Protocol.history (Ready cfg c)).Obeys
      (fun es x => ∀ key, x = .ok key → KeyFound cfg.toConfig es kid key) es
      (client (decodingKey cfg.toConfig kid)) := by
  refine ((obeys_cachedKey es kid).imp fun es x hx => ?_).embed_bind
  cases x with
  | none => exact obeys_fetchKey es kid
  | some key =>
    rintro _ ⟨⟩
    exact hx key rfl

theorem obeys_authorizeUrl (state nonce codeChallenge : String) :
    (Protocol.history (Ready cfg (.authorizeUrl state nonce codeChallenge))).Obeys
      (Proven cfg (.authorizeUrl state nonce codeChallenge)) []
      (OidcCall.code cfg (.authorizeUrl state nonce codeChallenge)) := by
  refine Protocol.Obeys.bind (Protocol.Obeys.bind ((obeys_discover _).imp ?_))
  rintro es (e | doc) hfound
  · exact trivial
  · change (Protocol.history _).Obeys _ es (someOr (ret (cfg.parseUrl doc.authorizationEndpoint)) _ _)
    cases cfg.parseUrl doc.authorizationEndpoint with
    | none => exact trivial
    | some url => exact ⟨state, nonce, codeChallenge, doc, rfl, hfound doc rfl, rfl⟩

theorem obeys_verifyIdToken (es : OidcTrail Key) (idToken nonce : String) :
    (Protocol.history (Ready cfg c)).Obeys
      (fun es' x => es <+: es' ∧ ∀ identity, x = .ok identity → ∃ kid key now claims,
        KeyFound cfg.toConfig es' kid key ∧ ⟨.unixNow, now⟩ ∈ es' ∧
        Checked cfg idToken kid key now claims nonce identity) es
      (verifyIdToken cfg idToken nonce) := by
  refine Protocol.Obeys.grows ?_
  unfold verifyIdToken
  cases hheader : cfg.decodeHeader idToken with
  | none => rintro _ ⟨⟩
  | some kid =>
    cases kid with
    | none => rintro _ ⟨⟩
    | some kid =>
      change (Protocol.history _).Obeys _ es (okOr (client (decodingKey cfg.toConfig kid)) _ _)
      refine Protocol.Obeys.bind ((obeys_decodingKey _ kid).imp ?_)
      rintro es' (e | key) hkey
      · rintro _ ⟨⟩
      · refine ⟨trivial, fun now _ => ?_⟩
        change (Protocol.history _).Obeys _ _ (someOr (ret (cfg.decode idToken key _ now)) _ _)
        cases hdecode : cfg.decode idToken key (idTokenValidation cfg) now with
        | none => rintro _ ⟨⟩
        | some claims =>
          intro identity hidentity
          exact ⟨kid, key, now, claims, (hkey key rfl).mono (List.prefix_append _ _),
            List.mem_concat_self, checked_of_identityOf hheader hdecode hidentity⟩

theorem obeys_exchangeAndVerify (code nonce verifier : String) :
    (Protocol.history (Ready cfg (.exchangeAndVerify code nonce verifier))).Obeys
      (Proven cfg (.exchangeAndVerify code nonce verifier)) []
      (OidcCall.code cfg (.exchangeAndVerify code nonce verifier)) := by
  refine Protocol.Obeys.bind (Protocol.Obeys.bind ((obeys_discover _).imp ?_))
  rintro es (e | doc) hfound
  · exact trivial
  · have hdoc := hfound doc rfl
    refine ⟨⟨doc, code, nonce, verifier, rfl, hdoc, rfl, rfl⟩, fun answer _ => ?_⟩
    cases answer with
    | none => exact trivial
    | some idToken =>
      refine (obeys_verifyIdToken _ idToken nonce).imp ?_
      rintro es' (e | identity) ⟨hes, hidentity⟩
      · exact trivial
      · obtain ⟨kid, key, now, claims, hkey, hclock, hchecked⟩ := hidentity identity rfl
        exact ⟨code, nonce, verifier, doc, idToken, kid, key, now, claims, rfl,
          hdoc.mono ((List.prefix_append _ _).trans hes), hes.subset List.mem_concat_self, hkey, hclock,
          hchecked⟩

/-- What a call asks and returns, by what it has exchanged. -/
theorem obeys_code (c : OidcCall) :
    (Protocol.history (Ready cfg c)).Obeys (Proven cfg c) [] (c.code cfg) := by
  cases c with
  | authorizeUrl state nonce codeChallenge => exact obeys_authorizeUrl state nonce codeChallenge
  | exchangeAndVerify code nonce verifier => exact obeys_exchangeAndVerify code nonce verifier

/-! ## The caches -/

inductive Cached (Key : Type)
  | document (doc : DiscoveryDocument)
  | keySet (cache : JwksCache Key)

/-- The request that stores it. -/
def Cached.write : Cached Key → OidcReq Key
  | .document doc => .idp (.writeDiscovery doc)
  | .keySet cache => .idp (.writeJwks cache)

def Cached.read : Cached Key → Exchange (OidcReq Key) OidcResp
  | .document doc => ⟨.idp .readDiscovery, some doc⟩
  | .keySet cache => ⟨.idp .readJwks, some cache⟩

def Cached.In (s : OidcState Key) : Cached Key → Prop
  | .document doc => s.caches.discovery = some doc
  | .keySet cache => s.caches.jwks = some cache

theorem serveClient_put {s s'} {o : Provider} {r x}
    {item : Cached Key} (h : serveClient s o r = some (x, s')) (hin : item.In s') :
    item.In s ∨ r = item.write := by
  cases r with
  | idp r =>
    cases r with
    | writeDiscovery doc =>
      cases h
      cases item with
      | document doc' =>
        cases hin
        exact .inr rfl
      | keySet cache => exact .inl hin
    | writeJwks cache =>
      cases h
      cases item with
      | document doc' => exact .inl hin
      | keySet cache' =>
        cases hin
        exact .inr rfl
    | readDiscovery | readJwks | getDiscovery | getJwks | elapsed | instantNow =>
      cases h
      exact .inl hin
  | postToken | unixNow =>
    cases h
    exact .inl hin

theorem serveClient_read {s s'} {o : Provider} {r x}
    {item : Cached Key} (h : serveClient s o r = some (x, s')) (hread : ⟨r, x⟩ = item.read) :
    item.In s := by
  cases item with
  | document doc | keySet cache =>
    cases hread
    exact congrArg Prod.fst (Option.some.inj h)

/-- What is in a cache passes from the call that stored it to those that find it. -/
theorem cached_passage : Passage (sharedClient cfg) (fun s item => Cached.In s item)
    (fun _ r _ item => r = Cached.write item) (fun r x => ∃ item : Cached Key, ⟨r, x⟩ = item.read)
    (fun _ r x item => ⟨r, x⟩ = Cached.read item) where
  put h hin := serveClient_put h hin
  hit h hread := by
    obtain ⟨item, hread⟩ := hread
    exact ⟨item, serveClient_read h hread, hread⟩
  accept hin := hin
  env := by
    intro s o s' item henv hin
    cases henv
    cases item with
    | document doc | keySet cache => exact hin

section

variable {now : ℕ} {as : List (Act OidcCall Provider)} {s : OidcPool Key}

theorem not_in_new (item : Cached Key) : ¬ item.In (.new now) := by
  cases item with
  | document doc | keySet cache => exact nofun

/-- A reply that is not an error reply was given by the provider or the caches. -/
theorem executed_of_seen {i : ℕ} {es} (hseen : (sharedClient cfg).Seen s.log i es)
    {r x} (hmem : ⟨r, x⟩ ∈ es) (hx : lost r ≠ some x) :
    ∃ t, s.Executed i t r x := by
  obtain ⟨es', t, hdeed, -⟩ := hseen.deed hmem hx
  exact ⟨t, es', hdeed⟩

theorem ready_of_issued {l : Sent (OidcReq Key) OidcResp} (hl : (sharedClient cfg).Issued s l) :
    ∃ c, Ready cfg c l.before l.req := by
  obtain ⟨e, -, -, hissues⟩ := hl
  exact ⟨e.call, (obeys_code e.call).issues hissues⟩

/-- What a call finds in a cache was stored by a call, when it was ready to. -/
theorem stored_of_read (h : Machine.run (sharedClient cfg).step (start (.new now)) as = some s)
    {i t : ℕ} (item : Cached Key) (hread : s.Executed i t item.read.1 item.read.2) :
    ∃ k es, (sharedClient cfg).Seen s.log k es ∧ ∃ c, Ready cfg c es item.write := by
  obtain ⟨es, hmem⟩ := hread
  obtain ⟨l₁, l₂, hlog⟩ := List.append_of_mem hmem
  obtain ⟨item', hshown, d, hd, hwrite⟩ :=
    cached_passage.shown_of_log not_in_new h hlog ⟨item, rfl⟩
  obtain rfl : item = item' := by
    cases item <;> cases item' <;> cases hshown <;> rfl
  have hsound := sound_of_run h
  have hissued := hsound.log d (hlog ▸ List.mem_append_left _ hd)
  obtain ⟨c, hready⟩ := ready_of_issued hissued
  rw [hwrite] at hready
  exact ⟨d.task, d.before, hsound.seen_of_issued hissued, c, hready⟩

end

end

/-! ## Results -/

section

variable {Key : Type} (cfg : ClientConfig Key) (s : OidcPool Key)

structure Vouched (doc : DiscoveryDocument) : Prop where
  trusted : Trusted cfg.toConfig doc
  answered : ∃ i t, s.Executed i t (.idp (.getDiscovery (discoveryUrl cfg.toConfig))) (some doc)

/-- The key is offered for the kid by a set that call `k` got from the URL of a vouched document,
    and call `i` used it: it fetched the set itself, or found it in the cache less than `JWKS_TTL`
    after the clock was read for it. -/
def KeyVouched (i : ℕ) (kid : String) (key : Key) : Prop :=
  ∃ k doc jwks t fetchedAt, Vouched cfg s doc ∧
    s.Executed k t (.idp (.getJwks doc.jwksUri)) (some jwks) ∧ Offers cfg.toConfig jwks kid key ∧
    s.Executed k fetchedAt (.idp .instantNow) fetchedAt ∧
    (k = i ∨ ∃ used, s.Executed i used (.idp (.elapsed fetchedAt)) (used - fetchedAt) ∧
      used < fetchedAt + jwksTtl)

variable {cfg s} {now : ℕ} {as : List (Act OidcCall Provider)}

section

variable (h : Machine.run (sharedClient cfg).step (start (.new now)) as = some s) {i : ℕ}
  {es : OidcTrail Key} (hseen : (sharedClient cfg).Seen s.log i es)

include h hseen

/-- A document that a call found or fetched. -/
theorem vouched_of_found {doc} (hfound : Found cfg.toConfig es doc) : Vouched cfg s doc := by
  rcases hfound with hread | ⟨htrusted, hget⟩
  · obtain ⟨t, hread⟩ := executed_of_seen hseen hread nofun
    obtain ⟨k, es', hseen', c, htrusted, hget⟩ := stored_of_read h (.document doc) hread
    obtain ⟨t', hget⟩ := executed_of_seen hseen' hget nofun
    exact ⟨htrusted, k, t', hget⟩
  · obtain ⟨t, hget⟩ := executed_of_seen hseen hget nofun
    exact ⟨htrusted, i, t, hget⟩

/-- A key set that a call fetched. -/
theorem executed_of_fetched {doc : DiscoveryDocument} {jwks : List Jwk} {fetchedAt : ℕ}
    (hfetched : Fetched cfg.toConfig es doc jwks fetchedAt) :
    Vouched cfg s doc ∧ (∃ t, s.Executed i t (.idp (.getJwks doc.jwksUri)) (some jwks)) ∧
      s.Executed i fetchedAt (.idp .instantNow) fetchedAt := by
  obtain ⟨t, es', hclock⟩ := executed_of_seen hseen hfetched.clock nofun
  obtain ⟨s₀, o, s₁, hserve, hstamp⟩ := log_served h hclock
  -- The clock is read and stamped in the same state.
  obtain rfl : fetchedAt = t := (congrArg Prod.fst (Option.some.inj hserve)).symm.trans hstamp.symm
  exact ⟨vouched_of_found h hseen hfetched.found,
    executed_of_seen hseen hfetched.answered nofun, es', hclock⟩

theorem keyVouched_of_found {kid : String} {key : Key}
    (hkey : KeyFound cfg.toConfig es kid key) : KeyVouched cfg s i kid key := by
  rcases hkey with ⟨cache, elapsed, hread, helapsed, hlt, hkey⟩ | ⟨doc, jwks, fetchedAt, hfetched, hkey⟩
  · obtain ⟨t, hread⟩ := executed_of_seen hseen hread nofun
    obtain ⟨k, es', hseen', c, doc, jwks, hfetched, hkeys⟩ :=
      stored_of_read h (.keySet cache) hread
    obtain ⟨hvouched, ⟨t', hget⟩, hclock⟩ := executed_of_fetched h hseen' hfetched
    obtain ⟨used, es'', hused⟩ := executed_of_seen hseen helapsed nofun
    obtain ⟨s₀, o, s₁, hserve, hstamp⟩ := log_served h hused
    obtain rfl : elapsed = used - cache.fetchedAt := by
      rw [show used = s₀.now from hstamp]
      exact (congrArg Prod.fst (Option.some.inj hserve)).symm
    refine ⟨k, doc, jwks, t', cache.fetchedAt, hvouched, hget, offers_of_byKid (hkeys ▸ hkey), hclock,
      .inr ⟨used, ⟨es'', hused⟩, ?_⟩⟩
    unfold jwksTtl nanos at hlt ⊢
    omega
  · obtain ⟨hvouched, ⟨t, hget⟩, hclock⟩ := executed_of_fetched h hseen hfetched
    exact ⟨i, doc, jwks, t, fetchedAt, hvouched, hget, offers_of_byKid hkey, hclock, .inl rfl⟩

end

/-! ### Two logins -/

/-- A gateway registered at the provider of `demoConfig`; tokens are taken for signed with the key
    `n`. -/
def demoGateway : ClientConfig String :=
  { demoConfig with
    clientId := "gateway"
    clientSecret := "secret"
    redirectUrl := "https://gateway/callback"
    audience := "gateway"
    groupsClaim := "groups"
    appendPairs := appendForm
    decodeHeader := fun _ => some (some "a")
    decode := fun token key _ _ =>
      if key = "n" then
        some (.obj [("nonce", .str "nonce"), ("sub", .str token), ("email", .str "a@b.c"),
          ("email_verified", .bool true), ("groups", .arr [.str "dba"])])
      else none }

/-- The provider, which answers every request. -/
def demoProvider : Provider := ⟨some demoDocument, some demoJwks, some "token", 0, nanos 5⟩

/-- The first call fills both caches, the second one uses them five seconds later. -/
def demoActs : List (Act OidcCall Provider) :=
  .arrive (.exchangeAndVerify "code" "nonce" "verifier") ::
    List.replicate 10 (.serve 0 demoProvider) ++
    .env demoProvider :: .arrive (.exchangeAndVerify "code'" "nonce" "verifier'") ::
    List.replicate 5 (.serve 1 demoProvider)

/-- Call `i` has made the request: it waits for the answer, got it, or left it behind. -/
def Sends (s : OidcPool Key) (i : ℕ) (r : OidcReq Key) : Prop :=
  s.waits i = some r ∨ (∃ l ∈ s.late, l.task = i ∧ l.req = r) ∨ ∃ d ∈ s.log, d.task = i ∧ d.req = r

theorem Sends.issued (h : (sharedClient cfg).Sound s) {i : ℕ} {r}
    (hsends : Sends s i r) : ∃ es, (sharedClient cfg).Issued s ⟨i, es, r⟩ := by
  rcases hsends with hwaits | ⟨l, hl, rfl, rfl⟩ | ⟨d, hd, rfl, rfl⟩
  · obtain ⟨c, trail, k, hentry⟩ := waits_eq_some hwaits
    exact ⟨trail, _, hentry, List.prefix_rfl, (h.traced i _ hentry).running.issues⟩
  · exact ⟨l.before, h.late l hl⟩
  · exact ⟨d.before, h.log d hd⟩

/-- In any interleaving of calls, and whatever the provider answers, a code goes out with its
    verifier and the client secret only in a POST by the call it was given to, to the token endpoint
    of a document that the configured issuer answered with, which is `https` or on this host. -/
theorem credentials_stay_with_issuer
    (h : Machine.run (sharedClient cfg).step (start (.new now)) as = some s) {i : ℕ} {url : String}
    {form : List (String × String)} (hsends : Sends s i (.postToken url form)) :
    ∃ e code nonce verifier, s.entries[i]? = some e ∧
      e.call = .exchangeAndVerify code nonce verifier ∧ form = tokenForm cfg code verifier ∧
      Secure cfg.toConfig url ∧ ∃ doc, Vouched cfg s doc ∧ url = doc.tokenEndpoint := by
  have hsound := sound_of_run h
  obtain ⟨es, hissued⟩ := hsends.issued hsound
  have hseen := hsound.seen_of_issued hissued
  obtain ⟨e, hentry, -, hissues⟩ := hissued
  obtain ⟨doc, code, nonce, verifier, hcall, hfound, rfl, rfl⟩ := (obeys_code e.call).issues hissues
  have hvouched := vouched_of_found h hseen hfound
  exact ⟨e, code, nonce, verifier, hentry, hcall, rfl, hvouched.trusted.token, doc, hvouched, rfl⟩

theorem credentials_stay_with_issuer_waiting : ∃ s,
    Machine.run (sharedClient demoGateway).step (start (.new 0)) (demoActs.take 4) = some s ∧
    s.waits 0 = some (.postToken "https://idp/token" (tokenForm demoGateway "code" "verifier")) ∧
    ∃ doc, Vouched demoGateway s doc := by
  have hbind : ((Machine.run (sharedClient demoGateway).step (start (.new 0)) (demoActs.take 4)).bind
      (·.waits 0)) = some (.postToken "https://idp/token"
        (tokenForm demoGateway "code" "verifier")) := by rfl
  obtain ⟨s, hrun, hwaits⟩ := Option.bind_eq_some_iff.mp hbind
  obtain ⟨_, _, _, _, -, -, -, -, doc, hdoc, -⟩ := credentials_stay_with_issuer hrun (.inl hwaits)
  exact ⟨s, hrun, hwaits, doc, hdoc⟩

/-- Users are sent to the authorization endpoint of a vouched document. -/
theorem authorizeUrl_vouched
    (h : Machine.run (sharedClient cfg).step (start (.new now)) as = some s) {i : ℕ} {c : OidcCall}
    {url : String} (hanswer : s.answer i = some (c, .url url)) :
    ∃ state nonce codeChallenge doc, c = .authorizeUrl state nonce codeChallenge ∧
      Vouched cfg s doc ∧ url = cfg.appendPairs doc.authorizationEndpoint
        (authorizePairs cfg state nonce codeChallenge) := by
  obtain ⟨trail, hentry⟩ := answer_eq_some.mp hanswer
  have hsound := sound_of_run h
  obtain ⟨state, nonce, codeChallenge, doc, hcall, hfound, hurl⟩ :=
    (obeys_code c).yields (hsound.yields hentry)
  exact ⟨state, nonce, codeChallenge, doc, hcall,
    vouched_of_found h (hsound.seen i _ hentry) hfound, hurl⟩

/-- A call fetches the document and answers. -/
def demoVisit : List (Act OidcCall Provider) :=
  .arrive (.authorizeUrl "state" "nonce" "S") :: List.replicate 3 (.serve 0 demoProvider)

def demoUrl : String :=
  "https://idp/authorize?response_type=code&client_id=gateway" ++
    "&redirect_uri=https%3A%2F%2Fgateway%2Fcallback&scope=openid+email+profile+groups&state=state" ++
    "&nonce=nonce&code_challenge=S&code_challenge_method=S256"

theorem authorizeUrl_vouched_visit : ∃ s,
    Machine.run (sharedClient demoGateway).step (start (.new 0)) demoVisit = some s ∧
    s.answer 0 = some (.authorizeUrl "state" "nonce" "S", .url demoUrl) ∧
    ∃ doc, Vouched demoGateway s doc := by
  have hbind : ((Machine.run (sharedClient demoGateway).step (start (.new 0)) demoVisit).bind
      (·.answer 0)) = some (.authorizeUrl "state" "nonce" "S", .url demoUrl) := by decide +kernel
  obtain ⟨s, hrun, hanswer⟩ := Option.bind_eq_some_iff.mp hbind
  obtain ⟨_, _, _, doc, -, hdoc, -⟩ := authorizeUrl_vouched hrun hanswer
  exact ⟨s, hrun, hanswer, doc, hdoc⟩

/-- In any interleaving of calls, and whatever the provider answers: an identity that
    `exchange_and_verify` returns is that of an ID token that answered the POST of its own code and
    verifier to the token endpoint of a vouched document. The token passed `decode` with the
    configured issuer and audience under a key that a vouched key set offers for its kid, and it has
    the nonce of the call and an email address that the issuer marks as verified. -/
theorem identity_verified
    (h : Machine.run (sharedClient cfg).step (start (.new now)) as = some s) {i : ℕ}
    {code nonce verifier : String} {identity : GrantIdentity}
    (hanswer : s.answer i = some (.exchangeAndVerify code nonce verifier, .identity identity)) :
    ∃ doc idToken kid key unix claims, Vouched cfg s doc ∧
      (∃ t, s.Executed i t (.postToken doc.tokenEndpoint (tokenForm cfg code verifier))
        (some idToken)) ∧
      KeyVouched cfg s i kid key ∧ (∃ t, s.Executed i t .unixNow unix) ∧
      Checked cfg idToken kid key unix claims nonce identity := by
  obtain ⟨trail, hentry⟩ := answer_eq_some.mp hanswer
  have hsound := sound_of_run h
  have hseen := hsound.seen i _ hentry
  obtain ⟨_, _, _, doc, idToken, kid, key, unix, claims, ⟨⟩, hearned⟩ :=
    (obeys_code (.exchangeAndVerify code nonce verifier)).yields (hsound.yields hentry)
  exact ⟨doc, idToken, kid, key, unix, claims, vouched_of_found h hseen hearned.found,
    executed_of_seen hseen hearned.posted nofun, keyVouched_of_found h hseen hearned.keyFound,
    executed_of_seen hseen hearned.clock nofun, hearned.checked⟩

/-- The second of two logins gets its identity with the document and the key of the first. -/
theorem identity_verified_second : ∃ s,
    Machine.run (sharedClient demoGateway).step (start (.new 0)) demoActs = some s ∧
    s.answer 1 = some (.exchangeAndVerify "code'" "nonce" "verifier'",
      .identity ⟨"token", "a@b.c", ["dba"]⟩) ∧
    ∃ doc kid key, Vouched demoGateway s doc ∧ KeyVouched demoGateway s 1 kid key := by
  have hbind : ((Machine.run (sharedClient demoGateway).step (start (.new 0)) demoActs).bind
      (·.answer 1)) = some (.exchangeAndVerify "code'" "nonce" "verifier'",
        .identity ⟨"token", "a@b.c", ["dba"]⟩) := by decide +kernel
  obtain ⟨s, hrun, hanswer⟩ := Option.bind_eq_some_iff.mp hbind
  obtain ⟨doc, idToken, kid, key, unix, claims, hdoc, -, hkey, -⟩ := identity_verified hrun hanswer
  exact ⟨s, hrun, hanswer, doc, kid, key, hdoc, hkey⟩

end

end DbMcpGateway.Oauth.Oidc
