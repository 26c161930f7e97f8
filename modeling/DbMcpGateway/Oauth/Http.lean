import DbMcpGateway.Oauth.Stores

/-!
# Requests and responses of the auth endpoints

What the handlers of transport/oauth, auth_routes.rs and auth_middleware.rs read and answer,
with the checks they share: redirect URIs (transport/oauth/register.rs), PKCE (auth/pkce.rs)
and bearer tokens. The libraries behind them are parameters: `Crates` has SHA-256 and the
parser and the writer of URLs.

Left out are headers of responses and the page texts.

Results:

* `ctEq_iff`, `verify_iff`: the constant-time comparisons are comparisons.
-/

namespace DbMcpGateway.Oauth

open Auth

/-! ## Libraries -/

/-- `url::Host`. -/
inductive Host
  | domain (name : String)
  | ipv4 (address : BitVec 32)
  | ipv6 (address : BitVec 128)
  deriving DecidableEq

/-- `url::Url`, without the port. -/
structure Url where
  scheme : String
  host : Option Host
  username : String
  password : Option String
  path : String
  query : Option String
  fragment : Option String
  deriving DecidableEq

/-- The libraries that the handlers use. -/
structure Crates where
  sha256 : List UInt8 → Digest
  /-- `Url::parse(..).ok()`. -/
  parseUrl : String → Option Url
  /-- The text of a URL after pairs were appended to its query. -/
  appendPairs : String → List (String × String) → String

/-- A byte of a form-encoded text. -/
def formByte (b : UInt8) : List Char :=
  let c := Char.ofNat b.toNat
  if b < 128 && (c.isAlphanum || ['*', '-', '.', '_'].contains c) then [c]
  else if c = ' ' then ['+']
  else ['%', (Nat.digitChar (b.toNat / 16)).toUpper, (Nat.digitChar (b.toNat % 16)).toUpper]

def formEncode (s : String) : List Char := (Auth.asBytes s).flatMap formByte

/-- Pairs appended to a URL without a query. -/
def appendForm (url : String) (pairs : List (String × String)) : String :=
  let query := pairs.map fun p => formEncode p.1 ++ '=' :: formEncode p.2
  String.ofList (url.toList ++ '?' :: ['&'].intercalate query)

/-! ## Redirect URIs -/

/-- `is_http_loopback` (transport/oauth/register.rs:87). -/
def isHttpLoopback (url : Url) : Bool :=
  if url.scheme ≠ "http" then false
  else match url.host with
    | some (.domain d) => Text.eqIgnoreAsciiCase d "localhost"
    | some (.ipv4 ip) => ip >>> 24 == 127
    | some (.ipv6 ip) => ip == 1
    | none => false

section

variable (crates : Crates)

/-- `is_valid_redirect_uri` (transport/oauth/register.rs:70). -/
def isValidRedirectUri (raw : String) : Bool :=
  match crates.parseUrl raw with
  | some url => url.scheme == "https" || isHttpLoopback url
  | none => false

/-- `is_loopback_redirect_uri` (transport/oauth/register.rs:81). -/
def isLoopbackRedirectUri (raw : String) : Bool := (crates.parseUrl raw).any isHttpLoopback

/-- `redirect_uri_matches` (transport/oauth/register.rs:104). -/
def redirectUriMatches (registered requested : String) : Bool :=
  if registered = requested then true
  else match crates.parseUrl registered, crates.parseUrl requested with
    | some reg, some req =>
      isHttpLoopback reg && isHttpLoopback req && reg.host == req.host &&
        reg.username == req.username && reg.password == req.password && reg.path == req.path &&
        reg.query == req.query && reg.fragment == req.fragment
    | _, _ => false

/-- `build_redirect` (transport/oauth/helpers.rs:10). -/
def buildRedirect (base : String) (params : List (String × String)) : Option String :=
  (crates.parseUrl base).map fun _ => crates.appendPairs base params

end

/-- `MAX_ADOPTABLE_CLIENT_ID` (transport/oauth/authorize.rs:18). -/
def maxAdoptableClientId : ℕ := 128

/-- `is_adoptable_client_id` (transport/oauth/authorize.rs:23). -/
def isAdoptableClientId (clientId : String) : Bool :=
  clientId.utf8ByteSize ≤ maxAdoptableClientId &&
    clientId.toList.all fun c => '!' ≤ c && c ≤ '~'

/-! ## PKCE -/

/-- The alphabet of `URL_SAFE_NO_PAD`. -/
def base64UrlAlphabet : List Char :=
  "ABCDEFGHIJKLMNOPQRSTUVWXYZabcdefghijklmnopqrstuvwxyz0123456789-_".toList

/-- The character of the low six bits. -/
def base64UrlChar (n : ℕ) : Char := base64UrlAlphabet.getD (n % 64) 'A'

/-- `URL_SAFE_NO_PAD.encode`. -/
def base64UrlEncode : List UInt8 → List Char
  | a :: b :: c :: rest =>
    let n := a.toNat * 65536 + b.toNat * 256 + c.toNat
    base64UrlChar (n / 262144) :: base64UrlChar (n / 4096) :: base64UrlChar (n / 64) ::
      base64UrlChar n :: base64UrlEncode rest
  | [a, b] =>
    let n := a.toNat * 1024 + b.toNat * 4
    [base64UrlChar (n / 4096), base64UrlChar (n / 64), base64UrlChar n]
  | [a] =>
    let n := a.toNat * 16
    [base64UrlChar (n / 64), base64UrlChar n]
  | [] => []

example : String.ofList (base64UrlEncode (asBytes "login")) = "bG9naW4" := by decide +kernel

/-- `challenge_for` (auth/pkce.rs:20). -/
def challengeFor (crates : Crates) (verifier : String) : String :=
  String.ofList (base64UrlEncode (crates.sha256 (asBytes verifier)))

/-- `verify` (auth/pkce.rs:35). -/
def verify (crates : Crates) (verifier challenge : String) : Bool :=
  ctEq (asBytes (challengeFor crates verifier)) (asBytes challenge)

theorem foldl_or_eq_zero (ps : List (UInt8 × UInt8)) (acc : UInt8) :
    ps.foldl (fun acc p => acc ||| (p.1 ^^^ p.2)) acc = 0 ↔ acc = 0 ∧ ∀ p ∈ ps, p.1 = p.2 := by
  induction ps generalizing acc with
  | nil => simp
  | cons p ps ih => simp [ih, and_assoc]

theorem forall_zip_eq {as bs : List UInt8} (hlength : as.length = bs.length)
    (h : ∀ p ∈ as.zip bs, p.1 = p.2) : as = bs := by
  induction as generalizing bs with
  | nil =>
    cases bs with
    | nil => rfl
    | cons b bs => cases hlength
  | cons a as ih =>
    cases bs with
    | nil => cases hlength
    | cons b bs =>
      rw [List.zip_cons_cons, List.forall_mem_cons] at h
      have hab : a = b := h.1
      rw [hab, ih (Nat.succ.inj hlength) h.2]

/-- The comparison in constant time is a comparison. -/
theorem ctEq_iff {a b} : ctEq a b = true ↔ a = b := by
  unfold ctEq
  split_ifs with hlength
  · constructor
    · intro h
      cases h
    · rintro rfl
      exact absurd rfl hlength
  · rw [beq_iff_eq, foldl_or_eq_zero]
    constructor
    · rintro ⟨-, h⟩
      exact forall_zip_eq (not_ne_iff.mp hlength) h
    · rintro rfl
      refine ⟨rfl, fun p hp => ?_⟩
      rw [List.zip_eq_zipWith, List.zipWith_self] at hp
      obtain ⟨x, -, rfl⟩ := List.mem_map.mp hp
      rfl

theorem toList_loop (bs : ByteArray) (i : ℕ) (r : List UInt8) :
    ByteArray.toList.loop bs i r = r.reverse ++ bs.data.toList.drop i := by
  fun_induction ByteArray.toList.loop bs i r with
  | case1 i r hlt ih =>
    have hlt' : i < bs.data.toList.length := hlt
    have hget : bs.get! i = bs.data.toList[i] := by
      change bs.data[i]! = _
      rw [getElem!_pos bs.data i hlt, Array.getElem_toList]
    rw [ih, List.reverse_cons, List.append_assoc, List.drop_eq_getElem_cons hlt',
      List.singleton_append, hget]
  | case2 i r hlt => rw [List.drop_eq_nil_of_le (not_lt.mp hlt), List.append_nil]

theorem asBytes_injective : Function.Injective asBytes := by
  intro s t h
  have hdata : s.toUTF8.data.toList = t.toUTF8.data.toList := by
    simpa [asBytes, ByteArray.toList, toList_loop] using h
  exact String.toByteArray_inj.mp (ByteArray.ext (Array.toList_inj.mp hdata))

theorem verify_iff {crates : Crates} {verifier challenge : String} :
    verify crates verifier challenge = true ↔ challengeFor crates verifier = challenge := by
  rw [verify, ctEq_iff, asBytes_injective.eq_iff]

/-! ## Bearer tokens -/

/-- `strip_prefix`. -/
def stripPrefix (text start : String) : Option String :=
  if start.toList.isPrefixOf text.toList then some (String.ofList (text.toList.drop start.length))
  else none

/-- `bearer_token` (transport/auth_middleware.rs:58). -/
def bearerToken (authorization : Option String) : Except AuthError String :=
  match authorization with
  | none => .error .missingBearer
  | some header =>
    match stripPrefix header "Bearer " <|> stripPrefix header "bearer " with
    | some token => .ok token
    | none => .error .missingBearer

/-! ## Forms -/

/-- `struct AuthorizeParams` (transport/oauth/authorize.rs:28); `scope` is not read. -/
structure AuthorizeParams where
  responseType : Option String
  redirectUri : Option String
  codeChallenge : Option String
  codeChallengeMethod : Option String
  state : Option String
  clientId : Option String
  resource : Option String
  deriving DecidableEq

/-- `struct RegisterRequest` (transport/oauth/register.rs:14). -/
structure RegisterRequest where
  redirectUris : List String
  clientName : Option String
  deriving DecidableEq

/-- `struct TokenForm` (transport/oauth/token.rs:18). -/
structure TokenForm where
  grantType : Option String
  code : Option String
  redirectUri : Option String
  codeVerifier : Option String
  refreshToken : Option String
  clientId : Option String
  deriving DecidableEq

/-! ## Responses -/

/-- `enum AdminErrorKind` (transport/admin/error.rs:23), the kinds that the middleware
    returns. -/
inductive AdminDenial
  | forbidden
  | unauthorized
  | sessionTooOld
  deriving DecidableEq

/-- What a handler answers. -/
inductive Response
  /-- `oauth_error` (transport/oauth/helpers.rs:31). -/
  | oauthError (status : ℕ) (error description : String)
  /-- `AuthError::into_response` (transport/auth_routes.rs:145). -/
  | authError (error : AuthError)
  /-- `unauthorized` (transport/auth_middleware.rs:80). -/
  | unauthorized (error : AuthError)
  /-- `AdminError::into_response` (transport/admin/error.rs:130). -/
  | adminError (kind : AdminDenial) (requestId : String)
  /-- `login_expired_response` (transport/auth_routes.rs:203). -/
  | loginExpired
  | redirect (url : String)
  /-- `struct LoginResponse` (transport/auth_routes.rs:21). -/
  | login (loginUrl state : String)
  /-- `struct CallbackResponse` (transport/auth_routes.rs:52). -/
  | session (sessionToken : String) (expiresInSeconds : Seconds)
  /-- The token response. -/
  | tokens (accessToken : String) (expiresIn : Seconds) (refreshToken : String)
  | registered (clientId : String) (redirectUris : List String) (clientName : Option String)
  | noContent
  | ok
  /-- The request goes on to the next handler. -/
  | next (identity : Identity)
  | admin (actor : Admin.AdminActor)
  deriving DecidableEq

end DbMcpGateway.Oauth
