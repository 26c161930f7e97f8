import DbMcpGateway.Oauth.Codes

/-!
# Redirects to clients

The callback of a login that `/authorize` began redirects to the client, with a code or with
an error. The target was checked at `/authorize` and is kept with the pending login.

`Url` has every component of a URL but the port, so URIs that parse to the same `Url` differ
in the port only.

Results:

* `redirectUriMatches_iff`: on loopback URIs, matching is equality of all components but the
  port.
* `issues_clientUpsert`: the URIs that are stored for a client are valid.
* `redirects_allowed`: redirects with a code or an error go to allowed URIs.
-/

namespace DbMcpGateway.Oauth

open Async Async.Prog Async.Service Machine

variable {app : AppState} {cfg : SessionCacheConfig} {crates : Crates} {es : AuthTrail}
  {c : HttpCall} {clientId u : String}

/-! ## Matching -/

theorem isLoopbackRedirectUri_iff : isLoopbackRedirectUri crates u = true ↔
    ∃ url, crates.parseUrl u = some url ∧ isHttpLoopback url = true := by
  unfold isLoopbackRedirectUri
  cases crates.parseUrl u <;> simp

theorem isHttpLoopback_scheme {url : Url} (h : isHttpLoopback url = true) : url.scheme = "http" := by
  unfold isHttpLoopback at h
  split_ifs at h with hscheme
  exact not_not.mp hscheme

theorem redirectUriMatches_iff {r u : String} {url : Url} (hu : crates.parseUrl u = some url)
    (hloopback : isHttpLoopback url = true) :
    redirectUriMatches crates r u = true ↔ crates.parseUrl r = some url := by
  unfold redirectUriMatches
  split_ifs with heq
  · rw [heq, hu]
    simp
  · rw [hu]
    cases hr : crates.parseUrl r with
    | none => simp
    | some url' =>
      simp only [Bool.and_eq_true, beq_iff_eq, hloopback, Option.some.injEq]
      constructor
      · rintro ⟨⟨⟨⟨⟨⟨⟨hloopback', -⟩, hhost⟩, huser⟩, hpassword⟩, hpath⟩, hquery⟩, hfragment⟩
        have hscheme := (isHttpLoopback_scheme hloopback').trans (isHttpLoopback_scheme hloopback).symm
        cases url
        cases url'
        simp_all
      · rintro rfl
        simp [hloopback]

theorem redirectUriMatches_of_ne {r u : String} (hne : r ≠ u)
    (h : redirectUriMatches crates r u = true) :
    ∃ url, crates.parseUrl r = some url ∧ crates.parseUrl u = some url ∧ isHttpLoopback url = true := by
  obtain ⟨url, hparse, hloopback⟩ : ∃ url, crates.parseUrl u = some url ∧ isHttpLoopback url = true := by
    rw [redirectUriMatches, if_neg hne] at h
    cases hr : crates.parseUrl r <;> cases hu : crates.parseUrl u <;> simp [hr, hu] at h
    exact ⟨_, rfl, h.1.1.1.1.1.1.2⟩
  exact ⟨url, (redirectUriMatches_iff hparse hloopback).mp h, hparse, hloopback⟩

theorem redirectUriMatches_equivalence (crates : Crates) :
    Equivalence fun r u : { raw // isLoopbackRedirectUri crates raw = true } =>
      redirectUriMatches crates r.1 u.1 = true := by
  have hiff : ∀ r u : { raw // isLoopbackRedirectUri crates raw = true },
      redirectUriMatches crates r.1 u.1 = true ↔ crates.parseUrl r.1 = crates.parseUrl u.1 := by
    rintro r ⟨u, hu⟩
    obtain ⟨url, hparse, hloopback⟩ := isLoopbackRedirectUri_iff.mp hu
    rw [redirectUriMatches_iff hparse hloopback, hparse]
  refine ⟨fun r => (hiff r r).mpr rfl, fun {r u} h => ?_, fun {r u v} h h' => ?_⟩
  · exact (hiff u r).mpr ((hiff r u).mp h).symm
  · exact (hiff r v).mpr (((hiff r u).mp h).trans ((hiff u v).mp h'))

/-! ## Registrations -/

variable {uris : List String} {expiresAt : ℤ} {url : String} {bridge : OAuthBridge}

/-- The upsert of `insert`, after reads of the table and of the clock. -/
theorem issues_registryInsert {uris'} {clientId' : String}
    (h : Issues (ClientRegistry.insert clientId uris) es (.clientUpsert clientId' uris' expiresAt)) :
    (clientId' = clientId ∧ uris' = uris) ∧ (∀ e ∈ es, e.1.kind ≠ .clientUpsert) ∧
      ∃ now fallback, ⟨.utcNow, now⟩ ∈ es ∧ deadline now clientTtl fallback = some expiresAt := by
  simp [ClientRegistry.insert, ClientRegistry.upsertRow] at h
  obtain ⟨_, es₂, rfl, es₁, ⟨_, now, rfl, rfl, -, hdeadline, hinserted⟩ |
    ⟨now, rfl, rfl, hdeadline, hinserted⟩⟩ := h
  · exact ⟨hinserted, by simp, now, _, by simp, hdeadline⟩
  · exact ⟨hinserted, by simp, now, _, by simp, hdeadline⟩

theorem issues_resolve_upsert {requestedUri clientId' : String}
    (h : Issues (resolveRedirect app clientId requestedUri) es
      (.clientUpsert clientId' uris expiresAt)) :
    uris = [requestedUri] ∧ isLoopbackRedirectUri app.crates requestedUri = true := by
  simp [resolveRedirect, ClientRegistry.redirectUris] at h
  obtain ⟨_, _, -, -, ⟨hloopback, -⟩, hinsert⟩ := h
  exact ⟨(issues_registryInsert hinsert).1.2, hloopback⟩

theorem isValid_of_isLoopback (h : isLoopbackRedirectUri crates u = true) :
    isValidRedirectUri crates u = true := by
  obtain ⟨url, hparse, hloopback⟩ := isLoopbackRedirectUri_iff.mp h
  simp [isValidRedirectUri, hparse, hloopback]

/-- The redirect URIs that are stored are valid: `/register` checks them, and `/authorize`
    adopts a client with a loopback URI. -/
theorem issues_clientUpsert (h : Issues (c.code app) es (.clientUpsert clientId uris expiresAt)) :
    ∀ u ∈ uris, isValidRedirectUri app.crates u = true := by
  have hkind := HttpCall.kind_mem h
  cases c with
  | register req =>
    simp [register] at h
    obtain ⟨⟨-, hvalid⟩, _, _, -, hinsert⟩ := h
    rw [(issues_registryInsert hinsert).1.2]
    exact hvalid
  | authorize p =>
    cases issues_authorize h with
    | resolve _ _ hresolve =>
      obtain ⟨rfl, hloopback⟩ := issues_resolve_upsert hresolve
      simpa using isValid_of_isLoopback hloopback
    | login _ _ _ _ h => cases issues_startLogin h
  | _ =>
    simp at hkind

/-! ## Redirects -/

/-- A redirect to the client of the pending login `flow`. -/
inductive Redirects (app : AppState) (flow : PendingFlow) (url : String) : Prop
  | mk {bridge : OAuthBridge} {name value} : flow.bridge = some bridge →
      name = "code" ∨ name = "error" →
      url = app.crates.appendPairs bridge.clientRedirectUri
        [(name, value), ("state", bridge.clientState)] → Redirects app flow url

theorem buildRedirect_eq {base : String} {params}
    (h : buildRedirect crates base params = some url) : url = crates.appendPairs base params := by
  obtain ⟨_, -, rfl⟩ := Option.map_eq_some_iff.mp h
  rfl

theorem Redirects.of_error {flow : PendingFlow} {error : String}
    (hbridge : flow.bridge = some bridge) (h : .redirect url = redirectWithError app bridge error) :
    Redirects app flow url := by
  unfold redirectWithError at h
  split at h
  case h_1 hbuild =>
    cases h
    exact .mk hbridge (.inr rfl) (buildRedirect_eq hbuild)
  case h_2 => cases h

theorem Redirects.of_code {flow : PendingFlow} {authCode : String}
    (hbridge : flow.bridge = some bridge) (h : .redirect url = bridgeRedirect app bridge authCode) :
    Redirects app flow url := by
  unfold bridgeRedirect at h
  split at h
  case h_1 hbuild =>
    cases h
    exact .mk hbridge (.inl rfl) (buildRedirect_eq hbuild)
  case h_2 => cases h

theorem yields_callback_redirect {code state : String}
    (h : Yields (HttpCall.code app (.callback code state)) es (.redirect url)) :
    ∃ flow, ⟨.flowTake state, some flow⟩ ∈ es ∧ Redirects app flow url := by
  simp [callback, completeBridgeLogin, completeLogin] at h
  obtain ⟨auth, flow, es₂, rfl, hauth, bridge, hbridge, hcases⟩ := h
  refine ⟨flow, List.mem_cons_self, ?_⟩
  rcases hcases with ⟨-, herror⟩ | ⟨-, ⟨-, herror⟩ | ⟨_, authCode, _, -, ⟨-, herror⟩ | ⟨-, hcode⟩⟩⟩
  · exact .of_error hbridge herror
  · exact .of_error hbridge herror
  · exact .of_error hbridge herror
  · exact .of_code hbridge hcode

theorem not_yields_resolve_redirect {requestedUri : String} :
    ¬ Yields (resolveRedirect app clientId requestedUri) es (.error (.redirect url)) := by
  simp [resolveRedirect]

theorem yields_startLogin_redirect (h : Yields (startLogin app bridge) es (.redirect url)) :
    ∃ csrfState nonce challenge, ⟨.authorizeUrl csrfState nonce challenge, .ok url⟩ ∈ es := by
  simp [startLogin] at h
  obtain ⟨csrfState, nonce, _, _, _, rfl⟩ := h
  exact ⟨csrfState, nonce, _, by simp; rfl⟩

/-- `/authorize` redirects to the identity provider only. -/
theorem yields_authorize_redirect {params}
    (h : Yields (HttpCall.code app (.authorize params)) es (.redirect url)) :
    ∃ csrfState nonce challenge, ⟨.authorizeUrl csrfState nonce challenge, .ok url⟩ ∈ es := by
  simp [authorize] at h
  obtain ⟨-, _, -, _, -, hresolve | ⟨es₁, _, es₂, rfl, -, _, -, -, _, -, -, hlogin⟩⟩ := h
  · exact absurd hresolve not_yields_resolve_redirect
  · obtain ⟨csrfState, nonce, challenge, hmem⟩ := yields_startLogin_redirect hlogin
    exact ⟨csrfState, nonce, challenge, List.mem_append_right es₁ hmem⟩

/-! ## Responses that are not redirects -/

def NoRedirect (response : Response) : Prop := ∀ url, response ≠ .redirect url

theorem noRedirect_oauthError (status : ℕ) (error description : String) :
    NoRedirect (.oauthError status error description) := nofun

theorem noRedirect_login : Gives NoRedirect (login app) := by
  refine gives_someOr nofun fun auth => ?_
  refine gives_bind_of_forall fun csrfState => ?_
  refine gives_bind_of_forall fun nonce => ?_
  refine gives_bind_of_forall fun verifier => ?_
  refine gives_okOr (fun _ => nofun) fun url => ?_
  refine gives_okOr (fun _ => nofun) fun _ => ?_
  exact nofun

theorem noRedirect_register (req : RegisterRequest) : Gives NoRedirect (register app req) := by
  refine gives_require (noRedirect_oauthError _ _ _) ?_
  refine gives_bind_of_forall fun clientId => ?_
  refine gives_bind_of_forall fun inserted => ?_
  refine gives_require (noRedirect_oauthError _ _ _) ?_
  exact nofun

theorem noRedirect_issueTokenResponse (auth : AuthFacade) (identity : GrantIdentity)
    (chainIssuedAt : Option ℤ) :
    Gives NoRedirect (issueTokenResponse app auth identity chainIssuedAt) := by
  refine gives_okOr (fun _ => noRedirect_oauthError _ _ _) fun session => ?_
  refine gives_someOr (noRedirect_oauthError _ _ _) fun accessToken => ?_
  refine gives_bind_of_forall fun refreshToken => ?_
  refine gives_okOr (fun _ => noRedirect_oauthError _ _ _) fun _ => ?_
  exact nofun

theorem noRedirect_token (form : TokenForm) : Gives NoRedirect (token app form) := by
  refine gives_require (noRedirect_oauthError _ _ _) ?_
  refine gives_someOr (noRedirect_oauthError _ _ _) fun auth => ?_
  split_ifs
  · refine gives_someOr (noRedirect_oauthError _ _ _) fun token => ?_
    refine gives_someOr (noRedirect_oauthError _ _ _) fun entry => ?_
    exact noRedirect_issueTokenResponse auth entry.identity (some entry.issuedAt)
  · refine gives_someOr (noRedirect_oauthError _ _ _) fun code => ?_
    refine gives_someOr (noRedirect_oauthError _ _ _) fun verifier => ?_
    refine gives_someOr (noRedirect_oauthError _ _ _) fun entry => ?_
    refine gives_require (noRedirect_oauthError _ _ _) ?_
    refine gives_someOr (noRedirect_oauthError _ _ _) fun sent => ?_
    refine gives_require (noRedirect_oauthError _ _ _) ?_
    refine gives_require (noRedirect_oauthError _ _ _) ?_
    exact noRedirect_issueTokenResponse auth entry.identity none

theorem noRedirect_revoke (presented : Option String) : Gives NoRedirect (revoke app presented) := by
  refine gives_someOr (noRedirect_oauthError _ _ _) fun token => ?_
  refine gives_someOr (noRedirect_oauthError _ _ _) fun auth => ?_
  refine gives_bind_of_forall fun revoked => ?_
  refine gives_someOr nofun fun claims => ?_
  refine gives_bind_of_forall fun revoked => ?_
  exact nofun

/-- A caller without an identity is answered 401. -/
theorem noRedirect_bearerAuth (authorization : Option String) :
    Gives (fun x => ∀ e, x = .error e → NoRedirect e) (bearerAuth app authorization) := by
  refine gives_someOr ?_ fun auth => ?_
  · rintro _ ⟨⟩
    exact nofun
  · refine gives_okOr ?_ fun token => ?_
    · rintro e _ ⟨⟩
      exact nofun
    · refine gives_bind_of_forall fun service => ?_
      refine gives_ifSome (fun identity => nofun) ?_
      refine gives_okOr ?_ fun identity => nofun
      rintro e _ ⟨⟩
      exact nofun

/-- A route behind `bearer_auth` redirects only if its handler does. -/
theorem noRedirect_authenticated (authorization : Option String)
    {k : Identity → AuthProg Response} (hk : ∀ identity, Gives NoRedirect (k identity)) :
    Gives NoRedirect (okOr (bearerAuth app authorization) id k) :=
  (noRedirect_bearerAuth authorization).okOr (fun _ he => he) hk

theorem noRedirect_logout (identity : Identity) : Gives NoRedirect (logout app identity) := by
  refine gives_someOr nofun fun auth => ?_
  refine gives_okOr (fun _ => nofun) fun _ => ?_
  refine gives_bind_of_forall fun purged => ?_
  exact nofun

theorem noRedirect_requireAdminGroup (requestId : Option String) (identity : Identity) :
    Gives NoRedirect (requireAdminGroup app requestId identity) := by
  refine gives_bind_of_forall fun requestId => ?_
  refine gives_require nofun ?_
  refine gives_ifSome (fun maxAge => ?_) nofun
  refine gives_bind_of_forall fun now => ?_
  exact gives_require nofun nofun

theorem noRedirect_gcTick : Gives NoRedirect (gcTick app) := by
  refine gives_someOr nofun fun auth => ?_
  refine gives_bind_of_forall fun _ => ?_
  refine gives_bind_of_forall fun _ => ?_
  refine gives_bind_of_forall fun _ => ?_
  exact nofun

theorem yields_redirect (h : Yields (c.code app) es (.redirect url)) :
    (∃ params, c = .authorize params) ∨ ∃ code state, c = .callback code state := by
  cases c with
  | login => exact absurd rfl (noRedirect_login.yields h url)
  | callback code state => exact .inr ⟨code, state, rfl⟩
  | authorize params => exact .inl ⟨params, rfl⟩
  | register req => exact absurd rfl ((noRedirect_register req).yields h url)
  | token form => exact absurd rfl ((noRedirect_token form).yields h url)
  | revoke presented => exact absurd rfl ((noRedirect_revoke presented).yields h url)
  | logout authorization =>
    exact absurd rfl ((noRedirect_authenticated authorization noRedirect_logout).yields h url)
  | mcp authorization =>
    refine absurd rfl ((noRedirect_authenticated authorization fun identity => ?_).yields h url)
    exact nofun
  | admin authorization requestId =>
    refine absurd rfl ((noRedirect_authenticated authorization ?_).yields h url)
    exact noRedirect_requireAdminGroup requestId
  | gc => exact absurd rfl (noRedirect_gcTick.yields h url)

/-- Request `a` found the client registered with the redirect URIs, which a request stored. -/
def FoundClient (s : AuthPool HttpCall Response) (a : ℕ) (clientId : String) (uris : List String) :
    Prop :=
  (∃ t expiresAt, s.Executed a t (.clientTouch clientId expiresAt) (.ok (some uris))) ∧
    ∃ k t expiresAt, s.Executed k t (.clientUpsert clientId uris expiresAt) (.ok ())

/-- The redirect URI `u` is allowed for the client of request `a`. -/
inductive Allowed (app : AppState) (s : AuthPool HttpCall Response) (a : ℕ) (clientId u : String) :
    Prop
  /-- It is registered. -/
  | exact {uris : List String} : FoundClient s a clientId uris → u ∈ uris →
      isValidRedirectUri app.crates u = true → Allowed app s a clientId u
  /-- It is a loopback URI, and a registered one has the same components but for the port. -/
  | loopback {uris : List String} {r : String} {url : Url} : FoundClient s a clientId uris →
      r ∈ uris → app.crates.parseUrl r = some url → app.crates.parseUrl u = some url →
      isHttpLoopback url = true → Allowed app s a clientId u
  /-- It is a loopback URI, and `a` adopted the client with it. -/
  | adopted {t : Stamp} {expiresAt : ℤ} {url : Url} :
      s.Executed a t (.clientUpsert clientId [u] expiresAt) (.ok ()) →
      app.crates.parseUrl u = some url → isHttpLoopback url = true → Allowed app s a clientId u

/-- A redirect of callback `b` to the client of the `/authorize` request `a`. -/
structure Delivery (app : AppState) (s : AuthPool HttpCall Response) (a b : ℕ) (url : String) where
  params : AuthorizeParams
  state : String
  flow : PendingFlow
  clientId : String
  u : String
  authorize : (s.entries[a]?).map Entry.call = some (.authorize params)
  client : params.clientId = some clientId
  redirect : params.redirectUri = some u
  begins : ∃ t, s.Executed a t (.flowInsert state flow.nonce flow.idpVerifier flow.bridge) (.ok ())
  completes : ∃ t, s.Executed b t (.flowTake state) (some flow)
  target : ∃ name value clientState, (name = "code" ∨ name = "error") ∧
    url = app.crates.appendPairs u [(name, value), ("state", clientState)]
  allowed : Allowed app s a clientId u

section

variable {s : AuthPool HttpCall Response} {wall : ℤ} {as : List (Act HttpCall Choice)}
  (hrun : run (gateway app cfg).step (start (.init wall)) as = some s)

include hrun

/-- What a lookup finds was stored, and is valid. -/
theorem foundClient_of_touch {a : ℕ} {t : Stamp} {expiresAt : ℤ} {uris}
    (h : s.Executed a t (.clientTouch clientId expiresAt) (.ok (some uris))) :
    FoundClient s a clientId uris ∧ ∀ u ∈ uris, isValidRedirectUri app.crates u = true := by
  obtain ⟨es, hd⟩ := h
  obtain ⟨l₁, l₂, hlog⟩ := List.append_of_mem hd
  obtain ⟨⟨_, _⟩, ⟨⟩, put, hput, hputs⟩ := clients_passage.shown_of_log
    (by rintro client ⟨row, ⟨⟩, -⟩) hrun hlog ⟨clientId, uris, .mk⟩
  have hput : put ∈ s.log := by
    rw [hlog]
    exact List.mem_append_left _ hput
  obtain ⟨e, -, -, hissues⟩ := (sound_of_run hrun).log put hput
  obtain ⟨expiresAt', heq⟩ := hputs.inv
  rw [show put.req = _ from congrArg Sigma.fst heq] at hissues
  exact ⟨⟨⟨t, expiresAt, es, hd⟩, put.task, put.stamp, expiresAt', Pool.executed_of_mem hput heq⟩,
    issues_clientUpsert hissues⟩

theorem allowed_of_resolves {d : AuthDeed} (hd : d ∈ s.log)
    (h : Resolves app clientId u d.before) : Allowed app s d.task clientId u := by
  cases h with
  | @matched expiresAt registered r htouch hr hmatches =>
    obtain ⟨t, htouch⟩ := executed_of_before hrun hd htouch (by rintro ⟨⟩)
    obtain ⟨hfound, hvalid⟩ := foundClient_of_touch hrun htouch
    by_cases hru : r = u
    · subst hru
      exact .exact hfound hr (hvalid r hr)
    · obtain ⟨url, hparse, hparse', hloopback⟩ := redirectUriMatches_of_ne hru hmatches
      exact .loopback hfound hr hparse hparse' hloopback
  | adopted hloopback hupsert =>
    obtain ⟨url, hparse, hhttp⟩ := isLoopbackRedirectUri_iff.mp hloopback
    obtain ⟨t, hexecuted⟩ := executed_of_before hrun hd hupsert (by rintro ⟨⟩)
    exact .adopted hexecuted hparse hhttp

theorem exists_delivery {b : ℕ} {code state url : String}
    (hanswer : s.answer b = some (.callback code state, .redirect url)) :
    ∃ a, Nonempty (Delivery app s a b url) := by
  obtain ⟨trail, he⟩ := answer_eq_some.mp hanswer
  obtain ⟨flow, hflow, ⟨hbridge, hname, htarget⟩⟩ :=
    yields_callback_redirect ((sound_of_run hrun).yields he)
  -- the pending login that the callback took
  obtain ⟨t, es, htake⟩ := executed_of_trail hrun he hflow (by rintro ⟨⟩)
  obtain ⟨l₁, l₂, hlog⟩ := List.append_of_mem htake
  -- the request that began it
  obtain ⟨begun, hbegun, hbegins, -, -, e, he, ⟨q⟩⟩ := flow_begun hrun hlog .mk hbridge
  have hbegun : begun ∈ s.log := by
    rw [hlog]
    exact List.mem_append_left _ hbegun
  exact ⟨begun.task, ⟨{
    params := q.params
    state := state
    flow := flow
    clientId := _
    u := _
    authorize := by rw [he]; exact congrArg some q.call
    client := q.client
    redirect := q.redirect
    begins := ⟨begun.stamp, by rw [hbridge]; exact Pool.executed_of_mem hbegun hbegins⟩
    completes := ⟨t, es, htake⟩
    target := ⟨_, _, _, hname, htarget⟩
    allowed := allowed_of_resolves hrun hbegun q.resolved }⟩⟩

/-- Every redirect goes to the identity provider, or to a redirect URI that was allowed at
    `/authorize`. -/
theorem redirects_allowed :
    (∀ {b c url}, s.answer b = some (c, .redirect url) →
      (∃ params, c = .authorize params ∧ ∃ csrfState nonce challenge t,
        s.Executed b t (.authorizeUrl csrfState nonce challenge) (.ok url)) ∨
      ∃ code state, c = .callback code state ∧ ∃ a, Nonempty (Delivery app s a b url)) ∧
    Equivalence fun r u : { raw // isLoopbackRedirectUri app.crates raw = true } =>
      redirectUriMatches app.crates r.1 u.1 = true := by
  refine ⟨?_, redirectUriMatches_equivalence app.crates⟩
  intro b c url hanswer
  obtain ⟨trail, he⟩ := answer_eq_some.mp hanswer
  have hyields := (sound_of_run hrun).yields he
  rcases yields_redirect hyields with ⟨params, rfl⟩ | ⟨code, state, rfl⟩
  · obtain ⟨csrfState, nonce, challenge, hmem⟩ := yields_authorize_redirect hyields
    obtain ⟨t, hexecuted⟩ := executed_of_trail hrun he hmem (by rintro ⟨⟩)
    exact .inl ⟨params, rfl, csrfState, nonce, challenge, t, hexecuted⟩
  · exact .inr ⟨code, state, rfl, exists_delivery hrun hanswer⟩

end

/-- Alice's code goes to the client that `/authorize` adopted. -/
theorem redirects_allowed_alice : ∃ s,
    run (gateway demo .default).step (start (.init 0)) aliceCode = some s ∧
    s.answer 1 = some (.callback "x" "s", .redirect "http://127.0.0.1/cb?code=c&state=z") ∧
    ∃ a, Nonempty (Delivery demo s a 1 "http://127.0.0.1/cb?code=c&state=z") := by
  have hanswer : (run (gateway demo .default).step (start (.init 0)) aliceCode).map
      (fun s => s.answer 1) =
        some (some (.callback "x" "s", .redirect "http://127.0.0.1/cb?code=c&state=z")) := by
    decide +kernel
  obtain ⟨s, hrun, hs⟩ := Option.map_eq_some_iff.mp hanswer
  refine ⟨s, hrun, hs, ?_⟩
  rcases (redirects_allowed hrun).1 hs with ⟨_, ⟨⟩, -⟩ | ⟨_, _, -, hdelivery⟩
  exact hdelivery

end DbMcpGateway.Oauth
