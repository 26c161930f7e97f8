import DbMcpGateway.Oauth.Origins
import DbMcpGateway.Oauth.Provenance

/-!
# Authorization codes

A code passes through four requests: `/authorize` stores a pending login under a random
state, `/auth/callback` takes it, has the identity verified and stores a code under its hash,
and `/token` takes the code. Any number of other requests lie between these steps.

Results:

* `mints_unique`, `codeTakes_unique`: a code is minted once and taken once.
* `code_minted`, `flow_begun`: the callback behind a code, the `/authorize` request behind a
  callback.
* `code_binding`: a token response to a code is bound to one `/authorize` request and one
  callback.
-/

namespace DbMcpGateway.Oauth

open Async Async.Prog Async.Service Machine

theorem hashSecret_injective {sha256 : List UInt8 → Digest} (h : Function.Injective sha256) :
    Function.Injective (hashSecret sha256) :=
  h.comp asBytes_injective

variable {app : AppState} {cfg : SessionCacheConfig} {s : AuthPool HttpCall Response}

/-! ## Minting -/

/-- A call mints one code. -/
theorem codeInsert_singular : (gateway app cfg).Singular fun r => r.kind = .codeInsert := by
  intro c es r hissues hkind e he
  cases r with
  | codeInsert hash identity codeChallenge redirectUri clientId =>
    obtain ⟨p⟩ := issues_codeInsert hissues
    rw [p.trail] at he
    simp only [List.mem_cons, List.not_mem_nil, or_false] at he
    rcases he with rfl | rfl | rfl <;> simp
  | _ => simp at hkind

section

variable {wall : ℤ} {as : List (Act HttpCall Choice)}
  (hrun : run (gateway app cfg).step (start (.init wall)) as = some s)

include hrun

variable {d : AuthDeed} {hash : Digest} {entry : AuthCode}

theorem mint_path {t : Stamp} (hd : d ∈ s.log) (hmints : PutsCode t d.req d.reply (hash, entry)) :
    ∃ e, s.entries[d.task]? = some e ∧ Nonempty (CodePath app e.call d.before hash entry.identity
      entry.codeChallenge entry.redirectUri entry.clientId) := by
  obtain ⟨e, he, -, hissues⟩ := (sound_of_run hrun).log d hd
  have hreq : d.req = _ := congrArg Sigma.fst hmints.inv.1
  rw [hreq] at hissues
  exact ⟨e, he, issues_codeInsert hissues⟩

theorem mints_unique (hsha : Function.Injective app.crates.sha256) {d' : AuthDeed} {t t' : Stamp}
    {entry' : AuthCode} (hd : d ∈ s.log) (hd' : d' ∈ s.log)
    (hmints : PutsCode t d.req d.reply (hash, entry))
    (hmints' : PutsCode t' d'.req d'.reply (hash, entry')) : d = d' := by
  have hsound := sound_of_run hrun
  have hdraw : ∀ {d : AuthDeed} {t entry}, d ∈ s.log → PutsCode t d.req d.reply (hash, entry) →
      ∃ code es t, hash = hashSecret app.crates.sha256 code ∧
        (⟨⟨d.task, es, .randomToken⟩, t, code⟩ : AuthDeed) ∈ s.log := by
    intro d t entry hd hmints
    obtain ⟨e, -, ⟨p⟩⟩ := mint_path hrun hd hmints
    obtain ⟨es, t, hdraw, -⟩ := (hsound.seen_of_issued (hsound.log d hd)).deed p.drawn (by rintro ⟨⟩)
    exact ⟨p.authCode, es, t, p.minted, hdraw⟩
  obtain ⟨code, es, _, hcode, hmem⟩ := hdraw hd hmints
  obtain ⟨code', es', _, hcode', hmem'⟩ := hdraw hd' hmints'
  cases hashSecret_injective hsha (hcode.symm.trans hcode')
  have hdeed := (texts_fresh.drawn hrun).unique hmem hmem' .token .token
  have htask : d.task = d'.task := by injection hdeed with hsent; injection hsent
  have hkind : ∀ {d : AuthDeed} {t entry}, PutsCode t d.req d.reply (hash, entry) →
      d.req.kind = .codeInsert := by
    intro d t entry hmints
    rw [show d.req = _ from congrArg Sigma.fst hmints.inv.1]
    rfl
  have hbefore := codeInsert_singular.before_eq (hsound.log d hd) (hsound.log d' hd')
    (hkind hmints) (hkind hmints') htask
  exact hsound.eq_of_key hd hd' (by rw [Sent.key, Sent.key, htask, hbefore])

theorem codeTakes_unique (hsha : Function.Injective app.crates.sha256) {d' : AuthDeed}
    {entry' : AuthCode} (hd : d ∈ s.log) (hd' : d' ∈ s.log)
    (htakes : HitsCode d.req d.reply hash entry) (htakes' : HitsCode d'.req d'.reply hash entry') :
    d = d' := by
  refine codes_slots.take_unique ?_ hrun ?_ hd hd' ⟨entry, htakes⟩ ⟨entry', htakes'⟩
  · rintro ⟨entry, ⟨⟩⟩
  · rintro d hd d' hd' ⟨t, entry, hmints⟩ ⟨t', entry', hmints'⟩
    exact mints_unique hrun hsha hd hd' hmints hmints'

theorem code_minted {l₁ l₂} (hlog : s.log = l₁ ++ d :: l₂)
    (htakes : HitsCode d.req d.reply hash entry) :
    ∃ l₃ mint l₄, l₁ = l₃ ++ mint :: l₄ ∧ PutsCode mint.stamp mint.req mint.reply (hash, entry) ∧
      d.stamp.mono < mint.stamp.mono + codeTtl := by
  obtain ⟨e, htaken, mint, hmint, hmints⟩ :=
    codes_passage.shown_of_log (by rintro e ⟨⟩) hrun hlog ⟨hash, entry, htakes⟩
  obtain ⟨rfl, hlive⟩ := htaken.of_hits htakes
  rw [hmints.inv.2] at hlive
  obtain ⟨l₃, l₄, hl₁⟩ := List.append_of_mem hmint
  exact ⟨l₃, mint, l₄, hl₁, hmints, hlive⟩

/-- The `/authorize` request behind a callback that takes a pending login with a bridge. -/
theorem flow_begun {l₁ l₂} (hlog : s.log = l₁ ++ d :: l₂) {state : String}
    {flow : PendingFlow} {bridge} (htakes : HitsFlow d.req d.reply state flow)
    (hbridge : flow.bridge = some bridge) :
    ∃ begun ∈ l₁, (⟨begun.req, begun.reply⟩ : Exchange AuthReq AuthResp) =
        ⟨.flowInsert state flow.nonce flow.idpVerifier (some bridge), .ok ()⟩ ∧
      flow.expiresAt = begun.stamp.mono + flowTtl ∧ d.stamp.mono < begun.stamp.mono + flowTtl ∧
      ∃ e, s.entries[begun.task]? = some e ∧
        Nonempty (FlowPath app e.call begun.before state flow.nonce bridge) := by
  obtain ⟨e, htaken, begun, hbegun, hbegins⟩ :=
    flows_passage.shown_of_log (by rintro e ⟨⟩) hrun hlog ⟨state, flow, htakes⟩
  obtain ⟨rfl, hlive⟩ := htaken.of_hits htakes
  obtain ⟨hreq, hexpires⟩ := hbegins.inv
  rw [hbridge] at hreq
  rw [hexpires] at hlive
  obtain ⟨e, he, -, hissues⟩ := (sound_of_run hrun).log begun (by
    rw [hlog]
    exact List.mem_append_left _ hbegun)
  rw [show begun.req = _ from congrArg Sigma.fst hreq] at hissues
  exact ⟨begun, hbegun, hreq, hexpires, hlive, e, he, issues_flowInsert hissues⟩

/-- An exchange of a call that is not an error reply. -/
theorem executed_of_trail {k : ℕ} {e : Entry AuthReq AuthResp HttpCall Response}
    (he : s.entries[k]? = some e) {r : AuthReq} {x} (hmem : ⟨r, x⟩ ∈ e.trail)
    (hfailure : failure r ≠ some x) : ∃ t, s.Executed k t r x := by
  obtain ⟨es, t, hdeed, -⟩ := ((sound_of_run hrun).seen k e he).deed hmem hfailure
  exact ⟨t, es, hdeed⟩

theorem executed_of_before (hd : d ∈ s.log) {r : AuthReq} {x}
    (hmem : ⟨r, x⟩ ∈ d.before) (hfailure : failure r ≠ some x) : ∃ t, s.Executed d.task t r x := by
  have hsound := sound_of_run hrun
  obtain ⟨es, t, hdeed, -⟩ := (hsound.seen_of_issued (hsound.log d hd)).deed hmem hfailure
  exact ⟨t, es, hdeed⟩

end

/-! ## Logins -/

/-- The login behind a code: the `/authorize` request `a` and the callback `b`. -/
structure Login (app : AppState) (s : AuthPool HttpCall Response) (hash : Digest) (entry : AuthCode)
    (a b : ℕ) where
  params : AuthorizeParams
  idpCode : String
  state : String
  nonce : String
  idpVerifier : String
  bridge : OAuthBridge
  /-- The moments at which the flow is stored and taken and the code is minted. -/
  begun : Stamp
  completed : Stamp
  minted : Stamp
  authorize : (s.entries[a]?).map Entry.call = some (.authorize params)
  callback : (s.entries[b]?).map Entry.call = some (.callback idpCode state)
  /-- The state and the nonce were generated for `a`. -/
  generated : (∃ t, s.Executed a t .randomToken state) ∧ ∃ t, s.Executed a t .randomToken nonce
  begins : s.Executed a begun (.flowInsert state nonce idpVerifier (some bridge)) (.ok ())
  completes : s.Executed b completed (.flowTake state)
    (some ⟨nonce, idpVerifier, some bridge, begun.mono + flowTtl⟩)
  verifies : ∃ t, s.Executed b t (.exchangeAndVerify idpCode nonce idpVerifier) (.ok entry.identity)
  mints : s.Executed b minted (.codeInsert hash entry.identity entry.codeChallenge entry.redirectUri
    entry.clientId) (.ok ())
  challenge : params.codeChallenge = some entry.codeChallenge
  redirect : params.redirectUri = some entry.redirectUri
  client : params.clientId = some entry.clientId
  inTime : completed.mono < begun.mono + flowTtl

section

variable {wall : ℤ} {as : List (Act HttpCall Choice)}
  (hrun : run (gateway app cfg).step (start (.init wall)) as = some s)

include hrun

theorem exists_login {d : AuthDeed} (hd : d ∈ s.log) {hash : Digest} {entry : AuthCode}
    (htakes : HitsCode d.req d.reply hash entry) :
    ∃ a b, ∃ login : Login app s hash entry a b, d.stamp.mono < login.minted.mono + codeTtl := by
  have hsound := sound_of_run hrun
  obtain ⟨l₁, l₂, hlog⟩ := List.append_of_mem hd
  -- the mint of the code
  obtain ⟨l₃, mint, l₄, rfl, hmints, hinTime⟩ := code_minted hrun hlog htakes
  have hmint : mint ∈ s.log := by
    rw [hlog]
    simp
  obtain ⟨eb, heb, ⟨p⟩⟩ := mint_path hrun hmint hmints
  -- the flow that the callback took
  rw [List.append_assoc, List.cons_append] at hlog
  obtain ⟨es, completed, hflow, -⟩ := (hsound.seenBefore _ _ _ hlog).deed p.took (by rintro ⟨⟩)
  obtain ⟨l₅, l₆, rfl⟩ := List.append_of_mem hflow
  rw [List.append_assoc, List.cons_append] at hlog
  -- the request that began it
  obtain ⟨begun, hbegun, hbegins, hexpires, hcompleted, ea, hea, ⟨q⟩⟩ :=
    flow_begun hrun hlog .mk p.bridged
  have hbegun' : begun ∈ s.log := by
    rw [hlog]
    exact List.mem_append_left _ hbegun
  have hflow' : p.flow =
      ⟨p.flow.nonce, p.flow.idpVerifier, some p.bridge, begun.stamp.mono + flowTtl⟩ := by
    rw [← p.bridged, ← hexpires]
  refine ⟨begun.task, mint.task, {
    params := q.params
    idpCode := p.code
    state := p.state
    nonce := p.flow.nonce
    idpVerifier := p.flow.idpVerifier
    bridge := p.bridge
    begun := begun.stamp
    completed := completed
    minted := mint.stamp
    authorize := by rw [hea]; exact congrArg some q.call
    callback := by rw [heb]; exact congrArg some p.call
    generated := ⟨executed_of_before hrun hbegun' q.drewState (by rintro ⟨⟩),
      executed_of_before hrun hbegun' q.drewNonce (by rintro ⟨⟩)⟩
    begins := Pool.executed_of_mem hbegun' hbegins
    completes := by rw [← hflow']; exact ⟨es, by rw [hlog]; simp⟩
    verifies := executed_of_before hrun hmint p.verified (by rintro ⟨⟩)
    mints := Pool.executed_of_mem hmint hmints.inv.1
    challenge := q.challenge.trans (congrArg some p.challenge.symm)
    redirect := q.redirect.trans (congrArg some p.redirect.symm)
    client := q.client.trans (congrArg some p.client.symm)
    inTime := hcompleted }, hinTime⟩

/-- A code belongs to one callback, and its state to one `/authorize` request. -/
theorem login_unique (hsha : Function.Injective app.crates.sha256) {hash : Digest}
    {entry entry' : AuthCode} {a b a' b' : ℕ} (login : Login app s hash entry a b)
    (login' : Login app s hash entry' a' b') : a = a' ∧ b = b' := by
  obtain ⟨es, hmints⟩ := login.mints
  obtain ⟨es', hmints'⟩ := login'.mints
  have hmint := mints_unique hrun hsha hmints hmints' (.mk (t := login.minted))
    (.mk (t := login'.minted))
  have hb : b = b' := congrArg (fun d : AuthDeed => d.task) hmint
  subst hb
  have hstate : login.state = login'.state := by
    have hcall := Option.some.inj (login.callback.symm.trans login'.callback)
    injection hcall
  obtain ⟨⟨t, es, hdrew⟩, -⟩ := login.generated
  obtain ⟨⟨t', es', hdrew'⟩, -⟩ := login'.generated
  rw [← hstate] at hdrew'
  have hdraw := (texts_fresh.drawn hrun).unique hdrew hdrew' .token .token
  exact ⟨congrArg (fun d : AuthDeed => d.task) hdraw, rfl⟩

end

/-! ## Binding -/

/-- Call `k` redeemed a code. -/
def CodeSuccess (s : AuthPool HttpCall Response) (k : ℕ) (form : TokenForm) (access refresh : String) :
    Prop :=
  form.grantType = some "authorization_code" ∧
    ∃ expiresIn, s.answer k = some (.token form, .tokens access expiresIn refresh)

/-- How the token response of call `k` is bound to the `/authorize` request `a` and the
    callback `b`. -/
structure Binding (app : AppState) (s : AuthPool HttpCall Response) (k : ℕ) (form : TokenForm)
    (access refresh : String) (a b : ℕ) where
  authCode : String
  verifier : String
  entry : AuthCode
  redeemed : Stamp
  login : Login app s (hashSecret app.crates.sha256 authCode) entry a b
  presents : form.code = some authCode
  redeems : s.Executed k redeemed (.codeTake (hashSecret app.crates.sha256 authCode)) (some entry)
  inTime : redeemed.mono < login.minted.mono + codeTtl
  pkce : form.codeVerifier = some verifier ∧
    login.params.codeChallenge = some (challengeFor app.crates verifier)
  redirect : form.redirectUri.isSome ∧ form.redirectUri = login.params.redirectUri
  client : ∀ sent ∈ form.clientId, login.params.clientId = some sent
  /-- The session and the refresh token of the response. -/
  session : ∃ row t t' ttl, row.grantee = entry.identity ∧
    s.Executed k t (.insertSession row) (.ok ()) ∧
    s.Executed k t' (.jwtIssue row.id entry.identity.sub ttl) (some access)
  token : (∃ row t, row.tokenHash = hashSecret app.crates.sha256 refresh ∧
      row.identity = entry.identity ∧ s.Executed k t (.refreshUpsert row) (.ok ())) ∨
    ∃ token t, token.identity = entry.identity ∧
      s.Executed k t (.memoryStore (hashSecret app.crates.sha256 refresh) token) (.ok ())
  carries : ∀ d ∈ s.log, d.task = k → Carries entry.identity d.req

section

variable {wall : ℤ} {as : List (Act HttpCall Choice)}
  (hrun : run (gateway app cfg).step (start (.init wall)) as = some s)

include hrun

theorem carries_of_redemption {k : ℕ} {form rest} {hash : Digest} {entry : AuthCode} {task}
    (he : s.entries[k]? = some ⟨.token form, ⟨.codeTake hash, some entry⟩ :: rest, task⟩)
    {d : AuthDeed} (hd : d ∈ s.log) (htask : d.task = k) : Carries entry.identity d.req := by
  obtain ⟨e, he', hinitial, hissues⟩ := (sound_of_run hrun).log d hd
  rw [htask, he] at he'
  cases he'
  rcases issues_token hissues with hredeems | ⟨_, _, _, es₁, es₂, -, hbefore, hgrants, -⟩
  · exact hredeems.carries
  · obtain ⟨e, es, hes⟩ : ∃ e es, d.before = e :: es := by
      rw [hbefore]
      cases hgrants <;> exact ⟨_, _, rfl⟩
    rw [hes, List.cons_prefix_cons] at hinitial
    have hmem : ⟨.codeTake hash, some entry⟩ ∈ d.before := by
      rw [hes, hinitial.1]
      exact List.mem_cons_self
    exact carries_of_code (c := .token form) hissues hmem

/-- A token response to a code is bound to a login. -/
theorem exists_binding {k : ℕ} {form} {access refresh : String}
    (h : CodeSuccess s k form access refresh) :
    ∃ a b, Nonempty (Binding app s k form access refresh a b) := by
  obtain ⟨hgrant, expiresIn, hanswer⟩ := h
  obtain ⟨trail, he⟩ := answer_eq_some.mp hanswer
  obtain ⟨auth, identity, birth, es₁, es₂, -, rfl, hgrants, hissue⟩ :=
    yields_token ((sound_of_run hrun).yields he)
  cases hgrants with
  | refresh hgrant' | refreshMemory hgrant' => simp [hgrant] at hgrant'
  | @code code verifier entry _ hcode hverifier hclient hredirect hverify =>
    obtain ⟨redeemed, es, hredeem⟩ := executed_of_trail hrun he
      (r := .codeTake (hashSecret app.crates.sha256 code)) (x := some entry) (by simp) (by rintro ⟨⟩)
    obtain ⟨a, b, login, hinTime⟩ := exists_login hrun hredeem .mk
    obtain ⟨session, now, issuedAt, es₃, es₄, hcreated, -, hstore, rfl⟩ := yields_issueToken hissue
    have hexecuted : ∀ {r} {x : AuthResp r}, ⟨r, x⟩ ∈ issuedTrail auth session now access refresh ++
        es₃ ++ es₄ → failure r ≠ some x → ∃ t, s.Executed k t r x :=
      fun hmem hfailure => executed_of_trail hrun he (List.mem_append_right _ hmem) hfailure
    refine ⟨a, b, ⟨{
      authCode := code
      verifier := verifier
      entry := entry
      redeemed := redeemed
      login := login
      presents := hcode
      redeems := ⟨es, hredeem⟩
      inTime := hinTime
      pkce := ⟨hverifier, by rw [login.challenge, verify_iff.mp hverify]⟩
      redirect := by rw [hredirect, login.redirect]; exact ⟨rfl, rfl⟩
      client := fun sent hsent => by rw [login.client, hclient sent hsent]
      session := ?_
      token := ?_
      carries := fun d hd htask => carries_of_redemption hrun he hd htask }⟩⟩
    · obtain ⟨t, hinsert⟩ := hexecuted (r := .insertSession session) (x := .ok ())
        (by simp [issuedTrail, SessionStore.createTrail]) (by rintro ⟨⟩)
      obtain ⟨t', hjwt⟩ := hexecuted
        (r := .jwtIssue session.id session.userSub auth.config.sessionTtl) (x := some access)
        (by simp [issuedTrail]) (by rintro ⟨⟩)
      rw [hcreated.userSub] at hjwt
      exact ⟨session, t, t', _, hcreated.grantee, hinsert, hjwt⟩
    · rcases yields_store hstore with ⟨row, hhash, hidentity, hmem⟩ | hmem
      · obtain ⟨t, hupsert⟩ := hexecuted (List.mem_append_right _ hmem) (by rintro ⟨⟩)
        exact .inl ⟨row, t, hhash, hidentity, hupsert⟩
      · obtain ⟨t, hput⟩ := hexecuted (List.mem_append_right _ hmem) (by rintro ⟨⟩)
        exact .inr ⟨_, t, rfl, hput⟩

/-- Every code leads to one token response at most, which is bound to one `/authorize` request
    and one callback. -/
theorem code_binding (hsha : Function.Injective app.crates.sha256) :
    (∀ {k k' form form' access access' refresh refresh'}, CodeSuccess s k form access refresh →
      CodeSuccess s k' form' access' refresh' → form.code = form'.code → k = k') ∧
    ∀ {k form access refresh}, CodeSuccess s k form access refresh →
      ∃! ab : ℕ × ℕ, Nonempty (Binding app s k form access refresh ab.1 ab.2) := by
  constructor
  · intro k k' form form' access access' refresh refresh' hk hk' hcode
    obtain ⟨a, b, ⟨binding⟩⟩ := exists_binding hrun hk
    obtain ⟨a', b', ⟨binding'⟩⟩ := exists_binding hrun hk'
    obtain ⟨es, hredeems⟩ := binding.redeems
    obtain ⟨es', hredeems'⟩ := binding'.redeems
    have hsame : binding.authCode = binding'.authCode :=
      Option.some.inj (binding.presents.symm.trans (hcode.trans binding'.presents))
    rw [← hsame] at hredeems'
    have htake := codeTakes_unique hrun hsha hredeems hredeems' .mk .mk
    injection htake with hsent
    injection hsent
  · intro k form access refresh hk
    obtain ⟨a, b, ⟨binding⟩⟩ := exists_binding hrun hk
    refine ⟨(a, b), ⟨binding⟩, ?_⟩
    rintro ⟨a', b'⟩ ⟨binding'⟩
    have hsame : binding'.authCode = binding.authCode :=
      Option.some.inj (binding'.presents.symm.trans binding.presents)
    have hlogin := binding'.login
    rw [hsame] at hlogin
    obtain ⟨ha, hb⟩ := login_unique hrun hsha hlogin binding.login
    exact Prod.ext ha hb

end

/-! ### A login of alice -/

/-- Libraries for runs on fixed inputs. -/
def demoCrates : Crates where
  sha256 := id
  parseUrl _ := some ⟨"http", some (.ipv4 0x7f000001), "", none, "/cb", none, none⟩
  appendPairs := appendForm

/-- A gateway with a refresh lifetime of a day and an admin age limit of ten minutes. -/
def demo : AppState :=
  ⟨demoCrates, some ⟨⟨3600⟩, ⟨.db, 86400⟩, []⟩, ⟨"admins", some 600⟩⟩

/-- The challenge is for the verifier `a`. -/
def aliceParams : AuthorizeParams :=
  ⟨some "code", some "http://127.0.0.1/cb", some "YQ", some "S256", some "z", some "cli", none⟩

def alice : GrantIdentity := ⟨"alice", "alice@corp", ["eng", "admins"]⟩

/-- A `/token` request for the code `c`. -/
def aliceForm : TokenForm :=
  ⟨some "authorization_code", some "c", some "http://127.0.0.1/cb", some "a", none, some "cli"⟩

/-- Call `i` goes on for some steps that nothing but the state determines. -/
def goes (i n : ℕ) : List (Act HttpCall Choice) := List.replicate n (.serve i .go)

/-- Alice logs in (calls 0 and 1) and gets the code `c`. -/
def aliceCode : List (Act HttpCall Choice) :=
  .arrive (.authorize aliceParams) :: goes 0 7 ++
    [.serve 0 (.draw "s"), .serve 0 (.draw "n"), .serve 0 (.draw "v"), .serve 0 (.draw "w"),
      .serve 0 (.url (.ok "idp")), .serve 0 .go,
      .arrive (.callback "x" "s"), .serve 1 .go, .serve 1 (.verified (.ok alice)),
      .serve 1 (.draw "c"), .serve 1 .go]

/-- She redeems her code (call 2). -/
def aliceLogin : List (Act HttpCall Choice) :=
  aliceCode ++ [.arrive (.token aliceForm), .serve 2 .go, .serve 2 (.drawId 1), .serve 2 .go,
    .serve 2 .go, .serve 2 .go, .serve 2 (.sign (some "j")), .serve 2 (.draw "r")] ++ goes 2 4

theorem code_binding_alice : ∃ s,
    run (gateway demo .default).step (start (.init 0)) aliceLogin = some s ∧
    CodeSuccess s 2 aliceForm "j" "r" ∧
    ∃! ab : ℕ × ℕ, Nonempty (Binding demo s 2 aliceForm "j" "r" ab.1 ab.2) := by
  have hanswer : (run (gateway demo .default).step (start (.init 0)) aliceLogin).map
      (fun s => s.answer 2) = some (some (.token aliceForm, .tokens "j" 3600 "r")) := by
    decide +kernel
  obtain ⟨s, hrun, hs⟩ := Option.map_eq_some_iff.mp hanswer
  have hsuccess : CodeSuccess s 2 aliceForm "j" "r" := ⟨rfl, _, hs⟩
  exact ⟨s, hrun, hsuccess, (code_binding hrun Function.injective_id).2 hsuccess⟩

end DbMcpGateway.Oauth
