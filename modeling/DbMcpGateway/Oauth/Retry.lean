import DbMcpGateway.Oauth.Chains

/-!
# Failed token requests

`/token` takes the code or the refresh token first and creates the session, signs the JWT and
stores the next refresh token after that. If one of these fails, the answer is a
`server_error`, and what was taken is gone.

Results:

* `yields_server_error`: a `server_error` comes after the credential was taken.
* `not_stored`: what was taken is never stored again.
* `retryable_iff`: a request that got a `server_error` can be repeated exactly if the gateway
  has no auth, or if time has made up for it: the credential would have expired by now anyway, and
  no session of the request is active.
-/

namespace DbMcpGateway.Oauth

open Async Async.Prog Async.Service Machine

variable {app : AppState} {auth : AuthFacade} {cfg : SessionCacheConfig} {form : TokenForm}
  {es : AuthTrail} {status : ℕ} {description : String}

inductive Consumes : Exchange AuthReq AuthResp → Prop
  | code {hash entry} : Consumes ⟨.codeTake hash, some entry⟩
  | token {hash token} : Consumes ⟨.refreshTake hash, .ok (some token)⟩
  | memory {ttl hash token} : Consumes ⟨.memoryTake ttl hash, some token⟩

/-- The credential that a request takes is in its store. -/
def Stored (s : AuthState) : AuthReq → Prop
  | .codeTake hash => ∃ entry, (hash, entry) ∈ s.codes.rows
  | .refreshTake hash => ∃ row ∈ s.refresh.rows, row.tokenHash = hash
  | .memoryTake _ hash => ∃ token, (hash, token) ∈ s.refreshMap.rows
  | _ => False

/-- The lifetime of the credential that the exchange took is over. -/
inductive Overdue (s : AuthPool HttpCall Response) : Exchange AuthReq AuthResp → Prop
  | code {hash} {entry : AuthCode} : entry.expiresAt ≤ s.shared.mono →
      Overdue s ⟨.codeTake hash, some entry⟩
  /-- The reply does not have the deadline; the row that was stored does. -/
  | token {d : AuthDeed} {row : RefreshRow} {token} : d ∈ s.log →
      PutsRow d.req d.reply row → row.stored.expiresAt ≤ timestamptz s.shared.wall →
      Overdue s ⟨.refreshTake row.tokenHash, .ok (some token)⟩
  | memory {ttl hash} {token : RefreshToken} :
      chainExpired token.issuedAt s.shared.wall ttl = true →
      Overdue s ⟨.memoryTake ttl hash, some token⟩

/-- No session that call `k` has inserted is active. -/
def Inactive (s : AuthPool HttpCall Response) (k : ℕ) : Prop :=
  ∀ d ∈ s.log, d.task = k → ∀ put, PutsSession d.req d.reply put → ∀ row,
    s.shared.sessions.get put.id = some row → row.isActive s.shared.wall = false

/-- What call `k` has taken is stored, or its lifetime is over, and no session was left behind. -/
structure Retryable (s : AuthPool HttpCall Response) (k : ℕ) : Prop where
  credential : ∀ d ∈ s.log, d.task = k → Consumes ⟨d.req, d.reply⟩ →
    Stored s.shared d.req ∨ Overdue s ⟨d.req, d.reply⟩
  session : Inactive s k

/-- Call `k` has taken a credential whose lifetime is over, and no session was left behind. -/
structure Outlived (s : AuthPool HttpCall Response) (k : ℕ) : Prop where
  taken : ∃ d ∈ s.log, d.task = k ∧ Consumes ⟨d.req, d.reply⟩
  lapsed : ∀ d ∈ s.log, d.task = k → Consumes ⟨d.req, d.reply⟩ → Overdue s ⟨d.req, d.reply⟩
  session : Inactive s k

theorem Consumes.failure {r : AuthReq} {x} (h : Consumes ⟨r, x⟩) : failure r ≠ some x := by
  cases h <;> rintro ⟨⟩

/-- A `server_error` comes after the credential was taken. -/
theorem yields_server_error (hauth : app.auth = some auth)
    (h : Yields (token app form) es (.oauthError status "server_error" description)) :
    ∃ e ∈ es, Consumes e := by
  simp [token, tokenRefresh, tokenAuthorizationCode, hauth] at h
  rcases h with ⟨-, ⟨-, presented, es₁, entry, es₂, rfl, -, htake, -⟩ |
    ⟨-, code, verifier, entry, es₂, rfl, -⟩⟩
  · rcases yields_take_some htake with ⟨-, now, -, rfl⟩ | ⟨-, rfl⟩
    · exact ⟨_, List.mem_append_left _ List.mem_cons_self, .token⟩
    · exact ⟨_, List.mem_append_left _ List.mem_cons_self, .memory⟩
  · exact ⟨_, List.mem_cons_self, .code⟩

/-- Without auth a `/token` request asks for nothing. -/
theorem not_issues_token (hauth : app.auth = none) (r : AuthReq) : ¬ Issues (token app form) es r := by
  simp [token, hauth]

section

variable {wall : ℤ} {as : List (Act HttpCall Choice)} {s : AuthPool HttpCall Response}
  (hsha : Function.Injective app.crates.sha256)
  (hrun : run (gateway app cfg).step (start (.init wall)) as = some s)

include hsha hrun

theorem entry_not_taken {d : AuthDeed} {ttl : Seconds} {hash : Digest} {token}
    (he : (hash, token) ∈ s.shared.refreshMap.rows) (hd : d ∈ s.log) (token' : RefreshToken) :
    (⟨d.req, d.reply⟩ : Exchange AuthReq AuthResp) ≠ ⟨.memoryTake ttl hash, some token'⟩ := by
  intro htake
  refine entries_slots.not_taken ?_ hrun ?_ ⟨token, he⟩ hd ⟨ttl, token', htake⟩
  · rintro ⟨token, ⟨⟩⟩
  · rintro d hd d' hd' ⟨token, hputs⟩ ⟨token', hputs'⟩
    have hstores : StoresToken d.req d.reply hash token := .of_entry hputs
    have hstores' : StoresToken d'.req d'.reply hash token' := .of_entry hputs'
    exact tokens_unique hsha hrun hd hd' hstores hstores'

/-- What was taken is never stored again. -/
theorem not_stored {d : AuthDeed} (hd : d ∈ s.log) (h : Consumes ⟨d.req, d.reply⟩) :
    ¬ Stored s.shared d.req := by
  obtain ⟨⟨task, before, req⟩, stamp, reply⟩ := d
  cases h with
  | code =>
    refine fun hstored => codes_slots.not_taken ?_ hrun ?_ hstored hd ⟨_, .mk⟩
    · rintro ⟨entry, ⟨⟩⟩
    · rintro d hd d' hd' ⟨t, entry, hmints⟩ ⟨t', entry', hmints'⟩
      exact mints_unique hrun hsha hd hd' hmints hmints'
  | token =>
    rintro ⟨row, hrow, rfl⟩
    exact not_taken hsha hrun hrow hd .mk
  | memory =>
    rintro ⟨token, he⟩
    exact entry_not_taken hsha hrun he hd _ rfl

/-- A request that got a `server_error` can be repeated exactly if the gateway has no auth, or the
    lifetime of its credential is over and no session of the request is active. -/
theorem retryable_iff {k : ℕ}
    (hanswer : s.answer k = some (.token form, .oauthError status "server_error" description)) :
    Retryable s k ↔ app.auth = none ∨ Outlived s k := by
  have hsound := sound_of_run hrun
  obtain ⟨trail, he⟩ := answer_eq_some.mp hanswer
  constructor
  · intro hretry
    cases hauth : app.auth with
    | none => exact .inl rfl
    | some auth =>
      obtain ⟨⟨r, x⟩, hmem, hconsumes⟩ := yields_server_error hauth (hsound.yields he)
      obtain ⟨t, es, hdeed⟩ := executed_of_trail hrun he hmem hconsumes.failure
      refine .inr ⟨⟨_, hdeed, rfl, hconsumes⟩, fun d hd htask hconsumes => ?_, hretry.session⟩
      exact (hretry.credential d hd htask hconsumes).resolve_left (not_stored hsha hrun hd hconsumes)
  · rintro (hauth | hlapsed)
    · have hidle : ∀ d ∈ s.log, d.task ≠ k := by
        rintro d hd rfl
        obtain ⟨e, he', -, hissues⟩ := hsound.log d hd
        rw [he] at he'
        cases he'
        exact not_issues_token hauth d.req hissues
      exact ⟨fun d hd htask => absurd htask (hidle d hd), fun d hd htask => absurd htask (hidle d hd)⟩
    · exact ⟨fun d hd htask hconsumes => .inr (hlapsed.lapsed d hd htask hconsumes), hlapsed.session⟩

end

/-- The gateway of `demo` without auth. -/
def demoOff : AppState := { demo with auth := none }

/-- Alice redeems her code, but the INSERT of her session gets no answer within a minute. -/
def aliceStalled : List (Act HttpCall Choice) :=
  aliceCode ++ [.arrive (.token aliceForm), .serve 2 .go, .serve 2 (.drawId 1), .serve 2 .go,
    .env (.clock 0 (nanos 60)), .fail 2]

/-- The code that the exchange takes has expired. -/
def takesOver (mono : ℕ) : Exchange AuthReq AuthResp → Bool
  | ⟨.codeTake _, some entry⟩ => entry.expiresAt ≤ mono
  | _ => false

def harmless : Exchange AuthReq AuthResp → Bool
  | ⟨.codeTake _, _⟩ | ⟨.refreshTake _, _⟩ | ⟨.memoryTake _ _, _⟩ | ⟨.insertSession _, _⟩ => false
  | _ => true

theorem outlived_of_checks {s : AuthPool HttpCall Response} {k : ℕ}
    (htaken : s.log.any (fun d => d.task == k && takesOver s.shared.mono ⟨d.req, d.reply⟩) = true)
    (hall : s.log.all (fun d => d.task != k || takesOver s.shared.mono ⟨d.req, d.reply⟩ ||
      harmless ⟨d.req, d.reply⟩) = true) : Outlived s k := by
  simp only [List.any_eq_true, Bool.and_eq_true, beq_iff_eq, List.all_eq_true, Bool.or_eq_true,
    bne_iff_ne] at htaken hall
  refine ⟨?_, ?_, ?_⟩
  · obtain ⟨⟨⟨task, before, req⟩, stamp, reply⟩, hd, htask, hover⟩ := htaken
    refine ⟨_, hd, htask, ?_⟩
    unfold takesOver at hover
    split at hover
    · rename_i heq
      rw [heq]
      exact .code
    · cases hover
  · rintro ⟨⟨task, before, req⟩, stamp, reply⟩ hd htask hconsumes
    rcases hall _ hd with (hne | hover) | hharmless
    · exact absurd htask hne
    · cases hconsumes with
      | code => exact .code (of_decide_eq_true hover)
      | token | memory => cases hover
    · cases hconsumes <;> cases hharmless
  · rintro ⟨⟨task, before, req⟩, stamp, reply⟩ hd htask put ⟨⟩
    rcases hall _ hd with (hne | hover) | hharmless
    · exact absurd htask hne
    · cases hover
    · cases hharmless

theorem retryable_stalled :
    (∃ s, run (gateway demo .default).step (start (.init 0)) aliceStalled = some s ∧
      s.answer 2 = some (.token aliceForm, .oauthError 500 "server_error" "could not create session") ∧
      Retryable s 2) ∧
    ∃ s, run (gateway demoOff .default).step (start (.init 0)) [.arrive (.token aliceForm)] = some s ∧
      s.answer 0 = some (.token aliceForm, .oauthError 500 "server_error" "auth not configured") ∧
      Retryable s 0 := by
  have hchecks : ((run (gateway demo .default).step (start (.init 0)) aliceStalled).map fun s =>
      (s.answer 2, s.log.any (fun d => d.task == 2 && takesOver s.shared.mono ⟨d.req, d.reply⟩),
        s.log.all fun d => d.task != 2 || takesOver s.shared.mono ⟨d.req, d.reply⟩ ||
          harmless ⟨d.req, d.reply⟩)) =
      some (some (.token aliceForm, .oauthError 500 "server_error" "could not create session"),
        true, true) := by
    decide +kernel
  obtain ⟨s, hrun, hs⟩ := Option.map_eq_some_iff.mp hchecks
  simp only [Prod.mk.injEq] at hs
  have hoff : run (gateway demoOff .default).step (start (.init 0)) [.arrive (.token aliceForm)] =
      some _ := rfl
  exact ⟨⟨s, hrun, hs.1, (retryable_iff Function.injective_id hrun hs.1).mpr
    (.inr (outlived_of_checks hs.2.1 hs.2.2))⟩,
    _, hoff, rfl, (retryable_iff Function.injective_id hoff rfl).mpr (.inl rfl)⟩

/-- Alice redeems her code, and the JWT encoder fails. Her session stays, and the code is gone
    when she tries again. -/
theorem not_retryable : ∃ s₁ s₂ session,
    run (gateway demo .default).step (start (.init 0)) (aliceCode ++ [.arrive (.token aliceForm),
      .serve 2 .go, .serve 2 (.drawId 1), .serve 2 .go, .serve 2 .go, .serve 2 .go,
      .serve 2 (.sign none)]) = some s₁ ∧
    s₁.answer 2 =
      some (.token aliceForm, .oauthError 500 "server_error" "could not issue token") ∧
    s₁.shared.sessions.get 1 = some session ∧ session.isActive s₁.shared.wall = true ∧
    run (gateway demo .default).step s₁ [.arrive (.token aliceForm), .serve 3 .go] = some s₂ ∧
    s₂.answer 3 = some (.token aliceForm,
      .oauthError 400 "invalid_grant" "authorization code is invalid or expired") := by
  have hchecks : ((run (gateway demo .default).step (start (.init 0)) (aliceCode ++
        [.arrive (.token aliceForm), .serve 2 .go, .serve 2 (.drawId 1), .serve 2 .go, .serve 2 .go,
          .serve 2 .go, .serve 2 (.sign none)])).bind fun s₁ =>
      (run (gateway demo .default).step s₁ [.arrive (.token aliceForm), .serve 3 .go]).bind fun s₂ =>
      (s₁.shared.sessions.get 1).map fun session =>
        decide (s₁.answer 2 =
          some (.token aliceForm, .oauthError 500 "server_error" "could not issue token")) &&
        session.isActive s₁.shared.wall &&
        decide (s₂.answer 3 = some (.token aliceForm,
          .oauthError 400 "invalid_grant" "authorization code is invalid or expired"))) =
      some true := by
    decide +kernel
  obtain ⟨s₁, h₁, hchecks⟩ := Option.bind_eq_some_iff.mp hchecks
  obtain ⟨s₂, h₂, hchecks⟩ := Option.bind_eq_some_iff.mp hchecks
  obtain ⟨session, hsession, hchecks⟩ := Option.map_eq_some_iff.mp hchecks
  simp only [Bool.and_eq_true, decide_eq_true_eq] at hchecks
  exact ⟨s₁, s₂, session, h₁, hchecks.1.1, hsession, hchecks.1.2, h₂, hchecks.2⟩

end DbMcpGateway.Oauth
