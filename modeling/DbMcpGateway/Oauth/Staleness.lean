import DbMcpGateway.Oauth.Chains

/-!
# How old the groups of a session can be

The groups of a session are those that the identity provider gave at a login. The session
lives for its lifetime from its creation, and it is created at the login, or by a refresh
within the lifetime of the chain that the login began. `require_admin_group` bounds the age
further: it counts from the creation, or from the birth of the chain.

Results:

* `Ordered.run`: with a clock that does not go back, the log is in the order of the clock.
* `inserts_unique`, `jwt_inserted`, `Finds.inserted`: the insertion behind a session that a
  lookup finds.
* `token_rooted`: the login behind a refresh token, in either backend.
* `groups_bounded`: all of it, for every request that `bearer_auth` accepts.
-/

namespace DbMcpGateway.Oauth

open Async Async.Prog Async.Service Machine

variable {app : AppState} {cfg : SessionCacheConfig} {s : AuthPool HttpCall Response}

/-! ## The clock -/

/-- The wall clock does not go back. -/
def forward (s : AuthPool HttpCall Response) : Act HttpCall Choice → Bool
  | .env o => (tick s.shared o).all fun s' => s.shared.wall ≤ s'.wall
  | _ => true

/-- The log is in the order of the clock. -/
structure Ordered (s : AuthState) (log : List AuthDeed) : Prop where
  past : ∀ d ∈ log, d.stamp.wall ≤ s.wall
  sorted : log.Pairwise fun d d' => d.stamp.wall ≤ d'.stamp.wall
  /-- `Utc::now()` gives the time of the request. -/
  clock : ∀ d ∈ log, ∀ now : ℤ,
    (⟨d.req, d.reply⟩ : Exchange AuthReq AuthResp) = ⟨.utcNow, now⟩ → now = d.stamp.wall

theorem Ordered.run {wall : ℤ} {as}
    (hforward : Meets (gateway app cfg).step (fun s a => forward s a = true) (start (.init wall)) as)
    (hrun : run (gateway app cfg).step (start (.init wall)) as = some s) :
    Ordered s.shared s.log := by
  refine log_invariant_of_meets (J := Ordered) ?_ ?_ ?_ ⟨by simp, .nil, by simp⟩ hforward hrun
  · intro s log o l x s' hs hserve
    have hserved : serve cfg s o l.req = some (x, s') := hserve
    have hwall : s'.wall = s.wall := (serve_frame hserved).wall
    refine ⟨?_, ?_, ?_⟩
    · intro d hd
      rw [hwall]
      rcases Indexed.mem_concat_cases hd with rfl | hd
      · exact le_rfl
      · exact hs.past d hd
    · refine List.pairwise_append.mpr ⟨hs.sorted, List.pairwise_singleton _ _, ?_⟩
      intro d hd d' hd'
      rw [List.mem_singleton.mp hd']
      exact hs.past d hd
    · intro d hd now hreq
      rcases Indexed.mem_concat_cases hd with rfl | hd
      · obtain ⟨i, es, r⟩ := l
        cases hreq
        exact (congrArg Prod.fst (Option.some.inj hserved)).symm
      · exact hs.clock d hd now hreq
  · exact fun s log c hs => ⟨hs.past, hs.sorted, hs.clock⟩
  · intro s o s' hs hcond henv
    have hle : s.shared.wall ≤ s'.wall := by
      rw [forward, show tick s.shared o = some s' from henv] at hcond
      simpa using hcond
    exact ⟨fun d hd => (hs.past d hd).trans hle, hs.sorted, hs.clock⟩

/-- A reading of the clock that precedes another is not later. -/
theorem Ordered.reading_le {s log l₁ l₂} (h : Ordered s log)
    {i j : ℕ} {es es'} {t t' : Stamp} {now now' : ℤ}
    (hlog : log = l₁ ++ ⟨⟨j, es', .utcNow⟩, t', now'⟩ :: l₂)
    (hmem : (⟨⟨i, es, .utcNow⟩, t, now⟩ : AuthDeed) ∈ l₁) : now ≤ now' := by
  have hnow := h.clock ⟨⟨i, es, .utcNow⟩, t, now⟩ (by rw [hlog]; exact List.mem_append_left _ hmem)
    now rfl
  have hnow' := h.clock ⟨⟨j, es', .utcNow⟩, t', now'⟩ (by rw [hlog]; simp) now' rfl
  have hsorted := h.sorted
  rw [hlog, List.pairwise_append] at hsorted
  have hle := hsorted.2.2 _ hmem _ List.mem_cons_self
  rw [hnow, hnow']
  exact hle

/-! ## The insertion of a session -/

section

variable {c : HttpCall} {es : AuthTrail} {row : Session} (p : SessionPath app c es row)

include p in
theorem SessionPath.drewId : ⟨.newSessionId, row.id⟩ ∈ es := by
  rw [p.trail]
  simp

theorem SessionPath.readClock : ⟨.utcNow, p.now⟩ ∈ es := by
  have hmem : ⟨.utcNow, p.now⟩ ∈ p.origin ++ [⟨.newSessionId, row.id⟩, ⟨.utcNow, p.now⟩] := by simp
  rwa [← p.trail] at hmem

theorem SessionPath.mem_origin {e} (he : e ∈ p.origin) : e ∈ es := by
  rw [p.trail]
  exact List.mem_append_left _ he

theorem JwtPath.inserted {id} {sub : String} {ttl : Seconds}
    (p : JwtPath app c es id sub ttl) : ⟨.insertSession p.session, .ok ()⟩ ∈ es := by
  have hmem : ⟨.insertSession p.session, .ok ()⟩ ∈
      p.origin ++ SessionStore.createTrail p.session p.now := by
    simp [SessionStore.createTrail]
  rwa [← p.trail] at hmem

theorem Origin.kind_ne {auth identity birth}
    (h : Origin app auth c es identity birth) : ∀ e ∈ es, e.1.kind ≠ .insertSession := by
  intro e he hkind
  cases h with
  | login _ =>
    simp only [List.mem_cons, List.not_mem_nil, or_false] at he
    rcases he with rfl | rfl <;> cases hkind
  | grant hgrants =>
    have hkinds := hgrants.kind_mem e he
    rw [hkind] at hkinds
    simp at hkinds

end

theorem insertSession_singular :
    (gateway app cfg).Singular fun r => ∃ row, r = .insertSession row := by
  rintro c es r hissues ⟨row, rfl⟩ e he ⟨row', hreq⟩
  obtain ⟨p⟩ := issues_insertSession hissues
  rw [p.trail] at he
  have hkind : e.1.kind = .insertSession := by
    rw [hreq]
    rfl
  rcases List.mem_append.mp he with he | he
  · exact p.got.kind_ne e he hkind
  · simp only [List.mem_cons, List.not_mem_nil, or_false] at he
    rcases he with rfl | rfl <;> cases hreq

def Copies (row session : Session) : Prop :=
  session.core = row.core ∨ session.core = row.stored.core

section

variable {row session : Session} (h : Copies row session)

include h

theorem Copies.id_eq : session.id = row.id := by
  rcases h with h | h <;> (have hid := congrArg Session.id h; exact hid)

theorem Copies.grantee_eq :
    session.grantee = row.grantee := by
  rcases h with h | h <;> (have hgrantee := congrArg Session.grantee h; exact hgrantee)

theorem Copies.issuedAt_le :
    session.issuedAt ≤ row.issuedAt := by
  rcases h with h | h
  · exact (congrArg Session.issuedAt h).le
  · exact (congrArg Session.issuedAt h).le.trans (timestamptz_le _)

theorem Copies.expiresAt_le :
    session.expiresAt ≤ row.expiresAt := by
  rcases h with h | h
  · exact (congrArg Session.expiresAt h).le
  · exact (congrArg Session.expiresAt h).le.trans (timestamptz_le _)

end

section

variable {wall : ℤ} {as : List (Act HttpCall Choice)}
  (hrun : run (gateway app cfg).step (start (.init wall)) as = some s)

include hrun

theorem insert_path {d : AuthDeed} (hd : d ∈ s.log) {row : Session}
    (hputs : PutsSession d.req d.reply row) :
    ∃ e, s.entries[d.task]? = some e ∧ Nonempty (SessionPath app e.call d.before row) := by
  obtain ⟨e, he, -, hissues⟩ := (sound_of_run hrun).log d hd
  rw [hputs.req_eq] at hissues
  exact ⟨e, he, issues_insertSession hissues⟩

theorem inserts_unique {d d' : AuthDeed} (hd : d ∈ s.log) (hd' : d' ∈ s.log) {row row' : Session}
    (hputs : PutsSession d.req d.reply row) (hputs' : PutsSession d'.req d'.reply row')
    (hid : row.id = row'.id) : d = d' := by
  have hsound := sound_of_run hrun
  have hdraw : ∀ {d : AuthDeed} {row}, d ∈ s.log → PutsSession d.req d.reply row →
      ∃ es t, (⟨⟨d.task, es, .newSessionId⟩, t, row.id⟩ : AuthDeed) ∈ s.log := by
    intro d row hd hputs
    obtain ⟨e, -, ⟨p⟩⟩ := insert_path hrun hd hputs
    obtain ⟨t, es, hmem⟩ := executed_of_before hrun hd p.drewId (by rintro ⟨⟩)
    exact ⟨es, t, hmem⟩
  obtain ⟨es, t, hmem⟩ := hdraw hd hputs
  obtain ⟨es', t', hmem'⟩ := hdraw hd' hputs'
  rw [← hid] at hmem'
  have hdeed := (ids_fresh.drawn hrun).unique hmem hmem' .mk .mk
  have htask : d.task = d'.task := by injection hdeed with hsent; injection hsent
  have hbefore := insertSession_singular.before_eq (hsound.log d hd) (hsound.log d' hd')
    ⟨row, hputs.req_eq⟩ ⟨row', hputs'.req_eq⟩ htask
  exact hsound.eq_of_key hd hd' (by rw [Sent.key, Sent.key, htask, hbefore])

theorem jwt_inserted {l₁ l₂} {i : ℕ} {es} {t : Stamp} {token : String} {claims : SessionClaims}
    (hlog : s.log = l₁ ++ ⟨⟨i, es, .jwtVerify token⟩, t, some claims⟩ :: l₂) :
    ∃ d ∈ l₁, ∃ row, PutsSession d.req d.reply row ∧ row.id = claims.sid := by
  have hsound := sound_of_run hrun
  obtain ⟨jwt, hshows, issue, hissue, hputs⟩ :=
    jwts_passage.shown_of_log (by rintro jwt ⟨⟩) hrun hlog ⟨⟨token, claims⟩, .mk⟩
  have hmem : issue ∈ s.log := by
    rw [hlog]
    exact List.mem_append_left _ hissue
  obtain ⟨⟨task, before, req⟩, stamp, reply⟩ := issue
  cases hshows
  cases hputs
  obtain ⟨e, -, -, hissues⟩ := hsound.log _ hmem
  obtain ⟨p⟩ := issues_jwtIssue hissues
  obtain ⟨l₃, l₄, rfl⟩ := List.append_of_mem hissue
  rw [List.append_assoc, List.cons_append] at hlog
  obtain ⟨es', t', hdeed, -⟩ := (hsound.seenBefore _ _ _ hlog).deed p.inserted (by rintro ⟨⟩)
  exact ⟨_, List.mem_append_left _ hdeed, p.session, .mk, p.sid.symm⟩

theorem selected_inserted {d : AuthDeed} (hd : d ∈ s.log) {id} {session : Session}
    (hreads : (⟨d.req, d.reply⟩ : Exchange AuthReq AuthResp) =
      ⟨.selectSession id, .ok (some session)⟩) :
    ∃ d₀ ∈ s.log, ∃ row, PutsSession d₀.req d₀.reply row ∧ row.id = id ∧ Copies row session := by
  obtain ⟨l₁, l₂, hlog⟩ := List.append_of_mem hd
  obtain ⟨core, hshows, d₀, hd₀, row, hputs, rfl⟩ :=
    sessions_passage.shown_of_log (by rintro core ⟨row, ⟨⟩, -⟩) hrun hlog ⟨id, session, hreads⟩
  obtain ⟨hid, hcore⟩ : session.id = id ∧ session.core = row.stored.core := by
    generalize row.stored.core = core at hshows
    obtain ⟨⟨task, before, req⟩, stamp, reply⟩ := d
    cases hreads
    cases hshows
    exact ⟨rfl, rfl⟩
  have hcopies : Copies row session := .inr hcore
  refine ⟨d₀, ?_, row, hputs, hcopies.id_eq.symm.trans hid, hcopies⟩
  rw [hlog]
  exact List.mem_append_left _ hd₀

theorem filled_inserted {d : AuthDeed} (hd : d ∈ s.log) {id} {session : Session}
    (hfills : d.req = .cacheInsert id session) :
    ∃ d₀ ∈ s.log, ∃ row, PutsSession d₀.req d₀.reply row ∧ row.id = id ∧ Copies row session := by
  obtain ⟨e, -, -, hissues⟩ := (sound_of_run hrun).log d hd
  rw [hfills] at hissues
  rcases issues_fill hissues with ⟨es', hbefore, hid⟩ | ⟨es', hbefore, -⟩
  · obtain ⟨t, es, hmem⟩ := executed_of_before hrun hd (r := .insertSession session) (x := .ok ())
      (by rw [hbefore]; simp) (by rintro ⟨⟩)
    exact ⟨_, hmem, session, .mk, hid, .inl rfl⟩
  · obtain ⟨t, es, hmem⟩ := executed_of_before hrun hd (r := .selectSession id)
      (x := .ok (some session)) (by rw [hbefore]; simp) (by rintro ⟨⟩)
    exact selected_inserted hrun hmem rfl

theorem cached_inserted {d : AuthDeed} (hd : d ∈ s.log) {id} {now : ℤ}
    {session : Session} (hreads : (⟨d.req, d.reply⟩ : Exchange AuthReq AuthResp) =
      ⟨.cacheGet id now, some session⟩) :
    session.isActive now = true ∧
    ∃ d₀ ∈ s.log, ∃ row, PutsSession d₀.req d₀.reply row ∧ row.id = id ∧ Copies row session := by
  obtain ⟨l₁, l₂, hlog⟩ := List.append_of_mem hd
  obtain ⟨e, hshows, d₀, hd₀, hputs⟩ :=
    cache_passage.shown_of_log (by rintro e ⟨cachedAt, ⟨⟩⟩) hrun hlog ⟨id, now, session, hreads⟩
  obtain ⟨hactive, rfl⟩ : session.isActive now = true ∧ e = (id, session) := by
    obtain ⟨⟨task, before, req⟩, stamp, reply⟩ := d
    cases hreads
    cases hshows with
    | mk hactive => exact ⟨hactive, rfl⟩
  have hfills : d₀.req = .cacheInsert id session := hputs.req_eq
  refine ⟨hactive, filled_inserted hrun ?_ hfills⟩
  rw [hlog]
  exact List.mem_append_left _ hd₀

theorem Finds.inserted {k : ℕ} {e : Entry AuthReq AuthResp HttpCall Response}
    (he : s.entries[k]? = some e) {id} {now : ℤ} {es} {session : Session}
    (h : Finds id now es session) (hsub : es ⊆ e.trail) :
    session.isActive now = true ∧
    ∃ d ∈ s.log, ∃ row, PutsSession d.req d.reply row ∧ row.id = id ∧ Copies row session := by
  cases h with
  | cached =>
    obtain ⟨t, es', hmem⟩ := executed_of_trail hrun he (r := .cacheGet id now) (x := some session)
      (hsub (by simp)) (by rintro ⟨⟩)
    exact cached_inserted hrun hmem rfl
  | read hactive =>
    obtain ⟨t, es', hmem⟩ := executed_of_trail hrun he (r := .selectSession id)
      (x := .ok (some session)) (hsub (by simp)) (by rintro ⟨⟩)
    exact ⟨hactive, selected_inserted hrun hmem rfl⟩

end

/-! ## The login behind a refresh token -/

/-- The reply has a refresh token, of the table or of the map. -/
inductive HitsToken (ttl : Seconds) : (r : AuthReq) → AuthResp r → Digest → RefreshToken → Prop
  | row {hash token} : HitsToken ttl (.refreshTake hash) (.ok (some token)) hash token
  | entry {hash token} : HitsToken ttl (.memoryTake ttl hash) (some token) hash token

theorem HitsToken.not_failure {ttl : Seconds} {r : AuthReq} {x} {hash : Digest}
    {token} (h : HitsToken ttl r x hash token) : failure r ≠ some x := by
  cases h <;> rintro ⟨⟩

/-- The token `h'` was stored by a call that had taken `h`. -/
def NextToken (ttl : Seconds) (log : List AuthDeed) (h h' : Digest) : Prop :=
  ∃ d ∈ log, ∃ token token', StoresToken d.req d.reply h' token' ∧
    ∃ e ∈ d.before, HitsToken ttl e.1 e.2 h token

/-- The token `h` was got from `h₀` by any number of refreshes. -/
def Descends (ttl : Seconds) (log : List AuthDeed) : Digest → Digest → Prop :=
  Relation.ReflTransGen (NextToken ttl log)

theorem Grants.hits {auth : AuthFacade} {form es identity birth}
    (h : Grants app auth form es identity birth) :
    (∃ hash entry, ⟨.codeTake hash, some entry⟩ ∈ es ∧ entry.identity = identity ∧ birth = none) ∨
    ∃ r, ∃ x : AuthResp r, ∃ hash token, ⟨r, x⟩ ∈ es ∧ HitsToken auth.refresh.ttl r x hash token ∧
      token.identity = identity ∧ birth = some token.issuedAt := by
  cases h with
  | @code code verifier entry =>
    exact .inl ⟨_, entry, List.mem_singleton.mpr rfl, rfl, rfl⟩
  | @refresh token entry now => exact .inr ⟨_, _, _, entry, List.mem_cons_self, .row, rfl, rfl⟩
  | @refreshMemory token entry =>
    exact .inr ⟨_, _, _, entry, List.mem_singleton.mpr rfl, .entry, rfl, rfl⟩

/-- Call `r` began a chain at `b`: it redeemed a code of the login that the callback `v`
    completed. -/
structure Begins (app : AppState) (s : AuthPool HttpCall Response) (v r : ℕ)
    (identity : GrantIdentity) (first : Digest) (b : ℤ) : Prop where
  redeems : ∃ form hash entry t a, (s.entries[r]?).map Entry.call = some (.token form) ∧
    s.Executed r t (.codeTake hash) (some entry) ∧ entry.identity = identity ∧
    Nonempty (Login app s hash entry a v)
  reads : ∃ t, s.Executed r t .utcNow b
  stores : ∃ d ∈ s.log, d.task = r ∧ StoresToken d.req d.reply first ⟨identity, b⟩

/-- The time is the birth `b`, or `b` as a column keeps it. -/
def IsBirth (b issuedAt : ℤ) : Prop := issuedAt = b ∨ issuedAt = timestamptz b

theorem IsBirth.le {b issuedAt : ℤ} (h : IsBirth b issuedAt) : issuedAt ≤ b := by
  rcases h with rfl | rfl
  · exact le_rfl
  · exact timestamptz_le b

theorem IsBirth.trans {b b' issuedAt : ℤ} (h : IsBirth b b') (h' : IsBirth b' issuedAt) :
    IsBirth b issuedAt := by
  rcases h' with rfl | rfl
  · exact h
  · rcases h with rfl | rfl
    · exact .inr rfl
    · exact .inr (timestamptz_timestamptz b)

section

variable {auth : AuthFacade} {wall : ℤ} {as : List (Act HttpCall Choice)}
  (hauth : app.auth = some auth)
  (hrun : run (gateway app cfg).step (start (.init wall)) as = some s)

include hrun

include hauth in
/-- A token that is taken had been stored, and is younger than its lifetime. -/
theorem token_stored {l₁ l₂} {d : AuthDeed} (hlog : s.log = l₁ ++ d :: l₂)
    {hash : Digest} {token : RefreshToken}
    (hhits : HitsToken auth.refresh.ttl d.req d.reply hash token) :
    ∃ d₀ ∈ l₁, ∃ token₀, StoresToken d₀.req d₀.reply hash token₀ ∧
      token.identity = token₀.identity ∧ IsBirth token₀.issuedAt token.issuedAt ∧
      d.stamp.wall < token.issuedAt + nanos auth.refresh.ttl.toNat := by
  obtain ⟨⟨task, before, req⟩, stamp, reply⟩ := d
  cases hhits with
  | row =>
    obtain ⟨d₀, hd₀, row, hstores, rfl, rfl, hlive⟩ := taken_stored hrun hlog .mk
    obtain ⟨e, -, -, hissues⟩ := (sound_of_run hrun).log d₀ (by
      rw [hlog]
      exact List.mem_append_left _ hd₀)
    rw [hstores.req_eq] at hissues
    obtain ⟨p⟩ := issues_upsert hissues
    have hlifetime := p.lifetime
    rw [Option.some.inj (p.configured.symm.trans hauth)] at hlifetime
    refine ⟨d₀, hd₀, row.token, .of_row hstores, rfl, .inr rfl, ?_⟩
    have hlt : stamp.wall < timestamptz row.expiresAt := by
      refine lt_of_timestamptz_lt ?_
      rw [timestamptz_timestamptz]
      exact hlive
    exact lt_of_lt_of_le hlt (timestamptz_deadline_le hlifetime)
  | entry =>
    obtain ⟨e, htakes, d₀, hd₀, hputs⟩ :=
      entries_passage.shown_of_log (by rintro e ⟨⟩) hrun hlog ⟨_, _, _, rfl⟩
    cases htakes with
    | mk hlive =>
      exact ⟨d₀, hd₀, token, .of_entry hputs, rfl, .inl rfl, not_chainExpired hlive⟩

theorem redemption_login {d : AuthDeed} (hd : d ∈ s.log) {hash : Digest} {entry : AuthCode}
    (hmem : ⟨.codeTake hash, some entry⟩ ∈ d.before) :
    ∃ t a v, s.Executed d.task t (.codeTake hash) (some entry) ∧
      Nonempty (Login app s hash entry a v) := by
  obtain ⟨t, es, htake⟩ := executed_of_before hrun hd hmem (by rintro ⟨⟩)
  obtain ⟨a, v, login, -⟩ := exists_login hrun htake .mk
  exact ⟨t, a, v, ⟨es, htake⟩, ⟨login⟩⟩

include hauth in
theorem token_rooted {d : AuthDeed} (hd : d ∈ s.log) {hash : Digest} {token : RefreshToken}
    (hstores : StoresToken d.req d.reply hash token) :
    ∃ v r first b, Begins app s v r token.identity first b ∧
      Descends auth.refresh.ttl s.log first hash ∧ IsBirth b token.issuedAt := by
  obtain ⟨l₁, l₂, hlog⟩ := List.append_of_mem hd
  induction hn : l₁.length using Nat.strong_induction_on generalizing d hash token l₁ l₂ with
  | _ n ih =>
    obtain ⟨e, he, -, hissues⟩ := (sound_of_run hrun).log d hd
    obtain ⟨p⟩ := issues_storesToken hissues hstores
    have hsame : p.auth = auth := Option.some.inj (p.configured.symm.trans hauth)
    rcases p.got.hits with ⟨codeHash, entry, hmem, hidentity, hbirth⟩ |
      ⟨r, x, hash₀, token₀, hmem, hhits, hidentity, hbirth⟩
    · -- the chain begins here: the birth is read from the clock
      obtain ⟨t, a, v, htake, hlogin⟩ := redemption_login hrun hd (p.mem_grant hmem)
      have hclock : ⟨.utcNow, token.issuedAt⟩ ∈ d.before := by
        rcases p.born with ⟨hborn, -⟩ | ⟨-, hborn⟩
        · rw [hbirth] at hborn
          cases hborn
        · rw [p.trail, hborn]
          simp
      refine ⟨v, d.task, hash, token.issuedAt, ⟨?_, ?_, d, hd, rfl, hstores⟩, .refl, .inl rfl⟩
      · exact ⟨p.form, codeHash, entry, t, a, by rw [he]; exact congrArg some p.call, htake,
          hidentity, hlogin⟩
      · exact executed_of_before hrun hd hclock (by rintro ⟨⟩)
    · -- the token replaces one that was stored before
      rw [hsame] at hhits
      have hissued : token.issuedAt = token₀.issuedAt := by
        rcases p.born with ⟨hborn, -⟩ | ⟨hborn, -⟩
        · rw [hbirth] at hborn
          exact (Option.some.inj hborn).symm
        · rw [hbirth] at hborn
          cases hborn
      obtain ⟨es, t, htake, -⟩ := ((sound_of_run hrun).seenBefore _ _ _ hlog).deed
        (p.mem_grant hmem) hhits.not_failure
      obtain ⟨l₃, l₄, rfl⟩ := List.append_of_mem htake
      rw [List.append_assoc, List.cons_append] at hlog
      obtain ⟨d₁, hd₁, token₁, hstores₁, hidentity₁, hbirth₁, -⟩ :=
        token_stored hauth hrun hlog hhits
      obtain ⟨l₅, l₆, rfl⟩ := List.append_of_mem hd₁
      have hlt : l₅.length < n := by
        rw [← hn]
        simp only [List.length_append, List.length_cons]
        omega
      rw [List.append_assoc, List.cons_append] at hlog
      obtain ⟨v, c, first, b, hbegins, hdescends, hbirth₀⟩ :=
        ih _ hlt (by rw [hlog]; simp) hstores₁ l₅ _ hlog rfl
      refine ⟨v, c, first, b, ?_, hdescends.tail ⟨d, hd, token₀, token, hstores, _,
        p.mem_grant hmem, hhits⟩, ?_⟩
      · rwa [← hidentity, hidentity₁]
      · rw [hissued]
        exact hbirth₀.trans hbirth₁

end
/-! ## The bound -/

/-- The header that `bearer_auth` reads, on the routes behind it. -/
def HttpCall.authorization : HttpCall → Option (Option String)
  | .logout authorization | .mcp authorization | .admin authorization _ => some authorization
  | _ => none

/-- In call `k`, `bearer_auth` accepts the JWT of a session at `t`. -/
def Accepted (app : AppState) (s : AuthPool HttpCall Response) (k : ℕ) (t : ℤ)
    (identity : Identity) : Prop :=
  ∃ e authorization arrived token claims es, s.entries[k]? = some e ∧
    e.call.authorization = some authorization ∧
    (⟨.utcNow, arrived⟩ :: ⟨.jwtVerify token, some claims⟩ :: ⟨.utcNow, t⟩ :: es) <+: e.trail ∧
    Yields (bearerAuth app authorization)
      (⟨.utcNow, arrived⟩ :: ⟨.jwtVerify token, some claims⟩ :: ⟨.utcNow, t⟩ :: es) (.ok identity)

/-- The login of the callback `v` is the origin of the session that call `j` creates at `c`. The
    last index is the time from which `require_admin_group` counts. -/
inductive Source (app : AppState) (auth : AuthFacade) (s : AuthPool HttpCall Response) (v j : ℕ)
    (identity : GrantIdentity) (c : ℤ) : ℤ → Prop
  /-- It is created by the callback itself. -/
  | callback : v = j → Source app auth s v j identity c c
  /-- It is created by the redemption of the code. -/
  | code {t hash} {entry : AuthCode} {a} :
      s.Executed j t (.codeTake hash) (some entry) → entry.identity = identity →
      Nonempty (Login app s hash entry a v) → Source app auth s v j identity c c
  /-- It is created by a refresh, on the chain that the redemption of the code began at `b`. -/
  | refresh {d : AuthDeed} {hash first token r b} :
      d ∈ s.log → d.task = j → HitsToken auth.refresh.ttl d.req d.reply hash token →
      Begins app s v r identity first b → Descends auth.refresh.ttl s.log first hash →
      d.stamp.wall < b + nanos auth.refresh.ttl.toNat → Source app auth s v j identity c b

/-- The groups that call `k` presents at `t` are those of the login `v`, in a session that call
    `j` created at `c`; `i` is the time from which `require_admin_group` counts. -/
structure GroupsBounded (app : AppState) (auth : AuthFacade) (s : AuthPool HttpCall Response)
    (k : ℕ) (t : ℤ) (identity : Identity) (v j : ℕ) (c i : ℤ) : Prop where
  verified : ∃ t code nonce verifier, s.Executed v t (.exchangeAndVerify code nonce verifier)
    (.ok ⟨identity.userSub, identity.userEmail, identity.groups⟩)
  creates : ∃ row es t, row.id = identity.sessionId ∧
    (⟨⟨j, es ++ [⟨.newSessionId, row.id⟩, ⟨.utcNow, c⟩], .insertSession row⟩, t, .ok ()⟩ : AuthDeed)
      ∈ s.log
  after : c ≤ t
  lives : t < c + nanos auth.config.sessionTtl.toNat
  source : Source app auth s v j ⟨identity.userSub, identity.userEmail, identity.groups⟩ c i
  /-- `require_admin_group` lets the request through at `t'`. -/
  admin : ∀ authorization requestId trail actor maxAge,
    s.entries[k]? = some ⟨.admin authorization requestId, trail, .returned (.admin actor)⟩ →
    app.admin.maxSessionAge = some maxAge →
    ∃ es t', trail = es ++ [⟨.utcNow, t'⟩] ∧ t' - i ≤ nanos maxAge.toNat

/-- The end of a session, as the row has it, is not beyond its lifetime. -/
theorem deadline_le {t u : ℤ} {ttl : Seconds} (h : deadline t ttl (nanos (8 * 3600)) = some u) :
    u ≤ t + nanos ttl.toNat := by
  have hu := deadline_eq_some h
  cases hstd : fromStd ttl with
  | some d =>
    rw [hstd, Option.getD_some, fromStd_eq_some hstd] at hu
    exact hu.le
  | none =>
    have hlong := maxDelta_lt_of_fromStd_none hstd
    rw [hstd, Option.getD_none] at hu
    unfold maxDelta at hlong
    unfold nanos at *
    omega

theorem Created.issuedAt {auth identity} {birth : Option ℤ} {now : ℤ}
    {session : Session} (h : Created auth identity birth now session) :
    session.issuedAt = birth.getD now := by
  obtain ⟨expiresAt, -, hsession⟩ := h
  rw [hsession]

theorem Created.expiresAt_le {auth : AuthFacade} {identity birth}
    {now : ℤ} {session : Session} (h : Created auth identity birth now session) :
    session.expiresAt ≤ now + nanos auth.config.sessionTtl.toNat := by
  obtain ⟨expiresAt, hdeadline, hsession⟩ := h
  rw [hsession]
  exact deadline_le hdeadline

/-- Who passes `require_admin_group` is not older than its limit. -/
theorem yields_requireAdminGroup_admin {maxAge : Seconds} {identity : Identity}
    {requestId es actor}
    (hmax : app.admin.maxSessionAge = some maxAge)
    (h : Yields (requireAdminGroup app requestId identity) es (.admin actor)) :
    ∃ es₀ t, es = es₀ ++ [⟨.utcNow, t⟩] ∧ t - identity.issuedAt ≤ nanos maxAge.toNat := by
  simp [requireAdminGroup, hmax] at h
  obtain ⟨es₀, id, t, rfl, -, -, ⟨-, hage⟩, -⟩ := h
  exact ⟨es₀, t, rfl, by omega⟩

section

variable {auth : AuthFacade} {wall : ℤ} {as : List (Act HttpCall Choice)}
  (hauth : app.auth = some auth)
  (hrun : run (gateway app cfg).step (start (.init wall)) as = some s)

include hauth hrun

theorem insert_source {d : AuthDeed} (hd : d ∈ s.log) {c : HttpCall} {row : Session}
    (p : SessionPath app c d.before row) :
    ∃ v i, Source app auth s v d.task row.grantee p.now i ∧ row.issuedAt ≤ i ∧
      ∃ t code nonce verifier,
        s.Executed v t (.exchangeAndVerify code nonce verifier) (.ok row.grantee) := by
  have hissued := p.created.issuedAt
  have hgot := p.got
  rw [Option.some.inj (p.configured.symm.trans hauth), ← p.created.grantee] at hgot
  generalize horigin : p.origin = origin at hgot
  generalize hbirth : p.birth = birth at hgot hissued
  have hmem : ∀ e ∈ origin, e ∈ d.before := fun e he => p.mem_origin (horigin ▸ he)
  generalize row.grantee = identity at hgot ⊢
  cases hgot with
  | @login code state flow identity hbridge =>
    obtain ⟨t, hverified⟩ := executed_of_before hrun hd (hmem ⟨.exchangeAndVerify code flow.nonce
      flow.idpVerifier, .ok identity⟩ (by simp)) (by rintro ⟨⟩)
    exact ⟨d.task, p.now, .callback rfl, hissued.le, t, _, _, _, hverified⟩
  | grant hgrants =>
    rcases hgrants.hits with ⟨hash, entry, htook, rfl, rfl⟩ |
      ⟨r, x, hash, token, htook, hhits, rfl, rfl⟩
    · obtain ⟨t, a, v, htake, ⟨login⟩⟩ := redemption_login hrun hd (hmem _ htook)
      obtain ⟨t', hverified⟩ := login.verifies
      exact ⟨v, p.now, .code htake rfl ⟨login⟩, hissued.le, t', _, _, _, hverified⟩
    · obtain ⟨t, es, htake⟩ := executed_of_before hrun hd (hmem _ htook) hhits.not_failure
      obtain ⟨l₁, l₂, hlog⟩ := List.append_of_mem htake
      obtain ⟨d₀, hd₀, token₀, hstores, hidentity, hbirth, hlive⟩ :=
        token_stored hauth hrun hlog hhits
      obtain ⟨v, r, first, b, hbegins, hdescends, hroot⟩ := token_rooted hauth hrun
        (by rw [hlog]; exact List.mem_append_left _ hd₀) hstores
      rw [← hidentity] at hbegins
      have hle := (hroot.trans hbirth).le
      obtain ⟨_, _, entry, _, a, -, -, hentry, ⟨login⟩⟩ := hbegins.redeems
      obtain ⟨t', hverified⟩ := login.verifies
      rw [hentry] at hverified
      refine ⟨v, b, .refresh htake rfl hhits hbegins hdescends ?_, hissued.le.trans hle, t', _, _, _,
        hverified⟩
      exact lt_of_lt_of_le hlive (by omega)

/-- **Staleness of groups is bounded**, for cached sessions as for those read anew. -/
theorem groups_bounded
    (hforward : Meets (gateway app cfg).step (fun s a => forward s a = true) (start (.init wall)) as)
    {k : ℕ} {t : ℤ} {identity : Identity} (h : Accepted app s k t identity) :
    ∃ v j c i, GroupsBounded app auth s k t identity v j c i := by
  have hsound := sound_of_run hrun
  obtain ⟨e, authorization, arrived, token, claims, es, he, hcall, htrail, hyields⟩ := h
  obtain ⟨auth', hauth', haccepts⟩ := yields_bearerAuth hyields
  cases haccepts with
  | @session _ _ _ _ _ session _ _ hfinds =>
    -- the session that the lookup finds was inserted by call `d.task`
    obtain ⟨hactive, d, hd, row, hputs, hid, hcopies⟩ := hfinds.inserted hrun he
      (List.Subset.trans (fun x hx => by simp [hx]) htrail.subset)
    obtain ⟨e', he', ⟨p⟩⟩ := insert_path hrun hd hputs
    obtain ⟨v, i, hsource, hissued, hverified⟩ := insert_source hauth hrun hd p
    have hgrantee : row.grantee = ⟨session.identity.userSub, session.identity.userEmail,
      session.identity.groups⟩ := hcopies.grantee_eq.symm
    rw [hgrantee] at hsource hverified
    refine ⟨v, d.task, p.now, i, hverified, ?_, ?_, ?_, hsource, ?_⟩
    · refine ⟨row, p.origin, d.stamp, hcopies.id_eq.symm, ?_⟩
      have htrail := p.trail
      obtain ⟨⟨task, before, req⟩, stamp, reply⟩ := d
      cases hputs
      rwa [← htrail]
    · -- the insertion precedes the verification of the JWT, and that the reading of `t`
      obtain hfail | ⟨stamp, hreading⟩ := hsound.seen k e he
        [⟨.utcNow, arrived⟩, ⟨.jwtVerify token, some claims⟩] .utcNow t
        (List.IsPrefix.trans (by simp) htrail)
      · cases hfail
      obtain ⟨l₁, l₂, hlog⟩ := List.append_of_mem hreading
      obtain ⟨es₁, t₁, hverify, -⟩ := (hsound.seenBefore _ _ _ hlog).deed
        (r := .jwtVerify token) (x := some claims) (by simp) (by rintro ⟨⟩)
      obtain ⟨l₃, l₄, rfl⟩ := List.append_of_mem hverify
      have hcut := hlog.trans (List.append_assoc _ _ _)
      obtain ⟨d', hd', row', hputs', hid'⟩ := jwt_inserted hrun hcut
      have hsame : d = d' := inserts_unique hrun hd (by rw [hlog]; simp [hd']) hputs hputs'
        (hid.trans hid'.symm)
      subst hsame
      obtain ⟨l₅, l₆, rfl⟩ := List.append_of_mem hd'
      have hinsert := hlog
      rw [List.append_assoc, List.append_assoc, List.cons_append] at hinsert
      obtain ⟨es₂, t₂, hclock, -⟩ := (hsound.seenBefore _ _ _ hinsert).deed p.readClock
        (by rintro ⟨⟩)
      exact (Ordered.run hforward hrun).reading_le hlog
        (List.mem_append_left _ (List.mem_append_left _ hclock))
    · have hexpires := p.created.expiresAt_le
      rw [Option.some.inj (p.configured.symm.trans hauth)] at hexpires
      have hlt := (Session.isActive_iff.mp hactive).2
      exact lt_of_lt_of_le hlt (hcopies.expiresAt_le.trans hexpires)
    · intro authorization' requestId trail actor maxAge he' hmax
      cases he.symm.trans he'
      cases hcall
      rcases yields_okOr.mp (hsound.yields he') with ⟨response, hrefused, heq⟩ |
        ⟨es₁, identity, es₂, rfl, hbearer, hgate⟩
      · have hok := hyields.unique hrefused htrail List.prefix_rfl
        cases hok
      · have hok := hyields.unique hbearer htrail (List.prefix_append _ _)
        cases hok
        obtain ⟨es₃, t', rfl, hage⟩ := yields_requireAdminGroup_admin hmax hgate
        have hle := hcopies.issuedAt_le.trans hissued
        have hbirth : session.identity.issuedAt = session.issuedAt := rfl
        exact ⟨es₁ ++ es₃, t', (List.append_assoc _ _ _).symm, by omega⟩

end

/-- What passes `require_admin_group` without service tokens was accepted with a JWT. -/
theorem accepted_of_admin {auth : AuthFacade} {wall : ℤ} {as}
    (hauth : app.auth = some auth) (htokens : auth.serviceTokens = [])
    (hrun : run (gateway app cfg).step (start (.init wall)) as = some s) {k : ℕ}
    {authorization requestId} {actor : Admin.AdminActor}
    (h : s.answer k = some (.admin authorization requestId, .admin actor)) :
    ∃ t identity, Accepted app s k t identity ∧ identity.groups = actor.groups := by
  obtain ⟨trail, he⟩ := answer_eq_some.mp h
  rcases yields_okOr.mp ((sound_of_run hrun).yields he) with ⟨response, hrefused, heq⟩ |
    ⟨es₁, identity, es₂, rfl, hbearer, hgate⟩
  · obtain rfl : .admin actor = response := heq
    simp [bearerAuth, resolveIdentity] at hrefused
  · have hgroups : actor.groups = identity.groups := by
      simp [requireAdminGroup] at hgate
      grind
    obtain ⟨auth', hauth', haccepts⟩ := yields_bearerAuth hbearer
    cases haccepts with
    | service _ hservice =>
      rw [Option.some.inj (hauth'.symm.trans hauth), htokens] at hservice
      cases hservice
    | session htoken hnone hfinds =>
      exact ⟨_, _, ⟨_, _, _, _, _, _, he, rfl, List.prefix_append _ _, hbearer⟩, hgroups.symm⟩

/-- Alice logs in, refreshes, and uses her new session (call 4) at 5. -/
def aliceAdmin : List (Act HttpCall Choice) :=
  aliceRefresh ++ [.env (.clock 5 0), .arrive (.admin (some "Bearer k") none)] ++ goes 4 4 ++
    [.serve 4 (.draw "id"), .serve 4 .go]

theorem groups_bounded_alice : ∃ s,
    run (gateway demo .default).step (start (.init 0)) aliceAdmin = some s ∧
    ∃ t identity v j c i, identity.groups = ["eng", "admins"] ∧
      GroupsBounded demo ⟨⟨3600⟩, ⟨.db, 86400⟩, []⟩ s 4 t identity v j c i := by
  have hanswer : (run (gateway demo .default).step (start (.init 0)) aliceAdmin).map
      (fun s => s.answer 4) = some (some (.admin (some "Bearer k") none,
        .admin ⟨"alice", "alice@corp", ["eng", "admins"], "id"⟩)) := by
    decide +kernel
  have hforward : checks (gateway demo .default).step forward (start (.init 0)) aliceAdmin =
      true := by
    decide +kernel
  obtain ⟨s, hrun, hs⟩ := Option.map_eq_some_iff.mp hanswer
  obtain ⟨t, identity, haccepted, hgroups⟩ := accepted_of_admin rfl rfl hrun hs
  obtain ⟨v, j, c, i, hbounded⟩ := groups_bounded rfl hrun (meets_of_checks hforward)
    haccepted
  exact ⟨s, hrun, t, identity, v, j, c, i, hgroups, hbounded⟩

end DbMcpGateway.Oauth
