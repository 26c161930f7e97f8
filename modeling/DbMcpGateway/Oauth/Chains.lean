import DbMcpGateway.Oauth.Codes

/-!
# Refresh chains

A code redemption stores the first token of a chain; a refresh takes the token of a chain and
stores the next one. Both happen in several steps, and any number of other requests lie
between them.

Results:

* `stores_unique`, `takes_unique`: a token is stored once and taken once.
* `rotates_rightUnique`: a chain does not branch.
* `chain_kin`: the tokens of a chain have the identity and the birth of the first.
* `refresh_chains`: chains are linear and never slide.
-/

namespace DbMcpGateway.Oauth

open Async Async.Prog Async.Service Machine

/-- The token `h'` was stored by a call that had taken `h`. -/
def Rotates (log : List AuthDeed) (h h' : Digest) : Prop :=
  ∃ d ∈ log, ∃ row token, PutsRow d.req d.reply row ∧ row.tokenHash = h' ∧
    ⟨.refreshTake h, .ok (some token)⟩ ∈ d.before

/-- The token `h` descends from `h₀`. -/
def Chain (log : List AuthDeed) : Digest → Digest → Prop := Relation.ReflTransGen (Rotates log)

/-- The rows have the same identity and the same birth. -/
def Kin (row row' : RefreshRow) : Prop :=
  row'.identity = row.identity ∧ row'.stored.chainIssuedAt = row.stored.chainIssuedAt

theorem Rotates.mono {log log'} (h : log ⊆ log') {h₁ h₂ : Digest}
    (hrotates : Rotates log h₁ h₂) : Rotates log' h₁ h₂ := by
  obtain ⟨d, hd, hrest⟩ := hrotates
  exact ⟨d, h hd, hrest⟩

theorem Chain.mono {log log'} (h : log ⊆ log') {h₁ h₂ : Digest}
    (hchain : Chain log h₁ h₂) : Chain log' h₁ h₂ :=
  Relation.ReflTransGen.mono (fun _ _ hrotates => Rotates.mono h hrotates) _ _ hchain

/-- The code redemption that began a chain. -/
structure Root (log : List AuthDeed) (root : AuthDeed) (first : RefreshRow) (hash : Digest)
    (entry : AuthCode) : Prop where
  mem : root ∈ log
  stores : PutsRow root.req root.reply first
  redeems : ⟨.codeTake hash, some entry⟩ ∈ root.before

variable {app : AppState} {cfg : SessionCacheConfig} {s : AuthPool HttpCall Response}

/-! ## Storing -/

section

variable {c : HttpCall} {es : AuthTrail} {r : AuthReq} {x : AuthResp r} {hash : Digest}
  {token : RefreshToken}

theorem issues_storesToken (h : Issues (c.code app) es r) (hstores : StoresToken r x hash token) :
    Nonempty (StorePath app c es hash token) := by
  cases hstores with
  | row =>
    obtain ⟨p⟩ := issues_upsert h
    exact ⟨p.toStorePath⟩
  | entry => exact issues_memoryStore h

theorem StoresToken.kind_mem (h : StoresToken r x hash token) : r.kind ∈ storeKinds := by
  cases h <;> simp [storeKinds]

theorem store_singular : (gateway app cfg).Singular fun r => r.kind ∈ storeKinds := by
  intro c es r hissues hkind
  cases r with
  | refreshUpsert row =>
    obtain ⟨p⟩ := issues_upsert hissues
    exact p.not_store
  | memoryStore hash token =>
    obtain ⟨p⟩ := issues_memoryStore hissues
    exact p.not_store
  | _ => simp [storeKinds] at hkind

end

section

variable {wall : ℤ} {as : List (Act HttpCall Choice)}
  (hsha : Function.Injective app.crates.sha256)
  (hrun : run (gateway app cfg).step (start (.init wall)) as = some s)

include hsha hrun

theorem tokens_unique {d d' : AuthDeed} {hash : Digest} {token token'}
    (hd : d ∈ s.log) (hd' : d' ∈ s.log) (hstores : StoresToken d.req d.reply hash token)
    (hstores' : StoresToken d'.req d'.reply hash token') : d = d' := by
  have hsound := sound_of_run hrun
  have hdraw : ∀ {d : AuthDeed} {token}, d ∈ s.log → StoresToken d.req d.reply hash token →
      ∃ refresh es t, hash = hashSecret app.crates.sha256 refresh ∧
        (⟨⟨d.task, es, .randomToken⟩, t, refresh⟩ : AuthDeed) ∈ s.log := by
    intro d token hd hstores
    obtain ⟨e, -, -, hissues⟩ := hsound.log d hd
    obtain ⟨p⟩ := issues_storesToken hissues hstores
    obtain ⟨es, t, hmem, -⟩ := (hsound.seen_of_issued (hsound.log d hd)).deed p.drawn (by rintro ⟨⟩)
    exact ⟨p.refresh, es, t, p.hash, hmem⟩
  obtain ⟨refresh, es, t, hrefresh, hmem⟩ := hdraw hd hstores
  obtain ⟨refresh', es', t', hrefresh', hmem'⟩ := hdraw hd' hstores'
  cases hashSecret_injective hsha (hrefresh.symm.trans hrefresh')
  have hdeed := (texts_fresh.drawn hrun).unique hmem hmem' .token .token
  have htask : d.task = d'.task := by injection hdeed with hsent; injection hsent
  have hbefore := store_singular.before_eq (hsound.log d hd) (hsound.log d' hd') hstores.kind_mem
    hstores'.kind_mem htask
  exact hsound.eq_of_key hd hd' (by rw [Sent.key, Sent.key, htask, hbefore])

theorem stores_unique {d d' : AuthDeed} {row row' : RefreshRow} (hd : d ∈ s.log) (hd' : d' ∈ s.log)
    (hstores : PutsRow d.req d.reply row) (hstores' : PutsRow d'.req d'.reply row')
    (hhash : row.tokenHash = row'.tokenHash) : d = d' := by
  have htoken := StoresToken.of_row hstores'
  rw [← hhash] at htoken
  exact tokens_unique hsha hrun hd hd' (.of_row hstores) htoken

variable {d : AuthDeed} {row : RefreshRow} {hash : Digest} {token : RefreshToken}
  {l₁ l₂ : List AuthDeed}

theorem stores_row_eq {d' : AuthDeed} {row' : RefreshRow} (hd : d ∈ s.log) (hd' : d' ∈ s.log)
    (hstores : PutsRow d.req d.reply row) (hstores' : PutsRow d'.req d'.reply row')
    (hhash : row.tokenHash = row'.tokenHash) : row = row' := by
  cases stores_unique hsha hrun hd hd' hstores hstores' hhash
  have hreq := hstores.req_eq.symm.trans hstores'.req_eq
  cases hreq
  rfl

/-! ## Taking -/

theorem stores_once : ∀ d ∈ s.log, ∀ d' ∈ s.log,
    (∃ row, PutsRow d.req d.reply row ∧ row.tokenHash = hash) →
    (∃ row, PutsRow d'.req d'.reply row ∧ row.tokenHash = hash) → d = d' := by
  rintro d hd d' hd' ⟨row, hstores, rfl⟩ ⟨row', hstores', hhash⟩
  exact stores_unique hsha hrun hd hd' hstores hstores' hhash.symm

/-- A token is taken once. -/
theorem takes_unique {d' : AuthDeed} {token'} (hd : d ∈ s.log) (hd' : d' ∈ s.log)
    (htakes : HitsRow d.req d.reply hash token) (htakes' : HitsRow d'.req d'.reply hash token') :
    d = d' := by
  refine rows_slots.take_unique ?_ hrun (stores_once hsha hrun) hd hd' ⟨token, htakes⟩
    ⟨token', htakes'⟩
  rintro ⟨row, ⟨⟩, -⟩

/-- A token that is stored has not been taken. -/
theorem not_taken (hrow : row ∈ s.shared.refresh.rows) (hd : d ∈ s.log) :
    ¬ HitsRow d.req d.reply row.tokenHash token := by
  intro htakes
  refine rows_slots.not_taken ?_ hrun (stores_once hsha hrun) ⟨row, hrow, rfl⟩ hd ⟨token, htakes⟩
  rintro ⟨row, ⟨⟩, -⟩

omit hsha in
theorem taken_stored (hlog : s.log = l₁ ++ d :: l₂) (htakes : HitsRow d.req d.reply hash token) :
    ∃ d₀ ∈ l₁, ∃ row, PutsRow d₀.req d₀.reply row ∧ row.tokenHash = hash ∧
      row.stored.token = token ∧ timestamptz d.stamp.wall < row.stored.expiresAt := by
  obtain ⟨_, htaken, d₀, hd₀, row, hstores, rfl⟩ :=
    rows_passage.shown_of_log (by rintro row ⟨⟩) hrun hlog ⟨hash, token, htakes⟩
  obtain ⟨hhash, htoken, hlive⟩ := htaken.of_hits htakes
  exact ⟨d₀, hd₀, row, hstores, hhash, htoken, hlive⟩

/-! ## Rotating -/

omit hsha in
theorem take_of_before (hlog : s.log = l₁ ++ d :: l₂)
    (hmem : ⟨.refreshTake hash, .ok (some token)⟩ ∈ d.before) :
    ∃ l₃ d₀ l₄, l₁ = l₃ ++ d₀ :: l₄ ∧ d₀.task = d.task ∧ HitsRow d₀.req d₀.reply hash token := by
  have hseen := (sound_of_run hrun).seenBefore l₁ d l₂ hlog
  obtain ⟨es, t, hd₀, -⟩ := hseen.deed hmem (by rintro ⟨⟩)
  obtain ⟨l₃, l₄, hl₁⟩ := List.append_of_mem hd₀
  exact ⟨l₃, _, l₄, hl₁, rfl, .mk⟩

omit hsha in
theorem rotates_kin (hlog : s.log = l₁ ++ d :: l₂) (hstores : PutsRow d.req d.reply row)
    (hmem : ⟨.refreshTake hash, .ok (some token)⟩ ∈ d.before) :
    ∃ d₀ ∈ l₁, ∃ row₀, PutsRow d₀.req d₀.reply row₀ ∧ row₀.tokenHash = hash ∧ Kin row₀ row := by
  obtain ⟨l₃, d₁, l₄, rfl, -, htakes⟩ := take_of_before hrun hlog hmem
  rw [List.append_assoc, List.cons_append] at hlog
  obtain ⟨d₀, hd₀, row₀, hstores₀, hhash, htoken, -⟩ := taken_stored hrun hlog htakes
  obtain ⟨e, -, -, hissues⟩ := (sound_of_run hrun).log d (by rw [hlog]; simp)
  rw [hstores.req_eq] at hissues
  obtain ⟨p⟩ := issues_upsert hissues
  obtain ⟨hidentity, hbirth, -⟩ := p.of_take hmem
  refine ⟨d₀, List.mem_append_left _ hd₀, row₀, hstores₀, hhash, ?_, ?_⟩
  · rw [hidentity, ← htoken]
    rfl
  · rw [RefreshRow.stored, hbirth, ← htoken]
    exact timestamptz_timestamptz _

theorem rotates_rightUnique : Relator.RightUnique (Rotates s.log) := by
  rintro h h₁ h₂ ⟨d₁, hd₁, row₁, token₁, hstores₁, rfl, hmem₁⟩
    ⟨d₂, hd₂, row₂, token₂, hstores₂, rfl, hmem₂⟩
  have hsound := sound_of_run hrun
  -- both calls took the token, so they are one call, and it stored one token
  have htake : ∀ {d : AuthDeed} {token}, d ∈ s.log →
      ⟨.refreshTake h, .ok (some token)⟩ ∈ d.before →
      ∃ d₀ ∈ s.log, d₀.task = d.task ∧ HitsRow d₀.req d₀.reply h token := by
    intro d token hd hmem
    obtain ⟨l₁, l₂, hlog⟩ := List.append_of_mem hd
    obtain ⟨l₃, d₀, l₄, rfl, htask, htakes⟩ := take_of_before hrun hlog hmem
    exact ⟨d₀, by rw [hlog]; simp, htask, htakes⟩
  obtain ⟨t₁, ht₁, htask₁, htakes₁⟩ := htake hd₁ hmem₁
  obtain ⟨t₂, ht₂, htask₂, htakes₂⟩ := htake hd₂ hmem₂
  have hsame := takes_unique hsha hrun ht₁ ht₂ htakes₁ htakes₂
  have htask : d₁.task = d₂.task := by rw [← htask₁, ← htask₂, hsame]
  have hbefore := store_singular.before_eq (hsound.log d₁ hd₁) (hsound.log d₂ hd₂)
    (StoresToken.of_row hstores₁).kind_mem (StoresToken.of_row hstores₂).kind_mem htask
  have hdeed : d₁ = d₂ := hsound.eq_of_key hd₁ hd₂ (by rw [Sent.key, Sent.key, htask, hbefore])
  subst hdeed
  cases hstores₁.req_eq.symm.trans hstores₂.req_eq
  rfl

theorem chain_last (hrow : row ∈ s.shared.refresh.rows) {h : Digest}
    (hchain : Chain s.log row.tokenHash h) : row.tokenHash = h := by
  rcases Relation.ReflTransGen.cases_head hchain with heq | ⟨h', ⟨d, hd, _, token, -, -, hmem⟩, -⟩
  · exact heq
  · obtain ⟨l₁, l₂, hlog⟩ := List.append_of_mem hd
    obtain ⟨l₃, d₀, l₄, rfl, -, htakes⟩ := take_of_before hrun hlog hmem
    exact absurd htakes (not_taken hsha hrun hrow (by rw [hlog]; simp))

theorem chain_single {h₀ : Digest} {row₁ row₂ : RefreshRow} (hrow₁ : row₁ ∈ s.shared.refresh.rows)
    (hrow₂ : row₂ ∈ s.shared.refresh.rows) (hchain₁ : Chain s.log h₀ row₁.tokenHash)
    (hchain₂ : Chain s.log h₀ row₂.tokenHash) : row₁.tokenHash = row₂.tokenHash := by
  rcases Relation.ReflTransGen.total_of_right_unique (rotates_rightUnique hsha hrun) hchain₁ hchain₂
    with hchain | hchain
  · exact chain_last hsha hrun hrow₁ hchain
  · exact (chain_last hsha hrun hrow₂ hchain).symm

theorem chain_kin {d₀ : AuthDeed} {row₀ : RefreshRow} (hd₀ : d₀ ∈ s.log) (hd : d ∈ s.log)
    (hstores₀ : PutsRow d₀.req d₀.reply row₀) (hstores : PutsRow d.req d.reply row)
    (hchain : Chain s.log row₀.tokenHash row.tokenHash) : Kin row₀ row := by
  generalize hhash : row.tokenHash = h at hchain
  induction hchain generalizing d row with
  | refl =>
    rw [stores_row_eq hsha hrun hd hd₀ hstores hstores₀ hhash]
    exact ⟨rfl, rfl⟩
  | tail _ hrotates ih =>
    obtain ⟨d', hd', row', token, hstores', rfl, hmem⟩ := hrotates
    cases stores_unique hsha hrun hd hd' hstores hstores' hhash
    cases stores_row_eq hsha hrun hd hd' hstores hstores' hhash
    obtain ⟨l₁, l₂, hlog⟩ := List.append_of_mem hd
    obtain ⟨d₁, hd₁, row₁, hstores₁, hhash₁, hkin⟩ := rotates_kin hrun hlog hstores hmem
    have hkin₁ := ih (by rw [hlog]; exact List.mem_append_left _ hd₁) hstores₁ hhash₁
    exact ⟨hkin.1.trans hkin₁.1, hkin.2.trans hkin₁.2⟩

omit hsha in
theorem chain_rooted (hd : d ∈ s.log) (hstores : PutsRow d.req d.reply row) :
    ∃ root first hash entry,
      Root s.log root first hash entry ∧ Chain s.log first.tokenHash row.tokenHash := by
  obtain ⟨l₁, l₂, hlog⟩ := List.append_of_mem hd
  induction hn : l₁.length using Nat.strong_induction_on generalizing d row l₁ l₂ with
  | _ n ih =>
    obtain ⟨e, -, -, hissues⟩ := (sound_of_run hrun).log d hd
    rw [hstores.req_eq] at hissues
    obtain ⟨p⟩ := issues_upsert hissues
    rcases p.grant_cases with ⟨hash, entry, hmem⟩ | ⟨hash, token, hmem⟩
    · exact ⟨d, row, hash, entry, ⟨hd, hstores, hmem⟩, .refl⟩
    · obtain ⟨d₀, hd₀, row₀, hstores₀, rfl, -⟩ := rotates_kin hrun hlog hstores hmem
      obtain ⟨l₃, l₄, rfl⟩ := List.append_of_mem hd₀
      have hlt : l₃.length < n := by
        rw [← hn, List.length_append, List.length_cons]
        omega
      rw [List.append_assoc, List.cons_append] at hlog
      obtain ⟨root, first, hash, entry, hroot, hchain⟩ :=
        ih _ hlt (by rw [hlog]; simp) hstores₀ l₃ _ hlog rfl
      exact ⟨root, first, hash, entry, hroot, hchain.tail ⟨d, hd, row, token, hstores, rfl, hmem⟩⟩

end

/-! ## Roots -/

section

variable {wall : ℤ} {as : List (Act HttpCall Choice)}
  (hrun : run (gateway app cfg).step (start (.init wall)) as = some s)

include hrun

theorem upsert_path {d : AuthDeed} (hd : d ∈ s.log) {row}
    (hstores : PutsRow d.req d.reply row) : ∃ c, Nonempty (UpsertPath app c d.before row) := by
  obtain ⟨e, -, -, hissues⟩ := (sound_of_run hrun).log d hd
  rw [hstores.req_eq] at hissues
  exact ⟨e.call, issues_upsert hissues⟩

variable {root : AuthDeed} {first : RefreshRow} {hash h : Digest} {entry : AuthCode}

theorem not_rotates_first (hsha : Function.Injective app.crates.sha256)
    (hroot : Root s.log root first hash entry) :
    ¬ Rotates s.log h first.tokenHash := by
  rintro ⟨d, hd, row, token, hstores, hhash, hmem⟩
  cases stores_unique hsha hrun hd hroot.mem hstores hroot.stores hhash
  obtain ⟨c, ⟨p⟩⟩ := upsert_path hrun hroot.mem hroot.stores
  obtain ⟨-, -, now, hgrant, -⟩ := p.of_take hmem
  rw [p.of_code hroot.redeems] at hgrant
  cases hgrant

/-- A token replaces one token. -/
theorem rotates_leftUnique (hsha : Function.Injective app.crates.sha256) :
    Relator.LeftUnique (Rotates s.log) := by
  rintro h₁ h h₂ ⟨d₁, hd₁, row₁, token₁, hstores₁, rfl, hmem₁⟩
    ⟨d₂, hd₂, row₂, token₂, hstores₂, hhash, hmem₂⟩
  cases stores_unique hsha hrun hd₂ hd₁ hstores₂ hstores₁ hhash
  obtain ⟨c, ⟨p⟩⟩ := upsert_path hrun hd₁ hstores₁
  obtain ⟨-, -, now₁, hgrant₁, -⟩ := p.of_take hmem₁
  obtain ⟨-, -, now₂, hgrant₂, -⟩ := p.of_take hmem₂
  rw [hgrant₁] at hgrant₂
  cases hgrant₂
  rfl

theorem root_unique (hsha : Function.Injective app.crates.sha256) {root' : AuthDeed}
    {first' : RefreshRow} {hash' : Digest} {entry' : AuthCode}
    (hroot : Root s.log root first hash entry) (hroot' : Root s.log root' first' hash' entry')
    (hchain : Chain s.log first.tokenHash h) (hchain' : Chain s.log first'.tokenHash h) :
    root = root' ∧ hash = hash' := by
  have hfirst : ∀ {root first hash entry h}, Root s.log root first hash entry →
      Chain s.log h first.tokenHash → h = first.tokenHash := by
    intro root first hash entry h hroot hchain
    rcases Relation.ReflTransGen.cases_tail hchain with heq | ⟨h', -, hrotates⟩
    · exact heq.symm
    · exact absurd hrotates (not_rotates_first hrun hsha hroot)
  have hback : Relator.RightUnique (Function.swap (Rotates s.log)) :=
    fun _ _ _ h₁ h₂ => rotates_leftUnique hrun hsha h₁ h₂
  have hhash : first.tokenHash = first'.tokenHash := by
    rcases Relation.ReflTransGen.total_of_right_unique hback (Relation.reflTransGen_swap.mpr hchain)
      (Relation.reflTransGen_swap.mpr hchain') with hswap | hswap
    · exact (hfirst hroot (Relation.reflTransGen_swap.mp hswap)).symm
    · exact hfirst hroot' (Relation.reflTransGen_swap.mp hswap)
  cases stores_unique hsha hrun hroot.mem hroot'.mem hroot.stores hroot'.stores hhash
  obtain ⟨c, ⟨p⟩⟩ := upsert_path hrun hroot.mem hroot.stores
  have hgrant := p.of_code hroot.redeems
  rw [p.of_code hroot'.redeems] at hgrant
  cases hgrant
  exact ⟨rfl, rfl⟩

omit hrun in
theorem chain_stored {log} (hroot : Root log root first hash entry)
    (hchain : Chain log first.tokenHash h) :
    ∃ d ∈ log, ∃ row, PutsRow d.req d.reply row ∧ row.tokenHash = h := by
  rcases Relation.ReflTransGen.cases_tail hchain with rfl | ⟨h', -, hrotates⟩
  · exact ⟨root, hroot.mem, first, hroot.stores, rfl⟩
  · obtain ⟨d, hd, row, token, hstores, hhash, -⟩ := hrotates
    exact ⟨d, hd, row, hstores, hhash⟩

omit hrun in
theorem Root.mono {log log'} (h : log ⊆ log') (hroot : Root log root first hash entry) :
    Root log' root first hash entry :=
  ⟨h hroot.mem, hroot.stores, hroot.redeems⟩

end

/-! ## The chains of the gateway -/

/-- Call `i` redeemed a refresh token. -/
def Redeemed (s : AuthPool HttpCall Response) (i : ℕ) (token : String) : Prop :=
  ∃ form access expiresIn refresh, s.answer i = some (.token form, .tokens access expiresIn refresh) ∧
    form.grantType = some "refresh_token" ∧ form.refreshToken = some token

/-- The request was made after its call had redeemed the code of the chain or a token of it. -/
def OnChain (log : List AuthDeed) (first : RefreshRow) (hash : Digest) (d : AuthDeed) : Prop :=
  (∃ entry, ⟨.codeTake hash, some entry⟩ ∈ d.before) ∨
  ∃ h token, Chain log first.tokenHash h ∧ ⟨.refreshTake h, .ok (some token)⟩ ∈ d.before

/-- Refresh chains are linear and never slide. -/
structure RefreshChains (app : AppState) (ttl : Seconds) (s : AuthPool HttpCall Response) : Prop where
  /-- Every token that was stored is on a chain that began with a code. -/
  rooted : ∀ d ∈ s.log, ∀ row, PutsRow d.req d.reply row → ∃ root first hash entry,
    Root s.log root first hash entry ∧ Chain s.log first.tokenHash row.tokenHash
  /-- A token is redeemed at most once. -/
  once : ∀ i j token, Redeemed s i token → Redeemed s j token → i = j
  /-- At most one token of a chain is stored. -/
  single : ∀ h₀, ∀ row ∈ s.shared.refresh.rows, ∀ row' ∈ s.shared.refresh.rows,
    Chain s.log h₀ row.tokenHash → Chain s.log h₀ row'.tokenHash → row = row'
  /-- The chain began with a login, -/
  login : ∀ root first hash entry, Root s.log root first hash entry →
    ∃ a b, Nonempty (Login app s hash entry a b)
  /-- and all sessions and tokens on it are for the identity that was verified then. -/
  identity : ∀ root first hash entry, Root s.log root first hash entry →
    ∀ d ∈ s.log, OnChain s.log first hash d → Carries entry.identity d.req
  /-- All tokens of a chain have the birth of the first. -/
  birth : ∀ root first hash entry, Root s.log root first hash entry →
    ∀ d ∈ s.log, ∀ row, PutsRow d.req d.reply row → Chain s.log first.tokenHash row.tokenHash →
      row.stored.chainIssuedAt = first.stored.chainIssuedAt
  /-- No token of a chain is redeemed at or after the end of the lifetime of the chain. -/
  deadline : ∀ root first hash entry, Root s.log root first hash entry → ∀ i token,
    Redeemed s i token → Chain s.log first.tokenHash (hashSecret app.crates.sha256 token) →
    ∃ t t' found now,
      s.Executed i t (.refreshTake (hashSecret app.crates.sha256 token)) (.ok (some found)) ∧
      t.wall < first.stored.chainIssuedAt + nanos ttl.toNat ∧
      s.Executed i t' .utcNow now ∧ now < first.stored.chainIssuedAt + nanos ttl.toNat

section

variable {auth : AuthFacade} {wall : ℤ} {as : List (Act HttpCall Choice)}
  (hauth : app.auth = some auth) (hdb : auth.refresh.backend = .db)
  (hsha : Function.Injective app.crates.sha256)
  (hrun : run (gateway app cfg).step (start (.init wall)) as = some s)

include hauth hdb hrun in
/-- A redemption took the token, and read the clock after that. -/
theorem redeemed_take {i : ℕ} {token : String} (h : Redeemed s i token) :
    ∃ t t' found now,
      s.Executed i t (.refreshTake (hashSecret app.crates.sha256 token)) (.ok (some found)) ∧
      s.Executed i t' .utcNow now ∧ chainExpired found.issuedAt now auth.refresh.ttl = false := by
  obtain ⟨form, access, expiresIn, refresh, hanswer, hgrant, htoken⟩ := h
  obtain ⟨trail, he⟩ := answer_eq_some.mp hanswer
  obtain ⟨auth', identity, birth, es₁, es₂, hauth', rfl, hgrants, -⟩ :=
    yields_token ((sound_of_run hrun).yields he)
  rw [hauth] at hauth'
  cases hauth'
  cases hgrants with
  | code hgrant' => simp [hgrant] at hgrant'
  | refreshMemory _ _ hmemory => simp [hdb] at hmemory
  | @refresh token' entry now _ htoken' _ hfresh =>
    rw [htoken] at htoken'
    cases htoken'
    obtain ⟨t, htake⟩ := executed_of_trail hrun he
      (r := .refreshTake (hashSecret app.crates.sha256 token)) (x := .ok (some entry)) (by simp)
      (by rintro ⟨⟩)
    obtain ⟨t', hnow⟩ := executed_of_trail hrun he (r := .utcNow) (x := now) (by simp)
      (by rintro ⟨⟩)
    exact ⟨t, t', entry, now, htake, hnow, hfresh⟩

include hrun

variable {root : AuthDeed} {first : RefreshRow} {hash : Digest} {entry : AuthCode}

theorem root_login (hroot : Root s.log root first hash entry) :
    ∃ a b, Nonempty (Login app s hash entry a b) := by
  obtain ⟨t, es, htake⟩ := executed_of_before hrun hroot.mem hroot.redeems (by rintro ⟨⟩)
  obtain ⟨a, b, login, -⟩ := exists_login hrun htake .mk
  exact ⟨a, b, ⟨login⟩⟩

include hsha

theorem carries_of_onChain {d : AuthDeed} (hroot : Root s.log root first hash entry)
    (hd : d ∈ s.log) (hon : OnChain s.log first hash d) : Carries entry.identity d.req := by
  have hsound := sound_of_run hrun
  obtain ⟨e, -, -, hissues⟩ := hsound.log d hd
  rcases hon with ⟨entry', hmem⟩ | ⟨h, token, hchain, hmem⟩
  · -- the code is taken once
    obtain ⟨t, es, htake⟩ := executed_of_before hrun hroot.mem hroot.redeems (by rintro ⟨⟩)
    obtain ⟨t', es', htake'⟩ := executed_of_before hrun hd hmem (by rintro ⟨⟩)
    have hdeed := codeTakes_unique hrun hsha htake htake' .mk .mk
    injection hdeed with _ _ hreply
    cases hreply
    exact carries_of_code hissues hmem
  · -- the token that was taken is of the family of the first
    obtain ⟨t, es, htake⟩ := executed_of_before hrun hd hmem (by rintro ⟨⟩)
    obtain ⟨l₁, l₂, hlog⟩ := List.append_of_mem htake
    obtain ⟨d₀, hd₀, row, hstores, rfl, htoken, -⟩ := taken_stored hrun hlog .mk
    have hkin := chain_kin hsha hrun hroot.mem (by rw [hlog]; exact List.mem_append_left _ hd₀)
      hroot.stores hstores hchain
    obtain ⟨e₀, -, -, hissues₀⟩ := hsound.log root hroot.mem
    have hfirst := (carries_of_code hissues₀ hroot.redeems).row first hroot.stores.req_eq
    have hidentity : token.identity = entry.identity := by
      rw [← htoken, ← hfirst, ← hkin.1]
      rfl
    rw [← hidentity]
    exact carries_of_take hissues hmem

include hauth hdb

theorem redeemed_in_time (hroot : Root s.log root first hash entry) {i : ℕ} {token : String}
    (h : Redeemed s i token)
    (hchain : Chain s.log first.tokenHash (hashSecret app.crates.sha256 token)) :
    ∃ t t' found now,
      s.Executed i t (.refreshTake (hashSecret app.crates.sha256 token)) (.ok (some found)) ∧
      t.wall < first.stored.chainIssuedAt + nanos auth.refresh.ttl.toNat ∧
      s.Executed i t' .utcNow now ∧
      now < first.stored.chainIssuedAt + nanos auth.refresh.ttl.toNat := by
  obtain ⟨t, t', found, now, ⟨es, htake⟩, hnow, hfresh⟩ := redeemed_take hauth hdb hrun h
  obtain ⟨l₁, l₂, hlog⟩ := List.append_of_mem htake
  obtain ⟨d, hd, row, hstores, hhash, htoken, hlive⟩ := taken_stored hrun hlog .mk
  have hd' : d ∈ s.log := by
    rw [hlog]
    exact List.mem_append_left _ hd
  rw [← hhash] at hchain
  have hbirth := (chain_kin hsha hrun hroot.mem hd' hroot.stores hstores hchain).2
  obtain ⟨e, -, -, hissues⟩ := (sound_of_run hrun).log d hd'
  rw [hstores.req_eq] at hissues
  obtain ⟨p⟩ := issues_upsert hissues
  have hlifetime := p.lifetime
  have hsame : p.auth = auth := Option.some.inj (p.configured.symm.trans hauth)
  rw [hsame] at hlifetime
  have hlt : t.wall < timestamptz row.expiresAt := by
    refine lt_of_timestamptz_lt ?_
    rw [timestamptz_timestamptz]
    exact hlive
  rw [← hbirth]
  refine ⟨t, t', found, now, ⟨es, htake⟩, lt_of_lt_of_le hlt (timestamptz_deadline_le hlifetime),
    hnow, ?_⟩
  rw [← htoken] at hfresh
  exact not_chainExpired hfresh

/-- Refresh chains are linear and never slide, over all interleavings. -/
theorem refresh_chains : RefreshChains app auth.refresh.ttl s where
  rooted d hd row hstores := chain_rooted hrun hd hstores
  once i j token hi hj := by
    obtain ⟨t, -, found, -, ⟨es, htake⟩, -⟩ := redeemed_take hauth hdb hrun hi
    obtain ⟨t', -, found', -, ⟨es', htake'⟩, -⟩ := redeemed_take hauth hdb hrun hj
    have hdeed := takes_unique hsha hrun htake htake' .mk .mk
    injection hdeed with hsent
    injection hsent
  single h₀ row hrow row' hrow' hchain hchain' := by
    have hhash := chain_single hsha hrun hrow hrow' hchain hchain'
    have hget := Table.get_eq_some.mpr ⟨hrow, hhash⟩
    have hget' := Table.get_eq_some.mpr ⟨hrow', rfl⟩
    exact Option.some.inj (hget.symm.trans hget')
  login root first hash entry hroot := root_login hrun hroot
  identity root first hash entry hroot d hd hon := carries_of_onChain hsha hrun hroot hd hon
  birth root first hash entry hroot d hd row hstores hchain :=
    (chain_kin hsha hrun hroot.mem hd hroot.stores hstores hchain).2
  deadline root first hash entry hroot i token h hchain :=
    redeemed_in_time hauth hdb hsha hrun hroot h hchain

end

/-- A `/token` request for a refresh token. -/
def refreshForm (token : String) : TokenForm :=
  ⟨some "refresh_token", none, none, none, some token, none⟩

/-- Call `i` arrives and takes its token. -/
def beginRefresh (i : ℕ) (token : String) : List (Act HttpCall Choice) :=
  [.arrive (.token (refreshForm token)), .serve i .go, .serve i .go]

/-- It creates a session and stores the next token. -/
def finishRefresh (i : ℕ) (id : SessionId) (access refresh : String) :
    List (Act HttpCall Choice) :=
  [.serve i (.drawId id), .serve i .go, .serve i .go, .serve i .go, .serve i (.sign (some access)),
    .serve i (.draw refresh)] ++ goes i 3

/-- The token `r` is presented. -/
def aliceRetry (i : ℕ) : List (Act HttpCall Choice) :=
  [.arrive (.token (refreshForm "r")), .serve i .go]

/-- The token was stored. -/
def wasStored (hash : Digest) (log : List AuthDeed) : Bool :=
  log.any fun d => match d with
    | ⟨⟨_, _, .refreshUpsert row⟩, _, .ok ()⟩ => row.tokenHash = hash
    | _ => false

theorem rooted_of_wasStored {wall as} {s : AuthPool HttpCall Response} {hash : Digest} {log}
    (hrun : run (gateway app cfg).step (start (.init wall)) as = some s) (hlog : log <+: s.log)
    (h : wasStored hash log = true) : ∃ root first hash₀ entry,
      Root s.log root first hash₀ entry ∧ Chain s.log first.tokenHash hash := by
  obtain ⟨d, hd, hstored⟩ := List.any_eq_true.mp h
  split at hstored
  · rw [← of_decide_eq_true hstored]
    exact chain_rooted hrun (hlog.subset hd) .mk
  · cases hstored

def aliceRefresh : List (Act HttpCall Choice) :=
  aliceLogin ++ beginRefresh 3 "r" ++ finishRefresh 3 2 "k" "q"

theorem refresh_chains_alice : ∃ s,
    run (gateway demo .default).step (start (.init 0)) aliceRefresh = some s ∧
    Redeemed s 3 "r" ∧ RefreshChains demo 86400 s := by
  have hanswer : (run (gateway demo .default).step (start (.init 0)) aliceRefresh).map
      (fun s => s.answer 3) = some (some (.token (refreshForm "r"), .tokens "k" 3600 "q")) := by
    decide +kernel
  obtain ⟨s, hrun, hs⟩ := Option.map_eq_some_iff.mp hanswer
  exact ⟨s, hrun, ⟨refreshForm "r", _, _, _, hs, rfl, rfl⟩,
    refresh_chains rfl rfl Function.injective_id hrun⟩

end DbMcpGateway.Oauth
