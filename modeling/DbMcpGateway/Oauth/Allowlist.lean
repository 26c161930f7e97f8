import Mathlib.Data.List.ReduceOption
import DbMcpGateway.Oauth.Redirects

/-!
# The redirect URIs of a live client

`/authorize` looks a client up and adopts an unknown one: the lookup and the upsert are two
statements, and a lookup that fails counts as an unknown client. So an upsert can meet a live
registration and replace its redirect URIs, after a lookup that failed or when another request
has registered the client meanwhile. A lookup renews the registration to a time that was read
before the statement runs.

`calm` says when neither happens to a client: the clock does not go back, lookups of the client do
not fail, statements on it that nobody waits for any more are not executed, and a request that
writes its row is the only one about to.

Results:

* `Kept.step`: then the id is free if a request found it free, and renewals are renewals.
* `allowlist_kept`: then the registration keeps its redirect URIs until it expires.
* `allowlist_replaced`: a failed lookup is enough to replace them.
-/

namespace DbMcpGateway.Oauth

open Async Async.Prog Async.Service Machine

variable {app : AppState} {cfg : SessionCacheConfig} {es : AuthTrail} {c : HttpCall}
  {clientId : String} {uris : List String} {expiresAt : ℤ}

/-! ## Statements on the table -/

def AuthReq.writes : AuthReq → Option String
  | .clientUpsert clientId _ _ => some clientId
  | .clientTouch clientId _ => some clientId
  | _ => none

inductive WritesRow (s : AuthState) : AuthReq → ClientRow → Prop
  | upsert {row : ClientRow} {expiresAt} : row.createdAt < row.expiresAt →
      row.expiresAt = timestamptz expiresAt →
      WritesRow s (.clientUpsert row.clientId row.redirectUris expiresAt) row
  /-- A renewal is of a live row. -/
  | touch {old : ClientRow} {expiresAt} : old ∈ s.clients.rows →
      timestamptz s.wall < old.expiresAt → old.createdAt < timestamptz expiresAt →
      WritesRow s (.clientTouch old.clientId expiresAt)
        { old with expiresAt := timestamptz expiresAt }

section

variable {s s' : AuthState} {o : Choice} {r : AuthReq} {x : AuthResp r} {row : ClientRow}

theorem WritesRow.writes (h : WritesRow s r row) : r.writes = some row.clientId := by
  cases h <;> rfl

theorem ClientRows.write_cases (rows : ClientRows) (row : ClientRow) :
    row.createdAt < row.expiresAt ∧ rows.write row = (.ok (), rows.put row) ∨
      row.expiresAt ≤ row.createdAt ∧ rows.write row = (.error .constraint, rows) := by
  unfold ClientRows.write
  split_ifs with hcheck
  · exact .inl ⟨hcheck, rfl⟩
  · exact .inr ⟨not_lt.mp hcheck, rfl⟩

/-- The client has no live registration. -/
def Dead (s : AuthState) (clientId : String) : Prop :=
  ∀ row ∈ s.clients.rows, row.clientId = clientId → row.expiresAt ≤ timestamptz s.wall

/-- What a lookup does: it renews a live row, unless the CHECK refuses that, or finds none. -/
inductive Touches (s : AuthState) (clientId : String) (expiresAt : ℤ) :
    Except SqlxError (Option (List String)) × ClientRows → Prop
  | renewed {row : ClientRow} : row ∈ s.clients.rows → row.clientId = clientId →
      timestamptz s.wall < row.expiresAt → row.createdAt < timestamptz expiresAt →
      Touches s clientId expiresAt (.ok (some row.redirectUris),
        s.clients.put { row with expiresAt := timestamptz expiresAt })
  | refused {row : ClientRow} : row ∈ s.clients.rows → row.clientId = clientId →
      timestamptz s.wall < row.expiresAt → timestamptz expiresAt ≤ row.createdAt →
      Touches s clientId expiresAt (.error .constraint, s.clients)
  | unknown : Dead s clientId → Touches s clientId expiresAt (.ok none, s.clients)

theorem touches (s : AuthState) (clientId : String) (expiresAt : ℤ) :
    Touches s clientId expiresAt (s.clients.touch s.wall clientId expiresAt) := by
  cases hget : s.clients.get clientId with
  | none =>
    simp only [ClientRows.touch, hget]
    exact .unknown fun row hrow hid => absurd hid (Table.get_eq_none.mp hget row hrow)
  | some old =>
    obtain ⟨hold, hid⟩ := Table.get_eq_some.mp hget
    by_cases hlive : timestamptz s.wall < old.expiresAt
    · simp only [ClientRows.touch, hget, if_pos hlive]
      rcases s.clients.write_cases { old with expiresAt := timestamptz expiresAt } with
        ⟨hcheck, hwrite⟩ | ⟨hcheck, hwrite⟩
      · rw [hwrite]
        exact .renewed hold hid hlive hcheck
      · rw [hwrite]
        exact .refused hold hid hlive hcheck
    · simp only [ClientRows.touch, hget, if_neg hlive]
      refine .unknown fun row hrow hid' => ?_
      cases hget.symm.trans (Table.get_eq_some.mpr ⟨hrow, hid'⟩)
      exact not_lt.mp hlive

theorem serve_touches {x} (h : serve cfg s o (.clientTouch clientId expiresAt) = some (x, s')) :
    Touches s clientId expiresAt (x, s'.clients) := by
  cases h
  exact touches s clientId expiresAt

theorem serve_client_row (h : serve cfg s o r = some (x, s')) (hrow : row ∈ s'.clients.rows) :
    row ∈ s.clients.rows ∨ WritesRow s r row := by
  by_cases hparts : Part.clients ∈ r.parts
  · cases r with
    | clientsGc =>
      cases h
      exact .inl (Table.mem_retain.mp hrow).1
    | clientUpsert clientId uris expiresAt =>
      cases h
      dsimp only [ClientRows.upsert] at hrow
      rcases s.clients.write_cases ⟨clientId, uris, _, timestamptz expiresAt⟩ with
        ⟨hcheck, hwrite⟩ | ⟨-, hwrite⟩
      · rw [hwrite] at hrow
        rcases Table.mem_put.mp hrow with rfl | ⟨hrow, -⟩
        · exact .inr (.upsert hcheck rfl)
        · exact .inl hrow
      · rw [hwrite] at hrow
        exact .inl hrow
    | clientTouch clientId expiresAt =>
      have htouches := serve_touches h
      generalize s'.clients = clients at htouches hrow
      cases htouches with
      | renewed hold hid hlive hcheck =>
        rcases Table.mem_put.mp hrow with rfl | ⟨hrow, -⟩
        · rw [← hid]
          exact .inr (.touch hold hlive hcheck)
        · exact .inl hrow
      | refused | unknown => exact .inl hrow
    | _ => simp at hparts
  · rw [(serve_frame h).clients hparts] at hrow
    exact .inl hrow

theorem serve_client_stays (h : serve cfg s o r = some (x, s')) (hrow : row ∈ s.clients.rows)
    (hlive : timestamptz s.wall < row.expiresAt) (hwrites : r.writes ≠ some row.clientId) :
    row ∈ s'.clients.rows := by
  by_cases hparts : Part.clients ∈ r.parts
  · cases r with
    | clientsGc =>
      cases h
      exact Table.mem_retain.mpr ⟨hrow, by simpa using hlive⟩
    | clientUpsert clientId uris expiresAt =>
      have hne : row.clientId ≠ clientId := fun heq => hwrites (congrArg some heq.symm)
      cases h
      dsimp only [ClientRows.upsert]
      rcases s.clients.write_cases ⟨clientId, uris, _, timestamptz expiresAt⟩ with
        ⟨-, hwrite⟩ | ⟨-, hwrite⟩
      · rw [hwrite]
        exact Table.mem_put.mpr (.inr ⟨hrow, hne⟩)
      · rw [hwrite]
        exact hrow
    | clientTouch clientId expiresAt =>
      have hne : row.clientId ≠ clientId := fun heq => hwrites (congrArg some heq.symm)
      have htouches := serve_touches h
      generalize s'.clients = clients at htouches
      cases htouches with
      | renewed hold hid => exact Table.mem_put.mpr (.inr ⟨hrow, by rw [hid]; exact hne⟩)
      | refused | unknown => exact hrow
    | _ => simp at hparts
  · rw [(serve_frame h).clients hparts]
    exact hrow

end

/-! ## Paths to a write -/

/-- The lifetime of a registration. -/
def clientLife : ℤ := nanos (90 * 24 * 3600)

theorem deadline_client {now fallback : ℤ} (h : deadline now clientTtl fallback = some expiresAt) :
    expiresAt = now + clientLife :=
  deadline_eq_some h

/-- The client id that an exchange shows to be free: a lookup that finds no live
    registration, or the draw of `/register`. -/
def finds : Exchange AuthReq AuthResp → Option String
  | ⟨.clientTouch clientId _, .ok none⟩ => some clientId
  | ⟨.newClientId, clientId⟩ => some clientId
  | _ => none

/-- A request found the id free and has not written its row. -/
def claims (es : AuthTrail) (clientId : String) : Bool :=
  es.any (fun e => finds e = some clientId) && es.all fun e => e.1.kind ≠ .clientUpsert

variable {e : Exchange AuthReq AuthResp}

theorem finds_eq_some (h : finds e = some clientId) :
    (∃ expiresAt, e = ⟨.clientTouch clientId expiresAt, .ok none⟩) ∨ e = ⟨.newClientId, clientId⟩ := by
  unfold finds at h
  split at h
  · cases h
    exact .inl ⟨_, rfl⟩
  · cases h
    exact .inr rfl
  · cases h

theorem claims_iff : claims es clientId = true ↔
    (∃ e ∈ es, finds e = some clientId) ∧ ∀ e ∈ es, e.1.kind ≠ .clientUpsert := by
  rw [claims, Bool.and_eq_true, List.any_eq_true, List.all_eq_true]
  simp only [decide_eq_true_eq]

theorem claims_concat (h : claims (es ++ [e]) clientId = true) :
    (claims es clientId = true ∨ finds e = some clientId) ∧ e.1.kind ≠ .clientUpsert := by
  obtain ⟨⟨e', he', hfinds⟩, hall⟩ := claims_iff.mp h
  refine ⟨?_, hall e (by simp)⟩
  rcases Indexed.mem_concat_cases he' with rfl | he'
  · exact .inr hfinds
  · exact .inl (claims_iff.mpr ⟨⟨e', he', hfinds⟩, fun e he => hall e (List.mem_append_left _ he)⟩)

/-- The time of a renewal is read right before it. -/
theorem issues_clientTouch (h : Issues (c.code app) es (.clientTouch clientId expiresAt)) :
    ∃ now, es = [⟨.utcNow, now⟩] ∧ expiresAt = now + clientLife := by
  have hkind := HttpCall.kind_mem h
  cases c with
  | authorize p =>
    cases issues_authorize h with
    | resolve _ _ h =>
      simp [resolveRedirect, ClientRegistry.redirectUris, ClientRegistry.insert,
          ClientRegistry.upsertRow] at h
      obtain ⟨now, hes, hdeadline, -⟩ := h
      exact ⟨now, hes, deadline_client hdeadline⟩
    | login _ _ _ _ h => cases issues_startLogin h
  | _ =>
    simp at hkind

theorem issues_touch_last (h : Issues (c.code app) (es ++ [e]) (.clientTouch clientId expiresAt)) :
    ∃ now, e = ⟨.utcNow, now⟩ ∧ expiresAt = now + clientLife := by
  obtain ⟨now, htrail, hexpires⟩ := issues_clientTouch h
  refine ⟨now, ?_, hexpires⟩
  have hlast := congrArg List.getLast? htrail
  rw [List.getLast?_concat] at hlast
  exact Option.some.inj hlast

structure Adopts (c : HttpCall) (es : AuthTrail) (clientId : String) (expiresAt : ℤ) : Prop where
  named : clientId ∈ c.texts ∨ ⟨.newClientId, clientId⟩ ∈ es
  found : claims es clientId = true ∨ ∃ e error, ⟨.clientTouch clientId e, .error error⟩ ∈ es
  read : ∃ now, ⟨.utcNow, now⟩ ∈ es ∧ expiresAt = now + clientLife

theorem issues_upsert_path (h : Issues (c.code app) es (.clientUpsert clientId uris expiresAt)) :
    Adopts c es clientId expiresAt := by
  have hkind := HttpCall.kind_mem h
  cases c with
  | register req =>
    simp [register] at h
    obtain ⟨-, id, es₂, rfl, hinsert⟩ := h
    obtain ⟨⟨rfl, -⟩, hall, now, _, hnow, hdeadline⟩ := issues_registryInsert hinsert
    refine ⟨.inr List.mem_cons_self, .inl (claims_iff.mpr ⟨⟨_, List.mem_cons_self, rfl⟩, ?_⟩), now,
      List.mem_cons_of_mem _ hnow, deadline_client hdeadline⟩
    exact List.forall_mem_cons.mpr ⟨by rintro ⟨⟩, hall⟩
  | authorize p =>
    cases issues_authorize h with
    | login _ _ _ _ h => cases issues_startLogin h
    | resolve hclient _ h =>
      simp [resolveRedirect, ClientRegistry.redirectUris] at h
      obtain ⟨es₁, es₂, rfl, hlookup, -, hinsert⟩ := h
      obtain ⟨⟨rfl, -⟩, hall, now, _, hnow, hdeadline⟩ := issues_registryInsert hinsert
      refine ⟨.inl (List.reduceOption_mem_iff.mpr (by simp [nonEmpty_eq_some hclient])), ?_, now,
        List.mem_append_right _ hnow, deadline_client hdeadline⟩
      rcases hlookup with ⟨error, _, e, rfl, -⟩ | ⟨_, e, rfl, -⟩
      · exact .inr ⟨e, error, by simp⟩
      · refine .inl (claims_iff.mpr ⟨⟨⟨.clientTouch _ e, .ok none⟩, by simp, rfl⟩, ?_⟩)
        exact List.forall_mem_cons.mpr
          ⟨by rintro ⟨⟩, List.forall_mem_cons.mpr ⟨by rintro ⟨⟩, hall⟩⟩
  | _ =>
    simp at hkind

/-! ## Requests that do not disturb each other -/

variable {s s' : AuthPool HttpCall Response} {a : Act HttpCall Choice} {i : ℕ}

/-- Call `i` is about to write the row of a client, or has found the id free. -/
def engaged (s : AuthPool HttpCall Response) (i : ℕ) (clientId : String) : Bool :=
  match s.entries[i]? with
  | some ⟨_, es, .running (.await r _)⟩ => r.writes = some clientId || claims es clientId
  | _ => false

/-- The clock does not go back, lookups of the client do not fail, what nobody waits for any more
    does not write its row, and what writes it is alone. -/
def calm (clientId : String) (s : AuthPool HttpCall Response) : Act HttpCall Choice → Bool
  | .serve i _ =>
    (s.waits i).bind AuthReq.writes ≠ some clientId ||
      (List.range s.entries.length).all fun j => j = i || !engaged s j clientId
  | .fail i => (s.waits i).all fun r => r.kind ≠ .clientTouch || r.writes ≠ some clientId
  | .late n _ => (s.late[n]?).all fun l => l.req.writes ≠ some clientId
  | .env o => (tick s.shared o).all fun s' => s.shared.wall ≤ s'.wall
  | _ => true

theorem engaged_of_entry {es} {r : AuthReq} {k : AuthResp r → AuthProg Response}
    (he : s.entries[i]? = some ⟨c, es, .running (.await r k)⟩)
    (h : r.writes = some clientId ∨ claims es clientId = true) : engaged s i clientId = true := by
  simpa [engaged, he] using h

theorem calm_serve {o : Choice} (h : calm clientId s (.serve i o) = true) {es} {r : AuthReq}
    {k : AuthResp r → AuthProg Response}
    (he : s.entries[i]? = some ⟨c, es, .running (.await r k)⟩) (hwrites : r.writes = some clientId)
    {j : ℕ} (hj : engaged s j clientId = true) : j = i := by
  have hwaits : s.waits i = some r := by rw [Pool.waits, he]
  have hlt : j < s.entries.length := by
    by_contra hge
    rw [engaged, List.getElem?_eq_none (not_lt.mp hge)] at hj
    cases hj
  simp only [calm, hwaits, Option.bind_some, hwrites, ne_eq, not_true_eq_false, decide_false,
    Bool.false_or, List.all_eq_true, List.mem_range] at h
  simpa [hj] using h j hlt

/-- The clock does not go back. -/
theorem calm_wall (hcalm : calm clientId s a = true) (hstep : (gateway app cfg).step s a = some s') :
    s.shared.wall ≤ s'.shared.wall := by
  cases step_moves hstep with
  | arrive => exact le_rfl
  | serve _ hserve | late _ hserve => exact (serve_frame hserve).wall.ge
  | @env o shared henv =>
    rw [calm, show tick s.shared o = some shared from henv] at hcalm
    simpa using hcalm
  | _ => exact le_rfl

theorem calm_row (hcalm : calm clientId s a = true) (hstep : (gateway app cfg).step s a = some s')
    {row : ClientRow} (hrow : row ∈ s'.shared.clients.rows) (hid : row.clientId = clientId) :
    row ∈ s.shared.clients.rows ∨ ∃ i o c es r, ∃ k : AuthResp r → AuthProg Response,
      a = .serve i o ∧ s.entries[i]? = some ⟨c, es, .running (.await r k)⟩ ∧
        WritesRow s.shared r row := by
  cases step_moves hstep with
  | arrive => exact .inl hrow
  | serve he hserve =>
    rcases serve_client_row hserve hrow with hrow | hwrites
    · exact .inl hrow
    · exact .inr ⟨_, _, _, _, _, _, rfl, he, hwrites⟩
  | late hl hserve =>
    rcases serve_client_row hserve hrow with hrow | hwrites
    · exact .inl hrow
    · simp [calm, hl, hwrites.writes, hid] at hcalm
  | env henv =>
    obtain ⟨wall, mono, -, rfl⟩ := tick_eq henv
    exact .inl hrow
  | _ => exact .inl hrow

/-! ## The invariant -/

/-- What a waiting request knows of the registration. -/
structure Informed (clientId : String) (s : AuthState) (es : AuthTrail) (r : AuthReq) : Prop where
  /-- If it found the id free, it is free. -/
  free : claims es clientId = true → Dead s clientId
  /-- A renewal is one. -/
  renews : ∀ expiresAt, r = .clientTouch clientId expiresAt →
    ∀ row ∈ s.clients.rows, row.clientId = clientId → row.expiresAt ≤ timestamptz expiresAt
  found : ∀ expiresAt error, ⟨.clientTouch clientId expiresAt, .error error⟩ ∉ es
  read : ∀ now, ⟨.utcNow, now⟩ ∈ es → now ≤ s.wall

/-- What holds as long as requests do not disturb each other. -/
structure Kept (app : AppState) (cfg : SessionCacheConfig) (wall : ℤ) (clientId : String)
    (s : AuthPool HttpCall Response) : Prop where
  reached : ∃ as, run (gateway app cfg).step (start (.init wall)) as = some s
  rows : ∀ row ∈ s.shared.clients.rows, row.clientId = clientId →
    row.createdAt < row.expiresAt ∧ row.expiresAt ≤ timestamptz (s.shared.wall + clientLife)
  calls : ∀ (i : ℕ) c es r (k : AuthResp r → AuthProg Response),
    s.entries[i]? = some ⟨c, es, .running (.await r k)⟩ → Informed clientId s.shared es r

section

variable {wall : ℤ} {es : AuthTrail} {r : AuthReq} {k : AuthResp r → AuthProg Response}

section

variable (h : Kept app cfg wall clientId s)

include h

/-- A waiting call issued its request. -/
theorem Kept.issues (he : s.entries[i]? = some ⟨c, es, .running (.await r k)⟩) :
    Issues (c.code app) es r := by
  obtain ⟨as, hrun⟩ := h.reached
  exact ((sound_of_run hrun).traced i _ he).running.issues

/-- The client ids of the table are in use. -/
theorem Kept.used {row : ClientRow} (hrow : row ∈ s.shared.clients.rows) :
    row.clientId ∈ s.shared.used := by
  obtain ⟨as, hrun⟩ := h.reached
  obtain ⟨d, hd, hputs⟩ := clients_passage.put_of_has (a := (row.clientId, row.redirectUris))
    (by rintro client ⟨row, ⟨⟩, -⟩) hrun ⟨row, hrow, rfl, rfl⟩
  obtain ⟨expiresAt, hreq⟩ := hputs.inv
  obtain ⟨e, he, -, hissues⟩ := (sound_of_run hrun).log d hd
  rw [show d.req = _ from congrArg Sigma.fst hreq] at hissues
  rcases (issues_upsert_path hissues).named with htext | hdrawn
  · exact (presents_used hrun he).1 htext
  · obtain ⟨t, es, hmem⟩ := executed_of_before hrun hd hdrawn (by rintro ⟨⟩)
    exact (texts_fresh.drawn hrun).used _ hmem _ .client

/-- No lookup is refused by the CHECK of the table. -/
theorem Kept.touches_ok {k : AuthResp (.clientTouch clientId expiresAt) → AuthProg Response}
    (he : s.entries[i]? = some ⟨c, es, .running (.await (.clientTouch clientId expiresAt) k)⟩)
    {error rows} :
    ¬ Touches s.shared clientId expiresAt (.error error, rows) := by
  intro htouches
  cases htouches with
  | @refused row hrow hid hlive hcheck =>
    have hrenews := (h.calls i _ _ _ _ he).renews _ rfl row hrow hid
    have hrow := (h.rows row hrow hid).1
    omega

/-- A call that waits for the reply it waited for. -/
theorem Kept.stays (hcalm : calm clientId s a = true)
    (hstep : (gateway app cfg).step s a = some s')
    (he : s.entries[i]? = some ⟨c, es, .running (.await r k)⟩) (ha : ∀ o, a ≠ .serve i o) :
    Informed clientId s'.shared es r := by
  have hwall := timestamptz_mono (calm_wall hcalm hstep)
  have hold := h.calls i c es r k he
  -- no other call writes the row, if this one relies on it
  have hrow : ∀ {row : ClientRow}, r.writes = some clientId ∨ claims es clientId = true →
      row ∈ s'.shared.clients.rows → row.clientId = clientId → row ∈ s.shared.clients.rows := by
    intro row hengaged hrow hid
    rcases calm_row hcalm hstep hrow hid with hrow | ⟨j, o, c', es', r', k', rfl, he', hwrites⟩
    · exact hrow
    · have hij := calm_serve hcalm he' (hwrites.writes.trans (congrArg some hid))
        (engaged_of_entry he hengaged)
      exact absurd (congrArg (Act.serve · o) hij.symm) (ha o)
  constructor
  · intro hclaims row hmem hid
    exact (hold.free hclaims row (hrow (.inr hclaims) hmem hid) hid).trans hwall
  · rintro expiresAt rfl row hmem hid
    exact hold.renews expiresAt rfl row (hrow (.inl rfl) hmem hid) hid
  · exact hold.found
  · exact fun now hnow => (hold.read now hnow).trans (calm_wall hcalm hstep)

end

variable {x : AuthResp r}

/-- No error reply shows an id to be free. -/
theorem finds_failure (h : failure r = some x) : finds ⟨r, x⟩ = none := by
  cases r <;> cases h <;> rfl

section

variable (h : Kept app cfg wall clientId s)

include h

/-- A call goes on after an error reply. -/
theorem Kept.failed (hcalm : calm clientId s (.fail i) = true) (hfailure : failure r = some x)
    (he : s.entries[i]? = some ⟨c, es, .running (.await r k)⟩) {r' : AuthReq}
    (hissues : Issues (c.code app) (es ++ [⟨r, x⟩]) r') :
    Informed clientId s.shared (es ++ [⟨r, x⟩]) r' := by
  have hold := h.calls i c es r k he
  constructor
  · intro hclaims
    rcases (claims_concat hclaims).1 with hclaims | hfinds
    · exact hold.free hclaims
    · rw [finds_failure hfailure] at hfinds
      cases hfinds
  · rintro expiresAt rfl
    obtain ⟨now, ⟨⟩, -⟩ := issues_touch_last hissues
    cases hfailure
  · intro expiresAt error hmem
    rcases Indexed.mem_concat_cases hmem with heq | hmem
    · cases heq
      simp [calm, Pool.waits, he, AuthReq.writes] at hcalm
    · exact hold.found expiresAt error hmem
  · intro now hmem
    rcases Indexed.mem_concat_cases hmem with heq | hmem
    · cases heq
      cases hfailure
    · exact hold.read now hmem

/-- An id that is found free is free. -/
theorem Kept.finds_dead {o : Choice} {shared : AuthState}
    (hserve : serve cfg s.shared o r = some (x, shared)) (hfinds : finds ⟨r, x⟩ = some clientId) :
    Dead s.shared clientId ∧ shared.clients = s.shared.clients := by
  rcases finds_eq_some hfinds with ⟨expiresAt, heq⟩ | heq
  · cases heq
    have htouches := serve_touches hserve
    generalize shared.clients = clients at htouches
    cases htouches with
    | unknown hdead => exact ⟨hdead, rfl⟩
  · cases heq
    refine ⟨fun row hrow hid => ?_, (serve_frame hserve).clients (by simp)⟩
    exact absurd (hid ▸ h.used hrow) (serve_draws hserve .client).1

/-- A call goes on after its request was served. -/
theorem Kept.served {o : Choice} {shared} (hserve : serve cfg s.shared o r = some (x, shared))
    (he : s.entries[i]? = some ⟨c, es, .running (.await r k)⟩) {r' : AuthReq}
    (hissues : Issues (c.code app) (es ++ [⟨r, x⟩]) r') :
    Informed clientId shared (es ++ [⟨r, x⟩]) r' := by
  have hold := h.calls i c es r k he
  have hwall : shared.wall = s.shared.wall := (serve_frame hserve).wall
  constructor
  · intro hclaims row hrow hid
    rw [hwall]
    obtain ⟨hbefore | hfinds, hkind⟩ := claims_concat hclaims
    · rcases serve_client_row hserve hrow with hrow | hwrites
      · exact hold.free hbefore row hrow hid
      · cases hwrites with
        | upsert => exact absurd rfl hkind
        | @touch old _ hmem hlive => exact absurd (hold.free hbefore old hmem hid) hlive.not_ge
    · exact (h.finds_dead hserve hfinds).1 row ((h.finds_dead hserve hfinds).2 ▸ hrow) hid
  · rintro expiresAt rfl row hrow hid
    obtain ⟨now, ⟨⟩, rfl⟩ := issues_touch_last hissues
    cases hserve
    exact (h.rows row hrow hid).2
  · intro expiresAt error hmem
    rcases Indexed.mem_concat_cases hmem with heq | hmem
    · cases heq
      exact h.touches_ok he (serve_touches hserve)
    · exact hold.found expiresAt error hmem
  · intro now hmem
    rw [hwall]
    rcases Indexed.mem_concat_cases hmem with heq | hmem
    · cases heq
      cases hserve
      exact le_rfl
    · exact hold.read now hmem

theorem Kept.written (he : s.entries[i]? = some ⟨c, es, .running (.await r k)⟩) {row : ClientRow}
    (hwrites : WritesRow s.shared r row) :
    row.createdAt < row.expiresAt ∧ row.expiresAt ≤ timestamptz (s.shared.wall + clientLife) := by
  have hread := (h.calls i c es r k he).read
  cases hwrites with
  | upsert hcheck hexpires =>
    obtain ⟨now, hnow, rfl⟩ := (issues_upsert_path (h.issues he)).read
    rw [hexpires]
    exact ⟨hexpires ▸ hcheck, timestamptz_mono (Int.add_le_add_right (hread now hnow) _)⟩
  | touch _ _ hcheck =>
    obtain ⟨now, rfl, rfl⟩ := issues_clientTouch (h.issues he)
    exact ⟨hcheck, timestamptz_mono (Int.add_le_add_right (hread now List.mem_cons_self) _)⟩

end

/-- One step keeps the invariant. -/
theorem Kept.step (h : Kept app cfg wall clientId s) (hcalm : calm clientId s a = true)
    (hstep : (gateway app cfg).step s a = some s') : Kept app cfg wall clientId s' := by
  have hreached : ∃ as, run (gateway app cfg).step (start (.init wall)) as = some s' := by
    obtain ⟨as, hrun⟩ := h.reached
    exact ⟨as ++ [a], run_concat hrun hstep⟩
  have hwall := calm_wall hcalm hstep
  refine ⟨hreached, ?_, ?_⟩
  · intro row hrow hid
    have hbound : row.createdAt < row.expiresAt ∧
        row.expiresAt ≤ timestamptz (s.shared.wall + clientLife) := by
      rcases calm_row hcalm hstep hrow hid with hrow | ⟨i, o, c, es, r, k, rfl, he, hwrites⟩
      · exact h.rows row hrow hid
      · exact h.written he hwrites
    exact ⟨hbound.1, hbound.2.trans (timestamptz_mono (Int.add_le_add_right hwall _))⟩
  · intro i c es r k he'
    have hissues : Issues (c.code app) es r := by
      obtain ⟨as, hrun⟩ := hreached
      exact ((sound_of_run hrun).traced i _ he').running.issues
    rcases step_running hstep he' with rfl | ⟨he, ha⟩ |
      ⟨es₀, r₀, k₀, x₀, he, rfl, ⟨rfl, hfailure, hshared⟩ | ⟨o, rfl, hserve⟩⟩
    · refine ⟨by simp [claims], ?_, by simp, by simp⟩
      rintro expiresAt rfl
      obtain ⟨_, ⟨⟩, -⟩ := issues_clientTouch hissues
    · exact h.stays hcalm hstep he ha
    · rw [hshared]
      exact h.failed hcalm hfailure he hissues
    · exact h.served hserve he hissues

end

/-! ## Registrations -/

/-- The registration is there, with the same redirect URIs and no earlier expiry. -/
def Registered (s : AuthState) (row : ClientRow) : Prop :=
  ∃ row' ∈ s.clients.rows, row'.clientId = row.clientId ∧ row'.redirectUris = row.redirectUris ∧
    row.expiresAt ≤ row'.expiresAt

/-- The registration was kept, and has expired. -/
def Lapsed (s : AuthState) (row : ClientRow) : Prop :=
  ∃ row' ∈ s.clients.rows, row'.clientId = row.clientId ∧ row'.redirectUris = row.redirectUris ∧
    row.expiresAt ≤ row'.expiresAt ∧ row'.expiresAt ≤ timestamptz s.wall

section

variable {wall : ℤ} {as bs : List (Act HttpCall Choice)} {row : ClientRow}

theorem Kept.registered (h : Kept app cfg wall row.clientId s)
    (hcalm : calm row.clientId s a = true)
    (hstep : (gateway app cfg).step s a = some s') (hrow : row ∈ s.shared.clients.rows)
    (hlive : timestamptz s.shared.wall < row.expiresAt) : Registered s'.shared row := by
  cases step_moves hstep with
  | @serve i o c es r k x shared he hserve =>
    by_cases hwrites : r.writes = some row.clientId
    · cases r with
      | clientUpsert clientId uris expiresAt =>
        cases hwrites
        -- an upsert comes after the id was found free, and a live registration is not
        have hold := h.calls i _ _ _ _ he
        rcases (issues_upsert_path (h.issues he)).found with hclaims | ⟨e, error, hmem⟩
        · exact absurd (hold.free hclaims row hrow rfl) hlive.not_ge
        · exact absurd hmem (hold.found e error)
      | clientTouch clientId expiresAt =>
        cases hwrites
        have hrenews := (h.calls i _ _ _ _ he).renews _ rfl
        have hserved : serve cfg s.shared o (.clientTouch row.clientId expiresAt) = some (x, shared) :=
          hserve
        have htouches := serve_touches hserved
        generalize hclients : shared.clients = clients at htouches
        cases htouches with
        | @renewed row' hrow' hid =>
          cases (Table.get_eq_some.mpr ⟨hrow', hid⟩).symm.trans
            (Table.get_eq_some.mpr ⟨hrow, rfl⟩)
          refine ⟨{ row with expiresAt := timestamptz expiresAt }, ?_, rfl, rfl, hrenews row hrow rfl⟩
          rw [hclients]
          exact Table.mem_put.mpr (.inl rfl)
        | refused hrow' hid hlive' hcheck =>
          exact absurd (.refused hrow' hid hlive' hcheck) (h.touches_ok he)
        | unknown hdead => exact absurd (hdead row hrow rfl) hlive.not_ge
      | _ => cases hwrites
    · exact ⟨row, serve_client_stays hserve hrow hlive hwrites, rfl, rfl, le_rfl⟩
  | late hl hserve =>
    rw [calm, hl, Option.all_some, decide_eq_true_eq] at hcalm
    exact ⟨row, serve_client_stays hserve hrow hlive hcalm, rfl, rfl, le_rfl⟩
  | env henv =>
    obtain ⟨wall, mono, -, rfl⟩ := tick_eq henv
    exact ⟨row, hrow, rfl, rfl, le_rfl⟩
  | _ => exact ⟨row, hrow, rfl, rfl, le_rfl⟩

theorem Kept.start (app : AppState) (cfg : SessionCacheConfig) (wall : ℤ) (clientId : String) :
    Kept app cfg wall clientId (start (.init wall)) where
  reached := ⟨[], rfl⟩
  rows := by rintro row ⟨⟩
  calls := by simp [Service.start]

theorem Registered.trans {s} {row' : ClientRow} (h : Registered s row')
    (hid : row'.clientId = row.clientId) (huris : row'.redirectUris = row.redirectUris)
    (hle : row.expiresAt ≤ row'.expiresAt) : Registered s row := by
  obtain ⟨row'', hrow'', hid', huris', hle'⟩ := h
  exact ⟨row'', hrow'', hid'.trans hid, huris'.trans huris, hle.trans hle'⟩

theorem Lapsed.trans {s} {row' : ClientRow} (h : Lapsed s row')
    (hid : row'.clientId = row.clientId) (huris : row'.redirectUris = row.redirectUris)
    (hle : row.expiresAt ≤ row'.expiresAt) : Lapsed s row := by
  obtain ⟨row'', hrow'', hid', huris', hle', hlapsed⟩ := h
  exact ⟨row'', hrow'', hid'.trans hid, huris'.trans huris, hle.trans hle', hlapsed⟩

theorem Kept.run_registered (h : Kept app cfg wall row.clientId s)
    (hcalm : Meets (gateway app cfg).step (fun s a => calm row.clientId s a = true) s bs)
    (hmore : run (gateway app cfg).step s bs = some s') (hrow : row ∈ s.shared.clients.rows)
    (hlive : timestamptz s.shared.wall < row.expiresAt) :
    Registered s'.shared row ∨ ∃ bs₁ bs₂ s₁, bs = bs₁ ++ bs₂ ∧
      run (gateway app cfg).step s bs₁ = some s₁ ∧ Lapsed s₁.shared row := by
  induction bs generalizing s row with
  | nil =>
    cases hmore
    exact .inl ⟨row, hrow, rfl, rfl, le_rfl⟩
  | cons a bs ih =>
    obtain ⟨s₁, hstep, hmore⟩ := run_cons hmore
    have hfirst : run (gateway app cfg).step s [a] = some s₁ := by
      rw [Machine.run, hstep]
      rfl
    obtain ⟨row₁, hrow₁, hid, huris, hle⟩ := h.registered hcalm.1 hstep hrow hlive
    by_cases hlive₁ : timestamptz s₁.shared.wall < row₁.expiresAt
    · have hrest := hcalm.2 s₁ hstep
      have hkept := h.step hcalm.1 hstep
      rw [← hid] at hrest hkept
      rcases ih hkept hrest hmore hrow₁ hlive₁ with
        hregistered | ⟨bs₁, bs₂, s₂, rfl, hrun, hlapsed⟩
      · exact .inl (hregistered.trans hid huris hle)
      · refine .inr ⟨a :: bs₁, bs₂, s₂, rfl, ?_, hlapsed.trans hid huris hle⟩
        rw [Machine.run, hstep]
        exact hrun
    · exact .inr ⟨[a], bs, s₁, rfl, hfirst, row₁, hrow₁, hid, huris, hle, not_lt.mp hlive₁⟩

/-- As long as requests for its client do not disturb each other, a live registration keeps its
    redirect URIs, and its expiry does not get earlier, until it expires. -/
theorem allowlist_kept
    (hcalm : Meets (gateway app cfg).step (fun s a => calm row.clientId s a = true)
      (start (.init wall)) (as ++ bs))
    (hrun : run (gateway app cfg).step (start (.init wall)) as = some s)
    (hmore : run (gateway app cfg).step s bs = some s') (hrow : row ∈ s.shared.clients.rows)
    (hlive : timestamptz s.shared.wall < row.expiresAt) :
    Registered s'.shared row ∨ ∃ bs₁ bs₂ s₁, bs = bs₁ ++ bs₂ ∧
      run (gateway app cfg).step s bs₁ = some s₁ ∧ Lapsed s₁.shared row := by
  have hkept : Kept app cfg wall row.clientId s :=
    run_invariant (P := Kept app cfg wall row.clientId)
      (fun _ _ _ h hcalm hstep => h.step hcalm hstep) hcalm.of_append hrun
      (.start app cfg wall row.clientId)
  exact hkept.run_registered (hcalm.append hrun) hmore hrow hlive

end

/-! ### A client with an `https` redirect URI -/

/-- The demo gateway, with one URI that is not a loopback URI. -/
def webDemo : AppState :=
  { demo with
    crates := { demoCrates with
      parseUrl := fun u =>
        if u = "https://app/cb" then some ⟨"https", some (.domain "app"), "", none, "/cb", none, none⟩
        else demoCrates.parseUrl u } }

/-- The client `mcp-a` registers. -/
def webRegisters : List (Act HttpCall Choice) :=
  [.arrive (.register ⟨["https://app/cb"], none⟩), .serve 0 (.draw "a")] ++ goes 0 5

/-- An `/authorize` request for `mcp-a`. -/
def webParams (redirectUri : String) : AuthorizeParams :=
  ⟨some "code", some redirectUri, some "YQ", some "S256", some "z", some "mcp-a", none⟩

def webRow : ClientRow := ⟨"mcp-a", ["https://app/cb"], 0, clientLife⟩

/-- A second later it is looked up. -/
def webReturns : List (Act HttpCall Choice) :=
  [.env (.clock 1000000000 1000000000), .arrive (.authorize (webParams "https://app/cb"))] ++ goes 1 2

/-- Someone sends an `/authorize` request with its id, and the lookup fails. -/
def webHijacked : List (Act HttpCall Choice) :=
  [.arrive (.authorize (webParams "http://127.0.0.1/cb")), .serve 1 .go, .fail 1] ++ goes 1 4

theorem allowlist_kept_web : ∃ s s',
    run (gateway webDemo .default).step (start (.init 0)) webRegisters = some s ∧
    run (gateway webDemo .default).step s webReturns = some s' ∧
    (Registered s'.shared webRow ∨ ∃ bs₁ bs₂ s₁, webReturns = bs₁ ++ bs₂ ∧
      run (gateway webDemo .default).step s bs₁ = some s₁ ∧ Lapsed s₁.shared webRow) := by
  have hcalm : checks (gateway webDemo .default).step (calm "mcp-a") (start (.init 0))
      (webRegisters ++ webReturns) = true := by
    decide +kernel
  have hcheck : (run (gateway webDemo .default).step (start (.init 0)) webRegisters).any (fun s =>
      webRow ∈ s.shared.clients.rows && timestamptz s.shared.wall < webRow.expiresAt &&
      (run (gateway webDemo .default).step s webReturns).isSome) = true := by
    decide +kernel
  simp only [Option.any_eq_true, Bool.and_eq_true, decide_eq_true_eq, Option.isSome_iff_exists]
    at hcheck
  obtain ⟨s, hrun, ⟨hrow, hlive⟩, s', hmore⟩ := hcheck
  exact ⟨s, s', hrun, hmore, allowlist_kept (meets_of_checks hcalm) hrun hmore hrow hlive⟩

/-- A failed lookup lets `/authorize` replace the redirect URIs of a live registration. -/
theorem allowlist_replaced : ∃ s s',
    run (gateway webDemo .default).step (start (.init 0)) webRegisters = some s ∧
    run (gateway webDemo .default).step s webHijacked = some s' ∧
    webRow ∈ s.shared.clients.rows ∧ timestamptz s.shared.wall < webRow.expiresAt ∧
    s'.shared.wall = s.shared.wall ∧
    s'.shared.clients.rows = [{ webRow with redirectUris := ["http://127.0.0.1/cb"] }] := by
  have hcheck : (run (gateway webDemo .default).step (start (.init 0)) webRegisters).any (fun s =>
      webRow ∈ s.shared.clients.rows && timestamptz s.shared.wall < webRow.expiresAt &&
      (run (gateway webDemo .default).step s webHijacked).any (fun s' =>
        s'.shared.wall = s.shared.wall &&
        s'.shared.clients.rows = [{ webRow with redirectUris := ["http://127.0.0.1/cb"] }])) = true := by
    decide +kernel
  simp only [Option.any_eq_true, Bool.and_eq_true, decide_eq_true_eq] at hcheck
  obtain ⟨s, hrun, ⟨hrow, hlive⟩, s', hmore, hwall, hrows⟩ := hcheck
  exact ⟨s, s', hrun, hmore, hrow, hlive, hwall, hrows⟩

end DbMcpGateway.Oauth
