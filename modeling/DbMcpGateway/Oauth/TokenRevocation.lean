import DbMcpGateway.Oauth.Endings
import DbMcpGateway.Oauth.Revocation

/-!
# Revoked tokens

`/revoke` takes the presented token as a refresh token and, if it is a session JWT, revokes
its session. A refresh that takes the token first goes on with the chain, and a failed
statement revokes nothing; the answer is the same (`refresh_after_revoke`). If the DELETE
returns the token, its chain ends; if the session is revoked and nothing races with that, the
session stays dead (`revoke_ends`).

Results:

* `take_ends`: taking the token of a chain without renewing it ends the chain.
* `gateway_discipline`: the endpoints use the session store as `lookup_revoked` needs it.
* `revoke_ends`: both parts.
-/

namespace DbMcpGateway.Oauth

open Async Async.Prog Async.Service Machine

variable {app : AppState} {cfg : SessionCacheConfig} {wall : ℤ}

/-! ## Refresh tokens -/

theorem taker_eq {s : AuthPool HttpCall Response} {as} (hsha : Function.Injective app.crates.sha256)
    (hrun : run (gateway app cfg).step (start (.init wall)) as = some s) {H K} {i : ℕ}
    {trail} (hseen : (gateway app cfg).Seen s.log i trail)
    {e} (he : e ∈ trail) (hgets : Gets H K e)
    (hspent : (∀ h ∈ H, ∃ d ∈ s.log, d.req.kind = .refreshUpsert ∧
        ∃ token, ⟨.refreshTake h, .ok (some token)⟩ ∈ d.before) ∧
      ∀ h ∈ K, ∃ d ∈ s.log, d.req.kind = .refreshUpsert ∧
        ∃ entry, ⟨.codeTake h, some entry⟩ ∈ d.before) :
    ∃ d ∈ s.log, d.task = i ∧ d.req.kind = .refreshUpsert := by
  cases hgets with
  | @token h token hH =>
    obtain ⟨d, hd, hkind, token', hmem⟩ := hspent.1 h hH
    obtain ⟨es, t, htake, -⟩ := hseen.deed he (by rintro ⟨⟩)
    obtain ⟨t', es', htake'⟩ := executed_of_before hrun hd hmem (by rintro ⟨⟩)
    have hdeed := takes_unique hsha hrun htake' htake .mk .mk
    exact ⟨d, hd, congrArg (fun d : AuthDeed => d.task) hdeed, hkind⟩
  | @code h entry hK =>
    obtain ⟨d, hd, hkind, entry', hmem⟩ := hspent.2 h hK
    obtain ⟨es, t, htake, -⟩ := hseen.deed he (by rintro ⟨⟩)
    obtain ⟨t', es', htake'⟩ := executed_of_before hrun hd hmem (by rintro ⟨⟩)
    have hdeed := codeTakes_unique hrun hsha htake' htake .mk .mk
    exact ⟨d, hd, congrArg (fun d : AuthDeed => d.task) hdeed, hkind⟩

def chainOf (first : RefreshRow) (log : List AuthDeed) : Set Digest :=
  {h | Chain log first.tokenHash h}

section

variable {s s' : AuthPool HttpCall Response} {as : List (Act HttpCall Choice)} {i : ℕ} {c : HttpCall}
  {trail : AuthTrail} {hash : Digest} {k : AuthResp (.refreshTake hash) → AuthProg Response}
  {o : Choice} {found : RefreshToken} {root : AuthDeed} {first : RefreshRow} {codeHash : Digest}
  {entry : AuthCode}

section

variable (hsha : Function.Injective app.crates.sha256)
  (hrun : run (gateway app cfg).step (start (.init wall)) as = some s)
  (hroot : Root s.log root first codeHash entry)

include hsha hrun hroot

theorem chainOf_closed {d : AuthDeed} (hd : d ∈ s.log) {row : RefreshRow}
    (hstores : PutsRow d.req d.reply row) {e} (he : e ∈ d.before)
    (hgets : Gets (chainOf first s.log) {codeHash} e) :
    row.tokenHash ∈ chainOf first s.log := by
  have hsound := sound_of_run hrun
  cases hgets with
  | token hH => exact Relation.ReflTransGen.tail hH ⟨d, hd, row, _, hstores, rfl, he⟩
  | code hK =>
    -- the code was redeemed once, and its call stores one token
    cases hK
    obtain ⟨t, es, htake⟩ := executed_of_before hrun hd he (by rintro ⟨⟩)
    obtain ⟨t', es', htake'⟩ := executed_of_before hrun hroot.mem hroot.redeems (by rintro ⟨⟩)
    have hdeed := codeTakes_unique hrun hsha htake htake' .mk .mk
    have htask : d.task = root.task := by injection hdeed with hsent; injection hsent
    have hbefore := store_singular.before_eq (hsound.log d hd) (hsound.log root hroot.mem)
      (StoresToken.of_row hstores).kind_mem (StoresToken.of_row hroot.stores).kind_mem htask
    have hsame : d = root :=
      hsound.eq_of_key hd hroot.mem (by rw [Sent.key, Sent.key, htask, hbefore])
    subst hsame
    cases hstores.req_eq.symm.trans hroot.stores.req_eq
    exact .refl

theorem chainOf_spent {row : RefreshRow} (hrow : row ∈ s.shared.refresh.rows)
    (hchain : row.tokenHash ∈ chainOf first s.log) :
    (∀ h ∈ chainOf first s.log \ {row.tokenHash}, ∃ d ∈ s.log, d.req.kind = .refreshUpsert ∧
      ∃ token, ⟨.refreshTake h, .ok (some token)⟩ ∈ d.before) ∧
    ∀ h ∈ ({codeHash} : Set Digest), ∃ d ∈ s.log, d.req.kind = .refreshUpsert ∧
      ∃ entry, ⟨.codeTake h, some entry⟩ ∈ d.before := by
  refine ⟨?_, ?_⟩
  · rintro h ⟨hh, hne⟩
    have hnext : Chain s.log h row.tokenHash := by
      rcases Relation.ReflTransGen.total_of_right_unique (rotates_rightUnique hsha hrun) hh hchain
        with hto | hfrom
      · exact hto
      · exact absurd (chain_last hsha hrun hrow hfrom).symm hne
    rcases Relation.ReflTransGen.cases_head hnext with rfl | ⟨h', ⟨d, hd, row', token, hstores, -, hmem⟩, -⟩
    · exact absurd rfl hne
    · exact ⟨d, hd, by rw [hstores.req_eq]; rfl, token, hmem⟩
  · rintro h rfl
    exact ⟨root, hroot.mem, by rw [hroot.stores.req_eq]; rfl, entry, hroot.redeems⟩

end

theorem take_ends {presented} (hsha : Function.Injective app.crates.sha256)
    (hreached : (gateway app cfg).Reachable (.init wall) s)
    (he : s.entries[i]? = some ⟨.revoke presented, trail, .running (.await (.refreshTake hash) k)⟩)
    (hserve : serve cfg s.shared o (.refreshTake hash) = some (.ok (some found), s'.shared))
    (hstep : (gateway app cfg).step s (.serve i o) = some s') :
    ∃ root first codeHash entry, Root s.log root first codeHash entry ∧
      Chain s.log first.tokenHash hash ∧
      Extinct (Ended (chainOf first s.log) {codeHash}) (fun r => r.kind = .refreshUpsert)
        (Renews (chainOf first s.log) {codeHash}) s' := by
  obtain ⟨as, hrun⟩ := hreached
  have hsound := sound_of_run hrun
  -- the chain of the token
  obtain ⟨⟨row, hrow, rfl, -⟩, hgone⟩ := @serve_refreshTake cfg s.shared s'.shared o _ _ hserve
  obtain ⟨d, hd, put, hput, rfl⟩ := rows_passage.put_of_has (by rintro row ⟨⟩) hrun hrow
  obtain ⟨root, first, codeHash, entry, hroot, hchain⟩ := chain_rooted hrun hd hput
  refine ⟨root, first, codeHash, entry, hroot, hchain, ?_⟩
  have hspent := chainOf_spent hsha hrun hroot hrow hchain
  have hlog : s.log <+: s'.log := (step_extends hstep).2
  -- who has another token of the chain, or its code, has stored the next token
  have hstored : ∀ {j : ℕ} {es : AuthTrail} {e}, (gateway app cfg).Seen s.log j es → e ∈ es →
      Gets (chainOf first s.log) {codeHash} e →
      ∃ d ∈ s.log, d.task = j ∧ d.req.kind = .refreshUpsert := by
    intro j es e hseen he hgets
    have hgets' : Gets (chainOf first s.log \ {put.stored.tokenHash}) {codeHash} e := by
      cases hgets with
      | token hH =>
        refine .token ⟨hH, ?_⟩
        rintro rfl
        obtain ⟨es', t, htake, -⟩ := hseen.deed he (by rintro ⟨⟩)
        exact not_taken hsha hrun hrow htake .mk
      | code hK => exact .code hK
    exact taker_eq hsha hrun hseen he hgets' hspent
  cases step_moves hstep with
  | serve he' hserve' =>
    rw [he] at he'
    cases he'
    refine ⟨⟨fun row hrow' hmem => ?_, ?_, ?_⟩, ?_, ?_⟩
    · -- the token was the stored one of the chain
      rcases serve_rows hserve hrow' with hold | ⟨_, ⟨⟩, -⟩
      have hhash := chain_single hsha hrun hold hrow hmem hchain
      exact Table.get_eq_none.mp hgone row hrow' hhash
    · intro h hh
      obtain ⟨d, hd, hstores⟩ := chain_stored hroot hh
      exact ⟨d, hlog.subset hd, hstores⟩
    · rintro h rfl
      obtain ⟨t, es, htake⟩ := executed_of_before hrun hroot.mem hroot.redeems (by rintro ⟨⟩)
      exact ⟨_, hlog.subset htake, entry, .mk⟩
    · rintro j f p hf hp ⟨⟨form, hcall⟩, ⟨e, hmem, hgets⟩, hnone⟩
      rcases entry_set_cases he hf with ⟨-, rfl⟩ | ⟨-, hf⟩
      · cases hcall
      · obtain ⟨d, hd, rfl, hkind⟩ := hstored (hsound.seen j f hf) hmem hgets
        obtain ⟨x, hinitial⟩ := hsound.exchange_of_log hd hf hp
        have hin : ⟨d.req, x⟩ ∈ f.trail := hinitial.subset List.mem_concat_self
        exact hnone _ hin hkind
    · rintro l hl hkind f hf ⟨-, ⟨e, hmem, hgets⟩, -⟩
      obtain ⟨d, hd, htask, hkind'⟩ := hstored (hsound.seen_of_issued (hsound.late l hl)) hmem hgets
      exact store_singular.not_late hsound hd (by rw [hkind']; exact List.mem_cons_self) hl
        (by rw [hkind]; exact List.mem_cons_self) htask

end

/-! ## Sessions -/

variable {es : AuthTrail} {id : SessionId}

theorem Origin.not_insert {auth} {c : HttpCall} {identity birth} (h : Origin app auth c es identity birth) :
    ∀ e ∈ es, insertsSession e = false := by
  cases h with
  | login => simp [insertsSession]
  | grant h => cases h <;> simp [insertsSession]

/-- How the endpoints use the session store. -/
theorem gateway_discipline (c : HttpCall) : SessionDiscipline (c.code app) where
  insert h := by
    obtain ⟨p⟩ := issues_insertSession h
    have horigin : p.origin.any insertsSession = false :=
      List.any_eq_false.mpr fun e he => by rw [p.got.not_insert e he]; exact Bool.false_ne_true
    rw [p.trail]
    simp [creating, drawsId, horigin, insertsSession]
  fill h := issues_fill h

theorem issues_revoke_session {presented}
    (h : Issues (HttpCall.code app (.revoke presented)) es (.revokeSession id)) :
    ∃ token claims, ⟨.jwtVerify token, some claims⟩ ∈ es ∧ claims.sid = id := by
  simp [revoke, SessionStore.revoke] at h
  obtain ⟨token, -, auth, -, htake | ⟨es₁, _, claims, rfl, -, hid⟩⟩ := h
  · have hkind := (within_take (List.Subset.refl _)).issues htake
    simp [OfKind] at hkind
  · exact ⟨token, claims, List.mem_concat_self, hid.symm⟩

theorem yields_revoke {presented} (h : Yields (HttpCall.code app (.revoke presented)) es .ok)
    (hmem : ⟨.revokeSession id, .ok ()⟩ ∈ es) :
    ∃ es', es = es' ++ [⟨.revokeSession id, .ok ()⟩, ⟨.cacheRemove id, ()⟩] := by
  simp [revoke, SessionStore.revoke] at h
  obtain ⟨token, auth, es₁, _, es₂, rfl, -, -, htake, hrest⟩ := h
  have hmem₂ : ⟨.revokeSession id, .ok ()⟩ ∈ es₂ := by
    refine (List.mem_append.mp hmem).resolve_left fun hmem₁ => ?_
    have hkind := (within_take (List.Subset.refl _)).yields htake _ hmem₁
    simp [OfKind] at hkind
  rcases hrest with rfl | ⟨claims, es₃, rfl, _, ⟨_, rfl, -⟩ | ⟨⟨_, _, rfl⟩, -⟩⟩
  · simp at hmem₂
  · simp at hmem₂
  · simp at hmem₂
    subst hmem₂
    exact ⟨es₁ ++ [⟨.jwtVerify token, some claims⟩], by simp⟩

theorem sid_used {s : AuthPool HttpCall Response} {as}
    (hrun : run (gateway app cfg).step (start (.init wall)) as = some s) {i : ℕ} {t : Stamp}
    {token : String} {claims : SessionClaims}
    (h : s.Executed i t (.jwtVerify token) (some claims)) : claims.sid ∈ s.shared.usedIds := by
  have hsound := sound_of_run hrun
  obtain ⟨es, hd⟩ := h
  obtain ⟨l₁, l₂, hlog⟩ := List.append_of_mem hd
  obtain ⟨jwt, hshows, d, hd₁, hputs⟩ := jwts_passage.shown_of_log (by rintro jwt ⟨⟩) hrun hlog
    ⟨⟨token, claims⟩, .mk⟩
  have hd' : d ∈ s.log := by
    rw [hlog]
    exact List.mem_append_left _ hd₁
  obtain ⟨⟨task, before, req⟩, stamp, reply⟩ := d
  cases hshows
  cases hputs
  obtain ⟨e, -, -, hissues⟩ := hsound.log _ hd'
  obtain ⟨p⟩ := issues_jwtIssue hissues
  obtain ⟨t', es', hdraw⟩ := executed_of_before hrun hd' p.drewId (by rintro ⟨⟩)
  exact (ids_fresh.drawn hrun).used _ hdraw _ .mk

theorem Finds.shows {now : ℤ} {session : Session} (h : Finds id now es session) :
    ∃ es₁ r x es₂, es = es₁ ++ ⟨r, x⟩ :: es₂ ∧ ¬ Unseen id r x := by
  cases h with
  | cached => exact ⟨[], _, _, [], rfl, fun hunseen => hunseen.1 _ _ rfl⟩
  | read hactive =>
    exact ⟨[_], _, _, [_], rfl, fun hunseen =>
      hunseen.2 _ rfl (Session.isActive_iff.mp hactive).1⟩

/-! ## Revoked tokens -/

section

variable {auth : AuthFacade} {as₁ as₂ : List (Act HttpCall Choice)}
  {s₁ s₂ : AuthPool HttpCall Response} {i : ℕ} {token : String} {trail : AuthTrail}

/-- A refresh token that `/revoke` deletes: no later `/token` call redeems a token of its
    chain. -/
theorem chain_ends (hauth : app.auth = some auth) (hdb : auth.refresh.backend = .db)
    (hsha : Function.Injective app.crates.sha256)
    (h₁ : run (gateway app cfg).step (start (.init wall)) as₁ = some s₁)
    (hrevoked : s₁.entries[i]? = some ⟨.revoke (some token), trail, .returned .ok⟩)
    (h₂ : run (gateway app cfg).step s₁ as₂ = some s₂) {found}
    (hfound : ⟨.refreshTake (hashSecret app.crates.sha256 token), .ok (some found)⟩ ∈ trail)
    {root : AuthDeed} {first : RefreshRow} {hash : Digest} {entry : AuthCode}
    (hroot : Root s₂.log root first hash entry)
    (hchain : Chain s₂.log first.tokenHash (hashSecret app.crates.sha256 token)) {token' : String}
    {j : ℕ} (hchain' : Chain s₂.log first.tokenHash (hashSecret app.crates.sha256 token'))
    (hj : s₁.entries.length ≤ j) : ¬ Redeemed s₂ j token' := by
  -- the moment of the DELETE
  obtain ⟨es, rest, rfl⟩ := List.append_of_mem hfound
  have hdelete : es ++ [⟨.refreshTake (hashSecret app.crates.sha256 token), .ok (some found)⟩] <+:
      es ++ ⟨.refreshTake (hashSecret app.crates.sha256 token), .ok (some found)⟩ :: rest := by simp
  obtain ⟨m, hcall⟩ := exists_moment h₁ hrevoked hdelete (by rintro ⟨⟩) (by rintro e ⟨⟩)
  have hreached : (gateway app cfg).Reachable (.init wall) m.now := ⟨_, m.run⟩
  obtain ⟨root', first', hash', entry', hroot', hchain₀, hended⟩ :=
    take_ends hsha hreached (hcall ▸ m.entry) m.serve m.step
  have hreached' := hreached.step m.step
  have hleads : run (gateway app cfg).step m.next (m.after ++ as₂) = some s₂ := by
    rw [run_append, m.leads]
    exact h₂
  obtain ⟨as, hrun⟩ := hreached'.run hleads
  have hlog := (step_extends m.step).2.trans (run_extends hleads).2
  obtain ⟨-, rfl⟩ := root_unique hrun hsha (hroot'.mono hlog.subset) hroot
    (hchain₀.mono hlog.subset) hchain
  have hclosed : ∀ d ∈ m.next.log, ∀ row, PutsRow d.req d.reply row → ∀ e ∈ d.before,
      Gets (chainOf first' m.now.log) {hash'} e → row.tokenHash ∈ chainOf first' m.now.log := by
    intro d hd row hstores e he hgets
    rw [m.log] at hd
    rcases Indexed.mem_concat_cases hd with rfl | hd
    · cases hstores
    · exact chainOf_closed hsha m.run hroot' hd hstores he hgets
  intro hredeemed
  exact not_redeemed_of_ended hsha hauth hdb hreached' hended hclosed hleads hroot rfl
    (le_trans (run_extends m.leads).1.length_le hj) hredeemed hchain'

/-- A session that `/revoke` revokes without a race: no lookup that starts later finds it. -/
theorem session_ends (h₁ : run (gateway app cfg).step (start (.init wall)) as₁ = some s₁)
    (hrevoked : s₁.entries[i]? = some ⟨.revoke (some token), trail, .returned .ok⟩)
    (h₂ : run (gateway app cfg).step s₁ as₂ = some s₂) {id}
    (hupdated : ⟨.revokeSession id, .ok ()⟩ ∈ trail)
    (hcalm : Meets (gateway app cfg).step (fun s a => calmRevoke i id s a = true)
      (start (.init wall)) as₁) {j : ℕ} {e : Entry AuthReq AuthResp HttpCall Response}
    (he : s₂.entries[j]? = some e) {es es' es''} (htrail : e.trail = es ++ es' ++ es'')
    (hlater : ∀ e₀, s₁.entries[j]? = some e₀ → e₀.trail <+: es) (identity : Identity) :
    ¬ Yields (SessionStore.lookup id) es' (.ok identity) := by
  have hknown : ∀ as s trail k, run (gateway app cfg).step (start (.init wall)) as = some s →
      s.entries[i]? = some ⟨.revoke (some token), trail, .running (.await (.revokeSession id) k)⟩ →
        id ∈ s.shared.usedIds := by
    intro as s trail k hrun he
    have hissues : Issues (HttpCall.code app (.revoke (some token))) trail (.revokeSession id) :=
      ((sound_of_run hrun).traced i _ he).running.issues
    obtain ⟨jwt, claims, hverified, rfl⟩ := issues_revoke_session hissues
    obtain ⟨t, hexecuted⟩ := executed_of_trail hrun he hverified (by rintro ⟨⟩)
    exact sid_used hrun hexecuted
  obtain ⟨es₀, hes₀⟩ := yields_revoke ((sound_of_run h₁).yields hrevoked) hupdated
  have hdead : SessionExtinct (HttpCall.code app) id s₁ :=
    extinct_of_revoke gateway_discipline h₁ hcalm hrevoked hknown (by rw [hes₀])
  intro hyields
  obtain ⟨now, es₁, session, rfl, hfinds, -⟩ := yields_lookup hyields
  obtain ⟨es₂, r, x, es₃, rfl, hshows⟩ := hfinds.shows
  have hshown : (es ++ ⟨.utcNow, now⟩ :: es₂) ++ [⟨r, x⟩] <+: e.trail := by
    rw [htrail]
    simp
  exact hshows (hdead.unseen gateway_discipline ⟨_, h₁⟩ h₂ he hshown
    fun e₀ he₀ => (hlater e₀ he₀).trans (List.prefix_append _ _))

/-- If `/revoke` deletes the presented refresh token, its chain ends; if it revokes the session
    of the presented JWT and nothing races with that, the session is not accepted any more. -/
theorem revoke_ends (hauth : app.auth = some auth) (hdb : auth.refresh.backend = .db)
    (hsha : Function.Injective app.crates.sha256)
    (h₁ : run (gateway app cfg).step (start (.init wall)) as₁ = some s₁)
    (hrevoked : s₁.entries[i]? = some ⟨.revoke (some token), trail, .returned .ok⟩)
    (h₂ : run (gateway app cfg).step s₁ as₂ = some s₂) :
    (∀ found, ⟨.refreshTake (hashSecret app.crates.sha256 token), .ok (some found)⟩ ∈ trail →
      ∀ root first hash entry, Root s₂.log root first hash entry →
      Chain s₂.log first.tokenHash (hashSecret app.crates.sha256 token) →
      ∀ token' j, Chain s₂.log first.tokenHash (hashSecret app.crates.sha256 token') →
        s₁.entries.length ≤ j → ¬ Redeemed s₂ j token') ∧
    ∀ claims, ⟨.jwtVerify token, some claims⟩ ∈ trail → ⟨.revokeSession claims.sid, .ok ()⟩ ∈ trail →
      Meets (gateway app cfg).step (fun s a => calmRevoke i claims.sid s a = true)
        (start (.init wall)) as₁ →
      ∀ (j : ℕ) e, s₂.entries[j]? = some e → ∀ es es' es'', e.trail = es ++ es' ++ es'' →
        (∀ e₀, s₁.entries[j]? = some e₀ → e₀.trail <+: es) →
        ∀ identity, ¬ Yields (SessionStore.lookup claims.sid) es' (.ok identity) :=
  ⟨fun _ hfound _ _ _ _ hroot hchain _ _ hchain' hj =>
      chain_ends hauth hdb hsha h₁ hrevoked h₂ hfound hroot hchain hchain' hj,
    fun _ _ hupdated hcalm _ _ he _ _ _ htrail hlater identity =>
      session_ends h₁ hrevoked h₂ hupdated hcalm he htrail hlater identity⟩

end

/-! ### Revocations by alice -/

def takesToken (hash : Digest) : Exchange AuthReq AuthResp → Bool
  | ⟨.refreshTake h, .ok (some _)⟩ => h = hash
  | _ => false

theorem exists_taken {hash : Digest} {es : AuthTrail} (h : es.any (takesToken hash) = true) :
    ∃ found, ⟨.refreshTake hash, .ok (some found)⟩ ∈ es := by
  obtain ⟨e, he, htakes⟩ := List.any_eq_true.mp h
  unfold takesToken at htakes
  split at htakes
  · cases of_decide_eq_true htakes
    exact ⟨_, he⟩
  · cases htakes

/-- One token was exchanged for the other. -/
def rotated (h h' : Digest) (log : List AuthDeed) : Bool :=
  log.any fun d => match d with
    | ⟨⟨_, before, .refreshUpsert row⟩, _, .ok ()⟩ =>
      decide (row.tokenHash = h') && before.any (takesToken h)
    | _ => false

theorem rotates_of_rotated {h h' : Digest} {log} (hrotated : rotated h h' log = true) :
    Rotates log h h' := by
  obtain ⟨d, hd, hrotates⟩ := List.any_eq_true.mp hrotated
  split at hrotates
  · rw [Bool.and_eq_true, decide_eq_true_eq] at hrotates
    obtain ⟨token, htaken⟩ := exists_taken hrotates.2
    exact ⟨_, hd, _, token, .mk, hrotates.1, htaken⟩
  · cases hrotates

def verifies (token : String) (id : SessionId) : Exchange AuthReq AuthResp → Bool
  | ⟨.jwtVerify t, some claims⟩ => t = token && claims.sid = id
  | _ => false

theorem exists_verified {token : String} {id} {es : AuthTrail}
    (h : es.any (verifies token id) = true) :
    ∃ claims, ⟨.jwtVerify token, some claims⟩ ∈ es ∧ claims.sid = id := by
  obtain ⟨e, he, hverifies⟩ := List.any_eq_true.mp h
  unfold verifies at hverifies
  split at hverifies
  · rw [Bool.and_eq_true, decide_eq_true_eq, decide_eq_true_eq] at hverifies
    cases hverifies.1
    exact ⟨_, he, hverifies.2⟩
  · cases hverifies

def updates (id : SessionId) : Exchange AuthReq AuthResp → Bool
  | ⟨.revokeSession id', .ok ()⟩ => id' = id
  | _ => false

theorem mem_of_updates {id} {es : AuthTrail} (h : es.any (updates id) = true) :
    ⟨.revokeSession id, .ok ()⟩ ∈ es := by
  obtain ⟨e, he, hupdates⟩ := List.any_eq_true.mp h
  unfold updates at hupdates
  split at hupdates
  · cases of_decide_eq_true hupdates
    exact he
  · cases hupdates

def aliceRevoke (token : String) (n : ℕ) : List (Act HttpCall Choice) :=
  aliceLogin ++ .arrive (.revoke (some token)) :: goes 3 n

/-- The session of alice is used. -/
def aliceCall : HttpCall := .mcp (some "Bearer j")

theorem revoke_ends_alice :
    (∃ s₁ s₂, run (gateway demo .default).step (start (.init 0)) (aliceRevoke "r" 3) = some s₁ ∧
      s₁.answer 3 = some (.revoke (some "r"), .ok) ∧
      run (gateway demo .default).step s₁ (aliceRetry 4) = some s₂ ∧
      wasStored (hashSecret demo.crates.sha256 "r") s₁.log = true ∧ ¬ Redeemed s₂ 4 "r") ∧
    ∃ s₁ s₂ e, run (gateway demo .default).step (start (.init 0)) (aliceRevoke "j" 4) = some s₁ ∧
      s₁.answer 3 = some (.revoke (some "j"), .ok) ∧
      run (gateway demo .default).step s₁ (.arrive aliceCall :: goes 4 6) = some s₂ ∧
      s₂.entries[4]? = some e ∧ ∀ es es' es'' identity, e.trail = es ++ es' ++ es'' →
        ¬ Yields (SessionStore.lookup 1) es' (.ok identity) := by
  have hrefresh : ((run (gateway demo .default).step (start (.init 0)) (aliceRevoke "r" 3)).bind
      fun s₁ => (run (gateway demo .default).step s₁ (aliceRetry 4)).map fun s₂ =>
        decide (s₁.answer 3 = some (.revoke (some "r"), .ok)) && decide (s₁.entries.length = 4) &&
        (s₁.entries[3]?).any
          (fun e => e.trail.any (takesToken (hashSecret demo.crates.sha256 "r"))) &&
        wasStored (hashSecret demo.crates.sha256 "r") s₁.log) = some true := by
    decide +kernel
  have hsession : ((run (gateway demo .default).step (start (.init 0)) (aliceRevoke "j" 4)).bind
      fun s₁ => (run (gateway demo .default).step s₁ (.arrive aliceCall :: goes 4 6)).bind fun s₂ =>
      s₂.entries[4]?.map fun _ =>
        decide (s₁.answer 3 = some (.revoke (some "j"), .ok)) && decide (s₁.entries.length = 4) &&
        checks (gateway demo .default).step (calmRevoke 3 1) (start (.init 0)) (aliceRevoke "j" 4) &&
        (s₁.entries[3]?).any (fun e => e.trail.any (verifies "j" 1) && e.trail.any (updates 1))) =
      some true := by
    decide +kernel
  constructor
  · obtain ⟨s₁, h₁, hchecks⟩ := Option.bind_eq_some_iff.mp hrefresh
    obtain ⟨s₂, h₂, hchecks⟩ := Option.map_eq_some_iff.mp hchecks
    simp only [Bool.and_eq_true, decide_eq_true_eq] at hchecks
    obtain ⟨⟨⟨hrevoked, hlength⟩, htaken⟩, hstored⟩ := hchecks
    refine ⟨s₁, s₂, h₁, hrevoked, h₂, hstored, ?_⟩
    obtain ⟨trail, he⟩ := answer_eq_some.mp hrevoked
    rw [he] at htaken
    obtain ⟨found, hfound⟩ := exists_taken htaken
    obtain ⟨as₂, hrun₂⟩ := Reachable.run ⟨_, h₁⟩ h₂
    obtain ⟨root, first, hash, entry, hroot, hchain⟩ :=
      rooted_of_wasStored hrun₂ (run_extends h₂).2 hstored
    exact (revoke_ends rfl rfl Function.injective_id h₁ he h₂).1 found hfound root first hash entry
      hroot hchain "r" 4 hchain (by rw [hlength])
  · obtain ⟨s₁, h₁, hchecks⟩ := Option.bind_eq_some_iff.mp hsession
    obtain ⟨s₂, h₂, hchecks⟩ := Option.bind_eq_some_iff.mp hchecks
    obtain ⟨e, he₂, hchecks⟩ := Option.map_eq_some_iff.mp hchecks
    simp only [Bool.and_eq_true, decide_eq_true_eq] at hchecks
    obtain ⟨⟨⟨hrevoked, hlength⟩, hcalm⟩, htrail⟩ := hchecks
    refine ⟨s₁, s₂, e, h₁, hrevoked, h₂, he₂, fun es es' es'' identity hsplit => ?_⟩
    obtain ⟨trail, he⟩ := answer_eq_some.mp hrevoked
    rw [he, Option.any_some, Bool.and_eq_true] at htrail
    obtain ⟨claims, hverified, hsid⟩ := exists_verified htrail.1
    have hupdated := mem_of_updates htrail.2
    rw [← hsid] at hcalm hupdated ⊢
    refine (revoke_ends rfl rfl Function.injective_id h₁ he h₂).2 claims hverified hupdated
      (meets_of_checks hcalm) 4 e he₂ es es' es'' hsplit ?_ identity
    rw [List.getElem?_eq_none (by rw [hlength])]
    rintro e₀ ⟨⟩

/-- A refresh takes the token after `/revoke` arrived and before its DELETE. `/revoke` answers
    `200`, and the next token of the chain is redeemed. -/
theorem refresh_after_revoke : ∃ s₀ s₁ s₂ root first hash entry,
    run (gateway demo .default).step (start (.init 0)) aliceLogin = some s₀ ∧
    (∃ row ∈ s₀.shared.refresh.rows, row.tokenHash = hashSecret demo.crates.sha256 "r" ∧
      timestamptz s₀.shared.wall < row.expiresAt) ∧
    run (gateway demo .default).step s₀
      (.arrive (.revoke (some "r")) :: beginRefresh 4 "r" ++ goes 3 2) = some s₁ ∧
    s₁.answer 3 = some (.revoke (some "r"), .ok) ∧
    run (gateway demo .default).step s₁ (finishRefresh 4 2 "k" "q" ++ beginRefresh 5 "q" ++
      finishRefresh 5 3 "l" "p") = some s₂ ∧
    Root s₂.log root first hash entry ∧
    Chain s₂.log first.tokenHash (hashSecret demo.crates.sha256 "r") ∧
    Chain s₂.log first.tokenHash (hashSecret demo.crates.sha256 "q") ∧
    s₁.entries.length ≤ 5 ∧ Redeemed s₂ 5 "q" := by
  have hchecks : ((run (gateway demo .default).step (start (.init 0)) aliceLogin).bind fun s₀ =>
      (run (gateway demo .default).step s₀
        (.arrive (.revoke (some "r")) :: beginRefresh 4 "r" ++ goes 3 2)).bind fun s₁ =>
      (run (gateway demo .default).step s₁ (finishRefresh 4 2 "k" "q" ++ beginRefresh 5 "q" ++
        finishRefresh 5 3 "l" "p")).map fun s₂ =>
        decide (∃ row ∈ s₀.shared.refresh.rows, row.tokenHash = hashSecret demo.crates.sha256 "r" ∧
          timestamptz s₀.shared.wall < row.expiresAt) &&
        decide (s₁.answer 3 = some (.revoke (some "r"), .ok)) && decide (s₁.entries.length ≤ 5) &&
        decide (s₂.answer 5 = some (.token (refreshForm "q"), .tokens "l" 3600 "p")) &&
        wasStored (hashSecret demo.crates.sha256 "r") s₂.log &&
        rotated (hashSecret demo.crates.sha256 "r") (hashSecret demo.crates.sha256 "q") s₂.log) =
      some true := by
    decide +kernel
  obtain ⟨s₀, h₀, hchecks⟩ := Option.bind_eq_some_iff.mp hchecks
  obtain ⟨s₁, h₁, hchecks⟩ := Option.bind_eq_some_iff.mp hchecks
  obtain ⟨s₂, h₂, hchecks⟩ := Option.map_eq_some_iff.mp hchecks
  simp only [Bool.and_eq_true, decide_eq_true_eq] at hchecks
  obtain ⟨⟨⟨⟨⟨hlive, hrevoked⟩, hlength⟩, htokens⟩, hstored⟩, hrotated⟩ := hchecks
  obtain ⟨as₂, hrun₂⟩ := (Reachable.run ⟨_, h₀⟩ h₁).run h₂
  obtain ⟨root, first, hash, entry, hroot, hchain⟩ :=
    rooted_of_wasStored hrun₂ (List.prefix_refl _) hstored
  exact ⟨s₀, s₁, s₂, root, first, hash, entry, h₀, hlive, h₁, hrevoked, h₂, hroot, hchain,
    hchain.tail (rotates_of_rotated hrotated), hlength,
    ⟨refreshForm "q", _, _, _, htokens, rfl, rfl⟩⟩

end DbMcpGateway.Oauth
