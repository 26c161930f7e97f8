import DbMcpGateway.Async.Extinct
import DbMcpGateway.Oauth.Chains

/-!
# The end of refresh chains

A chain ends when its token is deleted and no `/token` request is on the way to the next one.
A request is, if it has taken a token or a code of the chain and has not stored a token yet;
an upsert that was left behind counts as well.

Results:

* `ended_confined`: tokens and codes that are gone do not come back.
* `not_redeemed_of_ended`: no later call redeems a token of a chain that ended.
-/

namespace DbMcpGateway.Oauth

open Async Async.Prog Async.Service Machine

variable {app : AppState} {cfg : SessionCacheConfig} {wall : ℤ} (H K : Set Digest)

/-- The exchange gives out one of the tokens `H` or of the codes `K`. -/
inductive Gets : Exchange AuthReq AuthResp → Prop
  | token {hash token} : hash ∈ H →
      Gets ⟨.refreshTake hash, .ok (some token)⟩
  | code {hash entry} : hash ∈ K → Gets ⟨.codeTake hash, some entry⟩

/-- A `/token` request that has one of them and has not stored the next token. -/
structure Renews (c : HttpCall) (es : AuthTrail) : Prop where
  call : ∃ form, c = .token form
  got : ∃ e ∈ es, Gets H K e
  stored : ∀ e ∈ es, e.1.kind ≠ .refreshUpsert

structure Ended (s : AuthState) (log : List AuthDeed) : Prop where
  gone : ∀ row ∈ s.refresh.rows, row.tokenHash ∉ H
  stored : ∀ hash ∈ H, ∃ d ∈ log, ∃ row, PutsRow d.req d.reply row ∧ row.tokenHash = hash
  taken : ∀ hash ∈ K, ∃ d ∈ log, ∃ entry, HitsCode d.req d.reply hash entry

/-- What happens to chains that ended: the tokens are not taken, and nothing is stored in
    exchange for them. -/
structure Over (d : AuthDeed) : Prop where
  takes : ∀ {hash token}, HitsRow d.req d.reply hash token → hash ∉ H
  stores : ∀ {row}, PutsRow d.req d.reply row → ∀ e ∈ d.before, ¬ Gets H K e

variable {H K} {s s' : AuthPool HttpCall Response}

theorem not_gets_failure {r : AuthReq} {x} (h : failure r = some x) : ¬ Gets H K ⟨r, x⟩ := by
  rintro (_ | _) <;> cases h

theorem Renews.of_concat {c : HttpCall} {es e}
    (h : Renews H K c (es ++ [e])) (he : ¬ Gets H K e) : Renews H K c es := by
  obtain ⟨hcall, ⟨e', he', hgets⟩, hstored⟩ := h
  refine ⟨hcall, ?_, fun e' he' => hstored e' (List.mem_append_left _ he')⟩
  rcases Indexed.mem_concat_cases he' with rfl | he'
  · exact absurd hgets he
  · exact ⟨e', he', hgets⟩

section

variable (hsha : Function.Injective app.crates.sha256) {l : Sent AuthReq AuthResp} {c : HttpCall}
  {o : Choice} {x : AuthResp l.req}

include hsha

/-- Nothing gives out what is gone. -/
theorem Ended.not_gets (hserves : (gateway app cfg).Serves (.init wall) s s' l c o x)
    (h : Ended H K s.shared s.log) : ¬ Gets H K ⟨l.req, x⟩ := by
  have hnot := hserves.not_mem
  obtain ⟨-, ⟨as, hrun⟩, -, hserve, hlog⟩ := hserves
  obtain ⟨task, before, r⟩ := l
  intro hgets
  cases hgets with
  | token hH =>
    obtain ⟨⟨row, hrow, rfl, -⟩, -⟩ := @serve_refreshTake cfg s.shared s'.shared o _ _ hserve
    exact h.gone row hrow hH
  | code hK =>
    obtain ⟨d, hd, entry, htakes⟩ := h.taken _ hK
    have hd' : d ∈ s'.log := by
      rw [hlog]
      exact List.mem_append_left _ hd
    have hdeed := codeTakes_unique hrun hsha hd' (by rw [hlog]; exact List.mem_concat_self) htakes .mk
    rw [hdeed] at hd
    exact hnot hd

/-- What is gone is not stored again: every token is stored once. -/
theorem Ended.serve (hserves : (gateway app cfg).Serves (.init wall) s s' l c o x)
    (h : Ended H K s.shared s.log) : Ended H K s'.shared s'.log := by
  have hnot := hserves.not_mem
  obtain ⟨-, ⟨as, hrun⟩, -, hserve, hlog⟩ := hserves
  have hmono : ∀ d ∈ s.log, d ∈ s'.log := by
    rw [hlog]
    exact fun d hd => List.mem_append_left _ hd
  refine ⟨fun row hrow hH => ?_, fun hash hH => ?_, fun hash hK => ?_⟩
  · rcases serve_rows hserve hrow with hold | ⟨put, hput, rfl⟩
    · exact h.gone row hold hH
    · obtain ⟨d, hd, row', hstores, hhash⟩ := h.stored _ hH
      have hnew : ⟨l, (gateway app cfg).stamp s.shared, x⟩ ∈ s'.log := by
        rw [hlog]
        exact List.mem_concat_self
      rw [@stores_unique _ _ _ _ _ hsha hrun _ _ row' put (hmono d hd) hnew hstores hput hhash] at hd
      exact hnot hd
  · obtain ⟨d, hd, hstores⟩ := h.stored hash hH
    exact ⟨d, hmono d hd, hstores⟩
  · obtain ⟨d, hd, htakes⟩ := h.taken hash hK
    exact ⟨d, hmono d hd, htakes⟩

/-- Tokens and codes that are gone do not come back. -/
theorem ended_confined : (gateway app cfg).Confined (.init wall) (Ended H K)
    (fun r => r.kind = .refreshUpsert) (Renews H K) where
  serve hserves h _ := h.serve hsha hserves
  get hserves h hidle hrenews := hidle (hrenews.of_concat (h.not_gets hsha hserves))
  fail hidle _ hfailure hrenews := hidle (hrenews.of_concat (not_gets_failure hfailure))
  nil := by
    rintro c ⟨-, ⟨e, he, -⟩, -⟩
    cases he
  accept h := ⟨h.gone, h.stored, h.taken⟩
  env h henv := by
    obtain ⟨wall, mono, -, rfl⟩ := tick_eq henv
    exact ⟨h.gone, h.stored, h.taken⟩

theorem Ended.over (hserves : (gateway app cfg).Serves (.init wall) s s' l c o x)
    (h : Ended H K s.shared s.log)
    (hidle : l.req.kind = .refreshUpsert → ¬ Renews H K c l.before) :
    Over H K ⟨l, (gateway app cfg).stamp s.shared, x⟩ := by
  have hgets := h.not_gets hsha hserves
  obtain ⟨task, before, r⟩ := l
  refine ⟨?_, ?_⟩
  · rintro hash token ⟨⟩ hH
    exact hgets (.token hH)
  · rintro row ⟨⟩ e he hgets'
    obtain ⟨p⟩ := issues_upsert hserves.pending.issues
    exact hidle rfl ⟨⟨p.form, p.call⟩, ⟨e, he, hgets'⟩, fun e he hkind =>
      p.not_store e he (by rw [hkind]; exact List.mem_cons_self)⟩

variable {s₁ s₂ : AuthPool HttpCall Response} {as : List (Act HttpCall Choice)} {auth : AuthFacade}
  (hauth : app.auth = some auth) (hdb : auth.refresh.backend = .db)
  (hreached : (gateway app cfg).Reachable (.init wall) s₁)
  (hended : Extinct (Ended H K) (fun r => r.kind = .refreshUpsert) (Renews H K) s₁)
  (hclosed : ∀ d ∈ s₁.log, ∀ row, PutsRow d.req d.reply row → ∀ e ∈ d.before, Gets H K e →
    row.tokenHash ∈ H)
  (hrun : run (gateway app cfg).step s₁ as = some s₂)

include hreached hended hclosed hrun

/-- What is stored in exchange for the tokens and the codes is among the tokens. -/
theorem mem_of_gets {d : AuthDeed} (hd : d ∈ s₂.log) {row : RefreshRow}
    (hstores : PutsRow d.req d.reply row) {e} (he : e ∈ d.before)
    (hgets : Gets H K e) : row.tokenHash ∈ H := by
  obtain ⟨rest, hlog, hrest⟩ := hended.log (ended_confined hsha) hreached
    (fun hserves h hidle => h.over hsha hserves hidle) hrun
  rw [hlog] at hd
  rcases List.mem_append.mp hd with hd | hd
  · exact hclosed d hd row hstores e he hgets
  · exact absurd hgets ((hrest d hd).stores hstores e he)

theorem mem_of_chain {root : AuthDeed} {first : RefreshRow} {hash : Digest} {entry : AuthCode}
    (hroot : Root s₂.log root first hash entry) (hhash : hash ∈ K) {h : Digest}
    (hchain : Chain s₂.log first.tokenHash h) : h ∈ H := by
  induction hchain with
  | refl =>
    exact mem_of_gets hsha hreached hended hclosed hrun hroot.mem hroot.stores hroot.redeems
      (.code hhash)
  | tail _ hrotates ih =>
    obtain ⟨d, hd, row, token, hstores, rfl, hmem⟩ := hrotates
    exact mem_of_gets hsha hreached hended hclosed hrun hd hstores hmem (.token ih)

include hauth hdb

theorem not_redeemed_of_ended {root : AuthDeed} {first : RefreshRow} {hash : Digest}
    {entry : AuthCode} (hroot : Root s₂.log root first hash entry) (hhash : hash ∈ K) {j : ℕ}
    {token : String} (hj : s₁.entries.length ≤ j) (hredeemed : Redeemed s₂ j token) :
    ¬ Chain s₂.log first.tokenHash (hashSecret app.crates.sha256 token) := by
  intro hchain
  obtain ⟨as₂, hrun₂⟩ := hreached.run hrun
  obtain ⟨t, -, found, -, ⟨es, htake⟩, -⟩ := redeemed_take hauth hdb hrun₂ hredeemed
  have hover : Over H K _ := hended.executed (ended_confined hsha) hreached
    (fun hserves h hidle => h.over hsha hserves hidle) hrun htake hj
  exact hover.takes .mk (mem_of_chain hsha hreached hended hclosed hrun hroot hhash hchain)

end

end DbMcpGateway.Oauth
