import DbMcpGateway.Oauth.Endings

/-!
# Logouts

`/auth/logout` deletes the refresh tokens of the user. A refresh that has taken its token
before the DELETE and stores the next one after it outlives the logout
(`refresh_after_logout`), and so do all tokens if the DELETE fails. If the DELETE succeeds and
no `/token` request of the user is on the way then, the chains of the user end
(`logout_ends_renewal`).

Results:

* `purge_ends`: such a DELETE ends the chains.
* `logout_ends_renewal`: no later call redeems a token of them.
-/

namespace DbMcpGateway.Oauth

open Async Async.Prog Async.Service Machine

/-! ## Renewals under way -/

def grantsTo (u : String) : Exchange AuthReq AuthResp → Bool
  | ⟨.refreshTake _, .ok (some token)⟩ => token.identity.sub = u
  | ⟨.codeTake _, some entry⟩ => entry.identity.sub = u
  | _ => false

/-- The call has a token or a code of the user and has not stored the next token. -/
def renewing (u : String) (es : AuthTrail) : Bool :=
  es.any (grantsTo u) && es.all fun e => e.1.kind ≠ .refreshUpsert

def isToken : HttpCall → Bool
  | .token _ => true
  | _ => false

/-- No token of the user is about to be stored. -/
def noRenewal (u : String) (s : AuthPool HttpCall Response) : Bool :=
  quiet isToken (renewing u) (fun r => r.kind = .refreshUpsert) s

/-- Nothing races with the DELETE of the tokens of the user by call `i`. -/
def calmPurge (i : ℕ) (u : String) (s : AuthPool HttpCall Response) : Act HttpCall Choice → Bool
  | .serve j _ => j ≠ i || match s.waits i with
    | some (.refreshPurge u') => u' ≠ u || noRenewal u s
    | _ => true
  | _ => true

/-- The tokens of the user that were stored. -/
def tokensOf (u : String) (log : List AuthDeed) : Set Digest :=
  {hash | ∃ d ∈ log, ∃ row, PutsRow d.req d.reply row ∧ row.tokenHash = hash ∧ row.userSub = u}

/-- The codes of the user that were taken. -/
def codesOf (u : String) (log : List AuthDeed) : Set Digest :=
  {hash | ∃ d ∈ log, ∃ entry, HitsCode d.req d.reply hash entry ∧ entry.identity.sub = u}

variable {app : AppState} {cfg : SessionCacheConfig} {wall : ℤ} {u : String}

/-- What is stored in exchange for a token or a code of the user is theirs. -/
theorem userSub_of_grantsTo {c : HttpCall} {es} {row : RefreshRow}
    (h : Issues (c.code app) es (.refreshUpsert row)) {e} (he : e ∈ es)
    (hgrants : grantsTo u e = true) : row.userSub = u := by
  unfold grantsTo at hgrants
  split at hgrants
  · rw [← of_decide_eq_true hgrants, ← (carries_of_take h he).row row rfl]
    rfl
  · rw [← of_decide_eq_true hgrants, ← (carries_of_code h he).row row rfl]
    rfl
  · cases hgrants

section

variable {s : AuthPool HttpCall Response} {as : List (Act HttpCall Choice)}
  (hsha : Function.Injective app.crates.sha256)
  (hrun : run (gateway app cfg).step (start (.init wall)) as = some s)

include hsha hrun

theorem grantsTo_of_gets {i : ℕ} {trail} (hseen : (gateway app cfg).Seen s.log i trail)
    {e} (he : e ∈ trail)
    (hgets : Gets (tokensOf u s.log) (codesOf u s.log) e) : grantsTo u e = true := by
  cases hgets with
  | token hH =>
    obtain ⟨d, hd, row, hstores, rfl, rfl⟩ := hH
    obtain ⟨es, t, htake, -⟩ := hseen.deed he (by rintro ⟨⟩)
    obtain ⟨l₁, l₂, hlog⟩ := List.append_of_mem htake
    obtain ⟨d₀, hd₀, row₀, hstores₀, hhash, rfl, -⟩ := taken_stored hrun hlog .mk
    have hd₀' : d₀ ∈ s.log := by
      rw [hlog]
      exact List.mem_append_left _ hd₀
    cases stores_row_eq hsha hrun hd₀' hd hstores₀ hstores hhash
    exact decide_eq_true rfl
  | code hK =>
    obtain ⟨d, hd, entry, htakes, rfl⟩ := hK
    obtain ⟨es, t, htake, -⟩ := hseen.deed he (by rintro ⟨⟩)
    cases codeTakes_unique hrun hsha htake hd .mk htakes
    cases htakes
    exact decide_eq_true rfl

theorem renewing_of_renews {i : ℕ} {c : HttpCall} {trail}
    (hseen : (gateway app cfg).Seen s.log i trail)
    (h : Renews (tokensOf u s.log) (codesOf u s.log) c trail) : renewing u trail = true := by
  obtain ⟨-, ⟨e, he, hgets⟩, hstored⟩ := h
  rw [renewing, Bool.and_eq_true, List.any_eq_true, List.all_eq_true]
  exact ⟨⟨e, he, grantsTo_of_gets hsha hrun hseen he hgets⟩, fun e he => decide_eq_true (hstored e he)⟩

theorem tokensOf_closed {d : AuthDeed} (hd : d ∈ s.log) {row : RefreshRow}
    (hstores : PutsRow d.req d.reply row) {e} (he : e ∈ d.before)
    (hgets : Gets (tokensOf u s.log) (codesOf u s.log) e) : row.tokenHash ∈ tokensOf u s.log := by
  have hsound := sound_of_run hrun
  have hissued := hsound.log d hd
  have hgrants := grantsTo_of_gets hsha hrun (hsound.seen_of_issued hissued) he hgets
  obtain ⟨_, -, -, hissues⟩ := hissued
  rw [hstores.req_eq] at hissues
  exact ⟨d, hd, row, hstores, rfl, userSub_of_grantsTo hissues he hgrants⟩

theorem userSub_of_mem {row : RefreshRow} (hrow : row ∈ s.shared.refresh.rows)
    (h : row.tokenHash ∈ tokensOf u s.log) : row.userSub = u := by
  obtain ⟨d, hd, row', hstores, hhash, rfl⟩ := h
  obtain ⟨d₀, hd₀, put, hput, rfl⟩ := rows_passage.put_of_has (by rintro row ⟨⟩) hrun hrow
  rw [stores_row_eq hsha hrun hd hd₀ hstores hput hhash]
  rfl

end

/-- The DELETE of the tokens of the user ends the chains of the user. -/
theorem purge_ends {s s' : AuthPool HttpCall Response} {c : HttpCall} {i : ℕ} {trail}
    {k : AuthResp (.refreshPurge u) → AuthProg Response} {o : Choice}
    (hsha : Function.Injective app.crates.sha256)
    (hreached : (gateway app cfg).Reachable (.init wall) s)
    (he : s.entries[i]? = some ⟨c, trail, .running (.await (.refreshPurge u) k)⟩)
    (hcalm : noRenewal u s = true) (hstep : (gateway app cfg).step s (.serve i o) = some s') :
    Extinct (Ended (tokensOf u s'.log) (codesOf u s'.log)) (fun r => r.kind = .refreshUpsert)
      (Renews (tokensOf u s'.log) (codesOf u s'.log)) s' := by
  obtain ⟨as, hrun⟩ := hreached.step hstep
  have hsound := sound_of_run hrun
  obtain ⟨hidle, hlate⟩ := quiet_spec hcalm
  have hserved := step_moves hstep
  cases hserved with
  | @serve _ _ _ _ _ _ _ shared he' hserve =>
    rw [he] at he'
    cases he'
    cases hserve
    refine ⟨⟨fun row hrow hmem => ?_, ?_, ?_⟩, ?_, ?_⟩
    · have hsub := userSub_of_mem hsha hrun hrow hmem
      exact of_decide_eq_true (Table.mem_retain.mp hrow).2 hsub
    · rintro hash ⟨d, hd, row, hstores, hhash, -⟩
      exact ⟨d, hd, row, hstores, hhash⟩
    · rintro hash ⟨d, hd, entry, htakes, -⟩
      exact ⟨d, hd, entry, htakes⟩
    · intro j f p hf hp hrenews
      have hrenewing := renewing_of_renews hsha hrun (hsound.seen j f hf) hrenews
      obtain ⟨form, hcall⟩ := hrenews.call
      rcases entry_set_cases he hf with ⟨rfl, rfl⟩ | ⟨-, hf⟩
      · -- the logout is no `/token` request
        subst hcall
        have hissues : Issues (HttpCall.code app (.token form)) trail (.refreshPurge u) :=
          (hreached.sound.traced j _ he).running.issues
        have hkind := HttpCall.kind_mem hissues
        simp at hkind
      · rw [hidle j f p hf hp (by rw [hcall]; rfl)] at hrenewing
        cases hrenewing
    · intro l hl hupsert f hf hrenews
      have hrenewing := renewing_of_renews hsha hrun (hsound.seen_of_issued (hsound.late l hl)) hrenews
      rw [hlate l hl (decide_eq_true hupsert)] at hrenewing
      cases hrenewing

section

variable {auth : AuthFacade} {as₀ as₁ as₂ : List (Act HttpCall Choice)}
  {s₀ s₁ s₂ : AuthPool HttpCall Response} {authorization : Option String} {trail : AuthTrail}
  {purged j : ℕ} {root : AuthDeed} {first : RefreshRow} {hash : Digest} {entry : AuthCode}
  {token : String}

/-- After a logout whose DELETE succeeded and raced with nothing, no token of a chain of the
    user that was begun before the logout is redeemed. -/
theorem logout_ends_renewal (hauth : app.auth = some auth) (hdb : auth.refresh.backend = .db)
    (hsha : Function.Injective app.crates.sha256)
    (h₀ : run (gateway app cfg).step (start (.init wall)) as₀ = some s₀)
    (h₁ : run (gateway app cfg).step s₀ (.arrive (.logout authorization) :: as₁) = some s₁)
    (hcalm : Meets (gateway app cfg).step (fun s a => calmPurge s₀.entries.length u s a = true) s₀
      (.arrive (.logout authorization) :: as₁))
    (hanswer : s₁.entries[s₀.entries.length]? =
      some ⟨.logout authorization, trail, .returned .noContent⟩)
    (hpurged : ⟨.refreshPurge u, .ok purged⟩ ∈ trail)
    (h₂ : run (gateway app cfg).step s₁ as₂ = some s₂)
    (hroot : Root s₂.log root first hash entry) (hsub : first.userSub = u)
    (hborn : ∃ i t, s₀.Executed i t (.codeTake hash) (some entry))
    (hchain : Chain s₂.log first.tokenHash (hashSecret app.crates.sha256 token))
    (hj : s₁.entries.length ≤ j) : ¬ Redeemed s₂ j token := by
  -- the moment of the DELETE
  obtain ⟨es, rest, rfl⟩ := List.append_of_mem hpurged
  have hnone : s₀.entries[s₀.entries.length]? = none := List.getElem?_eq_none (Nat.le_refl _)
  have hdelete : es ++ [⟨.refreshPurge u, .ok purged⟩] <+:
      es ++ ⟨.refreshPurge u, .ok purged⟩ :: rest := by simp
  obtain ⟨m, -⟩ := exists_moment h₁ hanswer hdelete (by rintro ⟨⟩) (by rw [hnone]; rintro e ⟨⟩)
  rw [m.acts] at hcalm
  have hnow := hcalm.middle m.run
  rw [calmPurge, m.waits] at hnow
  have hreached : (gateway app cfg).Reachable (.init wall) m.now := Reachable.run ⟨_, h₀⟩ m.run
  have hended := purge_ends hsha hreached m.entry (by simpa using hnow) m.step
  have hreached' := hreached.step m.step
  obtain ⟨as', hrun'⟩ := hreached'
  have hleads : run (gateway app cfg).step m.next (m.after ++ as₂) = some s₂ := by
    rw [run_append, m.leads]
    exact h₂
  -- the code of the chain is among the codes of the user
  have hhash : hash ∈ codesOf u m.next.log := by
    obtain ⟨i, t, es', htake⟩ := hborn
    obtain ⟨_, -, -, hissues⟩ := ((hreached.step m.step).run hleads).sound.log root hroot.mem
    have hfirst := (carries_of_code hissues hroot.redeems).row first hroot.stores.req_eq
    have hlog := (run_extends m.run).2.trans (step_extends m.step).2
    exact ⟨_, hlog.subset htake, entry, .mk, by rw [← hfirst]; exact hsub⟩
  have hlength := (run_extends m.leads).1.length_le
  intro hredeemed
  exact not_redeemed_of_ended hsha hauth hdb ⟨as', hrun'⟩ hended
    (fun d hd row hstores e he => tokensOf_closed hsha hrun' hd hstores he) hleads hroot hhash
    (le_trans hlength hj) hredeemed hchain

end

/-! ### A logout of alice -/

/-- After the first `n` executed requests, nothing is done in exchange for a code. -/
def noCodeAfter (n : ℕ) (log : List AuthDeed) : Bool :=
  (log.drop n).all fun d => d.before.all fun e => e.1.kind ≠ .codeTake

/-- All stored tokens are of alice. -/
def onlyAlice (log : List AuthDeed) : Bool :=
  log.all fun d => match d.req with
    | .refreshUpsert row => row.userSub = "alice"
    | _ => true

theorem Root.of_noCodeAfter {log log' : List AuthDeed} {root : AuthDeed} {first}
    {hash : Digest} {entry : AuthCode} (h : Root log' root first hash entry) (hinitial : log <+: log')
    (hlater : noCodeAfter log.length log' = true) : Root log root first hash entry := by
  obtain ⟨rest, rfl⟩ := hinitial
  refine ⟨?_, h.stores, h.redeems⟩
  rcases List.mem_append.mp h.mem with hmem | hmem
  · exact hmem
  · rw [noCodeAfter, List.drop_left, List.all_eq_true] at hlater
    have hbefore := List.all_eq_true.mp (hlater root hmem) _ h.redeems
    simp at hbefore

theorem Root.userSub_of_onlyAlice {log} {root : AuthDeed} {first : RefreshRow}
    {hash : Digest} {entry : AuthCode} (h : Root log root first hash entry)
    (halice : onlyAlice log = true) : first.userSub = "alice" := by
  have hroot := List.all_eq_true.mp halice root h.mem
  rw [h.stores.req_eq] at hroot
  exact of_decide_eq_true hroot

/-- The tokens of the user were deleted. -/
def purges (u : String) : Exchange AuthReq AuthResp → Bool
  | ⟨.refreshPurge u', .ok _⟩ => u' = u
  | _ => false

theorem exists_purged {es : AuthTrail} (h : es.any (purges u) = true) :
    ∃ purged, ⟨.refreshPurge u, .ok purged⟩ ∈ es := by
  obtain ⟨e, he, hpurges⟩ := List.any_eq_true.mp h
  unfold purges at hpurges
  split at hpurges
  · cases of_decide_eq_true hpurges
    exact ⟨_, he⟩
  · cases hpurges

def aliceLogout (i : ℕ) : List (Act HttpCall Choice) :=
  .arrive (.logout (some "Bearer j")) :: goes i 7

theorem logout_ends_renewal_alice : ∃ s₀ s₁ s₂,
    run (gateway demo .default).step (start (.init 0)) aliceLogin = some s₀ ∧
    run (gateway demo .default).step s₀ (aliceLogout 3) = some s₁ ∧
    s₁.answer 3 = some (.logout (some "Bearer j"), .noContent) ∧
    run (gateway demo .default).step s₁ (aliceRetry 4) = some s₂ ∧
    wasStored (hashSecret demo.crates.sha256 "r") s₀.log = true ∧ ¬ Redeemed s₂ 4 "r" := by
  have hchecks : ((run (gateway demo .default).step (start (.init 0)) aliceLogin).bind fun s₀ =>
      (run (gateway demo .default).step s₀ (aliceLogout 3)).bind fun s₁ =>
      (run (gateway demo .default).step s₁ (aliceRetry 4)).map fun s₂ =>
        decide (s₁.answer 3 = some (.logout (some "Bearer j"), .noContent)) &&
        decide (s₀.entries.length = 3 ∧ s₁.entries.length = 4) &&
        checks (gateway demo .default).step (calmPurge 3 "alice") s₀ (aliceLogout 3) &&
        (s₁.entries[3]?).any (fun e => e.trail.any (purges "alice")) &&
        wasStored (hashSecret demo.crates.sha256 "r") s₀.log &&
        noCodeAfter s₀.log.length s₂.log && onlyAlice s₂.log) = some true := by
    decide +kernel
  obtain ⟨s₀, h₀, hchecks⟩ := Option.bind_eq_some_iff.mp hchecks
  obtain ⟨s₁, h₁, hchecks⟩ := Option.bind_eq_some_iff.mp hchecks
  obtain ⟨s₂, h₂, hchecks⟩ := Option.map_eq_some_iff.mp hchecks
  simp only [Bool.and_eq_true, decide_eq_true_eq] at hchecks
  obtain ⟨⟨⟨⟨⟨⟨hlogout, hlength₀, hlength₁⟩, hcalm⟩, hpurges⟩, hstored⟩, hlater⟩, halice⟩ := hchecks
  refine ⟨s₀, s₁, s₂, h₀, h₁, hlogout, h₂, hstored, ?_⟩
  obtain ⟨trail, he⟩ := answer_eq_some.mp hlogout
  rw [he] at hpurges
  obtain ⟨purged, hpurged⟩ := exists_purged hpurges
  -- the token that the login gave out is on a chain
  obtain ⟨as₂, hrun₂⟩ := (Reachable.run ⟨_, h₀⟩ h₁).run h₂
  have hinitial := (run_extends h₁).2.trans (run_extends h₂).2
  obtain ⟨root, first, hash, entry, hroot, hchain⟩ := rooted_of_wasStored hrun₂ hinitial hstored
  have hborn := hroot.of_noCodeAfter hinitial hlater
  obtain ⟨t, htake⟩ := executed_of_before h₀ hborn.mem hborn.redeems (by rintro ⟨⟩)
  exact logout_ends_renewal rfl rfl Function.injective_id h₀ h₁
    (by rw [hlength₀]; exact meets_of_checks hcalm) (by rw [hlength₀]; exact he) hpurged h₂ hroot
    (hroot.userSub_of_onlyAlice halice) ⟨_, t, htake⟩ hchain (by rw [hlength₁])

/-- A refresh takes its token, alice logs out, and the refresh stores the next token. It is
    redeemed after the logout was answered. -/
theorem refresh_after_logout : ∃ s₀ s₁ s₂ root first hash entry,
    run (gateway demo .default).step (start (.init 0)) (aliceLogin ++ beginRefresh 3 "r") = some s₀ ∧
    Root s₀.log root first hash entry ∧ first.userSub = "alice" ∧
    run (gateway demo .default).step s₀ (aliceLogout 4) = some s₁ ∧
    s₁.answer 4 = some (.logout (some "Bearer j"), .noContent) ∧
    run (gateway demo .default).step s₁ (finishRefresh 3 2 "k" "q" ++ beginRefresh 5 "q" ++
      finishRefresh 5 3 "l" "p") = some s₂ ∧
    s₁.entries.length ≤ 5 ∧ Redeemed s₂ 5 "q" ∧
    Chain s₂.log first.tokenHash (hashSecret demo.crates.sha256 "q") := by
  have hchecks : ((run (gateway demo .default).step (start (.init 0))
        (aliceLogin ++ beginRefresh 3 "r")).bind fun s₀ =>
      (run (gateway demo .default).step s₀ (aliceLogout 4)).bind fun s₁ =>
      (run (gateway demo .default).step s₁ (finishRefresh 3 2 "k" "q" ++ beginRefresh 5 "q" ++
        finishRefresh 5 3 "l" "p")).map fun s₂ =>
        decide (s₁.answer 4 = some (.logout (some "Bearer j"), .noContent)) &&
        decide (s₁.entries.length ≤ 5) &&
        decide (s₂.answer 5 = some (.token (refreshForm "q"), .tokens "l" 3600 "p")) &&
        wasStored (hashSecret demo.crates.sha256 "q") s₂.log &&
        noCodeAfter s₀.log.length s₂.log && onlyAlice s₂.log) = some true := by
    decide +kernel
  obtain ⟨s₀, h₀, hchecks⟩ := Option.bind_eq_some_iff.mp hchecks
  obtain ⟨s₁, h₁, hchecks⟩ := Option.bind_eq_some_iff.mp hchecks
  obtain ⟨s₂, h₂, hchecks⟩ := Option.map_eq_some_iff.mp hchecks
  simp only [Bool.and_eq_true, decide_eq_true_eq] at hchecks
  obtain ⟨⟨⟨⟨⟨hlogout, hlength⟩, htokens⟩, hstored⟩, hlater⟩, halice⟩ := hchecks
  obtain ⟨as₂, hrun₂⟩ := (Reachable.run ⟨_, h₀⟩ h₁).run h₂
  obtain ⟨root, first, hash, entry, hroot, hchain⟩ :=
    rooted_of_wasStored hrun₂ (List.prefix_refl _) hstored
  have hborn := hroot.of_noCodeAfter ((run_extends h₁).2.trans (run_extends h₂).2) hlater
  exact ⟨s₀, s₁, s₂, root, first, hash, entry, h₀, hborn, hroot.userSub_of_onlyAlice halice, h₁,
    hlogout, h₂, hlength, ⟨refreshForm "q", _, _, _, htokens, rfl, rfl⟩, hchain⟩

end DbMcpGateway.Oauth
