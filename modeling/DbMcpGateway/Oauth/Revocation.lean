import DbMcpGateway.Async.Extinct
import DbMcpGateway.Oauth.Frames
import DbMcpGateway.Oauth.Stores

/-!
# Revoked sessions

`SessionStore::revoke` updates the row and then evicts the cache entry; `lookup` reads the
row and then fills the cache. A lookup that has read the row before the UPDATE and fills the
cache after the eviction brings the session back (`lookup_after_revoke`). If no such fill is
pending when the entry is evicted, the session stays dead (`lookup_revoked`).

The results are for any calls that use the session store as `create`, `lookup` and `revoke`
do (`SessionDiscipline`).

Results:

* `rowDead_confined`, `sessionDead_confined`: a dead session does not come back.
* `extinct_of_revoke`: a revocation that nothing races with kills the session.
* `lookup_revoked`: no lookup that starts after it succeeds.
-/

namespace DbMcpGateway.Oauth

open Async Async.Prog Async.Service Machine

/-! ## Using the session store -/

def drawsId (id : SessionId) : Exchange AuthReq AuthResp → Bool
  | ⟨.newSessionId, drawn⟩ => drawn = id
  | _ => false

/-- The exchange inserts a row. -/
def insertsSession : Exchange AuthReq AuthResp → Bool
  | ⟨.insertSession _, _⟩ => true
  | _ => false

/-- The call drew the id and has not inserted a row. -/
def creating (id : SessionId) (es : AuthTrail) : Bool := es.any (drawsId id) && !es.any insertsSession

theorem drawsId_iff {id e} : drawsId id e = true ↔ e = ⟨.newSessionId, id⟩ := by
  unfold drawsId
  split
  · simp
  · rename_i h
    constructor
    · rintro ⟨⟩
    · rintro rfl
      exact absurd rfl (h id)

theorem creating_concat {id es e}
    (h : creating id (es ++ [e]) = true) : e = ⟨.newSessionId, id⟩ ∨ creating id es = true := by
  simp only [creating, List.any_append, List.any_cons, List.any_nil, Bool.or_false,
    Bool.and_eq_true, Bool.or_eq_true, Bool.not_eq_true', Bool.or_eq_false_iff, drawsId_iff] at h ⊢
  tauto

/-- How a program uses the session store: it inserts at most one row, under an id that it
    drew, and fills the cache with the row it inserted or with an active row it read. -/
structure SessionDiscipline {α : Type} (p : AuthProg α) : Prop where
  insert : ∀ {es row}, Issues p es (.insertSession row) → creating row.id es = true
  fill : ∀ {es id session}, Issues p es (.cacheInsert id session) →
    (∃ es', es = es' ++ [⟨.insertSession session, .ok ()⟩] ∧ session.id = id) ∨
    ∃ es', es = es' ++ [⟨.selectSession id, .ok (some session)⟩] ∧ session.revokedAt = none

section

variable {C α : Type} {cfg : SessionCacheConfig} {presents : C → Presented} {code : C → AuthProg α}
  {id : SessionId}

/-! ## Dead sessions -/

/-- The row is revoked or there is none, and the id is not drawn again. -/
def RowDead (id : SessionId) (s : AuthState) : Prop :=
  id ∈ s.usedIds ∧ ∀ row, s.sessions.get id = some row → row.revokedAt ≠ none

theorem RowDead.serve {s s'} {o : Choice} {r : AuthReq} {x}
    (h : RowDead id s) (hserve : serve cfg s o r = some (x, s'))
    (hinsert : ∀ row, r = .insertSession row → row.id ≠ id) : RowDead id s' := by
  refine ⟨serve_usedIds hserve h.1, fun row hrow => ?_⟩
  rcases serve_sessions hserve with hsame | ⟨row', rfl, -, hput⟩ | ⟨id', row', rfl, -, hput⟩
  · rw [hsame] at hrow
    exact h.2 row hrow
  · have hne : id ≠ row'.stored.id := fun heq => hinsert row' rfl heq.symm
    rw [hput, Table.get_put_of_ne hne] at hrow
    exact h.2 row hrow
  · rw [hput, Table.get_put] at hrow
    split_ifs at hrow
    · cases hrow
      exact Option.some_ne_none _
    · exact h.2 row hrow

variable {s : AuthPool C α} {c : C} {o : Choice} {s' : AuthState} {r : AuthReq} {x : AuthResp r}
  {es : AuthTrail}

theorem RowDead.pending {l : Sent AuthReq AuthResp} {x}
    (hcode : ∀ c, SessionDiscipline (code c)) (h : RowDead id s.shared)
    (hpending : (service cfg presents code).Pending s l c)
    (hidle : (∃ row, l.req = .insertSession row) → ¬ creating id l.before = true)
    (hserve : Oauth.serve cfg s.shared o l.req = some (x, s')) : RowDead id s' := by
  refine h.serve hserve ?_
  rintro row hreq rfl
  refine hidle ⟨row, hreq⟩ ((hcode c).insert ?_)
  rw [← hreq]
  exact hpending.issues

theorem not_creating_concat {s} (h : RowDead id s) (hidle : ¬ creating id es = true)
    (hserve : serve cfg s o r = some (x, s')) : ¬ creating id (es ++ [⟨r, x⟩]) = true := by
  intro hcreating
  rcases creating_concat hcreating with heq | hcreating
  · cases heq
    exact (serve_newSessionId hserve).1 h.1
  · exact hidle hcreating

theorem not_creating_failure (hidle : ¬ creating id es = true) (hfailure : failure r = some x) :
    ¬ creating id (es ++ [⟨r, x⟩]) = true := by
  intro hcreating
  rcases creating_concat hcreating with heq | hcreating
  · cases heq
    cases hfailure
  · exact hidle hcreating

theorem rowDead_confined (hcode : ∀ c, SessionDiscipline (code c)) (init : AuthState) :
    (service cfg presents code).Confined init (fun s _ => RowDead id s)
      (fun r => ∃ row, r = .insertSession row) (fun _ es => creating id es = true) where
  serve hserves h hidle := h.pending hcode hserves.pending hidle hserves.serve
  get hserves h hidle := not_creating_concat h hidle hserves.serve
  fail hidle _ hfailure := not_creating_failure hidle hfailure
  nil := by simp [creating]
  accept h := ⟨List.mem_append_right _ h.1, h.2⟩
  env h henv := by
    obtain ⟨wall, mono, -, rfl⟩ := tick_eq henv
    exact h

/-- The session is not accepted any more. -/
def SessionDead (id : SessionId) (s : AuthState) : Prop := RowDead id s ∧ s.cache.get id = none

/-- The call brings the session back: it is creating its row or about to fill the cache. -/
def Reviving (code : C → AuthProg α) (id : SessionId) (c : C) (es : AuthTrail) : Prop :=
  creating id es = true ∨ ∃ session, Issues (code c) es (.cacheInsert id session)

/-- The requests that bring sessions back. -/
def RevivesSession (r : AuthReq) : Prop :=
  (∃ row, r = .insertSession row) ∨ ∃ id session, r = .cacheInsert id session

/-- A fill comes from a row that was dead neither before nor now. -/
theorem not_filling_concat (hcode : SessionDiscipline (code c)) (hidle : ¬ creating id es = true)
    (hissues : Issues (code c) es r)
    (hread : ∀ row, HEq x (.ok (some row) : Except SqlxError (Option Session)) →
      r = .selectSession id → row.revokedAt ≠ none) (session : Session) :
    ¬ Issues (code c) (es ++ [⟨r, x⟩]) (.cacheInsert id session) := by
  intro hfill
  rcases hcode.fill hfill with ⟨es', heq, rfl⟩ | ⟨es', heq, hactive⟩
  · obtain ⟨rfl, hlast⟩ := List.append_inj' heq rfl
    cases List.cons.inj hlast |>.1
    exact hidle (hcode.insert hissues)
  · obtain ⟨rfl, hlast⟩ := List.append_inj' heq rfl
    cases List.cons.inj hlast |>.1
    exact hread session HEq.rfl rfl hactive

theorem SessionDead.pending {l : Sent AuthReq AuthResp} {x}
    (hcode : ∀ c, SessionDiscipline (code c)) (h : SessionDead id s.shared)
    (hpending : (service cfg presents code).Pending s l c)
    (hidle : RevivesSession l.req → ¬ Reviving code id c l.before)
    (hserve : serve cfg s.shared o l.req = some (x, s')) : SessionDead id s' := by
  refine ⟨h.1.pending hcode hpending (fun hreq hcreating => hidle (.inl hreq) (.inl hcreating))
    hserve, ?_⟩
  rw [Table.get_eq_none]
  intro e he heq
  rcases serve_cache hserve he with he | ⟨id', session, hreq, rfl⟩
  · exact Table.get_eq_none.mp h.2 e he heq
  · have hissues := hpending.issues
    subst heq
    rw [hreq] at hissues
    exact hidle (.inr ⟨id', session, hreq⟩) (.inr ⟨session, hissues⟩)

theorem sessionDead_confined (hcode : ∀ c, SessionDiscipline (code c)) (init : AuthState) :
    (service cfg presents code).Confined init (fun s _ => SessionDead id s) RevivesSession
      (Reviving code id) where
  serve hserves h hidle := h.pending hcode hserves.pending hidle hserves.serve
  get := by
    rintro s s' ⟨task, es, r⟩ c o x ⟨-, -, hpending, hserve, -⟩ h hidle hreviving
    rcases hreviving with hcreating | ⟨session, hfill⟩
    · exact not_creating_concat h.1 (fun hes => hidle (.inl hes)) hserve hcreating
    · refine not_filling_concat (hcode c) (fun hes => hidle (.inl hes)) hpending.issues ?_ session
        hfill
      rintro row hx rfl
      cases eq_of_heq hx
      have hread : s.shared.sessions.get id = some row :=
        Except.ok.inj (congrArg Prod.fst (Option.some.inj hserve))
      exact h.1.2 row hread
  fail := by
    intro c es r x hidle hissues hfailure hreviving
    rcases hreviving with hcreating | ⟨session, hfill⟩
    · exact not_creating_failure (fun hes => hidle (.inl hes)) hfailure hcreating
    · refine not_filling_concat (hcode c) (fun hes => hidle (.inl hes)) hissues ?_ session hfill
      rintro row hx rfl
      cases hfailure
      cases eq_of_heq hx
  nil := by
    rintro c (hcreating | ⟨session, hfill⟩)
    · simp [creating] at hcreating
    · rcases (hcode c).fill hfill with ⟨es', heq, -⟩ | ⟨es', heq, -⟩ <;> simp at heq
  accept h := ⟨⟨List.mem_append_right _ h.1.1, h.1.2⟩, h.2⟩
  env h henv := by
    obtain ⟨wall, mono, -, rfl⟩ := tick_eq henv
    exact h

/-- The exchange does not show the session as active. -/
def Unseen (id : SessionId) (r : AuthReq) (x : AuthResp r) : Prop :=
  (∀ now session, (⟨r, x⟩ : Exchange AuthReq AuthResp) ≠ ⟨.cacheGet id now, some session⟩) ∧
  ∀ session, (⟨r, x⟩ : Exchange AuthReq AuthResp) = ⟨.selectSession id, .ok (some session)⟩ →
    session.revokedAt ≠ none

theorem SessionDead.unseen {s} (h : SessionDead id s)
    (hserve : serve cfg s o r = some (x, s')) : Unseen id r x := by
  refine ⟨fun now session heq => ?_, fun session heq => ?_⟩
  · cases heq
    have hmiss := cfg.get_eq_none h.2 s.mono now
    have hhit : cfg.get s.cache s.mono id now = some session :=
      congrArg Prod.fst (Option.some.inj hserve)
    rw [hmiss] at hhit
    cases hhit
  · cases heq
    have hread : s.sessions.get id = some session :=
      Except.ok.inj (congrArg Prod.fst (Option.some.inj hserve))
    exact h.1.2 session hread

/-- An error reply shows nothing. -/
theorem unseen_failure (h : failure r = some x) : Unseen id r x := by
  refine ⟨fun now session heq => ?_, fun session heq => ?_⟩
  · cases heq
    cases h
  · cases heq
    cases h

/-! ## Revocations -/

/-- The request inserts a row. -/
def isInsert : AuthReq → Bool
  | .insertSession _ => true
  | _ => false

/-- No call is creating the session, and no INSERT of its row is left behind. -/
def noCreation (id : SessionId) (s : AuthPool C α) : Bool := 
  quiet (fun _ => true) (creating id) isInsert s

/-- No call is about to fill the cache with the session. -/
def noFill (id : SessionId) (s : AuthPool C α) : Bool :=
  s.entries.all fun e => match e.task with
    | .running (.await (.cacheInsert id' _) _) => id' ≠ id
    | _ => true

/-- Nothing races with the revocation of the session by call `i`: no creation is under way
    when the row is updated, no fill when the entry is evicted. -/
def calmRevoke (i : ℕ) (id : SessionId) (s : AuthPool C α) : Act C Choice → Bool
  | .serve j _ => j ≠ i || match s.waits i with
    | some (.revokeSession id') => id' ≠ id || noCreation id s
    | some (.cacheRemove id') => id' ≠ id || noFill id s
    | _ => true
  | _ => true

theorem noFill_spec (hsound : (service cfg presents code).Sound s) (h : noFill id s = true)
    {i : ℕ} {e : Entry AuthReq AuthResp C α} {p} (he : s.entries[i]? = some e)
    (hp : e.task = .running p) (session : Session) :
    ¬ Issues (code e.call) e.trail (.cacheInsert id session) := by
  intro hissues
  obtain ⟨k, hreaches⟩ := hissues.reaches
  obtain ⟨q, hq, hrunning, -⟩ := hsound.traced i e he
  cases hrunning p hp
  rw [hq.unique hreaches] at hp
  have hentry := List.all_eq_true.mp h e (List.mem_of_getElem? he)
  rw [hp] at hentry
  simp at hentry

abbrev RowExtinct (id : SessionId) (s : AuthPool C α) : Prop :=
  Extinct (fun s _ => RowDead id s) (fun r => ∃ row, r = .insertSession row)
    (fun (_ : C) es => creating id es = true) s

/-- The session is dead for good. -/
abbrev SessionExtinct (code : C → AuthProg α) (id : SessionId) (s : AuthPool C α) : Prop :=
  Extinct (fun s _ => SessionDead id s) RevivesSession (Reviving code id) s

variable {s s' : AuthPool C α} {i : ℕ} {o : Choice}

theorem rowExtinct_of_update (hwaits : s.waits i = some (.revokeSession id))
    (hid : id ∈ s.shared.usedIds) (hcalm : noCreation id s = true)
    (hstep : (service cfg presents code).step s (.serve i o) = some s') : RowExtinct id s' := by
  obtain ⟨c, trail, k, he⟩ := waits_eq_some hwaits
  obtain ⟨hidle, hlate⟩ := quiet_spec hcalm
  cases step_moves hstep with
  | serve he' hserve =>
    rw [he] at he'
    cases he'
    cases hserve
    have hused : id ∈ (s.shared.revokeSession id).usedIds := by
      rw [(revokeSession_frame s.shared id).usedIds (by decide)]
      exact hid
    refine ⟨⟨hused, fun row hrow => revokeSession_revokedAt hrow⟩, ?_, ?_⟩
    · intro j f p hf hp hcreating
      rcases entry_set_cases he hf with ⟨rfl, rfl⟩ | ⟨-, hf⟩
      · rcases creating_concat hcreating with heq | hcreating
        · cases heq
        · rw [hidle j _ _ he rfl rfl] at hcreating
          cases hcreating
      · rw [hidle j f p hf hp rfl] at hcreating
        cases hcreating
    · rintro l hl ⟨row, hreq⟩ f hf hcreating
      rw [hlate l hl (by rw [hreq]; rfl)] at hcreating
      cases hcreating

/-- The eviction of a revocation whose UPDATE nothing raced with. -/
theorem sessionExtinct_of_evict (hcode : ∀ c, SessionDiscipline (code c))
    (hsound : (service cfg presents code).Sound s)
    (hfailable : ∀ l ∈ s.late, (failure l.req).isSome)
    (hwaits : s.waits i = some (.cacheRemove id)) (hcalm : noFill id s = true)
    (hstep : (service cfg presents code).step s (.serve i o) = some s') (hrow : RowExtinct id s') :
    SessionExtinct code id s' := by
  obtain ⟨c, trail, k, he⟩ := waits_eq_some hwaits
  cases step_moves hstep with
  | serve he' hserve =>
    rw [he] at he'
    cases he'
    cases hserve
    refine ⟨⟨hrow.rid, by rw [Table.get_remove, if_pos rfl]⟩, ?_, ?_⟩
    · rintro j f p hf hp (hcreating | ⟨session, hfill⟩)
      · exact hrow.idle j f p hf hp hcreating
      · rcases entry_set_cases he hf with ⟨-, rfl⟩ | ⟨-, hf⟩
        · rcases (hcode _).fill hfill with ⟨es', heq, -⟩ | ⟨es', heq, -⟩
          · cases List.cons.inj (List.append_inj' heq rfl).2 |>.1
          · cases List.cons.inj (List.append_inj' heq rfl).2 |>.1
        · exact noFill_spec hsound hcalm hf hp session hfill
    · rintro l hl (hinsert | ⟨id', session', hreq⟩) f hf (hcreating | ⟨session, hfill⟩)
      · exact hrow.late l hl hinsert f hf hcreating
      · -- an INSERT is what the call waited for, not a fill
        obtain ⟨row, hreq⟩ := hinsert
        obtain ⟨f₀, hf₀, hcall⟩ := call_of_set he hf rfl
        obtain ⟨e, he', -, hissues⟩ := hsound.late l hl
        rw [hf₀] at he'
        cases he'
        rw [hcall, hreq] at hissues
        cases hissues.unique hfill
      all_goals
        have hsome := hfailable l hl
        rw [hreq] at hsome
        cases hsome

section

variable (hcode : ∀ c, SessionDiscipline (code c)) {init : AuthState}
  {as : List (Act C Choice)} {e : Entry AuthReq AuthResp C α} {es : AuthTrail}
  (hrun : run (service cfg presents code).step (start init) as = some s)
  (hcalm : Meets (service cfg presents code).step (fun s a => calmRevoke i id s a = true)
    (start init) as)
  (he : s.entries[i]? = some e)
  (hknown : ∀ as s trail k, run (service cfg presents code).step (start init) as = some s →
    s.entries[i]? = some ⟨e.call, trail, .running (.await (.revokeSession id) k)⟩ →
      id ∈ s.shared.usedIds)

include hcode hrun hcalm he hknown

/-- After the UPDATE of a revocation that nothing races with, the row is dead. -/
theorem rowExtinct_of_revoke (hes : es ++ [⟨.revokeSession id, .ok ()⟩] <+: e.trail) :
    RowExtinct id s := by
  obtain ⟨m, hcall⟩ := exists_moment hrun he hes (by rintro ⟨⟩) (by rintro e₀ ⟨⟩)
  have hcalm' := hcalm
  rw [m.acts] at hcalm'
  have hnow := hcalm'.middle m.run
  rw [calmRevoke, m.waits] at hnow
  have hid := hknown _ _ _ _ m.run (hcall ▸ m.entry)
  have hrow := rowExtinct_of_update m.waits hid (by simpa using hnow) m.step
  exact hrow.run (rowDead_confined hcode init) (Reachable.step ⟨_, m.run⟩ m.step) m.leads

/-- A revocation that nothing races with kills the session. -/
theorem extinct_of_revoke
    (hes : es ++ [⟨.revokeSession id, .ok ()⟩, ⟨.cacheRemove id, ()⟩] <+: e.trail) :
    SessionExtinct code id s := by
  rw [List.append_cons] at hes
  obtain ⟨m, hcall⟩ := exists_moment hrun he hes (by rintro ⟨⟩) (by rintro e₀ ⟨⟩)
  have hcalm' := hcalm
  rw [m.acts] at hcalm'
  have hnow := hcalm'.middle m.run
  rw [calmRevoke, m.waits] at hnow
  have hreached : (service cfg presents code).Reachable init m.now := ⟨_, m.run⟩
  -- the row died before the eviction
  have hrow : RowExtinct id m.now :=
    rowExtinct_of_revoke hcode m.run hcalm'.of_append m.entry (hcall ▸ hknown) List.prefix_rfl
  have hdead := sessionExtinct_of_evict hcode hreached.sound (late_failable m.run) m.waits
    (by simpa using hnow) m.step (hrow.step (rowDead_confined hcode init) hreached m.step)
  exact hdead.run (sessionDead_confined hcode init) (hreached.step m.step) m.leads

end

/-- What calls see after the session's death. -/
theorem SessionExtinct.unseen {init as} {j : ℕ}
    {e : Entry AuthReq AuthResp C α} (h : SessionExtinct code id s)
    (hcode : ∀ c, SessionDiscipline (code c))
    (hreached : (service cfg presents code).Reachable init s)
    (hrun : run (service cfg presents code).step s as = some s') (he : s'.entries[j]? = some e)
    {es} {r : AuthReq} {x} (hes : es ++ [⟨r, x⟩] <+: e.trail)
    (hlater : ∀ e₀, s.entries[j]? = some e₀ → e₀.trail <+: es) : Unseen id r x := by
  rcases h.exchange (sessionDead_confined hcode init) hreached (Q := fun d => Unseen id d.req d.reply)
    (fun hserves h _ => SessionDead.unseen h hserves.serve) hrun he hes hlater with
    hfailure | ⟨_, hunseen⟩
  · exact unseen_failure hfailure
  · exact hunseen

end

/-! ## Calls on one store -/

/-- A call on a `SessionStore`. -/
inductive SessionCall
  | create (userSub userEmail : String) (groups : List String) (ttl : Seconds)
      (agentClient : Option String) (originalIssuedAt : Option ℤ)
  | lookup (id : SessionId)
  | revoke (id : SessionId)
  deriving DecidableEq

/-- What it returns. -/
inductive SessionReply
  | created (result : Except AuthError Session)
  | found (result : Except AuthError Identity)
  | revoked (result : Except AuthError Unit)
  deriving DecidableEq

namespace SessionCall

def code : SessionCall → AuthProg SessionReply
  | .create userSub userEmail groups ttl agentClient originalIssuedAt => do
    let result ← SessionStore.create userSub userEmail groups ttl agentClient originalIssuedAt
    return .created result
  | .lookup id => do
    let result ← SessionStore.lookup id
    return .found result
  | .revoke id => do
    let result ← SessionStore.revoke id
    return .revoked result

def ids : SessionCall → List SessionId
  | .create _ _ _ _ _ _ => []
  | .lookup id | .revoke id => [id]

/-- One `SessionStore` and its calls. -/
def store (cfg : SessionCacheConfig) :
    Service AuthReq AuthResp AuthState Choice Stamp SessionCall SessionReply :=
  service cfg (fun c => ⟨[], c.ids⟩) code

theorem discipline (c : SessionCall) : SessionDiscipline c.code where
  insert := by
    intro es row h
    cases c with
    | create userSub userEmail groups ttl agentClient originalIssuedAt =>
      simp [code, SessionStore.create] at h
      obtain ⟨id, now, rfl, expiresAt, -, rfl⟩ := h
      simp [creating, drawsId, insertsSession]
    | lookup id => simp [code, SessionStore.lookup] at h
    | revoke id => simp [code, SessionStore.revoke] at h
  fill := by
    intro es id session h
    cases c with
    | create userSub userEmail groups ttl agentClient originalIssuedAt =>
      simp [code, SessionStore.create] at h
      obtain ⟨now, expiresAt, ⟨_, rfl⟩, -, rfl⟩ := h
      exact .inl ⟨[_, _], rfl, rfl⟩
    | lookup id' =>
      simp [code, SessionStore.lookup] at h
      obtain ⟨now, rfl, hactive, rfl⟩ := h
      exact .inr ⟨[_, _], rfl, (Session.isActive_iff.mp hactive).1⟩
    | revoke id' => simp [code, SessionStore.revoke] at h

variable {id : SessionId} {es : AuthTrail}

/-- A lookup that succeeds saw the session in the cache, or read an active row. -/
theorem lookup_ok {identity : Identity}
    (h : Yields (code (.lookup id)) es (.found (.ok identity))) :
    (∃ es' now session, es' ++ [⟨.cacheGet id now, some session⟩] <+: es) ∨
    ∃ es' session, es' ++ [⟨.selectSession id, .ok (some session)⟩] <+: es ∧
      session.revokedAt = none := by
  simp [code, SessionStore.lookup] at h
  obtain ⟨now, cached, es', rfl, ⟨session, rfl, rfl, -⟩ | ⟨rfl, session, ⟨_, rfl⟩, hactive, -⟩⟩ := h
  · exact .inl ⟨[_], now, session, List.prefix_rfl⟩
  · exact .inr ⟨[_, _], session, List.prefix_append _ [_], (Session.isActive_iff.mp hactive).1⟩

theorem lookup_reply {reply} (h : Yields (code (.lookup id)) es reply) :
    ∃ result, reply = .found result := by
  rw [code, yields_bind] at h
  obtain ⟨_, result, _, _, _, hret⟩ := h
  exact ⟨result, hret.2⟩

/-- A revocation that succeeds updated the row and evicted the entry. -/
theorem revoke_ok (h : Yields (code (.revoke id)) es (.revoked (.ok ()))) :
    es = [⟨.revokeSession id, .ok ()⟩, ⟨.cacheRemove id, ()⟩] := by
  simp [code, SessionStore.revoke] at h
  obtain ⟨_, _, rfl⟩ := h
  rfl

end SessionCall

section

variable {cfg : SessionCacheConfig} {init : AuthState} {as₁ as₂ : List (Act SessionCall Choice)}
  {s₁ s₂ : AuthPool SessionCall SessionReply} {i j : ℕ} {id : SessionId} {trail₁ trail₂ : AuthTrail}
  {reply : SessionReply}

/-- After a revocation that nothing races with, every lookup that starts later fails. -/
theorem lookup_revoked (h₁ : run (SessionCall.store cfg).step (start init) as₁ = some s₁)
    (hcalm : Meets (SessionCall.store cfg).step (fun s a => calmRevoke i id s a = true)
      (start init) as₁)
    (hrevoked : s₁.entries[i]? = some ⟨.revoke id, trail₁, .returned (.revoked (.ok ()))⟩)
    (h₂ : run (SessionCall.store cfg).step s₁ as₂ = some s₂) (hj : s₁.entries.length ≤ j)
    (hlookup : s₂.entries[j]? = some ⟨.lookup id, trail₂, .returned reply⟩) :
    ∃ e, reply = .found (.error e) := by
  have hsound₁ := sound_of_run h₁
  have hyields₁ := hsound₁.yields hrevoked
  have hknown : ∀ as s trail k, run (SessionCall.store cfg).step (start init) as = some s →
      s.entries[i]? = some ⟨.revoke id, trail, .running (.await (.revokeSession id) k)⟩ →
        id ∈ s.shared.usedIds := by
    intro as s trail k hrun he
    exact (presents_used hrun he).2 (List.mem_singleton.mpr rfl)
  have hdead : SessionExtinct SessionCall.code id s₁ :=
    extinct_of_revoke SessionCall.discipline h₁ hcalm hrevoked hknown
      (by rw [SessionCall.revoke_ok hyields₁]; exact List.prefix_rfl : [] ++ _ <+: _)
  have hlater : ∀ {es : AuthTrail} e₀, s₁.entries[j]? = some e₀ → e₀.trail <+: es := by
    rw [List.getElem?_eq_none hj]
    rintro es e₀ ⟨⟩
  have hunseen : ∀ {es r} {x : AuthResp r}, es ++ [⟨r, x⟩] <+: trail₂ → Unseen id r x :=
    fun hes => hdead.unseen SessionCall.discipline ⟨_, h₁⟩ h₂ hlookup hes hlater
  have hyields₂ := (hsound₁.run h₂).yields hlookup
  obtain ⟨result, rfl⟩ := SessionCall.lookup_reply hyields₂
  cases result with
  | error e => exact ⟨e, rfl⟩
  | ok identity =>
    rcases SessionCall.lookup_ok hyields₂ with ⟨es, now, session, hes⟩ | ⟨es, session, hes, hactive⟩
    · exact absurd rfl ((hunseen hes).1 now session)
    · exact absurd hactive ((hunseen hes).2 session rfl)

def aliceCreated : List (Act SessionCall Choice) :=
  [.arrive (.create "alice" "alice@corp" ["eng"] 3600 none none), .serve 0 (.drawId 1),
    .serve 0 .go, .serve 0 .go, .serve 0 .go]

def aliceRevoked : List (Act SessionCall Choice) :=
  aliceCreated ++ [.arrive (.lookup 1), .serve 1 .go, .serve 1 .go, .arrive (.revoke 1),
    .serve 2 .go, .serve 2 .go]

/-- It is looked up again. -/
def aliceAgain : List (Act SessionCall Choice) :=
  [.arrive (.lookup 1), .serve 3 .go, .serve 3 .go, .serve 3 .go, .serve 3 .go]

theorem lookup_revoked_alice : ∃ s₁ s₂ trail₁ trail₂ reply,
    run (SessionCall.store .default).step (start (.init 0)) aliceRevoked = some s₁ ∧
    s₁.entries[2]? = some ⟨.revoke 1, trail₁, .returned (.revoked (.ok ()))⟩ ∧
    run (SessionCall.store .default).step s₁ aliceAgain = some s₂ ∧
    s₂.entries[3]? = some ⟨.lookup 1, trail₂, .returned reply⟩ ∧ ∃ e, reply = .found (.error e) := by
  have hcalm : Meets (SessionCall.store .default).step (fun s a => calmRevoke 2 1 s a = true)
      (start (.init 0)) aliceRevoked := meets_of_checks (by decide)
  exact ⟨_, _, _, _, _, rfl, rfl, rfl, rfl,
    @lookup_revoked _ _ _ aliceAgain _ _ _ 3 _ _ _ _ rfl hcalm rfl rfl (by decide) rfl⟩

/-- A lookup reads the row, the session is revoked, and the lookup fills the cache. The next
    lookup succeeds. -/
theorem lookup_after_revoke : ∃ s₁ s₂ trail₁ trail₂ identity,
    run (SessionCall.store .default).step (start (.init 0)) (aliceCreated ++
      [.env (.clock (nanos 60) (nanos 60)), .arrive (.lookup 1), .serve 1 .go, .serve 1 .go,
        .serve 1 .go, .arrive (.revoke 1), .serve 2 .go, .serve 2 .go]) = some s₁ ∧
    s₁.entries[2]? = some ⟨.revoke 1, trail₁, .returned (.revoked (.ok ()))⟩ ∧
    run (SessionCall.store .default).step s₁ [.serve 1 .go, .arrive (.lookup 1), .serve 3 .go,
      .serve 3 .go] = some s₂ ∧
    s₂.entries[3]? = some ⟨.lookup 1, trail₂, .returned (.found (.ok identity))⟩ :=
  ⟨_, _, _, _, _, rfl, rfl, rfl, rfl⟩

end

end DbMcpGateway.Oauth
