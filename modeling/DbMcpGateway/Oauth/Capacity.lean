import DbMcpGateway.Oauth.Codes
import DbMcpGateway.Oauth.RefreshOps

/-!
# The capacity of the refresh-token store

An insert is refused when the store is full: `count(*)` of the table, or the length of the map,
has reached the maximum. Both count expired tokens too, until they are collected. A rotation
takes the old token and stores a new one, which is another row; what others store in between
can fill the store.

The calls of `RefreshTokens` run concurrently here, statement by statement.

Results:

* `capacity_genuine`: a refusal without expired tokens in the store is one for live tokens, and
  a rotation is not refused if what was stored before it, and since, fits.
* `capacity_spurious`: expired tokens alone can fill the store.
-/

namespace DbMcpGateway.Oauth

open Async Async.Prog Async.Service Machine

/-- The calls of `RefreshTokens`. -/
def refreshService (tokens : RefreshTokens) (sha256 : List UInt8 → Digest) :
    Service AuthReq AuthResp AuthState Choice Stamp RefreshOp RefreshResult :=
  service .default (fun _ => ⟨[], []⟩) (RefreshOp.code tokens sha256)

/-- The reply refuses a token for lack of room. -/
inductive Refuses : (r : AuthReq) → AuthResp r → Prop
  | count {n} : refreshTokensMaxSize ≤ n → Refuses .refreshCount (.ok n)
  | store {hash token} : Refuses (.memoryStore hash token) (.error .storeFull)

/-- The reply has a token, which is not in the store any more. -/
inductive TakesToken : (r : AuthReq) → AuthResp r → RefreshToken → Prop
  | db {hash token} : TakesToken (.refreshTake hash) (.ok (some token)) token
  | memory {ttl hash token} : TakesToken (.memoryTake ttl hash) (some token) token

/-- How many of the stored tokens have not expired. -/
def unexpired (s : AuthState) (ttl : Seconds) : RefreshBackend → ℕ
  | .db => s.refresh.rows.countP fun row => timestamptz s.wall < row.expiresAt
  | .memory => s.refreshMap.rows.countP fun e => !chainExpired e.2.issuedAt s.wall ttl

/-- A token was stored. -/
def storesOk : (r : AuthReq) → AuthResp r → Bool
  | .refreshUpsert _, x => x.isOk
  | .memoryStore _ _, x => x.isOk
  | _, _ => false

/-- How many tokens were stored so far, counting every one that was stored twice. -/
def landed (s : AuthPool RefreshOp RefreshResult) : ℕ :=
  s.log.countP fun d => storesOk d.req d.reply

section

variable {s s' : AuthState} {o : Choice} {r : AuthReq} {x : AuthResp r} {b : RefreshBackend}

theorem RefreshRows.length_upsert_le (rows : RefreshRows) (row : RefreshRow) :
    (rows.upsert row).2.rows.length ≤ rows.rows.length + (rows.upsert row).1.isOk.toNat := by
  unfold RefreshRows.upsert
  split_ifs
  · exact Table.length_put_le _ _
  · exact le_rfl

theorem RefreshMap.length_store_le (map : RefreshMap) (hash : Digest) (token : RefreshToken) :
    (map.store hash token).2.rows.length ≤
      map.rows.length + (map.store hash token).1.isOk.toNat := by
  unfold RefreshMap.store
  split_ifs
  · exact le_rfl
  · exact Table.length_put_le _ _

theorem RefreshRows.length_take_le (rows : RefreshRows) (now : ℤ) (hash : Digest) :
    (rows.take now hash).2.rows.length ≤ rows.rows.length := by
  unfold RefreshRows.take
  split
  · split_ifs
    · exact Table.length_retain_le _ _
    · exact le_rfl
  · exact le_rfl

theorem RefreshMap.length_take_le (map : RefreshMap) (now : ℤ) (ttl : Seconds) (hash : Digest) :
    (map.take now ttl hash).2.rows.length ≤ map.rows.length := by
  unfold RefreshMap.take
  split
  · exact Table.length_retain_le _ _
  · exact le_rfl

/-- A request adds at most one token, and only if it stores one. -/
theorem serve_stored (h : serve .default s o r = some (x, s')) :
    stored s' b ≤ stored s b + (storesOk r x).toNat := by
  cases b with
  | db =>
    by_cases hparts : Part.refresh ∈ r.parts
    · cases r with
      | refreshUpsert row =>
        cases h
        exact RefreshRows.length_upsert_le _ _
      | refreshTake hash =>
        cases h
        exact RefreshRows.length_take_le _ _ _
      | refreshPurge sub | refreshGc =>
        cases h
        exact Table.length_retain_le _ _
      | _ => simp at hparts
    · rw [stored, stored, (serve_frame h).refresh hparts]
      exact Nat.le_add_right _ _
  | memory =>
    by_cases hparts : Part.refreshMap ∈ r.parts
    · cases r with
      | memoryStore hash token =>
        cases h
        exact RefreshMap.length_store_le _ _ _
      | memoryTake ttl hash =>
        cases h
        exact RefreshMap.length_take_le _ _ _ _
      | memoryPurge sub | memoryGc ttl =>
        cases h
        exact Table.length_retain_le _ _
      | _ => simp at hparts
    · rw [stored, stored, (serve_frame h).refreshMap hparts]
      exact Nat.le_add_right _ _

theorem serve_refuses (h : serve .default s o r = some (x, s')) (hrefuses : Refuses r x) :
    (r = .refreshCount ∧ refreshTokensMaxSize ≤ stored s .db) ∨
      ∃ hash token, r = .memoryStore hash token ∧ refreshTokensMaxSize ≤ stored s .memory := by
  cases hrefuses with
  | count hfull =>
    cases h
    exact .inl ⟨rfl, hfull⟩
  | @store hash token =>
    refine .inr ⟨hash, token, rfl, ?_⟩
    have hreply : (s.refreshMap.store hash token).1 = .error .storeFull :=
      congrArg Prod.fst (Option.some.inj h)
    unfold RefreshMap.store at hreply
    split_ifs at hreply with hfull
    rw [Bool.and_eq_true, decide_eq_true_eq] at hfull
    exact hfull.1

/-- What is taken is not stored any more. -/
theorem serve_takes {token} (h : serve .default s o r = some (x, s'))
    (htakes : TakesToken r x token) :
    (∃ hash, r = .refreshTake hash ∧ stored s' .db < stored s .db) ∨
      ∃ ttl hash, r = .memoryTake ttl hash ∧ stored s' .memory < stored s .memory := by
  cases htakes with
  | @db hash token =>
    refine .inl ⟨hash, rfl, ?_⟩
    have hreply : (s.refresh.take s.wall hash).1 = some token := by
      have hfound := congrArg Prod.fst (Option.some.inj h)
      exact Except.ok.inj hfound
    have hrows : s'.refresh = (s.refresh.take s.wall hash).2 :=
      (congrArg (fun after => after.2.refresh) (Option.some.inj h)).symm
    rw [stored, stored, hrows]
    unfold RefreshRows.take at hreply ⊢
    cases hget : s.refresh.get hash with
    | none =>
      rw [hget] at hreply
      cases hreply
    | some row =>
      simp only [hget] at hreply ⊢
      split_ifs at hreply ⊢
      exact Table.length_remove_lt hget
  | @memory ttl hash token =>
    refine .inr ⟨ttl, hash, rfl, ?_⟩
    have hreply : (s.refreshMap.take s.wall ttl hash).1 = some token :=
      congrArg Prod.fst (Option.some.inj h)
    have hrows : s'.refreshMap = (s.refreshMap.take s.wall ttl hash).2 :=
      (congrArg (fun after => after.2.refreshMap) (Option.some.inj h)).symm
    rw [stored, stored, hrows]
    unfold RefreshMap.take at hreply ⊢
    cases hget : s.refreshMap.get hash with
    | none =>
      rw [hget] at hreply
      cases hreply
    | some e => exact Table.length_remove_lt hget

end

/-! ## Backends -/

section

variable {tokens : RefreshTokens} {sha256 : List UInt8 → Digest} {op : RefreshOp} {es : AuthTrail}

def AuthReq.backend : AuthReq → Option RefreshBackend
  | .refreshExists _ | .refreshCount | .refreshUpsert _ | .refreshTake _ | .refreshPurge _
  | .refreshGc => some .db
  | .memoryStore _ _ | .memoryTake _ _ | .memoryPurge _ | .memoryGc _ => some .memory
  | _ => none

/-- Requests are for the backend of the store. -/
theorem RefreshOp.within (tokens : RefreshTokens) (sha256 : List UInt8 → Digest) (op : RefreshOp) :
    Within (fun r => ∀ b, r.backend = some b → b = tokens.backend) (op.code tokens sha256) := by
  obtain ⟨backend, ttl⟩ := tokens
  cases backend <;> cases op <;>
    simp [RefreshOp.code, RefreshTokens.store, RefreshTokens.storeDb, RefreshTokens.upsertRow,
        RefreshTokens.take, RefreshTokens.purgeForSub, RefreshTokens.gcExpired, AuthReq.backend]

variable {s s' : AuthPool RefreshOp RefreshResult} {wall : ℤ} {as : List (Act RefreshOp Choice)}
  {i : ℕ} {o : Choice} {d : AuthDeed}

/-- What a step of a call executed. -/
theorem step_deed (hstep : (refreshService tokens sha256).step s (.serve i o) = some s')
    (hlog : s'.log = s.log ++ [d]) : ∃ c es k,
      serve .default s.shared o d.req = some (d.reply, s'.shared) ∧
        s.entries[i]? = some ⟨c, es, .running (.await d.req k)⟩ := by
  cases step_moves hstep with
  | serve he hserve =>
    cases List.append_cancel_left hlog
    exact ⟨_, _, _, hserve, he⟩

/-- The requests that are executed are for the backend of the store. -/
theorem backend_of_step (hrun : run (refreshService tokens sha256).step (start (.init wall)) as = some s)
    {c es} {r : AuthReq} {k : AuthResp r → AuthProg RefreshResult}
    (he : s.entries[i]? = some ⟨c, es, .running (.await r k)⟩) {b}
    (hr : r.backend = some b) : b = tokens.backend :=
  (RefreshOp.within tokens sha256 c).issues
    (((sound_of_run hrun).traced i _ he).running.issues) b hr

section

variable (hrun : run (refreshService tokens sha256).step (start (.init wall)) as = some s)
  (hstep : (refreshService tokens sha256).step s (.serve i o) = some s')
  (hlog : s'.log = s.log ++ [d])

include hrun hstep hlog

theorem stored_of_refuses (hrefuses : Refuses d.req d.reply) :
    refreshTokensMaxSize ≤ stored s.shared tokens.backend := by
  obtain ⟨c, es, k, hserve, he⟩ := step_deed hstep hlog
  have hbackend : ∀ b, d.req.backend = some b → b = tokens.backend :=
    fun b hb => backend_of_step hrun he hb
  rcases serve_refuses hserve hrefuses with ⟨hreq, hfull⟩ | ⟨hash, token, hreq, hfull⟩
  · rw [← hbackend .db (by rw [hreq]; rfl)]
    exact hfull
  · rw [← hbackend .memory (by rw [hreq]; rfl)]
    exact hfull

/-- A token that is taken leaves room for another. -/
theorem stored_of_takes {token} (htakes : TakesToken d.req d.reply token) :
    stored s'.shared tokens.backend < stored s.shared tokens.backend := by
  obtain ⟨c, es, k, hserve, he⟩ := step_deed hstep hlog
  have hbackend : ∀ b, d.req.backend = some b → b = tokens.backend :=
    fun b hb => backend_of_step hrun he hb
  rcases serve_takes hserve htakes with ⟨hash, hreq, hless⟩ | ⟨ttl, hash, hreq, hless⟩
  · rw [← hbackend .db (by rw [hreq]; rfl)]
    exact hless
  · rw [← hbackend .memory (by rw [hreq]; rfl)]
    exact hless

end

/-! ## Growth -/

theorem step_stored {a} (b : RefreshBackend)
    (hstep : (refreshService tokens sha256).step s a = some s') :
    landed s ≤ landed s' ∧ stored s'.shared b + landed s ≤ stored s.shared b + landed s' := by
  have hserved : ∀ {l : Sent AuthReq AuthResp} {o : Choice} {x : AuthResp l.req} {shared : AuthState}
      {t : Stamp}, serve .default s.shared o l.req = some (x, shared) →
      landed s ≤ (s.log ++ [(⟨l, t, x⟩ : AuthDeed)]).countP (fun d => storesOk d.req d.reply) ∧
      stored shared b + landed s ≤ stored s.shared b +
        (s.log ++ [(⟨l, t, x⟩ : AuthDeed)]).countP fun d => storesOk d.req d.reply := by
    intro l o x shared t hserve
    have hgrows := serve_stored (b := b) hserve
    rw [List.countP_append, List.countP_singleton]
    cases hstores : storesOk l.req x <;> simp [hstores, landed] at hgrows ⊢ <;> omega
  cases step_moves hstep with
  | serve _ hserve | late _ hserve => exact hserved hserve
  | env henv =>
    obtain ⟨wall, mono, -, rfl⟩ := tick_eq henv
    cases b <;> exact ⟨le_rfl, le_rfl⟩
  | arrive => cases b <;> exact ⟨le_rfl, le_rfl⟩
  | _ => exact ⟨le_rfl, le_rfl⟩

theorem run_stored (b : RefreshBackend) (hrun : run (refreshService tokens sha256).step s as = some s') :
    landed s ≤ landed s' ∧ stored s'.shared b + landed s ≤ stored s.shared b + landed s' := by
  refine run_invariant (P := fun s' => landed s ≤ landed s' ∧
    stored s'.shared b + landed s ≤ stored s.shared b + landed s') (C := fun _ _ => True) ?_
    (meets_true _ as) hrun ⟨le_rfl, le_rfl⟩
  intro s₁ a s₂ hs₁ _ hstep
  have hstep := step_stored b hstep
  omega

/-- A refusal without expired tokens in the store is one for live tokens, and what replaces a
    token is not refused if what was stored before, and since, fits. -/
theorem capacity_genuine
    (hrun : run (refreshService tokens sha256).step (start (.init wall)) as = some s) :
    (∀ i o s' d, (refreshService tokens sha256).step s (.serve i o) = some s' →
      s'.log = s.log ++ [d] → Refuses d.req d.reply →
      unexpired s.shared tokens.ttl tokens.backend = stored s.shared tokens.backend →
      refreshTokensMaxSize ≤ unexpired s.shared tokens.ttl tokens.backend) ∧
    ∀ i o s₁ d token, (refreshService tokens sha256).step s (.serve i o) = some s₁ →
      s₁.log = s.log ++ [d] → TakesToken d.req d.reply token →
      ∀ bs s₂, run (refreshService tokens sha256).step s₁ bs = some s₂ →
        stored s.shared tokens.backend + (landed s₂ - landed s₁) ≤ refreshTokensMaxSize →
        ∀ j secret o' s₃ d', (s₂.entries[j]?).map Entry.call =
            some (.insertRotated secret token.identity token.issuedAt) →
          (refreshService tokens sha256).step s₂ (.serve j o') = some s₃ →
          s₃.log = s₂.log ++ [d'] → ¬ Refuses d'.req d'.reply := by
  constructor
  · intro i o s' d hstep hlog hrefuses hlive
    rw [hlive]
    exact stored_of_refuses hrun hstep hlog hrefuses
  · intro i o s₁ d token hstep hlog htakes bs s₂ hmore hfits j secret o' s₃ d' _ hstep' hlog' hrefuses
    have hless := stored_of_takes hrun hstep hlog htakes
    have hgrows := run_stored tokens.backend hmore
    have hreached : run (refreshService tokens sha256).step (start (.init wall))
        (as ++ [Act.serve i o] ++ bs) = some s₂ := by
      rw [run_append, run_concat hrun hstep]
      exact hmore
    have hfull := stored_of_refuses hreached hstep' hlog' hrefuses
    omega

end

def takenRow : Exchange AuthReq AuthResp → Option RefreshToken
  | ⟨.refreshTake _, .ok token⟩ => token
  | _ => none

theorem TakesToken.of_takenRow {r : AuthReq} {x token}
    (h : takenRow ⟨r, x⟩ = some token) : TakesToken r x token := by
  unfold takenRow at h
  split at h
  · rename_i heq
    cases heq
    cases h
    exact .db
  · cases h

/-- Alice's token is stored (call 0) and taken (call 1), and another replaces it. -/
theorem capacity_genuine_rotation : ∃ s s₁,
    run (refreshService ⟨.db, 86400⟩ id).step (start (.init 0))
      ([.arrive (.insert "r" alice)] ++ List.replicate 4 (.serve 0 .go) ++ [.arrive (.take "r")]) =
        some s ∧
    (refreshService ⟨.db, 86400⟩ id).step s (.serve 1 .go) = some s₁ ∧
    ∀ bs s₂, run (refreshService ⟨.db, 86400⟩ id).step s₁ bs = some s₂ →
      stored s.shared .db + (landed s₂ - landed s₁) ≤ refreshTokensMaxSize →
      ∀ j secret o' s₃ d', (s₂.entries[j]?).map Entry.call = some (.insertRotated secret alice 0) →
        (refreshService ⟨.db, 86400⟩ id).step s₂ (.serve j o') = some s₃ →
        s₃.log = s₂.log ++ [d'] → ¬ Refuses d'.req d'.reply := by
  have hcheck : (run (refreshService ⟨.db, 86400⟩ id).step (start (.init 0))
      ([.arrive (.insert "r" alice)] ++ List.replicate 4 (.serve 0 .go) ++ [.arrive (.take "r")])).any
      (fun s => ((refreshService ⟨.db, 86400⟩ id).step s (.serve 1 .go)).any fun s₁ =>
        s₁.log.getLast?.any fun d => takenRow ⟨d.req, d.reply⟩ = some ⟨alice, 0⟩) = true := by
    decide +kernel
  simp only [Option.any_eq_true, decide_eq_true_eq] at hcheck
  obtain ⟨s, hrun, s₁, hstep, d, hlast, htaken⟩ := hcheck
  refine ⟨s, s₁, hrun, hstep, ?_⟩
  have hlog : s₁.log = s.log ++ [d] := by
    cases step_moves hstep with
    | serve he hserve =>
      rw [List.getLast?_concat] at hlast
      rw [Option.some.inj hlast]
  exact (capacity_genuine hrun).2 1 .go s₁ d ⟨alice, 0⟩ hstep hlog (.of_takenRow htaken)

/-! ## A store full of expired tokens -/

/-- The `n`-th of some distinct tokens. -/
def tokenName (n : ℕ) : String := String.ofList (List.replicate n 'a')

theorem tokenName_injective : Function.Injective tokenName := by
  intro m n h
  have hlist := congrArg String.toList h
  simpa [tokenName] using congrArg List.length hlist

/-- The store has `n` tokens of a day that were stored at time 0. -/
structure Filled (n : ℕ) (s : AuthPool RefreshOp RefreshResult) : Prop where
  calls : s.entries.length = n
  wall : s.shared.wall = 0
  count : s.shared.refresh.rows.length = n
  rows : ∀ row ∈ s.shared.refresh.rows,
    row.expiresAt = nanos 86400 ∧ ∃ i < n, row.tokenHash = hashSecret id (tokenName i)

theorem Filled.new {n : ℕ} {s : AuthPool RefreshOp RefreshResult} (h : Filled n s) :
    s.shared.refresh.get (hashSecret id (tokenName n)) = none := by
  rw [Table.get_eq_none]
  intro row hrow hhash
  obtain ⟨-, i, hi, hname⟩ := h.rows row hrow
  have hin : i = n :=
    tokenName_injective (hashSecret_injective Function.injective_id (hname.symm.trans hhash))
  omega

/-- The row of the `n`-th token. -/
def filledRow (n : ℕ) : RefreshRow := tokenRow 86400 (hashSecret id (tokenName n)) ⟨alice, 0⟩

theorem exec_insert {n : ℕ} {s : AuthState} (hwall : s.wall = 0)
    (hroom : s.refresh.rows.length < refreshTokensMaxSize) :
    (RefreshOp.code ⟨.db, 86400⟩ id (.insert (tokenName n) alice)).exec answer s =
      some (.stored true, { s with refresh := s.refresh.put (filledRow n) }) := by
  have hstore : (RefreshTokens.store ⟨.db, 86400⟩ id (tokenName n) alice 0).exec answer s =
      some (.ok (), { s with refresh := s.refresh.put (filledRow n) }) :=
    exec_store ⟨by decide, by decide⟩ hroom (by decide) (by decide)
  simp [RefreshOp.code, askAs, answer, serve, exec_bind, hwall, hstore, Except.isOk, Except.toBool]

/-- One more token is stored. -/
theorem Filled.next {n : ℕ} {s} (h : Filled n s) (hn : n < refreshTokensMaxSize) : ∃ as s',
      run (refreshService ⟨.db, 86400⟩ id).step s as = some s' ∧ Filled (n + 1) s' := by
  obtain ⟨s₁, hs₁⟩ : ∃ s₁, (refreshService ⟨.db, 86400⟩ id).step s
      (.arrive (.insert (tokenName n) alice)) = some s₁ := ⟨_, rfl⟩
  have hshared : s₁.shared = s.shared := by
    cases hs₁
    rfl
  have hentries : s₁.entries = s.entries ++ [⟨.insert (tokenName n) alice, [],
      .ofProg (RefreshOp.code ⟨.db, 86400⟩ id (.insert (tokenName n) alice))⟩] := by
    cases hs₁
    rfl
  have hexec := exec_insert (n := n) (s := s₁.shared) (by rw [hshared, h.wall])
    (by rw [hshared, h.count]; exact hn)
  obtain ⟨k, s', hrun, hafter, hlength⟩ := run_exec (M := refreshService ⟨.db, 86400⟩ id) (o := .go)
    (i := n) _ hexec (by rw [hentries, Indexed.getElem?_concat, if_pos h.calls.symm])
  refine ⟨.arrive (.insert (tokenName n) alice) :: List.replicate k (.serve n .go), s', ?_, ?_⟩
  · rw [Machine.run, hs₁]
    exact hrun
  · rw [hshared] at hafter
    refine ⟨?_, ?_, ?_, ?_⟩
    · rw [hlength, hentries, List.length_append, h.calls]
      rfl
    · rw [hafter]
      exact h.wall
    · rw [hafter]
      dsimp only
      rw [Table.rows_put_of_none h.new, List.length_append, h.count]
      rfl
    · rw [hafter]
      intro row hrow
      rcases Table.mem_put.mp hrow with rfl | ⟨hrow, -⟩
      · exact ⟨Int.zero_add _, n, Nat.lt_succ_self n, rfl⟩
      · obtain ⟨hexpires, i, hi, hhash⟩ := h.rows row hrow
        exact ⟨hexpires, i, by omega, hhash⟩

theorem exists_filled {n : ℕ} (hn : n ≤ refreshTokensMaxSize) : ∃ as s,
    run (refreshService ⟨.db, 86400⟩ id).step (start (.init 0)) as = some s ∧ Filled n s := by
  induction n with
  | zero => exact ⟨[], _, rfl, rfl, rfl, rfl, by rintro row ⟨⟩⟩
  | succ n ih =>
    obtain ⟨as, s, hrun, hfilled⟩ := ih (by omega)
    obtain ⟨bs, s', hmore, hfilled'⟩ := hfilled.next (by omega)
    refine ⟨as ++ bs, s', ?_, hfilled'⟩
    rw [run_append, hrun]
    exact hmore

/-- A day later all stored tokens have expired, and no other can be stored. -/
theorem capacity_spurious : ∃ as s i s' d,
    run (refreshService ⟨.db, 86400⟩ id).step (start (.init 0)) as = some s ∧
    (refreshService ⟨.db, 86400⟩ id).step s (.serve i .go) = some s' ∧ s'.log = s.log ++ [d] ∧
    Refuses d.req d.reply ∧ unexpired s.shared 86400 .db = 0 := by
  obtain ⟨as, s, hrun, hfilled⟩ := exists_filled (n := refreshTokensMaxSize) le_rfl
  -- the clock moves on by a day
  obtain ⟨s₁, hclock, hs₁⟩ : ∃ s₁, (refreshService ⟨.db, 86400⟩ id).step s
      (.env (.clock (nanos 86400) s.shared.mono)) = some s₁ ∧
      s₁ = { s with shared := { s.shared with wall := nanos 86400 } } := by
    refine ⟨_, ?_, rfl⟩
    simp [Service.step, refreshService, service, tick]
  -- another token is to be stored
  obtain ⟨s₂, harrive, hs₂⟩ : ∃ s₂, (refreshService ⟨.db, 86400⟩ id).step s₁
      (.arrive (.insert (tokenName refreshTokensMaxSize) alice)) = some s₂ ∧
      s₂ = { s₁ with entries := s.entries ++ [⟨.insert (tokenName refreshTokensMaxSize) alice, [],
        .ofProg (RefreshOp.code ⟨.db, 86400⟩ id (.insert (tokenName refreshTokensMaxSize) alice))⟩] } := by
    subst hs₁
    exact ⟨_, rfl, rfl⟩
  have he₂ : s₂.entries[refreshTokensMaxSize]? = some ⟨.insert (tokenName refreshTokensMaxSize) alice, [],
      .ofProg (RefreshOp.code ⟨.db, 86400⟩ id (.insert (tokenName refreshTokensMaxSize) alice))⟩ := by
    rw [hs₂, Indexed.getElem?_concat, if_pos hfilled.calls.symm]
  obtain ⟨s₃, hread, hs₃, he₃, -⟩ := step_serve (M := refreshService ⟨.db, 86400⟩ id) (o := .go)
    (x := s₂.shared.wall) (r := .utcNow) he₂ rfl
  have hnew : serve .default s₃.shared .go
      (.refreshExists (hashSecret id (tokenName refreshTokensMaxSize))) =
        some (.ok false, s₃.shared) := by
    simp only [serve, hs₃, hs₂, hs₁, hfilled.new]
    rfl
  obtain ⟨s₄, hexists, hs₄, he₄, -⟩ := step_serve (M := refreshService ⟨.db, 86400⟩ id) (o := .go)
    (r := .refreshExists (hashSecret id (tokenName refreshTokensMaxSize))) he₃ hnew
  obtain ⟨s₅, hcount, hs₅, -, -, hlog⟩ := step_serve (M := refreshService ⟨.db, 86400⟩ id) (o := .go)
    (r := .refreshCount) (x := .ok s₄.shared.refresh.rows.length) he₄ rfl
  have hshared : s₄.shared = { s.shared with wall := nanos 86400 } := by
    rw [hs₄, hs₃, hs₂, hs₁]
  refine ⟨_, s₄, refreshTokensMaxSize, s₅, _,
    run_concat (run_concat (run_concat (run_concat hrun hclock) harrive) hread) hexists, hcount, hlog,
    .count ?_, ?_⟩
  · rw [hshared]
    exact hfilled.count.ge
  · rw [hshared, unexpired, List.countP_eq_zero]
    intro row hrow
    have hlive : ¬ timestamptz (nanos 86400) < nanos 86400 := by decide
    rw [(hfilled.rows row hrow).1, decide_eq_true_eq]
    exact hlive

end DbMcpGateway.Oauth
