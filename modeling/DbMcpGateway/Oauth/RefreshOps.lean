import DbMcpGateway.Oauth.Stores

/-!
# The two backends of the refresh tokens

`RefreshTokens` keeps tokens in the state DB or in a map. The DB keeps a deadline in each row,
with a CHECK that it is after the birth of the chain, and deletes a row only if it is live or
collected; the map keeps the birth and recomputes the age, and a `take` removes what it finds.

`Chains` is what both are for: the live tokens by hash. Each backend refines it
(`db_refines`, `memory_refines`), as long as the lifetime is positive and in the range
of `chrono`.

Results:

* `backends_agree`: the backends return the same.
* `backends_differ`: not for a lifetime of zero, which `REFRESH_TTL_DAYS` allows.
-/

namespace DbMcpGateway.Oauth

open Async Async.Prog

/-! ## Operations -/

/-- A call of `RefreshTokens`. -/
inductive RefreshOp
  | insert (token : String) (identity : GrantIdentity)
  | insertRotated (token : String) (identity : GrantIdentity) (issuedAt : ℤ)
  | take (token : String)
  | purgeForSub (sub : String)
  | gcExpired
  deriving DecidableEq

inductive RefreshResult
  | stored (ok : Bool)
  | taken (token : Option RefreshToken)
  | done
  deriving DecidableEq

/-- What a call runs. -/
def RefreshOp.code (tokens : RefreshTokens) (sha256 : List UInt8 → Digest) :
    RefreshOp → AuthProg RefreshResult
  | .insert token identity => do
    let result ← tokens.insert sha256 token identity
    return .stored result.isOk
  | .insertRotated token identity issuedAt => do
    let result ← tokens.insertRotated sha256 token identity issuedAt
    return .stored result.isOk
  | .take token => do
    let found ← tokens.take sha256 token
    return .taken found
  | .purgeForSub sub => do
    let _ ← tokens.purgeForSub sub
    return .done
  | .gcExpired => do
    tokens.gcExpired
    return .done

/-- The birth of the chain of the token that an operation stores at time `t`. -/
def RefreshOp.birth (t : ℤ) : RefreshOp → Option ℤ
  | .insert _ _ => some t
  | .insertRotated _ _ issuedAt => some issuedAt
  | _ => none

/-- One request, served without an error of the DB. -/
def answer (r : AuthReq) (s : AuthState) : Option (AuthResp r × AuthState) := serve .default s .go r

/-- An operation at time `t`; `none` is a panic. -/
def perform (tokens : RefreshTokens) (sha256 : List UInt8 → Digest) (s : AuthState) (t : ℤ)
    (op : RefreshOp) : Option (RefreshResult × AuthState) :=
  (op.code tokens sha256).exec answer { s with wall := t }

/-- Operations one after the other, each with its time. -/
def performAll (tokens : RefreshTokens) (sha256 : List UInt8 → Digest) :
    AuthState → List (ℤ × RefreshOp) → Option (List RefreshResult × AuthState)
  | s, [] => some ([], s)
  | s, (t, op) :: ops =>
    (perform tokens sha256 s t op).bind fun x =>
      (performAll tokens sha256 x.2 ops).map fun y => (x.1 :: y.1, y.2)

/-! ## Live tokens -/

/-- The tokens of a store, by hash. -/
abbrev Chains := Digest → Option RefreshToken

namespace Chains

/-- The live ones. -/
def live (ttl : Seconds) (t : ℤ) (m : Chains) : Chains :=
  fun hash => (m hash).filter fun token => !chainExpired token.issuedAt t ttl

/-- An operation at time `t` on the live tokens. -/
def perform (ttl : Seconds) (sha256 : List UInt8 → Digest) (m : Chains) (t : ℤ) :
    RefreshOp → RefreshResult × Chains
  | .insert token identity =>
    (.stored true, Function.update (m.live ttl t) (hashSecret sha256 token) (some ⟨identity, t⟩))
  | .insertRotated token identity issuedAt =>
    (.stored true,
      Function.update (m.live ttl t) (hashSecret sha256 token) (some ⟨identity, issuedAt⟩))
  | .take token =>
    (.taken (m.live ttl t (hashSecret sha256 token)),
      Function.update (m.live ttl t) (hashSecret sha256 token) none)
  | .purgeForSub sub =>
    (.done, fun hash => (m.live ttl t hash).filter fun token => token.identity.sub ≠ sub)
  | .gcExpired => (.done, m.live ttl t)

/-- Operations one after the other. -/
def performAll (ttl : Seconds) (sha256 : List UInt8 → Digest) :
    Chains → List (ℤ × RefreshOp) → List RefreshResult
  | _, [] => []
  | m, (t, op) :: ops =>
    (m.perform ttl sha256 t op).1 :: performAll ttl sha256 (m.perform ttl sha256 t op).2 ops

variable {ttl : Seconds} {sha256 : List UInt8 → Digest} {t t' : ℤ} {m m' : Chains} {hash : Digest}
  {op : RefreshOp}

/-- What has expired stays so. -/
theorem live_live (h : t ≤ t') (m : Chains) : (m.live ttl t).live ttl t' = m.live ttl t' := by
  funext hash
  simp only [live, Option.filter_filter]
  congr 1
  funext token
  simp only [chainExpired]
  by_cases hlive : (fromStd ttl).getD maxDelta ≤ t' - token.issuedAt
  · simp [hlive]
  · have hbefore : ¬ (fromStd ttl).getD maxDelta ≤ t - token.issuedAt := by omega
    simp [hlive, hbefore]

@[simp] theorem live_update (m : Chains) (hash : Digest) (token : Option RefreshToken) :
    live ttl t (Function.update m hash token) =
      Function.update (m.live ttl t) hash
        (token.filter fun token => !chainExpired token.issuedAt t ttl) := by
  funext hash'
  by_cases h : hash' = hash
  · subst h
    simp [live]
  · simp [live, h]

@[simp] theorem live_idem (m : Chains) : (m.live ttl t).live ttl t = m.live ttl t :=
  live_live le_rfl m

@[simp] theorem live_filter (m : Chains) (p : RefreshToken → Bool) :
    live ttl t (fun hash => (m hash).filter p) = fun hash => (m.live ttl t hash).filter p := by
  funext hash
  simp only [live, Option.filter_filter]
  congr 1
  funext token
  exact Bool.and_comm _ _

theorem update_none (h : m hash = none) : Function.update m hash none = m := by
  rw [← h, Function.update_eq_self]

/-- An operation depends on the live tokens. -/
theorem perform_congr (h : m.live ttl t = m'.live ttl t) :
    m.perform ttl sha256 t op = m'.perform ttl sha256 t op := by
  cases op <;> simp only [perform, h]

end Chains

/-- The tokens of a backend. -/
def contents (s : AuthState) : RefreshBackend → Chains
  | .db => s.refresh.reads RefreshRow.token
  | .memory => s.refreshMap.reads Prod.snd

/-- How many tokens a backend stores. -/
def stored (s : AuthState) : RefreshBackend → ℕ
  | .db => s.refresh.rows.length
  | .memory => s.refreshMap.rows.length

section

variable {ttl : Seconds} {sha256 : List UInt8 → Digest} {s s' : AuthState} {t : ℤ} {op : RefreshOp}
  {hash : Digest}

/-! ## The map -/

theorem RefreshMap.store_of_lt {map : RefreshMap} (h : map.rows.length < refreshTokensMaxSize)
    (hash : Digest) (token : RefreshToken) :
    map.store hash token = (.ok (), map.put (hash, token)) := by
  rw [RefreshMap.store, if_neg]
  rw [Bool.and_eq_true, decide_eq_true_eq, not_and]
  exact fun hfull => absurd hfull h.not_ge

theorem RefreshMap.take_reply (map : RefreshMap) (now : ℤ) (ttl : Seconds) (hash : Digest) :
    (map.take now ttl hash).1 = Chains.live ttl now (map.reads Prod.snd) hash := by
  unfold RefreshMap.take Chains.live Table.reads
  cases map.get hash with
  | none => rfl
  | some e =>
    cases hexpired : chainExpired e.2.issuedAt now ttl <;> simp [hexpired, Option.filter]

theorem RefreshMap.reads_take (map : RefreshMap) (now : ℤ) (ttl : Seconds) (hash : Digest) :
    (map.take now ttl hash).2.reads Prod.snd = Function.update (map.reads Prod.snd) hash none := by
  unfold RefreshMap.take
  cases hget : map.get hash with
  | none => exact (Chains.update_none (by rw [Table.reads, hget]; rfl)).symm
  | some e => exact Table.reads_remove map hash

theorem RefreshMap.reads_purge (map : RefreshMap) (sub : String) :
    (map.purge sub).reads Prod.snd = fun hash =>
      (map.reads Prod.snd hash).filter fun token => token.identity.sub ≠ sub :=
  Table.reads_retain fun _ _ => rfl

theorem RefreshMap.reads_gc (map : RefreshMap) (now : ℤ) (ttl : Seconds) :
    (map.gc now ttl).reads Prod.snd = Chains.live ttl now (map.reads Prod.snd) :=
  Table.reads_retain fun _ _ => rfl

attribute [local simp] perform RefreshOp.code Chains.perform askAs answer serve Except.isOk
  Except.toBool

theorem memory_refines (hroom : stored s .memory < refreshTokensMaxSize) :
    ∃ s', perform ⟨.memory, ttl⟩ sha256 s t op =
        some (((contents s .memory).perform ttl sha256 t op).1, s') ∧
      (contents s' .memory).live ttl t =
        ((contents s .memory).perform ttl sha256 t op).2.live ttl t := by
  cases op with
  | insert token identity =>
    refine ⟨{ s with
      wall := t, refreshMap := s.refreshMap.put (hashSecret sha256 token, ⟨identity, t⟩) }, ?_, ?_⟩
    · simp [RefreshTokens.store, RefreshMap.store_of_lt hroom]
    · simp [contents, Table.reads_put]
  | insertRotated token identity issuedAt =>
    refine ⟨{ s with
      wall := t, refreshMap := s.refreshMap.put (hashSecret sha256 token, ⟨identity, issuedAt⟩) },
      ?_, ?_⟩
    · simp [RefreshTokens.store, RefreshMap.store_of_lt hroom]
    · simp [contents, Table.reads_put]
  | take token =>
    refine ⟨{ s with
      wall := t, refreshMap := (s.refreshMap.take t ttl (hashSecret sha256 token)).2 }, ?_, ?_⟩
    · simp [RefreshTokens.take, contents, RefreshMap.take_reply]
    · simp [contents, RefreshMap.reads_take]
  | purgeForSub sub =>
    refine ⟨{ s with wall := t, refreshMap := s.refreshMap.purge sub }, ?_, ?_⟩
    · simp [RefreshTokens.purgeForSub]
    · simp [contents, RefreshMap.reads_purge]
  | gcExpired =>
    refine ⟨{ s with wall := t, refreshMap := s.refreshMap.gc t ttl }, ?_, ?_⟩
    · simp [RefreshTokens.gcExpired]
    · simp [contents, RefreshMap.reads_gc]

/-! ## The table -/

/-- The deadline of every row is a lifetime after the birth of its chain. -/
def Deadlines (ttl : Seconds) (rows : RefreshRows) : Prop :=
  ∀ row ∈ rows.rows, row.expiresAt = row.chainIssuedAt + nanos ttl.toNat

/-- A lifetime that is positive and in the range of `chrono`. -/
structure Lifetime (ttl : Seconds) : Prop where
  pos : 0 < ttl.toNat
  range : fromStd ttl = some (nanos ttl.toNat : ℤ)

structure Fits (ttl : Seconds) (t : ℤ) (op : RefreshOp) : Prop where
  clock : timestamptz t = t
  birth : ∀ b ∈ op.birth t, timestamptz b = b ∧ b + nanos ttl.toNat ≤ maxTime

/-- A row is live if its chain has not expired. -/
theorem Deadlines.live {rows : RefreshRows} (h : Deadlines ttl rows) (httl : Lifetime ttl)
    (ht : timestamptz t = t) {row : RefreshRow} (hrow : row ∈ rows.rows) :
    decide (timestamptz t < row.expiresAt) = !chainExpired row.token.issuedAt t ttl := by
  have hexpires := h row hrow
  rw [chainExpired, httl.range, ht, hexpires]
  simp only [RefreshRow.token, Option.getD_some]
  by_cases hlive : t < row.chainIssuedAt + nanos ttl.toNat
  · have hage : ¬ (nanos ttl.toNat : ℤ) ≤ t - row.chainIssuedAt := by omega
    simp [hlive, hage]
  · have hage : (nanos ttl.toNat : ℤ) ≤ t - row.chainIssuedAt := by omega
    simp [hlive, hage]

theorem Deadlines.retain {rows : RefreshRows} (h : Deadlines ttl rows) (p : RefreshRow → Bool) :
    Deadlines ttl (rows.retain p) :=
  fun row hrow => h row (Table.mem_retain.mp hrow).1

section

variable {rows : RefreshRows} (h : Deadlines ttl rows) (httl : Lifetime ttl)
  (ht : timestamptz t = t)

include h httl ht

theorem Deadlines.take_reply (hash : Digest) :
    (rows.take t hash).1 = Chains.live ttl t (rows.reads RefreshRow.token) hash := by
  unfold RefreshRows.take Chains.live Table.reads
  cases hget : rows.get hash with
  | none => rfl
  | some row =>
    have hlive := h.live httl ht (Table.mem_of_get hget)
    by_cases hrow : timestamptz t < row.expiresAt <;> simp [hrow, Option.filter] at hlive ⊢ <;>
      simp [hlive]

theorem Deadlines.reads_take (hash : Digest) :
    Chains.live ttl t ((rows.take t hash).2.reads RefreshRow.token) =
      Function.update (Chains.live ttl t (rows.reads RefreshRow.token)) hash none := by
  have hreply := h.take_reply httl ht hash
  unfold RefreshRows.take at hreply ⊢
  cases hget : rows.get hash with
  | none =>
    rw [hget] at hreply
    exact (Chains.update_none hreply.symm).symm
  | some row =>
    simp only [hget] at hreply ⊢
    split_ifs at hreply ⊢ with hlive
    · rw [Table.reads_remove, Chains.live_update]
      rfl
    · exact (Chains.update_none hreply.symm).symm

theorem Deadlines.reads_gc :
    (rows.gc t).reads RefreshRow.token = Chains.live ttl t (rows.reads RefreshRow.token) :=
  Table.reads_retain fun _ hrow => h.live httl ht hrow

end

theorem RefreshRows.reads_purge (rows : RefreshRows) (sub : String) :
    (rows.purge sub).reads RefreshRow.token = fun hash =>
      (rows.reads RefreshRow.token hash).filter fun token => token.identity.sub ≠ sub :=
  Table.reads_retain fun _ _ => rfl

def tokenRow (ttl : Seconds) (hash : Digest) (token : RefreshToken) : RefreshRow :=
  ⟨hash, token.identity.sub, token.identity.email, token.identity.groups, token.issuedAt,
    token.issuedAt + nanos ttl.toNat⟩

theorem timestamptz_add_nanos {b : ℤ} (hb : timestamptz b = b) (n : ℕ) :
    timestamptz (b + nanos n) = b + nanos n := by
  unfold timestamptz nanos at *
  omega

theorem exec_storeDb (token : RefreshToken) (hash : Digest) (httl : Lifetime ttl)
    (hroom : s.refresh.rows.length < refreshTokensMaxSize)
    (hb : timestamptz token.issuedAt = token.issuedAt)
    (hmax : token.issuedAt + nanos ttl.toNat ≤ maxTime) :
    (RefreshTokens.storeDb hash token.identity token.issuedAt ttl).exec answer s =
      some (.ok (), { s with refresh := s.refresh.put (tokenRow ttl hash token) }) := by
  have hdeadline : ∀ fallback, deadline token.issuedAt ttl fallback =
      some (token.issuedAt + nanos ttl.toNat) := by
    intro fallback
    rw [deadline, httl.range, Option.getD_some, checkedAdd, if_pos hmax]
  have hrow : (tokenRow ttl hash token).stored = tokenRow ttl hash token := by
    simp only [RefreshRow.stored, tokenRow, hb, timestamptz_add_nanos hb]
  have hcheck : token.issuedAt < token.issuedAt + nanos ttl.toNat := by
    have hpos := httl.pos
    unfold nanos
    omega
  have hupsert : s.refresh.upsert (tokenRow ttl hash token) =
      (.ok (), s.refresh.put (tokenRow ttl hash token)) := by
    rw [RefreshRows.upsert, hrow]
    exact if_pos hcheck
  have hexec : (RefreshTokens.upsertRow hash token.identity token.issuedAt ttl).exec answer s =
      some (.ok (), { s with refresh := s.refresh.put (tokenRow ttl hash token) }) := by
    rw [RefreshTokens.upsertRow, hdeadline]
    simp only [checked, ret_bind, askAs, exec_await, answer, serve]
    rw [show (⟨hash, token.identity.sub, token.identity.email, token.identity.groups, token.issuedAt,
      token.issuedAt + nanos ttl.toNat⟩ : RefreshRow) = tokenRow ttl hash token from rfl, hupsert]
    rfl
  cases hfound : (s.refresh.get hash).isSome with
  | true =>
    simp [RefreshTokens.storeDb, okOr, hfound]
    exact hexec
  | false =>
    simp [RefreshTokens.storeDb, okOr, hfound, require, hroom]
    exact hexec

theorem exec_store {token : String} {identity} {b : ℤ} (httl : Lifetime ttl)
    (hroom : s.refresh.rows.length < refreshTokensMaxSize) (hb : timestamptz b = b)
    (hmax : b + nanos ttl.toNat ≤ maxTime) :
    (RefreshTokens.store ⟨.db, ttl⟩ sha256 token identity b).exec answer s =
      some (.ok (), { s with
        refresh := s.refresh.put (tokenRow ttl (hashSecret sha256 token) ⟨identity, b⟩) }) := by
  have hexec := exec_storeDb ⟨identity, b⟩ (hashSecret sha256 token) httl hroom hb hmax
  simp only [RefreshTokens.store, okOr, exec_bind, hexec, Option.bind_some, pure_eq, exec_ret]

theorem Deadlines.put {rows : RefreshRows} (h : Deadlines ttl rows) (hash : Digest)
    (token : RefreshToken) : Deadlines ttl (rows.put (tokenRow ttl hash token)) := by
  intro row hrow
  rcases Table.mem_put.mp hrow with rfl | ⟨hrow, -⟩
  · rfl
  · exact h row hrow

theorem Deadlines.take {rows : RefreshRows} (h : Deadlines ttl rows) (now : ℤ) (hash : Digest) :
    Deadlines ttl (rows.take now hash).2 :=
  fun row hrow => h row (RefreshRows.mem_take hrow)

theorem db_refines (h : Deadlines ttl s.refresh) (httl : Lifetime ttl) (hfits : Fits ttl t op)
    (hroom : stored s .db < refreshTokensMaxSize) :
    ∃ s', perform ⟨.db, ttl⟩ sha256 s t op =
        some (((contents s .db).perform ttl sha256 t op).1, s') ∧
      (contents s' .db).live ttl t = ((contents s .db).perform ttl sha256 t op).2.live ttl t ∧
      Deadlines ttl s'.refresh := by
  have hstore : ∀ (token : String) (identity : GrantIdentity) (b : ℤ), op.birth t = some b →
      (RefreshTokens.store ⟨.db, ttl⟩ sha256 token identity b).exec answer { s with wall := t } =
        some (.ok (), { s with
          wall := t
          refresh := s.refresh.put (tokenRow ttl (hashSecret sha256 token) ⟨identity, b⟩) }) := by
    intro token identity b hbirth
    obtain ⟨hb, hmax⟩ := hfits.birth b hbirth
    exact exec_store httl hroom hb hmax
  cases op with
  | insert token identity =>
    refine ⟨{ s with
      wall := t
      refresh := s.refresh.put (tokenRow ttl (hashSecret sha256 token) ⟨identity, t⟩) }, ?_, ?_,
      h.put _ _⟩
    · simp [exec_bind, hstore token identity t rfl]
    · simp [contents, Table.reads_put]
      rfl
  | insertRotated token identity issuedAt =>
    refine ⟨{ s with
      wall := t
      refresh := s.refresh.put (tokenRow ttl (hashSecret sha256 token) ⟨identity, issuedAt⟩) }, ?_, ?_,
      h.put _ _⟩
    · simp [exec_bind, hstore token identity issuedAt rfl]
    · simp [contents, Table.reads_put]
      rfl
  | take token =>
    refine ⟨{ s with wall := t, refresh := (s.refresh.take t (hashSecret sha256 token)).2 }, ?_, ?_,
      h.take _ _⟩
    · simp [RefreshTokens.take, okOr, someOr, exec_bind, h.take_reply httl hfits.clock, contents]
      cases hfound : Chains.live ttl t (s.refresh.reads RefreshRow.token) (hashSecret sha256 token) with
      | none => rfl
      | some found =>
        have hlive : chainExpired found.issuedAt t ttl = false := by
          simpa using (Option.filter_eq_some_iff.mp hfound).2
        simp [hlive]
    · simp [contents, h.reads_take httl hfits.clock]
  | purgeForSub sub =>
    refine ⟨{ s with wall := t, refresh := s.refresh.purge sub }, ?_, ?_, h.retain _⟩
    · simp [RefreshTokens.purgeForSub, okOr]
    · simp [contents, RefreshRows.reads_purge]
  | gcExpired =>
    refine ⟨{ s with wall := t, refresh := s.refresh.gc t }, ?_, ?_, h.retain _⟩
    · simp [RefreshTokens.gcExpired, okOr]
    · simp [contents, h.reads_gc httl hfits.clock]

end

/-! ## Sequences -/

/-- Fewer tokens than the maximum are stored before each operation. -/
def Roomy (tokens : RefreshTokens) (sha256 : List UInt8 → Digest) :
    AuthState → List (ℤ × RefreshOp) → Prop
  | _, [] => True
  | s, (t, op) :: ops => stored s tokens.backend < refreshTokensMaxSize ∧
    ∀ x, perform tokens sha256 s t op = some x → Roomy tokens sha256 x.2 ops

section

variable {ttl : Seconds} {sha256 : List UInt8 → Digest} {ops : List (ℤ × RefreshOp)} {s : AuthState}

theorem performAll_refines {b} {P : AuthState → Prop}
    (hops : ∀ x ∈ ops, ∀ s, P s → stored s b < refreshTokensMaxSize →
      ∃ s', perform ⟨b, ttl⟩ sha256 s x.1 x.2 =
          some (((contents s b).perform ttl sha256 x.1 x.2).1, s') ∧
        (contents s' b).live ttl x.1 = ((contents s b).perform ttl sha256 x.1 x.2).2.live ttl x.1 ∧
        P s')
    (hP : P s) {m : Chains} {t₀ : ℤ} (hm : (contents s b).live ttl t₀ = m.live ttl t₀)
    (htimes : (t₀ :: ops.map Prod.fst).Pairwise (· ≤ ·)) (hroom : Roomy ⟨b, ttl⟩ sha256 s ops) :
    ∃ s', performAll ⟨b, ttl⟩ sha256 s ops = some (m.performAll ttl sha256 ops, s') := by
  induction ops generalizing s m t₀ with
  | nil => exact ⟨s, rfl⟩
  | cons x ops ih =>
    obtain ⟨t, op⟩ := x
    rw [List.map_cons, List.pairwise_cons] at htimes
    have hle : t₀ ≤ t := htimes.1 t List.mem_cons_self
    have hlive : (contents s b).live ttl t = m.live ttl t := by
      rw [← Chains.live_live hle, hm, Chains.live_live hle]
    obtain ⟨s₁, hperform, hlive₁, hP₁⟩ := hops (t, op) List.mem_cons_self s hP hroom.1
    rw [Chains.perform_congr hlive] at hperform hlive₁
    obtain ⟨s', hs'⟩ := ih (fun x hx => hops x (List.mem_cons_of_mem _ hx)) hP₁ hlive₁ htimes.2
      (hroom.2 _ hperform)
    refine ⟨s', ?_⟩
    rw [performAll, hperform, Option.bind_some, hs']
    rfl

/-- The backends return the same. -/
theorem backends_agree (httl : Lifetime ttl) {wall : ℤ}
    (htimes : (ops.map Prod.fst).Pairwise (· ≤ ·)) (hfits : ∀ x ∈ ops, Fits ttl x.1 x.2)
    (hdb : Roomy ⟨.db, ttl⟩ sha256 (.init wall) ops)
    (hmemory : Roomy ⟨.memory, ttl⟩ sha256 (.init wall) ops) :
    ∃ results s s', performAll ⟨.db, ttl⟩ sha256 (.init wall) ops = some (results, s) ∧
      performAll ⟨.memory, ttl⟩ sha256 (.init wall) ops = some (results, s') := by
  cases ops with
  | nil => exact ⟨[], _, _, rfl, rfl⟩
  | cons x ops =>
    have htimes₀ : (x.1 :: (x :: ops).map Prod.fst).Pairwise (· ≤ ·) := by
      refine List.pairwise_cons.mpr ⟨?_, htimes⟩
      rw [List.map_cons, List.pairwise_cons] at htimes
      exact List.forall_mem_cons.mpr ⟨le_rfl, htimes.1⟩
    obtain ⟨s, hs⟩ := performAll_refines (P := fun s => Deadlines ttl s.refresh)
      (fun x hx s hP hroom => db_refines hP httl (hfits x hx) hroom) (by rintro row ⟨⟩)
      (m := fun _ => none) rfl htimes₀ hdb
    obtain ⟨s', hs'⟩ := performAll_refines (P := fun _ => True)
      (fun x hx s _ hroom => by
        obtain ⟨s', hperform, hlive⟩ := memory_refines hroom
        exact ⟨s', hperform, hlive, trivial⟩)
      trivial (m := fun _ => none) rfl htimes₀ hmemory
    exact ⟨_, s, s', hs, hs'⟩

end

/-- A token is stored and taken a microsecond later. -/
theorem backends_agree_day : ∃ results s s',
    performAll ⟨.db, 86400⟩ id (.init 0)
      [(0, .insert "r" ⟨"alice", "alice@corp", ["eng"]⟩), (1000, .take "r")] = some (results, s) ∧
    performAll ⟨.memory, 86400⟩ id (.init 0)
      [(0, .insert "r" ⟨"alice", "alice@corp", ["eng"]⟩), (1000, .take "r")] = some (results, s') := by
  refine backends_agree ⟨by decide, by decide⟩ (by decide) ?_ ?_ ?_
  · simp only [List.forall_mem_cons]
    refine ⟨⟨by decide, ?_⟩, ⟨by decide, ?_⟩, by simp⟩
    · rintro b ⟨⟩
      decide
    · rintro b ⟨⟩
  · refine ⟨by decide, fun x hx => ⟨?_, fun _ _ => trivial⟩⟩
    rw [← Option.some.inj hx]
    decide
  · refine ⟨by decide, fun x hx => ⟨?_, fun _ _ => trivial⟩⟩
    rw [← Option.some.inj hx]
    decide

/-- The lifetime that `from_env` (auth/config.rs:109) takes from `REFRESH_TTL_DAYS`; the product
    wraps in a release build. -/
def refreshTtl (days : Option UInt64) : Seconds := days.getD 1 * 24 * 3600

/-- With `REFRESH_TTL_DAYS=0` the CHECK of the table refuses every token. -/
theorem backends_differ : ∃ s s',
    performAll ⟨.db, refreshTtl (some 0)⟩ id (.init 0)
      [(0, .insert "r" ⟨"alice", "alice@corp", ["eng"]⟩)] = some ([.stored false], s) ∧
    performAll ⟨.memory, refreshTtl (some 0)⟩ id (.init 0)
      [(0, .insert "r" ⟨"alice", "alice@corp", ["eng"]⟩)] = some ([.stored true], s') ∧
    Fits (refreshTtl (some 0)) 0 (.insert "r" ⟨"alice", "alice@corp", ["eng"]⟩) ∧
    ∀ b, stored (.init 0) b < refreshTokensMaxSize := by
  refine ⟨_, _, rfl, rfl, ⟨by decide, ?_⟩, ?_⟩
  · rintro b ⟨⟩
    decide
  · intro b
    cases b <;> decide

end DbMcpGateway.Oauth
