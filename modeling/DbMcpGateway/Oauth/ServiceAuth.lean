import DbMcpGateway.Oauth.Endpoints

/-!
# Authentication by service tokens

The tokens of an accepted configuration, resolved at boot (`ServiceTokenStore::from_config`),
the scan of `authenticate`, and the admin gate behind it.

Results:

* `fromAccounts_spec`: the tokens are those of the accounts, in their order, well-formed and
  distinct.
* `authenticate_iff`: a text authenticates an account exactly if it is its token.
* `service_auth`: what the accounts of an accepted configuration authenticate as.
-/

namespace DbMcpGateway.Auth

open Async Async.Prog Config Oauth

/-! ## Tokens -/

/-- The prefix and 64 lowercase hexadecimal digits. -/
def WellFormedToken (token : String) : Prop :=
  ∃ body : List Char, token.toList = tokenPrefix.toList ++ body ∧ body.length = tokenBodyChars ∧
    ∀ c ∈ body, Text.isAsciiDigit c = true ∨ ('a' ≤ c ∧ c ≤ 'f')

/-- Hexadecimal digits take one byte. -/
theorem utf8Size_hex {c : Char} (h : Text.isAsciiDigit c = true ∨ ('a' ≤ c ∧ c ≤ 'f')) :
    c.utf8Size = 1 := by
  rw [Char.utf8Size_eq_one_iff]
  rcases h with h | ⟨-, h⟩
  · rw [Text.isAsciiDigit, Char.isDigit, Bool.and_eq_true, decide_eq_true_eq, decide_eq_true_eq] at h
    exact UInt32.le_trans h.2 (by decide)
  · exact UInt32.le_trans (Char.le_def.mp h) (by decide)

theorem utf8ByteSize_ofList {cs : List Char} (h : ∀ c ∈ cs, c.utf8Size = 1) :
    (String.ofList cs).utf8ByteSize = cs.length := by
  induction cs with
  | nil => simp
  | cons c cs ih =>
    rw [List.forall_mem_cons] at h
    have hsplit : String.ofList (c :: cs) = String.singleton c ++ String.ofList cs := by
      rw [String.singleton_eq_ofList, ← String.ofList_append]
      rfl
    rw [hsplit, String.utf8ByteSize_append, String.utf8ByteSize_singleton, h.1, ih h.2,
      List.length_cons, Nat.add_comm]

theorem isWellFormedToken_iff {token : String} :
    isWellFormedToken token = true ↔ WellFormedToken token := by
  have hhex : ∀ body : List Char,
      (body.all fun c => Text.isAsciiDigit c || ('a' ≤ c && c ≤ 'f')) = true ↔
        ∀ c ∈ body, Text.isAsciiDigit c = true ∨ ('a' ≤ c ∧ c ≤ 'f') := by
    intro body
    simp
  unfold isWellFormedToken
  split_ifs with hinitial
  · refine iff_of_false not_false ?_
    rintro ⟨body, htoken, -⟩
    rw [htoken, List.isPrefixOf_iff_prefix.mpr (List.prefix_append _ _)] at hinitial
    cases hinitial
  · rw [Bool.not_eq_true, Bool.not_eq_false', List.isPrefixOf_iff_prefix] at hinitial
    obtain ⟨body, hbody⟩ := hinitial
    have hdrop : token.toList.drop tokenPrefix.toList.length = body := by
      rw [← hbody, List.drop_left]
    simp only [hdrop, Bool.and_eq_true, beq_iff_eq, hhex]
    constructor
    · rintro ⟨hlength, hdigits⟩
      rw [utf8ByteSize_ofList fun c hc => utf8Size_hex (hdigits c hc)] at hlength
      exact ⟨body, hbody.symm, hlength, hdigits⟩
    · rintro ⟨body', hbody', hlength, hdigits⟩
      obtain rfl := List.append_cancel_left (hbody.trans hbody')
      rw [utf8ByteSize_ofList fun c hc => utf8Size_hex (hdigits c hc)]
      exact ⟨hlength, hdigits⟩

/-- The comparison of two texts compares the texts. -/
theorem ctEq_asBytes {a b : String} : ctEq (asBytes a) (asBytes b) = true ↔ a = b := by
  rw [ctEq_iff, asBytes_injective.eq_iff]

/-! ## The store -/

/-- The token is that of the account. -/
def Resolves (resolve : ServiceAccount → Option String) (a : ServiceAccount)
    (t : ResolvedServiceToken) : Prop :=
  t.name = a.name ∧ t.group = a.group ∧ resolve a = some t.token

structure GoodTokens (tokens : List ResolvedServiceToken) : Prop where
  wellFormed : ∀ t ∈ tokens, WellFormedToken t.token
  distinct : (tokens.map fun t => t.token).Nodup

variable {resolve : ServiceAccount → Option String} {accounts : List ServiceAccount}
  {tokens tokens' : List ResolvedServiceToken}

theorem GoodTokens.concat (h : GoodTokens tokens) {t : ResolvedServiceToken}
    (hformed : WellFormedToken t.token) (hnew : ∀ t' ∈ tokens, t'.token ≠ t.token) :
    GoodTokens (tokens ++ [t]) where
  wellFormed := by
    intro t' ht'
    rcases Indexed.mem_concat_cases ht' with rfl | ht'
    · exact hformed
    · exact h.wellFormed t' ht'
  distinct := by
    rw [List.map_append, List.nodup_append]
    refine ⟨h.distinct, List.nodup_singleton _, fun token htoken token' htoken' => ?_⟩
    obtain ⟨t', ht', rfl⟩ := List.mem_map.mp htoken
    rw [List.mem_singleton.mp htoken']
    exact hnew t' ht'

theorem fromAccounts_spec (h : fromAccounts resolve tokens accounts = .ok tokens')
    (hgood : GoodTokens tokens) :
    GoodTokens tokens' ∧ ∃ new, tokens' = tokens ++ new ∧ List.Forall₂ (Resolves resolve) accounts new := by
  induction accounts generalizing tokens with
  | nil =>
    cases h
    exact ⟨hgood, [], (List.append_nil _).symm, .nil⟩
  | cons account accounts ih =>
    unfold fromAccounts at h
    split at h
    · cases h
    · rename_i exposed hresolve
      split_ifs at h with hweak
      split at h
      · cases h
      · rename_i hfind
        have hformed : WellFormedToken exposed := by
          rw [← isWellFormedToken_iff]
          simpa using hweak
        have hnew : ∀ t ∈ tokens, t.token ≠ exposed := by
          intro t ht heq
          exact absurd (ctEq_asBytes.mpr heq) (List.find?_eq_none.mp hfind t ht)
        obtain ⟨hgood', new, rfl, hnew'⟩ :=
          ih h (hgood.concat (t := ⟨account.name, account.group, exposed⟩) hformed hnew)
        refine ⟨hgood', ⟨account.name, account.group, exposed⟩ :: new, ?_, .cons ?_ hnew'⟩
        · rw [List.append_assoc, List.singleton_append]
        · exact ⟨rfl, rfl, hresolve⟩

theorem authenticate_iff (hgood : GoodTokens tokens) {presented : String}
    {identity} :
    authenticate tokens presented = some identity ↔
      ∃ t ∈ tokens, t.token = presented ∧ identity = t.identity := by
  unfold authenticate
  rw [Option.map_eq_some_iff]
  constructor
  · rintro ⟨t, hfind, rfl⟩
    have hmatches := List.find?_some hfind
    exact ⟨t, List.mem_of_find?_eq_some hfind, ctEq_asBytes.mp hmatches, rfl⟩
  · rintro ⟨t, ht, rfl, rfl⟩
    refine ⟨t, ?_, rfl⟩
    cases hfind : tokens.find? fun t' => ctEq (asBytes t'.token) (asBytes t.token) with
    | none => exact absurd (ctEq_asBytes.mpr rfl) (List.find?_eq_none.mp hfind t ht)
    | some t' =>
      -- the first match is the only one
      have hmatches := List.find?_some hfind
      rw [List.inj_on_of_nodup_map hgood.distinct (List.mem_of_find?_eq_some hfind) ht
        (ctEq_asBytes.mp hmatches)]

/-! ## Accounts of an accepted configuration -/

theorem serviceAccounts_accepted (config : AcceptedConfig) :
    (config.file.serviceAccounts.map fun a => a.name).Nodup ∧
      ∀ a ∈ config.file.serviceAccounts, ∀ admin ∈ config.file.admin, admin.enabled = true →
        a.group ≠ admin.group := by
  have h := config.accepted
  rw [validate, Checks.seq_eq_ok, Checks.bind_eq_ok] at h
  obtain ⟨-, serverNames, -, h⟩ := h
  obtain ⟨groupNames, -, h⟩ := Checks.bind_eq_ok.mp h
  obtain ⟨names, haccounts, -⟩ := Checks.bind_eq_ok.mp h
  obtain ⟨hchecks, hnodup, -⟩ := Checks.forUnique_eq_ok haccounts
  refine ⟨hnodup, fun a ha admin hadmin henabled heq => ?_⟩
  obtain ⟨-, hbody⟩ := hchecks a ha
  rw [validateServiceAccount, Checks.seq_eq_ok, Checks.seq_eq_ok, Checks.rejectIf_eq_ok] at hbody
  obtain ⟨-, -, hgroup⟩ := hbody
  rw [Option.mem_def.mp hadmin] at hgroup
  simp [Checks.rejectIf, henabled, heq] at hgroup

def serviceIdentity (a : ServiceAccount) : Authz.Identity where
  userSub := "service:" ++ a.name
  userEmail := a.name ++ "@service-accounts.invalid"
  groups := [a.group]

/-- What the resolved tokens of some accounts authenticate. -/
structure ServiceAuth (config : ConfigFile) (resolve : ServiceAccount → Option String)
    (tokens : List ResolvedServiceToken) : Prop where
  resolved : List.Forall₂ (Resolves resolve) config.serviceAccounts tokens
  wellFormed : ∀ t ∈ tokens, WellFormedToken t.token
  distinct : (tokens.map fun t => t.token).Nodup
  /-- A text authenticates an account exactly if it is its token, and then no other account. -/
  authenticates : ∀ presented identity, authenticate tokens presented = some identity ↔
    ∃ a ∈ config.serviceAccounts, resolve a = some presented ∧ identity = serviceIdentity a
  unique : ∀ a ∈ config.serviceAccounts, ∀ a' ∈ config.serviceAccounts,
    resolve a = resolve a' → a = a'
  subjects : ∀ a ∈ config.serviceAccounts, ∀ a' ∈ config.serviceAccounts,
    (serviceIdentity a).userSub = (serviceIdentity a').userSub → a = a'
  gate : ∀ admin ∈ config.admin, admin.enabled = true → ∀ app : AppState,
    app.admin.adminGroup = admin.group → ∀ presented (identity : Oauth.Identity),
    authenticate tokens presented = some identity.toIdentity → ∀ requestId es response,
    Yields (requireAdminGroup app requestId identity) es response →
    ∃ id, response = .adminError .forbidden id

/-- The gate refuses identities without the admin group. -/
theorem yields_requireAdminGroup {app : AppState} {identity : Oauth.Identity}
    {requestId es} {response : Response}
    (hgroup : app.admin.adminGroup ∉ identity.groups)
    (h : Yields (requireAdminGroup app requestId identity) es response) :
    ∃ id, response = .adminError .forbidden id := by
  simp [requireAdminGroup, hgroup] at h
  obtain ⟨id, -, rfl⟩ := h
  exact ⟨id, rfl⟩

theorem exists_token {new}
    (h : List.Forall₂ (Resolves resolve) accounts new) {a} (ha : a ∈ accounts) :
    ∃ t ∈ new, Resolves resolve a t := by
  induction h with
  | nil => cases ha
  | cons hresolves _ ih =>
    rcases List.mem_cons.mp ha with rfl | ha
    · exact ⟨_, List.mem_cons_self, hresolves⟩
    · obtain ⟨t, ht, hresolves⟩ := ih ha
      exact ⟨t, List.mem_cons_of_mem _ ht, hresolves⟩

theorem exists_account {new} (h : List.Forall₂ (Resolves resolve) accounts new) {t} (ht : t ∈ new) :
    ∃ a ∈ accounts, Resolves resolve a t := by
  induction h with
  | nil => cases ht
  | cons hresolves _ ih =>
    rcases List.mem_cons.mp ht with rfl | ht
    · exact ⟨_, List.mem_cons_self, hresolves⟩
    · obtain ⟨a, ha, hresolves⟩ := ih ht
      exact ⟨a, List.mem_cons_of_mem _ ha, hresolves⟩

theorem Resolves.identity {a} {t : ResolvedServiceToken}
    (h : Resolves resolve a t) : t.identity = serviceIdentity a := by
  rw [ResolvedServiceToken.identity, serviceIdentity, h.1, h.2.1]

/-- **Service-token authentication**: the accounts of an accepted configuration whose tokens
    resolve have distinct well-formed tokens, each authenticates its own account, under its own
    subject, and the admin gate refuses them all. -/
theorem service_auth (config : AcceptedConfig)
    (hstore : fromConfig resolve config.file.serviceAccounts = .ok tokens) :
    ServiceAuth config.file resolve tokens := by
  obtain ⟨hgood, _, rfl, hresolved⟩ := fromAccounts_spec hstore ⟨by simp, List.nodup_nil⟩
  obtain ⟨hnames, hgroups⟩ := serviceAccounts_accepted config
  have hinj : ∀ a ∈ config.file.serviceAccounts, ∀ a' ∈ config.file.serviceAccounts,
      a.name = a'.name → a = a' := fun a ha a' ha' => List.inj_on_of_nodup_map hnames ha ha'
  have hauth : ∀ presented identity, authenticate tokens presented = some identity ↔
      ∃ a ∈ config.file.serviceAccounts, resolve a = some presented ∧
        identity = serviceIdentity a := by
    intro presented identity
    rw [authenticate_iff hgood]
    constructor
    · rintro ⟨t, ht, rfl, rfl⟩
      obtain ⟨a, ha, hresolves⟩ := exists_account hresolved ht
      exact ⟨a, ha, hresolves.2.2, hresolves.identity⟩
    · rintro ⟨a, ha, hpresented, rfl⟩
      obtain ⟨t, ht, hresolves⟩ := exists_token hresolved ha
      have htoken := Option.some.inj (hresolves.2.2.symm.trans hpresented)
      exact ⟨t, ht, htoken, hresolves.identity.symm⟩
  refine ⟨hresolved, hgood.wellFormed, hgood.distinct, hauth, ?_, ?_, ?_⟩
  · intro a ha a' ha' hsame
    obtain ⟨t, ht, hname, -, htoken⟩ := exists_token hresolved ha
    obtain ⟨t', ht', hname', -, htoken'⟩ := exists_token hresolved ha'
    have heq : t = t' := List.inj_on_of_nodup_map hgood.distinct ht ht'
      (Option.some.inj (htoken.symm.trans (hsame.trans htoken')))
    exact hinj a ha a' ha' (by rw [← hname, ← hname', heq])
  · intro a ha a' ha' hsub
    exact hinj a ha a' ha' (String.append_right_inj _ |>.mp hsub)
  · intro admin hadmin henabled app happ presented identity hidentity requestId es response hyields
    obtain ⟨a, ha, -, hservice⟩ := (hauth presented _).mp hidentity
    refine yields_requireAdminGroup ?_ hyields
    rw [happ, show identity.groups = [a.group] from congrArg Authz.Identity.groups hservice,
      List.mem_singleton]
    exact fun heq => hgroups a ha admin hadmin henabled heq.symm

/-! Two accounts, and the admin routes for a third group. -/

def teamAccepted : AcceptedConfig where
  file :=
    { permissions := [⟨"ci", []⟩, ⟨"reports", []⟩]
      serviceAccounts := [⟨"ci", "ci"⟩, ⟨"nightly", "reports"⟩]
      admin := some { enabled := true, group := "dba" } }
  accepted := by decide

def teamToken (a : ServiceAccount) : Option String :=
  some (tokenPrefix ++ String.ofList (List.replicate 64 (if a.name = "ci" then 'a' else 'b')))

def teamTokens : List ResolvedServiceToken :=
  [⟨"ci", "ci", ciToken⟩,
    ⟨"nightly", "reports", tokenPrefix ++ String.ofList (List.replicate 64 'b')⟩]

/-- The theorem for the two accounts: each token is that of its account, and the admin gate refuses
    the first. -/
theorem service_auth_ci : ServiceAuth teamAccepted.file teamToken teamTokens ∧
    (∀ a ∈ teamAccepted.file.serviceAccounts, ∀ token, teamToken a = some token →
      authenticate teamTokens token = some (serviceIdentity a)) ∧
    ∀ (app : AppState) (identity : Oauth.Identity), app.admin.adminGroup = "dba" →
      identity.toIdentity = ci → ∀ requestId es response,
      Yields (requireAdminGroup app requestId identity) es response →
      ∃ id, response = .adminError .forbidden id := by
  have hstore : fromConfig teamToken teamAccepted.file.serviceAccounts = .ok teamTokens := by
    decide +kernel
  have h := service_auth teamAccepted hstore
  refine ⟨h, ?_, ?_⟩
  · intro a ha token htoken
    exact (h.authenticates token _).mpr ⟨a, ha, htoken, rfl⟩
  · intro app identity happ hidentity
    refine h.gate ⟨true, "dba"⟩ rfl rfl app happ ciToken identity ?_
    rw [hidentity, h.authenticates]
    exact ⟨⟨"ci", "ci"⟩, by decide, rfl, rfl⟩

end DbMcpGateway.Auth
