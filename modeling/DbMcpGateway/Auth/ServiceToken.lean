import DbMcpGateway.Admin.Histories
import DbMcpGateway.Config.Yaml

/-!
# Service tokens

`ServiceTokenStore` (auth/service_token.rs): static bearer tokens of the accounts under
`service_accounts:`, and the identity that a token stands for. The secret a token refers
to comes from the environment; `resolve` is any way to resolve it.

Results:

* `authenticate_eq`: the identity of a token is made from an account of the configuration.
* `service_yaml_only`: an identity whose subject no admin request registers has no DB
  grants, whatever else the history. Nothing stops a request from registering it
  (`service_granted`).
-/

namespace DbMcpGateway.Auth

open Admin Authz Config Machine State

/-! ## The store -/

/-- `TOKEN_PREFIX` (auth/service_token.rs:43). -/
def tokenPrefix : String := "dbmcp_svc_"

/-- `TOKEN_BODY_CHARS` (auth/service_token.rs:48). -/
def tokenBodyChars : ℕ := 64

/-- `is_well_formed_token` (auth/service_token.rs:23). -/
def isWellFormedToken (token : String) : Bool :=
  if !tokenPrefix.toList.isPrefixOf token.toList then false
  else
    let body := token.toList.drop tokenPrefix.toList.length
    (String.ofList body).utf8ByteSize == tokenBodyChars &&
      body.all fun c => Text.isAsciiDigit c || ('a' ≤ c && c ≤ 'f')

/-- `ct_eq` (auth/pkce.rs:41). -/
def ctEq (a b : List UInt8) : Bool :=
  if a.length ≠ b.length then false
  else (a.zip b).foldl (fun acc p => acc ||| (p.1 ^^^ p.2)) 0 == 0

/-- `as_bytes`. -/
def asBytes (s : String) : List UInt8 := s.toUTF8.toList

/-- `struct ResolvedServiceToken` (auth/service_token.rs:54). -/
structure ResolvedServiceToken where
  name : String
  group : String
  token : String
  deriving DecidableEq

/-- `enum ServiceTokenError` (auth/service_token.rs:74). -/
inductive ServiceTokenError
  | resolve (name : String)
  | weakToken (name : String)
  | duplicateToken (existing name : String)
  deriving DecidableEq

/-- The loop of `from_config` over the accounts that are left. -/
def fromAccounts (resolve : ServiceAccount → Option String) :
    List ResolvedServiceToken → List ServiceAccount →
    Except ServiceTokenError (List ResolvedServiceToken)
  | tokens, [] => .ok tokens
  | tokens, account :: accounts =>
    match resolve account with
    | none => .error (.resolve account.name)
    | some exposed =>
      if !isWellFormedToken exposed then .error (.weakToken account.name)
      else match tokens.find? fun t => ctEq (asBytes t.token) (asBytes exposed) with
        | some existing => .error (.duplicateToken existing.name account.name)
        | none => fromAccounts resolve (tokens ++ [⟨account.name, account.group, exposed⟩]) accounts

/-- `ServiceTokenStore::from_config` (auth/service_token.rs:107). -/
def fromConfig (resolve : ServiceAccount → Option String) (accounts : List ServiceAccount) :
    Except ServiceTokenError (List ResolvedServiceToken) :=
  fromAccounts resolve [] accounts

/-- `ResolvedServiceToken::identity` (auth/service_token.rs:155). -/
def ResolvedServiceToken.identity (t : ResolvedServiceToken) : Identity where
  userSub := "service:" ++ t.name
  userEmail := t.name ++ "@service-accounts.invalid"
  groups := [t.group]

/-- `ServiceTokenStore::authenticate` (auth/service_token.rs:145). -/
def authenticate (tokens : List ResolvedServiceToken) (presented : String) : Option Identity :=
  (tokens.find? fun t => ctEq (asBytes t.token) (asBytes presented)).map
    ResolvedServiceToken.identity

/-! ## Identities of accounts -/

variable {resolve : ServiceAccount → Option String}

theorem fromAccounts_mem {accounts tokens tokens'}
    (h : fromAccounts resolve tokens accounts = .ok tokens') {t : ResolvedServiceToken}
    (ht : t ∈ tokens') : t ∈ tokens ∨ ∃ a ∈ accounts, t.name = a.name ∧ t.group = a.group := by
  induction accounts generalizing tokens with
  | nil =>
    cases h
    exact .inl ht
  | cons account accounts ih =>
    unfold fromAccounts at h
    split at h
    · cases h
    · split_ifs at h
      split at h
      · cases h
      · rcases ih h with hmem | ⟨a, ha, hname, hgroup⟩
        · rcases Indexed.mem_concat_cases hmem with rfl | hmem
          · exact .inr ⟨account, List.mem_cons_self, rfl, rfl⟩
          · exact .inl hmem
        · exact .inr ⟨a, List.mem_cons_of_mem _ ha, hname, hgroup⟩

theorem authenticate_eq {accounts : List ServiceAccount} {tokens} {presented : String}
    {identity : Identity} (hstore : fromConfig resolve accounts = .ok tokens)
    (h : authenticate tokens presented = some identity) :
    ∃ a ∈ accounts, identity = ⟨"service:" ++ a.name, a.name ++ "@service-accounts.invalid",
      [a.group]⟩ := by
  unfold authenticate at h
  rw [Option.map_eq_some_iff] at h
  obtain ⟨t, hfind, rfl⟩ := h
  rcases fromAccounts_mem hstore (List.mem_of_find?_eq_some hfind) with hnil | ⟨a, ha, hname, hgroup⟩
  · cases hnil
  · refine ⟨a, ha, ?_⟩
    rw [ResolvedServiceToken.identity, hname, hgroup]

/-- The name of an account of an accepted configuration has no U+0000. -/
theorem validateServiceName_hasNul {name : String} (h : validateServiceName name = .ok ()) :
    Text.hasNul ("service:" ++ name) = false := by
  unfold validateServiceName at h
  dsimp only at h
  split_ifs at h with hvalid
  simp only [Bool.and_eq_true, List.all_eq_true] at hvalid
  obtain ⟨⟨-, hchars⟩, -⟩ := hvalid
  have hname : ∀ c ∈ name.toList, (c == Char.ofNat 0) = false := by
    intro c hc
    have hchar := hchars c hc
    rw [beq_eq_false_iff_ne]
    rintro rfl
    revert hchar
    decide
  rw [Text.hasNul, String.toList_append, List.any_append, Bool.or_eq_false_iff]
  exact ⟨by decide, List.any_eq_false.mpr fun c hc => by rw [hname c hc]; decide⟩

/-! ## No DB grants -/

/-- The call registers no user under the subject: neither the user it creates nor its
    actor has it. -/
def Spares (sub : String) (call : AdminCall) : Prop :=
  call.actor.sub ≠ sub ∧ call.subject ≠ some sub

instance (sub : String) (call : AdminCall) : Decidable (Spares sub call) :=
  inferInstanceAs (Decidable (_ ∧ _))

/-- A subject that no call registers has no user row. -/
theorem rowRule_spares (sub : String) : RowRule (Spares sub)
    (fun s => ∀ u ∈ s.users.rows, u.userSub ≠ sub)
    (fun w => ∀ old u, w = .user old u → u.userSub ≠ sub) where
  empty := by simp [Store.empty, Table.empty]
  apply := by
    intro s w hs hw u hu
    cases w with
    | user old new =>
      rcases Table.mem_put.mp hu with rfl | ⟨hu, -⟩
      · exact hw old u rfl
      · exact hs u hu
    | _ => exact hs u hu
  does := by
    rintro call log now fresh s st x ws ⟨hactor, hsubject⟩ hs hmay hdoes w hw old u rfl
    have hrow : ∀ {id : Audit.Uuid} {u : PermissionsUser}, s.getUser id = some u →
        u.userSub ≠ sub :=
      fun hget => hs _ (Table.mem_of_get (Store.getUser_some hget).1)
    cases hdoes with
    | upsertUserLive hget hnew | upsertActorLive hget hnew =>
      cases List.mem_singleton.mp hw
      have hold := hs _ (Store.getUserBySub_some hget).1
      rw [hnew]
      exact hold
    | upsertUserNew hget hnew =>
      cases List.mem_singleton.mp hw
      rw [hnew]
      rintro rfl
      exact hsubject hmay.2
    | upsertActorNew hget hnew =>
      cases List.mem_singleton.mp hw
      rw [hnew]
      rintro rfl
      exact hactor hmay.1.symm
    | updateUser hget hnew =>
      cases List.mem_singleton.mp hw
      have hold := hrow hget
      rw [hnew]
      exact hold
    | softDeleteUser hget =>
      cases List.mem_singleton.mp hw
      have hold := hrow hget
      exact hold
    | _ => simp at hw

/-- A load from stores without a row of the subject is empty. -/
theorem loadedFrom_spares {sub : String} {grants}
    (h : LoadedFrom (fun s => ∀ u ∈ s.users.rows, u.userSub ≠ sub) sub (.ok grants)) :
    grants = [] := by
  obtain ⟨s₁, s₂, s₃, hs₁, -, -, hload⟩ := h
  have hnone : s₁.getUserBySub sub = none := Store.getUserBySub_none.mpr fun u hu _ => hs₁ u hu
  unfold loadFrom at hload
  rw [hnone] at hload
  split_ifs at hload
  cases hload
  rfl

/-- **Service identities have YAML grants only**, if no admin request registers their
    subject: every `get_for` for the identity returns no grants, a load returns none, and
    each of the caller's grants is in the block of its one group. -/
theorem service_yaml_only (config : AcceptedConfig) {resolve : ServiceAccount → Option String}
    {tokens : List ResolvedServiceToken} {presented : String} {identity : Identity}
    (hstore : fromConfig resolve config.file.serviceAccounts = .ok tokens)
    (hauth : authenticate tokens presented = some identity) {as : List Admin.Action} {s : Sys}
    (hadmits : Meets Sys.step (Admits (Spares identity.userSub)) .init as)
    (h : Machine.run Sys.step .init as = some s) :
    load s.store identity.userSub = .ok [] ∧
    ∀ grants, ⟨identity.userSub, .returned (.ok grants)⟩ ∈ s.cache.calls → grants = [] ∧
      ∃ group, identity.groups = [group] ∧
        ∀ g ∈ callerGrants identity config.file.permissions grants,
          ∃ p ∈ config.file.permissions, p.group = group ∧ g ∈ p.grants := by
  obtain ⟨account, haccount, hidentity⟩ := authenticate_eq hstore hauth
  obtain ⟨hrows, hreads⟩ := (rowRule_spares identity.userSub).run hadmits h
  constructor
  · have hnone : s.store.getUserBySub identity.userSub = none :=
      Store.getUserBySub_none.mpr fun u hu _ => hrows u hu
    have hnul : Text.hasNul identity.userSub = false := by
      rw [hidentity]
      exact validateServiceName_hasNul (config.serviceNames account haccount)
    rw [load_eq, loadFrom, hnone, hnul]
    rfl
  · intro grants hcall
    have hnil : grants = [] := loadedFrom_spares (hreads.calls _ hcall)
    refine ⟨hnil, account.group, by rw [hidentity], fun g hg => ?_⟩
    rw [hnil, hidentity, mem_callerGrants] at hg
    obtain ⟨p, hp, hgroup, hg⟩ := hg.resolve_right List.not_mem_nil
    exact ⟨p, hp, List.mem_singleton.mp hgroup, hg⟩

/-! An account, and a user registered under its subject. -/

def ciConfig : ConfigFile where
  permissions := [⟨"ci", []⟩]
  serviceAccounts := [⟨"ci", "ci"⟩]

def ciToken : String := tokenPrefix ++ String.ofList (List.replicate 64 'a')

def ciAccepted : AcceptedConfig := ⟨ciConfig, by decide⟩

def ciTokens : List ResolvedServiceToken := [⟨"ci", "ci", ciToken⟩]

def ci : Identity := ⟨"service:ci", "ci@service-accounts.invalid", ["ci"]⟩

theorem fromConfig_ci :
    fromConfig (fun _ => some ciToken) ciAccepted.file.serviceAccounts = .ok ciTokens := by
  decide +kernel

theorem authenticate_ci : authenticate ciTokens ciToken = some ci := by decide +kernel

theorem service_yaml_only_ci : ∃ s, Machine.run Sys.step .init
      (aliceCached ++ .cache (.getFor ci.userSub) :: fill 1 1) = some s ∧
    ⟨ci.userSub, .returned (.ok [])⟩ ∈ s.cache.calls ∧ load s.store ci.userSub = .ok [] := by
  have hcheck : (Machine.run Sys.step .init
      (aliceCached ++ .cache (.getFor ci.userSub) :: fill 1 1)).any (fun s =>
      s.cache.calls[1]?.any fun call => call.yielded = some (ci.userSub, [])) = true := by
    decide +kernel
  simp only [Option.any_eq_true, decide_eq_true_eq] at hcheck
  obtain ⟨s, hrun, call, hcall, hyielded⟩ := hcheck
  rw [Call.yielded_eq hyielded] at hcall
  have hspares : ∀ call ∈ arrivals (aliceCached ++ .cache (.getFor ci.userSub) :: fill 1 1),
      Spares ci.userSub call := by decide
  exact ⟨s, hrun, List.mem_of_getElem? hcall,
    (service_yaml_only ciAccepted fromConfig_ci authenticate_ci (meets_admits hspares _) hrun).1⟩

def ciId : Audit.Uuid := 6
def ciGrantId : Audit.Uuid := 7

def registerCi : AdminCall := ⟨admin, .createUser (some ⟨"service:ci", "ci@corp", []⟩)⟩

def grantCi : AdminCall :=
  ⟨admin, .createGrant (some {
    userId := ciId, server := some "shop", dbNameWildcard := some true
    action := "query_read" })⟩

/-- A user is registered under the subject of the account and gets a grant. -/
def ciGranted : List Admin.Action :=
  [serve 0 registerCi 0 [10, ciId, adminId, 11], serve 1 grantCi 1 [ciGrantId, 12, 13, 14],
    invalidate 1 0, [.cache (.getFor ci.userSub)], fill 0 3].flatten

/-- The token has a grant that is in no block of the configuration. -/
theorem service_granted :
    fromConfig (fun _ => some ciToken) ciAccepted.file.serviceAccounts = .ok ciTokens ∧
    authenticate ciTokens ciToken = some ci ∧
    (∃ s, Machine.run Sys.step .init ciGranted = some s ∧
      ⟨ci.userSub, .returned (.ok [shopGrant])⟩ ∈ s.cache.calls) ∧
    ∀ p ∈ ciAccepted.file.permissions, shopGrant ∉ p.grants := by
  have hcheck : (Machine.run Sys.step .init ciGranted).any (fun s =>
      s.cache.calls[0]?.any fun call => call.yielded = some (ci.userSub, [shopGrant])) = true := by
    decide +kernel
  simp only [Option.any_eq_true, decide_eq_true_eq] at hcheck
  obtain ⟨s, hrun, call, hcall, hyielded⟩ := hcheck
  rw [Call.yielded_eq hyielded] at hcall
  exact ⟨fromConfig_ci, authenticate_ci, ⟨s, hrun, List.mem_of_getElem? hcall⟩, by decide⟩

end DbMcpGateway.Auth
