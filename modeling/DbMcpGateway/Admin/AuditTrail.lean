import DbMcpGateway.Admin.Histories

/-!
# The audit trail of the permissions tables

Every commit adds one row to `permissions_audit`: the target of the mutation with its
payloads before and after. The trail is read in the order of the commits.

Results:

* `users_audited_iff`: a commit audits every user row it changes exactly if it does not
  change the actor's row on the side (`actor_unaudited`).
* `audit_chained`: for databases and grants the trail is a chain from nothing to the
  current row, if no row changes between the reading of its payload and its update. At
  READ COMMITTED it may (`audit_broken`).
* `commits_accounted`: a commit changes the target of its audit row and the actor's row only.
-/

namespace DbMcpGateway.Admin

open Async Async.Prog Audit Authz Config State Machine

/-! ## Changes of user rows -/

/-- The row is inserted, or its email, its groups or its deletion state changes. -/
def UserChanged (s s' : Store) (id : Uuid) : Prop :=
  (s.users.get id).map (fun u => (u.userEmail, u.groups, u.deletedAt)) ≠
    (s'.users.get id).map (fun u => (u.userEmail, u.groups, u.deletedAt))

/-- A commit from `s` to `s'` has an audit row for the user row. -/
def UserAudited (s s' : Store) (id : Uuid) : Prop :=
  ∃ row ∈ s'.audit.drop s.audit.length, row.targetType = .user ∧ row.targetId = id

instance (s s' : Store) (id : Uuid) : Decidable (UserChanged s s' id) :=
  inferInstanceAs (Decidable (_ ≠ _))

instance (s s' : Store) (id : Uuid) : Decidable (UserAudited s s' id) :=
  inferInstanceAs (Decidable (∃ row ∈ s'.audit.drop s.audit.length, _ ∧ _))

def WritesUser (w : Write) (id : Uuid) : Prop := ∃ old new, w = .user old new ∧ new.id = id

section

variable {s s' : Store} {m : Mutation} {w : Write}

/-- The audit row of a mutation is for the user row that it writes. -/
theorem Main.target_user_iff (h : Main s m w) {id : Uuid} :
    m.target.1 = .user ∧ m.target.2 = id ↔ WritesUser w id := by
  unfold WritesUser
  cases h with
  | createUser | updateUser => simp [Mutation.target]
  | deleteUser hid => simp [Mutation.target, hid]
  | _ => simp [Mutation.target]

theorem Main.user_of_own {actor} (h : Main s m w) (hown : m.IsOwn actor) :
    ∃ old new, w = .user old new := by
  cases h with
  | createUser | updateUser | deleteUser => exact ⟨_, _, rfl⟩
  | _ => simp [Mutation.IsOwn, Mutation.own] at hown

theorem Main.audit_eq (h : Main s m w) : (s.apply w).audit = s.audit := by
  cases h <;> rfl

/-- Other user rows stay. -/
theorem apply_users_get {id : Uuid} (h : ¬ WritesUser w id) :
    (s.apply w).users.get id = s.users.get id := by
  cases w with
  | user old new => exact Table.get_put_of_ne fun hid => h ⟨old, new, rfl, hid.symm⟩
  | _ => rfl

/-- The upsert of the actor leaves its row as it was exactly if the row is there with the
    actor's email and groups. -/
theorem actor_unchanged_iff (hs : s.WellFormed) {actor : AdminActor} {old}
    {new : PermissionsUser} (hfits : (Write.user old new).Fits s) (hsub : new.userSub = actor.sub)
    (hemail : new.userEmail = actor.email) (hgroups : new.groups = actor.groups)
    (hlive : new.live = true) :
    (s.users.get new.id).map (fun u => (u.userEmail, u.groups, u.deletedAt)) =
      some (new.userEmail, new.groups, new.deletedAt) ↔
    ∃ u, s.getUserBySub actor.sub = some u ∧ u.userEmail = actor.email ∧
      u.groups = actor.groups := by
  obtain ⟨hget, hold, hunique⟩ := hfits
  rw [Option.map_eq_some_iff]
  constructor
  · rintro ⟨u, hu, hsame⟩
    rw [Prod.mk.injEq, Prod.mk.injEq] at hsame
    obtain ⟨hulive, husub⟩ := hold u (hget.symm.trans hu)
    refine ⟨u, (Store.getUserBySub_eq_some hs).mpr ?_, hsame.1.trans hemail,
      hsame.2.1.trans hgroups⟩
    exact ⟨Table.mem_of_get hu, hulive, husub.symm.trans hsub⟩
  · rintro ⟨u, hu, huemail, hugroups⟩
    obtain ⟨hmem, hulive, husub⟩ := Store.getUserBySub_some hu
    have hid := hunique hlive u hmem hulive (husub.trans hsub.symm)
    refine ⟨u, Table.get_eq_some.mpr ⟨hmem, hid⟩, ?_⟩
    unfold PermissionsUser.live at hulive hlive
    rw [Option.isNone_iff_eq_none] at hulive hlive
    rw [huemail, hugroups, hulive, hemail, hgroups, hlive]

/-- **What a commit audits.** -/
theorem Commits.audits_users_iff {call : AdminCall} {t : Tx} (h : Commits call t s s') :
    ∃ (m : Mutation) (actorId : Uuid), t.log = m.log call.actor actorId ∧
      ((∀ id, UserChanged s s' id → UserAudited s s' id) ↔
        m.IsOwn call.actor ∨ ∃ u, s.getUserBySub call.actor.sub = some u ∧
          u.userEmail = call.actor.email ∧ u.groups = call.actor.groups) := by
  obtain ⟨m, actorId, w, wsActor, hlog, hmain, hactor, hwrites, hfits, htail, hresult, -⟩ := h.parts
  refine ⟨m, actorId, hlog, ?_⟩
  have haudit : s'.audit = s.audit ++ [m.auditRow call.actor actorId] := by
    rw [hresult]
    cases hactor <;> exact congrArg (· ++ _) hmain.audit_eq
  have haudited : ∀ id, UserAudited s s' id ↔ WritesUser w id := by
    intro id
    unfold UserAudited
    rw [haudit, List.drop_left, ← hmain.target_user_iff]
    simp [Mutation.auditRow]
  cases hactor with
  | own hown =>
    refine iff_of_true (fun id hchanged => ?_) (.inl hown)
    rw [haudited]
    by_contra hnot
    refine hchanged ?_
    rw [hresult]
    exact congrArg _ (apply_users_get hnot).symm
  | @upsert old new hown hid hsub hemail hgroups hlive =>
    -- the row of the actor is another one
    have hall := h.fits
    rw [hwrites] at hall
    have hupsert : (Write.user old new).Fits s :=
      hall.fits _ (List.mem_cons_of_mem _ List.mem_cons_self)
    have hother : ¬ WritesUser w new.id := by
      rintro ⟨old', new', rfl, hid'⟩
      have hdisjoint := (List.pairwise_cons.mp hall.apart).1 _ List.mem_cons_self
      exact hdisjoint (a := .userRow new'.id) (by simp [writes])
        (by simp [writes, hid'])
    have husers : s'.users = (s.apply w).users.put new := by rw [hresult]; rfl
    have hself : s'.users.get new.id = some new := by rw [husers, Table.get_put_self]
    rw [or_iff_right hown,
      ← actor_unchanged_iff h.wellFormed hupsert hsub hemail hgroups hlive]
    constructor
    · intro hall
      by_contra hne
      refine hother ((haudited _).mp (hall new.id ?_))
      unfold UserChanged
      rw [hself]
      exact hne
    · intro hsame id hchanged
      rw [haudited]
      by_contra hnot
      by_cases hid' : id = new.id
      · refine hchanged ?_
        rw [hid', hself, hsame]
        rfl
      · refine hchanged ?_
        rw [husers, Table.get_put_of_ne hid', apply_users_get hnot]

end

/-- **Which commits audit every user row they change**: those of the actor's own row, and
    those that find the actor's row with the email and the groups of the actor. -/
theorem users_audited_iff {as : List Action} {s : Sys}
    (h : Machine.run Sys.step .init as = some s) {v : ℕ} {s₀ s₁ : Store}
    (hs₀ : s.versions[v]? = some s₀) (hs₁ : s.versions[v + 1]? = some s₁) :
    ∃ r ∈ s.requests, ∃ (t : Tx) (m : Mutation) (actorId : Uuid), r.tx = .committed t v ∧
      t.log = m.log r.call.actor actorId ∧
      ((∀ id, UserChanged s₀ s₁ id → UserAudited s₀ s₁ id) ↔
        m.IsOwn r.call.actor ∨ ∃ u, s₀.getUserBySub r.call.actor.sub = some u ∧
          u.userEmail = r.call.actor.email ∧ u.groups = r.call.actor.groups) := by
  obtain ⟨r, hr, t, htx, hcommits⟩ := (Sys.ok_of_run h).history v s₀ s₁ hs₀ hs₁
  obtain ⟨m, actorId, hlog, hiff⟩ := hcommits.audits_users_iff
  exact ⟨r, hr, t, m, actorId, htx, hlog, hiff⟩

def bobId : Uuid := 8

def registerBob : AdminCall := ⟨admin, .createUser (some ⟨"bob", "bob@corp", []⟩)⟩

/-- Two users are registered by one actor. -/
def aliceAndBob : List Action :=
  serve 0 registerAlice 0 [10, aliceId, adminId, 11] ++ serve 1 registerBob 1 [12, bobId, 13, 14]

/-- The second registration finds the actor's row as it is. -/
theorem users_audited_bob : ∃ s s₀ s₁, Machine.run Sys.step .init aliceAndBob = some s ∧
    s.versions[1]? = some s₀ ∧ s.versions[2]? = some s₁ ∧ UserChanged s₀ s₁ bobId ∧
    ∀ id, UserChanged s₀ s₁ id → UserAudited s₀ s₁ id := by
  have hcheck : (Machine.run Sys.step .init aliceAndBob).any (fun s =>
      (s.requests.all fun r => r.call.actor = admin) &&
      (s.versions[1]?).any fun s₀ => (s.versions[2]?).any fun s₁ =>
        decide (UserChanged s₀ s₁ bobId) && (s₀.getUserBySub admin.sub).any fun u =>
          u.userEmail = admin.email && u.groups = admin.groups) = true := by decide +kernel
  simp only [Option.any_eq_true, Bool.and_eq_true, decide_eq_true_eq, List.all_eq_true] at hcheck
  obtain ⟨s, hrun, hactors, s₀, hs₀, s₁, hs₁, hchanged, u, hu, hemail, hgroups⟩ := hcheck
  obtain ⟨r, hr, t, m, actorId, -, -, hiff⟩ := users_audited_iff hrun hs₀ hs₁
  rw [hactors r hr] at hiff
  exact ⟨s, s₀, s₁, hrun, hs₀, hs₁, hchanged, hiff.mpr (.inr ⟨u, hu, hemail, hgroups⟩)⟩

/-- The first registration adds the row of the actor, which no audit row is for. -/
theorem actor_unaudited : ∃ s s₀ s₁, Machine.run Sys.step .init aliceAndBob = some s ∧
    s.versions[0]? = some s₀ ∧ s.versions[1]? = some s₁ ∧ UserChanged s₀ s₁ adminId ∧
    ¬ UserAudited s₀ s₁ adminId := by
  have hcheck : (Machine.run Sys.step .init aliceAndBob).any (fun s =>
      (s.versions[0]?).any fun s₀ => (s.versions[1]?).any fun s₁ =>
        decide (UserChanged s₀ s₁ adminId) && decide (¬ UserAudited s₀ s₁ adminId)) = true := by
    decide +kernel
  simp only [Option.any_eq_true, Bool.and_eq_true, decide_eq_true_eq] at hcheck
  obtain ⟨s, hrun, s₀, hs₀, s₁, hs₁, hchanged, hunaudited⟩ := hcheck
  exact ⟨s, s₀, s₁, hrun, hs₀, hs₁, hchanged, hunaudited⟩

/-! ## Chains -/

/-- Every entry starts where the one before it ended, from `p` to `q`. -/
def LinksTo {α β : Type} (before after : α → Option β) : Option β → List α → Option β → Prop
  | p, [], q => p = q
  | p, a :: as, q => before a = p ∧ LinksTo before after (after a) as q

theorem LinksTo.concat {α β : Type} {before after : α → Option β} {p q} {as : List α}
    {a : α} (h : LinksTo before after p as q) (ha : before a = q) :
    LinksTo before after p (as ++ [a]) (after a) := by
  induction as generalizing p with
  | nil => exact ⟨ha.trans h.symm, rfl⟩
  | cons b as ih => exact ⟨h.1, ih h.2⟩

/-- What an audit row is about. -/
abbrev Target := PermissionsAuditTargetType × Uuid

/-- The audit rows of a target, in the order of the commits. -/
def trail (s : Store) (target : Target) : List PermissionsAuditRow :=
  s.audit.filter fun row => (row.targetType, row.targetId) = target

/-- The payload of a live row. -/
def current (s : Store) : Target → Option Payload
  | (.user, id) => (s.getUser id).map userPayload
  | (.database, id) => (s.getDatabase id).map databasePayload
  | (.grant, id) => (s.getGrant id).map grantPayload

/-- The trail of every database and every grant is a chain from nothing to its row. -/
def Chained (s : Store) : Prop :=
  ∀ target : Target, target.1 ≠ .user →
    LinksTo PermissionsAuditRow.before PermissionsAuditRow.after none (trail s target)
      (current s target)

/-! ## Rows and their payloads -/

def writtenRow : Write → Option Target
  | .user _ new => some (.user, new.id)
  | .database _ new => some (.database, new.id)
  | .grant _ new => some (.grant, new.id)
  | .audit _ => none

def replaced : Write → Option Payload
  | .user old _ => old.map userPayload
  | .database old _ => old.map databasePayload
  | .grant old _ => old.map grantPayload
  | .audit _ => none

/-- The payload of the row that a write leaves, if it is live. -/
def installed : Write → Option Payload
  | .user _ new => if new.live then some (userPayload new) else none
  | .database _ new => if new.live then some (databasePayload new) else none
  | .grant _ new => if new.live then some (grantPayload new) else none
  | .audit _ => none

/-- The row that a handler has read for its `before` payload, with the payload. -/
def readBefore : List Exchange → Option (Target × Payload)
  | ⟨.getDatabaseById id, some before⟩ :: _ => some ((.database, id), databasePayload before)
  | ⟨.getGrantById id, some before⟩ :: _ => some ((.grant, id), grantPayload before)
  | _ => none

section

variable {s s' : Store} {m : Mutation} {w : Write} {ws : List Write} {target : Target}

theorem current_apply_of_ne (h : writtenRow w ≠ some target) :
    current (s.apply w) target = current s target := by
  obtain ⟨type, id⟩ := target
  cases w with
  | user old new =>
    cases type with
    | user =>
      have hne : id ≠ new.id := fun hid => h (by rw [writtenRow, hid])
      simp only [current, Store.getUser, Store.apply, Table.get_put_of_ne hne]
    | _ => rfl
  | database old new =>
    cases type with
    | database =>
      have hne : id ≠ new.id := fun hid => h (by rw [writtenRow, hid])
      simp only [current, Store.getDatabase, Store.apply, Table.get_put_of_ne hne]
    | _ => rfl
  | grant old new =>
    cases type with
    | grant =>
      have hne : id ≠ new.id := fun hid => h (by rw [writtenRow, hid])
      simp only [current, Store.getGrant, Store.apply, Table.get_put_of_ne hne]
    | _ => rfl
  | audit row => cases type <;> rfl

theorem current_apply_self (h : writtenRow w = some target) :
    current (s.apply w) target = installed w := by
  cases w with
  | user old new =>
    cases h
    rw [current, Store.getUser, Store.apply, Table.get_put_self, installed]
    cases hlive : new.live <;> simp [Option.filter, hlive]
  | database old new =>
    cases h
    rw [current, Store.getDatabase, Store.apply, Table.get_put_self, installed]
    cases hlive : new.live <;> simp [Option.filter, hlive]
  | grant old new =>
    cases h
    rw [current, Store.getGrant, Store.apply, Table.get_put_self, installed]
    cases hlive : new.live <;> simp [Option.filter, hlive]
  | audit row => cases h

theorem current_applyAll_of_ne (h : ∀ w ∈ ws, writtenRow w ≠ some target) :
    current (writes.applyAll s ws) target = current s target := by
  induction ws generalizing s with
  | nil => rfl
  | cons w ws ih =>
    rw [List.forall_mem_cons] at h
    rw [Txn.Model.applyAll_cons, ih h.2]
    exact current_apply_of_ne h.1

theorem current_of_fits (h : w.Fits s) (hrow : writtenRow w = some target) :
    current s target = replaced w := by
  cases w with
  | user old new =>
    cases hrow
    obtain ⟨hget, hlive, -⟩ := h
    cases old with
    | none => simp [current, replaced, Store.getUser, hget]
    | some u => simp [current, replaced, Store.getUser, hget, (hlive u rfl).1]
  | database old new =>
    cases hrow
    obtain ⟨hget, hlive, -⟩ := h
    cases old with
    | none => simp [current, replaced, Store.getDatabase, hget]
    | some d => simp [current, replaced, Store.getDatabase, hget, hlive d rfl]
  | grant old new =>
    cases hrow
    obtain ⟨hget, hlive, -⟩ := h
    cases old with
    | none => simp [current, replaced, Store.getGrant, hget]
    | some g => simp [current, replaced, Store.getGrant, hget, (hlive g rfl).1]
  | audit row => cases hrow

/-- The write of a mutation is of its target. -/
theorem Main.writtenRow_eq (h : Main s m w) : writtenRow w = some m.target := by
  cases h with
  | deleteUser hid | deleteDatabase hid | deleteGrant hid => simp [writtenRow, Mutation.target, hid]
  | _ => rfl

/-- After the write the target is as the audit row says. -/
theorem Main.after_eq (h : Main s m w) : current (s.apply w) m.target = m.afterPayload := by
  rw [current_apply_self h.writtenRow_eq]
  cases h with
  | createUser _ hlive | updateUser _ _ hlive | createDatabase hlive | updateDatabase _ _ hlive
  | createGrant hlive | updateGrant _ _ hlive => exact if_pos hlive
  | _ => rfl

/-- The `before` payload: nothing for a new row, else what was read of the target. -/
theorem Main.before_cases (h : Main s m w) (hne : m.target.1 ≠ .user) (actor : AdminActor)
    (actorId : Uuid) :
    (m.beforePayload = none ∧ replaced w = none) ∨
      ∃ p, readBefore (m.log actor actorId) = some (m.target, p) ∧ m.beforePayload = some p := by
  cases h with
  | createDatabase | createGrant => exact .inl ⟨rfl, rfl⟩
  | updateDatabase hid | updateGrant hid =>
    refine .inr ⟨_, ?_, rfl⟩
    rw [Mutation.target, hid]
    rfl
  | deleteDatabase | deleteGrant => exact .inr ⟨_, rfl, rfl⟩
  | _ => exact absurd rfl hne

end

/-! ## What was read is what is written -/

/-- What a transaction has read for the payload is committed, until it writes the row, and
    then it is what the write replaces. -/
structure Aligned (s : Store) (log : List Exchange) (ws : List Write) : Prop where
  unwritten : ∀ target p, readBefore log = some (target, p) → ws = [] → current s target = some p
  written : ∀ target p, readBefore log = some (target, p) → ∀ w ∈ ws,
    writtenRow w = some target → replaced w = some p

section

variable {s : Store} {log : List Exchange} {w : Write} {ws ws' : List Write} {target : Target}
  {p : Payload}

theorem aligned_nil : Aligned s [] ws := by constructor <;> simp [readBefore]

theorem Aligned.applyAll (h : Aligned s log ws)
    (hother : ws = [] → ∀ w ∈ ws', ∀ target p, readBefore log = some (target, p) →
      writtenRow w ≠ some target) : Aligned (writes.applyAll s ws') log ws := by
  refine ⟨?_, h.written⟩
  intro target p hread hnil
  rw [current_applyAll_of_ne fun w hw => hother hnil w hw target p hread]
  exact h.unwritten target p hread hnil

/-- Only databases and grants are read for the payload. -/
theorem readBefore_ne_user (h : readBefore log = some (target, p)) : target.1 ≠ .user := by
  unfold readBefore at h
  split at h
  · cases h
    simp
  · cases h
    simp
  · cases h

/-- The first statement decides what is read for the payload. -/
theorem readBefore_append {e : Exchange} (h : log ≠ []) :
    readBefore (log ++ [e]) = readBefore log := by
  cases log with
  | nil => exact absurd rfl h
  | cons e' log =>
    unfold readBefore
    split <;> simp_all

/-- A statement that writes a database or a grant comes before all other writes. -/
theorem MayRun.readsOnly {actor subject} {st : Stmt} {x : st.Resp}
    {now} {fresh : Uuid} (hmay : MayRun actor subject log st)
    (hdoes : st.Does now fresh s x ws) (hw : w ∈ ws) (hrow : writtenRow w = some target)
    (hne : target.1 ≠ .user) : ReadsOnly log := by
  rcases hmay.cases with hread | hreads | ⟨row, rfl⟩ | ⟨rfl, -⟩
  · rw [hdoes.of_read hread] at hw
    cases hw
  · exact hreads
  · cases hdoes
    cases List.mem_singleton.mp hw
    cases hrow
  · cases hdoes <;>
    · cases List.mem_singleton.mp hw
      cases hrow
      exact absurd rfl hne

theorem readBefore_does {st : Stmt} {x : st.Resp} {now} {fresh : Uuid}
    (hdoes : st.Does now fresh s x ws) (h : readBefore [⟨st, x⟩] = some (target, p)) :
    current s target = some p ∧ ws = [] := by
  unfold readBefore at h
  split at h
  · rename_i id before rest heq
    cases h
    cases heq
    obtain ⟨hget, hnil⟩ := hdoes.getDatabaseById_eq
    exact ⟨by rw [current, hget]; rfl, hnil⟩
  · rename_i id before rest heq
    cases h
    cases heq
    obtain ⟨hget, hnil⟩ := hdoes.getGrantById_eq
    exact ⟨by rw [current, hget]; rfl, hnil⟩
  · cases h

theorem Aligned.exec {actor subject} {st : Stmt} {x : st.Resp}
    {now} {fresh : Uuid} (h : Aligned s log ws) (hs : s.WellFormed)
    (hexplains : Explains s now .empty [] log ws) (hfits : writes.FitsAll s ws)
    (hmay : MayRun actor subject log st) (hunused : (writes.applyAll s ws).Unused fresh)
    (hdoes : st.Does now fresh (writes.applyAll s ws) x ws') :
    Aligned s (log ++ [⟨st, x⟩]) (ws ++ ws') := by
  have hview := hdoes.fits (wellFormed_applyAll hs hfits) hunused
  by_cases hlog : log = []
  · subst hlog
    cases hexplains
    constructor
    · intro target p hread _
      exact (readBefore_does hdoes hread).1
    · intro target p hread w hw
      rw [(readBefore_does hdoes hread).2] at hw
      cases hw
  · constructor
    · intro target p hread hnil
      rw [readBefore_append hlog] at hread
      exact h.unwritten target p hread (List.append_eq_nil_iff.mp hnil).1
    · intro target p hread w hw hrow
      rw [readBefore_append hlog] at hread
      rcases List.mem_append.mp hw with hw | hw
      · exact h.written target p hread w hw hrow
      · -- nothing is written yet, so what was read is still there
        have hreads := hmay.readsOnly hdoes hw hrow (readBefore_ne_user hread)
        have hnil := hexplains.readsOnly hreads
        subst hnil
        rw [← current_of_fits (hview w hw) hrow]
        exact h.unwritten target p hread rfl

end

/-! ## Commits -/

/-- **A commit adds a link to the chain of its target.** -/
theorem Chained.commit {s s' : Store} {call} {t : Tx} (h : Chained s)
    (hcommits : Commits call t s s') (haligned : Aligned s t.log t.writes) : Chained s' := by
  obtain ⟨m, actorId, w, wsActor, hlog, hmain, hactor, hwrites, hfits, -, hresult, -⟩ :=
    hcommits.parts
  intro target hne
  have htrail : trail s' target =
      trail s target ++ if m.target = target then [m.auditRow call.actor actorId] else [] := by
    have haudit : s'.audit = s.audit ++ [m.auditRow call.actor actorId] := by
      rw [hresult]
      cases hactor <;> exact congrArg (· ++ _) hmain.audit_eq
    unfold trail
    rw [haudit, List.filter_append]
    simp [List.filter_cons, Mutation.auditRow]
  -- the actor's row and the audit row are of other targets
  have hcurrent : current s' target = current (s.apply w) target := by
    rw [hresult]
    refine current_applyAll_of_ne fun w' hw' hrow => ?_
    rcases List.mem_append.mp hw' with hw' | hw'
    · cases hactor with
      | own => cases hw'
      | upsert =>
        cases List.mem_singleton.mp hw'
        cases hrow
        exact hne rfl
    · cases List.mem_singleton.mp hw'
      cases hrow
  rw [htrail, hcurrent]
  by_cases htarget : m.target = target
  · subst htarget
    rw [if_pos rfl, hmain.after_eq]
    refine (h m.target hne).concat (a := m.auditRow call.actor actorId) ?_
    rw [current_of_fits hfits hmain.writtenRow_eq]
    rcases hmain.before_cases hne call.actor actorId with ⟨hbefore, hnone⟩ | ⟨p, hread, hbefore⟩
    · exact hbefore.trans hnone.symm
    · rw [← hlog] at hread
      have hmem : w ∈ t.writes := by rw [hwrites]; exact List.mem_cons_self
      exact hbefore.trans (haligned.written _ p hread w hmem hmain.writtenRow_eq).symm
  · rw [if_neg htarget, List.append_nil, current_apply_of_ne]
    · exact h target hne
    · rw [hmain.writtenRow_eq]
      exact fun heq => htarget (Option.some.inj heq)

/-- A commit writes no row that an open transaction has read for its `before` payload and
    not yet written. -/
def keepsBefore (s : Sys) : Action → Bool
  | .settle i true =>
    match s.requests[i]? with
    | some ⟨_, _, .committing t, _⟩ => s.requests.all fun r =>
      match r.tx.active with
      | some t' => !t'.writes.isEmpty || t.writes.all fun w =>
        (readBefore t'.log).all fun read => writtenRow w ≠ some read.1
      | none => true
    | _ => true
  | _ => true

/-- Every active transaction is aligned with the store. -/
def Sys.Aligned (s : Sys) : Prop :=
  ∀ r ∈ s.requests, ∀ t, r.tx.active = some t → Admin.Aligned s.store t.log t.writes

namespace Sys

variable {s s' : Sys} {a : Action} {i : ℕ} {r' : Request}

theorem Aligned.setRequest (h : s.Aligned)
    (hr' : ∀ t, r'.tx.active = some t → Admin.Aligned s.store t.log t.writes) :
    (s.setRequest i r').Aligned := by
  intro r hr
  rcases Indexed.mem_set_cases hr with rfl | hr
  · exact hr'
  · exact h r hr

theorem Aligned.commit {call task} {t : Tx} {spawned : Bool} {v : ℕ}
    (h : s.Aligned) (hi : s.requests[i]? = some ⟨call, task, .committing t, spawned⟩)
    (hkeeps : keepsBefore s (.settle i true) = true) :
    ((s.setRequest i ⟨call, task, .committed t v, spawned⟩).commit t).Aligned := by
  simp only [keepsBefore, hi, List.all_eq_true] at hkeeps
  intro r hr t' ht'
  rcases Indexed.mem_set_cases hr with rfl | hr
  · cases ht'
  · refine (h r hr t' ht').applyAll fun hnil w hw target p hread => ?_
    have hother := hkeeps r hr
    simp only [ht', hnil, hread, List.isEmpty_nil, Bool.not_true, Bool.false_or,
      List.all_eq_true, Option.all_some, decide_eq_true_eq] at hother
    exact hother w hw

theorem Aligned.step (h : s.Aligned) (hok : s.Ok) (hkeeps : keepsBefore s a = true)
    (hmoves : s.Moves a s') : s'.Aligned := by
  cases hmoves with
  | arrive =>
    intro r hr t ht
    rcases Indexed.mem_concat_cases hr with rfl | hr
    · cases ht
    · exact h r hr t ht
  | request hi hmove =>
    refine h.setRequest fun t ht => ?_
    rcases hmove.active ht with ht | ⟨hlog, -⟩
    · exact h _ (List.mem_of_getElem? hi) t ht
    · rw [hlog]
      exact aligned_nil
  | exec hi hdoes _ hunused =>
    have hmem := List.mem_of_getElem? hi
    refine h.setRequest ?_
    rintro t' ⟨⟩
    exact (h _ hmem _ rfl).exec hok.wellFormed (hok.explains _ hmem _ rfl) (hok.fits _ hmem _ rfl)
      (hok.follows _ hmem).mayRun hunused hdoes
  | commit hi => exact h.commit hi hkeeps
  | spawn hi => exact h.setRequest fun t ht => h _ (List.mem_of_getElem? hi) t ht
  | cache => exact h

end Sys

/-- **The audit trail is a chain**, if no commit changes a row that an open transaction
    has read for its payload and not yet written. -/
theorem audit_chained {as : List Action} {s : Sys}
    (hkeeps : Meets Sys.step (fun s a => keepsBefore s a = true) .init as)
    (h : Machine.run Sys.step .init as = some s) : Chained s.store := by
  have hboth : s.Aligned ∧ Chained s.store := by
    refine Sys.invariant_of_run (P := fun s => s.Aligned ∧ Chained s.store) ?_ hkeeps h Sys.ok_init
      ⟨by simp [Sys.Aligned, Sys.init], fun target _ => ?_⟩
    · rintro s a s' hok ⟨haligned, hchained⟩ hc hmoves
      refine ⟨haligned.step hok hc hmoves, ?_⟩
      cases hmoves with
      | commit hi =>
        exact hchained.commit (hok.commits hi) (haligned _ (List.mem_of_getElem? hi) _ rfl)
      | _ => exact hchained
    · obtain ⟨type, id⟩ := target
      cases type <;> rfl
  exact hboth.2

def renameOrders : AdminCall :=
  ⟨admin, .patchDatabase (some ordersId) (some { dbName := some "sales" })⟩

def moveOrders : AdminCall :=
  ⟨admin, .patchDatabase (some ordersId) (some { server := some "erp" })⟩

/-- A database is registered, renamed, moved and deleted. -/
def ordersPatched : List Action :=
  [serve 0 registerOrders 0 [ordersId, adminId, 10], serve 1 renameOrders 1 [11, 12, 13, 14],
    serve 2 moveOrders 2 [15, 16, 17, 18], serve 3 deleteOrders 3 [19, 20, 21, 22]].flatten

theorem audit_chained_orders : ∃ s, Machine.run Sys.step .init ordersPatched = some s ∧
    (trail s.store (.database, ordersId)).length = 4 ∧ Chained s.store := by
  have hcheck : (Machine.run Sys.step .init ordersPatched).any (fun s =>
      (trail s.store (.database, ordersId)).length = 4) = true := by decide +kernel
  have hkeeps : checks Sys.step keepsBefore .init ordersPatched = true := by decide +kernel
  simp only [Option.any_eq_true, decide_eq_true_eq] at hcheck
  obtain ⟨s, hrun, hlength⟩ := hcheck
  exact ⟨s, hrun, hlength, audit_chained (meets_of_checks hkeeps) hrun⟩

/-- Both patches read the row before one of them has updated it. -/
def ordersRaced : List Action :=
  [serve 0 registerOrders 0 [ordersId, adminId, 10],
    upToCommit 1 renameOrders 1 [11], upToCommit 2 moveOrders 2 [12],
    [.exec 1 13 none, .exec 1 14 none, .exec 1 15 none,
      .sendCommit 1, .settle 1 true, .reply 1 none],
    [.exec 2 16 none, .exec 2 17 none, .exec 2 18 none,
      .sendCommit 2, .settle 2 true, .reply 2 none]].flatten

def databaseNames : Payload → Option (String × String)
  | .database _ server dbName _ _ _ => some (server, dbName)
  | _ => none

/-- The row of the second patch tells of a change that it did not make. -/
theorem audit_broken : ∃ s, Machine.run Sys.step .init ordersRaced = some s ∧
    (trail s.store (.database, ordersId)).map
        (fun row => (row.before.bind databaseNames, row.after.bind databaseNames)) =
      [(none, some ("shop", "orders")), (some ("shop", "orders"), some ("shop", "sales")),
        (some ("shop", "orders"), some ("erp", "sales"))] ∧
    ¬ Chained s.store := by
  have hcheck : (Machine.run Sys.step .init ordersRaced).any (fun s =>
      decide ((trail s.store (.database, ordersId)).map
        (fun row => (row.before.bind databaseNames, row.after.bind databaseNames)) =
      [(none, some ("shop", "orders")), (some ("shop", "orders"), some ("shop", "sales")),
        (some ("shop", "orders"), some ("erp", "sales"))])) = true := by decide +kernel
  simp only [Option.any_eq_true, decide_eq_true_eq] at hcheck
  obtain ⟨s, hrun, htrail⟩ := hcheck
  refine ⟨s, hrun, htrail, fun hchained => ?_⟩
  have hlinks := hchained (.database, ordersId) (by simp)
  simp only [List.map_eq_cons_iff, List.map_eq_nil_iff, Prod.mk.injEq] at htrail
  obtain ⟨created, _, hrows, -, renamed, _, rfl, ⟨-, hafter⟩, moved, _, rfl, ⟨hbefore, -⟩, rfl⟩ :=
    htrail
  rw [hrows] at hlinks
  obtain ⟨-, -, hlink, -⟩ := hlinks
  rw [hlink, hafter] at hbefore
  simp at hbefore

/-! ## What a commit changes -/

/-- The commit has added one audit row, of a request of the actor. It shows its target as it
    is now, and nothing changed but the target and the row of the actor's subject. -/
structure Accounts (actor : AdminActor) (row : PermissionsAuditRow) (s s' : Store) : Prop where
  added : s'.audit = s.audit ++ [row]
  email : row.actorEmail = actor.email
  request : row.requestId = actor.requestId
  actor : ∃ u, s'.users.get row.actorId = some u ∧ u.userSub = actor.sub
  after : row.after = current s' (row.targetType, row.targetId)
  frame : ∀ target : Target, target ≠ (row.targetType, row.targetId) →
    target ≠ (.user, row.actorId) → current s' target = current s target

theorem Commits.accounts {s s' : Store} {call : AdminCall} {t : Tx} (h : Commits call t s s') :
    ∃ row, Accounts call.actor row s s' := by
  obtain ⟨m, actorId, w, wsActor, -, hmain, hactor, hwrites, -, -, hresult, hactorId⟩ := h.parts
  have hall := h.fits
  rw [hwrites] at hall
  -- the other writes are of the actor's row, which is not the target
  have hothers : ∀ w' ∈ wsActor ++ [.audit (m.auditRow call.actor actorId)], ∀ target,
      writtenRow w' = some target → target = (.user, actorId) ∧ target ≠ m.target := by
    intro w' hw' target hrow
    have hdisjoint := (List.pairwise_cons.mp hall.apart).1 w' hw'
    rcases List.mem_append.mp hw' with hw' | hw'
    · cases hactor with
      | own => cases hw'
      | upsert _ hid =>
        cases List.mem_singleton.mp hw'
        cases hrow
        refine ⟨by rw [hid], fun heq => ?_⟩
        obtain ⟨old, new, rfl, hnew⟩ := hmain.target_user_iff.mp (Prod.mk.inj heq.symm)
        exact hdisjoint (a := .userRow new.id) (by simp [writes])
          (by simp [writes, hnew])
    · cases List.mem_singleton.mp hw'
      cases hrow
  refine ⟨m.auditRow call.actor actorId, ?_, rfl, rfl, ?_, ?_, fun target htarget hne => ?_⟩
  · rw [hresult]
    cases hactor <;> exact congrArg (· ++ _) hmain.audit_eq
  · rw [hresult]
    cases hactor with
    | own hown =>
      -- the target is the actor's row
      obtain ⟨old, new, rfl⟩ := hmain.user_of_own hown
      have hid := hactorId hown
      rw [Mutation.IsOwn, hmain.own, Option.map_some] at hown
      rw [hmain.own, Option.map_some] at hid
      exact ⟨new, Option.some.inj hid ▸ Table.get_put_self _ new, Option.some.inj hown⟩
    | upsert _ hid hsub => exact ⟨_, hid ▸ Table.get_put_self _ _, hsub⟩
  · change m.afterPayload = current s' m.target
    rw [hresult, current_applyAll_of_ne fun w' hw' hrow => (hothers w' hw' _ hrow).2 rfl]
    exact hmain.after_eq.symm
  · rw [hresult, current_applyAll_of_ne fun w' hw' hrow => hne (hothers w' hw' _ hrow).1]
    refine current_apply_of_ne fun hrow => htarget ?_
    exact Option.some.inj (hrow.symm.trans hmain.writtenRow_eq)

end DbMcpGateway.Admin
