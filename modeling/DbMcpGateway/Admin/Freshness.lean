import DbMcpGateway.Admin.Invariant

/-!
# Coherence of the cache with the store

A commit owes the invalidation its handler spawns, until it is spawned. With what is
owed counted as outstanding, the cache stays coherent in every interleaving: a commit
affects only the loads that its invalidation covers.

Results:

* `Commits.unaffected`: whom a mutation affects, its invalidation covers.
* `cache_coherent`: with no invalidation outstanding, every entry is what a load would
  return.
* `getFor_fresh`: a call that starts with none outstanding reads from stores of its time
  on. A call that starts after the response of a mutation, but before the invalidation
  the handler has spawned, need not (`getFor_stale`).
-/

namespace DbMcpGateway.Admin

open Async Async.Prog Audit Authz Config State

/-! ## Whom a commit affects -/

variable {m : Mutation} {actorId : Uuid} {s : Store}

theorem scopeOf_log {actor} :
    scopeOf (m.log actor actorId) = m.scope := by
  unfold scopeOf Mutation.log
  rw [Mutation.ofLog_exchanges]
  rfl

theorem Main.unaffected {w : Write} (h : Main s m w) (hs : s.WellFormed) (hfits : w.Fits s)
    (sub : String) :
    Unaffected sub s (s.apply w) ∨ ∃ scope, m.scope = some scope ∧ scope.covers sub = true := by
  -- for a grant: its user is the one whose entry is dropped, or another one
  have hgrant : ∀ {old : Option PermissionsGrant} {new : PermissionsGrant} {u : PermissionsUser},
      (Write.grant old new).Fits s → s.users.get new.userId = some u →
      Unaffected sub s (s.apply (.grant old new)) ∨ (Scope.one u.userSub).covers sub = true := by
    intro old new u hfits hu
    by_cases hsub : u.userSub = sub
    · exact .inr (by simp [Scope.covers, hsub])
    · exact .inl (unaffected_grant hfits hu hsub)
  cases h with
  | createUser _ hlive | updateUser _ _ hlive => exact .inl (unaffected_user hs hfits (.inl hlive))
  | @deleteUser id before u deletedAt _ _ hsub =>
    by_cases hcovers : u.userSub = sub
    · exact .inr ⟨_, rfl, by simp [Scope.covers, hsub, hcovers]⟩
    · exact .inl (unaffected_user hs hfits (.inr hcovers))
  | createDatabase | updateDatabase | deleteDatabase => exact .inr ⟨.all, rfl, rfl⟩
  | createGrant _ hu | updateGrant _ _ _ hu | deleteGrant _ _ hu =>
    exact (hgrant hfits hu).imp_right fun hcovers => ⟨_, rfl, hcovers⟩

theorem ActorWrites.unaffected {actor} {ws row} (h : ActorWrites m actor actorId ws)
    (hs : s.WellFormed) (hfits : writes.FitsAll s (ws ++ [.audit row])) (sub : String) :
    Unaffected sub s (writes.applyAll s (ws ++ [.audit row])) := by
  cases h with
  | own _ => exact unaffected_audit row
  | upsert _ _ _ _ _ hlive =>
    have hfirst := hfits.fits _ (List.mem_append_left _ (List.mem_singleton_self _))
    exact (unaffected_user hs hfirst (.inl hlive)).trans (unaffected_audit row)

/-- **Whom a mutation affects, its invalidation covers.** -/
theorem Commits.unaffected {call} {t : Tx} {s' : Store} (h : Commits call t s s') (sub : String) :
    Unaffected sub s s' ∨ ∃ scope, scopeOf t.log = some scope ∧ scope.covers sub = true := by
  obtain ⟨m, actorId, w, wsActor, hlog, hmain, hactor, -, hfits, htail, hresult, -⟩ := h.parts
  rw [hlog, scopeOf_log, hresult]
  refine (hmain.unaffected h.wellFormed hfits sub).imp_left fun hfirst => ?_
  exact hfirst.trans (hactor.unaffected (Store.apply_wellFormed h.wellFormed hfits) htail sub)

/-! ## What is owed -/

/-- The request has committed a mutation and not yet spawned the invalidation that
    covers the subject. -/
def Request.Owes (r : Request) (sub : String) : Prop :=
  r.spawned = false ∧ ∃ t v scope, r.tx = .committed t v ∧ scopeOf t.log = some scope ∧
    scope.covers sub = true

namespace Sys

def Owed (s : Sys) (sub : String) : Prop := ∃ r ∈ s.requests, r.Owes sub

/-- An invalidation that covers the subject is owed, or spawned and not done. -/
def Outstanding (s : Sys) (sub : String) : Prop := s.cache.Pending s.Owed sub

/-- The cache agrees with the store, up to what is outstanding. -/
def Coherent (s : Sys) : Prop := s.cache.Coherent s.store s.Owed

variable {s s' : Sys} {a : Action} {i : ℕ} {r r' : Request}

theorem Owed.setRequest {sub : String} (h : s.Owed sub) (hi : s.requests[i]? = some r)
    (howes : r.Owes sub → r'.Owes sub) : (s.setRequest i r').Owed sub := by
  obtain ⟨r₁, hr₁, howes₁⟩ := h
  rcases Indexed.mem_set_of_mem hi hr₁ with rfl | hr₁
  · exact ⟨r', Indexed.mem_set_self hi, howes howes₁⟩
  · exact ⟨r₁, hr₁, howes₁⟩

theorem Coherent.step (hok : s.Ok) (h : s.Coherent) (hmoves : s.Moves a s') : s'.Coherent := by
  cases hmoves with
  | arrive =>
    refine PermissionsCache.Coherent.mono h ?_
    rintro sub ⟨r₁, hr₁, howes⟩
    exact ⟨r₁, List.mem_append_left _ hr₁, howes⟩
  | request hi hmove =>
    refine PermissionsCache.Coherent.mono h fun sub howed => howed.setRequest hi ?_
    rintro ⟨hspawned, t, v, scope, htx, hscope⟩
    exact ⟨hspawned, t, v, scope, (hmove.committed t v).mpr htx, hscope⟩
  | exec hi =>
    refine PermissionsCache.Coherent.mono h fun sub howed => howed.setRequest hi ?_
    rintro ⟨-, t, v, scope, htx, -⟩
    cases htx
  | @commit i call task t spawned hi =>
    have hmem := List.mem_of_getElem? hi
    have hspawned : spawned = false := by
      rw [← Bool.not_eq_true]
      intro hspawned
      obtain ⟨t', v, htx⟩ := (hok.follows _ hmem).spawned hspawned
      cases htx
    refine PermissionsCache.Coherent.commit h ?_ fun sub howed => howed.setRequest hi ?_
    · intro sub
      refine ((hok.commits hi).unaffected sub).imp_right ?_
      rintro ⟨scope, hscope, hcovers⟩
      exact ⟨_, Indexed.mem_set_self hi, hspawned, t, _, scope, rfl, hscope, hcovers⟩
    · rintro ⟨-, t', v, scope, htx, -⟩
      cases htx
  | @spawn i call scope k tx spawned hi =>
    obtain ⟨-, ⟨t, v, rfl, hscope⟩, -⟩ := (hok.follows _ (List.mem_of_getElem? hi)).spawn
    refine PermissionsCache.Coherent.spawn h ?_
    rintro sub ⟨r₁, hr₁, howes⟩
    rcases Indexed.mem_set_of_mem hi hr₁ with rfl | hr₁
    · obtain ⟨-, t', v', scope', htx, hscope', hcovers⟩ := howes
      cases htx
      rw [hscope] at hscope'
      cases hscope'
      exact .inr hcovers
    · exact .inl ⟨r₁, hr₁, howes⟩
  | cache hmove => exact PermissionsCache.Coherent.step hok.cache h hmove

theorem coherent_of_run {as} (h : Machine.run step init as = some s) : s.Coherent := by
  refine invariant_of_run (C := fun _ _ => True) (P := Coherent) ?_ (Machine.meets_true init as) h
    ok_init (PermissionsCache.coherent_empty _ _)
  intro s a s' hok hcoherent _ hmoves
  exact hcoherent.step hok hmoves

/-- Every committed mutation has spawned the invalidation that is due, and every
    invalidation is done. -/
structure Quiescent (s : Sys) : Prop where
  spawned : ∀ r ∈ s.requests, ∀ t v, r.tx = .committed t v → scopeOf t.log ≠ none →
    r.spawned = true
  done : ∀ invalidation ∈ s.cache.invalidations, invalidation.progress = .done

theorem Quiescent.not_outstanding (h : s.Quiescent) (sub : String) : ¬ s.Outstanding sub := by
  rintro (⟨r, hr, hspawned, t, v, scope, htx, hscope, -⟩ | ⟨t, ht, hprogress, -⟩)
  · have := h.spawned r hr t v htx (by rw [hscope]; simp)
    rw [hspawned] at this
    cases this
  · exact hprogress (h.done t ht)

theorem quiescent_iff : s.Quiescent ↔
    (s.requests.all fun r =>
      match r.tx with
      | .committed t _ => (scopeOf t.log).isNone || r.spawned
      | _ => true) = true ∧
    (s.cache.invalidations.all fun invalidation => invalidation.progress = .done) = true := by
  simp only [List.all_eq_true, decide_eq_true_eq]
  constructor
  · intro h
    refine ⟨fun r hr => ?_, h.done⟩
    split
    · rename_i t v htx
      by_cases hscope : scopeOf t.log = none
      · simp [hscope]
      · simp [h.spawned r hr t v htx hscope]
    · rfl
  · rintro ⟨hspawned, hdone⟩
    refine ⟨fun r hr t v htx hscope => ?_, hdone⟩
    have hr' := hspawned r hr
    simp only [htx, Bool.or_eq_true, Option.isNone_iff_eq_none] at hr'
    exact hr'.resolve_left hscope

instance : Decidable s.Quiescent := decidable_of_iff _ quiescent_iff.symm

end Sys

/-- **The cache is coherent when it is quiescent.** In every interleaving, every entry is
    what a load of the current store would return; and whoever's load a committed
    mutation changes is covered by the invalidation that its handler spawns. -/
theorem cache_coherent {as : List Action} {s : Sys} (h : Machine.run Sys.step .init as = some s) :
    (s.Quiescent → ∀ sub grants, s.cache.entries sub = some grants →
      load s.store sub = .ok grants) ∧
    ∀ r ∈ s.requests, ∀ t v, r.tx = .committed t v →
      ∃ s₀ s₁, s.versions[v]? = some s₀ ∧ s.versions[v + 1]? = some s₁ ∧
        ∀ sub, load s₀ sub ≠ load s₁ sub →
          ∃ scope, scopeOf t.log = some scope ∧ scope.covers sub = true := by
  constructor
  · intro hquiet sub grants hentry
    exact (Sys.coherent_of_run h).entry (hquiet.not_outstanding sub) hentry
  · intro r hr t v htx
    obtain ⟨s₀, s₁, hs₀, hs₁, hcommits⟩ := (Sys.ok_of_run h).committed r hr t v htx
    refine ⟨s₀, s₁, hs₀, hs₁, fun sub hne => ?_⟩
    exact (hcommits.unaffected sub).resolve_left fun hsame => hne hsame.load_eq.symm

section

/-! A user, their grant on every database of a server, and its revocation. -/

def admin : AdminActor := ⟨"admin", "admin@corp", ["db-admins"], "request"⟩

def aliceId : Uuid := 1
def adminId : Uuid := 2
def aliceGrantId : Uuid := 3

def registerAlice : AdminCall := ⟨admin, .createUser (some ⟨"alice", "alice@corp", []⟩)⟩

def grantAlice : AdminCall :=
  ⟨admin, .createGrant (some {
    userId := aliceId, server := some "shop", dbNameWildcard := some true
    action := "query_read" })⟩

def revokeAlice : AdminCall := ⟨admin, .deleteGrant (some aliceGrantId)⟩

def shopGrant : Config.Grant := { server := "shop", database := "*", action := .queryRead }

def aliceCached : List Action :=
  [serve 0 registerAlice 0 [10, aliceId, adminId, 11],
    serve 1 grantAlice 1 [aliceGrantId, 12, 13, 14], invalidate 1 0,
    [.cache (.getFor "alice")], fill 0 3].flatten

/-- The grant is revoked, and the handler has spawned the invalidation and returned. -/
def aliceRevoked : List Action :=
  aliceCached ++ serve 2 revokeAlice 2 [15, 16, 17, 18, 19] ++ [.spawn 2]

theorem cache_coherent_alice : ∃ s, Machine.run Sys.step .init aliceCached = some s ∧
    s.Quiescent ∧ s.cache.entries "alice" = some [shopGrant] ∧
    load s.store "alice" = .ok [shopGrant] := by
  have hcheck : (Machine.run Sys.step .init aliceCached).any (fun s =>
      decide s.Quiescent && decide (s.cache.entries "alice" = some [shopGrant])) = true := by
    decide +kernel
  obtain ⟨s, hrun, hs⟩ := Option.any_eq_true _ _ |>.mp hcheck
  rw [Bool.and_eq_true, decide_eq_true_eq, decide_eq_true_eq] at hs
  exact ⟨s, hrun, hs.1, hs.2, (cache_coherent hrun).1 hs.1 "alice" [shopGrant] hs.2⟩

end

/-! ## A call after a response -/

namespace Sys

/-- The store was committed as version `n` or later. -/
def Since (s : Sys) (n : ℕ) (store : Store) : Prop := ∃ k, n ≤ k ∧ s.versions[k]? = some store

variable {s s' : Sys} {a : Action} {n : ℕ} {sub : String}

theorem since_store (h : n ≤ s.history.length) : s.Since n s.store :=
  ⟨s.history.length, h, by simp [versions]⟩

theorem Moves.versions (hmoves : s.Moves a s') {k : ℕ} {store : Store}
    (h : s.versions[k]? = some store) : s'.versions[k]? = some store := by
  cases hmoves with
  | commit => exact Indexed.getElem?_concat_of_some h
  | _ => exact h

theorem Moves.since (hmoves : s.Moves a s') {store : Store} (h : s.Since n store) :
    s'.Since n store := by
  obtain ⟨k, hle, hk⟩ := h
  exact ⟨k, hle, hmoves.versions hk⟩

theorem Moves.history_le (hmoves : s.Moves a s') : s.history.length ≤ s'.history.length := by
  cases hmoves with
  | commit => simp [Sys.commit, setRequest]
  | _ => exact le_rfl

/-- What is known of call `j` once it has started: it and the entry it may hit have read
    from versions since `n`. -/
structure ReadsSince (n j : ℕ) (sub : String) (s : Sys) : Prop where
  ok : s.Ok
  le : n ≤ s.history.length
  tracks : s.cache.Tracks (s.Since n) (· ≠ sub) (· ≠ sub)
  call : ∃ st, s.cache.calls[j]? = some ⟨sub, st⟩ ∧
    PermissionsCache.CallReads (s.Since n) sub st

theorem ReadsSince.step {j : ℕ} (h : s.ReadsSince n j sub) (hmoves : s.Moves a s') :
    s'.ReadsSince n j sub := by
  obtain ⟨st, hj, hreads⟩ := h.call
  have hok' := h.ok.step hmoves
  have hle' := h.le.trans hmoves.history_le
  have hsince : ∀ store, s.Since n store → s'.Since n store := fun _ => hmoves.since
  have htracks : s.cache.Tracks (s'.Since n) (· ≠ sub) (· ≠ sub) :=
    h.tracks.mono hsince (fun _ => id) fun _ => id
  have hreads' := hreads.mono hsince
  cases hmoves with
  | cache hmove =>
    have hstore := since_store h.le
    refine ⟨hok', hle', h.tracks.step h.ok.cache hstore (fun _ => id) hmove, ?_⟩
    refine PermissionsCache.CallReads.step hstore ?_ hj hreads hmove
    intro grants hentry
    exact (h.tracks.entries sub grants hentry).resolve_right fun hne => hne rfl
  -- a spawn adds an invalidation and leaves calls and entries
  | spawn => exact ⟨hok', hle', ⟨htracks.calls, htracks.entries⟩, st, hj, hreads'⟩
  | _ => exact ⟨hok', hle', htracks, st, hj, hreads'⟩

theorem ReadsSince.run {j : ℕ} {as} (h : s.ReadsSince n j sub)
    (hrun : Machine.run Sys.step s as = some s') : s'.ReadsSince n j sub :=
  Machine.run_invariant (C := fun _ _ => True)
    (fun _ _ _ hs _ hstep => hs.step (step_moves hstep)) (Machine.meets_true s as) hrun h

theorem Coherent.readsSince (hok : s.Ok) (h : s.Coherent) (hquiet : ¬ s.Outstanding sub)
    (hstep : s.step (.cache (.getFor sub)) = some s') :
    s'.ReadsSince s.history.length s.cache.calls.length sub := by
  have hok' := hok.step (step_moves hstep)
  cases hstep
  have hexcuse : ∀ sub', s.Outstanding sub' → sub' ≠ sub := by
    rintro sub' hout rfl
    exact hquiet hout
  have htracks : s.cache.Tracks (s.Since s.history.length) (· ≠ sub) (· ≠ sub) := by
    refine PermissionsCache.Tracks.mono ?_ ?_ hexcuse h
    · rintro store rfl
      exact since_store le_rfl
    · intro sub' hunbumped
      exact hexcuse sub' hunbumped.pending
  refine ⟨hok', le_rfl, ?_, .lookup, by simp, trivial⟩
  exact htracks.step hok.cache (since_store le_rfl) (fun _ => id)
    (PermissionsCache.Moves.getFor (c := s.cache))

end Sys

/-- **A live change is reflected on the next call** if the call starts with no
    invalidation outstanding for its subject: after a successful response, what `get_for`
    returns is loaded from stores that include the mutation. -/
theorem getFor_fresh {as₁ as₂ : List Action} {s s' : Sys} {r : Request} {response : AdminResponse}
    {sub : String} {grants : List Config.Grant}
    (hbefore : Machine.run Sys.step .init as₁ = some s) (hr : r ∈ s.requests)
    (hreturned : r.task = .returned (.ok response)) (hquiet : ¬ s.Outstanding sub)
    (hafter : Machine.run Sys.step s (.cache (.getFor sub) :: as₂) = some s')
    (hcall : s'.cache.calls[s.cache.calls.length]? = some ⟨sub, .returned (.ok grants)⟩) :
    ∃ t v, r.tx = .committed t v ∧ LoadedFrom (s'.Since (v + 1)) sub (.ok grants) := by
  have hok := Sys.ok_of_run hbefore
  obtain ⟨t, v, htx, -⟩ := (hok.follows r hr).returned response hreturned
  refine ⟨t, v, htx, ?_⟩
  -- the version after the commit is there when the call starts
  have hv : v + 1 ≤ s.history.length := by
    obtain ⟨s₀, s₁, -, hs₁, -⟩ := hok.committed r hr t v htx
    have hlt := (List.getElem?_eq_some_iff.mp hs₁).1
    simp only [Sys.versions, List.length_append, List.length_singleton] at hlt
    omega
  obtain ⟨s₁, hstep, hrun⟩ := Machine.run_cons hafter
  have hreads := ((Sys.coherent_of_run hbefore).readsSince hok hquiet hstep).run hrun
  obtain ⟨st, hj, hread⟩ := hreads.call
  rw [hcall] at hj
  cases hj
  refine LoadedFrom.mono ?_ hread
  rintro store ⟨k, hle, hk⟩
  exact ⟨k, hv.trans hle, hk⟩

/-- The version a transaction was committed on, if its handler has returned a success. -/
def Request.answered (r : Request) : Option ℕ :=
  match r.task, r.tx with
  | .returned (.ok _), .committed _ v => some v
  | _, _ => none

theorem Request.answered_eq {r : Request} {v : ℕ} (h : r.answered = some v) :
    (∃ response, r.task = .returned (.ok response)) ∧ ∃ t, r.tx = .committed t v := by
  unfold answered at h
  split at h
  · rename_i response t v' htask htx
    cases h
    exact ⟨⟨response, htask⟩, t, htx⟩
  · cases h

/-- Alice's grant is revoked by request 2, a call of `get_for` follows; `grants` is what it
    returns. -/
structure RevokedThenCalled (before after : List Action) (grants : List Config.Grant)
    (s s' : Sys) (r : Request) : Prop where
  before : Machine.run Sys.step .init before = some s
  request : s.requests[2]? = some r
  call : r.call = revokeAlice
  answered : r.answered = some 2
  after : Machine.run Sys.step s (.cache (.getFor "alice") :: after) = some s'
  yielded : s'.cache.calls[s.cache.calls.length]? = some ⟨"alice", .returned (.ok grants)⟩

/-- Replays the two runs. -/
def revokedThenCalled (before after : List Action) (grants : List Config.Grant)
    (check : Sys → Sys → Bool) : Bool :=
  (Machine.run Sys.step .init before).any fun s =>
    (s.requests[2]?.any fun r => r.call = revokeAlice && r.answered = some 2) &&
    (Machine.run Sys.step s (.cache (.getFor "alice") :: after)).any fun s' =>
      (s'.cache.calls[s.cache.calls.length]?.any fun call =>
        call.yielded = some ("alice", grants)) && check s s'

theorem revokedThenCalled_spec {before after grants}
    {check : Sys → Sys → Bool} (h : revokedThenCalled before after grants check = true) :
    ∃ s s' r, RevokedThenCalled before after grants s s' r ∧ check s s' = true := by
  simp only [revokedThenCalled, Option.any_eq_true, Bool.and_eq_true, decide_eq_true_eq] at h
  obtain ⟨s, hbefore, ⟨r, hr, hcall, hanswered⟩, s', hafter, ⟨call, hj, hyielded⟩, hcheck⟩ := h
  rw [Call.yielded_eq hyielded] at hj
  exact ⟨s, s', r, ⟨hbefore, hr, hcall, hanswered, hafter, hj⟩, hcheck⟩

/-- The invalidation is done before the call starts. -/
theorem getFor_fresh_alice : ∃ before after s s' r,
    RevokedThenCalled before after [] s s' r ∧ ¬ s.Outstanding "alice" ∧
    LoadedFrom (s'.Since 3) "alice" (.ok []) := by
  have hruns : revokedThenCalled (aliceRevoked ++ [.cache (.bump 1), .cache (.remove 1)])
      (fill 1 2) [] (fun s _ => decide s.Quiescent) = true := by decide +kernel
  obtain ⟨s, s', r, h, hcheck⟩ := revokedThenCalled_spec hruns
  have hquiet := (of_decide_eq_true hcheck).not_outstanding "alice"
  obtain ⟨⟨response, htask⟩, t, htx⟩ := Request.answered_eq h.answered
  obtain ⟨t', v, htx', hloaded⟩ := getFor_fresh h.before (List.mem_of_getElem? h.request) htask
    hquiet h.after h.yielded
  rw [htx] at htx'
  cases htx'
  exact ⟨_, _, s, s', r, h, hquiet, hloaded⟩

/-- The call starts after the response and before the invalidation: it returns the grant
    that is revoked in every store since. -/
theorem getFor_stale : ∃ before after s s' r,
    RevokedThenCalled before after [shopGrant] s s' r ∧
    ¬ LoadedFrom (s'.Since 3) "alice" (.ok [shopGrant]) := by
  have hruns : revokedThenCalled aliceRevoked [.cache (.lookup 1 true)] [shopGrant]
      (fun _ s' => s'.history.length = 3 && decide (load s'.store "alice" = .ok [])) = true := by
    decide +kernel
  obtain ⟨s, s', r, h, hcheck⟩ := revokedThenCalled_spec hruns
  rw [Bool.and_eq_true, decide_eq_true_eq, decide_eq_true_eq] at hcheck
  refine ⟨_, _, s, s', r, h, fun hloaded => ?_⟩
  -- the store with the revocation is the last version
  have hlast : ∀ store, s'.Since 3 store → store = s'.store := by
    rintro store ⟨k, hle, hk⟩
    have hlt := (List.getElem?_eq_some_iff.mp hk).1
    simp only [Sys.versions, List.length_append, List.length_singleton, hcheck.1] at hlt
    have hk3 : k = s'.history.length := by omega
    subst hk3
    simpa [Sys.versions] using hk.symm
  have hload := loadedFrom_eq.mp (hloaded.mono hlast)
  rw [hcheck.2] at hload
  cases hload

end DbMcpGateway.Admin
