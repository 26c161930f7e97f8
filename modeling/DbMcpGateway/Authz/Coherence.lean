import DbMcpGateway.Authz.Cache

/-!
# Coherence of the permissions cache

What the entries of the cache and the loads under way are known to have been read from.
The argument is one predicate, `Tracks R inflight stale`: a load at the current revision
has read from stores in `R` or its subject is `inflight`; an entry was loaded from stores
in `R` or its subject is `stale`. A bump puts every load under way behind the revision,
so it settles `inflight`; a removal takes the lock and clears entries, so it settles
`stale`.

Results:

* `Tracks.step`, `Tracks.settle`: the two rules.
* `Coherent.step`, `Coherent.commit`, `Coherent.spawn`: entries and loads agree with the
  committed store, unless an invalidation is outstanding.
* `CallReads.step`: what one call returns was read from stores in `R`.
-/

namespace DbMcpGateway.Authz.PermissionsCache

open Async Async.Prog Config State Tools

variable {store : Store} {c c' : PermissionsCache} {a : CacheAction}

/-! ## What is known -/

/-- What is known of a call: with the current revision, its reads are of stores in `R`
    unless `inflight`; once it has compared the revision for the last time, unless
    `stale`. -/
def CallTracks (R : Store → Prop) (inflight stale : String → Prop) (revision : ℕ) (sub : String) :
    GetFor → Prop
  | .loading rev p => rev = revision → ReadFrom R sub p ∨ inflight sub
  | .loaded rev grants => rev = revision → LoadedFrom R sub (.ok grants) ∨ inflight sub
  | .waiting rev grants => rev = revision → LoadedFrom R sub (.ok grants) ∨ inflight sub
  | .locked rev grants => rev = revision → LoadedFrom R sub (.ok grants) ∨ inflight sub
  | .inserting grants => LoadedFrom R sub (.ok grants) ∨ stale sub
  | _ => True

structure Tracks (R : Store → Prop) (inflight stale : String → Prop) (c : PermissionsCache) :
    Prop where
  calls : ∀ call ∈ c.calls, CallTracks R inflight stale c.revision call.userSub call.state
  entries : ∀ sub grants, c.entries sub = some grants →
    LoadedFrom R sub (.ok grants) ∨ stale sub

section

variable {R R' : Store → Prop} {inflight inflight' stale stale' : String → Prop}

theorem tracks_empty : empty.Tracks R inflight stale := by
  constructor <;> simp [empty]

variable {revision : ℕ} {sub : String} {st : GetFor}

theorem CallTracks.imp (hread : ∀ p, ReadFrom R sub p → ReadFrom R' sub p)
    (hloaded : ∀ result, LoadedFrom R sub result → LoadedFrom R' sub result)
    (hi : revBefore st = some revision → inflight sub → inflight' sub)
    (hs : writes st = true → stale sub → stale' sub)
    (h : CallTracks R inflight stale revision sub st) :
    CallTracks R' inflight' stale' revision sub st := by
  cases st with
  | loading rev p => exact fun hrev => (h hrev).imp (hread p) (hi (congrArg some hrev))
  | loaded rev grants | waiting rev grants | locked rev grants =>
    exact fun hrev => (h hrev).imp (hloaded _) (hi (congrArg some hrev))
  | inserting grants => exact Or.imp (hloaded _) (hs rfl) h
  | _ => trivial

theorem CallTracks.of_excuse (hi : inflight sub) (hs : stale sub) (st : GetFor) :
    CallTracks R inflight stale revision sub st := by
  cases st with
  | loading rev p | loaded rev grants | waiting rev grants | locked rev grants =>
    exact fun _ => .inr hi
  | inserting grants => exact .inr hs
  | _ => trivial

theorem CallTracks.of_behind {revision' : ℕ} (h : CallTracks R inflight stale revision sub st)
    (hbehind : ∀ rev, revBefore st = some rev → rev ≠ revision') :
    CallTracks R inflight' stale revision' sub st := by
  cases st with
  | loading rev p | loaded rev grants | waiting rev grants | locked rev grants =>
    exact fun hrev => absurd hrev (hbehind rev rfl)
  | inserting grants => exact h
  | _ => trivial

theorem Tracks.mono (hR : ∀ s, R s → R' s) (hi : ∀ sub, inflight sub → inflight' sub)
    (hs : ∀ sub, stale sub → stale' sub) (h : c.Tracks R inflight stale) :
    c.Tracks R' inflight' stale' := by
  constructor
  · intro call hmem
    exact (h.calls call hmem).imp (fun _ => ReadFrom.mono hR) (fun _ => LoadedFrom.mono hR)
      (fun _ => hi _) fun _ => hs _
  · intro sub grants hentry
    exact (h.entries sub grants hentry).imp (LoadedFrom.mono hR) (hs sub)

theorem callTracks_afterRead {rev : ℕ} {p : LoadProg}
    (h : rev = revision → (∃ result, p = .ret result ∧ LoadedFrom R sub result) ∨
      ReadFrom R sub p ∨ p = .ret (.error .repo) ∨ inflight sub) :
    CallTracks R inflight stale revision sub (afterRead rev p) := by
  rcases p with (e | grants) | ⟨r, k⟩
  · trivial
  · intro hrev
    rcases h hrev with ⟨result, hret, hloaded⟩ | hread | herror | hin
    · cases hret
      exact .inl hloaded
    · cases hread
    · cases herror
    · exact .inr hin
  · intro hrev
    rcases h hrev with ⟨result, hret, hloaded⟩ | hread | herror | hin
    · cases hret
    · exact .inl hread
    · cases herror
    · exact .inr hin

theorem CallMove.tracks {st' : GetFor} (hstore : R store) (hmove : CallMove store c sub st st')
    (h : CallTracks R inflight stale c.revision sub st) :
    CallTracks R inflight stale c.revision sub st' := by
  cases hmove with
  | readRevision => exact fun _ => .inl .start
  | read =>
    refine callTracks_afterRead fun hrev => ?_
    rcases h hrev with hread | hin
    · rcases hread.read hstore with hret | hread
      · exact .inl hret
      · exact .inr (.inl hread)
    · exact .inr (.inr (.inr hin))
  | readError =>
    refine callTracks_afterRead fun hrev => ?_
    rcases h hrev with hread | hin
    · exact .inr (.inr (.inl hread.read_error))
    · exact .inr (.inr (.inr hin))
  | unchanged => exact h
  | _ => trivial

/-- What is known after a step of a call. -/
theorem Tracks.setCall {j : ℕ} {st' : GetFor} (h : c.Tracks R inflight stale)
    (hst : CallTracks R inflight stale c.revision sub st') :
    (c.setCall j sub st').Tracks R inflight stale := by
  refine ⟨?_, h.entries⟩
  intro call hcall
  rcases Indexed.mem_set_cases hcall with rfl | hcall
  · exact hst
  · exact h.calls call hcall

/-- **Every step keeps what is known.** -/
theorem Tracks.step (hc : c.WellFormed) (hstore : R store) (hle : ∀ sub, inflight sub → stale sub)
    (h : c.Tracks R inflight stale) (hmoves : Moves store c a c') :
    c'.Tracks R inflight stale := by
  have hcall : ∀ {j : ℕ} {sub : String} {st : GetFor}, c.calls[j]? = some ⟨sub, st⟩ →
      CallTracks R inflight stale c.revision sub st :=
    fun hj => h.calls _ (List.mem_of_getElem? hj)
  cases hmoves with
  | getFor =>
    refine ⟨?_, h.entries⟩
    intro call hmem
    rcases Indexed.mem_concat_cases hmem with rfl | hmem
    · trivial
    · exact h.calls call hmem
  | call _ hj hmove => exact h.setCall (hmove.tracks hstore (hcall hj))
  | @lock j sub rev grants hj hw =>
    have hwaiting := hcall hj
    have hlocked : CallTracks R inflight stale c.revision sub (.locked rev grants) := hwaiting
    exact ⟨(h.setCall hlocked).calls, h.entries⟩
  | recheck hj hrev => exact h.setCall ((hcall hj hrev.symm).imp_right (hle _))
  | @unlock j sub rev grants hj hrev =>
    have hretry : CallTracks R inflight stale c.revision sub .retry := trivial
    exact ⟨(h.setCall hretry).calls, h.entries⟩
  | @insert j sub grants hj =>
    have hreturned : CallTracks R inflight stale c.revision sub (.returned (.ok grants)) := trivial
    refine ⟨(h.setCall hreturned).calls, ?_⟩
    intro sub' grants' hentry
    by_cases hsub : sub' = sub
    · subst hsub
      simp only [Function.update_self, Option.some.injEq] at hentry
      subst hentry
      exact hcall hj
    · simp only [Function.update_of_ne hsub] at hentry
      exact h.entries sub' grants' hentry
  | bump hk =>
    refine ⟨?_, h.entries⟩
    intro call hmem
    exact (h.calls call hmem).of_behind fun rev hrev => by
      have := hc.revs call hmem rev hrev
      change rev ≠ c.revision + 1
      omega
  | remove hk hw =>
    refine ⟨h.calls, ?_⟩
    intro sub grants hentry
    dsimp only at hentry
    split_ifs at hentry
    exact h.entries sub grants hentry

/-- What was outstanding may be settled: for loads under way when none is at the current
    revision, for entries when there is none and nobody is about to insert one. -/
theorem Tracks.settle (hc : c.WellFormed) (h : c.Tracks R inflight stale)
    (hinflight : ∀ sub, inflight sub → inflight' sub ∨
      ∀ call ∈ c.calls, revBefore call.state ≠ some c.revision)
    (hstale : ∀ sub, stale sub → stale' sub ∨ c.entries sub = none ∧ c.writer = none) :
    c.Tracks R inflight' stale' := by
  constructor
  · intro call hmem
    refine (h.calls call hmem).imp (fun _ => id) (fun _ => id) ?_ ?_
    · intro hcurrent hsub
      exact (hinflight _ hsub).resolve_right fun hnone => hnone call hmem hcurrent
    · intro hwrites hsub
      refine (hstale _ hsub).resolve_right fun ⟨_, hnone⟩ => ?_
      obtain ⟨j, hj⟩ := List.mem_iff_getElem?.mp hmem
      have hwriter := (hc.lock j).mpr ⟨call, hj, hwrites⟩
      rw [hnone] at hwriter
      cases hwriter
  · intro sub grants hentry
    refine (h.entries sub grants hentry).imp_right fun hsub => ?_
    rcases hstale sub hsub with hsub | ⟨hnone, -⟩
    · exact hsub
    · rw [hnone] at hentry
      cases hentry

end

/-! ## Coherence -/

/-- An invalidation that covers the subject is owed, or spawned and not yet bumped. -/
def Unbumped (c : PermissionsCache) (owed : String → Prop) (sub : String) : Prop :=
  owed sub ∨ ∃ t ∈ c.invalidations, t.progress = .spawned ∧ t.scope.covers sub = true

/-- An invalidation that covers the subject is owed, or spawned and not yet done. -/
def Pending (c : PermissionsCache) (owed : String → Prop) (sub : String) : Prop :=
  owed sub ∨ ∃ t ∈ c.invalidations, t.progress ≠ .done ∧ t.scope.covers sub = true

/-- Loads at the current revision agree with the store unless a bump is to come, and
    entries agree with it unless a removal is to come. -/
def Coherent (store : Store) (owed : String → Prop) (c : PermissionsCache) : Prop :=
  c.Tracks (· = store) (c.Unbumped owed) (c.Pending owed)

section

variable {owed owed' : String → Prop} {sub : String}

theorem Unbumped.pending (h : c.Unbumped owed sub) : c.Pending owed sub := by
  rcases h with h | ⟨t, ht, hspawned, hcovers⟩
  · exact .inl h
  · exact .inr ⟨t, ht, by rw [hspawned]; decide, hcovers⟩

theorem coherent_empty (store : Store) (owed : String → Prop) : empty.Coherent store owed :=
  tracks_empty

theorem Coherent.step (hc : c.WellFormed) (h : c.Coherent store owed)
    (hmoves : Moves store c a c') : c'.Coherent store owed := by
  have htracks : c'.Tracks (· = store) (c.Unbumped owed) (c.Pending owed) :=
    Tracks.step hc rfl (fun _ => Unbumped.pending) h hmoves
  have hc' := hc.step hmoves
  cases hmoves with
  | @bump k scope hk =>
    refine htracks.settle hc' ?_ ?_
    · intro sub _
      refine .inr fun call hmem hrev => ?_
      have hle := hc.revs call hmem _ hrev
      change c.revision + 1 ≤ c.revision at hle
      omega
    · rintro sub (howed | ⟨t, ht, hprogress, hcovers⟩)
      · exact .inl (.inl howed)
      · refine .inl (.inr ?_)
        rcases Indexed.mem_set_of_mem hk ht with rfl | ht
        · exact ⟨⟨scope, .bumped⟩, Indexed.mem_set_self hk, by simp, hcovers⟩
        · exact ⟨t, ht, hprogress, hcovers⟩
  | @remove k scope hk hw =>
    refine htracks.settle hc' ?_ ?_
    · rintro sub (howed | ⟨t, ht, hspawned, hcovers⟩)
      · exact .inl (.inl howed)
      · refine .inl (.inr ⟨t, ?_, hspawned, hcovers⟩)
        rcases Indexed.mem_set_of_mem hk ht with rfl | ht
        · cases hspawned
        · exact ht
    · rintro sub (howed | ⟨t, ht, hprogress, hcovers⟩)
      · exact .inl (.inl howed)
      · rcases Indexed.mem_set_of_mem hk ht with rfl | ht
        · exact .inr ⟨if_pos hcovers, hw⟩
        · exact .inl (.inr ⟨t, ht, hprogress, hcovers⟩)
  | _ => exact htracks

/-- A commit keeps the cache coherent if it owes an invalidation for whom it affects. -/
theorem Coherent.commit {store' : Store} (h : c.Coherent store owed)
    (hunaffected : ∀ sub, Unaffected sub store store' ∨ owed' sub)
    (howed : ∀ sub, owed sub → owed' sub) : c.Coherent store' owed' := by
  have hi : ∀ sub, c.Unbumped owed sub → c.Unbumped owed' sub := fun sub => Or.imp_left (howed sub)
  have hs : ∀ sub, c.Pending owed sub → c.Pending owed' sub := fun sub => Or.imp_left (howed sub)
  constructor
  · intro call hmem
    rcases hunaffected call.userSub with hsame | hsub
    · refine (h.calls call hmem).imp (fun p hp => hp.unaffected hsame) ?_ (fun _ => hi _)
        fun _ => hs _
      intro result hloaded
      rw [loadedFrom_eq] at hloaded ⊢
      rw [hsame.load_eq, hloaded]
    · exact .of_excuse (.inl hsub) (.inl hsub) call.state
  · intro sub grants hentry
    rcases hunaffected sub with hsame | hsub
    · refine (h.entries sub grants hentry).imp ?_ (hs sub)
      intro hloaded
      rw [loadedFrom_eq] at hloaded ⊢
      rw [hsame.load_eq, hloaded]
    · exact .inr (.inl hsub)

theorem Coherent.spawn {scope : Scope} (h : c.Coherent store owed)
    (howed : ∀ sub, owed sub → owed' sub ∨ scope.covers sub = true) :
    (c.spawn scope).Coherent store owed' := by
  have hspawned : ∀ {sub : String}, scope.covers sub = true →
      (c.spawn scope).Unbumped owed' sub := fun hcovers =>
    .inr ⟨⟨scope, .spawned⟩, List.mem_append_right _ (List.mem_singleton_self _), rfl, hcovers⟩
  have hi : ∀ sub, c.Unbumped owed sub → (c.spawn scope).Unbumped owed' sub := by
    rintro sub (h | ⟨t, ht, hprogress, hcovers⟩)
    · exact (howed sub h).elim .inl hspawned
    · exact .inr ⟨t, List.mem_append_left _ ht, hprogress, hcovers⟩
  have hs : ∀ sub, c.Pending owed sub → (c.spawn scope).Pending owed' sub := by
    rintro sub (h | ⟨t, ht, hprogress, hcovers⟩)
    · exact (howed sub h).elim .inl fun hcovers => (hspawned hcovers).pending
    · exact .inr ⟨t, List.mem_append_left _ ht, hprogress, hcovers⟩
  have hmono := Tracks.mono (fun _ => id) hi hs h
  exact ⟨hmono.calls, hmono.entries⟩

/-- What is owed may be taken larger. -/
theorem Coherent.mono (h : c.Coherent store owed) (howed : ∀ sub, owed sub → owed' sub) :
    c.Coherent store owed' :=
  Tracks.mono (fun _ => id) (fun sub => Or.imp_left (howed sub))
    (fun sub => Or.imp_left (howed sub)) h

/-- The entry of a subject with nothing outstanding is what a load would return. -/
theorem Coherent.entry {grants} (h : c.Coherent store owed)
    (hpending : ¬ c.Pending owed sub) (hentry : c.entries sub = some grants) :
    load store sub = .ok grants :=
  loadedFrom_eq.mp ((h.entries sub grants hentry).resolve_right hpending)

end

/-! ## One call -/

/-- Whatever the call has loaded or returned was read from stores in `R`. -/
def CallReads (R : Store → Prop) (sub : String) : GetFor → Prop
  | .loading _ p => ReadFrom R sub p
  | .loaded _ grants => LoadedFrom R sub (.ok grants)
  | .waiting _ grants => LoadedFrom R sub (.ok grants)
  | .locked _ grants => LoadedFrom R sub (.ok grants)
  | .inserting grants => LoadedFrom R sub (.ok grants)
  | .returned (.ok grants) => LoadedFrom R sub (.ok grants)
  | _ => True

section

variable {R R' : Store → Prop} {sub : String}

theorem CallReads.mono {st : GetFor} (hR : ∀ s, R s → R' s) (h : CallReads R sub st) :
    CallReads R' sub st := by
  cases st with
  | loading rev p => exact ReadFrom.mono hR h
  | loaded rev grants | waiting rev grants | locked rev grants | inserting grants =>
    exact LoadedFrom.mono hR h
  | returned result =>
    cases result with
    | error e => trivial
    | ok grants => exact LoadedFrom.mono hR h
  | _ => trivial

theorem callReads_afterRead {rev : ℕ} {p : LoadProg}
    (h : (∃ result, p = .ret result ∧ LoadedFrom R sub result) ∨ ReadFrom R sub p ∨
      p = .ret (.error .repo)) : CallReads R sub (afterRead rev p) := by
  rcases h with ⟨result, rfl, hloaded⟩ | hread | rfl
  · cases result with
    | error e => trivial
    | ok grants => exact hloaded
  · cases p with
    | ret result => cases hread
    | await r k => exact hread
  · trivial

/-- A move of a call keeps what is known of its reads, if the entry it may hit was read
    from such stores. -/
theorem CallMove.reads {st st' : GetFor} (hstore : R store)
    (hentry : ∀ grants, c.entries sub = some grants → LoadedFrom R sub (.ok grants))
    (hmove : CallMove store c sub st st') (h : CallReads R sub st) : CallReads R sub st' := by
  cases hmove with
  | hit hgrants => exact hentry _ hgrants
  | readRevision => exact .start
  | read =>
    rcases ReadFrom.read hstore h with hret | hread
    · exact callReads_afterRead (.inl hret)
    · exact callReads_afterRead (.inr (.inl hread))
  | readError => exact callReads_afterRead (.inr (.inr (ReadFrom.read_error h)))
  | unchanged => exact h
  | _ => trivial

/-- A step keeps what is known of the reads of a call, if the entry it may hit was read
    from such stores. -/
theorem CallReads.step {i : ℕ} {st : GetFor} (hstore : R store)
    (hentry : ∀ grants, c.entries sub = some grants → LoadedFrom R sub (.ok grants))
    (hi : c.calls[i]? = some ⟨sub, st⟩) (h : CallReads R sub st) (hmoves : Moves store c a c') :
    ∃ st', c'.calls[i]? = some ⟨sub, st'⟩ ∧ CallReads R sub st' := by
  have hset : ∀ {j : ℕ} {sub' : String} {st₁ st₂ : GetFor}, c.calls[j]? = some ⟨sub', st₁⟩ →
      (i = j → sub' = sub → st₁ = st → CallReads R sub st₂) →
      ∃ st', (c.setCall j sub' st₂).calls[i]? = some ⟨sub, st'⟩ ∧ CallReads R sub st' := by
    intro j sub' st₁ st₂ hj hmove
    rw [setCall, Indexed.getElem?_set_of_some hj]
    split_ifs with hij
    · subst hij
      rw [hi] at hj
      cases hj
      exact ⟨st₂, rfl, hmove rfl rfl rfl⟩
    · exact ⟨st, hi, h⟩
  cases hmoves with
  | getFor => exact ⟨st, Indexed.getElem?_concat_of_some hi, h⟩
  | call _ hj hmove =>
    refine hset hj ?_
    rintro - rfl rfl
    exact hmove.reads hstore hentry h
  | lock hj | recheck hj | insert hj => exact hset hj fun _ _ hst => by subst hst; exact h
  | unlock hj => exact hset hj fun _ _ _ => trivial
  | bump | remove => exact ⟨st, hi, h⟩

theorem callReads_step (hstore : R store)
    (hentry : ∀ sub grants, c.entries sub = some grants → LoadedFrom R sub (.ok grants))
    (h : ∀ call ∈ c.calls, CallReads R call.userSub call.state) (hmoves : Moves store c a c') :
    ∀ call ∈ c'.calls, CallReads R call.userSub call.state := by
  have hcall : ∀ {j : ℕ} {sub : String} {st : GetFor}, c.calls[j]? = some ⟨sub, st⟩ →
      CallReads R sub st := fun hj => h _ (List.mem_of_getElem? hj)
  have hset : ∀ {j : ℕ} {sub : String} {st : GetFor}, CallReads R sub st →
      ∀ call ∈ (c.setCall j sub st).calls, CallReads R call.userSub call.state := by
    intro j sub st hst call hmem
    rcases Indexed.mem_set_cases hmem with rfl | hmem
    · exact hst
    · exact h call hmem
  cases hmoves with
  | getFor =>
    intro call hmem
    rcases Indexed.mem_concat_cases hmem with rfl | hmem
    · trivial
    · exact h call hmem
  | call _ hj hmove => exact hset (hmove.reads hstore (hentry _) (hcall hj))
  | @lock j sub rev grants hj =>
    have hwaiting := hcall hj
    have hlocked : CallReads R sub (.locked rev grants) := hwaiting
    exact hset hlocked
  | @recheck j sub rev grants hj =>
    have hlocked := hcall hj
    have hinserting : CallReads R sub (.inserting grants) := hlocked
    exact hset hinserting
  | unlock =>
    refine hset ?_
    trivial
  | @insert j sub grants hj =>
    have hinserting := hcall hj
    have hreturned : CallReads R sub (.returned (.ok grants)) := hinserting
    exact hset hreturned
  | bump | remove => exact h

end

end DbMcpGateway.Authz.PermissionsCache
