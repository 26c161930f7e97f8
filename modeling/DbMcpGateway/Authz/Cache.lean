import DbMcpGateway.Authz.Loader
import DbMcpGateway.Data.Indexed

/-!
# The permissions cache

`PermissionsCache` (authz/cache.rs) under concurrent use: any number of `get_for` calls
and detached invalidations, each moving by the atomic steps between which another task
can run. A call reads the store once per query of its load; the map is behind a lock,
the revision counter is not. Whether an entry is past its TTL is left open. The counter,
an `AtomicU64`, is a natural number: it is assumed not to wrap around.

Results:

* `step_moves`: what one step can do.
* `WellFormed.step`: no call is ahead of the revision, and who writes has the lock.
-/

namespace DbMcpGateway.Authz

open Async Async.Prog Config State Tools

/-! ## The machine -/

/-- What an invalidation removes. -/
inductive Scope
  | one (userSub : String)
  | all
  deriving DecidableEq

def Scope.covers : Scope → String → Bool
  | .one userSub, sub => userSub = sub
  | .all, _ => true

/-- The steps of `invalidate` and `invalidate_all` (authz/cache.rs:113, 123): the
    revision is bumped, then the entries are removed under the write lock. -/
inductive Progress
  | spawned
  | bumped
  | done
  deriving DecidableEq

/-- A detached task of `spawn_invalidate` or `spawn_invalidate_all`. -/
structure Invalidation where
  scope : Scope
  progress : Progress
  deriving DecidableEq

/-- How far a call of `get_for` (authz/cache.rs:74) is. -/
inductive GetFor
  /-- It waits for the read lock. -/
  | lookup
  /-- It is at the head of the loop. -/
  | retry
  /-- It loads, after it read the revision. -/
  | loading (revBefore : ℕ) (rest : LoadProg)
  /-- The load is over and the revision not yet compared. -/
  | loaded (revBefore : ℕ) (grants : List Grant)
  /-- It waits for the write lock. -/
  | waiting (revBefore : ℕ) (grants : List Grant)
  /-- It has the write lock and has not compared the revision again. -/
  | locked (revBefore : ℕ) (grants : List Grant)
  /-- It has the write lock and is about to insert. -/
  | inserting (grants : List Grant)
  | returned (result : Except LoadError (List Grant))
  | dropped

/-- A call of `get_for`. -/
structure Call where
  userSub : String
  state : GetFor

/-- The grants a call has returned, with their subject. -/
def Call.yielded (call : Call) : Option (String × List Grant) :=
  match call.state with
  | .returned (.ok grants) => some (call.userSub, grants)
  | _ => none

theorem Call.yielded_eq {call : Call} {sub : String} {grants}
    (h : call.yielded = some (sub, grants)) : call = ⟨sub, .returned (.ok grants)⟩ := by
  obtain ⟨userSub, state⟩ := call
  unfold yielded at h
  split at h
  · cases h
    congr
  · cases h

/-- The cache, the calls of `get_for` and the detached invalidations. -/
structure PermissionsCache where
  entries : String → Option (List Grant)
  revision : ℕ
  /-- The call that has the write lock. -/
  writer : Option ℕ
  calls : List Call
  invalidations : List Invalidation

/-- `PermissionsCache::new`. -/
def PermissionsCache.empty : PermissionsCache := ⟨fun _ => none, 0, none, [], []⟩

/-- A step of the cache; calls and invalidations are named by their position. -/
inductive CacheAction
  | getFor (userSub : String)
  /-- The look-up of the entry; `fresh` says that its TTL has not passed. -/
  | lookup (j : ℕ) (fresh : Bool)
  | readRevision (j : ℕ)
  /-- One query of the load, or its failure. -/
  | read (j : ℕ) (failure : Option SqlxError)
  | compareRevision (j : ℕ)
  | lock (j : ℕ)
  | recheck (j : ℕ)
  | insert (j : ℕ)
  /-- The future is dropped at one of its awaits. -/
  | drop (j : ℕ)
  | bump (k : ℕ)
  | remove (k : ℕ)
  deriving DecidableEq

/-- The call whose step it is. -/
def CacheAction.caller : CacheAction → Option ℕ
  | .lookup j _ => some j
  | .readRevision j => some j
  | .read j _ => some j
  | .compareRevision j => some j
  | .lock j => some j
  | .recheck j => some j
  | .insert j => some j
  | .drop j => some j
  | .getFor _ => none
  | .bump _ => none
  | .remove _ => none

namespace PermissionsCache

def setCall (c : PermissionsCache) (j : ℕ) (userSub : String) (state : GetFor) :
    PermissionsCache :=
  { c with calls := c.calls.set j ⟨userSub, state⟩ }

/-- Moves an invalidation on. -/
def setProgress (c : PermissionsCache) (k : ℕ) (scope : Scope) (progress : Progress) :
    PermissionsCache :=
  { c with invalidations := c.invalidations.set k ⟨scope, progress⟩ }

/-- What a call does with what is left of its load. -/
def afterRead (revBefore : ℕ) : LoadProg → GetFor
  | .ret (.ok grants) => .loaded revBefore grants
  | .ret (.error e) => .returned (.error e)
  | .await r k => .loading revBefore (.await r k)

/-- A step of the cache over the committed store. -/
def step (store : Store) (c : PermissionsCache) : CacheAction → Option PermissionsCache
  | .getFor userSub => some { c with calls := c.calls ++ [⟨userSub, .lookup⟩] }
  | .lookup j fresh =>
    match c.calls[j]?, c.writer with
    | some ⟨sub, .lookup⟩, none =>
      match c.entries sub, fresh with
      | some grants, true => some (c.setCall j sub (.returned (.ok grants)))
      | _, _ => some (c.setCall j sub .retry)
    | _, _ => none
  | .readRevision j =>
    match c.calls[j]? with
    | some ⟨sub, .retry⟩ => some (c.setCall j sub (.loading c.revision (loadDbGrantsFor sub)))
    | _ => none
  | .read j failure =>
    match c.calls[j]? with
    | some ⟨sub, .loading rev (.await r k)⟩ =>
      let reply := match failure with
        | none => answer store r
        | some e => refusal e r
      some (c.setCall j sub (afterRead rev (k reply)))
    | _ => none
  | .compareRevision j =>
    match c.calls[j]? with
    | some ⟨sub, .loaded rev grants⟩ =>
      some (c.setCall j sub (if c.revision = rev then .waiting rev grants else .retry))
    | _ => none
  | .lock j =>
    match c.calls[j]?, c.writer with
    | some ⟨sub, .waiting rev grants⟩, none =>
      some { c.setCall j sub (.locked rev grants) with writer := some j }
    | _, _ => none
  | .recheck j =>
    match c.calls[j]? with
    | some ⟨sub, .locked rev grants⟩ =>
      if c.revision = rev then some (c.setCall j sub (.inserting grants))
      else some { c.setCall j sub .retry with writer := none }
    | _ => none
  | .insert j =>
    match c.calls[j]? with
    | some ⟨sub, .inserting grants⟩ =>
      some { c.setCall j sub (.returned (.ok grants)) with
        writer := none, entries := Function.update c.entries sub (some grants) }
    | _ => none
  | .drop j =>
    match c.calls[j]? with
    | some ⟨sub, .lookup⟩ => some (c.setCall j sub .dropped)
    | some ⟨sub, .loading _ _⟩ => some (c.setCall j sub .dropped)
    | some ⟨sub, .waiting _ _⟩ => some (c.setCall j sub .dropped)
    | _ => none
  | .bump k =>
    match c.invalidations[k]? with
    | some ⟨scope, .spawned⟩ =>
      some { c.setProgress k scope .bumped with revision := c.revision + 1 }
    | _ => none
  | .remove k =>
    match c.invalidations[k]?, c.writer with
    | some ⟨scope, .bumped⟩, none =>
      some { c.setProgress k scope .done with
        entries := fun sub => if scope.covers sub then none else c.entries sub }
    | _, _ => none

/-- `tokio::spawn` of an invalidation. -/
def spawn (c : PermissionsCache) (scope : Scope) : PermissionsCache :=
  { c with invalidations := c.invalidations ++ [⟨scope, .spawned⟩] }

/-! ## What a step does -/

/-- A move of one call, by its state before and after. -/
inductive CallMove (store : Store) (c : PermissionsCache) (sub : String) : GetFor → GetFor → Prop
  | hit {grants} : c.entries sub = some grants →
      CallMove store c sub .lookup (.returned (.ok grants))
  | miss : CallMove store c sub .lookup .retry
  | readRevision : CallMove store c sub .retry (.loading c.revision (loadDbGrantsFor sub))
  | read {rev r k} :
      CallMove store c sub (.loading rev (.await r k)) (afterRead rev (k (answer store r)))
  | readError {rev r k e} :
      CallMove store c sub (.loading rev (.await r k)) (afterRead rev (k (refusal e r)))
  | unchanged {rev grants} : c.revision = rev →
      CallMove store c sub (.loaded rev grants) (.waiting rev grants)
  | changed {rev grants} : CallMove store c sub (.loaded rev grants) .retry
  | dropLookup : CallMove store c sub .lookup .dropped
  | dropLoading {rev p} : CallMove store c sub (.loading rev p) .dropped
  | dropWaiting {rev grants} : CallMove store c sub (.waiting rev grants) .dropped

/-- What one step can do, with its guards. -/
inductive Moves (store : Store) (c : PermissionsCache) : CacheAction → PermissionsCache → Prop
  | getFor {sub} : Moves store c (.getFor sub) { c with calls := c.calls ++ [⟨sub, .lookup⟩] }
  | call {a : CacheAction} {j sub st st'} :
      a.caller = some j → c.calls[j]? = some ⟨sub, st⟩ → CallMove store c sub st st' →
      Moves store c a (c.setCall j sub st')
  | lock {j sub rev grants} : c.calls[j]? = some ⟨sub, .waiting rev grants⟩ → c.writer = none →
      Moves store c (.lock j) { c.setCall j sub (.locked rev grants) with writer := some j }
  | recheck {j sub rev grants} : c.calls[j]? = some ⟨sub, .locked rev grants⟩ → c.revision = rev →
      Moves store c (.recheck j) (c.setCall j sub (.inserting grants))
  | unlock {j sub rev grants} : c.calls[j]? = some ⟨sub, .locked rev grants⟩ → c.revision ≠ rev →
      Moves store c (.recheck j) { c.setCall j sub .retry with writer := none }
  | insert {j sub grants} : c.calls[j]? = some ⟨sub, .inserting grants⟩ →
      Moves store c (.insert j)
        { c.setCall j sub (.returned (.ok grants)) with
          writer := none, entries := Function.update c.entries sub (some grants) }
  | bump {k scope} : c.invalidations[k]? = some ⟨scope, .spawned⟩ →
      Moves store c (.bump k) { c.setProgress k scope .bumped with revision := c.revision + 1 }
  | remove {k} {scope : Scope} : c.invalidations[k]? = some ⟨scope, .bumped⟩ →
      c.writer = none →
      Moves store c (.remove k)
        { c.setProgress k scope .done with
          entries := fun sub => if scope.covers sub then none else c.entries sub }

variable {store : Store} {c c' : PermissionsCache} {a : CacheAction}

theorem step_moves (h : c.step store a = some c') : Moves store c a c' := by
  cases a with
  | getFor sub =>
    cases h
    exact .getFor
  | lookup j fresh =>
    simp only [step] at h
    split at h
    · rename_i sub hj hw
      split at h
      · rename_i grants hentry
        cases h
        exact .call rfl hj (.hit hentry)
      · cases h
        exact .call rfl hj .miss
    · cases h
  | readRevision j =>
    simp only [step] at h
    split at h
    · cases h
      exact .call rfl ‹_› .readRevision
    · cases h
  | read j failure =>
    simp only [step] at h
    split at h
    · cases failure <;> cases h
      · exact .call rfl ‹_› .read
      · exact .call rfl ‹_› .readError
    · cases h
  | compareRevision j =>
    simp only [step] at h
    split at h
    · cases h
      split_ifs with hrev
      · exact .call rfl ‹_› (.unchanged hrev)
      · exact .call rfl ‹_› .changed
    · cases h
  | lock j =>
    simp only [step] at h
    split at h
    · cases h
      exact .lock ‹_› ‹_›
    · cases h
  | recheck j =>
    simp only [step] at h
    split at h
    · split_ifs at h with hrev
      · cases h
        exact .recheck ‹_› hrev
      · cases h
        exact .unlock ‹_› hrev
    · cases h
  | insert j =>
    simp only [step] at h
    split at h
    · cases h
      exact .insert ‹_›
    · cases h
  | drop j =>
    simp only [step] at h
    split at h
    · cases h
      exact .call rfl ‹_› .dropLookup
    · cases h
      exact .call rfl ‹_› .dropLoading
    · cases h
      exact .call rfl ‹_› .dropWaiting
    · cases h
  | bump k =>
    simp only [step] at h
    split at h
    · cases h
      exact .bump ‹_›
    · cases h
  | remove k =>
    simp only [step] at h
    split at h
    · cases h
      exact .remove ‹_› ‹_›
    · cases h

/-! ## Revisions and the lock -/

/-- The revision a call has read. -/
def revBefore : GetFor → Option ℕ
  | .loading rev _ => some rev
  | .loaded rev _ => some rev
  | .waiting rev _ => some rev
  | .locked rev _ => some rev
  | _ => none

/-- The call has the write lock. -/
def writes : GetFor → Bool
  | .locked _ _ => true
  | .inserting _ => true
  | _ => false

structure WellFormed (c : PermissionsCache) : Prop where
  revs : ∀ call ∈ c.calls, ∀ rev, revBefore call.state = some rev → rev ≤ c.revision
  lock : ∀ j, c.writer = some j ↔ ∃ call, c.calls[j]? = some call ∧ writes call.state = true

theorem wellFormed_empty : empty.WellFormed := by
  constructor <;> simp [empty]

theorem revBefore_afterRead {rev rev' : ℕ} {p : LoadProg}
    (h : revBefore (afterRead rev p) = some rev') : rev' = rev := by
  rcases p with (_ | _) | _ <;> simp_all [afterRead, revBefore]

theorem writes_afterRead (rev : ℕ) (p : LoadProg) : writes (afterRead rev p) = false := by
  rcases p with (_ | _) | _ <;> rfl

variable {sub : String} {st st' : GetFor} {j : ℕ}

theorem CallMove.writes (h : CallMove store c sub st st') :
    writes st = false ∧ writes st' = false := by
  cases h <;> first | exact ⟨rfl, rfl⟩ | exact ⟨rfl, writes_afterRead _ _⟩

theorem CallMove.revBefore {rev : ℕ} (h : CallMove store c sub st st')
    (hrev : revBefore st' = some rev) :
    rev = c.revision ∨ revBefore st = some rev := by
  cases h with
  | readRevision =>
    cases hrev
    exact .inl rfl
  | read | readError => exact .inr (congrArg some (revBefore_afterRead hrev).symm)
  | unchanged => exact .inr hrev
  | _ => cases hrev

theorem WellFormed.lock_setCall (hc : c.WellFormed) (hj : c.calls[j]? = some ⟨sub, st⟩)
    (hw : writes st = writes st') (i : ℕ) :
    c.writer = some i ↔
      ∃ call, (c.setCall j sub st').calls[i]? = some call ∧ writes call.state = true := by
  rw [hc.lock, setCall, Indexed.getElem?_set_of_some hj]
  by_cases hi : i = j
  · subst hi
    simp [hj, hw]
  · simp [hi]

theorem WellFormed.lock_release (hc : c.WellFormed) (hj : c.calls[j]? = some ⟨sub, st⟩)
    (hw : writes st = true) (hw' : writes st' = false) (i : ℕ) :
    ¬ ∃ call, (c.setCall j sub st').calls[i]? = some call ∧ writes call.state = true := by
  rintro ⟨call, hcall, hwrites⟩
  rw [setCall, Indexed.getElem?_set_of_some hj] at hcall
  split_ifs at hcall with hi
  · cases hcall
    rw [hw'] at hwrites
    cases hwrites
  · have hwriter : c.writer = some j := (hc.lock j).mpr ⟨_, hj, hw⟩
    have hwriter' : c.writer = some i := (hc.lock i).mpr ⟨call, hcall, hwrites⟩
    rw [hwriter] at hwriter'
    exact hi (Option.some.inj hwriter').symm

theorem WellFormed.revs_setCall (hc : c.WellFormed)
    (hrev : ∀ rev, revBefore st' = some rev → rev ≤ c.revision) :
    ∀ call ∈ (c.setCall j sub st').calls, ∀ rev, revBefore call.state = some rev →
      rev ≤ c.revision := by
  intro call hcall rev hrev'
  rcases Indexed.mem_set_cases hcall with rfl | hcall
  · exact hrev rev hrev'
  · exact hc.revs call hcall rev hrev'

theorem WellFormed.step (hc : c.WellFormed) (h : Moves store c a c') : c'.WellFormed := by
  have hold : ∀ {j : ℕ} {call : Call}, c.calls[j]? = some call →
      ∀ rev, revBefore call.state = some rev → rev ≤ c.revision :=
    fun hj => hc.revs _ (List.mem_of_getElem? hj)
  cases h with
  | @getFor sub =>
    refine ⟨?_, ?_⟩
    · intro call hcall rev hrev
      rcases Indexed.mem_concat_cases hcall with rfl | hcall
      · cases hrev
      · exact hc.revs call hcall rev hrev
    · intro i
      refine (hc.lock i).trans ?_
      rw [Indexed.getElem?_concat]
      split_ifs with hi
      · simp [hi, writes]
      · rfl
  | call _ hj hmove =>
    refine ⟨hc.revs_setCall ?_, hc.lock_setCall hj (hmove.writes.1.trans hmove.writes.2.symm)⟩
    intro rev hrev
    rcases hmove.revBefore hrev with rfl | hrev
    · exact le_rfl
    · exact hold hj rev hrev
  | @lock j sub rev grants hj hw =>
    refine ⟨hc.revs_setCall (hold hj), ?_⟩
    intro i
    change some j = some i ↔ ∃ call, (c.setCall j sub _).calls[i]? = some call ∧ _
    rw [setCall, Indexed.getElem?_set_of_some hj]
    by_cases hi : i = j
    · subst hi
      simp [writes]
    · have hi' : ¬ j = i := fun h => hi h.symm
      simp only [hi, hi', Option.some.injEq, if_false, false_iff]
      intro hwrites
      have hwriter := (hc.lock i).mpr hwrites
      rw [hw] at hwriter
      cases hwriter
  | recheck hj hrev => exact ⟨hc.revs_setCall (by simp [revBefore]), hc.lock_setCall hj rfl⟩
  | unlock hj hrev | insert hj =>
    exact ⟨hc.revs_setCall (by simp [revBefore]), fun i => by
      simpa using hc.lock_release hj rfl rfl i⟩
  | bump hk =>
    exact ⟨fun call hcall rev hrev => (hc.revs call hcall rev hrev).trans (Nat.le_succ _), hc.lock⟩
  | remove hk hw => exact ⟨hc.revs, hc.lock⟩

theorem WellFormed.spawn (hc : c.WellFormed) (scope : Scope) : (c.spawn scope).WellFormed :=
  ⟨hc.revs, hc.lock⟩

end PermissionsCache

end DbMcpGateway.Authz
