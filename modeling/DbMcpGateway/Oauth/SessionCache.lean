import Mathlib.Data.List.MinMax
import DbMcpGateway.Async.Machine
import DbMcpGateway.Oauth.Session

/-!
# The session cache

`SessionCache` (auth/session_cache.rs) under any history of `insert`, `remove` and `get`. What an
entry is worth follows from the history alone (`Traced`): it is the latest change of its id. What
is evicted follows from one operation (`insert_evicts`): a full cache drops its stale entries, or
one oldest entry if there is none.

Results:

* `insert_total`: every map has an entry that `evict_one` can choose.
* `sessionCache_sound`: the cache is bounded, a hit is the session of the latest change of its id
  and is fresh and active, a fresh entry is evicted only from a full cache of fresh entries and
  is then an oldest one, and an inserted entry is there.
-/

namespace DbMcpGateway.Oauth

open Machine

/-! ## Histories -/

/-- An operation of the cache; `oldest` is the entry that `evict_one` would find. -/
inductive CacheOp
  | insert (oldest id : SessionId) (session : Session)
  | remove (id : SessionId)
  | get (id : SessionId) (now : ℤ)
  deriving DecidableEq

namespace CacheOp

def changes (id : SessionId) : CacheOp → Bool
  | .insert _ id' _ => id' = id
  | .remove id' => id' = id
  | .get _ _ => false

/-- The map after an operation at the time `x.1`. -/
def step (cfg : SessionCacheConfig) (map : SessionMap) (x : ℕ × CacheOp) : Option SessionMap :=
  match x.2 with
  | .insert oldest id session => cfg.insert map x.1 oldest id session
  | .remove id => some (map.remove id)
  | .get _ _ => some map

end CacheOp

def latestChange (ops : List (ℕ × CacheOp)) (id : SessionId) : Option (ℕ × CacheOp) :=
  ops.reverse.find? fun x => x.2.changes id

theorem latestChange_concat (ops : List (ℕ × CacheOp)) (x : ℕ × CacheOp) (id : SessionId) :
    latestChange (ops ++ [x]) id = if x.2.changes id then some x else latestChange ops id := by
  unfold latestChange
  rw [List.reverse_append, List.reverse_singleton, List.singleton_append, List.find?_cons]
  cases x.2.changes id <;> rfl

/-! ## One operation -/

section

variable {cfg : SessionCacheConfig} {map map' : SessionMap} {mono : ℕ} {oldest id : SessionId}
  {session : Session}

/-- The entry is younger than the lifetime. -/
def Fresh (cfg : SessionCacheConfig) (mono : ℕ) (e : CacheEntry) : Prop :=
  mono - e.cachedAt < cfg.ttl

/-- What `evict_one` drops: the stale entries, or an oldest entry if none is stale. -/
inductive Evicts (cfg : SessionCacheConfig) (map : SessionMap) (mono : ℕ) : SessionMap → Prop
  | stale {map' : SessionMap} : (∃ e ∈ map.rows, ¬ Fresh cfg mono e) →
      (∀ e, e ∈ map'.rows ↔ e ∈ map.rows ∧ Fresh cfg mono e) →
      map'.rows.length < map.rows.length → Evicts cfg map mono map'
  | oldest {entry : CacheEntry} : entry ∈ map.rows → (∀ e ∈ map.rows, Fresh cfg mono e) →
      (∀ e ∈ map.rows, entry.cachedAt ≤ e.cachedAt) → Evicts cfg map mono (map.remove entry.id)

theorem evictOne_evicts (h : cfg.evictOne map mono oldest = some map') (hne : map.rows ≠ []) :
    Evicts cfg map mono map' := by
  unfold SessionCacheConfig.evictOne at h
  dsimp only at h
  split at h
  · -- some entry is stale
    rename_i hlt
    cases h
    refine .stale ?_ (fun e => by rw [Table.mem_retain, decide_eq_true_eq]; rfl) hlt
    obtain ⟨e, he, hstale⟩ := List.length_filter_lt_length_iff_exists.mp hlt
    exact ⟨e, he, by simpa [Fresh] using hstale⟩
  · rename_i hnlt
    have hfresh : ∀ e ∈ map.rows, Fresh cfg mono e := by
      intro e he
      by_contra hstale
      exact hnlt (List.length_filter_lt_length_iff_exists.mpr ⟨e, he,
          by simpa [Fresh] using hstale⟩)
    split at h
    · rename_i entry hget
      split_ifs at h with hall
      cases h
      obtain ⟨hmem, rfl⟩ := Table.get_eq_some.mp hget
      exact .oldest hmem hfresh (by simpa using hall)
    · split_ifs at h with hempty
      exact absurd (List.isEmpty_iff.mp hempty) hne

theorem Evicts.length_lt (h : Evicts cfg map mono map') : map'.rows.length < map.rows.length := by
  cases h with
  | stale _ _ hlt => exact hlt
  | oldest hmem _ _ => exact Table.length_remove_lt (Table.get_eq_some.mpr ⟨hmem, rfl⟩)

theorem Evicts.subset (h : Evicts cfg map mono map') {e} (he : e ∈ map'.rows) : e ∈ map.rows := by
  cases h with
  | stale _ hmem _ => exact ((hmem e).mp he).1
  | oldest => exact (Table.mem_remove.mp he).1

/-- A fresh entry is evicted only among fresh ones, and is then an oldest one. -/
theorem Evicts.dropped (h : Evicts cfg map mono map') {e : CacheEntry} (he : e ∈ map.rows)
    (hfresh : Fresh cfg mono e) (hgone : e ∉ map'.rows) :
    (∀ e' ∈ map.rows, Fresh cfg mono e') ∧ ∀ e' ∈ map.rows, e.cachedAt ≤ e'.cachedAt := by
  cases h with
  | stale _ hmem _ => exact absurd ((hmem e).mpr ⟨he, hfresh⟩) hgone
  | @oldest entry hentry hall hold =>
    have hid : e.id = entry.id := by
      by_contra hne
      exact hgone (Table.mem_remove.mpr ⟨he, hne⟩)
    have hget := Table.get_eq_some.mpr ⟨he, hid⟩
    obtain rfl := Option.some.inj (hget.symm.trans (Table.get_eq_some.mpr ⟨hentry, rfl⟩))
    exact ⟨hall, hold⟩

/-- What an insertion does: it writes the entry, and first evicts if the cache is full and the id
    is new. -/
inductive Admits (cfg : SessionCacheConfig) (map : SessionMap) (mono : ℕ) (id : SessionId)
    (session : Session) : SessionMap → Prop
  | put : map.rows.length < cfg.cap ∨ (∃ e, map.get id = some e) →
      Admits cfg map mono id session (map.put ⟨id, session, mono⟩)
  | evict {map₁ : SessionMap} : cfg.cap ≤ map.rows.length → map.get id = none →
      Evicts cfg map mono map₁ → Admits cfg map mono id session (map₁.put ⟨id, session, mono⟩)

theorem cap_pos (cfg : SessionCacheConfig) : 0 < cfg.cap := lt_max_of_lt_right Nat.one_pos

theorem insert_admits (h : cfg.insert map mono oldest id session = some map') :
    Admits cfg map mono id session map' := by
  unfold SessionCacheConfig.insert at h
  dsimp only at h
  split_ifs at h with hfull
  · rw [Bool.and_eq_true, decide_eq_true_eq, Option.isNone_iff_eq_none] at hfull
    obtain ⟨map₁, hevict, rfl⟩ := Option.map_eq_some_iff.mp h
    refine .evict hfull.1 hfull.2 (evictOne_evicts hevict ?_)
    exact List.ne_nil_of_length_pos (lt_of_lt_of_le (cap_pos cfg) hfull.1)
  · cases h
    refine .put ?_
    by_cases hlt : map.rows.length < cfg.cap
    · exact .inl hlt
    · refine .inr (Option.isSome_iff_exists.mp ?_)
      simpa [not_lt.mp hlt, ← Option.isSome_iff_ne_none] using hfull

theorem insert_total (cfg : SessionCacheConfig) (map : SessionMap) (mono : ℕ) (id : SessionId)
    (session : Session) : ∃ oldest map', cfg.insert map mono oldest id session = some map' := by
  suffices hevict : ∃ oldest map', cfg.evictOne map mono oldest = some map' by
    obtain ⟨oldest, map', hevict⟩ := hevict
    refine ⟨oldest, Option.isSome_iff_exists.mp ?_⟩
    simp only [SessionCacheConfig.insert, hevict]
    split_ifs <;> rfl
  cases hmin : map.rows.argmin CacheEntry.cachedAt with
  | none =>
    have hnil := List.argmin_eq_none.mp hmin
    have hget : map.get id = none := by
      rw [Table.get, hnil]
      rfl
    refine ⟨id, Option.isSome_iff_exists.mp ?_⟩
    simp only [SessionCacheConfig.evictOne, hget, hnil, List.isEmpty_nil, if_true]
    split_ifs <;> rfl
  | some entry =>
    have hmem := List.argmin_mem hmin
    have hget := Table.get_eq_some.mpr ⟨hmem, rfl⟩
    have hall : (map.rows.all fun e => entry.cachedAt ≤ e.cachedAt) = true :=
      List.all_eq_true.mpr fun e he => decide_eq_true (List.le_of_mem_argmin he hmin)
    refine ⟨entry.id, Option.isSome_iff_exists.mp ?_⟩
    simp only [SessionCacheConfig.evictOne, hget, hall, if_true]
    split_ifs <;> rfl

section

variable (h : Admits cfg map mono id session map')

include h

theorem Admits.present :
    map'.get id = some ⟨id, session, mono⟩ := by
  cases h with
  | put => exact Table.get_put_self map ⟨id, session, mono⟩
  | evict => exact Table.get_put_self _ (⟨id, session, mono⟩ : CacheEntry)

theorem Admits.length_le (hle : map.rows.length ≤ cfg.cap) : map'.rows.length ≤ cfg.cap := by
  cases h with
  | put hroom =>
    rcases hroom with hlt | ⟨e, hget⟩
    · exact (Table.length_put_le map _).trans hlt
    · have hput : (map.put ⟨id, session, mono⟩).rows.length = map.rows.length :=
        Table.length_put_of_some hget
      exact hput.trans_le hle
  | @evict map₁ _ _ hevicts =>
    have hput := Table.length_put_le map₁ ⟨id, session, mono⟩
    exact hput.trans (hevicts.length_lt.trans_le hle)

/-- An entry after an insertion is the new one, or an old one of another id. -/
theorem Admits.mem {e : CacheEntry} (he : e ∈ map'.rows) :
    e = ⟨id, session, mono⟩ ∨ e ∈ map.rows ∧ e.id ≠ id := by
  cases h with
  | put => exact Table.mem_put.mp he
  | evict _ _ hevicts => exact (Table.mem_put.mp he).imp_right fun h => ⟨hevicts.subset h.1, h.2⟩

/-- A fresh entry of another id is evicted only by a new id from a full cache of fresh entries,
    and is then an oldest one. -/
theorem Admits.evicted {e : CacheEntry} (he : e ∈ map.rows) (hfresh : Fresh cfg mono e)
    (hgone : e ∉ map'.rows) (hid : e.id ≠ id) :
    map.get id = none ∧ cfg.cap ≤ map.rows.length ∧ (∀ e' ∈ map.rows, Fresh cfg mono e') ∧
      ∀ e' ∈ map.rows, e.cachedAt ≤ e'.cachedAt := by
  cases h with
  | put => exact absurd (Table.mem_put.mpr (.inr ⟨he, hid⟩)) hgone
  | evict hfull hnew hevicts =>
    have hdropped := hevicts.dropped he hfresh fun he₁ => hgone (Table.mem_put.mpr (.inr ⟨he₁, hid⟩))
    exact ⟨hnew, hfull, hdropped⟩

end

end

/-! ## Histories -/

section

variable {cfg : SessionCacheConfig} {map : SessionMap} {ops : List (ℕ × CacheOp)}

/-- Every entry is the latest change of its id. -/
def Traced (ops : List (ℕ × CacheOp)) (map : SessionMap) : Prop :=
  ∀ e ∈ map.rows, ∃ oldest, latestChange ops e.id = some (e.cachedAt, .insert oldest e.id e.session)

/-- One operation keeps the bound and the trace. -/
theorem step_traced {map' : SessionMap} {x} (h : CacheOp.step cfg map x = some map')
    (hle : map.rows.length ≤ cfg.cap) (htraced : Traced ops map) :
    map'.rows.length ≤ cfg.cap ∧ Traced (ops ++ [x]) map' := by
  obtain ⟨mono, op⟩ := x
  -- entries of other ids
  have hother : ∀ e ∈ map.rows, op.changes e.id = false →
      ∃ oldest, latestChange (ops ++ [(mono, op)]) e.id =
        some (e.cachedAt, .insert oldest e.id e.session) := by
    intro e he hop
    rw [latestChange_concat, if_neg (by simp [hop])]
    exact htraced e he
  cases op with
  | insert oldest id session =>
    have hadmits := insert_admits h
    refine ⟨hadmits.length_le hle, fun e he => ?_⟩
    rcases hadmits.mem he with rfl | ⟨he, hne⟩
    · exact ⟨oldest, by rw [latestChange_concat, if_pos (by simp [CacheOp.changes])]⟩
    · exact hother e he (by simpa [CacheOp.changes] using hne.symm)
  | remove id =>
    cases h
    refine ⟨(Table.length_retain_le _ _).trans hle, fun e he => ?_⟩
    obtain ⟨he, hne⟩ := Table.mem_remove.mp he
    exact hother e he (by simpa [CacheOp.changes] using hne.symm)
  | get id now =>
    cases h
    exact ⟨hle, fun e he => hother e he rfl⟩

theorem run_traced (h : run (CacheOp.step cfg) .empty ops = some map) :
    map.rows.length ≤ cfg.cap ∧ Traced ops map := by
  induction ops using List.reverseRecOn generalizing map with
  | nil =>
    cases h
    exact ⟨Nat.zero_le _, by rintro e ⟨⟩⟩
  | append_singleton ops x ih =>
    rw [run_append] at h
    obtain ⟨map₁, hrun, hstep⟩ := Option.bind_eq_some_iff.mp h
    obtain ⟨map₂, hstep, hnil⟩ := run_cons hstep
    cases hnil
    obtain ⟨hle, htraced⟩ := ih hrun
    exact step_traced hstep hle htraced

end

theorem get_hit {cfg : SessionCacheConfig} {map : SessionMap} {mono : ℕ} {id} {now : ℤ}
    {session : Session} (h : cfg.get map mono id now = some session) :
    ∃ e ∈ map.rows, e.id = id ∧ e.session = session ∧ Fresh cfg mono e ∧
      session.isActive now = true := by
  unfold SessionCacheConfig.get at h
  split at h
  · cases h
  · rename_i entry hget
    split_ifs at h with hbad
    cases h
    obtain ⟨hmem, rfl⟩ := Table.get_eq_some.mp hget
    rw [Bool.or_eq_true, not_or, decide_eq_true_eq, not_le, Bool.not_eq_true', Bool.not_eq_false]
      at hbad
    exact ⟨entry, hmem, rfl, rfl, hbad.1, hbad.2⟩

/-- What the cache guarantees after a history. -/
structure CacheSound (cfg : SessionCacheConfig) (ops : List (ℕ × CacheOp)) (map : SessionMap) :
    Prop where
  bounded : map.rows.length ≤ max 1 cfg.maxEntries
  /-- A hit is of the session that was inserted last, if nothing has removed it since. -/
  hit : ∀ mono id now session, (∀ x ∈ ops, x.1 ≤ mono) → cfg.get map mono id now = some session →
    ∃ t oldest, latestChange ops id = some (t, .insert oldest id session) ∧ t ≤ mono ∧
      mono < t + cfg.ttl ∧ session.isActive now = true
  /-- A fresh entry goes by an operation on its id, or is evicted. -/
  evicted : ∀ mono op map', CacheOp.step cfg map (mono, op) = some map' → ∀ e ∈ map.rows,
    Fresh cfg mono e → e ∉ map'.rows → op.changes e.id = true ∨
      ∃ oldest id session, op = .insert oldest id session ∧ map.get id = none ∧
        map.rows.length = max 1 cfg.maxEntries ∧ (∀ e' ∈ map.rows, Fresh cfg mono e') ∧
        ∀ e' ∈ map.rows, e.cachedAt ≤ e'.cachedAt
  inserted : ∀ mono oldest id session map',
    CacheOp.step cfg map (mono, .insert oldest id session) = some map' →
    map'.get id = some ⟨id, session, mono⟩
  total : ∀ mono id session, ∃ oldest map',
    CacheOp.step cfg map (mono, .insert oldest id session) = some map'

/-- **The session cache is correct and bounded**, for every history of operations. -/
theorem sessionCache_sound (cfg : SessionCacheConfig) (ops : List (ℕ × CacheOp)) (map : SessionMap)
    (h : run (CacheOp.step cfg) .empty ops = some map) : CacheSound cfg ops map := by
  obtain ⟨hle, htraced⟩ := run_traced h
  have hcap : cfg.cap = max 1 cfg.maxEntries := max_comm _ _
  refine ⟨hcap ▸ hle, ?_, ?_, fun _ _ _ _ _ h => (insert_admits h).present,
    insert_total cfg map⟩
  · intro mono id now session hpast hget
    obtain ⟨e, he, rfl, rfl, hfresh, hactive⟩ := get_hit hget
    obtain ⟨oldest, hlatest⟩ := htraced e he
    have hpast := hpast _ (List.mem_reverse.mp (List.mem_of_find?_eq_some hlatest))
    unfold Fresh at hfresh
    exact ⟨e.cachedAt, oldest, hlatest, hpast, by omega, hactive⟩
  · intro mono op map' hstep e he hfresh hgone
    by_cases hchanges : op.changes e.id = true
    · exact .inl hchanges
    · cases op with
      | insert oldest id session =>
        have hid : e.id ≠ id := by simpa [CacheOp.changes, eq_comm] using hchanges
        obtain ⟨hnew, hfull, hrest⟩ := (insert_admits hstep).evicted he hfresh hgone hid
        exact .inr ⟨oldest, id, session, rfl, hnew, hcap ▸ le_antisymm hle hfull, hrest⟩
      | remove id =>
        cases hstep
        have hid : e.id ≠ id := by simpa [CacheOp.changes, eq_comm] using hchanges
        exact absurd (Table.mem_remove.mpr ⟨he, hid⟩) hgone
      | get id now =>
        cases hstep
        exact absurd he hgone

def minuteSession (id : SessionId) : Session :=
  ⟨id, "sub", "a@example.com", [], none, 0, nanos 60, none⟩

/-- In a cache of one entry, a second session evicts the first. -/
theorem sessionCache_sound_one : ∃ map,
    run (CacheOp.step ⟨nanos 30, 0⟩) .empty [(0, .insert 1 1 (minuteSession 1)),
      (1, .insert 1 2 (minuteSession 2))] = some map ∧
    CacheSound ⟨nanos 30, 0⟩ [(0, .insert 1 1 (minuteSession 1)),
      (1, .insert 1 2 (minuteSession 2))] map ∧ map.rows.map CacheEntry.id = [2] := by
  have hids : (run (CacheOp.step ⟨nanos 30, 0⟩) .empty [(0, .insert 1 1 (minuteSession 1)),
      (1, .insert 1 2 (minuteSession 2))]).map (fun map => map.rows.map CacheEntry.id) =
      some [2] := by decide
  obtain ⟨map, hrun, hmap⟩ := Option.map_eq_some_iff.mp hids
  exact ⟨map, hrun, sessionCache_sound _ _ map hrun, hmap⟩

end DbMcpGateway.Oauth
