import Mathlib.Data.List.Induction
import Mathlib.Order.Nat
import DbMcpGateway.Data.Table

/-!
# Maps whose entries expire

A map of bounded size. Each entry has an expiry; expired entries are collected when the map is
full, or by an operation of its own, and an entry is taken once. `Store` is the interface,
`bounded` the map, and `Sound` what it guarantees over a whole history of operations at times
that do not go back, in which no key is inserted twice.

Results:

* `mem_after`: what is stored was inserted and not taken since.
* `after_mem`: what was inserted, not taken since and not expired is stored.
* `sound_of_isBounded`: the map is sound.
-/

namespace DbMcpGateway.Expiring

/-- Pairs of a key and a value. -/
abbrev Map (κ β : Type) [DecidableEq κ] := Table (Prod.fst : κ × β → κ)

/-- A store: `value` is what is stored for the arguments `a` at a time, and `full` the error of
    a refused insertion. -/
structure Store (κ α β ε : Type) [DecidableEq κ] where
  cap : ℕ
  full : ε
  value : ℕ → α → β
  expires : β → ℕ
  insert : Map κ β → ℕ → κ → α → Except ε Unit × Map κ β
  take : Map κ β → ℕ → κ → Option β × Map κ β
  gc : Map κ β → ℕ → Map κ β

/-- An operation. -/
inductive Op (κ α : Type)
  | insert (k : κ) (a : α)
  | take (k : κ)
  | gc

variable {κ α β ε : Type} [DecidableEq κ]

namespace Store

variable (st : Store κ α β ε)

/-- The map after an operation at the time `x.1`. -/
def step (map : Map κ β) (x : ℕ × Op κ α) : Map κ β :=
  match x.2 with
  | .insert k a => (st.insert map x.1 k a).2
  | .take k => (st.take map x.1 k).2
  | .gc => st.gc map x.1

/-- The map after a history. -/
def after (ops : List (ℕ × Op κ α)) : Map κ β := ops.foldl st.step .empty

/-- The value was inserted for the key, and not taken since. -/
def Stored (ops : List (ℕ × Op κ α)) (k : κ) (v : β) : Prop :=
  ∃ ops₁ t a ops₂, ops = ops₁ ++ (t, .insert k a) :: ops₂ ∧
    (st.insert (st.after ops₁) t k a).1 = .ok () ∧ v = st.value t a ∧
    ∀ x ∈ ops₂, x.2 ≠ .take k

end Store

/-- The key that an operation inserts. -/
def Op.inserted? : Op κ α → Option κ
  | .insert k _ => some k
  | _ => none

/-- Times do not go back, and no key is inserted twice. -/
structure History (ops : List (ℕ × Op κ α)) : Prop where
  forward : ops.Pairwise fun x y => x.1 ≤ y.1
  fresh : (ops.filterMap fun x => x.2.inserted?).Nodup

/-- What a store guarantees over every history. -/
structure Sound (st : Store κ α β ε) : Prop where
  bounded : ∀ ops, (st.after ops).rows.length ≤ st.cap
  /-- An insertion is refused exactly if the map is full of entries that have not expired. -/
  refused : ∀ ops t k a, (st.insert (st.after ops) t k a).1 = .error st.full ↔
    ((st.after ops).rows.filter fun e => t < st.expires e.2).length = st.cap
  /-- Only its own `take` removes an entry that has not expired. -/
  kept : ∀ ops t op, History (ops ++ [(t, op)]) → ∀ e ∈ (st.after ops).rows, t < st.expires e.2 →
    op ≠ .take e.1 → e ∈ (st.after (ops ++ [(t, op)])).rows
  /-- A `take` returns what was inserted for the key, not taken before and not expired. -/
  taken : ∀ ops t k v, History (ops ++ [(t, .take k)]) →
    ((st.take (st.after ops) t k).1 = some v ↔ st.Stored ops k v ∧ t < st.expires v)

/-! ## The map -/

section

variable (cap : ℕ) (expires : β → ℕ)

/-- The entries that have not expired. -/
def live (map : Map κ β) (now : ℕ) : Map κ β := map.retain fun e => now < expires e.2

/-- The map, without its expired entries if it is full. -/
def collect (map : Map κ β) (now : ℕ) : Map κ β :=
  if cap ≤ map.rows.length then live expires map now else map

/-- A map that collects its expired entries when it is full. -/
def bounded (full : ε) (value : ℕ → α → β) : Store κ α β ε where
  cap := cap
  full := full
  value := value
  expires := expires
  insert map now k a :=
    let map := collect cap expires map now
    if cap ≤ map.rows.length then (.error full, map) else (.ok (), map.put (k, value now a))
  take map now k :=
    match map.get k with
    | some (_, v) => (if now < expires v then some v else none, map.remove k)
    | none => (none, map)
  gc map now := live expires map now

variable {cap expires} {map : Map κ β} {now : ℕ} {e : κ × β}

theorem mem_live : e ∈ (live expires map now).rows ↔ e ∈ map.rows ∧ now < expires e.2 := by
  rw [live, Table.mem_retain, decide_eq_true_eq]

theorem mem_of_collect (h : e ∈ (collect cap expires map now).rows) : e ∈ map.rows := by
  unfold collect at h
  split_ifs at h
  · exact (mem_live.mp h).1
  · exact h

theorem mem_collect (h : e ∈ map.rows) (hlive : now < expires e.2) :
    e ∈ (collect cap expires map now).rows := by
  unfold collect
  split_ifs
  · exact mem_live.mpr ⟨h, hlive⟩
  · exact h

theorem length_collect_le :
    (collect cap expires map now).rows.length ≤ map.rows.length := by
  unfold collect
  split_ifs
  · exact Table.length_retain_le _ _
  · exact le_rfl

theorem cap_le_collect : cap ≤ (collect cap expires map now).rows.length ↔
    cap ≤ (live expires map now).rows.length := by
  unfold collect
  split_ifs with hfull
  · rfl
  · exact iff_of_false hfull fun h => hfull (h.trans (Table.length_retain_le _ _))

end

/-- The store is the map with its own parameters. -/
structure IsBounded (st : Store κ α β ε) : Prop where
  insert : st.insert = (bounded st.cap st.expires st.full st.value).insert
  take : st.take = (bounded st.cap st.expires st.full st.value : Store κ α β ε).take
  gc : st.gc = (bounded st.cap st.expires st.full st.value : Store κ α β ε).gc

section

variable {st : Store κ α β ε} (hst : IsBounded st) {map : Map κ β} {now : ℕ} {k : κ} {a : α}
  {e : κ × β} {ops : List (ℕ × Op κ α)}

theorem Store.after_concat (st : Store κ α β ε) (ops : List (ℕ × Op κ α)) (x : ℕ × Op κ α) :
    st.after (ops ++ [x]) = st.step (st.after ops) x := List.foldl_concat ..

include hst

theorem insert_full (hfull : st.cap ≤ (collect st.cap st.expires map now).rows.length) :
    st.insert map now k a = (.error st.full, collect st.cap st.expires map now) := by
  rw [hst.insert]
  exact if_pos hfull

theorem insert_room (hroom : ¬ st.cap ≤ (collect st.cap st.expires map now).rows.length) :
    st.insert map now k a =
      (.ok (), (collect st.cap st.expires map now).put (k, st.value now a)) := by
  rw [hst.insert]
  exact if_neg hroom

theorem take_eq : st.take map now k = match map.get k with
    | some (_, v) => (if now < st.expires v then some v else none, map.remove k)
    | none => (none, map) := by
  rw [hst.take]
  rfl

theorem gc_eq : st.gc map now = live st.expires map now := by
  rw [hst.gc]
  rfl

variable {v : β} {x : ℕ × Op κ α}

theorem take_eq_some :
    (st.take map now k).1 = some v ↔ (k, v) ∈ map.rows ∧ now < st.expires v := by
  rw [take_eq hst]
  cases hget : map.get k with
  | none => exact iff_of_false nofun fun h => Table.get_eq_none.mp hget _ h.1 rfl
  | some e =>
    obtain ⟨hmem, rfl⟩ := Table.get_eq_some.mp hget
    have hiff : (e.1, v) ∈ map.rows ↔ e.2 = v := by
      constructor
      · intro hv
        have hget' := Table.get_eq_some.mpr ⟨hv, rfl⟩
        exact congrArg Prod.snd (Option.some.inj (hget.symm.trans hget'))
      · rintro rfl
        exact hmem
    rw [hiff]
    dsimp only
    split_ifs with hlive
    · constructor
      · intro h
        cases h
        exact ⟨rfl, hlive⟩
      · rintro ⟨rfl, -⟩
        rfl
    · refine iff_of_false nofun ?_
      rintro ⟨rfl, h⟩
      exact hlive h

theorem insert_mem (h : (st.insert map now k a).1 = .ok ()) :
    (k, st.value now a) ∈ (st.insert map now k a).2.rows := by
  by_cases hfull : st.cap ≤ (collect st.cap st.expires map now).rows.length
  · rw [insert_full hst hfull] at h
    cases h
  · rw [insert_room hst hfull]
    exact Table.mem_put.mpr (.inl rfl)

/-- A `take` removes nothing but the entry of its key. -/
theorem mem_take : e ∈ (st.take map now k).2.rows ↔ e ∈ map.rows ∧ e.1 ≠ k := by
  rw [take_eq hst]
  cases hget : map.get k with
  | none =>
    have hne := Table.get_eq_none.mp hget
    exact ⟨fun he => ⟨he, hne e he⟩, And.left⟩
  | some e => exact Table.mem_remove

theorem mem_insert (h : e ∈ (st.insert map now k a).2.rows) :
    e ∈ map.rows ∨ (st.insert map now k a).1 = .ok () ∧ e = (k, st.value now a) := by
  by_cases hfull : st.cap ≤ (collect st.cap st.expires map now).rows.length
  · rw [insert_full hst hfull] at h
    exact .inl (mem_of_collect h)
  · rw [insert_room hst hfull] at h ⊢
    rcases Table.mem_put.mp h with rfl | ⟨h, -⟩
    · exact .inr ⟨rfl, rfl⟩
    · exact .inl (mem_of_collect h)

/-- What is there after an operation was there, or is inserted; in both cases it is not taken. -/
theorem mem_step (h : e ∈ (st.step map x).rows) :
    e ∈ map.rows ∧ x.2 ≠ .take e.1 ∨
      ∃ a, x.2 = .insert e.1 a ∧ (st.insert map x.1 e.1 a).1 = .ok () ∧ e.2 = st.value x.1 a := by
  obtain ⟨t, op⟩ := x
  cases op with
  | insert k a =>
    rcases mem_insert hst h with h | ⟨hok, rfl⟩
    · exact .inl ⟨h, nofun⟩
    · exact .inr ⟨a, rfl, hok, rfl⟩
  | take k =>
    obtain ⟨h, hne⟩ := (mem_take hst).mp h
    exact .inl ⟨h, fun heq => hne (Op.take.inj heq).symm⟩
  | gc =>
    dsimp only [Store.step] at h
    rw [gc_eq hst] at h
    exact .inl ⟨(mem_live.mp h).1, nofun⟩

/-- A live entry stays, unless it is taken or its key is inserted again. -/
theorem step_mem (h : e ∈ map.rows) (hlive : x.1 < st.expires e.2) (htake : x.2 ≠ .take e.1)
    (hinsert : x.2.inserted? ≠ some e.1) : e ∈ (st.step map x).rows := by
  obtain ⟨t, op⟩ := x
  cases op with
  | insert k a =>
    dsimp only [Store.step]
    by_cases hfull : st.cap ≤ (collect st.cap st.expires map t).rows.length
    · rw [insert_full hst hfull]
      exact mem_collect h hlive
    · rw [insert_room hst hfull]
      exact Table.mem_put.mpr (.inr ⟨mem_collect h hlive, fun heq => hinsert (congrArg some heq.symm)⟩)
  | take k => exact (mem_take hst).mpr ⟨h, fun heq => htake (congrArg Op.take heq.symm)⟩
  | gc =>
    dsimp only [Store.step]
    rw [gc_eq hst]
    exact mem_live.mpr ⟨h, hlive⟩

theorem length_step_le (h : map.rows.length ≤ st.cap) :
    (st.step map x).rows.length ≤ st.cap := by
  obtain ⟨t, op⟩ := x
  cases op with
  | insert k a =>
    dsimp only [Store.step]
    by_cases hfull : st.cap ≤ (collect st.cap st.expires map t).rows.length
    · rw [insert_full hst hfull]
      exact length_collect_le.trans h
    · rw [insert_room hst hfull]
      exact (Table.length_put_le _ _).trans (not_le.mp hfull)
  | take k =>
    dsimp only [Store.step]
    rw [take_eq hst]
    split
    · exact (Table.length_retain_le _ _).trans h
    · exact h
  | gc =>
    dsimp only [Store.step]
    rw [gc_eq hst]
    exact (Table.length_retain_le _ _).trans h

/-! ## Histories -/

theorem length_after_le (ops : List (ℕ × Op κ α)) : (st.after ops).rows.length ≤ st.cap := by
  induction ops using List.reverseRecOn with
  | nil => exact Nat.zero_le _
  | append_singleton ops x ih =>
    rw [Store.after_concat]
    exact length_step_le hst ih

omit hst in
theorem stored_concat : st.Stored (ops ++ [x]) k v ↔
    st.Stored ops k v ∧ x.2 ≠ .take k ∨
      ∃ a, x.2 = .insert k a ∧ (st.insert (st.after ops) x.1 k a).1 = .ok () ∧
        v = st.value x.1 a := by
  constructor
  · rintro ⟨ops₁, t, a, ops₂, heq, hok, hvalue, hrest⟩
    rcases List.eq_nil_or_concat' ops₂ with rfl | ⟨ops₂, y, rfl⟩
    · obtain ⟨rfl, hx⟩ := List.append_inj' heq rfl
      cases hx
      exact .inr ⟨a, rfl, hok, hvalue⟩
    · rw [← List.cons_append, ← List.append_assoc] at heq
      obtain ⟨rfl, hx⟩ := List.append_inj' heq rfl
      cases hx
      refine .inl ⟨⟨ops₁, t, a, ops₂, rfl, hok, hvalue, fun z hz => ?_⟩, ?_⟩
      · exact hrest z (List.mem_append_left _ hz)
      · exact hrest x (by simp)
  · rintro (⟨⟨ops₁, t, a, ops₂, rfl, hok, hvalue, hrest⟩, hx⟩ | ⟨a, hx, hok, hvalue⟩)
    · refine ⟨ops₁, t, a, ops₂ ++ [x], by simp, hok, hvalue, ?_⟩
      intro y hy
      rcases List.mem_append.mp hy with hy | hy
      · exact hrest y hy
      · rw [List.mem_singleton.mp hy]
        exact hx
    · exact ⟨ops, x.1, a, [], by rw [← hx], hok, hvalue, nofun⟩

/-- What is stored was inserted, and not taken since. -/
theorem mem_after (h : e ∈ (st.after ops).rows) : st.Stored ops e.1 e.2 := by
  induction ops using List.reverseRecOn with
  | nil => cases h
  | append_singleton ops x ih =>
    rw [Store.after_concat] at h
    refine stored_concat.mpr ?_
    rcases mem_step hst h with ⟨h, htake⟩ | hinserted
    · exact .inl ⟨ih h, htake⟩
    · exact .inr hinserted

/-- A key that is inserted is not stored. -/
theorem History.not_inserted {op : Op κ α} (h : History (ops ++ [(now, op)]))
    (he : e ∈ (st.after ops).rows) : op.inserted? ≠ some e.1 := by
  intro hop
  obtain ⟨ops₁, t, a, ops₂, rfl, -⟩ := mem_after hst he
  have hfresh := h.fresh
  rw [List.filterMap_append, List.nodup_append] at hfresh
  refine hfresh.2.2 e.1 ?_ e.1 ?_ rfl
  · simp [Op.inserted?]
  · simp [hop]

omit [DecidableEq κ] hst in
theorem History.of_concat (h : History (ops ++ [x])) : History ops := by
  refine ⟨(List.pairwise_append.mp h.forward).1, ?_⟩
  have hfresh := h.fresh
  rw [List.filterMap_append] at hfresh
  exact (List.nodup_append.mp hfresh).1

theorem after_mem (h : History ops) (hpast : ∀ x ∈ ops, x.1 ≤ now) (hstored : st.Stored ops k v)
    (hlive : now < st.expires v) : (k, v) ∈ (st.after ops).rows := by
  induction ops using List.reverseRecOn with
  | nil =>
    obtain ⟨_, _, _, _, hnil, -⟩ := hstored
    simp at hnil
  | append_singleton ops x ih =>
    rw [Store.after_concat]
    rcases stored_concat.mp hstored with ⟨hstored, htake⟩ | ⟨a, hop, hok, rfl⟩
    · have hmem := ih h.of_concat (fun y hy => hpast y (List.mem_append_left _ hy)) hstored
      have hx := hpast x (List.mem_append_right _ (List.mem_singleton.mpr rfl))
      exact step_mem hst hmem (hx.trans_lt hlive) htake (h.not_inserted hst hmem)
    · obtain ⟨t, op⟩ := x
      cases hop
      exact insert_mem hst hok

theorem sound_of_isBounded : Sound st where
  bounded := length_after_le hst
  refused ops t k a := by
    have hle : (live st.expires (st.after ops) t).rows.length ≤ st.cap :=
      (Table.length_retain_le _ _).trans (length_after_le hst ops)
    have hiff : st.cap ≤ (collect st.cap st.expires (st.after ops) t).rows.length ↔
        st.cap ≤ (live st.expires (st.after ops) t).rows.length := cap_le_collect
    by_cases hfull : st.cap ≤ (collect st.cap st.expires (st.after ops) t).rows.length
    · rw [insert_full hst hfull]
      exact iff_of_true rfl (le_antisymm hle (hiff.mp hfull))
    · rw [insert_room hst hfull]
      exact iff_of_false nofun fun heq => hfull (hiff.mpr heq.ge)
  kept ops t op h e he hlive htake := by
    rw [Store.after_concat]
    exact step_mem hst he hlive htake (h.not_inserted hst he)
  taken ops t k v h := by
    rw [take_eq_some hst]
    refine and_congr_left fun hlive => ⟨mem_after hst, fun hstored => ?_⟩
    refine after_mem hst h.of_concat (fun x hx => ?_) hstored hlive
    exact (List.pairwise_append.mp h.forward).2.2 x hx _ (List.mem_singleton.mpr rfl)

end

end DbMcpGateway.Expiring
