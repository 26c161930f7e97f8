import Mathlib.Data.List.Nodup
import Mathlib.Logic.Function.Basic

/-!
# Tables with a primary key

A table is a list of rows in the order of their insertion, no two of the same key.
`put` writes a row in the place of the row of its key, or at the end.

Results:

* `get_eq_some`, `get_put`: reading by key.
* `mem_put`: the rows after a write.
* `filter_put`: a write of rows outside a filter does not change what it selects.
* `get_retain`, `get_remove`: reading after rows are deleted.
* `reads_put`, `reads_remove`, `reads_retain`: the same for a table read as a function.
-/

namespace DbMcpGateway

/-- Rows in the order of their insertion, with distinct keys. -/
structure Table {κ α : Type} (key : α → κ) where
  rows : List α
  distinct : (rows.map key).Nodup

namespace Table

variable {κ α : Type} [DecidableEq κ] {key : α → κ}

def empty : Table key := ⟨[], List.nodup_nil⟩

/-- The row of a key. -/
def get (t : Table key) (k : κ) : Option α := t.rows.find? fun row => key row = k

/-- The list of rows after `row` is written. -/
def putRow (key : α → κ) (row : α) : List α → List α
  | [] => [row]
  | r :: rows => if key r = key row then row :: rows else r :: putRow key row rows

theorem map_key_putRow (row : α) (rows : List α) :
    (putRow key row rows).map key =
      if key row ∈ rows.map key then rows.map key else rows.map key ++ [key row] := by
  induction rows with
  | nil => simp [putRow]
  | cons r rows ih =>
    by_cases h : key r = key row
    · simp [putRow, h]
    · have hne : key row ≠ key r := fun h' => h h'.symm
      simp only [putRow, h, if_false, List.map_cons, ih, List.mem_cons, hne, false_or]
      split_ifs <;> simp

variable {rows : List α} {t : Table key} {k : κ} {row r : α} {p : α → Bool}

theorem nodup_putRow (row : α) (h : (rows.map key).Nodup) :
    ((putRow key row rows).map key).Nodup := by
  rw [map_key_putRow]
  split_ifs with hmem
  · exact h
  · rw [List.nodup_append]
    refine ⟨h, List.nodup_singleton _, ?_⟩
    intro a ha b hb
    rw [List.mem_singleton] at hb
    rintro rfl
    exact hmem (hb ▸ ha)

/-- The table after `row` is written. -/
def put (t : Table key) (row : α) : Table key := ⟨putRow key row t.rows, nodup_putRow row t.distinct⟩

theorem get_eq_some :
    t.get k = some row ↔ row ∈ t.rows ∧ key row = k := by
  constructor
  · intro h
    exact ⟨List.mem_of_find?_eq_some h, by simpa using List.find?_some h⟩
  · rintro ⟨hmem, rfl⟩
    obtain ⟨rows, hdistinct⟩ := t
    induction rows with
    | nil => cases hmem
    | cons r rows ih =>
      rw [List.map_cons, List.nodup_cons] at hdistinct
      simp only [get, List.find?_cons]
      rcases List.mem_cons.mp hmem with rfl | hmem
      · simp
      · have hne : key r ≠ key row := by
          intro h
          exact hdistinct.1 (h ▸ List.mem_map_of_mem hmem)
        simp only [hne, decide_false]
        exact ih hdistinct.2 hmem

theorem mem_of_get (h : t.get k = some row) : row ∈ t.rows := (get_eq_some.mp h).1

theorem key_of_get (h : t.get k = some row) : key row = k := (get_eq_some.mp h).2

theorem get_eq_none : t.get k = none ↔ ∀ row ∈ t.rows, key row ≠ k := by
  simp [get]

theorem mem_putRow (h : (rows.map key).Nodup) :
    r ∈ putRow key row rows ↔ r = row ∨ r ∈ rows ∧ key r ≠ key row := by
  induction rows with
  | nil => simp [putRow]
  | cons x rows ih =>
    rw [List.map_cons, List.nodup_cons] at h
    by_cases hx : key x = key row
    · have hrest : ∀ y ∈ rows, key y ≠ key row := by
        intro y hy hkey
        exact h.1 (hx.trans hkey.symm ▸ List.mem_map_of_mem hy)
      simp only [putRow, hx, if_true, List.mem_cons]
      constructor
      · rintro (rfl | hr)
        · exact .inl rfl
        · exact .inr ⟨.inr hr, hrest r hr⟩
      · rintro (rfl | ⟨rfl | hr, hne⟩)
        · exact .inl rfl
        · exact absurd hx hne
        · exact .inr hr
    · simp only [putRow, hx, if_false, List.mem_cons, ih h.2]
      constructor
      · rintro (rfl | rfl | ⟨hr, hne⟩)
        · exact .inr ⟨.inl rfl, hx⟩
        · exact .inl rfl
        · exact .inr ⟨.inr hr, hne⟩
      · rintro (rfl | ⟨rfl | hr, hne⟩)
        · exact .inr (.inl rfl)
        · exact .inl rfl
        · exact .inr (.inr ⟨hr, hne⟩)

theorem mem_put :
    r ∈ (t.put row).rows ↔ r = row ∨ r ∈ t.rows ∧ key r ≠ key row :=
  mem_putRow t.distinct

theorem get_put (t : Table key) (row : α) (k : κ) :
    (t.put row).get k = if k = key row then some row else t.get k := by
  split_ifs with h
  · exact get_eq_some.mpr ⟨mem_put.mpr (.inl rfl), h.symm⟩
  · cases hget : t.get k with
    | none =>
      rw [get_eq_none] at hget ⊢
      intro r hr
      rcases mem_put.mp hr with rfl | ⟨hr, -⟩
      · exact fun hk => h hk.symm
      · exact hget r hr
    | some r =>
      obtain ⟨hr, hk⟩ := get_eq_some.mp hget
      have hne : key r ≠ key row := fun hkey => h (hk.symm.trans hkey)
      exact get_eq_some.mpr ⟨mem_put.mpr (.inr ⟨hr, hne⟩), hk⟩

theorem putRow_of_forall_ne (h : ∀ r ∈ rows, key r ≠ key row) :
    putRow key row rows = rows ++ [row] := by
  induction rows with
  | nil => rfl
  | cons r rows ih =>
    rw [List.forall_mem_cons] at h
    rw [putRow, if_neg h.1, ih h.2, List.cons_append]

theorem rows_put_of_none (h : t.get (key row) = none) :
    (t.put row).rows = t.rows ++ [row] :=
  putRow_of_forall_ne (get_eq_none.mp h)

@[simp] theorem get_put_self (t : Table key) (row : α) : (t.put row).get (key row) = some row := by
  rw [get_put, if_pos rfl]

theorem get_put_of_ne (h : k ≠ key row) :
    (t.put row).get k = t.get k := by
  rw [get_put, if_neg h]

theorem filter_putRow (hrow : p row = false) (hold : ∀ r ∈ rows, key r = key row → p r = false) :
    (putRow key row rows).filter p = rows.filter p := by
  induction rows with
  | nil => simp [putRow, hrow]
  | cons r rows ih =>
    rw [List.forall_mem_cons] at hold
    by_cases h : key r = key row
    · simp [putRow, h, hrow, hold.1 h]
    · simp only [putRow, h, if_false, List.filter_cons, ih hold.2]

/-- What a filter selects does not change when the written row and the row it
    replaces are outside of it. -/
theorem filter_put (hrow : p row = false) (hold : ∀ r, t.get (key row) = some r → p r = false) :
    (t.put row).rows.filter p = t.rows.filter p :=
  filter_putRow hrow fun r hr hkey => hold r (get_eq_some.mpr ⟨hr, hkey⟩)

/-! ## Deleting -/

/-- The table with the rows that satisfy a predicate only. -/
def retain (t : Table key) (p : α → Bool) : Table key :=
  ⟨t.rows.filter p, t.distinct.sublist (List.filter_sublist.map key)⟩

def remove (t : Table key) (k : κ) : Table key := t.retain fun row => key row ≠ k

omit [DecidableEq κ] in
@[simp] theorem mem_retain :
    row ∈ (t.retain p).rows ↔ row ∈ t.rows ∧ p row = true := List.mem_filter

@[simp] theorem mem_remove :
    row ∈ (t.remove k).rows ↔ row ∈ t.rows ∧ key row ≠ k := by
  rw [remove, mem_retain, decide_eq_true_eq]

theorem get_retain (t : Table key) (p : α → Bool) (k : κ) :
    (t.retain p).get k = (t.get k).filter p := by
  ext row
  rw [get_eq_some, mem_retain, Option.filter_eq_some_iff, get_eq_some]
  tauto

theorem get_remove (t : Table key) (k k' : κ) :
    (t.remove k).get k' = if k' = k then none else t.get k' := by
  split_ifs with h
  · rw [get_eq_none]
    intro row hrow
    rw [h]
    exact (mem_remove.mp hrow).2
  · ext row
    rw [get_eq_some, mem_remove, get_eq_some]
    constructor
    · rintro ⟨⟨hmem, -⟩, hkey⟩
      exact ⟨hmem, hkey⟩
    · rintro ⟨hmem, hkey⟩
      exact ⟨⟨hmem, fun hk => h (hkey.symm.trans hk)⟩, hkey⟩

/-! ## Sizes -/

theorem length_putRow_le (row : α) (rows : List α) :
    (putRow key row rows).length ≤ rows.length + 1 := by
  induction rows with
  | nil => exact Nat.le_refl _
  | cons r rows ih =>
    rw [putRow]
    split_ifs
    · exact Nat.le_succ _
    · exact Nat.succ_le_succ ih

theorem length_put_le (t : Table key) (row : α) : (t.put row).rows.length ≤ t.rows.length + 1 :=
  length_putRow_le row t.rows

theorem length_put_of_some (h : t.get (key row) = some r) :
    (t.put row).rows.length = t.rows.length := by
  obtain ⟨hr, hkey⟩ := get_eq_some.mp h
  have hmem : key row ∈ t.rows.map key := hkey ▸ List.mem_map_of_mem hr
  have hkeys := congrArg List.length (@map_key_putRow κ α _ key row t.rows)
  rwa [if_pos hmem, List.length_map, List.length_map] at hkeys

omit [DecidableEq κ] in
theorem length_retain_le (t : Table key) (p : α → Bool) :
    (t.retain p).rows.length ≤ t.rows.length :=
  List.length_filter_le p t.rows

/-- Deleting a row makes the table smaller. -/
theorem length_remove_lt (h : t.get k = some row) :
    (t.remove k).rows.length < t.rows.length := by
  obtain ⟨hrow, hkey⟩ := get_eq_some.mp h
  refine List.length_filter_lt_length_iff_exists.mpr ⟨row, hrow, ?_⟩
  simp [hkey]

/-! ## Tables as functions -/

section

variable {β : Type} {f : α → β}

/-- What `f` reads in the row of a key. -/
def reads (t : Table key) (f : α → β) : κ → Option β := fun k => (t.get k).map f

theorem reads_put (t : Table key) (row : α) :
    (t.put row).reads f = Function.update (t.reads f) (key row) (some (f row)) := by
  funext k
  unfold reads
  rw [get_put, Function.update_apply]
  split_ifs <;> rfl

theorem reads_remove (t : Table key) (k : κ) :
    (t.remove k).reads f = Function.update (t.reads f) k none := by
  funext k'
  unfold reads
  rw [get_remove, Function.update_apply]
  split_ifs <;> rfl

/-- Rows are kept for what `f` reads in them. -/
theorem reads_retain {t : Table key} {p : α → Bool} {q : β → Bool}
    (h : ∀ row ∈ t.rows, p row = q (f row)) :
    (t.retain p).reads f = fun k => (t.reads f k).filter q := by
  funext k
  unfold reads
  rw [get_retain]
  cases hget : t.get k with
  | none => rfl
  | some row =>
    have hrow := h row (mem_of_get hget)
    cases hp : p row <;> simp [Option.filter, hp, ← hrow]

end

end Table

end DbMcpGateway
