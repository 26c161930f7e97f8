import Mathlib.Data.List.Basic
import Mathlib.Tactic.Common

/-!
# Insertion-ordered maps

A map as the list of its entries in insertion order. Inserting a key that is
present replaces its value and keeps its position; a new key goes to the end.
Building a map from a list with repeated keys therefore keeps the first position
and the last value of each key.
-/

namespace DbMcpGateway.OrdMap

variable {κ ν μ : Type} [DecidableEq κ]

def insert : List (κ × ν) → κ → ν → List (κ × ν)
  | [], k, v => [(k, v)]
  | (k', v') :: m, k, v => if k' = k then (k, v) :: m else (k', v') :: insert m k v

/-- The value of a key. -/
def get? (m : List (κ × ν)) (k : κ) : Option ν := (m.find? fun e => e.1 == k).map (·.2)

/-- Insert the entries of a list from left to right. -/
def insertAll (m : List (κ × ν)) (l : List (κ × ν)) : List (κ × ν) :=
  l.foldl (fun m e => insert m e.1 e.2) m

/-- The map of a list of entries. -/
def ofList (l : List (κ × ν)) : List (κ × ν) := insertAll [] l

def mapValues (f : ν → μ) (m : List (κ × ν)) : List (κ × μ) := m.map fun e => (e.1, f e.2)

theorem get?_mapValues (f : ν → μ) (m : List (κ × ν)) (k : κ) :
    get? (mapValues f m) k = (get? m k).map f := by
  rw [get?, get?, mapValues, List.find?_map, Option.map_map, Option.map_map]
  rfl

variable {m : List (κ × ν)} {k : κ} {e : κ × ν} {l : List (κ × ν)}

theorem mem_insert {v : ν} (h : e ∈ insert m k v) :
    e = (k, v) ∨ e ∈ m := by
  induction m with
  | nil => exact .inl (List.mem_singleton.mp h)
  | cons e' m ih =>
    rw [insert] at h
    split_ifs at h with hk
    · rcases List.mem_cons.mp h with rfl | h
      · exact .inl rfl
      · exact .inr (List.mem_cons_of_mem _ h)
    · rcases List.mem_cons.mp h with rfl | h
      · exact .inr List.mem_cons_self
      · rcases ih h with rfl | h
        · exact .inl rfl
        · exact .inr (List.mem_cons_of_mem _ h)

theorem mem_insertAll (h : e ∈ insertAll m l) :
    e ∈ m ∨ e ∈ l := by
  induction l generalizing m with
  | nil => exact .inl h
  | cons e' l ih =>
    rcases ih h with h | h
    · rcases mem_insert h with rfl | h
      · exact .inr List.mem_cons_self
      · exact .inl h
    · exact .inr (List.mem_cons_of_mem _ h)

theorem mem_of_mem_ofList (h : e ∈ ofList l) : e ∈ l :=
  (mem_insertAll h).resolve_left List.not_mem_nil

theorem keys_insert (m : List (κ × ν)) (k : κ) (v : ν) :
    (insert m k v).map (·.1) = if k ∈ m.map (·.1) then m.map (·.1) else m.map (·.1) ++ [k] := by
  induction m with
  | nil => simp [insert]
  | cons e m ih =>
    by_cases hk : e.1 = k
    · subst hk
      simp [insert]
    · rw [insert, if_neg hk, List.map_cons, ih]
      by_cases hm : k ∈ m.map (·.1)
      · simp [hm]
      · simp [hm, Ne.symm hk]

theorem get?_insert_self (m : List (κ × ν)) (k : κ) (v : ν) : get? (insert m k v) k = some v := by
  induction m with
  | nil => simp [insert, get?]
  | cons e m ih =>
    rw [insert]
    split_ifs with hk
    · simp [get?]
    · rw [get?, List.find?_cons_of_neg (by simpa using hk)]
      exact ih

theorem get?_insert_of_ne {k' : κ} (hne : k' ≠ k) (v : ν) :
    get? (insert m k v) k' = get? m k' := by
  induction m with
  | nil => simp [insert, get?, Ne.symm hne]
  | cons e m ih =>
    rw [insert]
    split_ifs with hk
    · have he : e.1 ≠ k' := fun h => hne (h.symm.trans hk)
      rw [get?, get?, List.find?_cons_of_neg (by simpa using Ne.symm hne),
        List.find?_cons_of_neg (by simpa using he)]
    · by_cases he : e.1 = k'
      · simp [get?, he]
      · rw [get?, get?, List.find?_cons_of_neg (by simpa using he),
          List.find?_cons_of_neg (by simpa using he)]
        exact ih

/-- The first key stays the first. -/
theorem head?_keys_insert {k₀ : κ} (h : (m.map (·.1)).head? = some k₀) (v : ν) :
    ((insert m k v).map (·.1)).head? = some k₀ := by
  rw [keys_insert]
  split_ifs
  · exact h
  · rw [List.head?_append, h]
    rfl

theorem head?_keys_insertAll {k₀ : κ} (h : (m.map (·.1)).head? = some k₀) :
    ((insertAll m l).map (·.1)).head? = some k₀ := by
  induction l generalizing m with
  | nil => exact h
  | cons e l ih => exact ih (head?_keys_insert h e.2)

theorem head?_keys_ofList (l : List (κ × ν)) :
    ((ofList l).map (·.1)).head? = (l.map (·.1)).head? := by
  cases l with
  | nil => rfl
  | cons e l => exact head?_keys_insertAll (m := [e]) rfl

/-! ## Changing the values -/

theorem insert_map (f : ν → μ) (m : List (κ × ν)) (k : κ) (v : ν) :
    insert (m.map fun e => (e.1, f e.2)) k (f v) =
      (insert m k v).map fun e => (e.1, f e.2) := by
  induction m with
  | nil => rfl
  | cons e m ih =>
    rw [List.map_cons, insert, insert]
    split_ifs with hk
    · rfl
    · rw [ih, List.map_cons]

theorem insertAll_map (f : ν → μ) (m l : List (κ × ν)) :
    insertAll (m.map fun e => (e.1, f e.2)) (l.map fun e => (e.1, f e.2)) =
      (insertAll m l).map fun e => (e.1, f e.2) := by
  induction l generalizing m with
  | nil => rfl
  | cons e l ih =>
    rw [insertAll, List.map_cons, List.foldl_cons, insert_map]
    exact ih _

/-- Building a map commutes with a function on the values. -/
theorem ofList_map (f : ν → μ) (l : List (κ × ν)) :
    ofList (l.map fun e => (e.1, f e.2)) = (ofList l).map fun e => (e.1, f e.2) :=
  insertAll_map f [] l

end DbMcpGateway.OrdMap
