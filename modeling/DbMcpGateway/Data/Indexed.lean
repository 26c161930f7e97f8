import Mathlib.Data.List.Basic
import Mathlib.Data.List.Count
import Mathlib.Data.List.Perm.Subperm

/-!
# Lists whose items are named by their position

Items are appended and replaced, never removed, so a position keeps its meaning.

Results:

* `countP_set`: how many items satisfy a predicate after one is replaced.
* `length_le_of_labels`: distinct labels that are all in use number at most the items that
  have one.
-/

namespace DbMcpGateway.Indexed

variable {α : Type} {l : List α} {x y : α} {i j : ℕ}

/-- The items after one is replaced. -/
theorem getElem?_set_of_some (hj : l[j]? = some x) :
    (l.set j y)[i]? = if i = j then some y else l[i]? := by
  have hlt : j < l.length := (List.getElem?_eq_some_iff.mp hj).1
  rw [List.getElem?_set]
  by_cases hi : j = i
  · subst hi
    simp [hlt]
  · have hi' : i ≠ j := fun h => hi h.symm
    simp [hi, hi']

/-- The items after one is appended. -/
theorem getElem?_concat : (l ++ [x])[i]? = if i = l.length then some x else l[i]? := by
  rw [List.getElem?_append]
  split_ifs with hlt heq heq
  · omega
  · rfl
  · subst heq
    simp
  · rw [List.getElem?_eq_none (by simp; omega), List.getElem?_eq_none (by omega)]

theorem getElem?_concat_of_some (hi : l[i]? = some y) : (l ++ [x])[i]? = some y := by
  have hlt : i < l.length := (List.getElem?_eq_some_iff.mp hi).1
  rw [getElem?_concat, if_neg (by omega), hi]

theorem mem_set_cases (h : y ∈ l.set i x) : y = x ∨ y ∈ l :=
  (List.mem_or_eq_of_mem_set h).symm

theorem mem_set_of_mem (hj : l[j]? = some x) {z : α} (h : y ∈ l) : y = x ∨ y ∈ l.set j z := by
  obtain ⟨i, hi⟩ := List.mem_iff_getElem?.mp h
  by_cases hij : i = j
  · subst hij
    rw [hj] at hi
    exact .inl (Option.some.inj hi).symm
  · refine .inr (List.mem_iff_getElem?.mpr ⟨i, ?_⟩)
    rw [getElem?_set_of_some hj, if_neg hij, hi]

theorem mem_set_self (hj : l[j]? = some x) {z : α} : z ∈ l.set j z := by
  refine List.mem_iff_getElem?.mpr ⟨j, ?_⟩
  rw [getElem?_set_of_some hj, if_pos rfl]

theorem mem_concat_cases (h : y ∈ l ++ [x]) : y = x ∨ y ∈ l := by
  rcases List.mem_append.mp h with h | h
  · exact .inr h
  · exact .inl (List.mem_singleton.mp h)

/-- The last item of a list is at its end or after a given one. -/
theorem concat_eq_append_cons {l₁ l₂ : List α} (h : l ++ [x] = l₁ ++ y :: l₂) :
    l₂ = [] ∧ l₁ = l ∧ y = x ∨ ∃ l₃, l₂ = l₃ ++ [x] ∧ l = l₁ ++ y :: l₃ := by
  rcases List.eq_nil_or_concat l₂ with rfl | ⟨l₃, z, rfl⟩
  · obtain ⟨hl, hx⟩ := List.append_inj' h rfl
    exact .inl ⟨rfl, hl.symm, (List.cons.inj hx).1.symm⟩
  · rw [List.concat_eq_append] at h ⊢
    rw [← List.cons_append, ← List.append_assoc] at h
    obtain ⟨hl, hx⟩ := List.append_inj' h rfl
    exact .inr ⟨l₃, by rw [hx], hl⟩

/-! ## Counting -/

/-- The count after an item is replaced, without subtraction. -/
theorem countP_set (p : α → Bool) (hj : l[j]? = some x) :
    (l.set j y).countP p + (if p x = true then 1 else 0) =
      l.countP p + (if p y = true then 1 else 0) := by
  obtain ⟨hlt, rfl⟩ := List.getElem?_eq_some_iff.mp hj
  rw [List.countP_set hlt]
  have hpos : (if p l[j] = true then 1 else 0) ≤ l.countP p := by
    split_ifs with hp
    · exact List.one_le_countP_iff.mpr ⟨_, List.getElem_mem hlt, hp⟩
    · exact Nat.zero_le _
  omega

theorem countP_concat (p : α → Bool) :
    (l ++ [x]).countP p = l.countP p + (if p x = true then 1 else 0) := by
  rw [List.countP_append, List.countP_singleton]

/-- Distinct labels, each of them that of an item, number at most the items that have one. -/
theorem length_le_of_labels {β : Type} {labels : List β} {label : α → Option β}
    (hnodup : labels.Nodup) (hused : ∀ b ∈ labels, ∃ a ∈ l, label a = some b) :
    labels.length ≤ l.countP fun a => (label a).isSome := by
  have hsub : labels ⊆ l.filterMap label := by
    intro b hb
    obtain ⟨a, ha, hlabel⟩ := hused b hb
    exact List.mem_filterMap.mpr ⟨a, ha, hlabel⟩
  calc labels.length ≤ (l.filterMap label).length := (List.Nodup.subperm hnodup hsub).length_le
    _ = l.countP fun a => (label a).isSome := List.length_filterMap_eq_countP

end DbMcpGateway.Indexed
