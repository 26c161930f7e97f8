import Mathlib.Order.MinMax
import Mathlib.Order.BoundedOrder.Basic
import Mathlib.Tactic.Common

/-!
# Folding a meet over a list

A loop that starts from the top element and meets every item into an accumulator
computes the greatest lower bound of the items. What it returns therefore depends
only on which items occur, and shrinks when items are added.

Results:

* `le_foldl_inf_iff`: the fold is the greatest lower bound.
* `foldl_inf_anti`: more items, smaller fold.
* `foldl_inf_congr`: same items, same fold.
* `foldl_inf_eq_or_mem`: in a linear order the fold is one of the items.
-/

namespace DbMcpGateway.Order

variable {α : Type} [SemilatticeInf α]

variable {init : α} {l l' : List α}

theorem le_foldl_inf_iff {a : α} :
    a ≤ l.foldl (· ⊓ ·) init ↔ a ≤ init ∧ ∀ x ∈ l, a ≤ x := by
  induction l generalizing init with
  | nil => simp
  | cons x l ih => simp only [List.foldl_cons, ih, le_inf_iff, List.forall_mem_cons, and_assoc]

theorem foldl_inf_le {x : α} (hx : x ∈ l) : l.foldl (· ⊓ ·) init ≤ x :=
  (le_foldl_inf_iff.mp le_rfl).2 x hx

theorem foldl_inf_anti (h : ∀ x ∈ l, x ∈ l') :
    l'.foldl (· ⊓ ·) init ≤ l.foldl (· ⊓ ·) init := by
  rw [le_foldl_inf_iff]
  exact ⟨(le_foldl_inf_iff.mp le_rfl).1, fun x hx => foldl_inf_le (h x hx)⟩

theorem foldl_inf_congr (h : ∀ x, x ∈ l ↔ x ∈ l') :
    l.foldl (· ⊓ ·) init = l'.foldl (· ⊓ ·) init :=
  le_antisymm (foldl_inf_anti fun x hx => (h x).mpr hx) (foldl_inf_anti fun x hx => (h x).mp hx)

theorem foldl_inf_eq_or_mem {β : Type} [LinearOrder β] (init : β) (l : List β) :
    l.foldl (· ⊓ ·) init = init ∨ l.foldl (· ⊓ ·) init ∈ l := by
  induction l generalizing init with
  | nil => exact .inl rfl
  | cons x l ih =>
    rw [List.foldl_cons]
    rcases ih (init ⊓ x) with h | h
    · rw [h]
      rcases min_choice init x with h' | h'
      · exact .inl h'
      · exact .inr (List.mem_cons.mpr (.inl h'))
    · exact .inr (List.mem_cons_of_mem _ h)

end DbMcpGateway.Order
