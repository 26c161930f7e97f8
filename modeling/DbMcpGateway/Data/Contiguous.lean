import Mathlib.Data.List.Induction
import Mathlib.Data.List.Nodup

/-!
# Lists whose equal elements stand together

A fold that compares each element with the one before it finds every group of a list if the
elements of one group stand together. The two facts used for that: an element that occurs
again is the last one so far, and the first appearances of a longer list.
-/

namespace DbMcpGateway

section

variable {α : Type*} {l l' : List α} {a : α}

/-- Between two occurrences of an element there is nothing else. -/
def Contiguous (l : List α) : Prop :=
  ∀ (l₁ l₂ l₃ : List α) (a : α), l = l₁ ++ a :: (l₂ ++ a :: l₃) → ∀ b ∈ l₂, b = a

theorem Contiguous.of_append (h : Contiguous (l ++ l')) : Contiguous l := by
  rintro l₁ l₂ l₃ a rfl
  exact h l₁ l₂ (l₃ ++ l') a (by simp)

/-- The equal elements of a sorted list stand together. -/
theorem Contiguous.of_pairwise {r : α → α → Prop} (hanti : ∀ a b, r a b → r b a → a = b)
    (h : l.Pairwise r) : Contiguous l := by
  rintro l₁ l₂ l₃ a rfl b hb
  obtain ⟨-, htail, -⟩ := List.pairwise_append.mp h
  obtain ⟨hfirst, hrest⟩ := List.pairwise_cons.mp htail
  obtain ⟨-, -, hsecond⟩ := List.pairwise_append.mp hrest
  exact hanti b a (hsecond b hb a List.mem_cons_self) (hfirst b (List.mem_append_left _ hb))

/-- An element that is added again is the last one. -/
theorem Contiguous.getLast?_of_mem (h : Contiguous (l ++ [a])) (ha : a ∈ l) :
    l.getLast? = some a := by
  obtain ⟨l₁, l₂, rfl⟩ := List.append_of_mem ha
  have heq := h l₁ l₂ [] a (by simp)
  rcases List.eq_nil_or_concat' l₂ with rfl | ⟨l₃, b, rfl⟩
  · simp
  · obtain rfl : b = a := heq b (by simp)
    rw [← List.cons_append, ← List.append_assoc, List.getLast?_concat]

variable [BEq α] [LawfulBEq α]

theorem eraseDups_concat (l : List α) (a : α) :
    (l ++ [a]).eraseDups = if a ∈ l then l.eraseDups else l.eraseDups ++ [a] := by
  rw [List.eraseDups_append]
  by_cases ha : a ∈ l <;> simp [ha, List.removeAll, List.eraseDups_cons]

theorem nodup_eraseDups (l : List α) : l.eraseDups.Nodup := by
  induction l using List.reverseRecOn with
  | nil => exact List.nodup_nil
  | append_singleton l a ih =>
    rw [eraseDups_concat]
    split_ifs with ha
    · exact ih
    · rw [← List.concat_eq_append]
      exact List.Nodup.concat (fun h => ha (List.mem_eraseDups.mp h)) ih

end

end DbMcpGateway
