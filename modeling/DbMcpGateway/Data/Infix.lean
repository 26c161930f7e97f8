import Mathlib.Data.List.Infix
import Mathlib.Order.Nat

/-!
# The first occurrence of a text

`List.dropInfix?` finds the first occurrence of a list in another. Here are the two facts with
which a reader of messages of a fixed shape is proved correct: an occurrence cannot reach over an
element it does not have, and what stands after an occurrence does not move the first one. The facts
about one element are those about two cuts of a list.
-/

namespace DbMcpGateway.Infix

/-! ## Two cuts of a list -/

section

variable {α : Type*} {v w x y z : List α} {d e : α}

/-- A cut before the first `e` is not behind another cut before an `e`. -/
theorem append_cons_eq_append_cons (h : w ++ d :: x = v ++ e :: y) (he : e ∉ w) :
    (v = w ∧ d = e ∧ x = y) ∨ ∃ r, v = w ++ d :: r ∧ x = r ++ e :: y := by
  rcases List.append_eq_append_iff.mp h with ⟨r, rfl, hr⟩ | ⟨r, rfl, hr⟩
  · cases r with
    | nil =>
      obtain ⟨rfl, rfl⟩ := List.cons.inj hr
      exact .inl ⟨List.append_nil w, rfl, rfl⟩
    | cons c r =>
      obtain ⟨rfl, rfl⟩ := List.cons.inj hr
      exact .inr ⟨r, rfl, rfl⟩
  · cases r with
    | nil =>
      obtain ⟨rfl, rfl⟩ := List.cons.inj hr
      exact .inl ⟨(List.append_nil v).symm, rfl, rfl⟩
    | cons c r =>
      obtain ⟨rfl, -⟩ := List.cons.inj hr
      exact absurd (by simp) he

/-- An element that the end of a list does not have is before it. -/
theorem eq_append_cons_of_append (h : v ++ z = w ++ d :: x) (hd : d ∉ z) :
    ∃ r, v = w ++ d :: r ∧ x = r ++ z := by
  rcases List.append_eq_append_iff.mp h with ⟨r, rfl, rfl⟩ | ⟨r, rfl, hr⟩
  · exact absurd (by simp) hd
  · cases r with
    | nil =>
      rw [List.nil_append] at hr
      exact absurd (hr ▸ List.mem_cons_self) hd
    | cons c r =>
      obtain ⟨rfl, rfl⟩ := List.cons.inj hr
      exact ⟨r, rfl, rfl⟩

theorem prefix_of_append_cons (h : w ++ x = v ++ e :: y) (he : e ∉ w) : w <+: v := by
  rcases List.append_eq_append_iff.mp h with ⟨r, rfl, -⟩ | ⟨r, rfl, hr⟩
  · exact List.prefix_append w r
  · cases r with
    | nil => rw [List.append_nil]
    | cons c r =>
      obtain ⟨rfl, -⟩ := List.cons.inj hr
      exact absurd (by simp) he

/-- An occurrence does not reach over an element that it does not have. -/
theorem infix_append_cons (hd : d ∉ z) (h : z <:+: v ++ d :: w) : z <:+: v ∨ z <:+: w := by
  obtain ⟨p, s, heq⟩ := h
  rcases List.append_eq_append_iff.mp heq with ⟨r, rfl, -⟩ | ⟨r, hr, hw⟩
  · exact .inl ⟨p, r, rfl⟩
  · cases r with
    | nil => exact .inl ⟨p, [], by simpa using hr⟩
    | cons c r =>
      obtain ⟨rfl, rfl⟩ := List.cons.inj hw
      obtain ⟨r', -, rfl⟩ := eq_append_cons_of_append hr hd
      exact .inr ⟨r', s, rfl⟩

end

/-! ## First occurrences -/

variable {α : Type*} [BEq α] [LawfulBEq α] {i xs ys p s : List α} {c : α}

theorem dropInfix?_eq_some : xs.dropInfix? i = some (p, s) ↔ xs = p ++ i ++ s ∧
    ∀ p' s', xs = p' ++ i ++ s' → p.length ≤ p'.length := by
  simp only [List.dropInfix?_eq_some_iff, beq_iff_eq]
  constructor
  · rintro ⟨⟨_, heq, rfl⟩, hfirst⟩
    exact ⟨heq, fun p' s' h => hfirst p' _ s' h rfl⟩
  · rintro ⟨heq, hfirst⟩
    exact ⟨⟨i, heq, rfl⟩, by rintro p' _ s' h rfl; exact hfirst p' s' h⟩

theorem dropInfix?_append (i ys : List α) : (i ++ ys).dropInfix? i = some ([], ys) :=
  dropInfix?_eq_some.mpr ⟨rfl, fun _ _ _ => Nat.zero_le _⟩

/-- The search passes over an element that an occurrence cannot start with. -/
theorem dropInfix?_cons_of_head (hi : i.head? ≠ some c) (hne : i ≠ [])
    (hys : ys.dropInfix? i = some (p, s)) : (c :: ys).dropInfix? i = some (c :: p, s) := by
  obtain ⟨rfl, hfirst⟩ := dropInfix?_eq_some.mp hys
  refine dropInfix?_eq_some.mpr ⟨by simp, ?_⟩
  intro p' s' heq
  cases p' with
  | nil =>
    obtain ⟨d, i, rfl⟩ := List.exists_cons_of_ne_nil hne
    obtain ⟨rfl, -⟩ := List.cons.inj heq
    exact absurd rfl hi
  | cons d p' =>
    obtain ⟨-, hrest⟩ := List.cons.inj heq
    exact Nat.succ_le_succ (hfirst p' s' hrest)

/-- If a text without `c` does not occur before a `c`, its first occurrence is the first one
    after it. -/
theorem dropInfix?_append_cons (hc : c ∉ i) (hxs : ¬ i <:+: xs)
    (hys : ys.dropInfix? i = some (p, s)) :
    (xs ++ c :: ys).dropInfix? i = some (xs ++ c :: p, s) := by
  obtain ⟨rfl, hfirst⟩ := dropInfix?_eq_some.mp hys
  refine dropInfix?_eq_some.mpr ⟨by simp, ?_⟩
  intro p' s' heq
  rw [List.append_assoc p', List.append_eq_append_iff] at heq
  rcases heq with ⟨b, rfl, heq⟩ | ⟨a, rfl, heq⟩
  · -- the occurrence starts after `xs`
    cases b with
    | nil =>
      cases i with
      | nil => exact absurd (List.nil_infix) hxs
      | cons d i =>
        obtain ⟨rfl, -⟩ := List.cons.inj heq
        exact absurd List.mem_cons_self hc
    | cons d b =>
      obtain ⟨rfl, hrest⟩ := List.cons.inj heq
      have hle := hfirst b s' (hrest.trans (List.append_assoc b i s').symm)
      simp only [List.length_append, List.length_cons]
      omega
  · -- it starts in `xs`, so it ends there or has `c`
    rcases List.append_eq_append_iff.mp heq with ⟨b, rfl, -⟩ | ⟨b, rfl, hrest⟩
    · exact absurd ⟨p', b, by simp⟩ hxs
    · cases b with
      | nil => exact absurd ⟨p', [], by simp⟩ hxs
      | cons d b =>
        obtain ⟨rfl, -⟩ := List.cons.inj hrest
        exact absurd (by simp) hc

/-- What follows a text does not move the first occurrence in it. -/
theorem dropInfix?_append_of_some (h : xs.dropInfix? i = some (p, s)) (ys : List α) :
    (xs ++ ys).dropInfix? i = some (p, s ++ ys) := by
  obtain ⟨rfl, hfirst⟩ := dropInfix?_eq_some.mp h
  refine dropInfix?_eq_some.mpr ⟨by simp, ?_⟩
  intro p' s' heq
  by_contra hlt
  -- an earlier occurrence ends before the first one does
  have hshort : (p' ++ i).length ≤ (p ++ i ++ s).length := by
    simp only [List.length_append]
    omega
  obtain ⟨r, hr⟩ := List.prefix_of_prefix_length_le (heq ▸ List.prefix_append (p' ++ i) s')
    (List.prefix_append (p ++ i ++ s) ys) hshort
  exact hlt (hfirst p' r hr.symm)

theorem exists_dropInfix? (h : i <:+: xs) : ∃ p s, xs.dropInfix? i = some (p, s) := by
  obtain ⟨p₀, s₀, rfl⟩ := h
  -- the shortest text before an occurrence
  have hsome : ∃ n p s, p.length = n ∧ p₀ ++ i ++ s₀ = p ++ i ++ s := ⟨_, p₀, s₀, rfl, rfl⟩
  classical
  obtain ⟨p, s, hlength, heq⟩ := Nat.find_spec hsome
  refine ⟨p, s, dropInfix?_eq_some.mpr ⟨heq, fun p' s' heq' => ?_⟩⟩
  exact hlength.trans_le (Nat.find_min' hsome ⟨p', s', rfl, heq'⟩)

theorem infix_of_dropInfix? (h : xs.dropInfix? i = some (p, s)) : i <:+: xs :=
  ⟨p, s, (dropInfix?_eq_some.mp h).1.symm⟩

end DbMcpGateway.Infix
