import Mathlib.Order.Lattice.Nat
import Mathlib.Order.WithBot
import Mathlib.Order.Bounds.Basic
import DbMcpGateway.Config.Schema
import DbMcpGateway.Order.FoldInf

/-!
# Merging constraints

`merge` and `min_option` (authz/mod.rs) and the order they belong to. With
`a ≤ b` for "`a` is at least as restrictive as `b`", constraints embed into
`Boolᵒᵈ × WithTop ℕ × WithTop ℕ`: requiring a reason is below not requiring one
and an absent limit is the top. `merge` is the meet of that order and
`Constraints::default` its top, so the loop that merges a list of constraints
computes their greatest lower bound.

Results:

* `merge_toMeet`: `merge` is the meet of the product order.
* `mergeAll_mostRestrictive`: folding `merge` gives, field by field, the
  disjunction of the reasons and the least of the limits present.
-/

namespace DbMcpGateway.Authz

open Config

/-- `min_option` (authz/mod.rs:105). -/
def minOption {T : Type} [LinearOrder T] : Option T → Option T → Option T
  | some x, some y => some (min x y)
  | some x, none => some x
  | none, some x => some x
  | none, none => none

/-- `merge` (authz/mod.rs:97). -/
def merge (a b : Constraints) : Constraints where
  requireReason := a.requireReason || b.requireReason
  rowLimit := minOption a.rowLimit b.rowLimit
  statementTimeoutMs := minOption a.statementTimeoutMs b.statementTimeoutMs

/-! ## The order of restrictiveness -/

/-- `a` is at least as restrictive as `b` in each of the three fields. -/
structure Restricts (a b : Constraints) : Prop where
  reason : b.requireReason = true → a.requireReason = true
  rowLimit : ∀ n, b.rowLimit = some n → ∃ m, a.rowLimit = some m ∧ m ≤ n
  timeout : ∀ n, b.statementTimeoutMs = some n → ∃ m, a.statementTimeoutMs = some m ∧ m ≤ n

/-- An optional limit, with the absent one as the top. -/
def limit {T : Type} : Option T → WithTop T
  | none => ⊤
  | some n => n

theorem limit_injective {T : Type} : Function.Injective (limit : Option T → WithTop T) := by
  intro a b h
  cases a <;> cases b <;> simp_all [limit]

theorem limit_minOption {T : Type} [LinearOrder T] (a b : Option T) :
    limit (minOption a b) = limit a ⊓ limit b := by
  cases a <;> cases b <;> simp [limit, minOption]

theorem limit_le_iff {a b : Option ℕ} :
    limit a ≤ limit b ↔ ∀ n, b = some n → ∃ m, a = some m ∧ m ≤ n := by
  cases a <;> cases b <;> simp [limit]

/-- Constraints as a point of a product of lattices. -/
def toMeet (c : Constraints) : Boolᵒᵈ × WithTop ℕ × WithTop ℕ :=
  (OrderDual.toDual c.requireReason, limit c.rowLimit, limit c.statementTimeoutMs)

theorem toMeet_injective : Function.Injective toMeet := by
  intro a b h
  simp only [toMeet, Prod.mk.injEq] at h
  exact Constraints.ext (OrderDual.toDual.injective h.1) (limit_injective h.2.1)
    (limit_injective h.2.2)

theorem restricts_iff_toMeet_le {a b : Constraints} : Restricts a b ↔ toMeet a ≤ toMeet b := by
  have hreason : OrderDual.toDual a.requireReason ≤ OrderDual.toDual b.requireReason ↔
      (b.requireReason = true → a.requireReason = true) := Iff.rfl
  simp only [toMeet, Prod.mk_le_mk, limit_le_iff, hreason]
  exact ⟨fun h => ⟨h.reason, h.rowLimit, h.timeout⟩, fun h => ⟨h.1, h.2.1, h.2.2⟩⟩

/-- **`merge` is the meet** of the order of restrictiveness. -/
theorem merge_toMeet (a b : Constraints) : toMeet (merge a b) = toMeet a ⊓ toMeet b := by
  simp only [toMeet, merge, limit_minOption]
  rfl

instance : PartialOrder Constraints where
  le := Restricts
  le_refl a := restricts_iff_toMeet_le.mpr le_rfl
  le_trans a b c hab hbc := restricts_iff_toMeet_le.mpr
    ((restricts_iff_toMeet_le.mp hab).trans (restricts_iff_toMeet_le.mp hbc))
  le_antisymm a b hab hba := toMeet_injective
    (le_antisymm (restricts_iff_toMeet_le.mp hab) (restricts_iff_toMeet_le.mp hba))

theorem le_iff_toMeet_le {a b} : a ≤ b ↔ toMeet a ≤ toMeet b :=
  restricts_iff_toMeet_le

instance : SemilatticeInf Constraints where
  inf := merge
  inf_le_left a b := by rw [le_iff_toMeet_le, merge_toMeet]; exact inf_le_left
  inf_le_right a b := by rw [le_iff_toMeet_le, merge_toMeet]; exact inf_le_right
  le_inf a b c hb hc := by
    rw [le_iff_toMeet_le] at *
    rw [merge_toMeet]
    exact le_inf hb hc

/-! ## Merging a list -/

/-- The accumulator of the merging loop: `merge` folded from the default. -/
def mergeAll (cs : List Constraints) : Constraints := cs.foldl merge {}

theorem mergeAll_le {c cs} (h : c ∈ cs) : mergeAll cs ≤ c :=
  Order.foldl_inf_le h

theorem mergeAll_anti {cs cs'} (h : ∀ c ∈ cs, c ∈ cs') : mergeAll cs' ≤ mergeAll cs :=
  Order.foldl_inf_anti h

theorem mergeAll_congr {cs cs'} (h : ∀ c, c ∈ cs ↔ c ∈ cs') : mergeAll cs = mergeAll cs' :=
  Order.foldl_inf_congr h

def IsLeastPresent (S : Set ℕ) : Option ℕ → Prop
  | none => S = ∅
  | some n => IsLeast S n

/-- `c` is the pointwise most restrictive of the constraints in `S`. -/
structure MostRestrictive (S : Set Constraints) (c : Constraints) : Prop where
  reason : c.requireReason = true ↔ ∃ x ∈ S, x.requireReason = true
  rowLimit : IsLeastPresent {n | ∃ x ∈ S, x.rowLimit = some n} c.rowLimit
  timeout : IsLeastPresent {n | ∃ x ∈ S, x.statementTimeoutMs = some n} c.statementTimeoutMs

theorem foldl_merge_reason (cs : List Constraints) (init : Constraints) :
    (cs.foldl merge init).requireReason = true ↔
      init.requireReason = true ∨ ∃ c ∈ cs, c.requireReason = true := by
  induction cs generalizing init with
  | nil => simp
  | cons c cs ih => simp [ih, merge, or_assoc]

theorem mergeAll_limit (f : Constraints → Option ℕ)
    (hf : ∀ a b, f (merge a b) = minOption (f a) (f b)) (h0 : f {} = none)
    (cs : List Constraints) :
    IsLeastPresent {n | ∃ x ∈ cs, f x = some n} (f (mergeAll cs)) := by
  -- in the linear order `WithTop ℕ` the fold is a lower bound that is attained
  have hfold : limit (f (mergeAll cs)) = (cs.map fun c => limit (f c)).foldl (· ⊓ ·) ⊤ := by
    rw [List.foldl_map, mergeAll, show (⊤ : WithTop ℕ) = limit (f {}) by rw [h0]; rfl]
    exact (List.foldl_hom (fun c => limit (f c)) fun a c => by rw [hf, limit_minOption]).symm
  have hle : ∀ x ∈ cs, limit (f (mergeAll cs)) ≤ limit (f x) := by
    intro x hx
    rw [hfold]
    exact Order.foldl_inf_le (List.mem_map.mpr ⟨x, hx, rfl⟩)
  have hmem := Order.foldl_inf_eq_or_mem (⊤ : WithTop ℕ) (cs.map fun c => limit (f c))
  rw [← hfold] at hmem
  cases hm : f (mergeAll cs) with
  | none =>
    refine Set.eq_empty_of_forall_notMem fun n ⟨x, hx, hn⟩ => ?_
    obtain ⟨m, h, -⟩ := limit_le_iff.mp (hle x hx) n hn
    rw [hm] at h
    cases h
  | some n =>
    rw [hm] at hmem
    obtain ⟨x, hx, hxn⟩ := List.mem_map.mp (hmem.resolve_left WithTop.coe_ne_top)
    refine ⟨⟨x, hx, limit_injective hxn⟩, fun k ⟨y, hy, hk⟩ => ?_⟩
    obtain ⟨m, h, hmk⟩ := limit_le_iff.mp (hle y hy) k hk
    rw [hm] at h
    cases h
    exact hmk

/-- **The merged constraints are the pointwise most restrictive** of the list. -/
theorem mergeAll_mostRestrictive (cs : List Constraints) :
    MostRestrictive {c | c ∈ cs} (mergeAll cs) where
  reason := by simp [mergeAll, foldl_merge_reason]
  rowLimit := mergeAll_limit (·.rowLimit) (fun _ _ => rfl) rfl cs
  timeout := mergeAll_limit (·.statementTimeoutMs) (fun _ _ => rfl) rfl cs

end DbMcpGateway.Authz
