import Mathlib.Data.List.Nodup
import Mathlib.Tactic.Common

/-!
# Sequences of checks

A validator is a sequence of checks in `Except`: the first failure is returned.
The lemmas here turn "the validator succeeded" into "every check succeeded", for
sequencing, for loops, and for the loop that also refuses a repeated name.
-/

namespace DbMcpGateway.Checks

variable {ε α β : Type}

/-- Fail with `e` when `c` holds. -/
def rejectIf (c : Bool) (e : ε) : Except ε Unit := if c then .error e else .ok ()

theorem rejectIf_eq_ok {c : Bool} {e : ε} : rejectIf c e = .ok () ↔ c = false := by
  cases c <;> simp [rejectIf]

theorem bind_eq_ok {x} {f : α → Except ε β} {b : β} :
    (x >>= f) = .ok b ↔ ∃ a, x = .ok a ∧ f a = .ok b := by
  cases x with
  | error e | ok a => simp [bind, Except.bind]

theorem seq_eq_ok {x} {y : Except ε β} {b : β} :
    (x >>= fun _ => y) = .ok b ↔ x = .ok () ∧ y = .ok b := by
  rw [bind_eq_ok]
  constructor
  · rintro ⟨⟨⟩, hx, hy⟩; exact ⟨hx, hy⟩
  · rintro ⟨hx, hy⟩; exact ⟨(), hx, hy⟩

/-- Check every item in order. -/
def forAll (check : α → Except ε Unit) : List α → Except ε Unit
  | [] => .ok ()
  | a :: as => do check a; forAll check as

/-- Check every item in order, refusing an item whose name was seen before. The
    check `pre` runs before the name is recorded, `body` after it. Returns the
    names seen. -/
def forUnique (name : α → String) (pre : α → Except ε Unit) (duplicate : α → ε)
    (body : α → Except ε Unit) : List String → List α → Except ε (List String)
  | seen, [] => .ok seen
  | seen, a :: as => do
    pre a
    rejectIf (seen.contains (name a)) (duplicate a)
    body a
    forUnique name pre duplicate body (name a :: seen) as

/-- What a successful pass establishes: every check passed, the names are
    distinct and new, and the names returned are exactly those seen. -/
theorem forUnique_eq_ok {name : α → String} {pre : α → Except ε Unit} {duplicate : α → ε}
    {body : α → Except ε Unit} {seen names : List String} {as : List α}
    (h : forUnique name pre duplicate body seen as = .ok names) :
    (∀ a ∈ as, pre a = .ok () ∧ body a = .ok ()) ∧ (as.map name).Nodup ∧
      (∀ a ∈ as, name a ∉ seen) ∧ ∀ n, n ∈ names ↔ n ∈ seen ∨ n ∈ as.map name := by
  induction as generalizing seen with
  | nil =>
    cases h
    simp
  | cons a as ih =>
    rw [forUnique, seq_eq_ok, seq_eq_ok, seq_eq_ok, rejectIf_eq_ok] at h
    obtain ⟨hpre, hnew, hbody, hrest⟩ := h
    obtain ⟨hchecks, hnodup, hfresh, hnames⟩ := ih hrest
    refine ⟨?_, ?_, ?_, ?_⟩
    · exact List.forall_mem_cons.mpr ⟨⟨hpre, hbody⟩, hchecks⟩
    · rw [List.map_cons, List.nodup_cons]
      refine ⟨fun hmem => ?_, hnodup⟩
      obtain ⟨b, hb, hba⟩ := List.mem_map.mp hmem
      exact hfresh b hb (hba ▸ List.mem_cons_self)
    · refine List.forall_mem_cons.mpr ⟨by simpa using hnew, fun b hb => ?_⟩
      exact fun hmem => hfresh b hb (List.mem_cons_of_mem _ hmem)
    · intro n
      rw [hnames, List.map_cons, List.mem_cons, List.mem_cons]
      tauto

end DbMcpGateway.Checks
