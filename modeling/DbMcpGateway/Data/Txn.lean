import Mathlib.Data.List.Basic

/-!
# Transactions over a committed state

A transaction collects writes and applies them at its commit. Until then the writes
hold locks, and a write of another transaction is applied only if its locks are
disjoint from them. `Fits s w` says that `w` is still based on the committed state
`s`: what the transaction saw when it made the write is what is there. The one law
is `frame`: a write stays fitting while writes with other locks are applied.

Results:

* `FitsAll.frame`: the commit of a transaction leaves the writes of another one
  fitting.
* `FitsAll.induction`: what every fitting write preserves, a commit preserves.
-/

namespace DbMcpGateway.Txn

/-- Writes to a state, the locks they hold, and when they still fit it. -/
structure Model (S W K : Type) where
  apply : S → W → S
  locks : W → List K
  Fits : S → W → Prop
  frame : ∀ {s : S} {w w' : W}, Fits s w → Fits s w' → (locks w).Disjoint (locks w') →
    Fits (apply s w') w

variable {S W K : Type} (M : Model S W K)

/-- The state after some writes. -/
def Model.applyAll (s : S) (ws : List W) : S := ws.foldl M.apply s

/-- No lock of one of the writes is a lock of one of the others. -/
def Model.Apart (ws ws' : List W) : Prop :=
  ∀ w ∈ ws, ∀ w' ∈ ws', (M.locks w).Disjoint (M.locks w')

/-- All writes fit the state, and they hold different locks. -/
structure Model.FitsAll (s : S) (ws : List W) : Prop where
  fits : ∀ w ∈ ws, M.Fits s w
  apart : ws.Pairwise fun w w' => (M.locks w).Disjoint (M.locks w')

variable {M}

namespace Model

@[simp] theorem applyAll_nil (s : S) : M.applyAll s [] = s := rfl

@[simp] theorem applyAll_cons (s : S) (w : W) (ws : List W) :
    M.applyAll s (w :: ws) = M.applyAll (M.apply s w) ws := rfl

variable {ws ws' : List W} {s : S} {w : W}

theorem Apart.symm (h : M.Apart ws ws') : M.Apart ws' ws :=
  fun w hw w' hw' _ hk hk' => h w' hw' w hw hk' hk

theorem Apart.append_left {ws'' : List W} (h : M.Apart ws ws'') (h' : M.Apart ws' ws'') :
    M.Apart (ws ++ ws') ws'' := by
  intro w hw
  rcases List.mem_append.mp hw with hw | hw
  · exact h w hw
  · exact h' w hw

theorem FitsAll.nil (s : S) : M.FitsAll s [] := ⟨by simp, .nil⟩

theorem FitsAll.tail (h : M.FitsAll s (w :: ws)) :
    M.FitsAll (M.apply s w) ws := by
  obtain ⟨hfits, hapart⟩ := h
  rw [List.pairwise_cons] at hapart
  rw [List.forall_mem_cons] at hfits
  refine ⟨fun w' hw' => ?_, hapart.2⟩
  exact M.frame (hfits.2 w' hw') hfits.1 fun _ hk hk' => hapart.1 w' hw' hk' hk

/-- What every fitting write preserves, the writes of a transaction preserve. -/
theorem FitsAll.induction {P : S → Prop} (step : ∀ s w, P s → M.Fits s w → P (M.apply s w))
    (h : M.FitsAll s ws) (hs : P s) : P (M.applyAll s ws) := by
  induction ws generalizing s with
  | nil => exact hs
  | cons w ws ih => exact ih h.tail (step s w hs (h.fits w List.mem_cons_self))

/-- A single write stays fitting through the commit of others. -/
theorem FitsAll.frame_one (h : M.FitsAll s ws) (hw : M.Fits s w)
    (hapart : ∀ w' ∈ ws, (M.locks w).Disjoint (M.locks w')) : M.Fits (M.applyAll s ws) w := by
  induction ws generalizing s with
  | nil => exact hw
  | cons w' ws ih =>
    rw [List.forall_mem_cons] at hapart
    exact ih h.tail (M.frame hw (h.fits w' List.mem_cons_self) hapart.1) hapart.2

/-- The writes of a transaction stay fitting through the commit of another one. -/
theorem FitsAll.frame (h : M.FitsAll s ws) (h' : M.FitsAll s ws') (hapart : M.Apart ws ws') :
    M.FitsAll (M.applyAll s ws') ws :=
  ⟨fun w hw => h'.frame_one (h.fits w hw) (hapart w hw), h.apart⟩

/-- A transaction goes on with a write that holds other locks than its own so far. -/
theorem FitsAll.concat (h : M.FitsAll s ws) (hw : M.Fits s w)
    (hapart : ∀ w' ∈ ws, (M.locks w').Disjoint (M.locks w)) : M.FitsAll s (ws ++ [w]) := by
  refine ⟨?_, ?_⟩
  · intro w' hw'
    rcases List.mem_append.mp hw' with hw' | hw'
    · exact h.fits w' hw'
    · rw [List.mem_singleton.mp hw']
      exact hw
  · rw [List.pairwise_append]
    refine ⟨h.apart, List.pairwise_singleton _ _, ?_⟩
    intro w' hw' w'' hw''
    rw [List.mem_singleton.mp hw'']
    exact hapart w' hw'

end Model

end DbMcpGateway.Txn
