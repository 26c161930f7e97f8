import Mathlib.Data.Nat.Find
import Mathlib.Tactic.Common

/-!
# Machines with a partial step function

A machine is a function `step : S → A → Option S`: in a state, an action is refused or
leads to a state. `run` replays a list of actions; `Execution` is an infinite run, in
which nothing may happen for a while. Actions belong to agents; an execution is fair if
an agent that can move again and again moves again and again.

Results:

* `run_invariant`: what every step that meets a condition preserves, a run preserves.
* `forall_initial_iff_meets`: if only such steps preserve it, only such runs do.
* `Fair.progress_of_recurrent`, `Fair.progress`: an agent that is ready moves, once what
  it waits for recurs.
* `Execution.ofRun_fair`: a run that ends where no agent can move is fair.
-/

namespace DbMcpGateway.Machine

variable {S A G : Type} {step : S → A → Option S}

/-! ## Runs -/

/-- The state after some actions, if none is refused. -/
def run (step : S → A → Option S) : S → List A → Option S
  | s, [] => some s
  | s, a :: as => (step s a).bind fun s' => run step s' as

/-- Every step of a run meets the condition. -/
def Meets (step : S → A → Option S) (C : S → A → Prop) : S → List A → Prop
  | _, [] => True
  | s, a :: as => C s a ∧ ∀ s', step s a = some s' → Meets step C s' as

variable {s s' : S} {a : A} {as : List A} {P : S → Prop} {C : S → A → Prop} {as₁ as₂ : List A}
  {n : ℕ} {g : G}

theorem run_cons (h : run step s (a :: as) = some s') :
    ∃ s₁, step s a = some s₁ ∧ run step s₁ as = some s' := Option.bind_eq_some_iff.mp h

theorem run_invariant (hstep : ∀ s a s', P s → C s a → step s a = some s' → P s')
    (hmeets : Meets step C s as) (h : run step s as = some s') (hs : P s) : P s' := by
  induction as generalizing s with
  | nil =>
    cases h
    exact hs
  | cons a as ih =>
    obtain ⟨s₁, ha, hrun⟩ := run_cons h
    exact ih (hmeets.2 s₁ ha) hrun (hstep s a s₁ hs hmeets.1 ha)

theorem meets_of_forall (h : ∀ s a, C s a) (s : S) (as : List A) :
    Meets step C s as := by
  induction as generalizing s with
  | nil => trivial
  | cons a as ih => exact ⟨h s a, fun s' _ => ih s'⟩

/-- A condition on the actions of a run. -/
theorem meets_of_mem {C : A → Prop} (s : S) (h : ∀ a ∈ as, C a) :
    Meets step (fun _ a => C a) s as := by
  induction as generalizing s with
  | nil => trivial
  | cons a as ih =>
    rw [List.forall_mem_cons] at h
    exact ⟨h.1, fun s' _ => ih s' h.2⟩

theorem meets_true (s : S) (as : List A) : Meets step (fun _ _ => True) s as :=
  meets_of_forall (fun _ _ => trivial) s as

theorem Meets.middle {s₁ : S} (h : Meets step C s (as₁ ++ a :: as₂))
    (hrun : run step s as₁ = some s₁) : C s₁ a := by
  induction as₁ generalizing s with
  | nil =>
    cases hrun
    exact h.1
  | cons a₁ as₁ ih =>
    obtain ⟨s₂, hstep, hrun⟩ := run_cons hrun
    exact ih (h.2 s₂ hstep) hrun

theorem Meets.of_append (h : Meets step C s (as₁ ++ as₂)) : Meets step C s as₁ := by
  induction as₁ generalizing s with
  | nil => trivial
  | cons a as₁ ih => exact ⟨h.1, fun s' hstep => ih (h.2 s' hstep)⟩

theorem Meets.append {s₁ : S} (h : Meets step C s (as₁ ++ as₂)) (hrun : run step s as₁ = some s₁) :
    Meets step C s₁ as₂ := by
  induction as₁ generalizing s with
  | nil =>
    cases hrun
    exact h
  | cons a as₁ ih =>
    obtain ⟨s₂, hstep, hrun⟩ := run_cons hrun
    exact ih (h.2 s₂ hstep) hrun

/-- A property that a step keeps exactly if it meets the condition holds along a run exactly if
    all its steps meet the condition. -/
theorem forall_initial_iff_meets
    (hstep : ∀ s a s', P s → step s a = some s' → (P s' ↔ C s a))
    (h : run step s as = some s') (hs : P s) :
    (∀ as₁ as₂ s₁, as = as₁ ++ as₂ → run step s as₁ = some s₁ → P s₁) ↔ Meets step C s as := by
  constructor
  · intro hall
    induction as generalizing s with
    | nil => trivial
    | cons a as ih =>
      obtain ⟨s₁, ha, hrun⟩ := run_cons h
      have hs₁ : P s₁ := hall [a] as s₁ rfl (by rw [run, ha]; rfl)
      refine ⟨(hstep s a s₁ hs ha).mp hs₁, fun s₂ ha' => ?_⟩
      cases ha.symm.trans ha'
      refine ih hrun hs₁ fun as₁ as₂ s₃ heq hrun₁ => ?_
      exact hall (a :: as₁) as₂ s₃ (by rw [heq]; rfl) (by rw [run, ha]; exact hrun₁)
  · rintro hmeets as₁ as₂ s₁ rfl hrun
    exact run_invariant (fun s a s' hs hc ha => (hstep s a s' hs ha).mpr hc) hmeets.of_append hrun hs

def checks (step : S → A → Option S) (c : S → A → Bool) : S → List A → Bool
  | _, [] => true
  | s, a :: as => c s a &&
    match step s a with
    | none => true
    | some s' => checks step c s' as

theorem meets_of_checks {c : S → A → Bool} (h : checks step c s as = true) :
    Meets step (fun s a => c s a = true) s as := by
  induction as generalizing s with
  | nil => trivial
  | cons a as ih =>
    rw [checks, Bool.and_eq_true] at h
    refine ⟨h.1, fun s' hstep => ih ?_⟩
    rw [hstep] at h
    exact h.2

theorem run_append {bs : List A} :
    run step s (as ++ bs) = (run step s as).bind fun s' => run step s' bs := by
  induction as generalizing s with
  | nil => rfl
  | cons a as ih =>
    change (step s a).bind (fun s' => run step s' (as ++ bs)) =
      ((step s a).bind fun s' => run step s' as).bind fun s' => run step s' bs
    rw [Option.bind_assoc]
    congr 1
    funext s'
    exact ih

theorem run_concat {s'' : S} (h : run step s as = some s') (ha : step s' a = some s'') :
    run step s (as ++ [a]) = some s'' := by
  rw [run_append, h, Option.bind_some, run, ha]
  rfl

/-! ## Fair executions -/

/-- An infinite run; `none` is an instant at which nothing happens. -/
structure Execution (step : S → A → Option S) (init : S) where
  state : ℕ → S
  act : ℕ → Option A
  start : state 0 = init
  next : ∀ n, match act n with
    | none => state (n + 1) = state n
    | some a => step (state n) a = some (state (n + 1))

variable {init : S} (e : Execution step init) (agent : A → Option G)

/-- The agent moves at an instant. -/
def Execution.ActsAt (g : G) (n : ℕ) : Prop := ∃ a, e.act n = some a ∧ agent a = some g

/-- The agent can move. -/
def Enabled (step : S → A → Option S) (g : G) (s : S) : Prop :=
  ∃ a s', agent a = some g ∧ step s a = some s'

/-- Strong fairness. -/
def Execution.Fair : Prop :=
  ∀ g, (∀ n, ∃ m, n ≤ m ∧ Enabled agent step g (e.state m)) → ∀ n, ∃ m, n ≤ m ∧ e.ActsAt agent g m

variable {e agent}

theorem Execution.next_none (h : e.act n = none) : e.state (n + 1) = e.state n := by
  have hnext := e.next n
  rw [h] at hnext
  exact hnext

theorem Execution.next_some (h : e.act n = some a) :
    step (e.state n) a = some (e.state (n + 1)) := by
  have hnext := e.next n
  rw [h] at hnext
  exact hnext

/-- What every step that meets the condition preserves holds at all times. -/
theorem Execution.invariant (hstep : ∀ s a s', P s → C s a → step s a = some s' → P s')
    (hmeets : ∀ n a, e.act n = some a → C (e.state n) a) (hs : P init) (n : ℕ) :
    P (e.state n) := by
  induction n with
  | zero =>
    rw [e.start]
    exact hs
  | succ n ih =>
    cases hact : e.act n with
    | none =>
      rw [e.next_none hact]
      exact ih
    | some a => exact hstep _ a _ ih (hmeets n a hact) (e.next_some hact)

/-- An agent that can move again and again as long as it does not, moves. The instant is
    its first move. -/
theorem Execution.Fair.acts (hfair : e.Fair agent)
    (h : ∀ m, n ≤ m → (∀ j, n ≤ j → j < m → ¬ e.ActsAt agent g j) →
      ∃ m', m ≤ m' ∧ Enabled agent step g (e.state m')) :
    ∃ m, n ≤ m ∧ e.ActsAt agent g m ∧ ∀ j, n ≤ j → j < m → ¬ e.ActsAt agent g j := by
  classical
  have hacts : ∃ m, n ≤ m ∧ e.ActsAt agent g m := by
    by_contra hnone
    have hnever : ∀ j, n ≤ j → ¬ e.ActsAt agent g j := fun j hj hacts => hnone ⟨j, hj, hacts⟩
    refine hnone (hfair g (fun k => ?_) n)
    obtain ⟨m', hle, henabled⟩ :=
      h (max n k) (le_max_left n k) fun j hj _ => hnever j hj
    exact ⟨m', le_trans (le_max_right n k) hle, henabled⟩
  refine ⟨Nat.find hacts, (Nat.find_spec hacts).1, (Nat.find_spec hacts).2, ?_⟩
  intro j hj hlt hact
  exact Nat.find_min hacts hlt ⟨hj, hact⟩

theorem Execution.lasts {m : ℕ} (hnm : n ≤ m) (hP : P (e.state n))
    (hstay : ∀ j a, e.act j = some a → agent a ≠ some g → P (e.state j) → P (e.state (j + 1)))
    (hnever : ∀ j, n ≤ j → j < m → ¬ e.ActsAt agent g j) : P (e.state m) := by
  induction m, hnm using Nat.le_induction with
  | base => exact hP
  | succ m hle ih =>
    have hm := ih fun j hj hlt => hnever j hj (by omega)
    cases hact : e.act m with
    | none =>
      rw [e.next_none hact]
      exact hm
    | some a =>
      refine hstay m a hact ?_ hm
      intro ha
      exact hnever m hle (by omega) ⟨a, hact, ha⟩

/-- An agent that moves was able to. -/
theorem Execution.ActsAt.enabled (h : e.ActsAt agent g n) :
    Enabled agent step g (e.state n) := by
  obtain ⟨a, hact, ha⟩ := h
  exact ⟨a, e.state (n + 1), ha, e.next_some hact⟩

/-- An agent moves if it is ready until it does, and what it waits for recurs. -/
theorem Execution.Fair.progress_of_recurrent (hfair : e.Fair agent) {Q : S → Prop}
    (hP : P (e.state n)) (hrecurs : ∀ m, ∃ m', m ≤ m' ∧ Q (e.state m'))
    (henabled : ∀ m, P (e.state m) → Q (e.state m) → Enabled agent step g (e.state m))
    (hstay : ∀ j a, e.act j = some a → agent a ≠ some g → P (e.state j) → P (e.state (j + 1))) :
    ∃ m, n ≤ m ∧ P (e.state m) ∧ e.ActsAt agent g m := by
  obtain ⟨m, hle, hacts, hnever⟩ := hfair.acts (g := g) (n := n) fun m hle hnever => by
    obtain ⟨m', hle', hQ⟩ := hrecurs m
    by_cases hacted : ∃ j, m ≤ j ∧ j < m' ∧ e.ActsAt agent g j
    · obtain ⟨j, hj, -, hacts⟩ := hacted
      exact ⟨j, hj, hacts.enabled⟩
    · refine ⟨m', hle', henabled m' (Execution.lasts (le_trans hle hle') hP hstay ?_) hQ⟩
      intro j hj hlt hacts
      by_cases hjm : j < m
      · exact hnever j hj hjm hacts
      · exact hacted ⟨j, by omega, hlt, hacts⟩
  exact ⟨m, hle, Execution.lasts hle hP hstay hnever, hacts⟩

/-- An agent moves if it can, and can until it does. -/
theorem Execution.Fair.progress (hfair : e.Fair agent) (hP : P (e.state n))
    (henabled : ∀ m, P (e.state m) → Enabled agent step g (e.state m))
    (hstay : ∀ j a, e.act j = some a → agent a ≠ some g → P (e.state j) → P (e.state (j + 1))) :
    ∃ m, n ≤ m ∧ P (e.state m) ∧ e.ActsAt agent g m :=
  hfair.progress_of_recurrent (Q := fun _ => True) hP (fun m => ⟨m, le_rfl, trivial⟩)
    (fun m hPm _ => henabled m hPm) hstay

/-! ## Runs that end -/

theorem run_take (h : run step init as = some s) (n : ℕ) :
    ∃ s', run step init (as.take n) = some s' := by
  rw [← List.take_append_drop n as, run_append] at h
  obtain ⟨s', hs', -⟩ := Option.bind_eq_some_iff.mp h
  exact ⟨s', hs'⟩

/-- A run as an execution in which nothing happens after its end. -/
def Execution.ofRun {as : List A} {s : S} (h : run step init as = some s) :
    Execution step init where
  state n := (run step init (as.take n)).getD init
  act n := as[n]?
  start := rfl
  next n := by
    obtain ⟨s', hs'⟩ := run_take h n
    obtain ⟨s'', hs''⟩ := run_take h (n + 1)
    have htake : as.take (n + 1) = as.take n ++ as[n]?.toList := List.take_add_one
    cases hact : as[n]? with
    | none =>
      rw [htake, hact, Option.toList_none, List.append_nil]
    | some a =>
      rw [hs', hs'']
      rw [htake, hact, run_append, hs'] at hs''
      obtain ⟨s₁, hs₁, hnil⟩ := run_cons hs''
      cases hnil
      exact hs₁

theorem Execution.ofRun_state (h : run step init as = some s) (n : ℕ) :
    (ofRun h).state n = (run step init (as.take n)).getD init := rfl

theorem Execution.ofRun_state_of_le (h : run step init as = some s) (hn : as.length ≤ n) :
    (ofRun h).state n = s := by
  rw [ofRun_state, List.take_of_length_le hn, h]
  rfl

theorem Execution.ofRun_fair (h : run step init as = some s)
    (hidle : ∀ g, ¬ Enabled agent step g s) : (ofRun h).Fair agent := by
  intro g hrecurs
  obtain ⟨m, hm, henabled⟩ := hrecurs as.length
  rw [ofRun_state_of_le h hm] at henabled
  exact absurd henabled (hidle g)

end DbMcpGateway.Machine
