import DbMcpGateway.Async.Pool

/-!
# What does not come back

Something that a service is rid of: the shared state does not have it, no running call
holds it, and no request that is still under way brings it back. If calls get it only from
the shared state, and only calls that hold it put it there, it never comes back.

Results:

* `Extinct.step`: the step lemma.
* `Extinct.run`: the same for whole runs.
* `Extinct.log`: what is executed in a run from there on.
* `Extinct.executed`: what calls that come later do.
* `Extinct.exchange`: what calls see from then on.
-/

namespace DbMcpGateway.Async.Service

open Prog Machine

variable {Req : Type} {Resp : Req → Type} {S O T C α : Type} (M : Service Req Resp S O T C α)

/-- A request that call `c` waits for, or that was left behind by it. -/
structure Pending (s : Pool Req Resp S T C α) (l : Sent Req Resp) (c : C) : Prop where
  entry : ∃ e, s.entries[l.task]? = some e ∧ e.call = c ∧ l.before <+: e.trail
  issues : Issues (M.code c) l.before l.req
  new : l.key ∉ s.log.map fun d => d.toSent.key

variable {M}

theorem Sound.pending_running {s : Pool Req Resp S T C α} (h : M.Sound s) {i : ℕ} {c : C}
    {trail} {r : Req} {k : Resp r → Prog Req Resp α}
    (he : s.entries[i]? = some ⟨c, trail, .running (.await r k)⟩) :
    M.Pending s ⟨i, trail, r⟩ c where
  entry := ⟨_, he, rfl, List.prefix_rfl⟩
  issues := (h.traced i _ he).running.issues
  new := fun hmem => h.key_not_mem he (List.mem_append_left _ hmem)

theorem Sound.pending_late {s : Pool Req Resp S T C α} (h : M.Sound s) {l : Sent Req Resp}
    (hl : l ∈ s.late) : ∃ e, s.entries[l.task]? = some e ∧ M.Pending s l e.call := by
  obtain ⟨e, he, hinitial, hissues⟩ := h.late l hl
  refine ⟨e, he, ⟨e, he, rfl, hinitial⟩, hissues, fun hmem => ?_⟩
  exact List.disjoint_of_nodup_append h.once hmem (List.mem_map_of_mem hl)

variable (M) (init : S)

/-- A request is executed. -/
structure Serves (s s' : Pool Req Resp S T C α) (l : Sent Req Resp) (c : C) (o : O)
    (x : Resp l.req) : Prop where
  reached : M.Reachable init s
  reaches : M.Reachable init s'
  pending : M.Pending s l c
  serve : M.serve s.shared o l.req = some (x, s'.shared)
  log : s'.log = s.log ++ [⟨l, M.stamp s.shared, x⟩]

variable {M init} in
theorem Serves.not_mem {s s' : Pool Req Resp S T C α} {l : Sent Req Resp} {c : C} {o : O}
    {x} (h : M.Serves init s s' l c o x) : ⟨l, M.stamp s.shared, x⟩ ∉ s.log :=
  fun hmem => h.pending.new (List.mem_map_of_mem hmem)

section

variable (Rid : S → List (Deed Req Resp T) → Prop) (Puts : Req → Prop)
  (Holds : C → List (Exchange Req Resp) → Prop)

/-- The shared state is rid of it, no call holds it, and what is left behind by calls that
    held it does not bring it back. -/
structure Extinct (s : Pool Req Resp S T C α) : Prop where
  rid : Rid s.shared s.log
  idle : ∀ (i : ℕ) e p, s.entries[i]? = some e → e.task = .running p → ¬ Holds e.call e.trail
  late : ∀ l ∈ s.late, Puts l.req → ∀ e, s.entries[l.task]? = some e → ¬ Holds e.call l.before

/-- Calls get it from the shared state, and only calls that hold it put it there. -/
structure Confined : Prop where
  serve : ∀ {s s' l c o x}, M.Serves init s s' l c o x → Rid s.shared s.log →
    (Puts l.req → ¬ Holds c l.before) → Rid s'.shared s'.log
  get : ∀ {s s' l c o x}, M.Serves init s s' l c o x → Rid s.shared s.log → ¬ Holds c l.before →
    ¬ Holds c (l.before ++ [⟨l.req, x⟩])
  fail : ∀ {c es r x}, ¬ Holds c es → Issues (M.code c) es r → M.failure r = some x →
    ¬ Holds c (es ++ [⟨r, x⟩])
  nil : ∀ {c}, ¬ Holds c []
  accept : ∀ {s log c}, Rid s log → Rid (M.accept s c) log
  env : ∀ {s log o s'}, Rid s log → M.env s o = some s' → Rid s' log

end

variable {M init} {Rid : S → List (Deed Req Resp T) → Prop} {Puts : Req → Prop}
  {Holds : C → List (Exchange Req Resp) → Prop} {s s' : Pool Req Resp S T C α}

variable {e : Entry Req Resp C α} {as : List (Act C O)} {Q : Deed Req Resp T → Prop}

/-- The calls keep their positions. -/
theorem call_of_set {es : List (Entry Req Resp C α)} {i j : ℕ} {e' f : Entry Req Resp C α}
    (he : es[i]? = some e) (hf : (es.set i e')[j]? = some f) (hcall : e'.call = e.call) :
    ∃ f₀, es[j]? = some f₀ ∧ f₀.call = f.call := by
  rcases entry_set_cases he hf with ⟨rfl, rfl⟩ | ⟨-, hf⟩
  · exact ⟨e, he, hcall.symm⟩
  · exact ⟨f, hf, rfl⟩

/-- What is left behind does not depend on how far the calls are. -/
theorem Extinct.late_set (h : Extinct Rid Puts Holds s) {i : ℕ} {e' : Entry Req Resp C α}
    (he : s.entries[i]? = some e) {l : Sent Req Resp} (hl : l ∈ s.late) (hputs : Puts l.req)
    {f : Entry Req Resp C α} (hf : (s.entries.set i e')[l.task]? = some f)
    (hcall : e'.call = e.call) : ¬ Holds f.call l.before := by
  obtain ⟨f₀, hf₀, hcall₀⟩ := call_of_set he hf hcall
  rw [← hcall₀]
  exact h.late l hl hputs f₀ hf₀

/-- A call goes on without its request. -/
theorem Extinct.leave (h : Extinct Rid Puts Holds s) {i : ℕ} {c : C}
    {trail trail' p} {r : Req}
    {task late}
    (he : s.entries[i]? = some ⟨c, trail, .running p⟩)
    (hlate : late = s.late ∨ late = s.late ++ [⟨i, trail, r⟩])
    (hnext : ∀ q, task = .running q → ¬ Holds c trail') :
    Extinct Rid Puts Holds { s with entries := s.entries.set i ⟨c, trail', task⟩, late } := by
  refine ⟨h.rid, ?_, ?_⟩
  · intro j f q hf hq
    rcases entry_set_cases he hf with ⟨-, rfl⟩ | ⟨-, hf⟩
    · exact hnext q hq
    · exact h.idle j f q hf hq
  · intro l hl hputs f hf
    have hcases : l = ⟨i, trail, r⟩ ∨ l ∈ s.late := by
      rcases hlate with rfl | rfl
      · exact .inr hl
      · exact Indexed.mem_concat_cases hl
    rcases hcases with rfl | hl
    · obtain ⟨f₀, hf₀, hcall₀⟩ := call_of_set he hf rfl
      rw [he] at hf₀
      cases hf₀
      rw [← hcall₀]
      exact h.idle i _ p he rfl
    · exact h.late_set he hl hputs hf rfl

theorem Extinct.step (hM : M.Confined init Rid Puts Holds) (hreached : M.Reachable init s)
    (h : Extinct Rid Puts Holds s) {a : Act C O} (hstep : M.step s a = some s') :
    Extinct Rid Puts Holds s' := by
  have hsound := hreached.sound
  have hreaches := hreached.step hstep
  cases step_moves hstep with
  | @arrive c =>
    refine ⟨hM.accept h.rid, ?_, ?_⟩
    · intro i e p he hp
      rw [Indexed.getElem?_concat] at he
      split_ifs at he
      · cases he
        exact hM.nil
      · exact h.idle i e p he hp
    · intro l hl hputs e he
      obtain ⟨e₀, he₀, -⟩ := hsound.late l hl
      have hlt := (List.getElem?_eq_some_iff.mp he₀).1
      rw [Indexed.getElem?_concat, if_neg (by omega)] at he
      exact h.late l hl hputs e he
  | @serve i o c trail r k x shared he hserve =>
    have hserves : M.Serves init s _ ⟨i, trail, r⟩ c o x :=
      ⟨hreached, hreaches, hsound.pending_running he, hserve, rfl⟩
    have hidle := h.idle i _ _ he rfl
    refine ⟨hM.serve hserves h.rid fun _ => hidle, ?_,
      fun l hl hputs f hf => h.late_set he hl hputs hf rfl⟩
    intro j f q hf hq
    rcases entry_set_cases he hf with ⟨-, rfl⟩ | ⟨-, hf⟩
    · exact hM.get hserves h.rid hidle
    · exact h.idle j f q hf hq
  | @fail i c trail r k x he hfailure =>
    refine h.leave he (.inr rfl) fun q _ => ?_
    exact hM.fail (h.idle i _ _ he rfl) (hsound.traced i _ he).running.issues hfailure
  | @drop i c trail r k he =>
    refine h.leave he (r := r) ?_ (by rintro q ⟨⟩)
    split_ifs
    · exact .inr rfl
    · exact .inl rfl
  | @late n o l x shared hl hserve =>
    have hmem : l ∈ s.late := List.mem_of_getElem? hl
    obtain ⟨e, he, hpending⟩ := hsound.pending_late hmem
    refine ⟨?_, h.idle, fun l' hl' => h.late l' (List.mem_of_mem_eraseIdx hl')⟩
    exact hM.serve ⟨hreached, hreaches, hpending, hserve, rfl⟩ h.rid
      fun hputs => h.late l hmem hputs e he
  | env henv => exact ⟨hM.env h.rid henv, h.idle, h.late⟩

/-- No running call of these holds it, and nothing is left behind that brings it back. -/
def quiet (calls : C → Bool) (holds : List (Exchange Req Resp) → Bool) (puts : Req → Bool)
    (s : Pool Req Resp S T C α) : Bool :=
  (s.entries.all fun e => match e.task with
    | .running _ => !(calls e.call && holds e.trail)
    | _ => true) &&
  s.late.all fun l => !(puts l.req && holds l.before)

theorem quiet_spec {calls : C → Bool} {holds : List (Exchange Req Resp) → Bool} {puts : Req → Bool}
    (h : quiet calls holds puts s = true) :
    (∀ (i : ℕ) e p, s.entries[i]? = some e → e.task = .running p → calls e.call = true →
      holds e.trail = false) ∧
    ∀ l ∈ s.late, puts l.req = true → holds l.before = false := by
  rw [quiet, Bool.and_eq_true, List.all_eq_true, List.all_eq_true] at h
  refine ⟨fun i e p he hp hcall => ?_, fun l hl hputs => ?_⟩
  · have hentry := h.1 e (List.mem_of_getElem? he)
    rw [hp] at hentry
    simpa [hcall] using hentry
  · have hsent := h.2 l hl
    rw [hputs] at hsent
    simpa using hsent

section

variable (hM : M.Confined init Rid Puts Holds) (hreached : M.Reachable init s)
  (h : Extinct Rid Puts Holds s)

include hM hreached h

/-- It never comes back. -/
theorem Extinct.run (hrun : Machine.run M.step s as = some s') :
    Extinct Rid Puts Holds s' := by
  have hboth : M.Reachable init s' ∧ Extinct Rid Puts Holds s' :=
    run_invariant (P := fun s => M.Reachable init s ∧ Extinct Rid Puts Holds s)
      (C := fun _ _ => True)
      (fun _ _ _ hs _ hstep => ⟨hs.1.step hstep, hs.2.step hM hs.1 hstep⟩) (meets_true _ as) hrun
      ⟨hreached, h⟩
  exact hboth.2

section

variable
  (hQ : ∀ {s s' l c o x}, M.Serves init s s' l c o x → Rid s.shared s.log →
    (Puts l.req → ¬ Holds c l.before) → Q ⟨l, M.stamp s.shared, x⟩)
  (hrun : Machine.run M.step s as = some s')

include hQ hrun

theorem Extinct.log :
    ∃ rest, s'.log = s.log ++ rest ∧ ∀ d ∈ rest, Q d := by
  have hall : M.Reachable init s' ∧ Extinct Rid Puts Holds s' ∧
      ∃ rest, s'.log = s.log ++ rest ∧ ∀ d ∈ rest, Q d := by
    refine run_invariant (P := fun s' => M.Reachable init s' ∧ Extinct Rid Puts Holds s' ∧
      ∃ rest, s'.log = s.log ++ rest ∧ ∀ d ∈ rest, Q d) (C := fun _ _ => True)
      ?_ (meets_true _ as) hrun ⟨hreached, h, [], by simp, by simp⟩
    rintro s₁ a s₂ ⟨hreached₁, h₁, rest, hlog, hrest⟩ - hstep
    have hreaches := hreached₁.step hstep
    refine ⟨hreaches, h₁.step hM hreached₁ hstep, ?_⟩
    have hconcat : ∀ d : Deed Req Resp T, Q d → s₂.log = s₁.log ++ [d] →
        ∃ rest, s₂.log = s.log ++ rest ∧ ∀ d ∈ rest, Q d := by
      intro d hd hlog₂
      refine ⟨rest ++ [d], by rw [hlog₂, hlog, List.append_assoc], ?_⟩
      intro d' hd'
      rcases Indexed.mem_concat_cases hd' with rfl | hd'
      · exact hd
      · exact hrest d' hd'
    have hsound₁ := hreached₁.sound
    cases step_moves hstep with
    | arrive | fail _ _ | drop _ | env _ => exact ⟨rest, hlog, hrest⟩
    | @serve i o c trail r k x shared he hserve =>
      have hserves : M.Serves init s₁ _ ⟨i, trail, r⟩ c o x :=
        ⟨hreached₁, hreaches, hsound₁.pending_running he, hserve, rfl⟩
      exact hconcat _ (hQ hserves h₁.rid fun _ => h₁.idle i _ _ he rfl) rfl
    | @late n o l x shared hl hserve =>
      have hmem : l ∈ s₁.late := List.mem_of_getElem? hl
      obtain ⟨e, he, hpending⟩ := hsound₁.pending_late hmem
      have hserves : M.Serves init s₁ _ l e.call o x :=
        ⟨hreached₁, hreaches, hpending, hserve, rfl⟩
      exact hconcat _ (hQ hserves h₁.rid fun hputs => h₁.late l hmem hputs e he) rfl
  exact hall.2.2

/-- What the calls that come later do. -/
theorem Extinct.executed {d : Deed Req Resp T} (hd : d ∈ s'.log)
    (htask : s.entries.length ≤ d.task) : Q d := by
  obtain ⟨rest, hlog, hrest⟩ := h.log hM hreached hQ hrun
  rw [hlog] at hd
  rcases List.mem_append.mp hd with hold | hnew
  · -- the calls of the log so far have smaller positions
    obtain ⟨e, he, -⟩ := hreached.sound.log d hold
    have hlt := (List.getElem?_eq_some_iff.mp he).1
    exact absurd hlt (not_lt.mpr htask)
  · exact hrest d hnew

end

/-- What calls see from now on. -/
theorem Extinct.exchange (hQ : ∀ {s s' l c o x}, M.Serves init s s' l c o x → Rid s.shared s.log →
      (Puts l.req → ¬ Holds c l.before) → Q ⟨l, M.stamp s.shared, x⟩)
    (hrun : Machine.run M.step s as = some s') {j : ℕ} (he : s'.entries[j]? = some e) {es}
    {r : Req} {x : Resp r} (hes : es ++ [⟨r, x⟩] <+: e.trail)
    (hlater : ∀ e₀, s.entries[j]? = some e₀ → e₀.trail <+: es) :
    M.failure r = some x ∨ ∃ t, Q ⟨⟨j, es, r⟩, t, x⟩ := by
  rcases (hreached.run hrun).sound.seen j e he es r x hes with hfailure | ⟨t, hmem⟩
  · exact .inl hfailure
  · obtain ⟨rest, hlog, hrest⟩ := h.log hM hreached hQ hrun
    rw [hlog] at hmem
    rcases List.mem_append.mp hmem with hold | hnew
    · -- a call whose request has been executed has got the reply or runs no more
      exfalso
      obtain ⟨e₀, he₀, hinitial, -⟩ := hreached.sound.log _ hold
      have hlength := (hlater e₀ he₀).length_le
      by_cases hrunning : ∃ p, e₀.task = .running p
      · obtain ⟨p, hp⟩ := hrunning
        have hlt := hreached.sound.next j e₀ p he₀ hp _ (.inl (List.mem_map_of_mem hold)) rfl
        exact absurd hlt (not_lt.mpr hlength)
      · have hsame := run_finished hrun he₀ (not_exists.mp hrunning)
        rw [he] at hsame
        cases hsame
        have hle := hes.length_le
        rw [List.length_append, List.length_singleton] at hle
        omega
    · exact .inr ⟨t, hrest _ hnew⟩

end

end DbMcpGateway.Async.Service
