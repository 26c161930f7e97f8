import Mathlib.Data.List.Nodup
import Mathlib.Data.List.Perm.Basic
import DbMcpGateway.Async.Machine
import DbMcpGateway.Async.Trail
import DbMcpGateway.Data.Indexed

/-!
# Programs that share a state

A service runs calls concurrently. Each call is a program; its requests are served one
at a time on a shared state, and any number of steps of other calls lie between two of
them. A program may be dropped wherever it waits. Some requests can fail: the caller then
gets an error, or is dropped, and the request may still be executed, at some later time
or never, at most once.

The pool keeps, for the proofs only, what each call has exchanged (its trail) and the list
of executed requests in the order of their execution (the log).

Results:

* `Pool.step_moves`: what one step can do.
* `Service.sound_of_run`: trails are paths of the programs, and what is in the log was
  issued by its call and executed once.
* `Service.log_invariant`: the rule for what holds of the shared state and the log.
* `Service.exists_moment`: the step of a run at which a call got a reply.
-/

namespace DbMcpGateway.Async

open Prog Machine

/-- A shared state, how it serves requests, and the programs of the calls. `O` resolves
    what the state does not determine, `T` is what the log keeps of the moment. -/
structure Service (Req : Type) (Resp : Req → Type) (S O T C α : Type) where
  serve : S → O → (r : Req) → Option (Resp r × S)
  /-- The error reply of a request that can fail. -/
  failure : (r : Req) → Option (Resp r)
  /-- What happens without a request. -/
  env : S → O → Option S
  /-- What the arrival of a call does. -/
  accept : S → C → S
  stamp : S → T
  code : C → Prog Req Resp α

variable {Req : Type} {Resp : Req → Type} {S O T C α : Type}

structure Entry (Req : Type) (Resp : Req → Type) (C α : Type) where
  call : C
  trail : List (Exchange Req Resp)
  task : Task Req Resp α

/-- A request whose caller does not wait for it any more; `before` is the trail of the
    caller when it was issued. -/
structure Sent (Req : Type) (Resp : Req → Type) where
  task : ℕ
  before : List (Exchange Req Resp)
  req : Req

structure Deed (Req : Type) (Resp : Req → Type) (T : Type) extends Sent Req Resp where
  stamp : T
  reply : Resp req

/-- The position of a request among those of all calls. -/
def Sent.key (l : Sent Req Resp) : ℕ × ℕ := (l.task, l.before.length)

/-- A service under execution. -/
structure Pool (Req : Type) (Resp : Req → Type) (S T C α : Type) where
  shared : S
  entries : List (Entry Req Resp C α)
  late : List (Sent Req Resp)
  log : List (Deed Req Resp T)

/-- The request that call `i` waits for. -/
def Pool.waits (s : Pool Req Resp S T C α) (i : ℕ) : Option Req :=
  match s.entries[i]? with
  | some ⟨_, _, .running (.await r _)⟩ => some r
  | _ => none

/-- The call at position `i` and what it returned. -/
def Pool.answer (s : Pool Req Resp S T C α) (i : ℕ) : Option (C × α) :=
  match s.entries[i]? with
  | some ⟨c, _, .returned a⟩ => some (c, a)
  | _ => none

/-- A request of call `i` was executed at a moment. -/
def Pool.Executed (s : Pool Req Resp S T C α) (i : ℕ) (t : T) (r : Req) (x : Resp r) : Prop :=
  ∃ es, ⟨⟨i, es, r⟩, t, x⟩ ∈ s.log

theorem Pool.executed_of_mem {s : Pool Req Resp S T C α} {d : Deed Req Resp T} (hd : d ∈ s.log)
    {r : Req} {x : Resp r} (h : (⟨d.req, d.reply⟩ : Exchange Req Resp) = ⟨r, x⟩) :
    s.Executed d.task d.stamp r x := by
  obtain ⟨⟨task, before, req⟩, stamp, reply⟩ := d
  cases h
  exact ⟨before, hd⟩

/-- An action; calls are named by their position. -/
inductive Act (C O : Type)
  | arrive (call : C)
  /-- The request of call `i` is executed and replied to. -/
  | serve (i : ℕ) (o : O)
  /-- The request of call `i` gets its error reply. -/
  | fail (i : ℕ)
  | drop (i : ℕ)
  /-- A request nobody waits for is executed. -/
  | late (n : ℕ) (o : O)
  | env (o : O)
  deriving DecidableEq

def Task.ofProg : Prog Req Resp α → Task Req Resp α
  | .ret a => .returned a
  | p => .running p

namespace Service

variable (M : Service Req Resp S O T C α)

def step (s : Pool Req Resp S T C α) : Act C O → Option (Pool Req Resp S T C α)
  | .arrive c =>
    some { s with
      shared := M.accept s.shared c
      entries := s.entries ++ [⟨c, [], .ofProg (M.code c)⟩] }
  | .serve i o =>
    match s.entries[i]? with
    | some ⟨c, trail, .running (.await r k)⟩ =>
      match M.serve s.shared o r with
      | some (x, shared) =>
        some { s with
          shared
          entries := s.entries.set i ⟨c, trail ++ [⟨r, x⟩], .ofProg (k x)⟩
          log := s.log ++ [⟨⟨i, trail, r⟩, M.stamp s.shared, x⟩] }
      | none => none
    | _ => none
  | .fail i =>
    match s.entries[i]? with
    | some ⟨c, trail, .running (.await r k)⟩ =>
      match M.failure r with
      | some x =>
        some { s with
          entries := s.entries.set i ⟨c, trail ++ [⟨r, x⟩], .ofProg (k x)⟩
          late := s.late ++ [⟨i, trail, r⟩] }
      | none => none
    | _ => none
  | .drop i =>
    match s.entries[i]? with
    | some ⟨c, trail, .running (.await r _)⟩ =>
      some { s with
        entries := s.entries.set i ⟨c, trail, .dropped⟩
        late := if (M.failure r).isSome then s.late ++ [⟨i, trail, r⟩] else s.late }
    | _ => none
  | .late n o =>
    match s.late[n]? with
    | some l =>
      match M.serve s.shared o l.req with
      | some (x, shared) =>
        some { s with
          shared
          late := s.late.eraseIdx n
          log := s.log ++ [⟨l, M.stamp s.shared, x⟩] }
      | none => none
    | none => none
  | .env o => (M.env s.shared o).map fun shared => { s with shared }

/-- No call yet. -/
def start (shared : S) : Pool Req Resp S T C α := ⟨shared, [], [], []⟩

/-- What one step can do. -/
inductive Moves (s : Pool Req Resp S T C α) : Act C O → Pool Req Resp S T C α → Prop
  | arrive {c} : Moves s (.arrive c) { s with
      shared := M.accept s.shared c
      entries := s.entries ++ [⟨c, [], .ofProg (M.code c)⟩] }
  | serve {i o c trail r k x shared} : s.entries[i]? = some ⟨c, trail, .running (.await r k)⟩ →
      M.serve s.shared o r = some (x, shared) →
      Moves s (.serve i o) { s with
        shared
        entries := s.entries.set i ⟨c, trail ++ [⟨r, x⟩], .ofProg (k x)⟩
        log := s.log ++ [⟨⟨i, trail, r⟩, M.stamp s.shared, x⟩] }
  | fail {i c trail r k x} :
      s.entries[i]? = some ⟨c, trail, .running (.await r k)⟩ → M.failure r = some x →
      Moves s (.fail i) { s with
        entries := s.entries.set i ⟨c, trail ++ [⟨r, x⟩], .ofProg (k x)⟩
        late := s.late ++ [⟨i, trail, r⟩] }
  | drop {i c trail r k} : s.entries[i]? = some ⟨c, trail, .running (.await r k)⟩ →
      Moves s (.drop i) { s with
        entries := s.entries.set i ⟨c, trail, .dropped⟩
        late := if (M.failure r).isSome then s.late ++ [⟨i, trail, r⟩] else s.late }
  | late {n o} {l : Sent Req Resp} {x shared} :
      s.late[n]? = some l → M.serve s.shared o l.req = some (x, shared) →
      Moves s (.late n o) { s with
        shared
        late := s.late.eraseIdx n
        log := s.log ++ [⟨l, M.stamp s.shared, x⟩] }
  | env {o shared} : M.env s.shared o = some shared →
      Moves s (.env o) { s with shared }

variable {M}

variable {s s' : Pool Req Resp S T C α} {a : Act C O} {init : S} {as : List (Act C O)}
  {d : Deed Req Resp T} {c : C} {trail : List (Exchange Req Resp)} {p : Prog Req Resp α} {i : ℕ}
  {r : Req} {x : Resp r} {es : List (Entry Req Resp C α)} {e e' : Entry Req Resp C α}
  {l : Sent Req Resp} {P : Req → Prop}

theorem step_moves (h : M.step s a = some s') :
    M.Moves s a s' := by
  cases a with
  | arrive c =>
    cases h
    exact .arrive
  | serve i o =>
    simp only [step] at h
    split at h
    · split at h
      · cases h
        exact .serve ‹_› ‹_›
      · cases h
    · cases h
  | fail i =>
    simp only [step] at h
    split at h
    · split at h
      · cases h
        exact .fail ‹_› ‹_›
      · cases h
    · cases h
  | drop i =>
    simp only [step] at h
    split at h
    · cases h
      exact .drop ‹_›
    · cases h
  | late n o =>
    simp only [step] at h
    split at h
    · split at h
      · cases h
        exact .late ‹_› ‹_›
      · cases h
    · cases h
  | env o =>
    simp only [step, Option.map_eq_some_iff] at h
    obtain ⟨shared, henv, rfl⟩ := h
    exact .env henv

/-! ## The shared state and the log -/

section

variable {J : S → List (Deed Req Resp T) → Prop}
  (hserve : ∀ s log o (l : Sent Req Resp) x s', J s log → M.serve s o l.req = some (x, s') →
    J s' (log ++ [⟨l, M.stamp s, x⟩]))
  (haccept : ∀ s log c, J s log → J (M.accept s c) log)

include hserve haccept

/-- What every executed request, every arrival and every step of the environment keeps. -/
theorem log_invariant_of_meets {P : Pool Req Resp S T C α → Act C O → Prop}
    (henv : ∀ (s : Pool Req Resp S T C α) o s', J s.shared s.log → P s (.env o) →
      M.env s.shared o = some s' → J s' s.log) (hinit : J init [])
    (hmeets : Meets M.step P (start init) as) (h : run M.step (start init) as = some s) :
    J s.shared s.log := by
  refine run_invariant (P := fun s => J s.shared s.log) (C := P) ?_ hmeets h hinit
  intro s a s' hs hP hstep
  cases step_moves hstep with
  | arrive => exact haccept _ _ _ hs
  | @serve i o c trail r k x shared hentry hserved =>
    exact hserve _ _ o ⟨i, trail, r⟩ x _ hs hserved
  | fail _ _ | drop _ => exact hs
  | late _ hserved => exact hserve _ _ _ _ _ _ hs hserved
  | env henv' => exact henv s _ _ hs hP henv'

theorem log_invariant (henv : ∀ s log o s', J s log → M.env s o = some s' → J s' log)
    (hinit : J init []) (h : run M.step (start init) as = some s) : J s.shared s.log :=
  log_invariant_of_meets hserve haccept (fun s o s' hs _ => henv _ s.log o s' hs) hinit
    (meets_true _ as) h

end

/-- What was executed was served in some state. -/
theorem log_served (h : run M.step (start init) as = some s) (hd : d ∈ s.log) :
    ∃ s₀ o s₁, M.serve s₀ o d.req = some (d.reply, s₁) ∧ d.stamp = M.stamp s₀ := by
  refine log_invariant (J := fun _ log => ∀ d ∈ log, ∃ s₀ o s₁,
    M.serve s₀ o d.req = some (d.reply, s₁) ∧ d.stamp = M.stamp s₀) ?_ (fun _ _ _ hlog => hlog)
    (fun _ _ _ _ hlog _ => hlog) (by simp) h d hd
  intro s log o l x s' hlog hserve d hd
  rcases Indexed.mem_concat_cases hd with rfl | hd
  · exact ⟨s, o, s', hserve, rfl⟩
  · exact hlog d hd

/-! ## Trails -/

variable (M)

/-- The trail of a call is a path of its program, and the task is what is left of it. -/
def Traced (e : Entry Req Resp C α) : Prop :=
  ∃ p, Reaches (M.code e.call) e.trail p ∧ (∀ q, e.task = .running q → q = p) ∧
    ∀ a, e.task = .returned a → p = .ret a

/-- The request was issued by its call. -/
def Issued (s : Pool Req Resp S T C α) (l : Sent Req Resp) : Prop :=
  ∃ e, s.entries[l.task]? = some e ∧ l.before <+: e.trail ∧ Issues (M.code e.call) l.before l.req

/-- The exchanges of a trail are replies to executed requests, or error replies. -/
def Seen (log : List (Deed Req Resp T)) (i : ℕ) (trail : List (Exchange Req Resp)) : Prop :=
  ∀ es r x, es ++ [⟨r, x⟩] <+: trail → M.failure r = some x ∨ ∃ t, ⟨⟨i, es, r⟩, t, x⟩ ∈ log

/-- Trails and the log. -/
structure Sound (s : Pool Req Resp S T C α) : Prop where
  traced : ∀ (i : ℕ) e, s.entries[i]? = some e → M.Traced e
  late : ∀ l ∈ s.late, M.Issued s l
  log : ∀ d ∈ s.log, M.Issued s d.toSent
  seen : ∀ (i : ℕ) e, s.entries[i]? = some e → M.Seen s.log i e.trail
  /-- What a call had exchanged when it issued a request was executed before it. -/
  seenBefore : ∀ l₁ d l₂, s.log = l₁ ++ d :: l₂ → M.Seen l₁ d.task d.before
  /-- Every request is executed at most once. -/
  once : (s.log.map (fun d => d.toSent.key) ++ s.late.map Sent.key).Nodup
  /-- What a running call waits for is not executed. -/
  next : ∀ (i : ℕ) e p, s.entries[i]? = some e → e.task = .running p →
    ∀ l, l ∈ s.log.map Deed.toSent ∨ l ∈ s.late → l.task = i → l.before.length < e.trail.length

variable {M}

theorem Traced.ofProg (h : Reaches (M.code c) trail p) : M.Traced ⟨c, trail, .ofProg p⟩ := by
  refine ⟨p, h, ?_, ?_⟩
  · intro q hq
    cases p with
    | ret a => cases hq
    | await r k =>
      cases hq
      rfl
  · intro a ha
    cases p with
    | ret b =>
      cases ha
      rfl
    | await r k => cases ha

theorem Traced.running {c : C} {trail p}
    (h : M.Traced ⟨c, trail, .running p⟩) : Reaches (M.code c) trail p := by
  obtain ⟨q, hq, hrunning, -⟩ := h
  cases hrunning p rfl
  exact hq

theorem Sound.yields (h : M.Sound s) {a : α} (he : s.entries[i]? = some ⟨c, trail, .returned a⟩) :
    Yields (M.code c) trail a := by
  obtain ⟨p, hp, -, hreturned⟩ := h.traced i _ he
  cases hreturned a rfl
  exact hp.yields

theorem Seen.mono {log log'} (h : M.Seen log i trail)
    (hsub : ∀ d ∈ log, d ∈ log') : M.Seen log' i trail := by
  intro es r x hinitial
  rcases h es r x hinitial with hfailure | ⟨t, ht⟩
  · exact .inl hfailure
  · exact .inr ⟨t, hsub _ ht⟩

theorem Seen.of_initial {log trail'} (h : M.Seen log i trail) (hle : trail' <+: trail) :
    M.Seen log i trail' :=
  fun es r x hinitial => h es r x (hinitial.trans hle)

theorem Seen.concat {log} (h : M.Seen log i trail)
    (hx : M.failure r = some x ∨ ∃ t, ⟨⟨i, trail, r⟩, t, x⟩ ∈ log) :
    M.Seen log i (trail ++ [⟨r, x⟩]) := by
  intro es r' x' hinitial
  rcases List.prefix_concat_iff.mp hinitial with heq | hinitial
  · obtain ⟨rfl, hlast⟩ := List.append_inj' heq rfl
    cases List.cons.inj hlast |>.1
    exact hx
  · exact h es r' x' hinitial

/-! ## Soundness -/

/-- Calls stay, and their trails grow. -/
def Extends (es es' : List (Entry Req Resp C α)) : Prop :=
  ∀ (j : ℕ) e, es[j]? = some e → ∃ e', es'[j]? = some e' ∧ e'.call = e.call ∧ e.trail <+: e'.trail

theorem Extends.refl (es : List (Entry Req Resp C α)) : Extends es es :=
  fun _ e he => ⟨e, he, rfl, List.prefix_rfl⟩

theorem Extends.concat (es : List (Entry Req Resp C α)) (e : Entry Req Resp C α) :
    Extends es (es ++ [e]) :=
  fun _ e' he => ⟨e', Indexed.getElem?_concat_of_some he, rfl, List.prefix_rfl⟩

theorem Extends.set (he : es[i]? = some e) (hcall : e'.call = e.call)
    (htrail : e.trail <+: e'.trail) :
    Extends es (es.set i e') := by
  intro j f hf
  by_cases hij : j = i
  · subst hij
    rw [he] at hf
    cases hf
    exact ⟨e', by rw [Indexed.getElem?_set_of_some he, if_pos rfl], hcall, htrail⟩
  · exact ⟨f, by rw [Indexed.getElem?_set_of_some he, if_neg hij, hf], rfl, List.prefix_rfl⟩

theorem Extends.trans {es' es''} (h : Extends es es')
    (h' : Extends es' es'') : Extends es es'' := by
  intro j e he
  obtain ⟨e', he', hcall, htrail⟩ := h j e he
  obtain ⟨e'', he'', hcall', htrail'⟩ := h' j e' he'
  exact ⟨e'', he'', hcall'.trans hcall, htrail.trans htrail'⟩

theorem step_extends (h : M.step s a = some s') :
    Extends s.entries s'.entries ∧ s.log <+: s'.log := by
  cases step_moves h with
  | arrive => exact ⟨.concat _ _, List.prefix_rfl⟩
  | serve he _ => exact ⟨.set he rfl (List.prefix_append _ _), List.prefix_append _ _⟩
  | fail he _ => exact ⟨.set he rfl (List.prefix_append _ _), List.prefix_rfl⟩
  | drop he => exact ⟨.set he rfl List.prefix_rfl, List.prefix_rfl⟩
  | late _ _ => exact ⟨.refl _, List.prefix_append _ _⟩
  | env _ => exact ⟨.refl _, List.prefix_rfl⟩

theorem run_extends (h : run M.step s as = some s') :
    Extends s.entries s'.entries ∧ s.log <+: s'.log := by
  refine run_invariant (P := fun s' => Extends s.entries s'.entries ∧ s.log <+: s'.log)
    (C := fun _ _ => True) ?_ (meets_true _ as) h ⟨.refl _, List.prefix_rfl⟩
  rintro s₁ a s₂ ⟨hentries, hlog⟩ - hstep
  obtain ⟨hentries', hlog'⟩ := step_extends hstep
  exact ⟨hentries.trans hentries', hlog.trans hlog'⟩

/-- A call that runs no more stays as it is. -/
theorem run_finished (h : run M.step s as = some s') (he : s.entries[i]? = some e)
    (hdone : ∀ p, e.task ≠ .running p) : s'.entries[i]? = some e := by
  refine run_invariant (P := fun s => s.entries[i]? = some e) (C := fun _ _ => True) ?_
    (meets_true _ as) h he
  intro s₁ a s₂ he₁ _ hstep
  have hset : ∀ {j : ℕ} {f f' : Entry Req Resp C α} {p}, s₁.entries[j]? = some f →
      f.task = .running p → (s₁.entries.set j f')[i]? = some e := by
    intro j f f' p hf hp
    rw [Indexed.getElem?_set_of_some hf, if_neg, he₁]
    rintro rfl
    rw [he₁] at hf
    cases hf
    exact hdone p hp
  cases step_moves hstep with
  | arrive => exact Indexed.getElem?_concat_of_some he₁
  | serve hf _ | fail hf _ | drop hf => exact hset hf rfl
  | late _ _ | env _ => exact he₁

theorem Extends.length_le {es' : List (Entry Req Resp C α)} (h : Extends es es') :
    es.length ≤ es'.length := by
  by_contra hlt
  rw [not_le] at hlt
  obtain ⟨e', he', -⟩ := h _ _ (List.getElem?_eq_getElem hlt)
  exact absurd (List.getElem?_eq_some_iff.mp he').1 (lt_irrefl _)

theorem Issued.mono (h : M.Issued s l) (hext : Extends s.entries s'.entries) : M.Issued s' l := by
  obtain ⟨e, he, hinitial, hissues⟩ := h
  obtain ⟨e', he', hcall, htrail⟩ := hext _ _ he
  exact ⟨e', he', hinitial.trans htrail, by rw [hcall]; exact hissues⟩

/-- Requests with other keys than the one that is added. -/
theorem Sound.key_not_mem (h : M.Sound s) (he : s.entries[i]? = some ⟨c, trail, .running p⟩) :
    (i, trail.length) ∉ s.log.map (fun d => d.toSent.key) ++ s.late.map Sent.key := by
  intro hmem
  have hkey : ∃ l : Sent Req Resp, (l ∈ s.log.map Deed.toSent ∨ l ∈ s.late) ∧
      l.key = (i, trail.length) := by
    rcases List.mem_append.mp hmem with hmem | hmem
    · obtain ⟨d, hd, hkey⟩ := List.mem_map.mp hmem
      exact ⟨d.toSent, .inl (List.mem_map_of_mem hd), hkey⟩
    · obtain ⟨l, hl, hkey⟩ := List.mem_map.mp hmem
      exact ⟨l, .inr hl, hkey⟩
  obtain ⟨l, hl, hkey⟩ := hkey
  obtain ⟨htask, hlength⟩ := Prod.mk.inj hkey
  have hlt := h.next i _ p he rfl l hl htask
  rw [hlength] at hlt
  exact Nat.lt_irrefl _ hlt

/-- The calls that go on after call `i` has moved. -/
theorem entry_set_cases {j : ℕ} {f} (he : es[i]? = some e) (hf : (es.set i e')[j]? = some f) :
    j = i ∧ f = e' ∨ j ≠ i ∧ es[j]? = some f := by
  rw [Indexed.getElem?_set_of_some he] at hf
  split_ifs at hf with hij
  · exact .inl ⟨hij, (Option.some.inj hf).symm⟩
  · exact .inr ⟨hij, hf⟩

theorem waits_eq_some (h : s.waits i = some r) :
    ∃ c trail, ∃ k : Resp r → Prog Req Resp α,
      s.entries[i]? = some ⟨c, trail, .running (.await r k)⟩ := by
  unfold Pool.waits at h
  split at h
  · rename_i he
    cases h
    exact ⟨_, _, _, he⟩
  · cases h

theorem answer_eq_some {a : α} :
    s.answer i = some (c, a) ↔ ∃ trail, s.entries[i]? = some ⟨c, trail, .returned a⟩ := by
  unfold Pool.answer
  constructor
  · intro h
    split at h
    · rename_i trail _ he
      cases h
      exact ⟨_, he⟩
    · cases h
  · rintro ⟨trail, he⟩
    rw [he]

theorem step_entry (h : M.step s a = some s') (he' : s'.entries[i]? = some e') :
    (∃ c, a = .arrive c ∧ e' = ⟨c, [], .ofProg (M.code c)⟩ ∧ i = s.entries.length) ∨
    ∃ e, s.entries[i]? = some e ∧ e'.call = e.call ∧ (e'.trail = e.trail ∨ ∃ r x,
      e'.trail = e.trail ++ [⟨r, x⟩] ∧ s.waits i = some r ∧
        (M.failure r = some x ∨ ∃ o, a = .serve i o ∧ M.serve s.shared o r = some (x, s'.shared))) := by
  have hset : ∀ {j : ℕ} {e₀ e₁ : Entry Req Resp C α}, s.entries[j]? = some e₀ →
      (s.entries.set j e₁)[i]? = some e' → j = i ∧ e₁ = e' ∨ s.entries[i]? = some e' := by
    intro j e₀ e₁ he₀ hset
    rcases entry_set_cases he₀ hset with ⟨rfl, rfl⟩ | ⟨-, he'⟩
    · exact .inl ⟨rfl, rfl⟩
    · exact .inr he'
  cases step_moves h with
  | arrive =>
    rw [Indexed.getElem?_concat] at he'
    split_ifs at he' with hi
    · cases he'
      exact .inl ⟨_, rfl, rfl, hi⟩
    · exact .inr ⟨e', he', rfl, .inl rfl⟩
  | serve he hserve =>
    rcases hset he he' with ⟨rfl, rfl⟩ | he'
    · exact .inr ⟨_, he, rfl, .inr ⟨_, _, rfl, by rw [Pool.waits, he], .inr ⟨_, rfl, hserve⟩⟩⟩
    · exact .inr ⟨e', he', rfl, .inl rfl⟩
  | fail he hfailure =>
    rcases hset he he' with ⟨rfl, rfl⟩ | he'
    · exact .inr ⟨_, he, rfl, .inr ⟨_, _, rfl, by rw [Pool.waits, he], .inl hfailure⟩⟩
    · exact .inr ⟨e', he', rfl, .inl rfl⟩
  | drop he =>
    rcases hset he he' with ⟨rfl, rfl⟩ | he'
    · exact .inr ⟨_, he, rfl, .inl rfl⟩
    · exact .inr ⟨e', he', rfl, .inl rfl⟩
  | late _ _ | env _ => exact .inr ⟨e', he', rfl, .inl rfl⟩

/-- Calls keep their positions. -/
theorem step_call (h : M.step s a = some s') (he : s.entries[i]? = some e)
    (he' : s'.entries[i]? = some e') :
    e'.call = e.call := by
  rcases step_entry h he' with ⟨c, -, -, hi⟩ | ⟨e₀, he₀, hcall, -⟩
  · rw [hi, List.getElem?_eq_none (Nat.le_refl _)] at he
    cases he
  · rw [he] at he₀
    cases he₀
    exact hcall

theorem step_new (h : M.step s a = some s') (he : s.entries[i]? = none)
    (he' : s'.entries[i]? = some e') :
    ∃ c, a = .arrive c ∧ e' = ⟨c, [], .ofProg (M.code c)⟩ := by
  rcases step_entry h he' with ⟨c, ha, rfl, -⟩ | ⟨e₀, he₀, -⟩
  · exact ⟨c, ha, rfl⟩
  · rw [he] at he₀
    cases he₀

/-- How a call came to wait: it arrived, it waited before, or it got a reply. -/
theorem step_running (h : M.step s a = some s') {es}
    {k : Resp r → Prog Req Resp α} (he' : s'.entries[i]? = some ⟨c, es, .running (.await r k)⟩) :
    es = [] ∨ (s.entries[i]? = some ⟨c, es, .running (.await r k)⟩ ∧ ∀ o, a ≠ .serve i o) ∨
    ∃ es₀ r₀ k₀ x₀, s.entries[i]? = some ⟨c, es₀, .running (.await r₀ k₀)⟩ ∧
      es = es₀ ++ [⟨r₀, x₀⟩] ∧ (a = .fail i ∧ M.failure r₀ = some x₀ ∧ s'.shared = s.shared ∨
        ∃ o, a = .serve i o ∧ M.serve s.shared o r₀ = some (x₀, s'.shared)) := by
  cases step_moves h with
  | arrive =>
    rw [Indexed.getElem?_concat] at he'
    split_ifs at he'
    · exact .inl (congrArg Entry.trail (Option.some.inj he')).symm
    · exact .inr (.inl ⟨he', by rintro o ⟨⟩⟩)
  | serve he hserve =>
    rcases entry_set_cases he he' with ⟨rfl, heq⟩ | ⟨hne, he'⟩
    · obtain ⟨rfl, rfl⟩ : c = _ ∧ es = _ := ⟨congrArg Entry.call heq, congrArg Entry.trail heq⟩
      exact .inr (.inr ⟨_, _, _, _, he, rfl, .inr ⟨_, rfl, hserve⟩⟩)
    · refine .inr (.inl ⟨he', ?_⟩)
      rintro o ⟨⟩
      exact hne rfl
  | fail he hfailure =>
    rcases entry_set_cases he he' with ⟨rfl, heq⟩ | ⟨-, he'⟩
    · obtain ⟨rfl, rfl⟩ : c = _ ∧ es = _ := ⟨congrArg Entry.call heq, congrArg Entry.trail heq⟩
      exact .inr (.inr ⟨_, _, _, _, he, rfl, .inl ⟨rfl, hfailure, rfl⟩⟩)
    · exact .inr (.inl ⟨he', by rintro o ⟨⟩⟩)
  | drop he =>
    rcases entry_set_cases he he' with ⟨-, ⟨⟩⟩ | ⟨-, he'⟩
    exact .inr (.inl ⟨he', by rintro o ⟨⟩⟩)
  | late _ _ | env _ => exact .inr (.inl ⟨he', by rintro o ⟨⟩⟩)

theorem step_serve {es} {k : Resp r → Prog Req Resp α} {o : O}
    {shared : S} (he : s.entries[i]? = some ⟨c, es, .ofProg (await r k)⟩)
    (hserve : M.serve s.shared o r = some (x, shared)) :
    ∃ s', M.step s (.serve i o) = some s' ∧ s'.shared = shared ∧
      s'.entries[i]? = some ⟨c, es ++ [⟨r, x⟩], .ofProg (k x)⟩ ∧
      s'.entries.length = s.entries.length ∧
      s'.log = s.log ++ [⟨⟨i, es, r⟩, M.stamp s.shared, x⟩] := by
  refine ⟨{ s with
    shared
    entries := s.entries.set i ⟨c, es ++ [⟨r, x⟩], .ofProg (k x)⟩
    log := s.log ++ [⟨⟨i, es, r⟩, M.stamp s.shared, x⟩] }, ?_, rfl, ?_, List.length_set, rfl⟩
  · simp only [step, he, Task.ofProg, hserve]
  · rw [Indexed.getElem?_set_of_some he, if_pos rfl]

/-- A call that nothing interrupts runs to its end. -/
theorem run_exec {o : O} (p : Prog Req Resp α) {es} {a : α}
    {shared : S} (hexec : p.exec (fun r s => M.serve s o r) s.shared = some (a, shared))
    (he : s.entries[i]? = some ⟨c, es, .ofProg p⟩) :
    ∃ k s', run M.step s (List.replicate k (.serve i o)) = some s' ∧ s'.shared = shared ∧
      s'.entries.length = s.entries.length := by
  induction p generalizing s es with
  | ret b =>
    cases hexec
    exact ⟨0, s, rfl, rfl, rfl⟩
  | await r k ih =>
    rw [exec_await] at hexec
    obtain ⟨⟨x, shared₁⟩, hserve, hexec⟩ := Option.bind_eq_some_iff.mp hexec
    obtain ⟨s₁, hstep, rfl, he₁, hlength₁, -⟩ := step_serve he hserve
    obtain ⟨n, s', hrun, hshared, hlength⟩ := ih x hexec he₁
    refine ⟨n + 1, s', ?_, hshared, hlength.trans hlength₁⟩
    rw [List.replicate_succ, Machine.run, hstep]
    exact hrun

theorem Sound.start (shared : S) : M.Sound (start shared : Pool Req Resp S T C α) where
  traced := by simp [Service.start]
  late := by simp [Service.start]
  log := by simp [Service.start]
  seen := by simp [Service.start]
  seenBefore := by simp [Service.start]
  once := by simp [Service.start]
  next := by simp [Service.start]

theorem Sound.arrive {s} (h : M.Sound s) (c : C) : M.Sound { s with
    shared := M.accept s.shared c
    entries := s.entries ++ [⟨c, [], .ofProg (M.code c)⟩] } := by
  have hext := Extends.concat s.entries ⟨c, [], .ofProg (M.code c)⟩
  have hnew : ∀ {l : Sent Req Resp}, M.Issued s l → l.task ≠ s.entries.length := by
    rintro l ⟨e, he, -⟩ heq
    have hlt := (List.getElem?_eq_some_iff.mp he).1
    omega
  refine ⟨?_, ?_, ?_, ?_, h.seenBefore, h.once, ?_⟩
  · intro i e he
    rw [Indexed.getElem?_concat] at he
    split_ifs at he with hi
    · cases he
      exact Traced.ofProg .refl
    · exact h.traced i e he
  · exact fun l hl => (h.late l hl).mono hext
  · exact fun d hd => (h.log d hd).mono hext
  · intro i e he
    rw [Indexed.getElem?_concat] at he
    split_ifs at he with hi
    · cases he
      intro es r x hinitial
      simp at hinitial
    · exact h.seen i e he
  · intro i e p he hp l hl htask
    rw [Indexed.getElem?_concat] at he
    split_ifs at he with hi
    · exfalso
      rcases hl with hl | hl
      · obtain ⟨d, hd, rfl⟩ := List.mem_map.mp hl
        exact hnew (h.log d hd) (htask.trans hi)
      · exact hnew (h.late l hl) (htask.trans hi)
    · exact h.next i e p he hp l hl htask

theorem Sound.serve {s : Pool Req Resp S T C α} (h : M.Sound s) {i : ℕ} {c : C}
    {trail} {r : Req} {k : Resp r → Prog Req Resp α} (x : Resp r)
    (he : s.entries[i]? = some ⟨c, trail, .running (.await r k)⟩) (shared : S) : M.Sound { s with
      shared
      entries := s.entries.set i ⟨c, trail ++ [⟨r, x⟩], .ofProg (k x)⟩
      log := s.log ++ [⟨⟨i, trail, r⟩, M.stamp s.shared, x⟩] } := by
  have hreach := (h.traced i _ he).running
  have hext : Extends s.entries (s.entries.set i ⟨c, trail ++ [⟨r, x⟩], .ofProg (k x)⟩) :=
    .set he rfl (List.prefix_append _ _)
  have hself : (s.entries.set i ⟨c, trail ++ [⟨r, x⟩], .ofProg (k x)⟩)[i]? =
      some ⟨c, trail ++ [⟨r, x⟩], .ofProg (k x)⟩ := by
    rw [Indexed.getElem?_set_of_some he, if_pos rfl]
  refine ⟨?_, ?_, ?_, ?_, ?_, ?_, ?_⟩
  · intro j f hf
    rcases entry_set_cases he hf with ⟨-, rfl⟩ | ⟨-, hf⟩
    · exact Traced.ofProg (hreach.concat x)
    · exact h.traced j f hf
  · exact fun l hl => (h.late l hl).mono hext
  · intro d hd
    rcases Indexed.mem_concat_cases hd with rfl | hd
    · exact ⟨_, hself, List.prefix_append _ _, hreach.issues⟩
    · exact (h.log d hd).mono hext
  · intro j f hf
    have hsub : ∀ d ∈ s.log, d ∈ s.log ++ [⟨⟨i, trail, r⟩, M.stamp s.shared, x⟩] :=
      fun d hd => List.mem_append_left _ hd
    rcases entry_set_cases he hf with ⟨rfl, rfl⟩ | ⟨-, hf⟩
    · exact ((h.seen j _ he).mono hsub).concat
        (.inr ⟨M.stamp s.shared, List.mem_append_right _ (List.mem_singleton.mpr rfl)⟩)
    · exact (h.seen j f hf).mono hsub
  · intro l₁ d l₂ hlog
    rcases Indexed.concat_eq_append_cons hlog with ⟨-, rfl, rfl⟩ | ⟨l₃, -, hlog⟩
    · exact h.seen i _ he
    · exact h.seenBefore l₁ d l₃ hlog
  · rw [List.map_append, List.append_assoc]
    exact List.perm_middle.nodup_iff.mpr (List.nodup_cons.mpr ⟨h.key_not_mem he, h.once⟩)
  · intro j f p hf hp l hl htask
    have hcases : l = ⟨i, trail, r⟩ ∨ l ∈ s.log.map Deed.toSent ∨ l ∈ s.late := by
      rcases hl with hl | hl
      · rw [List.map_append] at hl
        rcases Indexed.mem_concat_cases hl with rfl | hl
        · exact .inl rfl
        · exact .inr (.inl hl)
      · exact .inr (.inr hl)
    rcases entry_set_cases he hf with ⟨rfl, rfl⟩ | ⟨hne, hf⟩
    · rw [List.length_append, List.length_singleton]
      rcases hcases with rfl | hl
      · exact Nat.lt_succ_self _
      · exact Nat.lt_succ_of_lt (h.next j _ _ he rfl l hl htask)
    · rcases hcases with rfl | hl
      · exact absurd htask.symm hne
      · exact h.next j f p hf hp l hl htask

/-- A call goes on without its request, which may be executed later. -/
theorem Sound.leave {s : Pool Req Resp S T C α} (h : M.Sound s) {i : ℕ} {c : C}
    {trail trail' : List (Exchange Req Resp)} {r : Req} {k : Resp r → Prog Req Resp α}
    {task late}
    (he : s.entries[i]? = some ⟨c, trail, .running (.await r k)⟩) (htrail : trail <+: trail')
    (htraced : M.Traced ⟨c, trail', task⟩) (hseen : M.Seen s.log i trail')
    (hlate : late = s.late ∨ late = s.late ++ [⟨i, trail, r⟩])
    (hnext : ∀ p, task = .running p → trail.length < trail'.length) :
    M.Sound { s with entries := s.entries.set i ⟨c, trail', task⟩, late } := by
  have hext : Extends s.entries (s.entries.set i ⟨c, trail', task⟩) := .set he rfl htrail
  have hself : (s.entries.set i ⟨c, trail', task⟩)[i]? = some ⟨c, trail', task⟩ := by
    rw [Indexed.getElem?_set_of_some he, if_pos rfl]
  have hcases : ∀ l ∈ late, l = ⟨i, trail, r⟩ ∨ l ∈ s.late := by
    intro l hl
    rcases hlate with rfl | rfl
    · exact .inr hl
    · exact Indexed.mem_concat_cases hl
  refine ⟨?_, ?_, fun d hd => (h.log d hd).mono hext, ?_, h.seenBefore, ?_, ?_⟩
  · intro j f hf
    rcases entry_set_cases he hf with ⟨-, rfl⟩ | ⟨-, hf⟩
    · exact htraced
    · exact h.traced j f hf
  · intro l hl
    rcases hcases l hl with rfl | hl
    · exact ⟨_, hself, htrail, (h.traced i _ he).running.issues⟩
    · exact (h.late l hl).mono hext
  · intro j f hf
    rcases entry_set_cases he hf with ⟨rfl, rfl⟩ | ⟨-, hf⟩
    · exact hseen
    · exact h.seen j f hf
  · rcases hlate with rfl | rfl
    · exact h.once
    · rw [List.map_append, ← List.append_assoc]
      refine List.nodup_append.mpr ⟨h.once, List.nodup_singleton _, ?_⟩
      intro a ha b hb
      rw [List.map_singleton, List.mem_singleton] at hb
      rintro rfl
      subst hb
      exact h.key_not_mem he ha
  · intro j f p hf hp l hl htask
    have hl' : l = ⟨i, trail, r⟩ ∨ l ∈ s.log.map Deed.toSent ∨ l ∈ s.late := by
      rcases hl with hl | hl
      · exact .inr (.inl hl)
      · rcases hcases l hl with hl | hl
        · exact .inl hl
        · exact .inr (.inr hl)
    rcases entry_set_cases he hf with ⟨rfl, rfl⟩ | ⟨hne, hf⟩
    · have hlt := hnext p hp
      rcases hl' with rfl | hl
      · exact hlt
      · exact lt_trans (h.next j _ _ he rfl l hl htask) hlt
    · rcases hl' with rfl | hl
      · exact absurd htask.symm hne
      · exact h.next j f p hf hp l hl htask

/-- A request nobody waits for is executed. -/
theorem Sound.execute (h : M.Sound s) {n : ℕ} (hl : s.late[n]? = some l) (x : Resp l.req)
    (shared : S) : M.Sound { s with
      shared
      late := s.late.eraseIdx n
      log := s.log ++ [⟨l, M.stamp s.shared, x⟩] } := by
  have hmem : l ∈ s.late := List.mem_of_getElem? hl
  have hissued := h.late l hmem
  have hsub : ∀ d ∈ s.log, d ∈ s.log ++ [⟨l, M.stamp s.shared, x⟩] :=
    fun d hd => List.mem_append_left _ hd
  refine ⟨h.traced, ?_, ?_, fun i e he => (h.seen i e he).mono hsub, ?_, ?_, ?_⟩
  · exact fun l' hl' => h.late l' (List.mem_of_mem_eraseIdx hl')
  · intro d hd
    rcases Indexed.mem_concat_cases hd with rfl | hd
    · exact hissued
    · exact h.log d hd
  · intro l₁ d l₂ hlog
    rcases Indexed.concat_eq_append_cons hlog with ⟨-, rfl, rfl⟩ | ⟨l₃, -, hlog⟩
    · obtain ⟨e, he, hinitial, -⟩ := hissued
      exact (h.seen _ e he).of_initial hinitial
    · exact h.seenBefore l₁ d l₃ hlog
  · have hperm : (l :: s.late.eraseIdx n).Perm s.late := by
      obtain ⟨hn, rfl⟩ := List.getElem?_eq_some_iff.mp hl
      exact List.getElem_cons_eraseIdx_perm hn
    rw [List.map_append, List.append_assoc]
    exact (List.Perm.append_left _ (hperm.map Sent.key)).nodup_iff.mpr h.once
  · intro i e p he hp l' hl' htask
    refine h.next i e p he hp l' ?_ htask
    rcases hl' with hl' | hl'
    · rw [List.map_append] at hl'
      rcases Indexed.mem_concat_cases hl' with rfl | hl'
      · exact .inr hmem
      · exact .inl hl'
    · exact .inr (List.mem_of_mem_eraseIdx hl')

theorem Sound.step {s s'} {a : Act C O} (h : M.Sound s)
    (hstep : M.step s a = some s') : M.Sound s' := by
  cases step_moves hstep with
  | arrive => exact h.arrive _
  | serve he _ => exact h.serve _ he _
  | fail he hfailure =>
    refine h.leave he (List.prefix_append _ _)
      (Traced.ofProg ((h.traced _ _ he).running.concat _)) ((h.seen _ _ he).concat (.inl hfailure))
      (.inr rfl) ?_
    intro p _
    simp
  | @drop i c trail r k he =>
    refine h.leave he List.prefix_rfl ?_ (h.seen i _ he) ?_ (by rintro p ⟨⟩)
    · exact ⟨_, (h.traced _ _ he).running, by rintro q ⟨⟩, by rintro a ⟨⟩⟩
    · split_ifs
      · exact .inr rfl
      · exact .inl rfl
  | late hl _ => exact h.execute hl _ _
  | env _ =>
    obtain ⟨traced, late, log, seen, seenBefore, once, next⟩ := h
    exact ⟨traced, late, log, seen, seenBefore, once, next⟩

theorem Sound.run (h : M.Sound s) (hrun : Machine.run M.step s as = some s') : M.Sound s' :=
  run_invariant (C := fun _ _ => True) (fun _ _ _ hs _ hstep => hs.step hstep) (meets_true _ as)
    hrun h

theorem Sound.eq_of_key (h : M.Sound s) {d' : Deed Req Resp T} (hd : d ∈ s.log) (hd' : d' ∈ s.log)
    (hkey : d.toSent.key = d'.toSent.key) : d = d' :=
  List.inj_on_of_nodup_map (List.Nodup.of_append_left h.once) hd hd' hkey

/-- An exchange in the trail of a call, if it is not an error reply. -/
theorem Seen.deed {log} (h : M.Seen log i trail) {r : Req} {x : Resp r}
    (hmem : ⟨r, x⟩ ∈ trail) (hfailure : M.failure r ≠ some x) :
    ∃ es t, ⟨⟨i, es, r⟩, t, x⟩ ∈ log ∧ es ++ [⟨r, x⟩] <+: trail := by
  obtain ⟨es, rest, rfl⟩ := List.append_of_mem hmem
  have hinitial : es ++ [⟨r, x⟩] <+: es ++ ⟨r, x⟩ :: rest := by simp
  rcases h es r x hinitial with hfail | ⟨t, ht⟩
  · exact absurd hfail hfailure
  · exact ⟨es, t, ht, hinitial⟩

theorem Sound.seen_of_issued (h : M.Sound s) (hl : M.Issued s l) :
    M.Seen s.log l.task l.before := by
  obtain ⟨e, he, hinitial, -⟩ := hl
  exact (h.seen l.task e he).of_initial hinitial

/-- A running call has the reply to a request of it that was executed. -/
theorem Sound.exchange_of_log (h : M.Sound s) (hd : d ∈ s.log) (he : s.entries[d.task]? = some e)
    (hp : e.task = .running p) : ∃ x, d.before ++ [⟨d.req, x⟩] <+: e.trail := by
  obtain ⟨e', he', ⟨rest, hrest⟩, hissues⟩ := h.log d hd
  rw [he] at he'
  cases he'
  have hlt := h.next d.task e p he hp d.toSent (.inl (List.mem_map_of_mem hd)) rfl
  cases rest with
  | nil =>
    rw [← hrest, List.append_nil] at hlt
    exact absurd hlt (lt_irrefl _)
  | cons exchange rest =>
    obtain ⟨r, x⟩ := exchange
    have hinitial : d.before ++ [⟨r, x⟩] <+: e.trail := by
      rw [← hrest]
      simp
    obtain ⟨q, hq, -⟩ := h.traced d.task e he
    cases hissues.unique (hq.issues_of_initial hinitial)
    exact ⟨x, hinitial⟩

/-- A request that a program issues only if it has not issued one like it. -/
def Singular (M : Service Req Resp S O T C α) (P : Req → Prop) : Prop :=
  ∀ c es r, Issues (M.code c) es r → P r → ∀ e ∈ es, ¬ P e.1

theorem Singular.prefix_eq (hP : M.Singular P) {es es'} {r' : Req}
    (h : Issues (M.code c) es r) (h' : Issues (M.code c) es' r') (hr : P r) (hr' : P r')
    (hle : es <+: es') : es = es' := by
  obtain ⟨rest, rfl⟩ := hle
  cases rest with
  | nil => rw [List.append_nil]
  | cons e rest =>
    obtain ⟨r₀, x₀⟩ := e
    obtain ⟨k, hreaches⟩ := h'.reaches
    have hissues : Issues (M.code c) es r₀ := hreaches.issues_of_initial (x := x₀) (by simp)
    cases h.unique hissues
    exact absurd hr (hP c _ r' h' hr' ⟨r, x₀⟩ (by simp))

/-- A call issues such a request once. -/
theorem Singular.before_eq (hP : M.Singular P) {l' : Sent Req Resp} (h : M.Issued s l)
    (h' : M.Issued s l') (hreq : P l.req) (hreq' : P l'.req) (htask : l.task = l'.task) :
    l.before = l'.before := by
  obtain ⟨e, he, hinitial, hissues⟩ := h
  obtain ⟨e', he', hinitial', hissues'⟩ := h'
  rw [htask, he'] at he
  cases he
  rcases List.prefix_or_prefix_of_prefix hinitial hinitial' with hle | hle
  · exact hP.prefix_eq hissues hissues' hreq hreq' hle
  · exact (hP.prefix_eq hissues' hissues hreq' hreq hle).symm

/-- A call that has executed such a request has not left one behind. -/
theorem Singular.not_late (hP : M.Singular P) (h : M.Sound s) (hd : d ∈ s.log) (hreq : P d.req)
    (hl : l ∈ s.late) (hreq' : P l.req) : d.task ≠ l.task := by
  intro htask
  have hbefore := hP.before_eq (h.log d hd) (h.late l hl) hreq hreq' htask
  have hkey : d.toSent.key = l.key := by rw [Sent.key, Sent.key, htask, hbefore]
  exact List.disjoint_of_nodup_append h.once (List.mem_map_of_mem hd)
    (hkey ▸ List.mem_map_of_mem hl)

/-- Only requests that can fail are left behind. -/
theorem late_failable (h : run M.step (Service.start init) as = some s) :
    ∀ l ∈ s.late, (M.failure l.req).isSome := by
  refine run_invariant (P := fun s => ∀ l ∈ s.late, (M.failure l.req).isSome)
    (C := fun _ _ => True) ?_ (meets_true _ as) h (by simp [Service.start])
  intro s a s' hs _ hstep
  cases step_moves hstep with
  | arrive | serve _ _ | env _ => exact hs
  | fail _ hfailure =>
    intro l hl
    rcases Indexed.mem_concat_cases hl with rfl | hl
    · rw [hfailure]
      rfl
    · exact hs l hl
  | drop _ =>
    intro l hl
    dsimp only at hl
    split_ifs at hl with hfailure
    · rcases Indexed.mem_concat_cases hl with rfl | hl
      · exact hfailure
      · exact hs l hl
    · exact hs l hl
  | late _ _ => exact fun l hl => hs l (List.mem_of_mem_eraseIdx hl)

/-- Every reachable pool is sound. -/
theorem sound_of_run (h : run M.step (Service.start init) as = some s) : M.Sound s :=
  (Sound.start init).run h

/-! ## Reachable pools -/

/-- The pool is reached from a shared state. -/
def Reachable (M : Service Req Resp S O T C α) (init : S) (s : Pool Req Resp S T C α) : Prop :=
  ∃ as, run M.step (Service.start init) as = some s

section

variable {init : S} {s s' : Pool Req Resp S T C α}

theorem Reachable.sound (h : M.Reachable init s) : M.Sound s := by
  obtain ⟨as, hrun⟩ := h
  exact sound_of_run hrun

theorem Reachable.step (h : M.Reachable init s) {a : Act C O} (hstep : M.step s a = some s') :
    M.Reachable init s' := by
  obtain ⟨as, hrun⟩ := h
  exact ⟨as ++ [a], run_concat hrun hstep⟩

theorem Reachable.run (h : M.Reachable init s) {as}
    (hrun : Machine.run M.step s as = some s') : M.Reachable init s' :=
  run_invariant (C := fun _ _ => True) (fun _ _ _ hs _ hstep => hs.step hstep) (meets_true _ as)
    hrun h

end

/-! ## Moments -/

/-- The step of a run at which a request of call `i` is served. -/
structure Moment (M : Service Req Resp S O T C α) (s s' : Pool Req Resp S T C α)
    (as : List (Act C O)) (i : ℕ) (es : List (Exchange Req Resp)) (r : Req) (x : Resp r) where
  before : List (Act C O)
  choice : O
  after : List (Act C O)
  now : Pool Req Resp S T C α
  next : Pool Req Resp S T C α
  call : C
  rest : Resp r → Prog Req Resp α
  acts : as = before ++ .serve i choice :: after
  run : Machine.run M.step s before = some now
  step : M.step now (.serve i choice) = some next
  leads : Machine.run M.step next after = some s'
  entry : now.entries[i]? = some ⟨call, es, .running (.await r rest)⟩
  serve : M.serve now.shared choice r = some (x, next.shared)

section

variable {s s' : Pool Req Resp S T C α} {as : List (Act C O)} {i : ℕ}
  {es : List (Exchange Req Resp)} {r : Req} {x : Resp r}

theorem Moment.waits (m : M.Moment s s' as i es r x) : m.now.waits i = some r := by
  rw [Pool.waits, m.entry]

theorem Moment.log (m : M.Moment s s' as i es r x) :
    m.next.log = m.now.log ++ [⟨⟨i, es, r⟩, M.stamp m.now.shared, x⟩] := by
  obtain ⟨_, _, _, now, next, _, _, -, -, hstep, -, he, hserve⟩ := m
  cases step_moves hstep with
  | serve he' hserve' =>
    rw [he] at he'
    cases he'
    rw [hserve] at hserve'
    cases hserve'
    rfl

/-- The moment at which a call got a reply that is not an error reply. -/
theorem exists_moment (hrun : Machine.run M.step s as = some s') {e : Entry Req Resp C α}
    (he : s'.entries[i]? = some e) (hes : es ++ [⟨r, x⟩] <+: e.trail)
    (hfailure : M.failure r ≠ some x)
    (hnew : ∀ e₀, s.entries[i]? = some e₀ → ¬ es ++ [⟨r, x⟩] <+: e₀.trail) :
    ∃ m : M.Moment s s' as i es r x, m.call = e.call := by
  induction as generalizing s with
  | nil =>
    cases hrun
    exact absurd hes (hnew e he)
  | cons a as ih =>
    obtain ⟨s₁, hstep, hleads⟩ := run_cons hrun
    by_cases hold : ∀ e₁, s₁.entries[i]? = some e₁ → ¬ es ++ [⟨r, x⟩] <+: e₁.trail
    · obtain ⟨m, hcall⟩ := ih hleads hold
      exact ⟨{ m with
        before := a :: m.before
        acts := congrArg (a :: ·) m.acts
        run := by rw [Machine.run, hstep]; exact m.run }, hcall⟩
    · -- the reply is the last exchange of the trail
      simp only [not_forall, not_not] at hold
      obtain ⟨e₁, he₁, hes₁⟩ := hold
      rcases step_entry hstep he₁ with ⟨c, -, rfl, -⟩ |
        ⟨e₀, he₀, -, hsame | ⟨r', x', htrail, hwaits, hreply⟩⟩
      · simp at hes₁
      · rw [hsame] at hes₁
        exact absurd hes₁ (hnew e₀ he₀)
      · rw [htrail] at hes₁
        rcases List.prefix_concat_iff.mp hes₁ with heq | hes₁
        · obtain ⟨rfl, hlast⟩ := List.append_inj' heq rfl
          cases List.cons.inj hlast |>.1
          obtain ⟨c, trail, k, he₀'⟩ := waits_eq_some hwaits
          rw [he₀] at he₀'
          cases he₀'
          rcases hreply with hfail | ⟨o, rfl, hserve⟩
          · exact absurd hfail hfailure
          · obtain ⟨e', he', hcall, -⟩ := (run_extends hrun).1 i _ he₀
            rw [he] at he'
            cases he'
            exact ⟨⟨[], o, as, s, s₁, c, k, rfl, rfl, hstep, hleads, he₀, hserve⟩, hcall.symm⟩
        · exact absurd hes₁ (hnew e₀ he₀)

end

end Service

end DbMcpGateway.Async
