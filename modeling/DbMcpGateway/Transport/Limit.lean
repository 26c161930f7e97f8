import DbMcpGateway.Async.Machine
import DbMcpGateway.Data.Indexed
import DbMcpGateway.Data.Table

/-!
# The concurrency limiter

`enforce` (transport/limit.rs) as a machine: any number of requests go through their global
permit, the locked section of the map of semaphores, their identity's permit, the handler, and
the release of both permits. A step of the machine is what runs without interruption.

A semaphore is an object that is shared by the map and the requests that have cloned it, so
semaphores are named by their position in a list and outlive their entry in the map. Permits
are released in the reverse order of their declaration, the identity's first, and so they are
when the task of a request is dropped at an await.

Results:

* `Inv.step`: the permits of every semaphore are in use or available.
* `limiter_bounded`: the map stays within its bound, and a semaphore in use stays in it.
* `identity_cap`: the cap of an identity, where no sweep takes a semaphore from a request that
  is about to acquire it.
* `global_share_iff`: the runs in which the global permits of an identity stay within its cap.
* `permits_returned`: no permit is lost.
-/

namespace DbMcpGateway.Transport

open Machine

/-! ## The model -/

/-- The sizes of a `ConcurrencyLimiter` (transport/limit.rs:52). -/
structure Limits where
  global : ℕ
  perIdentity : ℕ
  maxTracked : ℕ
  deriving DecidableEq

/-- `ConcurrencyLimiter::new` (transport/limit.rs:61). -/
def Limits.production : Limits := ⟨512, 16, 16384⟩

/-- The body of a rejection. -/
structure Limited where
  status : ℕ
  category : String
  code : String
  retryAfter : ℕ
  deriving DecidableEq

/-- `limited` (transport/limit.rs:157). -/
def limited (status : ℕ) (category code : String) : Limited := ⟨status, category, code, 1⟩

/-- How a request left `enforce`. -/
inductive Exit
  | rejected (response : Limited)
  | served
  /-- The task was dropped. -/
  | dropped
  deriving DecidableEq

/-- Where a request is in `enforce`. -/
inductive Phase
  | arrived
  /-- It has a global permit and waits for the map. -/
  | waiting
  /-- It has cloned a semaphore. -/
  | cloned (semaphore : ℕ)
  /-- Its handler runs, with a permit of a semaphore. -/
  | running (permit : Option ℕ)
  /-- It has its global permit only. -/
  | leaving (exit : Exit)
  | done (exit : Exit)
  deriving DecidableEq

/-- A request; `userSub` is that of the `Identity` in its extensions. -/
structure LimitRequest where
  userSub : Option String
  phase : Phase
  deriving DecidableEq

/-- An entry of the map. -/
structure Tracked where
  userSub : String
  semaphore : ℕ
  deriving DecidableEq

/-- `struct ConcurrencyLimiter` (transport/limit.rs:52), with the requests that go through it.
    `global` and `semaphores` are the permits that are available. -/
structure Limiter where
  global : ℕ
  perIdentity : Table Tracked.userSub
  semaphores : List ℕ
  requests : List LimitRequest

/-- `with_limits` (transport/limit.rs:76). -/
def Limiter.withLimits (limits : Limits) : Limiter := ⟨limits.global, .empty, [], []⟩

/-- A step of the request at a position. -/
inductive LimitAct
  | arrive (userSub : Option String)
  | tryGlobal (i : ℕ)
  /-- The locked section of `try_identity`. -/
  | lookup (i : ℕ)
  | tryAcquire (i : ℕ)
  /-- The handler is done. -/
  | finish (i : ℕ)
  /-- The task is dropped at an await. -/
  | drop (i : ℕ)
  | release (i : ℕ)
  deriving DecidableEq

section

variable (limits : Limits) (s : Limiter)

/-- The request at a position goes on. -/
def Limiter.goOn (i : ℕ) (userSub : Option String) (phase : Phase) : Limiter :=
  { s with requests := s.requests.set i ⟨userSub, phase⟩ }

/-- `try_global` (transport/limit.rs:86). -/
def Limiter.tryGlobal (i : ℕ) (userSub : Option String) : Limiter :=
  match s.global with
  | 0 =>
    s.goOn i userSub (.done (.rejected (limited 503 "overloaded" "service_overloaded")))
  | n + 1 =>
    { s.goOn i userSub (if userSub.isSome then .waiting else .running none) with global := n }

/-- The semaphore is in use: `available_permits() < per_identity_limit`. -/
def Limiter.inUse (e : Tracked) : Bool :=
  match s.semaphores[e.semaphore]? with
  | some available => available < limits.perIdentity
  | none => false

/-- The condition of the sweep. -/
def Limiter.sweeps (userSub : String) : Bool :=
  (s.perIdentity.get userSub).isNone && decide (limits.maxTracked ≤ s.perIdentity.rows.length)

/-- The map after the sweep. -/
def Limiter.swept (userSub : String) : Table Tracked.userSub :=
  if s.sweeps limits userSub then s.perIdentity.retain (s.inUse limits) else s.perIdentity

/-- The locked section of `try_identity` (transport/limit.rs:92). -/
def Limiter.lookup (i : ℕ) (userSub : String) : Limiter :=
  let map := s.swept limits userSub
  match map.get userSub with
  | some e => { s.goOn i (some userSub) (.cloned e.semaphore) with perIdentity := map }
  | none =>
    let new := s.semaphores.length
    { s.goOn i (some userSub) (.cloned new) with
      perIdentity := map.put ⟨userSub, new⟩
      semaphores := s.semaphores ++ [limits.perIdentity] }

/-- `try_acquire_owned` of the semaphore. -/
def Limiter.tryAcquire (i : ℕ) (userSub : Option String) (k : ℕ) : Limiter :=
  match s.semaphores.getD k 0 with
  | 0 =>
    s.goOn i userSub
      (.leaving (.rejected (limited 429 "rate_limited" "concurrency_limit_exceeded")))
  | n + 1 =>
    { s.goOn i userSub (.running (some k)) with semaphores := s.semaphores.set k n }

/-- The identity's permit is released. -/
def Limiter.leave (i : ℕ) (userSub : Option String) (permit : Option ℕ) (exit : Exit) : Limiter :=
  match permit with
  | none => s.goOn i userSub (.leaving exit)
  | some k =>
    { s.goOn i userSub (.leaving exit) with
      semaphores := s.semaphores.set k (s.semaphores.getD k 0 + 1) }

def Limiter.step : LimitAct → Option Limiter
  | .arrive userSub => some { s with requests := s.requests ++ [⟨userSub, .arrived⟩] }
  | .tryGlobal i =>
    match s.requests[i]? with
    | some ⟨userSub, .arrived⟩ => some (s.tryGlobal i userSub)
    | _ => none
  | .lookup i =>
    match s.requests[i]? with
    | some ⟨some userSub, .waiting⟩ => some (s.lookup limits i userSub)
    | _ => none
  | .tryAcquire i =>
    match s.requests[i]? with
    | some ⟨userSub, .cloned k⟩ => some (s.tryAcquire i userSub k)
    | _ => none
  | .finish i =>
    match s.requests[i]? with
    | some ⟨userSub, .running permit⟩ => some (s.leave i userSub permit .served)
    | _ => none
  | .drop i =>
    match s.requests[i]? with
    | some ⟨userSub, .arrived⟩ => some (s.goOn i userSub (.done .dropped))
    | some ⟨userSub, .waiting⟩ => some (s.goOn i userSub (.leaving .dropped))
    | some ⟨userSub, .running permit⟩ => some (s.leave i userSub permit .dropped)
    | _ => none
  | .release i =>
    match s.requests[i]? with
    | some ⟨userSub, .leaving exit⟩ =>
      some { s.goOn i userSub (.done exit) with global := s.global + 1 }
    | _ => none

end

/-! ## What a step can do -/

/-- The steps, with what they find. -/
inductive Moves (limits : Limits) (s : Limiter) : LimitAct → Limiter → Prop
  | arrive {userSub} :
      Moves limits s (.arrive userSub) { s with requests := s.requests ++ [⟨userSub, .arrived⟩] }
  | overloaded {i userSub exit} : s.requests[i]? = some ⟨userSub, .arrived⟩ → s.global = 0 →
      Moves limits s (.tryGlobal i) (s.goOn i userSub (.done exit))
  | accept {i n} {userSub : Option String} :
      s.requests[i]? = some ⟨userSub, .arrived⟩ → s.global = n + 1 →
      Moves limits s (.tryGlobal i)
        { s.goOn i userSub (if userSub.isSome then .waiting else .running none) with global := n }
  | found {i userSub} {e : Tracked} :
      s.requests[i]? = some ⟨some userSub, .waiting⟩ → s.perIdentity.get userSub = some e →
      Moves limits s (.lookup i) (s.goOn i (some userSub) (.cloned e.semaphore))
  | track {i userSub} :
      s.requests[i]? = some ⟨some userSub, .waiting⟩ → s.perIdentity.get userSub = none →
      Moves limits s (.lookup i)
        { s.goOn i (some userSub) (.cloned s.semaphores.length) with
          perIdentity := (s.swept limits userSub).put ⟨userSub, s.semaphores.length⟩
          semaphores := s.semaphores ++ [limits.perIdentity] }
  | refused {i k userSub exit} :
      s.requests[i]? = some ⟨userSub, .cloned k⟩ → s.semaphores.getD k 0 = 0 →
      Moves limits s (.tryAcquire i) (s.goOn i userSub (.leaving exit))
  | acquire {i k n userSub} :
      s.requests[i]? = some ⟨userSub, .cloned k⟩ → s.semaphores[k]? = some (n + 1) →
      Moves limits s (.tryAcquire i)
        { s.goOn i userSub (.running (some k)) with semaphores := s.semaphores.set k n }
  | leave {a i userSub permit exit} : s.requests[i]? = some ⟨userSub, .running permit⟩ →
      Moves limits s a (s.leave i userSub permit exit)
  | gone {i userSub} : s.requests[i]? = some ⟨userSub, .arrived⟩ →
      Moves limits s (.drop i) (s.goOn i userSub (.done .dropped))
  | giveUp {i userSub} : s.requests[i]? = some ⟨userSub, .waiting⟩ →
      Moves limits s (.drop i) (s.goOn i userSub (.leaving .dropped))
  | release {i userSub exit} : s.requests[i]? = some ⟨userSub, .leaving exit⟩ →
      Moves limits s (.release i)
        { s.goOn i userSub (.done exit) with global := s.global + 1 }

section

variable {limits : Limits} {s s' : Limiter} {a : LimitAct}

theorem moves_tryGlobal {i : ℕ} {userSub} (hi : s.requests[i]? = some ⟨userSub, .arrived⟩) :
    Moves limits s (.tryGlobal i) (s.tryGlobal i userSub) := by
  unfold Limiter.tryGlobal
  split
  · exact .overloaded hi ‹_›
  · exact .accept hi ‹_›

theorem moves_lookup {i : ℕ} {userSub : String}
    (hi : s.requests[i]? = some ⟨some userSub, .waiting⟩) :
    Moves limits s (.lookup i) (s.lookup limits i userSub) := by
  cases hget : s.perIdentity.get userSub with
  | some e =>
    have hswept : s.swept limits userSub = s.perIdentity := by
      simp [Limiter.swept, Limiter.sweeps, hget]
    simp only [Limiter.lookup, hswept, hget]
    exact .found hi hget
  | none =>
    have hswept : (s.swept limits userSub).get userSub = none := by
      unfold Limiter.swept
      split_ifs
      · rw [Table.get_retain, hget]
        rfl
      · exact hget
    simp only [Limiter.lookup, hswept]
    exact .track hi hget

theorem moves_tryAcquire {i k : ℕ} {userSub} (hi : s.requests[i]? = some ⟨userSub, .cloned k⟩) :
    Moves limits s (.tryAcquire i) (s.tryAcquire i userSub k) := by
  unfold Limiter.tryAcquire
  split
  · exact .refused hi ‹_›
  · rename_i n hn
    refine .acquire hi ?_
    rw [List.getD_eq_getElem?_getD] at hn
    cases hk : s.semaphores[k]? with
    | none => simp [hk] at hn
    | some m =>
      rw [hk, Option.getD_some] at hn
      rw [hn]

theorem step_moves (h : s.step limits a = some s') : Moves limits s a s' := by
  cases a with
  | arrive userSub =>
    cases h
    exact .arrive
  | tryGlobal i =>
    rw [Limiter.step] at h
    split at h
    · cases h
      exact moves_tryGlobal ‹_›
    · cases h
  | lookup i =>
    rw [Limiter.step] at h
    split at h
    · cases h
      exact moves_lookup ‹_›
    · cases h
  | tryAcquire i =>
    rw [Limiter.step] at h
    split at h
    · cases h
      exact moves_tryAcquire ‹_›
    · cases h
  | finish i =>
    rw [Limiter.step] at h
    split at h
    · cases h
      exact .leave ‹_›
    · cases h
  | drop i =>
    rw [Limiter.step] at h
    split at h
    · cases h
      exact .gone ‹_›
    · cases h
      exact .giveUp ‹_›
    · cases h
      exact .leave ‹_›
    · cases h
  | release i =>
    rw [Limiter.step] at h
    split at h
    · cases h
      exact .release ‹_›
    · cases h

end

/-! ## Permits -/

def LimitRequest.holdsGlobal (r : LimitRequest) : Bool :=
  match r.phase with
  | .waiting | .cloned _ | .running _ | .leaving _ => true
  | .arrived | .done _ => false

def LimitRequest.permit (r : LimitRequest) : Option ℕ :=
  match r.phase with
  | .running permit => permit
  | _ => none

def LimitRequest.semaphore (r : LimitRequest) : Option ℕ :=
  match r.phase with
  | .cloned k => some k
  | .running permit => permit
  | _ => none

theorem LimitRequest.semaphore_of_permit {r : LimitRequest} {k : ℕ} (h : r.permit = some k) :
    r.semaphore = some k := by
  obtain ⟨userSub, phase⟩ := r
  cases phase with
  | running permit => exact h
  | _ => cases h

theorem LimitRequest.holdsGlobal_of_permit {r : LimitRequest} (h : r.permit.isSome = true) :
    r.holdsGlobal = true := by
  obtain ⟨userSub, phase⟩ := r
  cases phase with
  | running permit => rfl
  | _ => cases h

/-- The permits of a semaphore that are in use. -/
def Limiter.used (s : Limiter) (k : ℕ) : ℕ := s.requests.countP fun r => r.permit = some k

/-- Every permit is in use or available, and the map names distinct semaphores. -/
structure Inv (limits : Limits) (s : Limiter) : Prop where
  global : s.global + s.requests.countP LimitRequest.holdsGlobal = limits.global
  permits : ∀ k n, s.semaphores[k]? = some n → n + s.used k = limits.perIdentity
  distinct : (s.perIdentity.rows.map Tracked.semaphore).Nodup
  known : ∀ e ∈ s.perIdentity.rows, e.semaphore < s.semaphores.length
  refers : ∀ r ∈ s.requests, ∀ k, r.semaphore = some k → k < s.semaphores.length
  /-- Only requests without an identity run without a permit of their own. -/
  identified : ∀ r ∈ s.requests, r.phase = .running none → r.userSub = none

section

variable {limits : Limits} {s s' : Limiter} {a : LimitAct} {i : ℕ} {r : LimitRequest}
  {userSub : Option String} {phase : Phase}

theorem inv_withLimits (limits : Limits) : Inv limits (.withLimits limits) where
  global := rfl
  permits := by simp [Limiter.withLimits]
  distinct := List.nodup_nil
  known := by simp [Limiter.withLimits, Table.empty]
  refers := by simp [Limiter.withLimits]
  identified := by simp [Limiter.withLimits]

theorem used_goOn (hi : s.requests[i]? = some r) (userSub : Option String) (phase : Phase) (k : ℕ) :
    (s.goOn i userSub phase).used k + (if r.permit = some k then 1 else 0) =
      s.used k + (if (LimitRequest.mk userSub phase).permit = some k then 1 else 0) := by
  have h := Indexed.countP_set (y := ⟨userSub, phase⟩) (fun r : LimitRequest => r.permit = some k) hi
  simp only [decide_eq_true_eq] at h
  exact h

theorem countP_goOn (hi : s.requests[i]? = some r) (userSub : Option String) (phase : Phase)
    (p : LimitRequest → Bool) :
    (s.goOn i userSub phase).requests.countP p + (if p r = true then 1 else 0) =
      s.requests.countP p + (if p ⟨userSub, phase⟩ = true then 1 else 0) :=
  Indexed.countP_set p hi

theorem refers_goOn {length : ℕ} (h : ∀ r ∈ s.requests, ∀ k, r.semaphore = some k → k < length)
    (hnew : ∀ k, (LimitRequest.mk userSub phase).semaphore = some k → k < length) :
    ∀ r ∈ (s.goOn i userSub phase).requests, ∀ k, r.semaphore = some k → k < length := by
  intro r hr
  rcases Indexed.mem_set_cases hr with rfl | hr
  · exact hnew
  · exact h r hr

theorem identified_goOn (h : ∀ r ∈ s.requests, r.phase = .running none → r.userSub = none)
    (hnew : phase = .running none → userSub = none) :
    ∀ r ∈ (s.goOn i userSub phase).requests, r.phase = .running none → r.userSub = none := by
  intro r hr
  rcases Indexed.mem_set_cases hr with rfl | hr
  · exact hnew
  · exact h r hr

theorem Inv.goOnWith (h : Inv limits s) {global : ℕ} (hi : s.requests[i]? = some r)
    (hglobal : global + (if (LimitRequest.mk userSub phase).holdsGlobal = true then 1 else 0) =
      s.global + (if r.holdsGlobal = true then 1 else 0))
    (hpermit : (LimitRequest.mk userSub phase).permit = r.permit)
    (hrefers : ∀ k, (LimitRequest.mk userSub phase).semaphore = some k → k < s.semaphores.length)
    (hidentified : phase = .running none → userSub = none) :
    Inv limits { s.goOn i userSub phase with global := global } where
  global := by
    have hcount := countP_goOn hi userSub phase LimitRequest.holdsGlobal
    have hkept := h.global
    change global + (s.goOn i userSub phase).requests.countP LimitRequest.holdsGlobal = _
    omega
  permits k n hk := by
    have hcount := used_goOn hi userSub phase k
    rw [hpermit, Nat.add_right_cancel_iff] at hcount
    change n + (s.goOn i userSub phase).used k = _
    rw [hcount]
    exact h.permits k n hk
  distinct := h.distinct
  known := h.known
  refers := refers_goOn h.refers hrefers
  identified := identified_goOn h.identified hidentified

theorem Inv.goOn (h : Inv limits s) (hi : s.requests[i]? = some r)
    (hglobal : (LimitRequest.mk userSub phase).holdsGlobal = r.holdsGlobal)
    (hpermit : (LimitRequest.mk userSub phase).permit = r.permit)
    (hrefers : ∀ k, (LimitRequest.mk userSub phase).semaphore = some k → k < s.semaphores.length)
    (hidentified : phase = .running none → userSub = none) :
    Inv limits (s.goOn i userSub phase) :=
  h.goOnWith hi (by rw [hglobal]) hpermit hrefers hidentified

/-- A semaphore that is not there yet is not in use. -/
theorem Inv.used_new (h : Inv limits s) : s.used s.semaphores.length = 0 := by
  rw [Limiter.used, List.countP_eq_zero]
  intro r hr hpermit
  rw [decide_eq_true_eq] at hpermit
  have hlt := h.refers r hr _ (LimitRequest.semaphore_of_permit hpermit)
  omega

/-- The map after the sweep is a part of the map. -/
theorem swept_sublist (limits : Limits) (s : Limiter) (userSub : String) :
    (s.swept limits userSub).rows.Sublist s.perIdentity.rows := by
  unfold Limiter.swept
  split_ifs
  · exact List.filter_sublist
  · exact List.Sublist.refl _

theorem swept_get_none {userSub : String} (h : s.perIdentity.get userSub = none) :
    (s.swept limits userSub).get userSub = none := by
  rw [Table.get_eq_none] at h ⊢
  exact fun e he => h e ((swept_sublist limits s userSub).subset he)

theorem Inv.track (h : Inv limits s) {userSub : String}
    (hi : s.requests[i]? = some ⟨some userSub, .waiting⟩) (hget : s.perIdentity.get userSub = none) :
    Inv limits { s.goOn i (some userSub) (.cloned s.semaphores.length) with
      perIdentity := (s.swept limits userSub).put ⟨userSub, s.semaphores.length⟩
      semaphores := s.semaphores ++ [limits.perIdentity] } := by
  have hsub := swept_sublist limits s userSub
  have hrows : ((s.swept limits userSub).put ⟨userSub, s.semaphores.length⟩).rows =
      (s.swept limits userSub).rows ++ [⟨userSub, s.semaphores.length⟩] :=
    Table.rows_put_of_none (swept_get_none hget)
  have hlength : (s.semaphores ++ [limits.perIdentity]).length = s.semaphores.length + 1 := by simp
  refine ⟨?_, ?_, ?_, ?_, ?_, ?_⟩
  · have hcount := countP_goOn hi (some userSub) (.cloned s.semaphores.length)
      LimitRequest.holdsGlobal
    change _ + 1 = _ + 1 at hcount
    rw [Nat.add_right_cancel hcount]
    exact h.global
  · intro k n hk
    have hcount := used_goOn hi (some userSub) (.cloned s.semaphores.length) k
    simp only [LimitRequest.permit, reduceCtorEq, if_false, Nat.add_zero] at hcount
    change n + (s.goOn i (some userSub) (.cloned s.semaphores.length)).used k = _
    rw [hcount]
    rw [Indexed.getElem?_concat] at hk
    split_ifs at hk with heq
    · cases hk
      rw [heq, h.used_new, Nat.add_zero]
    · exact h.permits k n hk
  · rw [hrows, List.map_append, List.nodup_append]
    refine ⟨h.distinct.sublist (hsub.map _), List.nodup_singleton _, ?_⟩
    intro k hk k' hk' heq
    obtain ⟨e, he, rfl⟩ := List.mem_map.mp hk
    have hlt := h.known e (hsub.subset he)
    rw [heq, List.mem_singleton.mp hk'] at hlt
    exact absurd hlt (lt_irrefl _)
  · intro e he
    rw [hlength]
    rw [hrows] at he
    rcases Indexed.mem_concat_cases he with rfl | he
    · exact Nat.lt_succ_self _
    · exact Nat.lt_succ_of_lt (h.known e (hsub.subset he))
  · rw [hlength]
    refine refers_goOn (fun r hr k hk => Nat.lt_succ_of_lt (h.refers r hr k hk)) ?_
    rintro k ⟨⟩
    exact Nat.lt_succ_self _
  · exact identified_goOn h.identified nofun

/-- A permit is taken or given back: `n` permits of the semaphore are available after it. -/
theorem Inv.exchange (h : Inv limits s) {k n m : ℕ} (hi : s.requests[i]? = some r)
    (hk : s.semaphores[k]? = some m)
    (hglobal : (LimitRequest.mk userSub phase).holdsGlobal = r.holdsGlobal)
    (hothers : ∀ j, j ≠ k → ((LimitRequest.mk userSub phase).permit = some j ↔ r.permit = some j))
    (hbalance : n + (if (LimitRequest.mk userSub phase).permit = some k then 1 else 0) =
      m + (if r.permit = some k then 1 else 0))
    (hrefers : ∀ k, (LimitRequest.mk userSub phase).semaphore = some k → k < s.semaphores.length)
    (hidentified : phase = .running none → userSub = none) :
    Inv limits { s.goOn i userSub phase with semaphores := s.semaphores.set k n } where
  global := by
    have hcount := countP_goOn hi userSub phase LimitRequest.holdsGlobal
    rw [hglobal, Nat.add_right_cancel_iff] at hcount
    rw [hcount]
    exact h.global
  permits j n' hj := by
    have hcount := used_goOn hi userSub phase j
    change n' + (s.goOn i userSub phase).used j = _
    change (s.semaphores.set k n)[j]? = some n' at hj
    rw [Indexed.getElem?_set_of_some hk] at hj
    split_ifs at hj with hjk
    · cases hj
      subst hjk
      have hpermits := h.permits j m hk
      omega
    · have hpermits := h.permits j n' hj
      simp only [hothers j hjk] at hcount
      omega
  distinct := h.distinct
  known e he := by
    rw [List.length_set]
    exact h.known e he
  refers := by
    rw [List.length_set]
    exact refers_goOn h.refers hrefers
  identified := identified_goOn h.identified hidentified

/-- **Permits are kept**: a step leaves every permit in use or available. -/
theorem Inv.step (h : Inv limits s) (hstep : s.step limits a = some s') : Inv limits s' := by
  have hlength : ∀ {k n : ℕ}, s.semaphores[k]? = some n → k < s.semaphores.length :=
    fun hk => (List.getElem?_eq_some_iff.mp hk).1
  cases step_moves hstep with
  | @arrive userSub =>
    have hcount : ∀ p : LimitRequest → Bool, p ⟨userSub, .arrived⟩ = false →
        (s.requests ++ [LimitRequest.mk userSub .arrived]).countP p = s.requests.countP p := by
      intro p hp
      rw [Indexed.countP_concat, hp]
      rfl
    have hmem : ∀ {r : LimitRequest}, r ∈ s.requests ++ [⟨userSub, .arrived⟩] →
        r = ⟨userSub, .arrived⟩ ∨ r ∈ s.requests := Indexed.mem_concat_cases
    refine ⟨?_, ?_, h.distinct, h.known, ?_, ?_⟩
    · rw [hcount _ rfl]
      exact h.global
    · intro k n hk
      rw [Limiter.used, hcount _ (by simp [LimitRequest.permit])]
      exact h.permits k n hk
    · intro r hr k hk
      rcases hmem hr with rfl | hr
      · cases hk
      · exact h.refers r hr k hk
    · intro r hr hphase
      rcases hmem hr with rfl | hr
      · cases hphase
      · exact h.identified r hr hphase
  | overloaded hi | refused hi | gone hi | giveUp hi => exact h.goOn hi rfl rfl nofun nofun
  | @accept i n userSub hi hglobal =>
    refine h.goOnWith hi ?_ ?_ ?_ ?_
    · cases userSub <;> simp [LimitRequest.holdsGlobal, hglobal]
    · cases userSub <;> rfl
    · cases userSub <;> exact nofun
    · cases userSub
      · exact fun _ => rfl
      · exact nofun
  | found hi hget =>
    refine h.goOn hi rfl rfl ?_ nofun
    rintro k ⟨⟩
    exact h.known _ (Table.mem_of_get hget)
  | track hi hget => exact h.track hi hget
  | @acquire i k n userSub hi hk =>
    refine h.exchange hi hk rfl ?_ ?_ ?_ nofun
    · intro j hj
      simp [LimitRequest.permit, Ne.symm hj]
    · simp [LimitRequest.permit]
    · rintro k ⟨⟩
      exact hlength hk
  | @leave _ i userSub permit exit hi =>
    cases permit with
    | none => exact h.goOn hi rfl rfl nofun nofun
    | some k =>
      have hmem := List.mem_of_getElem? hi
      have hlt := h.refers _ hmem k rfl
      have hk : s.semaphores[k]? = some (s.semaphores.getD k 0) := by
        rw [List.getD_eq_getElem?_getD, List.getElem?_eq_getElem hlt]
        rfl
      refine h.exchange hi hk rfl ?_ ?_ nofun nofun
      · intro j hj
        simp [LimitRequest.permit, Ne.symm hj]
      · simp [LimitRequest.permit]
  | release hi => exact h.goOnWith hi rfl rfl nofun nofun

theorem inv_of_run {as}
    (hrun : run (Limiter.step limits) (.withLimits limits) as = some s) : Inv limits s :=
  run_invariant (P := Inv limits) (fun _ _ _ h _ hstep => h.step hstep) (meets_true _ _) hrun
    (inv_withLimits limits)

end

/-! ## The bound of the map -/

section

variable {limits : Limits} {s s' : Limiter} {a : LimitAct} {as : List LimitAct}

theorem Inv.inUse_iff (h : Inv limits s) {e : Tracked} (he : e ∈ s.perIdentity.rows) :
    s.inUse limits e = true ↔ ∃ r ∈ s.requests, r.permit = some e.semaphore := by
  have hk := List.getElem?_eq_getElem (h.known e he)
  have hpermits := h.permits _ _ hk
  have hused : 0 < s.used e.semaphore ↔ ∃ r ∈ s.requests, r.permit = some e.semaphore := by
    simp [Limiter.used, List.countP_pos_iff]
  rw [← hused, Limiter.inUse, hk]
  simp only [decide_eq_true_eq]
  omega

/-- The tracked semaphores in use are fewer than the global permits in use: one is held by the
    request that sweeps. -/
theorem Inv.length_inUse_lt (h : Inv limits s) {i : ℕ} {userSub : String}
    (hi : s.requests[i]? = some ⟨some userSub, .waiting⟩) :
    (s.perIdentity.retain (s.inUse limits)).rows.length < limits.global := by
  have hsub : (s.perIdentity.retain (s.inUse limits)).rows.Sublist s.perIdentity.rows :=
    List.filter_sublist
  have hlength : (s.perIdentity.retain (s.inUse limits)).rows.length ≤
      s.requests.countP fun r => r.permit.isSome := by
    rw [← List.length_map Tracked.semaphore]
    refine Indexed.length_le_of_labels (h.distinct.sublist (hsub.map _)) ?_
    intro k hk
    obtain ⟨e, he, rfl⟩ := List.mem_map.mp hk
    obtain ⟨he, hinUse⟩ := Table.mem_retain.mp he
    exact (h.inUse_iff he).mp hinUse
  -- the request that waits has a global permit and none of a semaphore
  have hpermits := countP_goOn hi (some userSub) .arrived fun r => r.permit.isSome
  have hglobals := countP_goOn hi (some userSub) .arrived LimitRequest.holdsGlobal
  have hmono : (s.goOn i (some userSub) .arrived).requests.countP (fun r => r.permit.isSome) ≤
      (s.goOn i (some userSub) .arrived).requests.countP LimitRequest.holdsGlobal :=
    List.countP_mono_left fun r _ hr => LimitRequest.holdsGlobal_of_permit hr
  have hkept := h.global
  change _ + 0 = _ + 0 at hpermits
  change _ + 1 = _ + 0 at hglobals
  omega

theorem step_tracked (h : Inv limits s) (hcap : limits.global ≤ limits.maxTracked)
    (hbound : s.perIdentity.rows.length ≤ limits.maxTracked) (hstep : s.step limits a = some s') :
    s'.perIdentity.rows.length ≤ limits.maxTracked := by
  cases step_moves hstep with
  | @track i userSub hi hget =>
    have hrows : ((s.swept limits userSub).put ⟨userSub, s.semaphores.length⟩).rows =
        (s.swept limits userSub).rows ++ [⟨userSub, s.semaphores.length⟩] :=
      Table.rows_put_of_none (swept_get_none hget)
    change ((s.swept limits userSub).put _).rows.length ≤ _
    rw [hrows, List.length_append, List.length_singleton, Limiter.swept]
    split_ifs with hsweeps
    · have hlt := h.length_inUse_lt hi
      omega
    · simp only [Limiter.sweeps, hget, Option.isNone_none, Bool.true_and,
        decide_eq_true_eq] at hsweeps
      omega
  | @leave _ _ _ permit _ _ => cases permit <;> exact hbound
  | _ => exact hbound

theorem step_keeps (h : Inv limits s) (hstep : s.step limits a = some s') {e : Tracked}
    (he : e ∈ s.perIdentity.rows) (hused : ∃ r ∈ s.requests, r.permit = some e.semaphore) :
    e ∈ s'.perIdentity.rows := by
  cases step_moves hstep with
  | @track i userSub hi hget =>
    have hne := Table.get_eq_none.mp hget e he
    refine Table.mem_put.mpr (.inr ⟨?_, hne⟩)
    rw [Limiter.swept]
    split_ifs
    · exact Table.mem_retain.mpr ⟨he, (h.inUse_iff he).mpr hused⟩
    · exact he
  | @leave _ _ _ permit _ _ => cases permit <;> exact he
  | _ => exact he

/-- **The map of a limiter is bounded**: with no more global permits than tracked identities,
    at every moment of every run the map is within its bound, and no step removes a semaphore
    of which a request has a permit. -/
theorem limiter_bounded (hcap : limits.global ≤ limits.maxTracked)
    (hrun : run (Limiter.step limits) (.withLimits limits) as = some s) :
    s.perIdentity.rows.length ≤ limits.maxTracked ∧
    ∀ a s', s.step limits a = some s' → ∀ e ∈ s.perIdentity.rows,
      (∃ r ∈ s.requests, r.permit = some e.semaphore) → e ∈ s'.perIdentity.rows := by
  refine ⟨?_, fun a s' hstep e he hused => step_keeps (inv_of_run hrun) hstep he hused⟩
  refine (run_invariant (P := fun s => Inv limits s ∧ s.perIdentity.rows.length ≤ limits.maxTracked)
    (fun s a s' h _ hstep => ?_) (meets_true _ _) hrun ⟨inv_withLimits limits, Nat.zero_le _⟩).2
  exact ⟨h.1.step hstep, step_tracked h.1 hcap h.2 hstep⟩

end

/-- The steps of a request up to its handler. -/
def enters (i : ℕ) : List LimitAct := [.tryGlobal i, .lookup i, .tryAcquire i]

/-- A limiter with one permit per identity. -/
def small : Limits := ⟨2, 1, 2⟩

/-- Bob's request sweeps the idle semaphore of alice and keeps that of carol, who runs. -/
def crowded : List LimitAct :=
  [.arrive (some "alice"), .arrive (some "carol"), .arrive (some "bob")] ++ enters 0 ++
    [.finish 0, .release 0] ++ enters 1 ++ enters 2

theorem limiter_bounded_crowded :
    (∃ s, run (Limiter.step small) (.withLimits small) crowded = some s ∧
      s.perIdentity.rows = [⟨"carol", 1⟩, ⟨"bob", 2⟩] ∧ s.perIdentity.rows.length ≤ 2) ∧
    ∀ as s, run (Limiter.step .production) (.withLimits .production) as = some s →
      s.perIdentity.rows.length ≤ 16384 := by
  have hrows : (run (Limiter.step small) (.withLimits small) crowded).map
      (fun s => s.perIdentity.rows) = some [⟨"carol", 1⟩, ⟨"bob", 2⟩] := by
    decide +kernel
  obtain ⟨s, hrun, hs⟩ := Option.map_eq_some_iff.mp hrows
  exact ⟨⟨s, hrun, hs, (limiter_bounded (by decide) hrun).1⟩,
    fun as s hrun => (limiter_bounded (by decide) hrun).1⟩

/-! ## The cap of an identity -/

def LimitRequest.isRunning (r : LimitRequest) : Bool :=
  match r.phase with
  | .running _ => true
  | _ => false

/-- The requests of an identity that are past `enforce`. -/
def Limiter.running (s : Limiter) (userSub : String) : ℕ :=
  s.requests.countP fun r => r.userSub = some userSub && r.isRunning

/-- No request has cloned a semaphore that the step sweeps. -/
def calmSweep (limits : Limits) (s : Limiter) : LimitAct → Bool
  | .lookup i =>
    match s.requests[i]? with
    | some ⟨some userSub, .waiting⟩ =>
      !s.sweeps limits userSub || s.perIdentity.rows.all fun e =>
        s.inUse limits e || s.requests.all fun r => decide (r.phase ≠ .cloned e.semaphore)
    | _ => true
  | _ => true

/-- The semaphore that a request of an identity has is the one that is tracked for it. -/
def Tied (s : Limiter) : Prop :=
  ∀ r ∈ s.requests, ∀ userSub k, r.userSub = some userSub → r.semaphore = some k →
    (⟨userSub, k⟩ : Tracked) ∈ s.perIdentity.rows

section

variable {limits : Limits} {s s' : Limiter} {a : LimitAct} {as : List LimitAct} {userSub : String}

theorem Tied.goOn (h : Tied s) {i : ℕ} {userSub} {phase : Phase}
    (hnew : ∀ u k, userSub = some u → (LimitRequest.mk userSub phase).semaphore = some k →
      (⟨u, k⟩ : Tracked) ∈ s.perIdentity.rows) : Tied (s.goOn i userSub phase) := by
  intro r hr
  rcases Indexed.mem_set_cases hr with rfl | hr
  · exact hnew
  · exact h r hr

theorem Tied.leave (h : Tied s) {i : ℕ} {userSub permit} {exit : Exit} :
    Tied (s.leave i userSub permit exit) := by
  have hgoOn : Tied (s.goOn i userSub (.leaving exit)) := h.goOn nofun
  cases permit <;> exact hgoOn

theorem mem_swept (hinv : Inv limits s) (htied : Tied s) {i : ℕ} {u : String}
    (hi : s.requests[i]? = some ⟨some u, .waiting⟩) (hcalm : calmSweep limits s (.lookup i) = true)
    {r : LimitRequest} (hr : r ∈ s.requests) {v : String} {k : ℕ} (hv : r.userSub = some v)
    (hk : r.semaphore = some k) : (⟨v, k⟩ : Tracked) ∈ (s.swept limits u).rows := by
  have hmem := htied r hr v k hv hk
  rw [Limiter.swept]
  split_ifs with hsweeps
  · refine Table.mem_retain.mpr ⟨hmem, ?_⟩
    simp only [calmSweep, hi, hsweeps, Bool.not_true, Bool.false_or, List.all_eq_true,
      Bool.or_eq_true, decide_eq_true_eq] at hcalm
    rcases hcalm _ hmem with hinUse | hnone
    · exact hinUse
    · -- it has not only cloned the semaphore, so it has a permit
      refine (hinv.inUse_iff hmem).mpr ⟨r, hr, ?_⟩
      have hphase := hnone r hr
      obtain ⟨sub, phase⟩ := r
      cases phase with
      | cloned k' =>
        cases hk
        exact absurd rfl hphase
      | running permit => exact hk
      | _ => cases hk
  · exact hmem

theorem Tied.step (hinv : Inv limits s) (h : Tied s) (hcalm : calmSweep limits s a = true)
    (hstep : s.step limits a = some s') : Tied s' := by
  cases step_moves hstep with
  | @arrive userSub =>
    intro r hr
    rcases Indexed.mem_concat_cases hr with rfl | hr
    · exact nofun
    · exact h r hr
  | overloaded | refused | gone | giveUp => exact h.goOn nofun
  | @accept i n userSub hi =>
    have hgoOn : Tied (s.goOn i userSub (if userSub.isSome then .waiting else .running none)) := by
      refine h.goOn ?_
      cases userSub <;> exact nofun
    exact hgoOn
  | @found i userSub e hi hget =>
    refine h.goOn ?_
    rintro u k ⟨⟩ ⟨⟩
    obtain ⟨hmem, rfl⟩ := Table.get_eq_some.mp hget
    exact hmem
  | @track i userSub hi hget =>
    intro r hr v k hv hk
    refine Table.mem_put.mpr ?_
    rcases Indexed.mem_set_cases hr with rfl | hr
    · cases hv
      cases hk
      exact .inl rfl
    · have hmem := mem_swept hinv h hi hcalm hr hv hk
      exact .inr ⟨hmem, Table.get_eq_none.mp (swept_get_none hget) _ hmem⟩
  | @acquire i k n userSub hi hk =>
    have hgoOn : Tied (s.goOn i userSub (.running (some k))) := by
      refine h.goOn ?_
      rintro u k' rfl ⟨⟩
      exact h _ (List.mem_of_getElem? hi) u k rfl rfl
    exact hgoOn
  | leave => exact h.leave
  | @release i userSub exit hi =>
    have hgoOn : Tied (s.goOn i userSub (.done exit)) := h.goOn nofun
    exact hgoOn

theorem Tied.permit (hinv : Inv limits s) (h : Tied s) {r : LimitRequest} (hr : r ∈ s.requests)
    (hrunning : (r.userSub = some userSub && r.isRunning) = true) :
    ∃ e, s.perIdentity.get userSub = some e ∧ r.permit = some e.semaphore := by
  rw [Bool.and_eq_true, decide_eq_true_eq] at hrunning
  obtain ⟨hsub, hphase⟩ := hrunning
  obtain ⟨k, hk⟩ : ∃ k, r.phase = .running (some k) := by
    unfold LimitRequest.isRunning at hphase
    split at hphase
    · rename_i permit hphase
      cases permit with
      | none => rw [hinv.identified r hr hphase] at hsub; cases hsub
      | some k => exact ⟨k, hphase⟩
    · cases hphase
  have hsemaphore : r.semaphore = some k := by rw [LimitRequest.semaphore, hk]
  refine ⟨⟨userSub, k⟩, ?_, by rw [LimitRequest.permit, hk]⟩
  exact Table.get_eq_some.mpr ⟨h r hr userSub k hsub hsemaphore, rfl⟩

/-- The requests of an identity that run have permits of one semaphore. -/
theorem Tied.running_le (hinv : Inv limits s) (h : Tied s) (userSub : String) :
    s.running userSub ≤ limits.perIdentity := by
  cases hget : s.perIdentity.get userSub with
  | none =>
    have hzero : s.running userSub = 0 := by
      refine List.countP_eq_zero.mpr fun r hr hrunning => ?_
      obtain ⟨e, he, -⟩ := h.permit hinv hr hrunning
      rw [hget] at he
      cases he
    omega
  | some e =>
    have hle : s.running userSub ≤ s.used e.semaphore := by
      refine List.countP_mono_left fun r hr hrunning => ?_
      obtain ⟨e', he', hpermit⟩ := h.permit hinv hr hrunning
      cases hget.symm.trans he'
      exact decide_eq_true hpermit
    have hlt := hinv.known e (Table.mem_of_get hget)
    have hpermits := hinv.permits _ _ (List.getElem?_eq_getElem hlt)
    omega

theorem tied_of_run (hcalm : Meets (Limiter.step limits) (fun s a => calmSweep limits s a = true)
      (.withLimits limits) as)
    (hrun : run (Limiter.step limits) (.withLimits limits) as = some s) : Tied s := by
  refine (run_invariant (P := fun s => Inv limits s ∧ Tied s) (fun s a s' h hcalm hstep => ?_) hcalm
    hrun ⟨inv_withLimits limits, nofun⟩).2
  exact ⟨h.1.step hstep, h.2.step h.1 hcalm hstep⟩

/-- **The cap of an identity**: if no sweep takes a semaphore from a request that is about to
    acquire it, at every moment at most `perIdentity` requests of an identity run. -/
theorem identity_cap (hcalm : Meets (Limiter.step limits) (fun s a => calmSweep limits s a = true)
      (.withLimits limits) as)
    (hrun : run (Limiter.step limits) (.withLimits limits) as = some s) (userSub : String) :
    s.running userSub ≤ limits.perIdentity :=
  (tied_of_run hcalm hrun).running_le (inv_of_run hrun) userSub

end

theorem identity_cap_crowded :
    ∃ s, run (Limiter.step small) (.withLimits small) crowded = some s ∧
      s.running "bob" = 1 ∧ s.running "bob" ≤ small.perIdentity := by
  have hrunning : (run (Limiter.step small) (.withLimits small) crowded).map
      (fun s => s.running "bob") = some 1 := by
    decide +kernel
  obtain ⟨s, hrun, hs⟩ := Option.map_eq_some_iff.mp hrunning
  have hcalm : Meets (Limiter.step small) (fun s a => calmSweep small s a = true)
      (.withLimits small) crowded := meets_of_checks (by decide +kernel)
  exact ⟨s, hrun, hs, identity_cap hcalm hrun "bob"⟩

/-- Alice's request has cloned its semaphore when a request of bob sweeps it; her second
    request creates another one. -/
def sweptAway : List LimitAct :=
  [.arrive (some "alice"), .arrive (some "bob"), .arrive (some "alice"), .tryGlobal 0, .tryGlobal 1,
    .tryGlobal 2, .lookup 0, .lookup 1, .lookup 2, .tryAcquire 0, .tryAcquire 2]

theorem identity_cap_exceeded :
    ∃ s, run (Limiter.step ⟨3, 1, 1⟩) (.withLimits ⟨3, 1, 1⟩) sweptAway = some s ∧
      ¬ s.running "alice" ≤ 1 := by
  have hrunning : (run (Limiter.step ⟨3, 1, 1⟩) (.withLimits ⟨3, 1, 1⟩) sweptAway).map
      (fun s => s.running "alice") = some 2 := by
    decide +kernel
  obtain ⟨s, hrun, hs⟩ := Option.map_eq_some_iff.mp hrunning
  exact ⟨s, hrun, by rw [hs]; decide⟩

/-! ## The global permits of an identity -/

/-- The global permits held on behalf of an identity. -/
def Limiter.held (s : Limiter) (userSub : String) : ℕ :=
  s.requests.countP fun r => r.userSub = some userSub && r.holdsGlobal

/-- A request of the identity takes a global permit only while fewer than `perIdentity` of its
    requests have one. -/
def spaced (limits : Limits) (userSub : String) (s : Limiter) : LimitAct → Bool
  | .tryGlobal i =>
    s.requests[i]? != some ⟨some userSub, .arrived⟩ || s.global == 0 ||
      decide (s.held userSub < limits.perIdentity)
  | _ => true

section

variable {limits : Limits} {s s' : Limiter} {a : LimitAct} {i : ℕ} {userSub : Option String}
  {phase phase₀ : Phase} {u : String}

theorem held_goOn (hi : s.requests[i]? = some ⟨userSub, phase₀⟩) (u : String) (phase : Phase) :
    (s.goOn i userSub phase).held u +
        (if userSub = some u ∧ (LimitRequest.mk userSub phase₀).holdsGlobal = true then 1 else 0) =
      s.held u +
        (if userSub = some u ∧ (LimitRequest.mk userSub phase).holdsGlobal = true then 1 else 0) := by
  have hcount := countP_goOn hi userSub phase fun r => r.userSub = some u && r.holdsGlobal
  simp only [Bool.and_eq_true, decide_eq_true_eq] at hcount
  exact hcount

theorem held_goOn_le (hi : s.requests[i]? = some ⟨userSub, phase₀⟩)
    (h : (LimitRequest.mk userSub phase).holdsGlobal = true →
      (LimitRequest.mk userSub phase₀).holdsGlobal = true) :
    (s.goOn i userSub phase).held u ≤ s.held u := by
  have hcount := held_goOn hi u phase
  have hle : (if userSub = some u ∧ (LimitRequest.mk userSub phase).holdsGlobal = true
      then 1 else 0) ≤
      if userSub = some u ∧ (LimitRequest.mk userSub phase₀).holdsGlobal = true then 1 else 0 := by
    split_ifs with hnew hold
    · exact le_rfl
    · exact absurd ⟨hnew.1, h hnew.2⟩ hold
    · exact Nat.zero_le _
    · exact le_rfl
  omega

/-- Only `try_global` takes a global permit. -/
theorem held_le_of_moves (h : Moves limits s a s') (ha : ∀ i, a ≠ .tryGlobal i) :
    s'.held u ≤ s.held u := by
  cases h with
  | arrive => simp [Limiter.held, LimitRequest.holdsGlobal]
  | overloaded | accept => exact absurd rfl (ha _)
  | @leave _ i userSub permit exit hi =>
    have hle : (s.goOn i userSub (.leaving exit)).held u ≤ s.held u :=
      held_goOn_le hi fun _ => rfl
    cases permit <;> exact hle
  | gone hi => exact held_goOn_le hi nofun
  | found hi | track hi | refused hi | acquire hi | giveUp hi | release hi =>
    exact held_goOn_le hi fun _ => rfl

theorem held_tryGlobal {n} (hi : s.requests[i]? = some ⟨userSub, .arrived⟩)
    (hglobal : s.global = n + 1) :
    (s.tryGlobal i userSub).held u = s.held u + if userSub = some u then 1 else 0 := by
  have hgoOn := held_goOn hi u (if userSub.isSome then .waiting else .running none)
  have harrived : (LimitRequest.mk userSub .arrived).holdsGlobal = false := rfl
  have hholds : (LimitRequest.mk userSub
      (if userSub.isSome then .waiting else .running none)).holdsGlobal = true := by
    cases userSub <;> rfl
  simp only [harrived, hholds, and_true, and_false, Bool.false_eq_true, if_false] at hgoOn
  rw [Limiter.tryGlobal, hglobal]
  exact hgoOn

theorem held_step (h : s.held u ≤ limits.perIdentity) (hstep : s.step limits a = some s') :
    s'.held u ≤ limits.perIdentity ↔ spaced limits u s a = true := by
  by_cases ha : ∃ i, a = .tryGlobal i
  · obtain ⟨i, rfl⟩ := ha
    rw [Limiter.step] at hstep
    split at hstep
    · rename_i userSub hi
      cases hstep
      cases hglobal : s.global with
      | zero =>
        have hle : (s.tryGlobal i userSub).held u ≤ s.held u := by
          rw [Limiter.tryGlobal, hglobal]
          exact held_goOn_le hi (by simp [LimitRequest.holdsGlobal])
        refine iff_of_true (Nat.le_trans hle h) ?_
        simp [spaced, hglobal]
      | succ n =>
        rw [held_tryGlobal hi hglobal]
        by_cases hu : userSub = some u
        · simp [spaced, hi, hglobal, hu, Nat.succ_le_iff]
        · simp [spaced, hi, hu, h]
    · cases hstep
  · have hle := held_le_of_moves (u := u) (step_moves hstep) fun i hi => ha ⟨i, hi⟩
    refine iff_of_true (Nat.le_trans hle h) ?_
    cases a with
    | tryGlobal i => exact absurd ⟨i, rfl⟩ ha
    | _ => rfl

end

/-- **The share of an identity**: its global permits stay within `perIdentity` along a run exactly
    if its requests take them one after the other, each only while fewer than that are held. -/
theorem global_share_iff {limits : Limits} {s : Limiter} {as}
    (hrun : run (Limiter.step limits) (.withLimits limits) as = some s) (userSub : String) :
    (∀ as₁ as₂ s₁, as = as₁ ++ as₂ → run (Limiter.step limits) (.withLimits limits) as₁ = some s₁ →
      s₁.held userSub ≤ limits.perIdentity) ↔
    Meets (Limiter.step limits) (fun s a => spaced limits userSub s a = true)
      (.withLimits limits) as :=
  forall_initial_iff_meets (fun _ _ _ => held_step) hrun (Nat.zero_le _)

theorem global_share_crowded :
    ∃ s, run (Limiter.step small) (.withLimits small) crowded = some s ∧
      s.held "bob" = 1 ∧ s.held "bob" ≤ small.perIdentity := by
  have hheld : (run (Limiter.step small) (.withLimits small) crowded).map (·.held "bob") =
      some 1 := by
    decide +kernel
  obtain ⟨s, hrun, hs⟩ := Option.map_eq_some_iff.mp hheld
  have hspaced : Meets (Limiter.step small) (fun s a => spaced small "bob" s a = true)
      (.withLimits small) crowded := meets_of_checks (by decide +kernel)
  exact ⟨s, hrun, hs, (global_share_iff hrun "bob").mpr hspaced crowded [] s
    (List.append_nil _).symm hrun⟩

/-- Two requests of alice take both global permits and wait for the map. -/
theorem global_share_exceeded :
    small.perIdentity < small.global ∧
    ∃ s, run (Limiter.step small) (.withLimits small)
        [.arrive (some "alice"), .arrive (some "alice"), .tryGlobal 0, .tryGlobal 1] = some s ∧
      s.global = 0 ∧ ¬ s.held "alice" ≤ small.perIdentity := by
  have hcounts : (run (Limiter.step small) (.withLimits small)
      [.arrive (some "alice"), .arrive (some "alice"), .tryGlobal 0, .tryGlobal 1]).map
      (fun s => (s.global, s.held "alice")) = some (0, 2) := by
    decide +kernel
  obtain ⟨s, hrun, hs⟩ := Option.map_eq_some_iff.mp hcounts
  obtain ⟨hglobal, hheld⟩ := Prod.mk.inj hs
  exact ⟨by decide, s, hrun, hglobal, by rw [hheld]; decide⟩

/-! ## Permits come back -/

/-- **No permit is lost**: wherever tasks are dropped, and whatever is swept, all permits are
    available once all requests are done. -/
theorem permits_returned {limits : Limits} {s : Limiter} {as : List LimitAct}
    (hrun : run (Limiter.step limits) (.withLimits limits) as = some s)
    (hdone : ∀ r ∈ s.requests, ∃ exit, r.phase = .done exit) :
    s.global = limits.global ∧ ∀ n ∈ s.semaphores, n = limits.perIdentity := by
  have hinv := inv_of_run hrun
  have hnone : ∀ r ∈ s.requests, r.holdsGlobal = false ∧ r.permit = none := by
    intro r hr
    obtain ⟨exit, hphase⟩ := hdone r hr
    simp [LimitRequest.holdsGlobal, LimitRequest.permit, hphase]
  constructor
  · have hzero : s.requests.countP LimitRequest.holdsGlobal = 0 :=
      List.countP_eq_zero.mpr fun r hr => by simp [hnone r hr]
    have hglobal := hinv.global
    omega
  · intro n hn
    obtain ⟨k, hk⟩ := List.mem_iff_getElem?.mp hn
    have hzero : s.used k = 0 := List.countP_eq_zero.mpr fun r hr => by simp [hnone r hr]
    have hpermits := hinv.permits k n hk
    omega

/-- Alice's requests use permits of two semaphores, and one of them is dropped. -/
def allGone : List LimitAct := sweptAway ++ [.tryAcquire 1, .drop 0, .finish 1, .finish 2,
  .release 0, .release 1, .release 2]

theorem permits_returned_gone :
    ∃ s, run (Limiter.step ⟨3, 1, 1⟩) (.withLimits ⟨3, 1, 1⟩) allGone = some s ∧
      s.requests.map LimitRequest.phase = [.done .dropped, .done .served, .done .served] ∧
      s.global = 3 ∧ ∀ n ∈ s.semaphores, n = 1 := by
  have hphases : (run (Limiter.step ⟨3, 1, 1⟩) (.withLimits ⟨3, 1, 1⟩) allGone).map
      (·.requests.map LimitRequest.phase) =
        some [.done .dropped, .done .served, .done .served] := by decide +kernel
  obtain ⟨s, hrun, hs⟩ := Option.map_eq_some_iff.mp hphases
  refine ⟨s, hrun, hs, permits_returned hrun fun r hr => ?_⟩
  have hphase := List.mem_map_of_mem (f := LimitRequest.phase) hr
  simp only [hs, List.mem_cons, List.not_mem_nil, or_false] at hphase
  rcases hphase with h | h | h <;> exact ⟨_, h⟩

end DbMcpGateway.Transport
