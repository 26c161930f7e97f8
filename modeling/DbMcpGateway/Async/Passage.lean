import Mathlib.Data.List.Pairwise
import DbMcpGateway.Async.Pool

/-!
# What passes through a shared store

Facts about stores that only a few requests touch, over all runs of a service.

Results:

* `Passage.put_of_has`, `Passage.shown_of_log`: what is in a store, and what it shows, was put
  there by a request executed before.
* `Slots.take_unique`, `Slots.not_taken`: a store from which items are taken gives an item
  out at most once for each time it was put there.
* `Drawn.unique`: a value that is not in use when it is drawn is drawn once.
-/

namespace DbMcpGateway.Async.Service

open Machine

variable {Req : Type} {Resp : Req → Type} {S O T C α : Type} (M : Service Req Resp S O T C α)

/-! ## Provenance -/

section

variable {A : Type} (Has : S → A → Prop) (Puts : T → (r : Req) → Resp r → A → Prop)
  (Hit : (r : Req) → Resp r → Prop) (Shows : T → (r : Req) → Resp r → A → Prop)

/-- Items get into the store only by requests that put them, and a reply that is a hit shows
    an item that is in it. -/
structure Passage : Prop where
  put : ∀ {s o r x s' a}, M.serve s o r = some (x, s') → Has s' a → Has s a ∨ Puts (M.stamp s) r x a
  hit : ∀ {s o r x s'}, M.serve s o r = some (x, s') → Hit r x →
    ∃ a, Has s a ∧ Shows (M.stamp s) r x a
  accept : ∀ {s c a}, Has (M.accept s c) a → Has s a
  env : ∀ {s o s' a}, M.env s o = some s' → Has s' a → Has s a

variable {M Has Puts Hit Shows} {init : S} {as : List (Act C O)} {s : Pool Req Resp S T C α}

theorem Passage.invariant (hP : Passage M Has Puts Hit Shows) (hinit : ∀ a, ¬ Has init a)
    (h : run M.step (start init) as = some s) :
    (∀ a, Has s.shared a → ∃ d ∈ s.log, Puts d.stamp d.req d.reply a) ∧
    ∀ l₁ d l₂, s.log = l₁ ++ d :: l₂ → Hit d.req d.reply →
      ∃ a, Shows d.stamp d.req d.reply a ∧ ∃ d' ∈ l₁, Puts d'.stamp d'.req d'.reply a := by
  refine log_invariant (J := fun s log =>
    (∀ a, Has s a → ∃ d ∈ log, Puts d.stamp d.req d.reply a) ∧
    ∀ l₁ d l₂, log = l₁ ++ d :: l₂ → Hit d.req d.reply →
      ∃ a, Shows d.stamp d.req d.reply a ∧ ∃ d' ∈ l₁, Puts d'.stamp d'.req d'.reply a)
    ?_ ?_ ?_ ⟨fun a ha => absurd ha (hinit a), by simp⟩ h
  · rintro s log o l x s' ⟨hhas, hshows⟩ hserve
    constructor
    · intro a ha
      rcases hP.put hserve ha with ha | hput
      · obtain ⟨d, hd, hput⟩ := hhas a ha
        exact ⟨d, List.mem_append_left _ hd, hput⟩
      · exact ⟨_, List.mem_append_right _ (List.mem_singleton.mpr rfl), hput⟩
    · intro l₁ d l₂ hlog hhit
      rcases Indexed.concat_eq_append_cons hlog with ⟨-, rfl, rfl⟩ | ⟨l₃, -, hlog⟩
      · obtain ⟨a, ha, hshown⟩ := hP.hit hserve hhit
        exact ⟨a, hshown, hhas a ha⟩
      · exact hshows l₁ d l₃ hlog hhit
  · exact fun s log c hs => ⟨fun a ha => hs.1 a (hP.accept ha), hs.2⟩
  · exact fun s log o s' hs henv => ⟨fun a ha => hs.1 a (hP.env henv ha), hs.2⟩

theorem Passage.put_of_has (hP : Passage M Has Puts Hit Shows) (hinit : ∀ a, ¬ Has init a)
    (h : run M.step (start init) as = some s) {a : A} (ha : Has s.shared a) :
    ∃ d ∈ s.log, Puts d.stamp d.req d.reply a :=
  (hP.invariant hinit h).1 a ha

/-- What was shown had been put there. -/
theorem Passage.shown_of_log (hP : Passage M Has Puts Hit Shows) (hinit : ∀ a, ¬ Has init a)
    (h : run M.step (start init) as = some s) {l₁ l₂}
    {d : Deed Req Resp T} (hlog : s.log = l₁ ++ d :: l₂) (hhit : Hit d.req d.reply) :
    ∃ a, Shows d.stamp d.req d.reply a ∧ ∃ d' ∈ l₁, Puts d'.stamp d'.req d'.reply a :=
  (hP.invariant hinit h).2 l₁ d l₂ hlog hhit

end

/-! ## Taking -/

section

variable {K : Type} (Present : S → K → Prop) (Puts Takes : (r : Req) → Resp r → K → Prop)

/-- Items get into the store only by requests that put them, and are gone after they are
    taken. -/
structure Slots : Prop where
  put : ∀ {s o r x s' k}, M.serve s o r = some (x, s') → Present s' k → Present s k ∨ Puts r x k
  take : ∀ {s o r x s' k}, M.serve s o r = some (x, s') → Takes r x k → Present s k ∧ ¬ Present s' k
  accept : ∀ {s c k}, Present (M.accept s c) k → Present s k
  env : ∀ {s o s' k}, M.env s o = some s' → Present s' k → Present s k

variable {M Present Puts Takes} {init : S} {as : List (Act C O)} {s : Pool Req Resp S T C α} {k : K}

open scoped Classical in
/-- An item was taken less often than it was put, and once less if it is there. -/
theorem Slots.count (hP : Slots M Present Puts Takes) (hinit : ¬ Present init k)
    (h : run M.step (start init) as = some s) :
    s.log.countP (fun d => Takes d.req d.reply k) + (if Present s.shared k then 1 else 0) ≤
      s.log.countP (fun d => Puts d.req d.reply k) := by
  refine log_invariant (J := fun s log =>
    log.countP (fun d => Takes d.req d.reply k) + (if Present s k then 1 else 0) ≤
      log.countP (fun d => Puts d.req d.reply k)) ?_ ?_ ?_ (by simp [hinit]) h
  · intro s log o l x s' hcount hserve
    rw [List.countP_append, List.countP_append, List.countP_singleton, List.countP_singleton]
    simp only [decide_eq_true_eq]
    by_cases htake : Takes l.req x k
    · obtain ⟨hbefore, hafter⟩ := hP.take hserve htake
      rw [if_pos hbefore] at hcount
      rw [if_neg hafter, if_pos htake]
      omega
    · rw [if_neg htake]
      by_cases hafter : Present s' k
      · rw [if_pos hafter]
        rcases hP.put hserve hafter with hbefore | hput
        · rw [if_pos hbefore] at hcount
          omega
        · rw [if_pos hput]
          omega
      · rw [if_neg hafter]
        omega
  · intro s log c hcount
    by_cases hafter : Present (M.accept s c) k
    · rw [if_pos (hP.accept hafter)] at hcount
      rwa [if_pos hafter]
    · rw [if_neg hafter]
      omega
  · intro s log o s' hcount henv
    by_cases hafter : Present s' k
    · rw [if_pos (hP.env henv hafter)] at hcount
      rwa [if_pos hafter]
    · rw [if_neg hafter]
      omega

/-- At most one item of a list without repetitions satisfies a predicate. -/
theorem countP_le_one {β : Type} {p : β → Bool} {l : List β} (hl : l.Nodup)
    (h : ∀ a ∈ l, ∀ b ∈ l, p a = true → p b = true → a = b) : l.countP p ≤ 1 := by
  rw [List.countP_eq_length_filter]
  by_contra hlt
  obtain ⟨a, b, rest, hfilter⟩ : ∃ a b rest, l.filter p = a :: b :: rest := by
    match hf : l.filter p with
    | [] => simp [hf] at hlt
    | [a] => simp [hf] at hlt
    | a :: b :: rest => exact ⟨a, b, rest, rfl⟩
  have ha : a ∈ l.filter p := by rw [hfilter]; exact List.mem_cons_self
  have hb : b ∈ l.filter p := by rw [hfilter]; exact List.mem_cons_of_mem _ List.mem_cons_self
  rw [List.mem_filter] at ha hb
  have hnodup : (a :: b :: rest).Nodup := hfilter ▸ hl.filter p
  rw [List.nodup_cons] at hnodup
  exact hnodup.1 (h a ha.1 b hb.1 ha.2 hb.2 ▸ List.mem_cons_self)

theorem eq_of_countP_le_one {β : Type} {p : β → Bool} {l : List β} (h : l.countP p ≤ 1) {a b : β}
    (ha : a ∈ l) (hb : b ∈ l) (hpa : p a = true) (hpb : p b = true) : a = b := by
  rw [List.countP_eq_length_filter] at h
  have ha' : a ∈ l.filter p := List.mem_filter.mpr ⟨ha, hpa⟩
  have hb' : b ∈ l.filter p := List.mem_filter.mpr ⟨hb, hpb⟩
  match hf : l.filter p with
  | [] =>
    rw [hf] at ha'
    cases ha'
  | [c] =>
    rw [hf, List.mem_singleton] at ha' hb'
    rw [ha', hb']
  | _ :: _ :: _ =>
    rw [hf] at h
    simp at h

section

variable (hP : Slots M Present Puts Takes) (hinit : ¬ Present init k)
  (h : run M.step (start init) as = some s)
  (hunique : ∀ d ∈ s.log, ∀ d' ∈ s.log, Puts d.req d.reply k → Puts d'.req d'.reply k → d = d')

include hP hinit h hunique

open scoped Classical in
theorem Slots.count_le_one :
    s.log.countP (fun d => Takes d.req d.reply k) + (if Present s.shared k then 1 else 0) ≤ 1 := by
  have hnodup : s.log.Nodup := (List.Nodup.of_append_left (sound_of_run h).once).of_map _
  have hputs : s.log.countP (fun d => Puts d.req d.reply k) ≤ 1 := by
    refine countP_le_one hnodup fun d hd d' hd' hput hput' => ?_
    rw [decide_eq_true_eq] at hput hput'
    exact hunique d hd d' hd' hput hput'
  exact (hP.count hinit h).trans hputs

/-- An item that is put once is taken once. -/
theorem Slots.take_unique {d d' : Deed Req Resp T} (hd : d ∈ s.log) (hd' : d' ∈ s.log)
    (htake : Takes d.req d.reply k) (htake' : Takes d'.req d'.reply k) : d = d' := by
  classical
  have hcount := hP.count_le_one hinit h hunique
  refine eq_of_countP_le_one (p := fun d => decide (Takes d.req d.reply k)) ?_ hd hd'
    (decide_eq_true htake) (decide_eq_true htake')
  omega

/-- An item that is put once and is there has not been taken. -/
theorem Slots.not_taken (hpresent : Present s.shared k) {d : Deed Req Resp T} (hd : d ∈ s.log) :
    ¬ Takes d.req d.reply k := by
  classical
  have hcount := hP.count_le_one hinit h hunique
  rw [if_pos hpresent] at hcount
  have hzero : s.log.countP (fun d => decide (Takes d.req d.reply k)) = 0 := by omega
  rw [List.countP_eq_zero] at hzero
  simpa using hzero d hd

end

end

/-! ## Drawing -/

section

variable {V : Type} (Used : S → V → Prop) (Draws : (r : Req) → Resp r → V → Prop)

/-- Values are drawn that are not in use, and stay in use. -/
structure Fresh : Prop where
  new : ∀ {s o r x s' v}, M.serve s o r = some (x, s') → Draws r x v → ¬ Used s v ∧ Used s' v
  keep : ∀ {s o r x s' v}, M.serve s o r = some (x, s') → Used s v → Used s' v
  accept : ∀ {s c v}, Used s v → Used (M.accept s c) v
  env : ∀ {s o s' v}, M.env s o = some s' → Used s v → Used s' v

/-- The values drawn so far are in use, and none was drawn twice. -/
structure Drawn (s : S) (log : List (Deed Req Resp T)) : Prop where
  used : ∀ d ∈ log, ∀ v, Draws d.req d.reply v → Used s v
  once : log.Pairwise fun d d' => ∀ v, ¬ (Draws d.req d.reply v ∧ Draws d'.req d'.reply v)

variable {M Used Draws} {s s' : S} {log : List (Deed Req Resp T)}

theorem Drawn.serve (hF : Fresh M Used Draws) (h : Drawn Used Draws s log) {o : O}
    {l : Sent Req Resp} {x} {t : T} (hserve : M.serve s o l.req = some (x, s')) :
    Drawn Used Draws s' (log ++ [⟨l, t, x⟩]) where
  used := by
    intro d hd v hv
    rcases Indexed.mem_concat_cases hd with rfl | hd
    · exact (hF.new hserve hv).2
    · exact hF.keep hserve (h.used d hd v hv)
  once := by
    rw [List.pairwise_append]
    refine ⟨h.once, List.pairwise_singleton _ _, ?_⟩
    rintro d hd d' hd' v ⟨hv, hv'⟩
    cases List.mem_singleton.mp hd'
    exact (hF.new hserve hv').1 (h.used d hd v hv)

theorem Drawn.mono (h : Drawn Used Draws s log) (hle : ∀ v, Used s v → Used s' v) :
    Drawn Used Draws s' log :=
  ⟨fun d hd v hv => hle v (h.used d hd v hv), h.once⟩

theorem Fresh.drawn (hF : Fresh M Used Draws) {init : S} {as}
    {s : Pool Req Resp S T C α} (h : run M.step (start init) as = some s) :
    Drawn Used Draws s.shared s.log :=
  log_invariant (J := Drawn Used Draws) (fun _ _ _ _ _ _ hs hserve => hs.serve hF hserve)
    (fun _ _ _ hs => hs.mono fun _ => hF.accept) (fun _ _ _ _ hs henv => hs.mono fun _ => hF.env henv)
    ⟨by simp, List.Pairwise.nil⟩ h

/-- A value is drawn once. -/
theorem Drawn.unique (h : Drawn Used Draws s log) {d d' : Deed Req Resp T} (hd : d ∈ log)
    (hd' : d' ∈ log) {v : V} (hv : Draws d.req d.reply v) (hv' : Draws d'.req d'.reply v) :
    d = d' := by
  by_contra hne
  have hsymm : Std.Symm fun d d' : Deed Req Resp T =>
      ∀ v, ¬ (Draws d.req d.reply v ∧ Draws d'.req d'.reply v) :=
    ⟨fun _ _ hdraws v hboth => hdraws v hboth.symm⟩
  exact h.once.forall hd hd' hne v ⟨hv, hv'⟩

end

end DbMcpGateway.Async.Service
