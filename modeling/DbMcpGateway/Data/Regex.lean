import DbMcpGateway.Data.Infix
import Mathlib.Tactic.Common

/-!
# Regular expressions with leftmost-first matching

A pattern is a sequence of symbol classes, greedy repetitions of classes, and word boundaries; its
first part is a group of alternatives, whose text can be used in a replacement. Alternatives are
tried in order and repetitions from the longest on, with backtracking. `replaceAll` replaces the
matches from left to right; the patterns match no empty text.

Results:

* `star_eq`, `matchSeq_star_one`: a repetition whose continuation cannot start with its class takes
  the longest run.
* `matchAt_sound`: what a match has found.
* `parsed_pieces`: the parts of a text are matches and symbols at which none begins.
* `Parsed.render_eq`: a text whose matches are replaced by themselves is kept.
* `replaceAll_of_spares`, `exists_spares`: what no match touches is kept, and what is found after the
  replacements and cannot come from one was kept.
-/

namespace DbMcpGateway.Regex

variable {α β : Type}

/-- An element of a pattern. -/
inductive Elem (α : Type)
  | one (p : α → Bool)
  | star (p : α → Bool)
  /-- Of the symbols before and after, exactly one is in the class. -/
  | boundary (p : α → Bool)

/-- Goes on with `k` after the longest run of the class that lets it succeed. -/
def star (p : α → Bool) (k : Option α → List α → Option β) : Option α → List α → Option β
  | before, [] => k before []
  | before, c :: cs =>
    if p c then (star p k (some c) cs).or (k before (c :: cs)) else k before (c :: cs)

/-- Matches the elements at the start of a text, and goes on with `k`; `before` is the symbol in
    front of the text. -/
def matchSeq : List (Elem α) → (Option α → List α → Option β) → Option α → List α → Option β
  | [], k, before, cs => k before cs
  | .one p :: es, k, _, c :: cs => if p c then matchSeq es k (some c) cs else none
  | .one _ :: _, _, _, [] => none
  | .star p :: es, k, before, cs => star p (matchSeq es k) before cs
  | .boundary p :: es, k, before, cs =>
    if before.any p != cs.head?.any p then matchSeq es k before cs else none

structure Pattern (α : Type) where
  lead : List (Elem α)
  group : List (List (Elem α))
  rest : List (Elem α)

/-- The match at the start of a text: what is left after the group, and after the match. -/
def Pattern.matchAt (P : Pattern α) (before : Option α) (cs : List α) :
    Option (List α × List α) :=
  P.group.findSome? fun alt =>
    matchSeq (P.lead ++ alt) (fun before mid =>
      matchSeq P.rest (fun _ after => some (mid, after)) before mid) before cs

/-- A part of a text: a symbol outside of all matches, or a match with its group. -/
inductive Piece (α : Type)
  | keep (c : α)
  | hit (group matched : List α)
  deriving DecidableEq

namespace Piece

def source : Piece α → List α
  | keep c => [c]
  | hit _ matched => matched

def render (template : List α → List α) : Piece α → List α
  | keep c => [c]
  | hit group _ => template group

theorem flatMap_render_keep (template : List α → List α) (cs : List α) :
    (cs.map keep).flatMap (render template) = cs := by
  induction cs with
  | nil => rfl
  | cons c cs ih => rw [List.map_cons, List.flatMap_cons, ih]; rfl

end Piece

/-- The part of a text in front of one of its ends. -/
def consumed (cs after : List α) : List α := cs.take (cs.length - after.length)

@[simp] theorem consumed_append (m after : List α) : consumed (m ++ after) after = m := by
  simp [consumed]

namespace Pattern

variable (P : Pattern α)

/-- The parts of a text; the first argument bounds its length. -/
def scan : ℕ → Option α → List α → List (Piece α)
  | n + 1, before, c :: cs =>
    match P.matchAt before (c :: cs) with
    | some (mid, after) =>
      let matched := consumed (c :: cs) after
      .hit (consumed (c :: cs) mid) matched :: scan n matched.getLast? after
    | none => .keep c :: scan n (some c) cs
  | _, _, _ => []

def pieces (text : List α) : List (Piece α) := P.scan text.length none text

/-- `Regex::replace_all`; the template makes the replacement from the group. -/
def replaceAll (template : List α → List α) (text : List α) : List α :=
  (P.pieces text).flatMap (Piece.render template)

end Pattern

/-! ## Repetitions -/

section

variable {p : α → Bool} {k : Option α → List α → Option β} {before : Option α}

/-- A repetition whose continuation cannot start with its class takes the longest run. -/
theorem star_eq (hk : ∀ before c cs, p c = true → k before (c :: cs) = none) {run cs : List α}
    (hrun : ∀ c ∈ run, p c = true) (hcs : ∀ c ∈ cs.head?, p c = false) :
    star p k before (run ++ cs) = k (run.getLast?.or before) cs := by
  induction run generalizing before with
  | nil =>
    cases cs with
    | nil => rfl
    | cons c cs => simp [star, hcs c rfl]
  | cons c run ih =>
    rw [List.forall_mem_cons] at hrun
    rw [List.cons_append, star, if_pos hrun.1, ih hrun.2, hk _ _ _ hrun.1, Option.or_none]
    congr 1
    cases run with
    | nil => rfl
    | cons d run => simp [List.getLast?_cons]

theorem matchSeq_one {es} {c : α} {cs : List α} (hc : p c = true) :
    matchSeq (.one p :: es) k before (c :: cs) = matchSeq es k (some c) cs := if_pos hc

/-- A run that ends at a symbol of another class. -/
theorem matchSeq_star_one {q : α → Bool} {es} {run cs : List α} {d : α}
    (hpq : ∀ c, p c = true → q c = false) (hrun : ∀ c ∈ run, p c = true) (hd : q d = true) :
    matchSeq (.star p :: .one q :: es) k before (run ++ d :: cs) = matchSeq es k (some d) cs := by
  have hpd : p d = false := by
    cases hp : p d with
    | false => rfl
    | true => rw [hpq d hp] at hd; cases hd
  rw [matchSeq, star_eq (fun before c cs hc => ?_) hrun (fun c hc => ?_), matchSeq_one hd]
  · rw [matchSeq, hpq c hc]
    rfl
  · cases hc
    exact hpd

theorem star_sound {cs : List α} {r : β} (h : star p k before cs = some r) :
    ∃ run after before', cs = run ++ after ∧ (∀ c ∈ run, p c = true) ∧
      k before' after = some r := by
  induction cs generalizing before with
  | nil => exact ⟨[], [], before, rfl, nofun, h⟩
  | cons c cs ih =>
    rw [star] at h
    split_ifs at h with hc
    · rcases Option.or_eq_some_iff.mp h with h | ⟨-, h⟩
      · obtain ⟨run, after, before', rfl, hrun, hk⟩ := ih h
        exact ⟨c :: run, after, before', rfl, List.forall_mem_cons.mpr ⟨hc, hrun⟩, hk⟩
      · exact ⟨[], c :: cs, before, rfl, nofun, h⟩
    · exact ⟨[], c :: cs, before, rfl, nofun, h⟩

end

/-! ## What a match has found -/

/-- The text is one that the elements take. -/
def Takes : List (Elem α) → List α → Prop
  | [], m => m = []
  | .one p :: es, m => ∃ c m', m = c :: m' ∧ p c = true ∧ Takes es m'
  | .star p :: es, m => ∃ run m', m = run ++ m' ∧ (∀ c ∈ run, p c = true) ∧ Takes es m'
  | .boundary _ :: es, m => Takes es m

theorem matchSeq_sound {es} {k : Option α → List α → Option β} {before}
    {cs : List α} {r : β} (h : matchSeq es k before cs = some r) :
    ∃ m after before', cs = m ++ after ∧ Takes es m ∧ k before' after = some r := by
  induction es generalizing before cs with
  | nil => exact ⟨[], cs, before, rfl, rfl, h⟩
  | cons e es ih =>
    cases e with
    | one p =>
      cases cs with
      | nil => cases h
      | cons c cs =>
        rw [matchSeq] at h
        split_ifs at h with hc
        obtain ⟨m, after, before', rfl, hm, hk⟩ := ih h
        exact ⟨c :: m, after, before', rfl, ⟨c, m, rfl, hc, hm⟩, hk⟩
    | star p =>
      rw [matchSeq] at h
      obtain ⟨run, after, before', rfl, hrun, hes⟩ := star_sound h
      obtain ⟨m, after', before'', rfl, hm, hk⟩ := ih hes
      exact ⟨run ++ m, after', before'', (List.append_assoc _ _ _).symm, ⟨run, m, rfl, hrun, hm⟩,
        hk⟩
    | boundary p =>
      rw [matchSeq] at h
      split_ifs at h
      exact ih h

theorem Pattern.matchAt_sound {P : Pattern α} {before} {cs mid after : List α}
    (h : P.matchAt before cs = some (mid, after)) :
    ∃ alt ∈ P.group, ∃ g m, cs = g ++ mid ∧ mid = m ++ after ∧ Takes (P.lead ++ alt) g ∧
      Takes P.rest m := by
  obtain ⟨alt, halt, h⟩ := List.exists_of_findSome?_eq_some h
  obtain ⟨g, mid', before', rfl, hg, h⟩ := matchSeq_sound h
  obtain ⟨m, after', before'', rfl, hm, h⟩ := matchSeq_sound h
  cases h
  exact ⟨alt, halt, g, m, rfl, rfl, hg, hm⟩

theorem matchSeq_append (es es' : List (Elem α)) (k : Option α → List α → Option β) :
    matchSeq (es ++ es') k = matchSeq es (matchSeq es' k) := by
  induction es with
  | nil => rfl
  | cons e es ih =>
    funext before cs
    cases e with
    | one p => cases cs <;> simp [matchSeq, ih]
    | star p | boundary p => simp [matchSeq, ih]

/-- A repetition at the end takes the longest run. -/
theorem star_some (p : α → Bool) (f : List α → β) (before : Option α) (cs : List α) :
    star p (fun _ after => some (f after)) before cs = some (f (cs.dropWhile p)) := by
  induction cs generalizing before with
  | nil => rfl
  | cons c cs ih =>
    rw [star, ih, List.dropWhile_cons]
    split_ifs <;> rfl

theorem Pattern.matchAt_greedy {P : Pattern α} {before} {cs mid after : List α}
    {es} {p : α → Bool} (hrest : P.rest = es ++ [.star p])
    (h : P.matchAt before cs = some (mid, after)) :
    ∃ alt ∈ P.group, ∃ g m run, cs = g ++ mid ∧ mid = m ++ run ++ after ∧
      Takes (P.lead ++ alt) g ∧ Takes es m ∧ (∀ c ∈ run, p c = true) ∧
      ∀ c ∈ after.head?, p c = false := by
  obtain ⟨alt, halt, h⟩ := List.exists_of_findSome?_eq_some h
  obtain ⟨g, mid', before', rfl, hg, h⟩ := matchSeq_sound h
  rw [hrest, matchSeq_append] at h
  obtain ⟨m, tail, before'', rfl, hm, h⟩ := matchSeq_sound h
  have hstar := (star_some p (fun after => (m ++ tail, after)) before'' tail).symm.trans h
  obtain ⟨rfl, rfl⟩ := Prod.mk.inj (Option.some.inj hstar)
  refine ⟨alt, halt, g, m, tail.takeWhile p, rfl, ?_, hg, hm, List.all_eq_true.mp List.all_takeWhile, ?_⟩
  · rw [List.append_assoc, List.takeWhile_append_dropWhile]
  · intro c hc
    have hhead := List.head?_dropWhile_not p tail
    rw [hc] at hhead
    exact hhead

/-! ## Replacements -/

namespace Pattern

variable {P : Pattern α} {template : List α → List α}

/-- The parts of a text, with what the scan found at each of them. -/
inductive Parsed (P : Pattern α) : Option α → List α → List (Piece α) → Prop
  | nil {before} : Parsed P before [] []
  | keep {before c cs ps}
      (hnone : P.matchAt before (c :: cs) = none) (hrest : Parsed P (some c) cs ps) :
      Parsed P before (c :: cs) (.keep c :: ps)
  | hit {before before' g m after ps}
      (hmatch : P.matchAt before (g ++ m ++ after) = some (m ++ after, after)) (hne : g ++ m ≠ [])
      (hrest : Parsed P before' after ps) :
      Parsed P before (g ++ m ++ after) (.hit g (g ++ m) :: ps)

variable {cs : List α} {ps : List (Piece α)}

section

variable
  (hshorter : ∀ {before cs mid after}, P.matchAt before cs = some (mid, after) → after.length < cs.length)

include hshorter

theorem parsed_scan {n : ℕ} {before} (hn : cs.length ≤ n) :
    Parsed P before cs (P.scan n before cs) := by
  induction n generalizing before cs with
  | zero =>
    rw [List.eq_nil_of_length_eq_zero (Nat.le_zero.mp hn)]
    exact .nil
  | succ n ih =>
    cases cs with
    | nil => exact .nil
    | cons c cs =>
      rw [scan]
      cases hmatch : P.matchAt before (c :: cs) with
      | none => exact .keep hmatch (ih (Nat.le_of_succ_le_succ hn))
      | some r =>
        obtain ⟨mid, after⟩ := r
        have hlt := hshorter hmatch
        obtain ⟨-, -, g, m, hcs, rfl, -, -⟩ := matchAt_sound hmatch
        rw [← List.append_assoc] at hcs
        have hgroup : consumed (c :: cs) (m ++ after) = g := by
          rw [hcs, List.append_assoc, consumed_append]
        have hmatched : consumed (c :: cs) after = g ++ m := by rw [hcs, consumed_append]
        dsimp only
        rw [hgroup, hmatched]
        have hne : g ++ m ≠ [] := fun hnil => by simp [hcs, hnil] at hlt
        have hle : after.length ≤ n := by
          simp only [List.length_cons] at hn hlt
          omega
        rw [hcs] at hmatch ⊢
        exact .hit hmatch hne (ih hle)

theorem parsed_pieces (text : List α) :
    Parsed P none text (P.pieces text) :=
  parsed_scan hshorter le_rfl

end

theorem Parsed.source_eq {before} (h : Parsed P before cs ps) : ps.flatMap Piece.source = cs := by
  induction h with
  | nil => rfl
  | keep hnone hrest ih | hit hmatch hne hrest ih => rw [List.flatMap_cons, ih]; rfl

theorem Parsed.exists_match {before} {g m : List α} {ps} (h : Parsed P before cs ps)
    (hmem : .hit g m ∈ ps) :
    ∃ before' w after, g ++ w ++ after <:+ cs ∧ m = g ++ w ∧
      P.matchAt before' (g ++ w ++ after) = some (w ++ after, after) := by
  induction h with
  | nil => cases hmem
  | keep hnone hrest ih =>
    obtain ⟨before', w, after, hsuffix, hm, hmatch⟩ := ih (by simpa using hmem)
    exact ⟨before', w, after, hsuffix.trans (List.suffix_cons _ _), hm, hmatch⟩
  | hit hmatch hne hrest ih =>
    rcases List.mem_cons.mp hmem with heq | hmem
    · cases heq
      exact ⟨_, _, _, List.suffix_refl _, rfl, hmatch⟩
    · obtain ⟨before', w, after, hsuffix, hm, hmatch'⟩ := ih hmem
      exact ⟨before', w, after, hsuffix.trans (List.suffix_append _ _), hm, hmatch'⟩

/-- A text whose matches are replaced by themselves is kept. -/
theorem Parsed.render_eq {before} (h : Parsed P before cs ps)
    (hsame : ∀ g m, .hit g m ∈ ps → template g = m) :
    ps.flatMap (Piece.render template) = cs := by
  have hpieces : ∀ p ∈ ps, p.render template = p.source := by
    intro p hp
    cases p with
    | keep c => rfl
    | hit group matched => exact hsame group matched hp
  rw [List.flatMap_congr hpieces, h.source_eq]

/-- The replacement of some match is another text. -/
def Alters (P : Pattern α) (template : List α → List α) (text : List α) : Prop :=
  ∃ group matched, .hit group matched ∈ P.pieces text ∧ template group ≠ matched

/-- No match touches `s`, and the replacements make `a'` of what is before it and `b'` of what is
    after it. -/
def Spares (P : Pattern α) (template : List α → List α) (a s b a' b' : List α) : Prop :=
  ∃ ps qs, P.pieces (a ++ s ++ b) = ps ++ s.map .keep ++ qs ∧ ps.flatMap Piece.source = a ∧
    qs.flatMap Piece.source = b ∧ ps.flatMap (Piece.render template) = a' ∧
    qs.flatMap (Piece.render template) = b'

/-- What no match touches is kept. -/
theorem replaceAll_of_spares {a s b a' b' : List α} (h : P.Spares template a s b a' b') :
    P.replaceAll template (a ++ s ++ b) = a' ++ s ++ b' := by
  obtain ⟨ps, qs, hpieces, -, -, rfl, rfl⟩ := h
  rw [replaceAll, hpieces, List.flatMap_append, List.flatMap_append, Piece.flatMap_render_keep]

/-- A match ends before a symbol of the class, at which no match begins. -/
structure Ends (P : Pattern α) (q : α → Bool) : Prop where
  stop : ∀ {before cs mid after}, P.matchAt before cs = some (mid, after) →
    ∀ c ∈ after.head?, q c = true
  start : ∀ {before c cs}, q c = true → P.matchAt before (c :: cs) = none

/-- Every match is followed by a symbol of the class that is kept, or by nothing. -/
def Walled (q : α → Bool) : List (Piece α) → Prop
  | [] => True
  | .keep _ :: ps => Walled q ps
  | .hit _ _ :: ps => (∀ p ∈ ps.head?, ∃ c, p = .keep c ∧ q c = true) ∧ Walled q ps

theorem Parsed.walled {q : α → Bool} (hP : P.Ends q) {before} {ps} (h : Parsed P before cs ps) :
    Walled q ps := by
  induction h with
  | nil => trivial
  | keep hnone hrest ih => exact ih
  | hit hmatch hne hrest ih =>
    refine ⟨fun p hp => ?_, ih⟩
    cases hrest with
    | nil => cases hp
    | keep => exact ⟨_, (Option.some.inj hp).symm, hP.stop hmatch _ rfl⟩
    | @hit _ _ g m after _ hmatch' hne' =>
      obtain ⟨c, cs, htext⟩ := List.exists_cons_of_ne_nil hne'
      rw [htext] at hmatch hmatch'
      rw [List.cons_append, hP.start (hP.stop hmatch c rfl)] at hmatch'
      cases hmatch'

section

variable {q : α → Bool} {s x y : List α} {ps : List (Piece α)} (hs : ∀ c ∈ s, q c = false)
  (hlast : ∀ c ∈ s.getLast?, ∀ g m, .hit g m ∈ ps → c ∉ template g)

include hs hlast

theorem exists_keep_of_append (hwalled : Walled q ps) (hne : s ≠ [])
    (h : ps.flatMap (Piece.render template) = s ++ y) :
    ∃ qs, ps = s.map .keep ++ qs ∧ qs.flatMap (Piece.render template) = y := by
  induction ps generalizing s with
  | nil =>
    cases s with
    | nil => exact absurd rfl hne
    | cons c s => cases h
  | cons p ps ih =>
    cases p with
    | keep d =>
      obtain ⟨c, s, rfl⟩ := List.exists_cons_of_ne_nil hne
      obtain ⟨rfl, hrest⟩ := List.cons.inj h
      cases s with
      | nil => exact ⟨ps, rfl, hrest⟩
      | cons c s =>
        obtain ⟨qs, rfl, hqs⟩ := ih (fun d hd => hs d (List.mem_cons_of_mem _ hd))
          (fun c hc g m hmem => hlast c (by simpa using hc) g m (List.mem_cons_of_mem _ hmem))
          hwalled (List.cons_ne_nil c s) hrest
        exact ⟨qs, rfl, hqs⟩
    | hit g m =>
      have hout : ¬ s <+: template g := fun hbegins =>
        hlast _ (List.getLast?_eq_getLast_of_ne_nil hne) g m List.mem_cons_self
          (hbegins.mem (List.getLast_mem hne))
      rcases List.append_eq_append_iff.mp h with ⟨r, hr, hrest⟩ | ⟨r, hr, -⟩
      · -- the text would go over the symbol behind the match
        cases r with
        | nil => exact absurd ⟨[], (List.append_nil s).trans (hr.trans (List.append_nil _))⟩ hout
        | cons c r =>
          cases ps with
          | nil => cases hrest
          | cons p ps =>
            obtain ⟨d, rfl, hd⟩ := hwalled.1 p rfl
            obtain ⟨rfl, -⟩ := List.cons.inj hrest
            rw [hs d (by simp [hr])] at hd
            cases hd
      · exact absurd ⟨r, hr.symm⟩ hout

/-- A text that is found after the replacements was kept, if no replacement has its first and its
    last symbol. -/
theorem exists_keep (hwalled : Walled q ps) {c : α} (hc : s.head? = some c)
    (hfirst : ∀ g m, .hit g m ∈ ps → c ∉ template g)
    (h : ps.flatMap (Piece.render template) = x ++ s ++ y) :
    ∃ ps₁ qs, ps = ps₁ ++ s.map .keep ++ qs ∧ ps₁.flatMap (Piece.render template) = x ∧
      qs.flatMap (Piece.render template) = y := by
  have hne : s ≠ [] := by
    rintro rfl
    cases hc
  induction ps generalizing x with
  | nil =>
    rw [List.flatMap_nil, eq_comm, List.append_eq_nil_iff, List.append_eq_nil_iff] at h
    exact absurd h.1.2 hne
  | cons p ps ih =>
    have hgo : ∀ {x'}, Walled q ps → ps.flatMap (Piece.render template) = x' ++ s ++ y →
        ∃ ps₁ qs, ps = ps₁ ++ s.map .keep ++ qs ∧ ps₁.flatMap (Piece.render template) = x' ∧
          qs.flatMap (Piece.render template) = y :=
      fun hwalled h => ih (fun c hc g m hmem => hlast c hc g m (List.mem_cons_of_mem _ hmem)) hwalled
        (fun g m hmem => hfirst g m (List.mem_cons_of_mem _ hmem)) h
    cases p with
    | keep d =>
      cases x with
      | nil =>
        obtain ⟨qs, hqs, hy⟩ := exists_keep_of_append hs hlast hwalled hne h
        exact ⟨[], qs, hqs, rfl, hy⟩
      | cons e x =>
        obtain ⟨rfl, hrest⟩ := List.cons.inj h
        obtain ⟨ps₁, qs, rfl, rfl, hy⟩ := hgo hwalled hrest
        exact ⟨.keep d :: ps₁, qs, rfl, rfl, hy⟩
    | hit g m =>
      obtain ⟨s', rfl⟩ := List.head?_eq_some_iff.mp hc
      obtain ⟨x', rfl⟩ : template g <+: x := Infix.prefix_of_append_cons
        (h.trans (List.append_assoc x (c :: s') y)) (hfirst g m List.mem_cons_self)
      change template g ++ ps.flatMap (Piece.render template) = _ at h
      rw [List.append_assoc, List.append_assoc, List.append_cancel_left_eq, ← List.append_assoc] at h
      obtain ⟨ps₁, qs, rfl, rfl, hy⟩ := hgo hwalled.2 h
      exact ⟨.hit g m :: ps₁, qs, rfl, rfl, hy⟩

end

theorem exists_spares {q : α → Bool} {text s x y : List α} (hparsed : Parsed P none text (P.pieces text))
    (hP : P.Ends q) (hs : ∀ c ∈ s, q c = false) {c d : α} (hc : s.head? = some c)
    (hd : s.getLast? = some d)
    (hnot : ∀ g m, .hit g m ∈ P.pieces text → c ∉ template g ∧ d ∉ template g)
    (h : P.replaceAll template text = x ++ s ++ y) :
    ∃ a b, text = a ++ s ++ b ∧ P.Spares template a s b x y := by
  have hlast : ∀ e ∈ s.getLast?, ∀ g m, .hit g m ∈ P.pieces text → e ∉ template g := by
    intro e he g m hmem
    obtain rfl := Option.some.inj (hd.symm.trans he)
    exact (hnot g m hmem).2
  obtain ⟨ps, qs, hpieces, hx, hy⟩ := exists_keep hs hlast (hparsed.walled hP) hc
    (fun g m hmem => (hnot g m hmem).1) h
  have htext : text = ps.flatMap Piece.source ++ s ++ qs.flatMap Piece.source := by
    rw [← hparsed.source_eq, hpieces, List.flatMap_append, List.flatMap_append, List.flatMap_map]
    simp [Piece.source]
  exact ⟨_, _, htext, ps, qs, htext ▸ hpieces, rfl, rfl, hx, hy⟩

end Pattern

end DbMcpGateway.Regex
