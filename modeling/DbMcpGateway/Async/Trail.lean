import DbMcpGateway.Async.Protocol

/-!
# What a program has exchanged

The trail of a program is the list of its requests so far, with their replies.
`Reaches p es q` says that `p` goes on as `q` after the exchanges `es`. The two
readings that specifications are written in are `Issues p es r` (the next request
after `es` is `r`) and `Yields p es a` (`p` returns `a` after `es`); `issues_bind`
and `yields_bind` compose them.

The early returns of a handler are `okOr` (`match p.await { Ok(a) => a, Err(e) => return .. }`),
`someOr` (`let Some(a) = p.await else { return .. }`) and `require` (`if !c { return .. }`);
`ifSome` is `if let Some(a) = o { .. } else { .. }`. A path goes through them in one way only.
What holds of every result (`Gives`) is shown without the paths: `gives_okOr` and its likes look at
the early return and at the rest. What may be asked and returned after what was exchanged is a
protocol (`Protocol.history`), whose rules then apply.
-/

namespace DbMcpGateway.Async

/-- A request and its reply. -/
abbrev Exchange (Req : Type) (Resp : Req → Type) := (r : Req) × Resp r

namespace Prog

variable {Req : Type} {Resp : Req → Type} {α β : Type}

/-- `p` goes on as `q` after the exchanges. -/
inductive Reaches : Prog Req Resp α → List (Exchange Req Resp) → Prog Req Resp α → Prop
  | refl {p} : Reaches p [] p
  | step {r k x es q} : Reaches (k x) es q → Reaches (await r k) (⟨r, x⟩ :: es) q

/-- The request after the exchanges is `r'`. -/
def Issues : Prog Req Resp α → List (Exchange Req Resp) → Req → Prop
  | ret _, _, _ => False
  | await r k, es, r' => es = [] ∧ r' = r ∨ ∃ x es', es = ⟨r, x⟩ :: es' ∧ Issues (k x) es' r'

/-- The program returns `b` after the exchanges. -/
def Yields : Prog Req Resp α → List (Exchange Req Resp) → α → Prop
  | ret a, es, b => es = [] ∧ b = a
  | await r k, es, b => ∃ x es', es = ⟨r, x⟩ :: es' ∧ Yields (k x) es' b

section

variable {a b : α} {r r' : Req} {k : Resp r → Prog Req Resp α} {es es' : List (Exchange Req Resp)}

@[simp] theorem issues_ret : ¬ Issues (ret a : Prog Req Resp α) es r := id

@[simp] theorem issues_await : Issues (await r k) es r' ↔
    es = [] ∧ r' = r ∨ ∃ x es', es = ⟨r, x⟩ :: es' ∧ Issues (k x) es' r' := Iff.rfl

@[simp] theorem yields_ret : Yields (ret a : Prog Req Resp α) es b ↔ es = [] ∧ b = a := Iff.rfl

@[simp] theorem yields_await : Yields (await r k) es b ↔
    ∃ x es', es = ⟨r, x⟩ :: es' ∧ Yields (k x) es' b := Iff.rfl

/-- A sequence issues what its first part issues, and what its second part issues after
    some result of the first. -/
@[simp] theorem issues_bind {p} {f : α → Prog Req Resp β} : Issues (p >>= f) es r ↔
      Issues p es r ∨ ∃ es₁ a es₂, es = es₁ ++ es₂ ∧ Yields p es₁ a ∧ Issues (f a) es₂ r := by
  induction p generalizing es with
  | ret a => simp
  | await r' k ih =>
    simp only [await_bind, issues_await, yields_await, ih]
    constructor
    · rintro (h | ⟨x, es', rfl, h | ⟨es₁, a, es₂, rfl, ha, h⟩⟩)
      · exact .inl (.inl h)
      · exact .inl (.inr ⟨x, es', rfl, h⟩)
      · exact .inr ⟨⟨r', x⟩ :: es₁, a, es₂, rfl, ⟨x, es₁, rfl, ha⟩, h⟩
    · rintro ((h | ⟨x, es', rfl, h⟩) | ⟨_, a, es₂, rfl, ⟨x, es₁, rfl, ha⟩, h⟩)
      · exact .inl h
      · exact .inr ⟨x, es', rfl, .inl h⟩
      · exact .inr ⟨x, es₁ ++ es₂, rfl, .inr ⟨es₁, a, es₂, rfl, ha, h⟩⟩

@[simp] theorem yields_bind {p} {f : α → Prog Req Resp β} {b : β} :
    Yields (p >>= f) es b ↔ ∃ es₁ a es₂, es = es₁ ++ es₂ ∧ Yields p es₁ a ∧ Yields (f a) es₂ b := by
  induction p generalizing es with
  | ret a => simp
  | await r' k ih =>
    simp only [await_bind, yields_await, ih]
    constructor
    · rintro ⟨x, _, rfl, es₁, a, es₂, rfl, ha, h⟩
      exact ⟨⟨r', x⟩ :: es₁, a, es₂, rfl, ⟨x, es₁, rfl, ha⟩, h⟩
    · rintro ⟨_, a, es₂, rfl, ⟨x, es₁, rfl, ha⟩, h⟩
      exact ⟨x, es₁ ++ es₂, rfl, es₁, a, es₂, rfl, ha, h⟩

end

/-- Await the reply to `r`, which is of type `β`. -/
def askAs (r : Req) (h : Resp r = β) : Prog Req Resp β := await r fun x => ret (cast h x)

@[simp] theorem issues_askAs {r r' : Req} {h : Resp r = β} {es} :
    Issues (askAs r h) es r' ↔ es = [] ∧ r' = r := by
  simp [askAs]

@[simp] theorem yields_askAs {r : Req} {h : Resp r = β} {es} {b : β} :
    Yields (askAs r h) es b ↔ es = [⟨r, cast h.symm b⟩] := by
  subst h
  simp [askAs]

theorem exec_askAs {σ : Type} {serve : (r : Req) → σ → Option (Resp r × σ)} (r : Req)
    (h : Resp r = β) {x : Resp r} {s s' : σ} (hserve : serve r s = some (x, s')) :
    exec serve (askAs r h) s = some (cast h x, s') := by
  rw [askAs, exec_await, hserve]
  rfl

/-! ## Early returns -/

section

variable {ε : Type} {r : Req} {es : List (Exchange Req Resp)} {b : β}

/-- Go on with the value of `p`, or return for its error. -/
def okOr (p : Prog Req Resp (Except ε α)) (onError : ε → β) (k : α → Prog Req Resp β) :
    Prog Req Resp β :=
  p >>= fun
    | .ok a => k a
    | .error e => ret (onError e)

/-- Go on with the value of `p`, or return if there is none. -/
def someOr (p : Prog Req Resp (Option α)) (onNone : β) (k : α → Prog Req Resp β) :
    Prog Req Resp β :=
  p >>= fun
    | some a => k a
    | none => ret onNone

/-- Go on if the condition holds, or return. -/
def require (c : Prop) [Decidable c] (otherwise : β) (k : Prog Req Resp β) : Prog Req Resp β :=
  if c then k else ret otherwise

/-- Branch on an optional value. -/
def ifSome (o : Option α) (k : α → Prog Req Resp β) (otherwise : Prog Req Resp β) :
    Prog Req Resp β :=
  match o with
  | some a => k a
  | none => otherwise

variable {k : α → Prog Req Resp β} {c : Prop}

variable {onError : ε → β} {onNone otherwise : β}

@[simp] theorem issues_okOr {p} : Issues (okOr p onError k) es r ↔
      Issues p es r ∨ ∃ es₁ a es₂, es = es₁ ++ es₂ ∧ Yields p es₁ (.ok a) ∧ Issues (k a) es₂ r := by
  rw [okOr, issues_bind]
  refine or_congr_right ⟨?_, ?_⟩
  · rintro ⟨es₁, a | a, es₂, hes, ha, h⟩
    · exact h.elim
    · exact ⟨es₁, a, es₂, hes, ha, h⟩
  · rintro ⟨es₁, a, es₂, hes, ha, h⟩
    exact ⟨es₁, .ok a, es₂, hes, ha, h⟩

@[simp] theorem yields_okOr {p} : Yields (okOr p onError k) es b ↔
      (∃ e, Yields p es (.error e) ∧ b = onError e) ∨
      ∃ es₁ a es₂, es = es₁ ++ es₂ ∧ Yields p es₁ (.ok a) ∧ Yields (k a) es₂ b := by
  rw [okOr, yields_bind]
  constructor
  · rintro ⟨es₁, e | a, es₂, rfl, ha, h⟩
    · obtain ⟨rfl, rfl⟩ := h
      rw [List.append_nil]
      exact .inl ⟨e, ha, rfl⟩
    · exact .inr ⟨es₁, a, es₂, rfl, ha, h⟩
  · rintro (⟨e, he, rfl⟩ | ⟨es₁, a, es₂, hes, ha, h⟩)
    · exact ⟨es, .error e, [], (List.append_nil es).symm, he, rfl, rfl⟩
    · exact ⟨es₁, .ok a, es₂, hes, ha, h⟩

@[simp] theorem issues_someOr {p} : Issues (someOr p onNone k) es r ↔
      Issues p es r ∨
      ∃ es₁ a es₂, es = es₁ ++ es₂ ∧ Yields p es₁ (some a) ∧ Issues (k a) es₂ r := by
  rw [someOr, issues_bind]
  refine or_congr_right ⟨?_, ?_⟩
  · rintro ⟨es₁, _ | a, es₂, hes, ha, h⟩
    · exact h.elim
    · exact ⟨es₁, a, es₂, hes, ha, h⟩
  · rintro ⟨es₁, a, es₂, hes, ha, h⟩
    exact ⟨es₁, some a, es₂, hes, ha, h⟩

@[simp] theorem yields_someOr {p} : Yields (someOr p onNone k) es b ↔
      (Yields p es none ∧ b = onNone) ∨
      ∃ es₁ a es₂, es = es₁ ++ es₂ ∧ Yields p es₁ (some a) ∧ Yields (k a) es₂ b := by
  rw [someOr, yields_bind]
  constructor
  · rintro ⟨es₁, _ | a, es₂, rfl, ha, h⟩
    · obtain ⟨rfl, rfl⟩ := h
      rw [List.append_nil]
      exact .inl ⟨ha, rfl⟩
    · exact .inr ⟨es₁, a, es₂, rfl, ha, h⟩
  · rintro (⟨he, rfl⟩ | ⟨es₁, a, es₂, hes, ha, h⟩)
    · exact ⟨es, none, [], (List.append_nil es).symm, he, rfl, rfl⟩
    · exact ⟨es₁, some a, es₂, hes, ha, h⟩

@[simp] theorem issues_require [Decidable c] {k} :
    Issues (require c otherwise k) es r ↔ c ∧ Issues k es r := by
  unfold require
  split_ifs with hc <;> simp [hc]

@[simp] theorem yields_require [Decidable c] {k} :
    Yields (require c otherwise k) es b ↔
      (¬ c ∧ es = [] ∧ b = otherwise) ∨ (c ∧ Yields k es b) := by
  unfold require
  split_ifs with hc <;> simp [hc]

@[simp] theorem issues_ifSome {o otherwise} : Issues (ifSome o k otherwise) es r ↔
      (∃ a, o = some a ∧ Issues (k a) es r) ∨ (o = none ∧ Issues otherwise es r) := by
  cases o with
  | some a | none => simp [ifSome]

@[simp] theorem yields_ifSome {o otherwise} : Yields (ifSome o k otherwise) es b ↔
      (∃ a, o = some a ∧ Yields (k a) es b) ∨ (o = none ∧ Yields otherwise es b) := by
  cases o with
  | some a | none => simp [ifSome]

@[simp] theorem issues_ite [Decidable c] {p q : Prog Req Resp β} :
    Issues (if c then p else q) es r ↔ (c ∧ Issues p es r) ∨ (¬ c ∧ Issues q es r) := by
  split_ifs with hc <;> simp [hc]

@[simp] theorem yields_ite [Decidable c] {p q} :
    Yields (if c then p else q) es b ↔ (c ∧ Yields p es b) ∨ (¬ c ∧ Yields q es b) := by
  split_ifs with hc <;> simp [hc]

end

/-! ## Requests of a program -/

section

variable {K : Req → Prop} {ε : Type}

/-- All requests of the program are in `K`. -/
def Within (K : Req → Prop) : Prog Req Resp α → Prop
  | ret _ => True
  | await r k => K r ∧ ∀ x, Within K (k x)

/-- The program can return `a`. -/
def Results (p : Prog Req Resp α) (a : α) : Prop := ∃ es, Yields p es a

variable {p : Prog Req Resp α} {k : α → Prog Req Resp β}

theorem Within.issues {es} {r : Req} (h : Within K p) (hissues : Issues p es r) : K r := by
  induction p generalizing es with
  | ret a => exact hissues.elim
  | await r' k ih =>
    rcases hissues with ⟨-, rfl⟩ | ⟨x, es', -, hissues⟩
    · exact h.1
    · exact ih x (h.2 x) hissues

theorem Within.yields {es} {a : α} (h : Within K p)
    (hyields : Yields p es a) : ∀ e ∈ es, K e.1 := by
  induction p generalizing es with
  | ret b =>
    rw [hyields.1]
    rintro e ⟨⟩
  | await r k ih =>
    obtain ⟨x, es', rfl, hyields⟩ := hyields
    intro e he
    rcases List.mem_cons.mp he with rfl | he
    · exact h.1
    · exact ih x (h.2 x) hyields e he

@[simp] theorem within_ret {a : α} : Within K (ret a : Prog Req Resp α) := trivial

@[simp] theorem within_askAs {r : Req} {h : Resp r = β} : Within K (askAs r h) ↔ K r := by
  simp [askAs, Within]

@[simp] theorem within_bind {f : α → Prog Req Resp β} :
    Within K (p >>= f) ↔ Within K p ∧ ∀ a, Results p a → Within K (f a) := by
  induction p with
  | ret a => simp [Results]
  | await r k ih =>
    simp only [await_bind, Within, ih, Results, yields_await]
    constructor
    · rintro ⟨hr, h⟩
      refine ⟨⟨hr, fun x => (h x).1⟩, ?_⟩
      rintro a ⟨_, x, es, rfl, ha⟩
      exact (h x).2 a ⟨es, ha⟩
    · rintro ⟨⟨hr, h⟩, hf⟩
      exact ⟨hr, fun x => ⟨h x, fun a ⟨es, ha⟩ => hf a ⟨_, x, es, rfl, ha⟩⟩⟩

@[simp] theorem within_okOr {p} {onError : ε → β} : Within K (okOr p onError k) ↔
      Within K p ∧ ∀ a, Results p (.ok a) → Within K (k a) := by
  rw [okOr, within_bind]
  refine and_congr_right fun _ => ⟨fun h a => h (.ok a), fun h a ha => ?_⟩
  cases a with
  | ok a => exact h a ha
  | error e => exact within_ret

@[simp] theorem within_someOr {p} {onNone : β} : Within K (someOr p onNone k) ↔
      Within K p ∧ ∀ a, Results p (some a) → Within K (k a) := by
  rw [someOr, within_bind]
  refine and_congr_right fun _ => ⟨fun h a => h (some a), fun h a ha => ?_⟩
  cases a with
  | some a => exact h a ha
  | none => exact within_ret

@[simp] theorem within_require {c : Prop} [Decidable c] {otherwise : β} {k : Prog Req Resp β} :
    Within K (require c otherwise k) ↔ (c → Within K k) := by
  unfold require
  split_ifs with hc <;> simp [hc]

@[simp] theorem within_ifSome {o otherwise} : Within K (ifSome o k otherwise) ↔
      (∀ a, o = some a → Within K (k a)) ∧ (o = none → Within K otherwise) := by
  cases o with
  | some a | none => simp [ifSome]

@[simp] theorem within_ite {c : Prop} [Decidable c] {p q : Prog Req Resp β} :
    Within K (if c then p else q) ↔ (c → Within K p) ∧ (¬ c → Within K q) := by
  split_ifs with hc <;> simp [hc]

end

/-! ## Results of a program -/

section

variable {Q : α → Prop} {P : β → Prop} {ε : Type}

theorem Gives.yields {p : Prog Req Resp α} {es : List (Exchange Req Resp)} {a : α} (h : Gives Q p)
    (hyields : Yields p es a) : Q a := by
  induction p generalizing es with
  | ret b =>
    rw [hyields.2]
    exact h
  | await r k ih =>
    obtain ⟨x, es', -, hyields⟩ := hyields
    exact ih x (h x) hyields

variable {k : α → Prog Req Resp β}

/-- The two results of `p` go on separately; `E` is known of its errors. -/
theorem Gives.okOr {E : ε → Prop} {p} {onError : ε → β}
    (hp : Gives (fun x => ∀ e, x = .error e → E e) p) (herror : ∀ e, E e → P (onError e))
    (hk : ∀ a, Gives P (k a)) : Gives P (okOr p onError k) := by
  refine hp.bind fun x hx => ?_
  cases x with
  | ok a => exact hk a
  | error e => exact herror e (hx e rfl)

theorem gives_of_forall (h : ∀ a, Q a) (p : Prog Req Resp α) : Gives Q p := by
  induction p with
  | ret a => exact h a
  | await r k ih => exact ih

theorem gives_bind_of_forall {p} {f : α → Prog Req Resp β}
    (h : ∀ a, Gives P (f a)) : Gives P (p >>= f) :=
  (gives_of_forall (fun _ => trivial) p).bind fun a _ => h a

theorem gives_okOr {p} {onError : ε → β}
    (herror : ∀ e, P (onError e)) (hk : ∀ a, Gives P (k a)) : Gives P (okOr p onError k) :=
  .okOr (gives_of_forall (fun _ _ _ => trivial) p) (fun e _ => herror e) hk

theorem gives_someOr {p} {onNone : β} (hnone : P onNone)
    (hk : ∀ a, Gives P (k a)) : Gives P (someOr p onNone k) := by
  refine gives_bind_of_forall fun x => ?_
  cases x with
  | some a => exact hk a
  | none => exact hnone

theorem gives_ifSome {o otherwise} (hk : ∀ a, Gives P (k a)) (hotherwise : Gives P otherwise) :
    Gives P (ifSome o k otherwise) := by
  cases o with
  | some a => exact hk a
  | none => exact hotherwise

theorem gives_require {c : Prop} [Decidable c] {otherwise : β} {k : Prog Req Resp β}
    (hotherwise : P otherwise) (hk : Gives P k) : Gives P (require c otherwise k) := by
  unfold require
  split_ifs
  · exact hk
  · exact hotherwise

end

/-! ## Trails of programs under execution -/

section

variable {p q : Prog Req Resp α} {r : Req} {k : Resp r → Prog Req Resp α} {x : Resp r} {a : α}
  {es es' : List (Exchange Req Resp)}

theorem Reaches.concat (h : Reaches p es (await r k)) (x : Resp r) :
    Reaches p (es ++ [⟨r, x⟩]) (k x) := by
  generalize hq : await r k = q at h
  induction h with
  | refl =>
    subst hq
    exact .step .refl
  | step _ ih => exact .step (ih hq)

theorem Reaches.issues (h : Reaches p es (await r k)) : Issues p es r := by
  generalize hq : await r k = q at h
  induction h with
  | refl =>
    subst hq
    exact .inl ⟨rfl, rfl⟩
  | step _ ih => exact .inr ⟨_, _, rfl, ih hq⟩

theorem Reaches.yields (h : Reaches p es (ret a)) : Yields p es a := by
  generalize hq : ret a = q at h
  induction h with
  | refl =>
    subst hq
    exact ⟨rfl, rfl⟩
  | step _ ih => exact ⟨_, _, rfl, ih hq⟩

/-- Exchanges lead to one place only. -/
theorem Reaches.unique {q'} (h : Reaches p es q) (h' : Reaches p es q') : q = q' := by
  induction h with
  | refl =>
    cases h'
    rfl
  | step _ ih =>
    cases h' with
    | step h' => exact ih h'

/-- Along one trail a program returns once. -/
theorem Yields.unique {es' trail} {a' : α} (h : Yields p es a)
    (h' : Yields p es' a') (hes : es <+: trail) (hes' : es' <+: trail) : a = a' := by
  induction p generalizing es es' trail with
  | ret b => exact h.2.trans h'.2.symm
  | await r k ih =>
    obtain ⟨x, es, rfl, h⟩ := h
    obtain ⟨x', es', rfl, h'⟩ := h'
    obtain ⟨rest, rfl⟩ := hes
    rw [List.cons_append, List.cons_prefix_cons] at hes'
    obtain ⟨heq, hes'⟩ := hes'
    cases heq
    exact ih x h h' (List.prefix_append _ _) hes'

theorem Issues.reaches (h : Issues p es r) :
    ∃ k : Resp r → Prog Req Resp α, Reaches p es (await r k) := by
  induction p generalizing es with
  | ret a => exact h.elim
  | await r' k ih =>
    rcases h with ⟨rfl, rfl⟩ | ⟨x, es', rfl, h⟩
    · exact ⟨k, .refl⟩
    · obtain ⟨k', hreaches⟩ := ih x h
      exact ⟨k', .step hreaches⟩

theorem Issues.unique {r' : Req} (h : Issues p es r) (h' : Issues p es r') : r = r' := by
  obtain ⟨k, hk⟩ := h.reaches
  obtain ⟨k', hk'⟩ := h'.reaches
  cases hk.unique hk'
  rfl

theorem Issues.not_yields (h : Issues p es r) : ¬ Yields p es a := by
  induction p generalizing es with
  | ret b => exact h.elim
  | await r' k ih =>
    rintro ⟨x, es', rfl, hyields⟩
    rcases h with ⟨hnil, -⟩ | ⟨x', es'', hes, h⟩
    · cases hnil
    · cases hes
      exact ih _ h hyields

/-- Every request of a trail was issued after the exchanges before it. -/
theorem Reaches.issues_of_initial (h : Reaches p es' q) (hinitial : es ++ [⟨r, x⟩] <+: es') :
    Issues p es r := by
  induction h generalizing es with
  | refl => simp at hinitial
  | @step r₀ k₀ x₀ es₀ q₀ _ ih =>
    cases es with
    | nil =>
      rw [List.nil_append, List.cons_prefix_cons] at hinitial
      obtain ⟨rfl, -⟩ := Sigma.mk.inj_iff.mp hinitial.1
      exact .inl ⟨rfl, rfl⟩
    | cons e es =>
      rw [List.cons_append, List.cons_prefix_cons] at hinitial
      rw [hinitial.1]
      exact .inr ⟨_, _, rfl, ih hinitial.2⟩

/-- The requests of a trail are requests of the program. -/
theorem Within.trail {K : Req → Prop} (h : Within K p) (hissues : Issues p es r) :
    ∀ e ∈ es, K e.1 := by
  intro e he
  obtain ⟨es₁, es₂, rfl⟩ := List.append_of_mem he
  obtain ⟨k, hreaches⟩ := hissues.reaches
  have hinitial : es₁ ++ [⟨e.1, e.2⟩] <+: es₁ ++ e :: es₂ := by simp
  exact h.issues (hreaches.issues_of_initial hinitial)

end

end Prog

/-! ## Protocols over trails -/

namespace Protocol

open Prog

variable {Req : Type} {Resp : Req → Type} {α : Type}

/-- A phase is what was exchanged so far; `G` are the requests that may be made after it. -/
def history (G : List (Exchange Req Resp) → Req → Prop) :
    Protocol Req Resp (List (Exchange Req Resp)) where
  replies _ _ := True
  allowed := G
  next es r x := es ++ [⟨r, x⟩]

variable {G : List (Exchange Req Resp) → Req → Prop} {final : List (Exchange Req Resp) → α → Prop}
  {p : Prog Req Resp α} {es₀ es : List (Exchange Req Resp)}

theorem Obeys.issues {r : Req} (h : (history G).Obeys final es₀ p) (hissues : Issues p es r) :
    G (es₀ ++ es) r := by
  induction p generalizing es₀ es with
  | ret a => exact hissues.elim
  | await r' k ih =>
    rcases hissues with ⟨rfl, rfl⟩ | ⟨x, es', rfl, hissues⟩
    · rw [List.append_nil]
      exact h.1
    · have hnext := ih x (h.2 x trivial) hissues
      rwa [history, List.append_assoc] at hnext

theorem Obeys.yields {a : α} (h : (history G).Obeys final es₀ p) (hyields : Yields p es a) :
    final (es₀ ++ es) a := by
  induction p generalizing es₀ es with
  | ret b =>
    obtain ⟨rfl, rfl⟩ := hyields
    rw [List.append_nil]
    exact h
  | await r' k ih =>
    obtain ⟨x, es', rfl, hyields⟩ := hyields
    have hnext := ih x (h.2 x trivial) hyields
    rwa [history, List.append_assoc] at hnext

/-- What was exchanged stays exchanged. -/
theorem Obeys.grows (h : (history G).Obeys final es₀ p) :
    (history G).Obeys (fun es a => es₀ <+: es ∧ final es a) es₀ p := by
  induction p generalizing es₀ with
  | ret a => exact ⟨List.prefix_rfl, h⟩
  | await r k ih =>
    refine ⟨h.1, fun x hx => ?_⟩
    refine (ih x (h.2 x hx)).imp fun es a => ?_
    exact fun hes => ⟨(List.prefix_append _ _).trans hes.1, hes.2⟩

end Protocol

end DbMcpGateway.Async
