import Mathlib.Tactic.Common

/-!
# Programs with await points

An `async` function is a tree: it either returns, or it asks its environment for
something (a database reply, a clock reading, a lock) and goes on with the reply.
`Prog Req Resp α` is that tree for requests `Req`, replies `Resp r` and results
`α`. It is a monad, so an `async fn` is written as a `do` block with one `ask`
for each thing it waits for.

Five readings of a program are used:

* `Asks A p r` and `Returns A p a`: the request `r` (the result `a`) occurs on
  some path of `p` along which the environment gives only replies allowed by
  `A`. `asks_bind` and `returns_bind` say how they compose.
* `Gives Q p`: whatever the environment replies, the result of `p` is in `Q`.
  `Gives.bind` composes it and `Gives.run` gives it for one environment.
* `run h p s`: the result against a deterministic environment `h` with state
  `s`. `run_bind` composes it.
* `exec h p s`: the same for an environment that may refuse a request. `exec_bind`
  composes it.
* `Sim`: two programs ask corresponding requests and, given corresponding
  replies, return corresponding results. `Sim.bind` composes it and `Sim.run`
  gives corresponding results in corresponding environments.

`embed` runs a program among other requests (`asks_embed`, `Sim.embed`).
-/

namespace DbMcpGateway.Async

/-- A computation that returns, or awaits the reply to a request. -/
inductive Prog (Req : Type) (Resp : Req → Type) (α : Type) : Type
  | ret (a : α) : Prog Req Resp α
  | await (r : Req) (k : Resp r → Prog Req Resp α) : Prog Req Resp α

namespace Prog

variable {Req : Type} {Resp : Req → Type} {α β γ : Type}

/-- Run `p`, then `f` on its result. -/
def bind : Prog Req Resp α → (α → Prog Req Resp β) → Prog Req Resp β
  | ret a, f => f a
  | await r k, f => await r fun x => bind (k x) f

instance : Monad (Prog Req Resp) where
  pure := ret
  bind := bind

/-- Await the reply to `r` and return it. -/
def ask (r : Req) : Prog Req Resp (Resp r) := await r ret

@[simp] theorem pure_eq (a : α) : (pure a : Prog Req Resp α) = ret a := rfl

@[simp] theorem ret_bind (a : α) (f : α → Prog Req Resp β) : (ret a >>= f) = f a := rfl

@[simp] theorem await_bind (r : Req) (k : Resp r → Prog Req Resp α) (f : α → Prog Req Resp β) :
    (await r k >>= f) = await r fun x => k x >>= f := rfl

@[simp] theorem ask_bind (r : Req) (f : Resp r → Prog Req Resp β) :
    (ask r >>= f) = await r f := rfl

theorem bind_ret (p : Prog Req Resp α) : (p >>= ret) = p := by
  induction p with
  | ret a => rfl
  | await r k ih => rw [await_bind]; congr 1; funext x; exact ih x

theorem bind_assoc (p : Prog Req Resp α) (f : α → Prog Req Resp β) (g : β → Prog Req Resp γ) :
    (p >>= f >>= g) = (p >>= fun a => f a >>= g) := by
  induction p with
  | ret a => rfl
  | await r k ih => simp only [await_bind]; congr 1; funext x; exact ih x

instance : LawfulMonad (Prog Req Resp) :=
  LawfulMonad.mk' (Prog Req Resp) bind_ret (fun _ _ => rfl) bind_assoc

/-- The program over larger requests: `f` places a request among them, `g` reads
    the reply. -/
def embed {Req' : Type} {Resp' : Req' → Type} (f : Req → Req')
    (g : (r : Req) → Resp' (f r) → Resp r) : Prog Req Resp α → Prog Req' Resp' α
  | ret a => ret a
  | await r k => await (f r) fun x => embed f g (k (g r x))

/-! ## What a program can ask and return -/

/-- `r` is asked on some path of the program along which the replies are
    allowed by `A`. -/
inductive Asks (A : (r : Req) → Resp r → Prop) : Prog Req Resp α → Req → Prop
  | here {r k} : Asks A (await r k) r
  | later {r r' k x} : A r x → Asks A (k x) r' → Asks A (await r k) r'

/-- `a` is returned on some path of the program along which the replies are
    allowed by `A`. -/
inductive Returns (A : (r : Req) → Resp r → Prop) : Prog Req Resp α → α → Prop
  | done {a} : Returns A (ret a) a
  | later {r k x a} : A r x → Returns A (k x) a → Returns A (await r k) a

variable {A : (r : Req) → Resp r → Prop}

variable {a : α} {r : Req} {k : Resp r → Prog Req Resp α} {f : α → Prog Req Resp β}

@[simp] theorem asks_ret : ¬ Asks A (ret a : Prog Req Resp α) r := by
  intro h; cases h

@[simp] theorem asks_await {r' : Req} :
    Asks A (await r k) r' ↔ r' = r ∨ ∃ x, A r x ∧ Asks A (k x) r' := by
  constructor
  · intro h
    cases h with
    | here => exact .inl rfl
    | later hx h => exact .inr ⟨_, hx, h⟩
  · rintro (rfl | ⟨x, hx, h⟩)
    · exact .here
    · exact .later hx h

@[simp] theorem returns_ret {b : α} : Returns A (ret a : Prog Req Resp α) b ↔ b = a := by
  constructor
  · intro h; cases h; rfl
  · rintro rfl; exact .done

@[simp] theorem returns_await :
    Returns A (await r k) a ↔ ∃ x, A r x ∧ Returns A (k x) a := by
  constructor
  · intro h; cases h with | later hx h => exact ⟨_, hx, h⟩
  · rintro ⟨x, hx, h⟩; exact .later hx h

/-- A sequence asks what its first part asks, and what its second part asks
    after some result of the first. -/
theorem asks_bind {p} :
    Asks A (p >>= f) r ↔ Asks A p r ∨ ∃ a, Returns A p a ∧ Asks A (f a) r := by
  induction p with
  | ret a => simp
  | await r' k ih =>
    simp only [await_bind, asks_await, ih, returns_await]
    constructor
    · rintro (h | ⟨x, hx, h | ⟨a, ha, h⟩⟩)
      · exact .inl (.inl h)
      · exact .inl (.inr ⟨x, hx, h⟩)
      · exact .inr ⟨a, ⟨x, hx, ha⟩, h⟩
    · rintro ((h | ⟨x, hx, h⟩) | ⟨a, ⟨x, hx, ha⟩, h⟩)
      · exact .inl h
      · exact .inr ⟨x, hx, .inl h⟩
      · exact .inr ⟨x, hx, .inr ⟨a, ha, h⟩⟩

theorem returns_bind {p} {b : β} :
    Returns A (p >>= f) b ↔ ∃ a, Returns A p a ∧ Returns A (f a) b := by
  induction p with
  | ret a => simp
  | await r' k ih =>
    simp only [await_bind, returns_await, ih]
    constructor
    · rintro ⟨x, hx, a, ha, h⟩; exact ⟨a, ⟨x, hx, ha⟩, h⟩
    · rintro ⟨a, ⟨x, hx, ha⟩, h⟩; exact ⟨x, hx, a, ha, h⟩

section Embed

variable {Req' : Type} {Resp' : Req' → Type} {f : Req → Req'}
  {g : (r : Req) → Resp' (f r) → Resp r} {A' : (r : Req') → Resp' r → Prop}

/-- The replies that an embedded program sees. -/
def Seen (f : Req → Req') (g : (r : Req) → Resp' (f r) → Resp r) (A' : (r : Req') → Resp' r → Prop)
    (r : Req) (x : Resp r) : Prop :=
  ∃ y, A' (f r) y ∧ g r y = x

theorem asks_embed {p : Prog Req Resp α} {r' : Req'} :
    Asks A' (embed f g p) r' ↔ ∃ r, r' = f r ∧ Asks (Seen f g A') p r := by
  induction p with
  | ret a => simp [embed]
  | await r k ih =>
    rw [embed, asks_await]
    constructor
    · rintro (rfl | ⟨y, hy, h⟩)
      · exact ⟨r, rfl, .here⟩
      · obtain ⟨r₁, rfl, h'⟩ := (ih _).mp h
        exact ⟨r₁, rfl, .later ⟨y, hy, rfl⟩ h'⟩
    · rintro ⟨r₁, rfl, h⟩
      rcases asks_await.mp h with rfl | ⟨x, ⟨y, hy, rfl⟩, h⟩
      · exact .inl rfl
      · exact .inr ⟨y, hy, (ih _).mpr ⟨r₁, rfl, h⟩⟩

end Embed

/-! ## Running against an environment -/

/-- The result and final state of a program whose requests are answered by `h`. -/
def run {σ : Type} (h : (r : Req) → σ → Resp r × σ) : Prog Req Resp α → σ → α × σ
  | ret a, s => (a, s)
  | await r k, s => run h (k (h r s).1) (h r s).2

section Run

variable {σ : Type} (h : (r : Req) → σ → Resp r × σ)

@[simp] theorem run_ret (a : α) (s : σ) : run h (ret a : Prog Req Resp α) s = (a, s) := rfl

@[simp] theorem run_await (r : Req) (k : Resp r → Prog Req Resp α) (s : σ) :
    run h (await r k) s = run h (k (h r s).1) (h r s).2 := rfl

theorem run_bind (p : Prog Req Resp α) (f : α → Prog Req Resp β) (s : σ) :
    run h (p >>= f) s = run h (f (run h p s).1) (run h p s).2 := by
  induction p generalizing s with
  | ret a => rfl
  | await r k ih => simp only [await_bind, run_await]; exact ih _ _

end Run

section Gives

/-- Whatever the replies are, the result of the program is in `Q`. -/
def Gives (Q : α → Prop) : Prog Req Resp α → Prop
  | ret a => Q a
  | await _ k => ∀ x, Gives Q (k x)

variable {P : α → Prop} {Q : β → Prop} {p : Prog Req Resp α}

@[simp] theorem gives_ret {a : α} : Gives P (ret a : Prog Req Resp α) ↔ P a := Iff.rfl

@[simp] theorem gives_await {r : Req} {k : Resp r → Prog Req Resp α} :
    Gives P (await r k) ↔ ∀ x, Gives P (k x) := Iff.rfl

theorem Gives.bind {f : α → Prog Req Resp β} (hp : Gives P p) (hf : ∀ a, P a → Gives Q (f a)) :
    Gives Q (p >>= f) := by
  induction p with
  | ret a => exact hf a hp
  | await r k ih => exact fun x => ih x (hp x)

theorem Gives.embed {Req' : Type} {Resp' : Req' → Type} {f : Req → Req'}
    {g : (r : Req) → Resp' (f r) → Resp r} (hp : Gives P p) : Gives P (p.embed f g) := by
  induction p with
  | ret a => exact hp
  | await r k ih => exact fun y => ih _ (hp _)

theorem Gives.run {σ : Type} (h : (r : Req) → σ → Resp r × σ) (hp : Gives P p) (s : σ) :
    P (p.run h s).1 := by
  induction p generalizing s with
  | ret a => exact hp
  | await r k ih => exact ih _ (hp _) _

end Gives

/-- The result and final state of a program whose requests are answered by `h`, if `h`
    refuses none of them. -/
def exec {σ : Type} (h : (r : Req) → σ → Option (Resp r × σ)) : Prog Req Resp α → σ → Option (α × σ)
  | ret a, s => some (a, s)
  | await r k, s => (h r s).bind fun x => exec h (k x.1) x.2

section Exec

variable {σ : Type} (h : (r : Req) → σ → Option (Resp r × σ))

@[simp] theorem exec_ret (a : α) (s : σ) : exec h (ret a : Prog Req Resp α) s = some (a, s) := rfl

@[simp] theorem exec_await (r : Req) (k : Resp r → Prog Req Resp α) (s : σ) :
    exec h (await r k) s = (h r s).bind fun x => exec h (k x.1) x.2 := rfl

theorem exec_bind (p : Prog Req Resp α) (f : α → Prog Req Resp β) (s : σ) :
    exec h (p >>= f) s = (exec h p s).bind fun x => exec h (f x.1) x.2 := by
  induction p generalizing s with
  | ret a => rfl
  | await r k ih =>
    simp only [await_bind, exec_await, ih]
    rw [Option.bind_assoc]

end Exec

/-! ## Two programs in step -/

section Sim

variable {α' β' : Type} (Q : Req → Req → Prop) (E : (r r' : Req) → Resp r → Resp r' → Prop)

/-- `p` and `p'` ask requests related by `Q`, and on replies related by `E` go on
    in step, up to results related by `R`. -/
def Sim (R : α → α' → Prop) : Prog Req Resp α → Prog Req Resp α' → Prop
  | ret a, ret b => R a b
  | await r k, await r' k' => Q r r' ∧ ∀ x y, E r r' x y → Sim R (k x) (k' y)
  | ret _, await _ _ => False
  | await _ _, ret _ => False

variable {Q E} {R : α → α' → Prop} {S : β → β' → Prop}

variable {p : Prog Req Resp α} {p' : Prog Req Resp α'}

theorem Sim.bind {f : α → Prog Req Resp β} {f' : α' → Prog Req Resp β'} (hp : Sim Q E R p p')
    (hf : ∀ a b, R a b → Sim Q E S (f a) (f' b)) : Sim Q E S (p >>= f) (p' >>= f') := by
  induction p generalizing p' with
  | ret a =>
    cases p' with
    | ret b => exact hf a b hp
    | await r' k' => exact hp.elim
  | await r k ih =>
    cases p' with
    | ret b => exact hp.elim
    | await r' k' => exact ⟨hp.1, fun x y hxy => ih x (hp.2 x y hxy)⟩

/-- Embedded programs are in step if the programs are. -/
theorem Sim.embed {Req' : Type} {Resp' : Req' → Type} {f : Req → Req'}
    {g : (r : Req) → Resp' (f r) → Resp r} {Q' : Req' → Req' → Prop}
    {E' : (r r' : Req') → Resp' r → Resp' r' → Prop} (hQ : ∀ r r', Q r r' → Q' (f r) (f r'))
    (hE : ∀ r r' x y, E' (f r) (f r') x y → E r r' (g r x) (g r' y)) (hp : Sim Q E R p p') :
    Sim Q' E' R (p.embed f g) (p'.embed f g) := by
  induction p generalizing p' with
  | ret a =>
    cases p' with
    | ret b => exact hp
    | await r' k' => exact hp.elim
  | await r k ih =>
    cases p' with
    | ret b => exact hp.elim
    | await r' k' => exact ⟨hQ r r' hp.1, fun x y hxy => ih _ (hp.2 _ _ (hE r r' x y hxy))⟩

/-- In environments that answer related requests with related replies and stay
    related, programs in step return related results. -/
theorem Sim.run {σ σ' : Type} {h : (r : Req) → σ → Resp r × σ} {h' : (r : Req) → σ' → Resp r × σ'}
    {I : σ → σ' → Prop} (hh : ∀ r r' s s', Q r r' → I s s' →
      E r r' (h r s).1 (h' r' s').1 ∧ I (h r s).2 (h' r' s').2) (hp : Sim Q E R p p') {s : σ}
    {s' : σ'} (hs : I s s') : R (Prog.run h p s).1 (Prog.run h' p' s').1 := by
  induction p generalizing p' s s' with
  | ret a =>
    cases p' with
    | ret b => exact hp
    | await r' k' => exact hp.elim
  | await r k ih =>
    cases p' with
    | ret b => exact hp.elim
    | await r' k' =>
      obtain ⟨hE, hI⟩ := hh r r' s s' hp.1 hs
      exact ih _ (hp.2 _ _ hE) hI

end Sim

end Prog

end DbMcpGateway.Async
