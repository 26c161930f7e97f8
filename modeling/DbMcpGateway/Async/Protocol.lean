import Mathlib.Order.RelClasses
import Mathlib.Order.WellFounded
import DbMcpGateway.Async.Prog

/-!
# Protocols of programs

A protocol is a state machine over the requests of a program: in phase `φ` some
requests are `allowed`, and the reply, one of the assumed `replies`, moves the
machine to the phase `next`. `P.Obeys final φ p` says that `p`, started in phase
`φ`, only makes allowed requests and returns only in a phase and with a result in
`final`. It is proved like a Hoare triple whose assertions are phases (by the two
clauses of its definition, `Obeys.bind` and `obeys_embed`), and it is what a proof
about a run needs to know about the program that runs: whatever the program asks
next, the phase allows it.

A `Task` is a program under execution that may return or be dropped. `Rest` is
the order of what is left of it, which is well founded.
-/

namespace DbMcpGateway.Async

open Prog

/-- A state machine over requests. -/
structure Protocol (Req : Type) (Resp : Req → Type) (Φ : Type) where
  replies : (r : Req) → Resp r → Prop
  allowed : Φ → Req → Prop
  next : Φ → (r : Req) → Resp r → Φ

namespace Protocol

variable {Req : Type} {Resp : Req → Type} {Φ α β : Type}

/-- The program follows the protocol from phase `φ` to a result in `final`. -/
def Obeys (P : Protocol Req Resp Φ) (final : Φ → α → Prop) : Φ → Prog Req Resp α → Prop
  | φ, ret a => final φ a
  | φ, await r k => P.allowed φ r ∧ ∀ x, P.replies r x → Obeys P final (P.next φ r x) (k x)

variable {P : Protocol Req Resp Φ} {final : Φ → α → Prop} {φ : Φ}

theorem Obeys.bind {p} {f : β → Prog Req Resp α}
    (h : P.Obeys (fun φ b => P.Obeys final φ (f b)) φ p) : P.Obeys final φ (p >>= f) := by
  induction p generalizing φ with
  | ret b => exact h
  | await r k ih => exact ⟨h.1, fun x hx => ih x (h.2 x hx)⟩

theorem Obeys.imp {final' : Φ → α → Prop} {p} (h : P.Obeys final φ p)
    (himp : ∀ φ a, final φ a → final' φ a) : P.Obeys final' φ p := by
  induction p generalizing φ with
  | ret a => exact himp _ _ h
  | await r k ih => exact ⟨h.1, fun x hx => ih x (h.2 x hx)⟩

theorem Obeys.asks {p} {r : Req} (h : P.Obeys final φ p)
    (hr : Asks P.replies p r) : ∃ φ', P.allowed φ' r := by
  induction hr generalizing φ with
  | here => exact ⟨φ, h.1⟩
  | later hx _ ih => exact ih (h.2 _ hx)

/-- The protocol with one phase, in which the requests in `R` are allowed. -/
def always (A : (r : Req) → Resp r → Prop) (R : Req → Prop) : Protocol Req Resp Unit where
  replies := A
  allowed _ := R
  next _ _ _ := ()

variable {Req₀ : Type} {Resp₀ : Req₀ → Type} {f : Req₀ → Req}
  {g : (r : Req₀) → Resp (f r) → Resp₀ r}

/-- An embedded program whose requests are all allowed in `φ` and stay there. -/
theorem obeys_embed (hallowed : ∀ r, P.allowed φ (f r)) (hnext : ∀ r x, P.next φ (f r) x = φ)
    (p : Prog Req₀ Resp₀ α) (hf : ∀ a, final φ a) :
    P.Obeys final φ (p.embed f g) := by
  induction p with
  | ret a => exact hf a
  | await r k ih =>
    refine ⟨hallowed r, fun x _ => ?_⟩
    rw [hnext]
    exact ih _

theorem Obeys.embed_bind {p : Prog Req₀ Resp₀ β} {k : β → Prog Req₀ Resp₀ α}
    (h : P.Obeys (fun φ b => P.Obeys final φ ((k b).embed f g)) φ (p.embed f g)) :
    P.Obeys final φ ((p >>= k).embed f g) := by
  induction p generalizing φ with
  | ret b => exact h
  | await r k ih => exact ⟨h.1, fun x hx => ih _ (h.2 x hx)⟩

end Protocol

section Task

variable {Req : Type} {Resp : Req → Type} {α : Type}

/-- A program under execution. -/
inductive Task (Req : Type) (Resp : Req → Type) (α : Type)
  | running (p : Prog Req Resp α)
  | returned (a : α)
  | dropped

/-- What is left of a task after a step: a continuation of its program, or
    nothing. -/
inductive Task.Rest : Task Req Resp α → Task Req Resp α → Prop
  | reply {r k} (x : Resp r) : Rest (.running (k x)) (.running (await r k))
  | returned {p a} : Rest (.returned a) (.running p)
  | dropped {p} : Rest .dropped (.running p)

theorem Task.rest_wf : WellFounded (Task.Rest : Task Req Resp α → Task Req Resp α → Prop) := by
  have hdropped : Acc Rest (dropped : Task Req Resp α) := ⟨_, by rintro _ ⟨⟩⟩
  have hreturned : ∀ a, Acc Rest (returned a : Task Req Resp α) := fun a => ⟨_, by rintro _ ⟨⟩⟩
  refine ⟨fun t => ?_⟩
  cases t with
  | running p =>
    induction p with
    | ret a =>
      refine ⟨_, ?_⟩
      rintro _ (_ | _ | _)
      · exact hreturned _
      · exact hdropped
    | await r k ih =>
      refine ⟨_, ?_⟩
      rintro _ (x | _ | _)
      · exact ih x
      · exact hreturned _
      · exact hdropped
  | returned a => exact hreturned a
  | dropped => exact hdropped

end Task

end DbMcpGateway.Async
