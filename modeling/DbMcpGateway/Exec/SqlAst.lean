import Mathlib.Logic.Relation
import DbMcpGateway.Data.Text

/-!
# SQL syntax trees and their visitor

The part of the parser's syntax tree that the guard reads. Every node the visitor
has a callback for (`Statement`, `Query`, `Expr`, `TableFactor`) is a node here,
with the fields the guard inspects; the list `children` of a node holds the
visitable nodes below it in its remaining fields, in visiting order. A `SetExpr`
occurs only as a query's body or as a branch of a set operation, and a `Select`
only as a `SetExpr`; neither has a callback.

`visit` is the parser's derived walk: it calls the callback of a node and then
walks the node's children from left to right, stopping at the first break.
`Below` is the same tree as a relation, without any walk.
-/

namespace DbMcpGateway.Exec.Sql

inductive ObjectNamePart
  | identifier (value : String)
  | function
  deriving DecidableEq

/-- `ObjectName`: the dotted parts of a name. -/
abbrev ObjectName := List ObjectNamePart

/-- The name of an option in `EXPLAIN (option, …)`. -/
structure UtilityOption where
  name : String
  deriving DecidableEq

/-- The `ON` clause of an `INSERT`; `other` is a variant the guard does not know. -/
inductive OnInsert
  | duplicateKeyUpdate
  | onConflict
  | other
  deriving DecidableEq

/-- A locking clause, `FOR UPDATE` or `FOR SHARE`. -/
inductive LockType
  | share
  | update
  deriving DecidableEq

/-- The statement kinds that are never admitted; `unsupported` is every kind the
    guard does not name. -/
inductive OtherStatement
  | truncate
  | drop
  | createTable
  | createView
  | createIndex
  | createSchema
  | createDatabase
  | createFunction
  | createRole
  | alterTable
  | grant
  | revoke
  | startTransaction
  | commit
  | rollback
  | setTransaction
  | set
  | copy
  | unsupported
  deriving DecidableEq

mutual

inductive Statement
  | explain (analyze : Bool) (options : Option (List UtilityOption)) (statement : Statement)
  | insert (on : Option OnInsert) (children : List Node)
  | update (children : List Node)
  | delete (children : List Node)
  | query (q : Query)
  | explainTable (children : List Node)
  | other (kind : OtherStatement) (children : List Node)

/-- A query: its `WITH` part, its body, and what follows the body. -/
inductive Query
  | mk (locks : List LockType) (ctes : List Node) (body : SetExpr) (rest : List Node)

inductive SetExpr
  | select (s : Select)
  | query (q : Query)
  | setOperation (left right : SetExpr)
  | values (children : List Node)
  | statement (s : Statement)
  | table

/-- A `SELECT`; `into` is the table it materialises. -/
inductive Select
  | mk (into : Option ObjectName) (children : List Node)

inductive Expr
  | function (name : ObjectName) (children : List Node)
  | other (children : List Node)

inductive TableFactor
  | table (name : ObjectName) (children : List Node)
  | function (name : ObjectName) (children : List Node)
  | other (children : List Node)

/-- A node with a visitor callback. -/
inductive Node
  | statement (s : Statement)
  | query (q : Query)
  | expr (e : Expr)
  | tableFactor (t : TableFactor)

end

def Query.locks : Query → List LockType
  | .mk locks _ _ _ => locks

def Query.body : Query → SetExpr
  | .mk _ _ body _ => body

/-- The target of a `SELECT … INTO`. -/
def Select.into : Select → Option ObjectName
  | .mk into _ => into

/-! ## The visitor -/

/-- The callbacks of a visitor with state `σ` that breaks with an `ε`. -/
structure Visitor (σ ε : Type) where
  preVisitStatement : Statement → σ → Except ε σ
  preVisitQuery : Query → σ → Except ε σ
  preVisitExpr : Expr → σ → Except ε σ
  preVisitTableFactor : TableFactor → σ → Except ε σ

section Visit

variable {σ ε : Type} (v : Visitor σ ε)

mutual

/-- The derived walk of a statement. -/
def visitStatement : Statement → σ → Except ε σ
  | .explain analyze options statement, st => do
    let st ← v.preVisitStatement (.explain analyze options statement) st
    visitStatement statement st
  | .insert on children, st => do
    let st ← v.preVisitStatement (.insert on children) st
    visitList children st
  | .update children, st => do
    let st ← v.preVisitStatement (.update children) st
    visitList children st
  | .delete children, st => do
    let st ← v.preVisitStatement (.delete children) st
    visitList children st
  | .query q, st => do
    let st ← v.preVisitStatement (.query q) st
    visitQuery q st
  | .explainTable children, st => do
    let st ← v.preVisitStatement (.explainTable children) st
    visitList children st
  | .other kind children, st => do
    let st ← v.preVisitStatement (.other kind children) st
    visitList children st

def visitQuery : Query → σ → Except ε σ
  | .mk locks ctes body rest, st => do
    let st ← v.preVisitQuery (.mk locks ctes body rest) st
    let st ← visitList ctes st
    let st ← visitSetExpr body st
    visitList rest st

def visitSetExpr : SetExpr → σ → Except ε σ
  | .select s, st => visitSelect s st
  | .query q, st => visitQuery q st
  | .setOperation left right, st => do
    let st ← visitSetExpr left st
    visitSetExpr right st
  | .values children, st => visitList children st
  | .statement s, st => visitStatement s st
  | .table, st => .ok st

def visitSelect : Select → σ → Except ε σ
  | .mk _ children, st => visitList children st

def visitExpr : Expr → σ → Except ε σ
  | .function name children, st => do
    let st ← v.preVisitExpr (.function name children) st
    visitList children st
  | .other children, st => do
    let st ← v.preVisitExpr (.other children) st
    visitList children st

def visitTableFactor : TableFactor → σ → Except ε σ
  | .table name children, st => do
    let st ← v.preVisitTableFactor (.table name children) st
    visitList children st
  | .function name children, st => do
    let st ← v.preVisitTableFactor (.function name children) st
    visitList children st
  | .other children, st => do
    let st ← v.preVisitTableFactor (.other children) st
    visitList children st

def visitNode : Node → σ → Except ε σ
  | .statement s, st => visitStatement s st
  | .query q, st => visitQuery q st
  | .expr e, st => visitExpr e st
  | .tableFactor t, st => visitTableFactor t st

def visitList : List Node → σ → Except ε σ
  | [], st => .ok st
  | n :: ns, st => do
    let st ← visitNode n st
    visitList ns st

end

end Visit

/-! ## The tree as a relation -/

/-- A node of the syntax tree, with or without a callback. -/
inductive Tree
  | statement (s : Statement)
  | query (q : Query)
  | setExpr (e : SetExpr)
  | select (s : Select)
  | expr (e : Expr)
  | tableFactor (t : TableFactor)

def Node.tree : Node → Tree
  | .statement s => .statement s
  | .query q => .query q
  | .expr e => .expr e
  | .tableFactor t => .tableFactor t

/-- The nodes directly below a node. -/
def Tree.children : Tree → List Tree
  | .statement (.explain _ _ s) => [.statement s]
  | .statement (.insert _ ns) => ns.map Node.tree
  | .statement (.update ns) => ns.map Node.tree
  | .statement (.delete ns) => ns.map Node.tree
  | .statement (.query q) => [.query q]
  | .statement (.explainTable ns) => ns.map Node.tree
  | .statement (.other _ ns) => ns.map Node.tree
  | .query (.mk _ ctes body rest) => ctes.map Node.tree ++ .setExpr body :: rest.map Node.tree
  | .setExpr (.select s) => [.select s]
  | .setExpr (.query q) => [.query q]
  | .setExpr (.setOperation left right) => [.setExpr left, .setExpr right]
  | .setExpr (.values ns) => ns.map Node.tree
  | .setExpr (.statement s) => [.statement s]
  | .setExpr .table => []
  | .select (.mk _ ns) => ns.map Node.tree
  | .expr (.function _ ns) => ns.map Node.tree
  | .expr (.other ns) => ns.map Node.tree
  | .tableFactor (.table _ ns) => ns.map Node.tree
  | .tableFactor (.function _ ns) => ns.map Node.tree
  | .tableFactor (.other ns) => ns.map Node.tree

/-- `b` is below `a`, at any depth. -/
def Below (a b : Tree) : Prop := Relation.TransGen (fun x y => y ∈ x.children) a b

/-- `P` holds of `a` and of every node below it. -/
def Everywhere (P : Tree → Prop) (a : Tree) : Prop := P a ∧ ∀ b, Below a b → P b

/-- What holds below a node holds everywhere in each of its children. -/
theorem forall_below_iff {P : Tree → Prop} {a : Tree} :
    (∀ b, Below a b → P b) ↔ ∀ c ∈ a.children, Everywhere P c := by
  constructor
  · intro h c hc
    exact ⟨h c (.single hc), fun b hb => h b (.head hc hb)⟩
  · intro h b hb
    obtain ⟨c, hc, hcb⟩ := Relation.TransGen.head'_iff.mp hb
    rcases Relation.reflTransGen_iff_eq_or_transGen.mp hcb with rfl | hcb
    · exact (h b hc).1
    · exact (h c hc).2 b hcb

theorem everywhere_iff {P : Tree → Prop} {a : Tree} :
    Everywhere P a ↔ P a ∧ ∀ c ∈ a.children, Everywhere P c :=
  and_congr_right fun _ => forall_below_iff

end DbMcpGateway.Exec.Sql
