import Mathlib.Algebra.Group.Int.Defs
import Mathlib.Algebra.Group.Nat.Defs
import DbMcpGateway.Data.OrdMap
import DbMcpGateway.Data.Text

/-!
# JSON texts and values

A JSON text as the tree of its syntax: object members in the order of the text,
repeated names included. Numbers are integers, or the text of any other number.

`toValue` is the value a parser with insertion-ordered objects builds from a
text: of a repeated name it keeps the first position and the last value.

`fields` and the readers after it decode a record from a value: by name from an
object, by position from an array. An optional field may be absent or `null`.
-/

namespace DbMcpGateway

inductive Json
  | null
  | bool (b : Bool)
  | int (n : ℤ)
  | float (text : String)
  | str (s : String)
  | arr (items : List Json)
  | obj (members : List (String × Json))

namespace Json

mutual

/-- The names of all object members, at any depth. -/
def keys : Json → List String
  | .arr items => keysList items
  | .obj members => keysMembers members
  | .null => []
  | .bool _ => []
  | .int _ => []
  | .float _ => []
  | .str _ => []

def keysList : List Json → List String
  | [] => []
  | j :: js => keys j ++ keysList js

def keysMembers : List (String × Json) → List String
  | [] => []
  | (k, j) :: ms => k :: (keys j ++ keysMembers ms)

end

theorem mem_keys_arr {k : String} {items} : k ∈ (arr items).keys ↔ ∃ j ∈ items, k ∈ j.keys := by
  rw [keys]
  induction items with
  | nil => simp [keysList]
  | cons j js ih => simp [keysList, ih]

theorem mem_keys_obj {k : String} {members} :
    k ∈ (obj members).keys ↔ ∃ e ∈ members, k = e.1 ∨ k ∈ e.2.keys := by
  rw [keys]
  induction members with
  | nil => simp [keysMembers]
  | cons e ms ih => simp [keysMembers, ih, or_assoc]

mutual

/-- Some name or string of the value contains U+0000. -/
def hasNul : Json → Bool
  | .arr items => hasNulList items
  | .obj members => hasNulMembers members
  | .str s => Text.hasNul s
  | .null => false
  | .bool _ => false
  | .int _ => false
  | .float _ => false

def hasNulList : List Json → Bool
  | [] => false
  | j :: js => hasNul j || hasNulList js

def hasNulMembers : List (String × Json) → Bool
  | [] => false
  | (k, j) :: ms => Text.hasNul k || hasNul j || hasNulMembers ms

end

mutual

def toValue : Json → Json
  | .arr items => .arr (toValueList items)
  | .obj members => .obj (OrdMap.ofList (toValueMembers members))
  | .null => .null
  | .bool b => .bool b
  | .int n => .int n
  | .float text => .float text
  | .str s => .str s

def toValueList : List Json → List Json
  | [] => []
  | j :: js => toValue j :: toValueList js

def toValueMembers : List (String × Json) → List (String × Json)
  | [] => []
  | (k, j) :: ms => (k, toValue j) :: toValueMembers ms

end

theorem toValueList_eq (items : List Json) : toValueList items = items.map toValue := by
  induction items with
  | nil => rfl
  | cons j js ih => rw [toValueList, ih, List.map_cons]

theorem toValueMembers_eq (members : List (String × Json)) :
    toValueMembers members = members.map fun e => (e.1, toValue e.2) := by
  induction members with
  | nil => rfl
  | cons e ms ih => rw [toValueMembers, ih, List.map_cons]

/-! ## Records -/

def fields (names : List String) : Json → Option (List (Option Json))
  | .obj members => some (names.map fun name => OrdMap.get? members name)
  | .arr items =>
    if items.length ≤ names.length then
      some (items.map some ++ List.replicate (names.length - items.length) none)
    else none
  | _ => none

/-- No member of the object has another name. -/
def knownFields (names : List String) : Json → Bool
  | .obj members => members.all fun e => names.contains e.1
  | _ => true

/-- A required string. -/
def string : Option Json → Option String
  | some (.str s) => some s
  | _ => none

def optString : Option Json → Option (Option String)
  | none => some none
  | some .null => some none
  | some (.str s) => some (some s)
  | _ => none

/-- An optional 32-bit unsigned integer. -/
def optU32 : Option Json → Option (Option ℕ)
  | none => some none
  | some .null => some none
  | some (.int n) => if 0 ≤ n ∧ n < 2 ^ 32 then some (some n.toNat) else none
  | _ => none

/-- A boolean that defaults to `false`. -/
def defaultBool : Option Json → Option Bool
  | none => some false
  | some (.bool b) => some b
  | _ => none

def optValue : Option Json → Option Json
  | some .null => none
  | v => v

end Json

end DbMcpGateway
