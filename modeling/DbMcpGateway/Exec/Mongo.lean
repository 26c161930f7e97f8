import DbMcpGateway.Async.Prog
import DbMcpGateway.Data.Checks
import DbMcpGateway.Exec.Adapter

/-!
# The Mongo adapter

`validate_command` (exec/mongo/rejector.rs) and `dispatch` (exec/mongo/mod.rs).
The rejector parses the command text into a JSON value and the dispatcher parses
the same text into a BSON document, so the adapter is safe only if the two
parsers agree. Both are modelled on the syntax tree of the text, repeated names
included; the JSON parser and the conversion of extended-JSON objects (such as
`$oid`) are parameters.

Results:

* `toBson_keys`: a name anywhere in the document is a name in the value.
* `execute_sends`: for an accepted command the dispatcher reaches one of its four
  wired arms, and sends the parsed document with only `maxTimeMS` and `comment`
  replaced.
* `runOn_capped`: an accepted command without an error returns the rows of its arm
  up to the limit.
-/

namespace DbMcpGateway.Exec.Mongo

open Async Async.Prog

/-! ## The rejector -/

/-- `ALLOWED_COMMANDS` (exec/mongo/rejector.rs:36). -/
def allowedCommands : List String := ["find", "aggregate", "count", "distinct"]

/-- `DENIED_OPERATORS` (exec/mongo/rejector.rs:52). -/
def deniedOperators : List String := ["$out", "$merge", "$function", "$where", "$accumulator"]

/-- `enum RejectReason` (exec/mongo/rejector.rs:58). -/
inductive RejectReason
  | malformed
  | emptyCommand
  | disallowedCommand (name : String)
  | disallowedOperator (name : String)
  deriving DecidableEq

/-- The `Display` text of a `RejectReason`. -/
def RejectReason.display : RejectReason → String
  | .malformed => "mongo command is not valid JSON"
  | .emptyCommand => "mongo command must be a JSON object with at least one field"
  | .disallowedCommand name => "mongo command `" ++ name ++ "` is not in the read-only allow set"
  | .disallowedOperator name => "mongo command uses disallowed operator `" ++ name ++ "`"

/-- `denied_match` (exec/mongo/rejector.rs:113). -/
def deniedMatch (key : String) : Option String := deniedOperators.find? fun denied => denied == key

mutual

/-- `walk_for_denied` (exec/mongo/rejector.rs:92). -/
def walkForDenied : Json → Except RejectReason Unit
  | .obj members => walkMembers members
  | .arr items => walkItems items
  | .null => .ok ()
  | .bool _ => .ok ()
  | .int _ => .ok ()
  | .float _ => .ok ()
  | .str _ => .ok ()

def walkItems : List Json → Except RejectReason Unit
  | [] => .ok ()
  | item :: items => do
    walkForDenied item
    walkItems items

def walkMembers : List (String × Json) → Except RejectReason Unit
  | [] => .ok ()
  | (key, child) :: members =>
    match deniedMatch key with
    | some denied => .error (.disallowedOperator denied)
    | none => do
      walkForDenied child
      walkMembers members

end

/-- `serde_json::from_str` up to the syntax tree. -/
abbrev ParseJson := String → Option Json

/-- `validate_command` (exec/mongo/rejector.rs:75). -/
def validateCommand (parseJson : ParseJson) (json : String) : Except RejectReason Unit :=
  match (parseJson json).map Json.toValue with
  | none => .error .malformed
  | some (.obj []) => .error .emptyCommand
  | some (.obj ((command, child) :: members)) =>
    if !allowedCommands.contains command then .error (.disallowedCommand command)
    else walkForDenied (.obj ((command, child) :: members))
  | some _ => .error .emptyCommand

/-! ## BSON -/

/-- A BSON value. `other` is any value without members (an object id, a date). -/
inductive Bson
  | null
  | bool (b : Bool)
  | int (n : ℤ)
  | double (text : String)
  | string (s : String)
  | array (items : List Bson)
  | document (members : List (String × Bson))
  | codeWithScope (code : String) (scope : List (String × Bson))
  | other (description : String)

/-- `bson::Document`. -/
abbrev Document := List (String × Bson)

namespace Bson

mutual

/-- The member names of a BSON value, at any depth. -/
def keys : Bson → List String
  | .array items => keysList items
  | .document members => keysMembers members
  | .codeWithScope _ scope => keysMembers scope
  | .null => []
  | .bool _ => []
  | .int _ => []
  | .double _ => []
  | .string _ => []
  | .other _ => []

def keysList : List Bson → List String
  | [] => []
  | b :: bs => keys b ++ keysList bs

def keysMembers : List (String × Bson) → List String
  | [] => []
  | (k, b) :: ms => k :: (keys b ++ keysMembers ms)

end

theorem mem_keys_array {k : String} {items} : k ∈ (array items).keys ↔ ∃ b ∈ items, k ∈ b.keys := by
  rw [keys]
  induction items with
  | nil => simp [keysList]
  | cons b bs ih => simp [keysList, ih]

theorem mem_keys_document {k : String} {members : Document} :
    k ∈ (document members).keys ↔ ∃ e ∈ members, k = e.1 ∨ k ∈ e.2.keys := by
  rw [keys]
  induction members with
  | nil => simp [keysMembers]
  | cons e ms ih => simp [keysMembers, ih, or_assoc]

end Bson

/-- What the adapter takes from the BSON library: the conversion of an object
    that is the extended-JSON form of another type (`none` for a plain document,
    `some none` for a malformed form), and the rendering of a reply. A conversion
    only removes names, and never yields a plain document. -/
structure BsonLib where
  convert : Document → Option (Option Bson)
  toJson : Bson → Json
  convert_keys : ∀ {doc b}, convert doc = some (some b) → ∀ k ∈ b.keys, k ∈ (Bson.document doc).keys
  convert_not_document : ∀ {doc b}, convert doc = some (some b) → ∀ d, b ≠ .document d

section Parse

variable (lib : BsonLib)

mutual

/-- The BSON value of a JSON text. An integer that fits no signed 64-bit value is
    refused, one that fits no 64-bit value at all is a double. -/
def toBson : Json → Option Bson
  | .null => some .null
  | .bool b => some (.bool b)
  | .int n =>
    if -2 ^ 63 ≤ n ∧ n < 2 ^ 63 then some (.int n)
    else if 2 ^ 63 ≤ n ∧ n < 2 ^ 64 then none
    else some (.double (toString n))
  | .float text => some (.double text)
  | .str s => some (.string s)
  | .arr items => (toBsonList items).map .array
  | .obj members =>
    match toBsonMembers members with
    | none => none
    | some entries => (lib.convert (OrdMap.ofList entries)).getD (some (.document (OrdMap.ofList entries)))

def toBsonList : List Json → Option (List Bson)
  | [] => some []
  | j :: js =>
    match toBson j, toBsonList js with
    | some b, some bs => some (b :: bs)
    | _, _ => none

def toBsonMembers : List (String × Json) → Option Document
  | [] => some []
  | (k, j) :: ms =>
    match toBson j, toBsonMembers ms with
    | some b, some bs => some ((k, b) :: bs)
    | _, _ => none

end

/-- `serde_json::from_str::<Document>`: the text must be a plain document. -/
def parseDocument (parseJson : ParseJson) (text : String) : Option Document :=
  match (parseJson text).bind (toBson lib) with
  | some (.document doc) => some doc
  | _ => none

end Parse

/-! ## The dispatcher -/

/-- The errors of the driver, as far as `classify` tells them apart. -/
inductive MongoError
  | command (code : ℤ)
  | io
  | connectionPoolCleared
  | dnsResolve
  | serverSelection
  | other
  deriving DecidableEq

/-- `classify` (exec/mongo/mod.rs:357). -/
def classify : MongoError → ExecError
  | .command code => if code = 50 then .timeout else .sql
  | .io => .unavailable
  | .connectionPoolCleared => .unavailable
  | .dnsResolve => .unavailable
  | .serverSelection => .unavailable
  | .other => .sql

/-- What `dispatch` asks of the driver, the clock, the generator of markers and
    its kill guard. -/
inductive MongoReq
  | newMarker
  | armKill (marker : String)
  | runCursorCommand (cmd : Document)
  | cursorNext
  | runCommand (cmd : Document)
  | elapsed
  | disarmKill

/-- The replies. -/
abbrev MongoResp : MongoReq → Type
  | .newMarker => String
  | .armKill _ => Unit
  | .runCursorCommand _ => Except MongoError Unit
  | .cursorNext => Option (Except MongoError Document)
  | .runCommand _ => Except MongoError Document
  | .elapsed => ℕ
  | .disarmKill => Unit

/-- A program of the adapter. -/
abbrev MongoProg := Prog MongoReq MongoResp

/-- Await the reply of the driver. -/
abbrev driver (r : MongoReq) : MongoProg (MongoResp r) := ask r

/-- `first_command_name` (exec/mongo/mod.rs:321). -/
def firstCommandName (doc : Document) : Option String := (doc.map (·.1)).head?

/-- The draining loop of a cursor (exec/mongo/mod.rs:238) with room for `room`
    more rows. -/
def drainCursor (lib : BsonLib) : (room : ℕ) → (rows : List (List Json)) →
    MongoProg (Except ExecError (List (List Json) × Bool))
  | room, rows => do
    match ← driver .cursorNext with
    | none => return .ok (rows, false)
    | some docResult =>
      match room with
      | 0 => return .ok (rows, true)
      | room + 1 =>
        match docResult with
        | .error e => return .error (classify e)
        | .ok doc => drainCursor lib room (rows ++ [[lib.toJson (.document doc)]])

/-- The arm of `find` and `aggregate`. -/
def runCursor (lib : BsonLib) (cmd : Document) (rowLimit : ℕ) :
    MongoProg (Except ExecError ExecResult) := do
  match ← driver (.runCursorCommand cmd) with
  | .error e => return .error (classify e)
  | .ok () =>
    match ← drainCursor lib rowLimit [] with
    | .error e => return .error e
    | .ok (rows, truncated) =>
      let elapsedMs ← driver .elapsed
      return .ok { columns := ["document"], rows, truncated, elapsedMs }

/-- The arm of `count`. -/
def runCount (cmd : Document) (rowLimit : ℕ) : MongoProg (Except ExecError ExecResult) := do
  match ← driver (.runCommand cmd) with
  | .error e => return .error (classify e)
  | .ok response =>
    let value : Json := match OrdMap.get? response "n" with
      | some (.int n) => .int n
      | _ => .null
    let (rows, truncated) := if rowLimit = 0 then ([], true) else ([[value]], false)
    let elapsedMs ← driver .elapsed
    return .ok { columns := ["count"], rows, truncated, elapsedMs }

/-- The arm of `distinct`. -/
def runDistinct (lib : BsonLib) (cmd : Document) (rowLimit : ℕ) :
    MongoProg (Except ExecError ExecResult) := do
  match ← driver (.runCommand cmd) with
  | .error e => return .error (classify e)
  | .ok response =>
    let values : List Bson := match OrdMap.get? response "values" with
      | some (.array values) => values
      | _ => []
    let rows := (values.take rowLimit).map fun b => [lib.toJson b]
    let elapsedMs ← driver .elapsed
    return .ok { columns := ["value"], rows, truncated := decide (rowLimit < values.length), elapsedMs }

/-- The match on the command name (exec/mongo/mod.rs:229). -/
def runArm (lib : BsonLib) (commandName : String) (cmd : Document) (rowLimit : ℕ) :
    MongoProg (Except ExecError ExecResult) :=
  if commandName = "find" ∨ commandName = "aggregate" then runCursor lib cmd rowLimit
  else if commandName = "count" then runCount cmd rowLimit
  else if commandName = "distinct" then runDistinct lib cmd rowLimit
  else return .error (.forbidden
    ("command `" ++ commandName ++ "` is rejector-allowed but not dispatch-wired"))

/-- `dispatch` (exec/mongo/mod.rs:201), with `stamp_marker`
    (exec/mongo/cancel.rs:36). -/
def dispatch (lib : BsonLib) (parseJson : ParseJson) (query : ExecQuery) (effectiveMs : ℕ) :
    MongoProg (Except ExecError ExecResult) := do
  match parseDocument lib parseJson query.sql with
  | none => return .error .sql
  | some cmd =>
    match firstCommandName cmd with
    | none => return .error .sql
    | some commandName =>
      let cmd := OrdMap.insert cmd "maxTimeMS" (.int effectiveMs)
      let marker ← driver .newMarker
      let cmd := OrdMap.insert cmd "comment" (.string marker)
      driver (.armKill marker)
      let result ← runArm lib commandName cmd query.rowLimit
      driver .disarmKill
      return result

/-- `execute` (exec/mongo/mod.rs:171) up to the outer deadline, which can cut the
    dispatch at any await. -/
def execute (lib : BsonLib) (parseJson : ParseJson) (query : ExecQuery) :
    MongoProg (Except ExecError ExecResult) :=
  match validateCommand parseJson query.sql with
  | .error reason => return .error (.forbidden reason.display)
  | .ok () => dispatch lib parseJson query (effectiveTimeoutMs query.statementTimeoutMs)

/-! ## The two parsers agree -/

theorem deniedMatch_eq_none {key : String} : deniedMatch key = none ↔ key ∉ deniedOperators := by
  simp only [deniedMatch, List.find?_eq_none, beq_iff_eq]
  exact ⟨fun h hk => h key hk rfl, fun h x hx hxk => h (hxk ▸ hx)⟩

mutual

/-- The walk accepts exactly the values without a denied name. -/
theorem walkForDenied_ok : ∀ (j : Json),
    walkForDenied j = .ok () ↔ ∀ k ∈ j.keys, k ∉ deniedOperators
  | .obj members => walkMembers_ok members
  | .arr items => walkItems_ok items
  | .null => by simp [walkForDenied, Json.keys]
  | .bool _ => by simp [walkForDenied, Json.keys]
  | .int _ => by simp [walkForDenied, Json.keys]
  | .float _ => by simp [walkForDenied, Json.keys]
  | .str _ => by simp [walkForDenied, Json.keys]

theorem walkItems_ok : ∀ (items : List Json),
    walkItems items = .ok () ↔ ∀ k ∈ Json.keysList items, k ∉ deniedOperators
  | [] => by simp [walkItems, Json.keysList]
  | item :: items => by
    rw [walkItems, Checks.seq_eq_ok, walkForDenied_ok item, walkItems_ok items, Json.keysList,
      List.forall_mem_append]

theorem walkMembers_ok : ∀ (members : List (String × Json)),
    walkMembers members = .ok () ↔ ∀ k ∈ Json.keysMembers members, k ∉ deniedOperators
  | [] => by simp [walkMembers, Json.keysMembers]
  | (key, child) :: members => by
    rw [walkMembers, Json.keysMembers, List.forall_mem_cons, List.forall_mem_append,
      ← deniedMatch_eq_none, ← walkForDenied_ok child, ← walkMembers_ok members]
    cases deniedMatch key with
    | some denied => simp
    | none => simp [Checks.seq_eq_ok]

end

section Agree

variable {lib : BsonLib}

theorem toBsonList_some {items bs} (h : toBsonList lib items = some bs) :
    ∀ b ∈ bs, ∃ j ∈ items, toBson lib j = some b := by
  induction items generalizing bs with
  | nil =>
    cases h
    simp
  | cons j js ih =>
    rw [toBsonList] at h
    cases hj : toBson lib j with
    | none => simp [hj] at h
    | some b =>
      cases hjs : toBsonList lib js with
      | none => simp [hj, hjs] at h
      | some bs' =>
        simp only [hj, hjs, Option.some.injEq] at h
        subst h
        refine List.forall_mem_cons.mpr ⟨⟨j, List.mem_cons_self, hj⟩, fun b' hb' => ?_⟩
        obtain ⟨j', hj', hb⟩ := ih hjs b' hb'
        exact ⟨j', List.mem_cons_of_mem _ hj', hb⟩

variable {members : List (String × Json)} {entries : Document}

/-- The members of an object and of its document, paired. -/
theorem toBsonMembers_some (h : toBsonMembers lib members = some entries) :
    ∃ ps : List (String × Json × Bson), members = ps.map (fun e => (e.1, e.2.1)) ∧
      entries = ps.map (fun e => (e.1, e.2.2)) ∧ ∀ e ∈ ps, toBson lib e.2.1 = some e.2.2 := by
  induction members generalizing entries with
  | nil =>
    cases h
    exact ⟨[], rfl, rfl, by simp⟩
  | cons m ms ih =>
    rw [toBsonMembers] at h
    cases hm : toBson lib m.2 with
    | none => simp [hm] at h
    | some b =>
      cases hms : toBsonMembers lib ms with
      | none => simp [hm, hms] at h
      | some entries' =>
        simp only [hm, hms, Option.some.injEq] at h
        subst h
        obtain ⟨ps, rfl, rfl, hps⟩ := ih hms
        exact ⟨(m.1, m.2, b) :: ps, rfl, rfl, List.forall_mem_cons.mpr ⟨hm, hps⟩⟩

/-- A member of the document comes from a member that the value keeps too:
    both parsers resolve repeated names the same way. -/
theorem mem_document (h : toBsonMembers lib members = some entries) {e}
    (he : e ∈ OrdMap.ofList entries) :
    ∃ j, (e.1, j) ∈ OrdMap.ofList members ∧ toBson lib j = some e.2 := by
  obtain ⟨ps, rfl, rfl, hps⟩ := toBsonMembers_some h
  rw [OrdMap.ofList_map (fun p : Json × Bson => p.2)] at he
  obtain ⟨p, hp, rfl⟩ := List.mem_map.mp he
  refine ⟨p.2.1, ?_, hps p (OrdMap.mem_of_mem_ofList hp)⟩
  rw [OrdMap.ofList_map (fun p : Json × Bson => p.1)]
  exact List.mem_map.mpr ⟨p, hp, rfl⟩

theorem head?_document (h : toBsonMembers lib members = some entries) :
    ((OrdMap.ofList entries).map (·.1)).head? = (members.map (·.1)).head? := by
  obtain ⟨ps, rfl, rfl, -⟩ := toBsonMembers_some h
  rw [OrdMap.head?_keys_ofList, List.map_map, List.map_map]
  rfl

theorem mem_keys_toValue_obj {k : String} {j : Json} {name : String}
    (hmem : (name, j) ∈ OrdMap.ofList members) (hk : k = name ∨ k ∈ j.toValue.keys) :
    k ∈ (Json.obj members).toValue.keys := by
  rw [Json.toValue, Json.toValueMembers_eq, OrdMap.ofList_map, Json.mem_keys_obj]
  exact ⟨(name, j.toValue), List.mem_map.mpr ⟨(name, j), hmem, rfl⟩, hk⟩

mutual

/-- **A name anywhere in the parsed document is a name in the validated value.** -/
theorem toBson_keys : ∀ (j : Json) (b : Bson), toBson lib j = some b →
    ∀ k ∈ b.keys, k ∈ j.toValue.keys
  | .obj members, b, h => by
    intro k hk
    rw [toBson] at h
    cases hm : toBsonMembers lib members with
    | none => simp [hm] at h
    | some entries =>
      simp only [hm] at h
      have hdoc : k ∈ (Bson.document (OrdMap.ofList entries)).keys := by
        cases hc : lib.convert (OrdMap.ofList entries) with
        | none =>
          simp only [hc, Option.getD_none, Option.some.injEq] at h
          exact h ▸ hk
        | some r =>
          simp only [hc, Option.getD_some] at h
          exact lib.convert_keys (h ▸ hc) k hk
      obtain ⟨e, he, hke⟩ := Bson.mem_keys_document.mp hdoc
      obtain ⟨j, hj, hb⟩ := mem_document hm he
      refine mem_keys_toValue_obj hj (hke.imp_right fun hk => ?_)
      exact toBson_keys_members members (e.1, j) (OrdMap.mem_of_mem_ofList hj) e.2 hb k hk
  | .arr items, b, h => by
    intro k hk
    rw [toBson] at h
    cases hi : toBsonList lib items with
    | none => simp [hi] at h
    | some bs =>
      simp only [hi, Option.map_some, Option.some.injEq] at h
      subst h
      obtain ⟨b', hb', hkb⟩ := Bson.mem_keys_array.mp hk
      obtain ⟨j, hj, hjb⟩ := toBsonList_some hi b' hb'
      rw [Json.toValue, Json.toValueList_eq, Json.mem_keys_arr]
      exact ⟨_, List.mem_map.mpr ⟨j, hj, rfl⟩, toBson_keys_items items j hj b' hjb k hkb⟩
  | .null, b, h => by
    cases h
    simp [Bson.keys]
  | .bool _, b, h => by
    cases h
    simp [Bson.keys]
  | .float _, b, h => by
    cases h
    simp [Bson.keys]
  | .str _, b, h => by
    cases h
    simp [Bson.keys]
  | .int n, b, h => by
    rw [toBson] at h
    split_ifs at h <;> cases h <;> simp [Bson.keys]

theorem toBson_keys_items : ∀ (items : List Json), ∀ j ∈ items, ∀ b, toBson lib j = some b →
    ∀ k ∈ b.keys, k ∈ j.toValue.keys
  | [] => by simp
  | j :: js => List.forall_mem_cons.mpr ⟨toBson_keys j, toBson_keys_items js⟩

theorem toBson_keys_members : ∀ (members : List (String × Json)), ∀ e ∈ members, ∀ b,
    toBson lib e.2 = some b → ∀ k ∈ b.keys, k ∈ e.2.toValue.keys
  | [] => by simp
  | (_, j) :: ms => List.forall_mem_cons.mpr ⟨toBson_keys j, toBson_keys_members ms⟩

end

/-- Only a plain object parses to a document. -/
theorem toBson_eq_document {j : Json} {doc : Document} (h : toBson lib j = some (.document doc)) :
    ∃ members entries, j = .obj members ∧ toBsonMembers lib members = some entries ∧
      doc = OrdMap.ofList entries := by
  cases j with
  | obj members =>
    rw [toBson] at h
    cases hm : toBsonMembers lib members with
    | none => simp [hm] at h
    | some entries =>
      refine ⟨members, entries, rfl, hm, ?_⟩
      simp only [hm] at h
      cases hc : lib.convert (OrdMap.ofList entries) with
      | none =>
        simp only [hc, Option.getD_none, Option.some.injEq, Bson.document.injEq] at h
        exact h.symm
      | some r =>
        simp only [hc, Option.getD_some] at h
        exact absurd rfl (lib.convert_not_document (h ▸ hc) doc)
  | arr items =>
    rw [toBson] at h
    obtain ⟨bs, -, hbs⟩ := Option.map_eq_some_iff.mp h
    cases hbs
  | int n =>
    rw [toBson] at h
    split_ifs at h <;> cases h
  | null | bool b | float text | str s => cases h

/-- A parsed document starts with the first name of the text, and every name in
    it is a name in the value of the text. -/
theorem parseDocument_some {parseJson} {text : String} {doc : Document}
    (h : parseDocument lib parseJson text = some doc) :
    ∃ members, parseJson text = some (.obj members) ∧
      firstCommandName doc = (members.map (·.1)).head? ∧
      ∀ k ∈ (Bson.document doc).keys, k ∈ (Json.obj members).toValue.keys := by
  have hbson : ∃ j, parseJson text = some j ∧ toBson lib j = some (.document doc) := by
    unfold parseDocument at h
    split at h
    · cases h
      exact Option.bind_eq_some_iff.mp ‹_›
    · cases h
  obtain ⟨j, hj, hdoc⟩ := hbson
  obtain ⟨members, entries, rfl, hm, rfl⟩ := toBson_eq_document hdoc
  exact ⟨members, hj, head?_document hm, toBson_keys _ _ hdoc⟩

end Agree

theorem head?_toValueMembers (members : List (String × Json)) :
    ((OrdMap.ofList (Json.toValueMembers members)).map (·.1)).head? =
      (members.map (·.1)).head? := by
  rw [OrdMap.head?_keys_ofList, Json.toValueMembers_eq, List.map_map]
  rfl

/-- What an accepted object satisfies. -/
theorem validateCommand_ok {parseJson} {text : String} {members : List (String × Json)}
    (hparse : parseJson text = some (.obj members)) (h : validateCommand parseJson text = .ok ()) :
    (∃ command ∈ allowedCommands, (members.map (·.1)).head? = some command) ∧
      ∀ k ∈ (Json.obj members).toValue.keys, k ∉ deniedOperators := by
  rw [validateCommand, hparse, Option.map_some, Json.toValue] at h
  rw [← head?_toValueMembers, Json.toValue]
  cases hv : OrdMap.ofList (Json.toValueMembers members) with
  | nil => simp [hv] at h
  | cons e ms =>
    simp only [hv] at h
    split_ifs at h with hallowed
    refine ⟨⟨e.1, by simpa using hallowed, rfl⟩, (walkForDenied_ok _).mp h⟩

/-! ## What is sent -/

/-- The request sends the command `cmd` to the target. -/
def Sends : MongoReq → Document → Prop
  | .runCursorCommand cmd, cmd' => cmd' = cmd
  | .runCommand cmd, cmd' => cmd' = cmd
  | _, _ => False

/-- `cmd` is `doc` except that `maxTimeMS` is the effective timeout and `comment`
    the marker; a name of the two that `doc` lacks is appended. -/
structure Stamped (doc cmd : Document) (effectiveMs : ℕ) (marker : String) : Prop where
  maxTimeMS : OrdMap.get? cmd "maxTimeMS" = some (.int effectiveMs)
  comment : OrdMap.get? cmd "comment" = some (.string marker)
  others : ∀ k, k ≠ "maxTimeMS" → k ≠ "comment" → OrdMap.get? cmd k = OrdMap.get? doc k
  keys : cmd.map (·.1) =
    doc.map (·.1) ++ ["maxTimeMS", "comment"].filter fun k => k ∉ doc.map (·.1)
  first : firstCommandName doc ≠ none → firstCommandName cmd = firstCommandName doc

theorem stamped_insert (doc : Document) (effectiveMs : ℕ) (marker : String) :
    Stamped doc (OrdMap.insert (OrdMap.insert doc "maxTimeMS" (.int effectiveMs)) "comment"
      (.string marker)) effectiveMs marker where
  maxTimeMS := by
    rw [OrdMap.get?_insert_of_ne (by decide), OrdMap.get?_insert_self]
  comment := OrdMap.get?_insert_self _ _ _
  others k hk hk' := by
    rw [OrdMap.get?_insert_of_ne hk', OrdMap.get?_insert_of_ne hk]
  keys := by
    rw [OrdMap.keys_insert, OrdMap.keys_insert]
    by_cases h1 : "maxTimeMS" ∈ doc.map (·.1) <;> by_cases h2 : "comment" ∈ doc.map (·.1) <;>
      simp [h1, h2]
  first hne := by
    obtain ⟨k, hk⟩ := Option.ne_none_iff_exists'.mp hne
    rw [hk]
    exact OrdMap.head?_keys_insert (OrdMap.head?_keys_insert hk _) _

section Sent

variable {lib : BsonLib} {A : (r : MongoReq) → MongoResp r → Prop}

variable {r : MongoReq} {e : ExecError} {cmd : Document} {parseJson : ParseJson} {query : ExecQuery}
  {effectiveMs : ℕ} {doc : Document} {command : String}

variable {room : ℕ} {commandName : String} {rowLimit : ℕ}

theorem drainCursor_asks {rows} (h : Asks A (drainCursor lib room rows) r) : r = .cursorNext := by
  induction room generalizing rows with
  | zero =>
    rw [drainCursor, ask_bind, asks_await] at h
    rcases h with h | ⟨_ | docResult, -, h⟩
    · exact h
    · exact absurd h asks_ret
    · exact absurd h asks_ret
  | succ room ih =>
    rw [drainCursor, ask_bind, asks_await] at h
    rcases h with h | ⟨_ | _ | doc, -, h⟩
    · exact h
    · exact absurd h asks_ret
    · exact absurd h asks_ret
    · exact ih h

theorem drainCursor_error {rows} (h : Returns A (drainCursor lib room rows) (.error e)) :
    ∃ e', e = classify e' := by
  induction room generalizing rows with
  | zero =>
    rw [drainCursor, ask_bind, returns_await] at h
    obtain ⟨_ | docResult, -, h⟩ := h
    · cases h
    · cases h
  | succ room ih =>
    rw [drainCursor, ask_bind, returns_await] at h
    obtain ⟨_ | e' | doc, -, h⟩ := h
    · cases h
    · cases h
      exact ⟨e', rfl⟩
    · exact ih h

theorem classify_ne_forbidden (e : MongoError) (reason : String) : classify e ≠ .forbidden reason := by
  cases e with
  | command code =>
    rw [classify]
    split_ifs <;> simp
  | _ => simp [classify]

/-- The end of every arm only reads the clock. -/
theorem finish_asks {α : Type} {f : ℕ → α}
    (h : Asks A (driver .elapsed >>= fun ms => ret (f ms)) r) : r = .elapsed := by
  rw [ask_bind, asks_await] at h
  rcases h with h | ⟨ms, -, h⟩
  · exact h
  · exact absurd h asks_ret

theorem runArm_sends {cmd' : Document} (h : Asks A (runArm lib commandName cmd rowLimit) r)
    (hs : Sends r cmd') : cmd' = cmd := by
  unfold runArm at h
  split_ifs at h
  · rw [runCursor, ask_bind, asks_await] at h
    rcases h with rfl | ⟨_ | _, -, h⟩
    · exact hs
    · exact absurd h asks_ret
    · rcases asks_bind.mp h with h | ⟨_ | ⟨rows, truncated⟩, -, h⟩
      · rw [drainCursor_asks h] at hs
        exact hs.elim
      · exact absurd h asks_ret
      · rw [finish_asks h] at hs
        exact hs.elim
  · rw [runCount, ask_bind, asks_await] at h
    rcases h with rfl | ⟨_ | response, -, h⟩
    · exact hs
    · exact absurd h asks_ret
    · rw [finish_asks h] at hs
      exact hs.elim
  · rw [runDistinct, ask_bind, asks_await] at h
    rcases h with rfl | ⟨_ | response, -, h⟩
    · exact hs
    · exact absurd h asks_ret
    · rw [finish_asks h] at hs
      exact hs.elim
  · exact absurd h asks_ret

theorem runArm_error (hname : commandName ∈ allowedCommands)
    (h : Returns A (runArm lib commandName cmd rowLimit) (.error e)) : ∃ e', e = classify e' := by
  unfold runArm at h
  split_ifs at h with hcursor hcount hdistinct
  · rw [runCursor, ask_bind, returns_await] at h
    obtain ⟨e' | _, -, h⟩ := h
    · cases h
      exact ⟨e', rfl⟩
    · obtain ⟨_ | ⟨rows, truncated⟩, hdrain, h⟩ := returns_bind.mp h
      · cases h
        exact drainCursor_error hdrain
      · obtain ⟨ms, -, h⟩ := returns_await.mp h
        cases h
  · rw [runCount, ask_bind, returns_await] at h
    obtain ⟨e' | response, -, h⟩ := h
    · cases h
      exact ⟨e', rfl⟩
    · obtain ⟨ms, -, h⟩ := returns_await.mp h
      cases h
  · rw [runDistinct, ask_bind, returns_await] at h
    obtain ⟨e' | response, -, h⟩ := h
    · cases h
      exact ⟨e', rfl⟩
    · obtain ⟨ms, -, h⟩ := returns_await.mp h
      cases h
  · -- the fallback arm: no allowed command reaches it
    simp only [allowedCommands, List.mem_cons, List.not_mem_nil, or_false] at hname
    tauto

section

variable (hdoc : parseDocument lib parseJson query.sql = some doc)
  (hfirst : firstCommandName doc = some command)

include hdoc hfirst

/-- `dispatch` on a parsed document with an allowed first name. -/
theorem dispatch_eq :
    dispatch lib parseJson query effectiveMs = (do
      let marker ← driver .newMarker
      driver (.armKill marker)
      let result ← runArm lib command (OrdMap.insert (OrdMap.insert doc "maxTimeMS"
        (.int effectiveMs)) "comment" (.string marker)) query.rowLimit
      driver .disarmKill
      return result) := by
  unfold dispatch
  simp only [hdoc, hfirst]

theorem dispatch_sends (h : Asks A (dispatch lib parseJson query effectiveMs) r)
    (hs : Sends r cmd) :
    ∃ marker, A .newMarker marker ∧ Stamped doc cmd effectiveMs marker := by
  rw [dispatch_eq hdoc hfirst, ask_bind, asks_await] at h
  rcases h with rfl | ⟨marker, hmarker, h⟩
  · exact hs.elim
  rw [ask_bind, asks_await] at h
  rcases h with rfl | ⟨_, -, h⟩
  · exact hs.elim
  rcases asks_bind.mp h with h | ⟨result, -, h⟩
  · rw [runArm_sends h hs]
    exact ⟨marker, hmarker, stamped_insert doc effectiveMs marker⟩
  · rw [ask_bind, asks_await] at h
    rcases h with rfl | ⟨_, -, h⟩
    · exact hs.elim
    · exact absurd h asks_ret

theorem dispatch_error (hname : command ∈ allowedCommands)
    (h : Returns A (dispatch lib parseJson query effectiveMs) (.error e)) :
    ∃ e', e = classify e' := by
  rw [dispatch_eq hdoc hfirst, ask_bind, returns_await] at h
  obtain ⟨marker, -, h⟩ := h
  rw [ask_bind, returns_await] at h
  obtain ⟨_, -, h⟩ := h
  obtain ⟨result, hresult, h⟩ := returns_bind.mp h
  rw [ask_bind, returns_await] at h
  obtain ⟨_, -, h⟩ := h
  cases h
  exact runArm_error hname hresult

end

end Sent

/-- **The Mongo guard and the dispatcher agree.** Whenever the rejector accepts a
    command text and the dispatcher parses a document from it: the document starts
    with an allowed command name and contains no denied name at any depth; the
    dispatcher does not end in its fallback arm (it never answers `Forbidden`); and
    every command it sends is the document with `maxTimeMS` set to the effective
    timeout and `comment` to the marker of this call. -/
theorem execute_sends (lib : BsonLib) (parseJson : ParseJson) (query : ExecQuery)
    (hok : validateCommand parseJson query.sql = .ok ()) (doc : Document)
    (hdoc : parseDocument lib parseJson query.sql = some doc)
    (A : (r : MongoReq) → MongoResp r → Prop) :
    (∃ command ∈ allowedCommands, firstCommandName doc = some command) ∧
      (∀ k ∈ (Bson.document doc).keys, k ∉ deniedOperators) ∧
      (∀ reason, ¬ Returns A (execute lib parseJson query) (.error (.forbidden reason))) ∧
      ∀ r cmd, Asks A (execute lib parseJson query) r → Sends r cmd →
        firstCommandName cmd = firstCommandName doc ∧
        ∃ marker, A .newMarker marker ∧
          Stamped doc cmd (effectiveTimeoutMs query.statementTimeoutMs) marker := by
  obtain ⟨members, hparse, hhead, hkeys⟩ := parseDocument_some hdoc
  obtain ⟨⟨command, hname, hcommand⟩, hdenied⟩ := validateCommand_ok hparse hok
  have hfirst : firstCommandName doc = some command := hhead.trans hcommand
  have hexecute : execute lib parseJson query =
      dispatch lib parseJson query (effectiveTimeoutMs query.statementTimeoutMs) := by
    unfold execute
    rw [hok]
  rw [hexecute]
  refine ⟨⟨command, hname, hfirst⟩, fun k hk => hdenied k (hkeys k hk), ?_, ?_⟩
  · intro reason h
    obtain ⟨e, he⟩ := dispatch_error hdoc hfirst hname h
    exact classify_ne_forbidden e reason he.symm
  · intro r cmd h hs
    obtain ⟨marker, hmarker, hstamped⟩ := dispatch_sends hdoc hfirst h hs
    exact ⟨hstamped.first (by simp [hfirst]), marker, hmarker, hstamped⟩

/-- A library without extended-JSON forms. -/
def plainLib : BsonLib where
  convert _ := none
  toJson _ := .null
  convert_keys h := by cases h
  convert_not_document h := by cases h

/-- A command that asks for a budget of its own, twice. -/
def repeatedBudget : String :=
  "\x7b\"find\":\"users\",\"maxTimeMS\":1,\"filter\":\x7b\"id\":7\x7d,\"maxTimeMS\":900000\x7d"

/-- A parser of this text. -/
def parseBudget : ParseJson := fun text =>
  if text = repeatedBudget then
    some (.obj [("find", .str "users"), ("maxTimeMS", .int 1), ("filter", .obj [("id", .int 7)]),
      ("maxTimeMS", .int 900000)])
  else none

/-- The theorem at this command: the command that is sent carries the effective timeout. -/
theorem execute_sends_repeatedBudget :
    ∃ cmd, Asks (fun _ _ => True) (execute plainLib parseBudget ⟨repeatedBudget, [], none, 10⟩)
        (.runCursorCommand cmd) ∧
      firstCommandName cmd = some "find" ∧
      ∃ marker, True ∧ Stamped [("find", .string "users"), ("maxTimeMS", .int 900000),
        ("filter", .document [("id", .int 7)])] cmd 30000 marker := by
  have hsent := (execute_sends plainLib parseBudget ⟨repeatedBudget, [], none, 10⟩
    (by decide) _ rfl (fun _ _ => True)).2.2.2
  have hasked : ∃ cmd, Asks (fun _ _ => True) (execute plainLib parseBudget
      ⟨repeatedBudget, [], none, 10⟩) (.runCursorCommand cmd) :=
    ⟨_, .later (x := "marker") trivial (.later (x := ()) trivial .here)⟩
  obtain ⟨cmd, hasked⟩ := hasked
  exact ⟨cmd, hasked, hsent _ cmd hasked rfl⟩

/-! ## The row limit -/

/-- How a target behaves during one call: the marker drawn for it, the reply to a
    cursor command, the documents the cursor delivers and the error (if any) that
    ends them, and the reply to a plain command. -/
structure MongoTarget where
  marker : String
  cursor : Except MongoError Unit
  documents : List Document
  cursorError : Option MongoError
  response : Except MongoError Document
  elapsedMs : ℕ

/-- The target's reply to each request; the state is the part of the cursor not
    yet read. -/
def server (t : MongoTarget) : (r : MongoReq) → List Document → MongoResp r × List Document
  | .newMarker, s => (t.marker, s)
  | .armKill _, s => ((), s)
  | .runCursorCommand _, _ => (t.cursor, t.documents)
  | .cursorNext, s =>
    match s with
    | doc :: rest => (some (.ok doc), rest)
    | [] =>
      match t.cursorError with
      | some e => (some (.error e), [])
      | none => (none, [])
  | .runCommand _, s => (t.response, s)
  | .elapsed, s => (t.elapsedMs, s)
  | .disarmKill, s => ((), s)

/-- One call of `execute` on a target. -/
def runOn (lib : BsonLib) (parseJson : ParseJson) (t : MongoTarget) (query : ExecQuery) :
    Except ExecError ExecResult :=
  (Prog.run (server t) (execute lib parseJson query) []).1

/-- The number in the response of a count. -/
def countValue (response : Document) : Json :=
  match OrdMap.get? response "n" with
  | some (.int n) => .int n
  | _ => .null

/-- The values in the response of a `distinct`. -/
def distinctValues (response : Document) : List Bson :=
  match OrdMap.get? response "values" with
  | some (.array values) => values
  | _ => []

/-- The rows a command has on the target, whatever the limit: the documents of the
    cursor, the one row of a count, the values of a `distinct`. -/
def wholeResult (lib : BsonLib) (commandName : String) (t : MongoTarget) : List (List Json) :=
  if commandName = "find" ∨ commandName = "aggregate" then
    t.documents.map fun doc => [lib.toJson (.document doc)]
  else match t.response with
    | .error _ => []
    | .ok response =>
      if commandName = "count" then [[countValue response]]
      else (distinctValues response).map fun b => [lib.toJson b]

def ErrorFree (commandName : String) (t : MongoTarget) : Prop :=
  if commandName = "find" ∨ commandName = "aggregate" then t.cursor = .ok () ∧ t.cursorError = none
  else ∃ response, t.response = .ok response

section Limit

variable {lib : BsonLib} {t : MongoTarget}

/-- The draining loop: it returns all documents if there is room for them, and
    stops at the first document beyond the limit otherwise. -/
theorem run_drainCursor (herror : t.cursorError = none) (documents : List Document) (room : ℕ)
    (rows : List (List Json)) :
    (Prog.run (server t) (drainCursor lib room rows) documents).1 =
      .ok (rows ++ (documents.take room).map (fun doc => [lib.toJson (.document doc)]),
        decide (room < documents.length)) := by
  induction documents generalizing room rows with
  | nil =>
    rw [drainCursor]
    simp [server, herror]
  | cons doc documents ih =>
    rw [drainCursor]
    cases room with
    | zero => simp [server]
    | succ room =>
      simp only [ask_bind, run_await, server]
      rw [ih]
      simp

variable {cmd : Document} {rowLimit : ℕ} {s : List Document}

theorem run_runCursor (hcursor : t.cursor = .ok ()) (herror : t.cursorError = none) :
    ∃ result, (Prog.run (server t) (runCursor lib cmd rowLimit) s).1 = .ok result ∧
      Capped rowLimit (t.documents.map fun doc => [lib.toJson (.document doc)]) result := by
  simp only [runCursor, ask_bind, run_await, server, hcursor, run_bind,
    run_drainCursor herror]
  refine ⟨_, rfl, ?_, ?_⟩
  · simp [List.map_take]
  · simp

theorem run_runCount {response : Document} (hresponse : t.response = .ok response) :
    ∃ result, (Prog.run (server t) (runCount cmd rowLimit) s).1 = .ok result ∧
      Capped rowLimit [[countValue response]] result := by
  simp only [runCount, ask_bind, run_await, server, hresponse]
  cases rowLimit with
  | zero => exact ⟨_, rfl, by simp, by simp⟩
  | succ rowLimit => exact ⟨_, rfl, by simp [countValue], by simp⟩

theorem run_runDistinct {response : Document} (hresponse : t.response = .ok response) :
    ∃ result, (Prog.run (server t) (runDistinct lib cmd rowLimit) s).1 = .ok result ∧
      Capped rowLimit ((distinctValues response).map fun b => [lib.toJson b]) result := by
  simp only [runDistinct, ask_bind, run_await, server, hresponse]
  refine ⟨_, rfl, ?_, ?_⟩
  · rw [← List.map_take]
    rfl
  · rw [List.length_map]
    exact decide_eq_true_iff

theorem run_runArm {commandName : String} (hname : commandName ∈ allowedCommands)
    (h : ErrorFree commandName t) :
    ∃ result, (Prog.run (server t) (runArm lib commandName cmd rowLimit) s).1 = .ok result ∧
      Capped rowLimit (wholeResult lib commandName t) result := by
  unfold ErrorFree at h
  unfold runArm wholeResult
  split_ifs at h ⊢ with hcursor hcount hdistinct
  · exact run_runCursor h.1 h.2
  · obtain ⟨response, hresponse⟩ := h
    rw [hresponse]
    exact run_runCount hresponse
  · obtain ⟨response, hresponse⟩ := h
    rw [hresponse]
    exact run_runDistinct hresponse
  · simp only [allowedCommands, List.mem_cons, List.not_mem_nil, or_false] at hname
    tauto

/-- **The arms implement the row limit.** An accepted command without an error is
    answered with the first `row_limit` rows of its arm, and is flagged iff there
    are more. -/
theorem runOn_capped {parseJson} (query : ExecQuery) {doc : Document}
    {commandName : String} (hok : validateCommand parseJson query.sql = .ok ())
    (hdoc : parseDocument lib parseJson query.sql = some doc)
    (hfirst : firstCommandName doc = some commandName) (h : ErrorFree commandName t) :
    ∃ result, runOn lib parseJson t query = .ok result ∧
      Capped query.rowLimit (wholeResult lib commandName t) result := by
  obtain ⟨members, hparse, hhead, -⟩ := parseDocument_some hdoc
  obtain ⟨⟨command, hname, hcommand⟩, -⟩ := validateCommand_ok hparse hok
  have hsame : commandName = command :=
    Option.some.inj (hfirst.symm.trans (hhead.trans hcommand))
  rw [← hsame] at hname
  have hexecute : execute lib parseJson query =
      dispatch lib parseJson query (effectiveTimeoutMs query.statementTimeoutMs) := by
    unfold execute
    rw [hok]
  unfold runOn
  rw [hexecute, dispatch_eq hdoc hfirst]
  simp only [ask_bind, run_await, server, run_bind, run_ret, pure_eq]
  exact run_runArm hname h

end Limit

end DbMcpGateway.Exec.Mongo
