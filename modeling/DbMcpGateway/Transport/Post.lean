import DbMcpGateway.Tools.Dispatch

/-!
# The JSON-RPC endpoint

`post_handler` (transport/mod.rs) reads a body as a `Request`, sends `tools/call` to
`dispatch_call` and everything else to `dispatch` (transport/dispatch.rs), which answers by itself.
Both treat the `id` member (transport/jsonrpc.rs) on their own: absent, `null` or present.

`SerdeJson` is what the handler takes from `serde_json`: the tree of a text, in which the members
of an object stand as they were written, and `Value::deserialize` of a part of it. Nothing is
assumed about either. The headers of the reply and the log lines are left out.

Results:

* `postHandler_untouched`: unless a tool is called properly, the reply is a constant: it does not
  depend on the config, the registry or the state DB, and nothing is asked of them.
* `postHandler_gated`: that, and the reply to every body with the right version.
-/

namespace DbMcpGateway.Transport

open Async Async.Prog Authz Config Tools

/-! ## Requests -/

/-- `JSONRPC_VERSION` (transport/jsonrpc.rs:8). -/
def jsonrpcVersion : String := "2.0"

/-- `ErrorObject::parse_error` (transport/jsonrpc.rs:163). -/
def ErrorObject.parseError : ErrorObject := ⟨-32700, "Parse error"⟩

/-- `ErrorObject::invalid_request` (transport/jsonrpc.rs:167). -/
def ErrorObject.invalidRequest : ErrorObject := ⟨-32600, "Invalid request"⟩

/-- `ErrorObject::method_not_found` (transport/jsonrpc.rs:171). -/
def ErrorObject.methodNotFound (method : String) : ErrorObject :=
  ⟨-32601, "Method not found: " ++ method⟩

/-- `enum RequestId` (transport/jsonrpc.rs:34). -/
inductive RequestId
  | absent
  | null
  | present (value : Json)

namespace RequestId

/-- `RequestId::is_notification` (transport/jsonrpc.rs:45). -/
def isNotification : RequestId → Bool
  | .absent => true
  | _ => false

/-- `RequestId::is_null` (transport/jsonrpc.rs:51). -/
def isNull : RequestId → Bool
  | .null => true
  | _ => false

/-- `Number::is_i64`, of an integer. -/
def isI64 (n : ℤ) : Bool := -2 ^ 63 ≤ n ∧ n < 2 ^ 63

/-- `Number::is_u64`, of an integer. -/
def isU64 (n : ℤ) : Bool := 0 ≤ n ∧ n < 2 ^ 64

/-- `RequestId::is_invalid_type` (transport/jsonrpc.rs:65). -/
def isInvalidType : RequestId → Bool
  | .present (.str _) => false
  | .present (.int n) => !(isI64 n || isU64 n)
  | .present _ => true
  | _ => false

/-- `RequestId::response_id` (transport/jsonrpc.rs:77). -/
def responseId : RequestId → Json
  | .present v => v
  | _ => .null

/-- The result of `RequestId::deserialize` (transport/jsonrpc.rs:89). -/
def ofValue : Json → RequestId
  | .null => .null
  | other => .present other

end RequestId

/-- What is taken from `serde_json`. -/
structure SerdeJson where
  /-- The tree of a text. -/
  parse : String → Option Json
  /-- `Value::deserialize`; it fails for a number beyond `f64`, for example. -/
  value : Json → Option Json

/-- `struct Request` (transport/jsonrpc.rs:101). -/
structure Request where
  jsonrpc : String
  id : RequestId
  method : String
  params : Option Json

namespace Request

def fieldNames : List String := ["jsonrpc", "id", "method", "params"]

/-- A field of the record is there twice; `serde` refuses that. -/
def repeatsField : Json → Bool
  | .obj members => fieldNames.any fun name => 1 < members.countP fun e => e.1 == name
  | _ => false

/-- The field `id`, with `#[serde(default)]`. -/
def readId (serde : SerdeJson) : Option Json → Option RequestId
  | none => some .absent
  | some j => (serde.value j).map RequestId.ofValue

/-- The field `params`, with `#[serde(default)]`. -/
def readParams (serde : SerdeJson) : Option Json → Option (Option Json)
  | none => some none
  | some .null => some none
  | some j => (serde.value j).map some

/-- The derived `Request::deserialize`: from an object by name, from an array by position. -/
def fromTree (serde : SerdeJson) (tree : Json) : Option Request :=
  if repeatsField tree then none
  else
    match tree.fields fieldNames with
    | some [jsonrpc, id, method, params] => do
      return { jsonrpc := ← Json.string jsonrpc, id := ← readId serde id
               method := ← Json.string method, params := ← readParams serde params }
    | _ => none

/-- `serde_json::from_str::<Request>`. -/
def fromStr (serde : SerdeJson) (body : String) : Option Request :=
  (serde.parse body).bind (fromTree serde)

end Request

/-! ## The stateless methods -/

/-- `InitializeResult::new` (transport/protocol.rs:36), serialized. -/
def initializeResult : Json :=
  .obj [("protocolVersion", .str "2025-06-18"),
    ("capabilities", .obj [("tools", .obj [])]),
    ("serverInfo", .obj [("name", .str "db-mcp-gateway"), ("version", .str "1.6.0")])]

def inputSchema (properties : List (String × Json)) (required : List String) : Json :=
  .obj [("type", .str "object"), ("properties", .obj properties),
    ("required", .arr (required.map .str)), ("additionalProperties", .bool false)]

def stringSchema : Json := .obj [("type", .str "string")]

def limitSchema : Json := .obj [("type", .str "integer"), ("minimum", .int 1)]

/-- The `description` and the `inputSchema` of a tool (transport/protocol.rs:88). -/
def toolSpec : Tool → String × Json
  | .listServers =>
    ("List the database servers the caller is permitted to see. Returns logical name, kind, " ++
      "and description — no connection info.",
      .obj [("type", .str "object"), ("properties", .obj []), ("additionalProperties", .bool false)])
  | .listDatabases =>
    ("List databases on a configured server that the caller is permitted to see. Returns " ++
      "logical name + description — no connection info.",
      inputSchema [("server", stringSchema)] ["server"])
  | .describeSchema =>
    ("Return tables + columns + types for a given database. Optional `schema` (default " ++
      "`public`) and `table` narrow the result. No row data is returned.",
      inputSchema [("server", stringSchema), ("database", stringSchema), ("schema", stringSchema),
        ("table", stringSchema)] ["server", "database"])
  | .sampleTable =>
    ("Return a small sample of rows from a table — `SELECT * FROM \"<schema>\".\"<table>\" " ++
      "LIMIT n`. Useful for \"what does this data look like\" without writing SQL. Schema and " ++
      "table identifiers must be plain alphanumerics.",
      inputSchema [("server", stringSchema), ("database", stringSchema), ("table", stringSchema),
        ("schema", stringSchema), ("limit", limitSchema), ("reason", stringSchema)]
        ["server", "database", "table"])
  | .explain =>
    ("Return the query plan for a SELECT/CTE via `EXPLAIN (FORMAT JSON)`. SQL is AST-validated " ++
      "read-only before wrapping; the query itself is not executed.",
      inputSchema [("server", stringSchema), ("database", stringSchema), ("sql", stringSchema),
        ("reason", stringSchema)] ["server", "database", "sql"])
  | .runQuery =>
    ("Execute SQL against a configured (server, database) under the caller's grants. Returns " ++
      "columns, rows, truncation flag, and elapsed_ms. Statement timeout + row cap enforced by " ++
      "policy.",
      inputSchema [("server", stringSchema), ("database", stringSchema), ("sql", stringSchema),
        ("limit", limitSchema), ("reason", stringSchema)] ["server", "database", "sql"])
  | .getQueryHistory =>
    ("Return the caller's recent queries against a configured (server, database): SQL, " ++
      "timestamp, duration, row count, and outcome. Lets the agent recover context across " ++
      "sessions. Scoping is on the SSO-verified identity, NEVER on a client-supplied user field.",
      inputSchema [("server", stringSchema), ("database", stringSchema),
        ("since", .obj [("type", .str "string"), ("format", .str "date-time"), ("description",
          .str ("RFC 3339 timestamp; only entries occurred at or after this instant are " ++
            "returned."))]),
        ("limit", .obj [("type", .str "integer"), ("minimum", .int 1), ("description",
          .str "Max entries to return; clamped to the gateway ceiling.")])]
        ["server", "database"])

/-- `ToolsListResult::current` (transport/protocol.rs:91), serialized. -/
def toolsListResult : Json :=
  let tools : List Tool := [.listServers, .listDatabases, .describeSchema, .sampleTable, .explain,
    .runQuery, .getQueryHistory]
  .obj [("tools", .arr (tools.map fun tool =>
    .obj [("name", .str tool.name), ("description", .str (toolSpec tool).1),
      ("inputSchema", (toolSpec tool).2)]))]

/-- `dispatch` (transport/dispatch.rs:13), the methods. -/
def dispatchMethod (id : Json) (method : String) : Response :=
  if method = "initialize" then .ofResult id initializeResult
  else if method = "notifications/initialized" then .ofError id .invalidRequest
  else if method = "ping" then .ofResult id (.obj [])
  else if method = "tools/list" then .ofResult id toolsListResult
  else if method = "tools/call" then
    .ofError id (.internal "tools/call must be routed via tools::dispatch_call")
  else .ofError id (.methodNotFound method)

theorem dispatchMethod_id (id : Json) (method : String) : (dispatchMethod id method).id = id := by
  unfold dispatchMethod
  split_ifs <;> rfl

/-- `dispatch` (transport/dispatch.rs:13). -/
def dispatch (request : Request) : Option Response :=
  if request.id.isNotification then none
  else if request.id.isNull then some (.ofError request.id.responseId .invalidRequest)
  else if request.id.isInvalidType then some (.ofError request.id.responseId .invalidRequest)
  else some (dispatchMethod request.id.responseId request.method)

/-! ## The handler -/

inductive Reply
  /-- 202, without a body. -/
  | accepted
  /-- 200, with one response. -/
  | json (response : Response)

/-- What the handler takes from the connection and the headers; `none` inside a header is a value
    that is not a text. -/
structure Peer where
  ip : Option String
  userAgent : Option (Option String)
  mcpClient : Option (Option String)
  /-- The `Uuid::new_v4` of `from_request`. -/
  requestId : String

/-- `RequestContext::from_request` (tools/audit_dispatch/types.rs:73), with the header that the
    handler chooses. -/
def Peer.context (peer : Peer) : RequestContext where
  ip := peer.ip
  agentClient := (peer.userAgent.or peer.mcpClient).join
  requestId := peer.requestId

/-- The parts of `AppState` that a call may use. -/
structure Gateway where
  ext : Extern
  config : ConfigFile
  permissionsCache : Bool
  stateDb : Bool

/-- `post_handler` (transport/mod.rs:211), the branch of `tools/call`. -/
def postCall (gateway : Gateway) (identity : Option Identity) (peer : Peer) (request : Request) :
    DispatchProg ToolResp Reply :=
  if request.id.isNotification then return .accepted
  else if request.id.isNull then return .json (.ofError .null .invalidRequest)
  else if request.id.isInvalidType then
    return .json (.ofError request.id.responseId .invalidRequest)
  else do
    let response ← dispatchCall gateway.ext request.id.responseId identity gateway.config
      gateway.permissionsCache gateway.stateDb peer.context request.params
    return .json response

/-- `post_handler` (transport/mod.rs:211). -/
def postHandler (serde : SerdeJson) (gateway : Gateway) (identity : Option Identity) (peer : Peer)
    (body : String) : DispatchProg ToolResp Reply :=
  match Request.fromStr serde body with
  | none => return .json (.ofError .null .parseError)
  | some request =>
    if request.jsonrpc ≠ jsonrpcVersion then
      return .json (.ofError request.id.responseId .invalidRequest)
    else if request.method = "tools/call" then postCall gateway identity peer request
    else
      match dispatch request with
      | some response => return .json response
      | none => return .accepted

/-! ## The gate -/

/-- An id that MCP accepts: a string, or an integer that fits `i64` or `u64`. -/
inductive ValidId : Json → Prop
  | str (s : String) : ValidId (.str s)
  | int {n} (h : -2 ^ 63 ≤ n ∧ n < 2 ^ 64) : ValidId (.int n)

/-- The parameters carry a name: as a member, or in the first position. -/
inductive HasName : Json → String → Prop
  | obj {members name}
      (h : OrdMap.get? members "name" = some (.str name)) : HasName (.obj members) name
  | arr {name rest} : HasName (.arr (.str name :: rest)) name

structure ToolCall (serde : SerdeJson) (identity : Option Identity) (body : String)
    (request : Request) (name : String) : Prop where
  parses : Request.fromStr serde body = some request
  version : request.jsonrpc = "2.0"
  method : request.method = "tools/call"
  id : ∃ v, request.id = .present v ∧ ValidId v
  identity : identity.isSome
  params : ∃ params, request.params = some params ∧ HasName params name

/-- The `id` member of a request. -/
def idMember : Json → Option Json
  | .obj members => (members.find? fun e => e.1 == "id").map (·.2)
  | .arr items => items[1]?
  | _ => none

theorem isInvalidType_eq_false {v : Json} (h : (RequestId.present v).isInvalidType = false) :
    ValidId v := by
  cases v with
  | str s => exact .str s
  | int n =>
    simp only [RequestId.isInvalidType, RequestId.isI64, RequestId.isU64, Bool.not_eq_false',
      Bool.or_eq_true, decide_eq_true_eq] at h
    exact .int (by omega)
  | _ => cases h

theorem ValidId.isInvalidType {v : Json} (h : ValidId v) :
    (RequestId.present v).isInvalidType = false := by
  cases h with
  | str s => rfl
  | int h =>
    simp only [RequestId.isInvalidType, RequestId.isI64, RequestId.isU64, Bool.not_eq_false',
      Bool.or_eq_true, decide_eq_true_eq]
    omega

theorem hasName_of_fromValue {v : Json} {call : CallParams} (h : CallParams.fromValue v = some call) :
    HasName v call.name := by
  unfold CallParams.fromValue at h
  split at h
  · rename_i name arguments hfields
    obtain ⟨text, htext, rfl⟩ : ∃ text, Json.string name = some text ∧
        (⟨text, Json.optValue arguments⟩ : CallParams) = call := by
      simpa [Option.bind_eq_some_iff] using h
    have hname : name = some (.str text) := by
      unfold Json.string at htext
      split at htext
      · rw [Option.some.inj htext]
      · cases htext
    subst hname
    cases v with
    | obj members =>
      simp only [Json.fields, List.map_cons, Option.some.injEq, List.cons.injEq] at hfields
      exact .obj hfields.1
    | arr items =>
      cases items with
      | nil => simp [Json.fields] at hfields
      | cons first rest =>
        simp only [Json.fields] at hfields
        split_ifs at hfields
        simp at hfields
        obtain ⟨rfl, -⟩ := hfields
        exact .arr
    | _ => cases hfields
  · cases h

/-- A short array is filled up with absent fields. -/
theorem idMember_arr {items : List Json} {jsonrpc id method params} {n : ℕ}
    (h : items.map some ++ List.replicate n none = [jsonrpc, id, method, params]) :
    idMember (.arr items) = id := by
  have hfill : ∀ {l : List (Option Json)}, List.replicate n none = l → ∀ o ∈ l, o = none :=
    fun heq o ho => List.eq_of_mem_replicate (heq ▸ ho)
  match items with
  | [] => exact (hfill h id (by simp)).symm
  | [first] => exact (hfill (List.cons.inj h).2 id (by simp)).symm
  | first :: second :: rest => exact (List.cons.inj (List.cons.inj h).2).1

/-- The id of a request is what was read from the `id` member. -/
theorem readId_idMember {serde} {tree : Json} {request : Request}
    (h : Request.fromTree serde tree = some request) :
    Request.readId serde (idMember tree) = some request.id := by
  unfold Request.fromTree at h
  split_ifs at h
  split at h
  · rename_i jsonrpc id method params hfields
    have hid : idMember tree = id := by
      cases tree with
      | obj members =>
        simp only [Json.fields, Request.fieldNames, List.map_cons, Option.some.injEq,
          List.cons.injEq] at hfields
        exact hfields.2.1
      | arr items =>
        simp only [Json.fields] at hfields
        split_ifs at hfields
        exact idMember_arr (Option.some.inj hfields)
      | _ => cases hfields
    rw [hid]
    simp only [Option.bind_eq_bind, Option.bind_eq_some_iff] at h
    obtain ⟨_, -, requestId, hread, _, -, _, -, hreq⟩ := h
    rw [hread, ← Option.some.inj hreq]
  · cases h

/-- The reply that depends on the id alone; `none` if the id is proper. -/
def refuseId : RequestId → Option Reply
  | .absent => some .accepted
  | .null => some (.json (.ofError .null .invalidRequest))
  | .present v =>
    if (RequestId.present v).isInvalidType then some (.json (.ofError v .invalidRequest)) else none

theorem validId_of_refuseId {id} (h : refuseId id = none) : ∃ v, id = .present v ∧ ValidId v := by
  cases id with
  | absent => cases h
  | null => cases h
  | present v =>
    cases hinvalid : (RequestId.present v).isInvalidType with
    | true => rw [refuseId, if_pos hinvalid] at h; cases h
    | false => exact ⟨v, rfl, isInvalidType_eq_false hinvalid⟩

/-- A present id, `null` included, is refused with its own value. -/
theorem refuseId_ofValue (v : Json) :
    refuseId (.ofValue v) = none ∧ ValidId v ∧ (RequestId.ofValue v).responseId = v ∨
    refuseId (.ofValue v) = some (.json (.ofError v .invalidRequest)) ∧ ¬ ValidId v := by
  cases hnull : RequestId.ofValue v with
  | absent => cases v <;> cases hnull
  | null =>
    have hv : v = .null := by cases v <;> first | rfl | cases hnull
    rw [hv]
    exact .inr ⟨rfl, nofun⟩
  | present w =>
    have hw : w = v := by cases v <;> cases hnull <;> rfl
    rw [hw]
    cases hinvalid : (RequestId.present v).isInvalidType with
    | true =>
      refine .inr ⟨if_pos hinvalid, fun hvalid => ?_⟩
      rw [hvalid.isInvalidType] at hinvalid
      cases hinvalid
    | false =>
      refine .inl ⟨if_neg ?_, isInvalidType_eq_false hinvalid, rfl⟩
      rw [hinvalid]
      nofun

section

variable {serde : SerdeJson} {identity : Option Identity} {body : String} {request : Request}

/-- The branch of `tools/call` and the stateless methods refuse the same ids. -/
theorem postHandler_eq (gateway : Gateway) (identity : Option Identity) (peer : Peer)
    (hparse : Request.fromStr serde body = some request) (hversion : request.jsonrpc = "2.0") :
    postHandler serde gateway identity peer body =
      match refuseId request.id with
      | some reply => ret reply
      | none =>
        if request.method = "tools/call" then do
          let response ← dispatchCall gateway.ext request.id.responseId identity gateway.config
            gateway.permissionsCache gateway.stateDb peer.context request.params
          return .json response
        else ret (.json (dispatchMethod request.id.responseId request.method)) := by
  obtain ⟨jsonrpc, id, method, params⟩ := request
  cases hversion
  simp only [postHandler, hparse]
  cases id with
  | absent => simp [postCall, dispatch, refuseId, RequestId.isNotification, jsonrpcVersion]
  | null =>
    simp [postCall, dispatch, refuseId, RequestId.isNotification, RequestId.isNull,
      RequestId.responseId, jsonrpcVersion]
  | present v =>
    by_cases hinvalid : (RequestId.present v).isInvalidType <;>
      simp [postCall, dispatch, refuseId, RequestId.isNotification, RequestId.isNull,
        RequestId.responseId, jsonrpcVersion, hinvalid]

theorem postHandler_untouched (h : ¬ ∃ request name, ToolCall serde identity body request name) :
    ∃ reply, ∀ gateway peer, postHandler serde gateway identity peer body = ret reply := by
  cases hparse : Request.fromStr serde body with
  | none => exact ⟨_, fun _ _ => by simp only [postHandler, hparse]; rfl⟩
  | some request =>
    by_cases hversion : request.jsonrpc = "2.0"
    · have heq := fun gateway peer =>
        postHandler_eq gateway identity peer hparse hversion
      cases hid : refuseId request.id with
      | some reply =>
        rw [hid] at heq
        exact ⟨reply, heq⟩
      | none =>
        rw [hid] at heq
        by_cases hmethod : request.method = "tools/call"
        · simp only [if_pos hmethod] at heq
          cases identity with
          | none => exact ⟨_, heq⟩
          | some caller =>
            cases hcall : request.params.bind CallParams.fromValue with
            | none =>
              simp only [dispatchCall, hcall] at heq
              exact ⟨_, heq⟩
            | some call =>
              obtain ⟨params, hparams, hcall⟩ := Option.bind_eq_some_iff.mp hcall
              exact absurd ⟨request, call.name, hparse, hversion, hmethod,
                validId_of_refuseId hid, rfl, params, hparams, hasName_of_fromValue hcall⟩ h
        · simp only [if_neg hmethod] at heq
          exact ⟨_, heq⟩
    · exact ⟨_, fun _ _ => by simp only [postHandler, hparse]; exact if_pos hversion⟩

/-- The reply to a body with the tree `tree`. -/
structure Answered (serde : SerdeJson) (gateway : Gateway) (identity : Option Identity) (peer : Peer)
    (body : String) (tree : Json) : Prop where
  /-- Without an id, nothing is executed, whatever the method is. -/
  notification : idMember tree = none →
    postHandler serde gateway identity peer body = ret .accepted
  /-- With an id, there is one response with the id, and a refused id is all it is about. -/
  response : ∀ j, idMember tree = some j → ∃ v, serde.value j = some v ∧
    ∀ (σ : Type) (h : (r : DispatchReq ToolReq) → σ → DispatchResp ToolResp r × σ) (s : σ),
    ∃ response, ((postHandler serde gateway identity peer body).run h s).1 = .json response ∧
      response.id = v ∧ (¬ ValidId v → response = .ofError v .invalidRequest)

theorem answered {tree : Json} (gateway : Gateway) (peer : Peer) (htree : serde.parse body = some tree)
    (hrequest : Request.fromTree serde tree = some request) (hversion : request.jsonrpc = "2.0") :
    Answered serde gateway identity peer body tree := by
  have hparse : Request.fromStr serde body = some request := by
    rw [Request.fromStr, htree, Option.bind_some, hrequest]
  have heq := postHandler_eq gateway identity peer hparse hversion
  have hread := readId_idMember hrequest
  constructor
  · intro hmember
    rw [hmember, Request.readId] at hread
    rw [heq, ← Option.some.inj hread]
    rfl
  · intro j hmember
    rw [hmember, Request.readId, Option.map_eq_some_iff] at hread
    obtain ⟨v, hv, hid⟩ := hread
    refine ⟨v, hv, fun σ h s => ?_⟩
    rw [heq, ← hid]
    obtain ⟨hnone, hvalid, hresponseId⟩ | ⟨hsome, hinvalid⟩ := refuseId_ofValue v
    · rw [hnone, hresponseId]
      dsimp only
      split_ifs with hmethod
      · have hgives := gives_dispatchCall gateway.ext v identity gateway.config
          gateway.permissionsCache gateway.stateDb peer.context request.params
        rw [run_bind]
        exact ⟨_, rfl, hgives.run h s, fun hnot => absurd hvalid hnot⟩
      · exact ⟨_, rfl, dispatchMethod_id v request.method, fun hnot => absurd hvalid hnot⟩
    · rw [hsome]
      exact ⟨_, rfl, rfl, fun _ => rfl⟩

end

/-- The gate in front of the tools. -/
theorem postHandler_gated (serde : SerdeJson) (identity : Option Identity) (body : String) :
    ((¬ ∃ request name, ToolCall serde identity body request name) →
      ∃ reply, ∀ gateway peer, postHandler serde gateway identity peer body = ret reply) ∧
    ∀ tree request, serde.parse body = some tree → Request.fromTree serde tree = some request →
      request.jsonrpc = "2.0" → ∀ gateway peer, Answered serde gateway identity peer body tree :=
  ⟨postHandler_untouched, fun _ _ htree hrequest hversion gateway peer =>
    answered gateway peer htree hrequest hversion⟩

/-- A call of a tool without an id. -/
def notification : String :=
  "\x7b\"jsonrpc\":\"2.0\",\"method\":\"tools/call\",\"params\":\x7b\"name\":\"list_servers\"\x7d\x7d"

def notificationTree : Json :=
  .obj [("jsonrpc", .str "2.0"), ("method", .str "tools/call"),
    ("params", .obj [("name", .str "list_servers")])]

/-- A parser of this text. -/
def notificationSerde : SerdeJson :=
  ⟨fun body => if body = notification then some notificationTree else none, some⟩

/-- It is accepted and not executed. -/
theorem postHandler_gated_notification :
    (∃ reply, ∀ gateway peer, postHandler notificationSerde gateway
      (some ⟨"alice", "alice@corp", ["eng"]⟩) peer notification = ret reply) ∧
    ∀ gateway peer, postHandler notificationSerde gateway
      (some ⟨"alice", "alice@corp", ["eng"]⟩) peer notification = ret .accepted := by
  have hgated := postHandler_gated notificationSerde (some ⟨"alice", "alice@corp", ["eng"]⟩)
    notification
  have htree : notificationSerde.parse notification = some notificationTree := by
    simp [notificationSerde]
  refine ⟨hgated.1 ?_, fun gateway peer =>
    (hgated.2 _ _ htree rfl rfl gateway peer).notification rfl⟩
  rintro ⟨request, name, hcall⟩
  obtain ⟨v, hv, -⟩ := hcall.id
  have hparse := hcall.parses
  rw [Request.fromStr, htree] at hparse
  cases hparse
  cases hv

end DbMcpGateway.Transport
