import DbMcpGateway.Data.Json

/-!
# JSON-RPC responses

The response envelope (transport/jsonrpc.rs) and the result of a tool call
(transport/protocol.rs). The `data` member of an error is never set by the
gateway and is left out.
-/

namespace DbMcpGateway.Transport

/-- `INVALID_PARAMS` (transport/jsonrpc.rs:14). -/
def invalidParamsCode : ℤ := -32602

/-- `INTERNAL_ERROR` (transport/jsonrpc.rs:15). -/
def internalErrorCode : ℤ := -32603

/-- `struct ErrorObject` (transport/jsonrpc.rs:155). -/
structure ErrorObject where
  code : ℤ
  message : String
  deriving DecidableEq

/-- `ErrorObject::invalid_params` (transport/jsonrpc.rs:175). -/
def ErrorObject.invalidParams (message : String) : ErrorObject := ⟨invalidParamsCode, message⟩

/-- `ErrorObject::internal` (transport/jsonrpc.rs:179). -/
def ErrorObject.internal (message : String) : ErrorObject := ⟨internalErrorCode, message⟩

/-- `struct Response` (transport/jsonrpc.rs:119). -/
structure Response where
  jsonrpc : String := "2.0"
  id : Json
  result : Option Json
  error : Option ErrorObject

/-- `Response::result` (transport/jsonrpc.rs:132), on a value that serializes. -/
def Response.ofResult (id value : Json) : Response := { id, result := some value, error := none }

/-- `Response::error` (transport/jsonrpc.rs:144). -/
def Response.ofError (id : Json) (error : ErrorObject) : Response :=
  { id, result := none, error := some error }

/-- `struct CallToolResult` (transport/protocol.rs:220); a `TextContent` is its
    text. -/
structure CallToolResult where
  content : List String
  isError : Bool
  deriving DecidableEq

/-- The serialized form of a `CallToolResult`. -/
def CallToolResult.toValue (r : CallToolResult) : Json :=
  .obj [("content", .arr (r.content.map fun text =>
      .obj [("type", .str "text"), ("text", .str text)])),
    ("isError", .bool r.isError)]

end DbMcpGateway.Transport
