import LedgerClient.Json.Fields
/-!
# JSON-RPC messages

* `RpcRequest`     what is sent: version, id, method, parameters by name;
* `RpcError`       code, message and optional data of a node's refusal;
* `RpcResponse`    what comes back; `RpcResponse.outcome` is its result or its error.

A member that is `null` counts as absent. An error wins over a result, and a response with neither
is an internal error.
-/

namespace LedgerClient

structure RpcRequest where
  version : String
  id : Json
  method : String
  params : List (String × Json)

structure RpcError where
  code : Int
  message : String
  data : Option Json

structure RpcResponse where
  version : String
  id : Json
  result : Option Json
  error : Option RpcError

namespace RpcRequest

def currentVersion : String := "2.0"

def new (id method : String) (params : List (String × Json)) : RpcRequest :=
  ⟨currentVersion, .string id, method, params⟩

/-- the members of an object -/
def params? : Document.Reader (List (String × Json)) := fun room d =>
  match Document.value? room d with
  | some (.object ms) => some ms
  | _ => none

def read : Document.Reader RpcRequest :=
  Document.record [["jsonrpc"], ["id"], ["method"], ["params"]] fun room fs =>
    match fs with
    | [version, id, method, params] => do
      let version ← Document.required Document.text room version
      let id ← Document.required Document.value room id
      let method ← Document.required Document.text room method
      let params ← Document.defaulted params? [] room params
      return ⟨version, id, method, params⟩
    | _ => none

def toJson (r : RpcRequest) : Json :=
  .ofMembers [("jsonrpc", .string r.version), ("id", r.id), ("method", .string r.method),
    ("params", .object r.params)]

end RpcRequest

namespace RpcError

def internal (message : String) : RpcError := ⟨-32603, message, none⟩

/-- the most specific part comes last -/
def shown (e : RpcError) : String :=
  "RPC error " ++ toString e.code ++ " - " ++ e.message ++
    match e.data with
    | none => ""
    | some .null => ""
    | some (.string s) => if s = "" then "" else ": " ++ s
    | some v => ": " ++ v.text

def read : Document.Reader RpcError :=
  Document.record [["code"], ["message"], ["data"]] fun room fs =>
    match fs with
    | [code, message, data] => do
      let code ← Document.required (Document.whole (-0x80000000) 0x7fffffff) room code
      let message ← Document.required Document.text room message
      let data ← Document.defaulted (Document.optional Document.value) none room data
      return ⟨code, message, data⟩
    | _ => none

def toJson (e : RpcError) : Json :=
  .ofMembers ([("code", .int e.code), ("message", .string e.message)] ++
    e.data.toList.map fun v => ("data", v))

end RpcError

namespace RpcResponse

def read : Document.Reader RpcResponse :=
  Document.record [["jsonrpc"], ["id"], ["result"], ["error"]] fun room fs =>
    match fs with
    | [version, id, result, error] => do
      let version ← Document.defaulted Document.text "" room version
      let id ← Document.defaulted Document.value .null room id
      let result ← Document.defaulted (Document.optional Document.value) none room result
      let error ← Document.defaulted (Document.optional RpcError.read) none room error
      return ⟨version, id, result, error⟩
    | _ => none

def toJson (r : RpcResponse) : Json :=
  .ofMembers ([("jsonrpc", .string r.version), ("id", r.id)] ++
    (r.result.toList.map fun v => ("result", v)) ++
    (r.error.toList.map fun e => ("error", e.toJson)))

def outcome (r : RpcResponse) : Except RpcError Json :=
  match r.error, r.result with
  | some e, _ => .error e
  | none, some v => .ok v
  | none, none => .error (.internal "response carries neither result nor error")

end RpcResponse

end LedgerClient
