import LedgerClient.Failover.Transport
import LedgerClient.Rpc.Message
import LedgerClient.Text.Duration
/-!
# What a node does with a request

* `Delivery`           what comes back: an answer, or the end of a connection without one;
* `Reply`              what comes back and when, or nothing ever;
* `NodeError`          why an attempt at one node failed;
* `Delivery.outcome`   the result that a delivery carries, or the error it is.

A body that is a JSON-RPC response counts whatever the status is; the status is reported only for
other bodies. Redirects are left out: they are followed on the way, and an answer is what they come
to in the end.
-/

namespace LedgerClient

/-- how a connection comes to nothing -/
inductive ConnectionFault where
  | refused
  | unreachable
  | closed
deriving DecidableEq

/-- what arrives in place of silence -/
inductive Delivery where
  /-- no answer, for a reason in the words of those who report it -/
  | failed (fault : ConnectionFault) (reason : String)
  | answer (status : Nat) (body : Bytes)
deriving DecidableEq

inductive Reply where
  /-- it arrives after so many milliseconds -/
  | after (delay : Nat) (delivery : Delivery)
  /-- it never arrives -/
  | silent
deriving DecidableEq

/-- the request reaches the node -/
def Reply.isReceived : Reply → Bool
  | .after _ (.failed .refused _) => false
  | .after _ (.failed .unreachable _) => false
  | _ => true

inductive NodeError where
  | url (detail : String)
  | connection (url reason : String)
  | status (code : Nat) (body : String)
  | badResponse (reason : String)
  | rpc (error : RpcError)
  /-- after so many milliseconds -/
  | timedOut (limit : Nat)
  | deadline

def NodeError.isDeadline : NodeError → Bool
  | .deadline => true
  | _ => false

/-- a transport error names the URL -/
def transportMessage (url reason : String) : String :=
  "error sending request for url (" ++ url ++ "): " ++ reason

def NodeError.message : NodeError → String
  | .url detail => "builder error" ++ detail
  | .connection u reason => transportMessage u reason
  | .status code body => "HTTP " ++ toString code ++ ": " ++ body
  | .badResponse reason => "invalid JSON-RPC response: " ++ reason
  | .rpc e => e.shown
  | .timedOut n => "request timed out after " ++ Text.Duration.text n
  | .deadline => "deadline exceeded"

namespace Delivery

/-! ## Connections that fail, as they are told -/

def refused : Delivery :=
  .failed .refused "error trying to connect: tcp connect error: Connection refused (os error 111)"

def unreachable : Delivery :=
  .failed .unreachable
    "error trying to connect: tcp connect error: Network is unreachable (os error 101)"

def closed : Delivery := .failed .closed "connection closed before message completed"

/-! ## Answers -/

/-- how many bytes of a body an error shows -/
def snippetSize : Nat := 128

def isSuccess (status : Nat) : Bool := 200 ≤ status && status < 300

def response? (body : Bytes) : Option RpcResponse :=
  (Document.parse (Document.sourceOfBytes body)).bind (RpcResponse.read Document.depthLimit)

def outcome (web : Transport) (url : String) : Delivery → Except NodeError Json
  | .failed _ reason => .error (.connection url reason)
  | .answer status body =>
    match response? body with
    | some r =>
      match r.outcome with
      | .ok v => .ok v
      | .error e => .error (.rpc e)
    | none =>
      if isSuccess status then .error (.badResponse (web.bodyFault body))
      else .error (.status status (Text.ofUtf8Lossy (body.take snippetSize)))

end Delivery

end LedgerClient
