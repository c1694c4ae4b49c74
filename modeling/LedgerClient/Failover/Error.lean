import LedgerClient.Config
import LedgerClient.Envelope.Error
import LedgerClient.Failover.Reply
import LedgerClient.Rpc.Method
import LedgerClient.Text.Blank
import LedgerClient.Text.Fields
/-!
# Failures of calls

* `NodeFailure`     one failed attempt at one node;
* `FailoverError`   every node failed; the failures stand in the order of the nodes;
* `FailoverError.message`   what stands behind the last colon of the last node's message, trimmed;
* `ClientError`     everything that can stop a client.
-/

namespace LedgerClient

structure NodeFailure where
  /-- position in the list of nodes -/
  index : Nat
  node : String
  cause : NodeError

def NodeFailure.message (f : NodeFailure) : String := f.cause.message

structure FailoverError where
  method : String
  failures : List NodeFailure

namespace FailoverError

/-- puts the failures in the order of the nodes -/
def ofFailures (method : String) (failures : List NodeFailure) : FailoverError :=
  ⟨method, failures.mergeSort fun a b => a.index ≤ b.index⟩

/-- what stands behind the last colon, without blanks around it -/
def lastSegment (s : String) : String :=
  String.ofList (Text.trimChars ((Text.fields ':' s.toList).getLastD []))

def message (e : FailoverError) : String :=
  match e.failures.getLast? with
  | some f => lastSegment f.message
  | none => "no nodes configured"

end FailoverError

/-- what a committed transaction must come with -/
inductive CommitPart where
  | check
  | deliver
  | height
deriving DecidableEq

def CommitPart.name : CommitPart → String
  | .check => "check_tx"
  | .deliver => "deliver_tx"
  | .height => "height"

inductive ClientError where
  | exhausted (error : FailoverError)
  | decode (method : RpcMethod)
  | incomplete (part : CommitPart)
  | config (cause : ConfigError)
  | bundle (cause : FileError)
  | certificate
  | envelope (cause : EnvelopeError)

def ClientError.message : ClientError → String
  | .exhausted e => e.message
  | .decode m => "cannot decode " ++ m.wire ++ " result"
  | .incomplete p => "commit result is missing " ++ p.name
  | .config e => "invalid client configuration: " ++ e.message
  | .bundle e => "cannot read CA bundle: " ++ e.message
  | .certificate => "cannot build HTTP client"
  | .envelope e => e.message

end LedgerClient
