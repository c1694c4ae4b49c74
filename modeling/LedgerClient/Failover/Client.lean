import LedgerClient.Certificate.Pem
import LedgerClient.Failover.Error
/-!
# Failover clients

* `FailoverClient`           an ordered list of nodes, a time limit for a request, and a mode;
* `FailoverClient.ofNodes`   checks nodes, limit and certificate bundle, in this order;
* `FailoverClient.ofConfig`  the same from a configuration, which is validated first.

A client has at least one node and a positive limit.
-/

namespace LedgerClient

structure FailoverClient where
  nodes : List String
  /-- milliseconds -/
  timeout : Nat
  mode : FailoverMode
  nodes_ne_nil : nodes ≠ []
  timeout_pos : 0 < timeout

namespace FailoverClient

/-- the content of every file that can be read -/
abbrev Files := String → Except FileError Bytes

/-- a certificate bundle must be there, and hold a certificate -/
def checkBundle (files : Files) : TlsPolicy → Except ClientError Unit
  | .insecure => .ok ()
  | .verify none => .ok ()
  | .verify (some path) =>
    match files path with
    | .error e => .error (.bundle e)
    | .ok b => if Pem.hasCertificate b then .ok () else .error .certificate

def ofNodes (files : Files) (nodes : List String) (tls : TlsPolicy) (timeout : Nat) :
    Except ClientError FailoverClient :=
  if hn : nodes = [] then .error (.config .noNodes)
  else if ht : timeout = 0 then .error (.config .zeroTimeout)
  else (checkBundle files tls).map fun _ =>
    ⟨nodes, timeout, .sequential, hn, Nat.pos_of_ne_zero ht⟩

/-- the limit when none is given -/
def defaultTimeout : Nat := 60000

def withMode (c : FailoverClient) (m : FailoverMode) : FailoverClient := { c with mode := m.normal }

def ofConfig (files : Files) (c : ClientConfig) : Except ClientError FailoverClient :=
  match c.validate with
  | .error e => .error (.config e)
  | .ok () => (ofNodes files c.nodes c.tls (c.timeoutSeconds * 1000)).map (·.withMode c.mode)

/-- the nodes with their positions -/
def targets (c : FailoverClient) : List (String × Nat) := c.nodes.zipIdx

end FailoverClient

end LedgerClient
