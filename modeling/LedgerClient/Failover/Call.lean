import LedgerClient.Failover.Client
import LedgerClient.Failover.Race
import LedgerClient.Failover.Sequential
/-!
# Calls

`FailoverClient.call` asks the nodes in the client's mode for the result of one call. Every call
gives the network after it, so that calls can follow each other.
-/

namespace LedgerClient.FailoverClient

/-- a call in which the attempts of a race end in the order `order` -/
def callIn (order : Race.Order) (c : FailoverClient) (call : RpcCall) (deadline : Option Nat)
    (net : Network) : Except FailoverError Json × Network :=
  let budget : Budget := ⟨c.timeout, deadline⟩
  let (r, net) :=
    match c.mode with
    | .sequential => Sequential.run budget call c.targets net
    | .race n =>
      Race.run budget call (max n 1) order c.targets.length (Race.start c.targets net)
  (r.mapError (FailoverError.ofFailures call.method), net)

def call (c : FailoverClient) (call : RpcCall) (deadline : Option Nat) (net : Network) :
    Except FailoverError Json × Network :=
  callIn Race.earliest c call deadline net

end LedgerClient.FailoverClient
