import LedgerClient.Failover.Error
import LedgerClient.Failover.Network
/-!
# Attempts

* `Budget.limit`    how long an attempt may take that starts now, if it may start at all;
* `Attempt`         a request under way, with the time and the result it will end with;
* `Attempt.start`   sends the request, unless the deadline has been reached or the URL is of no use.
-/

namespace LedgerClient

/-- how long attempts of one call may take -/
structure Budget where
  timeout : Nat
  deadline : Option Nat
deriving DecidableEq

/-- the rest of the time, at most `timeout` -/
def Budget.limit (b : Budget) (now : Nat) : Option Nat :=
  match b.deadline with
  | none => some b.timeout
  | some d => if d ≤ now then none else some (min (d - now) b.timeout)

structure Attempt where
  index : Nat
  node : String
  /-- when its end has been seen -/
  finish : Nat
  result : Except NodeError Json

namespace Attempt

/-- when a reply ends an attempt that started at `now`, and with what -/
def ending (web : Transport) (url : String) (now limit : Nat) :
    Reply → Nat × Except NodeError Json
  | .silent => (now + limit, .error (.timedOut limit))
  | .after delay d =>
    if delay ≤ limit then (now + delay, d.outcome web url)
    else (now + limit, .error (.timedOut limit))

def start (budget : Budget) (call : RpcCall) (node : String) (index : Nat) (net : Network) :
    Attempt × Network :=
  match budget.limit net.now with
  | none => (⟨index, node, net.now, .error .deadline⟩, net)
  | some limit =>
    match net.transport.url node with
    | .error detail => (⟨index, node, net.now + net.lag index, .error (.url detail)⟩, net)
    | .ok url =>
      let (reply, net') := net.send index call
      let (finish, result) := ending net.transport url.text net.now limit reply
      (⟨index, node, finish + net.lag index, result⟩, net')

/-- the failure that an attempt is with an error -/
def failure (a : Attempt) (cause : NodeError) : NodeFailure := ⟨a.index, a.node, cause⟩

end Attempt

end LedgerClient
