import LedgerClient.Failover.Attempt
/-!
# One node after the other

`Sequential.run` asks the nodes in their order, each one when the end of the attempt before it has
been seen. The first success ends the call, and so does a deadline that has been reached.
-/

namespace LedgerClient.Sequential

/-- the first success among the nodes `targets`, or the failures in order -/
def run (budget : Budget) (call : RpcCall) :
    List (String × Nat) → Network → Except (List NodeFailure) Json × Network
  | [], net => (.error [], net)
  | (node, index) :: rest, net =>
    let (a, net) := Attempt.start budget call node index net
    let net := net.waitUntil a.finish
    match a.result with
    | .ok v => (.ok v, net)
    | .error e =>
      if e.isDeadline then (.error [a.failure e], net)
      else
        let (r, net) := run budget call rest net
        (r.mapError (a.failure e :: ·), net)

end LedgerClient.Sequential
