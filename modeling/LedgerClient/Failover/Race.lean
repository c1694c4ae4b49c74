import LedgerClient.Failover.Attempt
/-!
# Several nodes at once

A race keeps up to `c` attempts under way. Nodes start in their order; attempts end in any order.
The first success ends the call, and until then every failure makes room for the next node.

* `Race`            the nodes that wait, the attempts under way, and the failures so far;
* `Race.fill c`     starts waiting nodes while there is room;
* `Race.finish k`   ends the attempt at position `k`;
* `Race.run`        fills and finishes until a success, or until nothing is left;
* `Race.Order`      which attempt ends next; `Race.earliest` goes by the clock.
-/

namespace LedgerClient

structure Race where
  waiting : List (String × Nat)
  inFlight : List Attempt
  /-- latest first -/
  failures : List NodeFailure
  net : Network

namespace Race

def start (targets : List (String × Nat)) (net : Network) : Race := ⟨targets, [], [], net⟩

/-- starts the nodes `targets` in their order -/
def launch (budget : Budget) (call : RpcCall) :
    List (String × Nat) → Network → List Attempt × Network
  | [], net => ([], net)
  | (node, index) :: rest, net =>
    let (a, net) := Attempt.start budget call node index net
    let (as, net) := launch budget call rest net
    (a :: as, net)

def fill (budget : Budget) (call : RpcCall) (c : Nat) (r : Race) : Race :=
  let room := c - r.inFlight.length
  let (started, net) := launch budget call (r.waiting.take room) r.net
  ⟨r.waiting.drop room, r.inFlight ++ started, r.failures, net⟩

/-- the success of the attempt at position `k`, or the race without that attempt -/
def finish (k : Nat) (r : Race) : Except Race (Json × Network) :=
  match r.inFlight[k]? with
  | none => .error r
  | some a =>
    let net := r.net.waitUntil a.finish
    match a.result with
    | .ok v => .ok (v, net)
    | .error e => .error ⟨r.waiting, r.inFlight.eraseIdx k, a.failure e :: r.failures, net⟩

/-- the position of the attempt that ends next -/
abbrev Order := Race → Nat

/-- the position of the least finishing time, the first of equal ones -/
def earliestFrom (best : Nat × Nat) (k : Nat) : List Attempt → Nat
  | [] => best.2
  | a :: as => earliestFrom (if a.finish < best.1 then (a.finish, k) else best) (k + 1) as

def earliest : Order := fun r =>
  match r.inFlight with
  | [] => 0
  | a :: as => earliestFrom (a.finish, 0) 1 as

/-- at most `rounds` attempts end -/
def run (budget : Budget) (call : RpcCall) (c : Nat) (order : Order) :
    (rounds : Nat) → Race → Except (List NodeFailure) Json × Network
  | 0, r => (.error r.failures.reverse, r.net)
  | n + 1, r =>
    let r := r.fill budget call c
    match r.finish (order r % max r.inFlight.length 1) with
    | .ok (v, net) => (.ok v, net)
    | .error r => run budget call c order n r

end Race

end LedgerClient
