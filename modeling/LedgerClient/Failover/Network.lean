import LedgerClient.Failover.Reply
/-!
# The network

What lies between a client and its nodes, as a value. Every entry in the list of nodes has a server
of its own, also when two entries have the same text.

* `RpcCall`         method and parameters of a request;
* `Server`          a node: its script of replies, and the requests sent to it so far;
* `Server.reply n`  the reply to request number `n`, the last one of the script repeated;
* `Network.send`    sends a call to the node at a position, and gives its reply;
* `Network.waitUntil`   lets time pass; it never goes backwards;
* `Network.lag`         the time that goes by once an attempt has ended.
-/

namespace LedgerClient

/-- a request apart from its id, on which no reply depends -/
structure RpcCall where
  method : String
  params : List (String × Json)

structure Server where
  script : List Reply
  /-- oldest first -/
  sent : List RpcCall

namespace Server

/-- nobody is there without a script -/
def absent : Reply := .after 0 .unreachable

def reply (s : Server) (n : Nat) : Reply := (s.script[n]?.or s.script.getLast?).getD absent

/-- the calls that reached the node -/
def received (s : Server) : List RpcCall :=
  (s.sent.zipIdx.filter fun (_, n) => (s.reply n).isReceived).map Prod.fst

end Server

structure Network where
  transport : Transport
  servers : List Server
  /-- milliseconds since some start -/
  now : Nat

namespace Network

def ofScripts (web : Transport) (scripts : List (List Reply)) : Network :=
  ⟨web, scripts.map (⟨·, []⟩), 0⟩

/-- the same network when there is no route to any node -/
def offline (n : Network) : Network :=
  { n with servers := n.servers.map ({ · with script := [] }) }

/-- the server at a position -/
def server (n : Network) (index : Nat) : Server := (n.servers[index]?).getD ⟨[], []⟩

def send (n : Network) (index : Nat) (call : RpcCall) : Reply × Network :=
  let s := n.server index
  (s.reply s.sent.length,
    { n with servers := n.servers.set index { s with sent := s.sent ++ [call] } })

def waitUntil (n : Network) (time : Nat) : Network := { n with now := max n.now time }

/-- after an attempt at the node at a position that starts now -/
def lag (n : Network) (index : Nat) : Nat := n.transport.lag index n.now

theorem now_le_now_waitUntil (n : Network) (time : Nat) : n.now ≤ (n.waitUntil time).now :=
  Nat.le_max_left _ _

end Network

end LedgerClient
