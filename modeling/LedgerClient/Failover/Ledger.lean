import LedgerClient.Failover.Call
import LedgerClient.Rpc.Result
import LedgerClient.Transaction.Form
/-!
# Questions to a ledger

Calls of the known methods, their parameters given by name.

* `FailoverClient.ask`      the result of a method as it is;
* `FailoverClient.askFor`   the result read as a record;
* `FailoverClient.commit`   submits an envelope; the result must show both phases and a height;
* `FailoverClient.commitForm`   builds the envelope first, and asks nobody if that fails.
-/

namespace LedgerClient.FailoverClient

variable (c : FailoverClient)

def ask (m : RpcMethod) (params : List (String × Json)) (net : Network) :
    Except ClientError Json × Network :=
  let (r, net) := c.call ⟨m.wire, params⟩ none net
  (r.mapError .exhausted, net)

/-- the result as a record -/
def decoded {α : Type} (m : RpcMethod) (read : Document.Reader α) (v : Json) :
    Except ClientError α :=
  match Document.readValue read v with
  | some a => .ok a
  | none => .error (.decode m)

def askFor {α : Type} (m : RpcMethod) (read : Document.Reader α) (params : List (String × Json))
    (net : Network) : Except ClientError α × Network :=
  let (r, net) := c.ask m params net
  (r.bind (decoded m read), net)

/-- some node is alive -/
def health (net : Network) : Except ClientError Unit × Network :=
  let (r, net) := c.ask .health [] net
  (r.map fun _ => (), net)

def nodeInfo : Network → Except ClientError Json × Network := c.ask .status []

def blockHeight : Network → Except ClientError Nat × Network :=
  c.askFor .blockHeight BlockHeight.read []

def block (height : UInt64) : Network → Except ClientError Json × Network :=
  c.ask .block [("height", .nat height.toNat)]

def transaction (hash : String) : Network → Except ClientError Json × Network :=
  c.ask .transaction [("txHash", .string hash)]

def balance (a : Address) : Network → Except ClientError Json × Network :=
  c.ask .balance [("address", .string a.text)]

def balanceOfToken (a token : Address) : Network → Except ClientError Json × Network :=
  c.ask .balanceOfToken [("address", .string a.text), ("tokenAddress", .string token.text)]

def allBalances (a : Address) : Network → Except ClientError Json × Network :=
  c.ask .allBalance [("address", .string a.text)]

def nonce (a : Address) : Network → Except ClientError Nat × Network :=
  c.askFor .nonce Nonce.read [("address", .string a.text)]

def query (path : String) : Network → Except ClientError QueryResult × Network :=
  c.askFor .abciQuery QueryResult.readReply [("path", .string path)]

/-- both phases and the height must be there -/
def complete (r : CommitReply) : Except ClientError CommitResult :=
  match r.check, r.deliver, r.height with
  | none, _, _ => .error (.incomplete .check)
  | some _, none, _ => .error (.incomplete .deliver)
  | some _, some _, none => .error (.incomplete .height)
  | some check, some deliver, some height => .ok ⟨check, deliver, r.hash, height⟩

def commit (envelope : String) (net : Network) : Except ClientError CommitResult × Network :=
  let (r, net) := c.askFor .broadcastTxCommit CommitReply.read [("tx", .string envelope)] net
  (r.bind complete, net)

def commitForm (P : Primitives) (chain : Chain) (form : TransactionForm) (signer : Signer)
    (key : KeyRef) (net : Network) : Except ClientError CommitResult × Network :=
  match form.build P chain signer key with
  | .ok envelope => c.commit envelope net
  | .error e => (.error (.envelope e), net)

end LedgerClient.FailoverClient
