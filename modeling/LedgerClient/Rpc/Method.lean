import LedgerClient.Json.Fields
/-!
# The methods of a node

* `RpcMethod.wire`   the name on the wire;
* `RpcMethod.all`    every method, in a fixed order;
* `RpcMethod.read`   from its wire name, alone or as the only member of an object, with `null`.
-/

namespace LedgerClient

inductive RpcMethod where
  | health
  | status
  | abciInfo
  | abciQuery
  | broadcastTxCommit
  | blockHeight
  | block
  | transaction
  | balance
  | balanceOfToken
  | allBalance
  | nonce
deriving DecidableEq

namespace RpcMethod

def all : List RpcMethod :=
  [health, status, abciInfo, abciQuery, broadcastTxCommit, blockHeight, block, transaction,
   balance, balanceOfToken, allBalance, nonce]

def wire : RpcMethod → String
  | health => "health"
  | status => "status"
  | abciInfo => "abci_info"
  | abciQuery => "abci_query"
  | broadcastTxCommit => "broadcast_tx_commit"
  | blockHeight => "bcb_blockHeight"
  | block => "bcb_block"
  | transaction => "bcb_transaction"
  | balance => "bcb_balance"
  | balanceOfToken => "bcb_balanceOfToken"
  | allBalance => "bcb_allBalance"
  | nonce => "bcb_nonce"

def ofWire? (name : String) : Option RpcMethod := all.find? (·.wire = name)

def read : Document.Reader RpcMethod
  | _, .string (some name) => ofWire? name
  | _ + 1, .object [(some name, .null)] => ofWire? name
  | _, _ => none

end RpcMethod

end LedgerClient
