import LedgerClient.Transaction.Form
/-!
# Transactions as typed fields

* `TransactionDraft`          a transaction in the making, for callers who hold numbers;
* `TransactionDraft.build`    the transaction; the destination is taken as it is;
* `TransactionDraft.toForm`   the same fields as text.
-/

namespace LedgerClient

structure TransactionDraft where
  nonce : UInt64
  gasLimit : UInt64
  note : String
  destination : Address
  selector : Selector
  items : List String
deriving DecidableEq

namespace TransactionDraft

/-- everything zero or empty but the destination -/
def start (destination : Address) : TransactionDraft := ⟨0, 0, "", destination, ⟨0⟩, []⟩

def withNonce (d : TransactionDraft) (n : UInt64) : TransactionDraft := { d with nonce := n }

def withGasLimit (d : TransactionDraft) (n : UInt64) : TransactionDraft := { d with gasLimit := n }

def withNote (d : TransactionDraft) (s : String) : TransactionDraft := { d with note := s }

def withSelector (d : TransactionDraft) (s : Selector) : TransactionDraft := { d with selector := s }

/-- adds items behind those already there -/
def addItems (d : TransactionDraft) (items : List String) : TransactionDraft :=
  { d with items := d.items ++ items }

def build (d : TransactionDraft) : Except InputError Transaction := do
  TransactionForm.checkNote d.note
  let call ← TransactionForm.callOf d.selector d.items
  return ⟨d.nonce, d.gasLimit, d.note, d.destination, Record.encode call⟩

def sign (c : Chain) (d : TransactionDraft) (signer : Signer) (key : KeyRef) :
    Except EnvelopeError String :=
  match d.build with
  | .ok t => Envelope.sealRecord c .transaction t signer key
  | .error e => .error (.input e)

def toForm (d : TransactionDraft) : TransactionForm where
  nonce := Text.hexNumeral d.nonce.toNat
  gasLimit := Text.hexNumeral d.gasLimit.toNat
  note := d.note
  destination := d.destination.text
  selector := d.selector.hex
  items := d.items

end TransactionDraft

end LedgerClient
