import LedgerClient.Envelope.Basic
/-!
# Transactions as text

* `TransactionForm`            every field as a wallet's user types it;
* `TransactionForm.validate`   the transaction, or the first field that is refused;
* `TransactionForm.build`      validates, signs and frames.

The fields are checked in the order nonce, gas limit, selector, note, destination, items.
-/

namespace LedgerClient

structure TransactionForm where
  /-- hexadecimal, `0x` in front or not -/
  nonce : String
  gasLimit : String
  note : String
  destination : String
  /-- four hexadecimal bytes, `0x` in front or not -/
  selector : String
  items : List String
deriving DecidableEq

namespace TransactionForm

/-- one or more hexadecimal digits, below `2 ^ 64` -/
def word? (s : String) : Option UInt64 :=
  ((Text.numeral? 16 (Text.dropLead ['0', 'x'] s.toList)).bind (Text.bounded? (Nat.pow 2 64))).map
    UInt64.ofNat

def noteLimit : Nat := 256

def checkNote (note : String) : Except InputError Unit :=
  let n := note.toList.length
  if noteLimit < n then .error (.noteTooLong n noteLimit) else .ok ()

/-- the value, or the error when there is none -/
def orElseError {α ε : Type} (e : ε) : Option α → Except ε α
  | some a => .ok a
  | none => .error e

/-- the call of a selector with text items -/
def callOf (selector : Selector) (items : List String) : Except InputError MethodCall :=
  match Param.encode items with
  | .ok params => .ok ⟨selector, params⟩
  | .error e => .error (.badParameter e)

def destinationOf (P : Primitives) (c : Chain) (s : String) : Except InputError Address :=
  match Address.parse P c.id s with
  | .ok a => .ok a
  | .error e => .error (.badDestination e)

def validate (P : Primitives) (c : Chain) (f : TransactionForm) : Except InputError Transaction := do
  let nonce ← orElseError (.badNonce f.nonce) (word? f.nonce)
  let gasLimit ← orElseError (.badGasLimit f.gasLimit) (word? f.gasLimit)
  let selector ← orElseError (.badSelector f.selector) (Selector.parse? f.selector)
  checkNote f.note
  let destination ← destinationOf P c f.destination
  let call ← callOf selector f.items
  return ⟨nonce, gasLimit, f.note, destination, Record.encode call⟩

def build (P : Primitives) (c : Chain) (f : TransactionForm) (signer : Signer) (key : KeyRef) :
    Except EnvelopeError String :=
  match validate P c f with
  | .ok t => Envelope.sealRecord c .transaction t signer key
  | .error e => .error (.input e)

end TransactionForm

end LedgerClient
