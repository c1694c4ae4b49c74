import LedgerClient.Keystore.Signer
import LedgerClient.Param.Error
/-!
# What can be wrong with an envelope

* `InputError`      a field of a transaction or query that is refused before anything is signed;
* `FrameFault`      a text that is not framed as asked for;
* `BinaryFault`     a segment or record that does not decode;
* `EnvelopeError`   everything that stops an envelope from being built or read.
-/

namespace LedgerClient

inductive InputError where
  | badNonce (text : String)
  | badGasLimit (text : String)
  | badSelector (text : String)
  | noteTooLong (length max : Nat)
  | badDestination (cause : AddressError)
  | badParameter (cause : ItemError)
  | emptyQueryKey
deriving DecidableEq

def InputError.message : InputError → String
  | .badNonce s => "invalid nonce " ++ Text.quote s ++ ": expected a hex-encoded unsigned integer"
  | .badGasLimit s =>
    "invalid gas limit " ++ Text.quote s ++ ": expected a hex-encoded unsigned integer"
  | .badSelector s =>
    "invalid method selector " ++ Text.quote s ++ ": expected 4 hex-encoded bytes"
  | .noteTooLong n m => "note is " ++ toString n ++ " characters, the limit is " ++ toString m
  | .badDestination e => "invalid destination address: " ++ e.message
  | .badParameter e => "invalid call parameter: " ++ e.message
  | .emptyQueryKey => "query key must not be empty"

inductive FrameFault where
  | fieldCount (got : Nat)
  | mark (got want : String)
  | version (got : String)
  | signerCount (got : String)
deriving DecidableEq

def FrameFault.message : FrameFault → String
  | .fieldCount n => "expected 5 fields, got " ++ toString n
  | .mark got want => "mac " ++ Text.quote got ++ " does not match " ++ Text.quote want
  | .version got => "unsupported version " ++ Text.quote got
  | .signerCount got => "unsupported signer count " ++ Text.quote got

/-- the two fields that carry bytes -/
inductive Segment where
  | payload
  | signature
deriving DecidableEq

def Segment.name : Segment → String
  | .payload => "payload"
  | .signature => "signature"

inductive BinaryFault where
  | segment (which : Segment) (cause : Text.Base58.Error)
  | record (cause : Rlp.Fault)
  | params (cause : ParamError)
deriving DecidableEq

def BinaryFault.message : BinaryFault → String
  | .segment s e => s.name ++ " segment: " ++ e.message
  | .record f => f.message
  | .params e => e.message

inductive EnvelopeError where
  | frame (fault : FrameFault)
  | signature
  | binary (fault : BinaryFault)
  | input (cause : InputError)
  | signing (cause : KeyringError)
deriving DecidableEq

def EnvelopeError.message : EnvelopeError → String
  | .frame f => "envelope frame error: " ++ f.message
  | .signature => "envelope signature is invalid"
  | .binary f => "binary decode error: " ++ f.message
  | .input e => e.message
  | .signing e => "signing failed: " ++ e.message

end LedgerClient
