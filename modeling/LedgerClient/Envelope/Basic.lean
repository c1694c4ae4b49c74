import LedgerClient.Chain
import LedgerClient.Envelope.Error
import LedgerClient.Param.List
import LedgerClient.Record.Payload
import LedgerClient.Text.Fields
/-!
# Envelopes

An envelope is one line of text with five fields between dots: the mark of chain and kind, the
version, the payload in base 58, the number of signers, and the signature record in base 58.

* `Envelope.text`      frames payload and signature;
* `Envelope.verify`    reads a text and checks its signature; the payload is not looked into;
* `Envelope.read`      verifies first and only then decodes the payload as a record;
* `Envelope.sealRecord`   writes a record, signs it and frames the result.

Faults are reported in the order of the checks: number of fields, mark, version, number of
signers, payload segment, signature segment, signature record, signature, payload record.
-/

namespace LedgerClient

/-- a payload with its signature -/
structure Envelope where
  payload : Bytes
  signature : SignatureRecord
deriving DecidableEq

namespace Envelope

variable (P : Primitives)

def separator : Char := '.'

def version : String := "v1"

def signerCount : String := "<1>"

def text (c : Chain) (k : EnvelopeKind) (e : Envelope) : String :=
  String.ofList (Text.joined separator
    [(k.mark c).toList, version.toList, (Text.Base58.encode e.payload).toList, signerCount.toList,
      (Text.Base58.encode (Record.encode e.signature)).toList])

/-- the payload and signature segments of a framed text -/
def segments (c : Chain) (k : EnvelopeKind) (s : String) :
    Except FrameFault (String × String) :=
  match (Text.fields separator s.toList).map String.ofList with
  | [mark, v, payload, count, signature] =>
    if mark ≠ k.mark c then .error (.mark mark (k.mark c))
    else if v ≠ version then .error (.version v)
    else if count ≠ signerCount then .error (.signerCount count)
    else .ok (payload, signature)
  | fs => .error (.fieldCount fs.length)

def segmentBytes (which : Segment) (s : String) : Except EnvelopeError Bytes :=
  match Text.Base58.decode s with
  | .ok b => .ok b
  | .error e => .error (.binary (.segment which e))

/-- a record whose bytes are exactly `b` -/
def decodeRecord {α : Type} [Record α] (b : Bytes) : Except EnvelopeError α :=
  match Record.decode b with
  | .ok r => .ok r
  | .error f => .error (.binary (.record f))

def verify (c : Chain) (k : EnvelopeKind) (s : String) : Except EnvelopeError Envelope :=
  match segments c k s with
  | .error f => .error (.frame f)
  | .ok (payload, signature) => do
    let payload ← segmentBytes .payload payload
    let signature ← segmentBytes .signature signature
    let signature : SignatureRecord ← decodeRecord signature
    match signature.signature.check P signature.publicKey payload with
    | .ok () => return ⟨payload, signature⟩
    | .error _ => .error .signature

/-- the account of the signer on a chain -/
def signer (c : Chain) (e : Envelope) : Address := .ofPublicKey P c.id e.signature.publicKey

def read {α : Type} [Record α] (c : Chain) (k : EnvelopeKind) (s : String) :
    Except EnvelopeError (Address × α) := do
  let e ← verify P c k s
  let r ← decodeRecord e.payload
  return (e.signer P c, r)

def sealRecord {α : Type} [Record α] (c : Chain) (k : EnvelopeKind) (r : α) (signer : Signer)
    (key : KeyRef) : Except EnvelopeError String :=
  let payload := Record.encode r
  match signer.sign key payload with
  | .ok signature => .ok (text c k ⟨payload, signature⟩)
  | .error e => .error (.signing e)

end Envelope

namespace Query

/-- a signed query for a key -/
def build (c : Chain) (key : String) (signer : Signer) (ref : KeyRef) :
    Except EnvelopeError String :=
  if key = "" then .error (.input .emptyQueryKey)
  else Envelope.sealRecord c .query (⟨key⟩ : Query) signer ref

def parse (P : Primitives) (c : Chain) (s : String) : Except EnvelopeError (Address × Query) :=
  Envelope.read P c .query s

end Query

namespace Transaction

def parse (P : Primitives) (c : Chain) (s : String) :
    Except EnvelopeError (Address × Transaction) :=
  Envelope.read P c .transaction s

/-- the call in the data, and its parameter list -/
def call (t : Transaction) : Except EnvelopeError (MethodCall × ParamList) := do
  let c : MethodCall ← Envelope.decodeRecord t.data
  match ParamList.decode c.params with
  | .ok l => return (c, l)
  | .error e => .error (.binary (.params e))

end Transaction

end LedgerClient
