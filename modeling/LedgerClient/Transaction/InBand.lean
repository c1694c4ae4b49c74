import LedgerClient.Json.Fields
import LedgerClient.Text.Blank
import LedgerClient.Transaction.Form
/-!
# Errors in place of an envelope

Some callers take one text and tell an envelope from an error by its form.

* `InBandError`          code and message, as a JSON object;
* `InBandError.split`    what such a text is: an envelope, or an error;
* `TransactionForm.buildInBand`   an envelope, or the refusal of a field as text; other errors stay
  errors.
-/

namespace LedgerClient

structure InBandError where
  code : Int64
  message : String
deriving DecidableEq

namespace InBandError

def invalidParams (message : String) : InBandError := ⟨-32602, message⟩

def toJson (e : InBandError) : Json :=
  .ofMembers [("code", .int e.code.toInt), ("message", .string e.message)]

def text (e : InBandError) : String := e.toJson.text

def read : Document.Reader InBandError :=
  Document.record [["code"], ["message"]] fun room fs =>
    match fs with
    | [code, message] => do
      let code ← Document.required (Document.whole (-0x8000000000000000) 0x7fffffffffffffff) room code
      let message ← Document.required Document.text room message
      return ⟨Int64.ofInt code, message⟩
    | _ => none

/-- the text itself, unless it is the object of an error -/
def split (s : String) : Except InBandError String :=
  if (Text.trimStartChars s.toList).head? = some '\x7b' then
    match Document.readText read s with
    | some e => .error e
    | none => .ok s
  else .ok s

end InBandError

def TransactionForm.buildInBand (P : Primitives) (c : Chain) (f : TransactionForm)
    (signer : Signer) (key : KeyRef) : Except EnvelopeError String :=
  match f.build P c signer key with
  | .error (.input e) => .ok (InBandError.invalidParams e.message).text
  | r => r

end LedgerClient
