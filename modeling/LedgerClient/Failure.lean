import LedgerClient.Failover.Error
/-!
# Failures of the whole library

* `Failure`        any error of the library;
* `Failure.kind`   which of ten kinds it is, for callers who need no more than that.
-/

namespace LedgerClient

inductive FailureKind where
  | frameFormat
  | addressChecksum
  | signatureInvalid
  | binaryDecode
  /-- too few arguments, or a field wider than its type -/
  | parameterBounds
  | cipher
  | networkExhausted
  | invalidInput
  | keyManagement
  | config
deriving DecidableEq

def FailureKind.name : FailureKind → String
  | .frameFormat => "FrameFormat"
  | .addressChecksum => "AddressChecksum"
  | .signatureInvalid => "SignatureInvalid"
  | .binaryDecode => "BinaryDecode"
  | .parameterBounds => "ParameterBounds"
  | .cipher => "Cipher"
  | .networkExhausted => "NetworkExhausted"
  | .invalidInput => "InvalidInput"
  | .keyManagement => "KeyManagement"
  | .config => "Config"

def ParamError.kind : ParamError → FailureKind
  | .tooFew .. => .parameterBounds
  | .tooLong .. => .parameterBounds
  | _ => .binaryDecode

def KeyringError.kind : KeyringError → FailureKind
  | .blob _ => .cipher
  | _ => .keyManagement

def EnvelopeError.kind : EnvelopeError → FailureKind
  | .frame _ => .frameFormat
  | .signature => .signatureInvalid
  | .binary _ => .binaryDecode
  | .input _ => .invalidInput
  | .signing e => e.kind

/-- an envelope that cannot be built is the fault of a field or of a key -/
def ClientError.kind : ClientError → FailureKind
  | .exhausted _ => .networkExhausted
  | .decode _ => .binaryDecode
  | .incomplete _ => .binaryDecode
  | .envelope (.input _) => .invalidInput
  | .envelope _ => .keyManagement
  | .config _ => .config
  | .bundle _ => .config
  | .certificate => .config

inductive Failure where
  | address (e : AddressError)
  | item (e : ItemError)
  | params (e : ParamError)
  | envelope (e : EnvelopeError)
  | blob (e : BlobError)
  | key (e : KeyError)
  | signature (e : SignatureError)
  | keyring (e : KeyringError)
  | client (e : ClientError)
  | config (e : ConfigError)

namespace Failure

def kind : Failure → FailureKind
  | .address _ => .addressChecksum
  | .item _ => .invalidInput
  | .params e => e.kind
  | .envelope e => e.kind
  | .blob _ => .cipher
  | .key _ => .keyManagement
  | .signature _ => .signatureInvalid
  | .keyring e => e.kind
  | .client e => e.kind
  | .config _ => .config

def message : Failure → String
  | .address e => e.message
  | .item e => e.message
  | .params e => e.message
  | .envelope e => e.message
  | .blob e => e.message
  | .key e => e.message
  | .signature e => e.message
  | .keyring e => e.message
  | .client e => e.message
  | .config e => e.message

end Failure

end LedgerClient
