import LedgerClient.Primitives
import LedgerClient.Text.Hex
/-!
# Keys and signatures

* `Keypair`              a seed with its public key;
* `SignatureRecord`      who signed, and the signature;
* `Signature.check`      verifies a signature and says why it is refused;
* `Keypair.shown`, …      the texts that keys are logged as; a seed is never shown.
-/

namespace LedgerClient

inductive KeyError where
  | secretKey
  | publicKey
  | signature
deriving DecidableEq

def KeyError.message : KeyError → String
  | .secretKey => "invalid secret key bytes: expected 32 bytes"
  | .publicKey => "invalid public key bytes: not a valid Ed25519 point"
  | .signature => "invalid signature bytes: expected 64 bytes"

inductive SignatureError where
  | rejected
  | unusableKey
deriving DecidableEq

def SignatureError.message : SignatureError → String
  | .rejected => "signature verification failed"
  | .unusableKey => "invalid public key"

/-- the signature segment of an envelope -/
structure SignatureRecord where
  publicKey : PublicKey
  signature : Signature
deriving DecidableEq

/-- a signing key; its seed is the secret key -/
structure Keypair where
  seed : Seed
deriving DecidableEq

namespace Keypair

variable (P : Primitives)

def ofBytes (b : Bytes) : Except KeyError Keypair :=
  match Octets.ofBytes? 32 b with
  | some seed => .ok ⟨seed⟩
  | none => .error .secretKey

def ofHex (s : String) : Except KeyError Keypair :=
  match Text.Hex.decode s with
  | .ok b => ofBytes b
  | .error _ => .error .secretKey

def publicKey (k : Keypair) : PublicKey := P.publicKey k.seed

def sign (k : Keypair) (message : Bytes) : SignatureRecord :=
  ⟨k.publicKey P, P.sign k.seed message⟩

/-- shows the public half only -/
def shown (k : Keypair) : String := "Keypair(pub=" ++ Text.Hex.encode (k.publicKey P).bytes ++ ")"

end Keypair

namespace PublicKey

/-- checks the length, and that the key is a point -/
def ofBytes (P : Primitives) (b : Bytes) : Except KeyError PublicKey :=
  match Octets.ofBytes? 32 b with
  | some key => if P.isPoint key then .ok key else .error .publicKey
  | none => .error .publicKey

/-- shows the first eight bytes -/
def shown (key : PublicKey) : String := "PublicKey(" ++ Text.Hex.encode (key.bytes.take 8) ++ ")"

end PublicKey

namespace Signature

def ofBytes (b : Bytes) : Except KeyError Signature :=
  match Octets.ofBytes? 64 b with
  | some s => .ok s
  | none => .error .signature

/-- shows the first and the last four bytes -/
def shown (s : Signature) : String :=
  "Signature(" ++ Text.Hex.encode (s.bytes.take 4) ++ "..." ++ Text.Hex.encode (s.bytes.drop 60) ++
    ")"

def check (P : Primitives) (key : PublicKey) (message : Bytes) (s : Signature) :
    Except SignatureError Unit :=
  if P.isPoint key then
    if P.verify key message s then .ok () else .error .rejected
  else .error .unusableKey

/-- a file is signed through its digest -/
def checkFile (P : Primitives) (key : PublicKey) (file : Bytes) (s : Signature) :
    Except SignatureError Unit :=
  check P key (P.digest file) s

end Signature

end LedgerClient
