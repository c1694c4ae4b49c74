import LedgerClient.Certificate.Der
import LedgerClient.Text.Base64
import LedgerClient.Text.Blank
import LedgerClient.Text.Fields
import LedgerClient.Text.Utf8
/-!
# Certificate bundles

`Pem.hasCertificate b` says that a text holds, between a line that begins and a line that ends a
certificate, the base 64 text of one. Lines before the first such block do not count.
-/

namespace LedgerClient.Pem

/-- what a block is called -/
def labels : List String := ["CERTIFICATE", "X509 CERTIFICATE", "TRUSTED CERTIFICATE"]

def beginLine (label : String) : String := "-----BEGIN " ++ label ++ "-----"

def endLine (label : String) : String := "-----END " ++ label ++ "-----"

def lines (s : String) : List String :=
  (Text.fields '\n' s.toList).map fun l =>
    String.ofList (l.reverse.dropWhile Text.isBlank).reverse

/-- the lines up to the one that ends the block -/
def body? (label : String) : List String → Option (List String)
  | [] => none
  | l :: ls => if l = endLine label then some [] else (body? label ls).map (l :: ·)

/-- the bytes of the first block -/
def firstBlock? : List String → Option Bytes
  | [] => none
  | l :: ls =>
    match labels.find? (l = beginLine ·) with
    | some label => do
      let body ← body? label ls
      Text.Base64.decode? (body.flatMap String.toList)
    | none => firstBlock? ls

def hasCertificate (b : Bytes) : Bool :=
  match firstBlock? (lines (Text.ofUtf8Lossy b)) with
  | some der => Der.isCertificate der
  | none => false

end LedgerClient.Pem
