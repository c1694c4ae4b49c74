import LedgerClient.Bytes
/-!
# Shape of a certificate

`Der.isCertificate b` says that `b` is a sequence of three elements: a sequence, a sequence, and a
bit string. What the certificate says is not looked into.
-/

namespace LedgerClient.Der

/-- a length field, and what follows it -/
def length? : Bytes → Option (Nat × Bytes)
  | [] => none
  | n :: r =>
    if n < 0x80 then some (n.toNat, r)
    else
      let w := n.toNat - 0x80
      if w = 0 ∨ 4 < w ∨ r.length < w then none else some (Bytes.toNat (r.take w), r.drop w)

/-- the content of an element with the tag `tag`, and what follows the element -/
def element? (tag : UInt8) : Bytes → Option (Bytes × Bytes)
  | [] => none
  | t :: r => do
    let (n, r) ← length? r
    if t = tag ∧ n ≤ r.length then some (r.take n, r.drop n) else none

def sequenceTag : UInt8 := 0x30

def bitStringTag : UInt8 := 0x03

def isCertificate (b : Bytes) : Bool :=
  match element? sequenceTag b with
  | none => false
  | some (content, _) =>
    let last : Option (Bytes × Bytes) := do
      let (_, r) ← element? sequenceTag content
      let (_, r) ← element? sequenceTag r
      element? bitStringTag r
    match last with
    | some (_, []) => true
    | _ => false

end LedgerClient.Der
