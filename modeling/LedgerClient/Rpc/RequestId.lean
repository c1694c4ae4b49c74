import LedgerClient.Text.Hex
/-!
# Ids of requests

`RequestId.text o` shows sixteen random octets as a version 4 UUID: 36 characters, groups of 8, 4,
4, 4 and 12 hexadecimal digits, with the version and the variant in their places.
-/

namespace LedgerClient.RequestId

/-- the octet at position `i` with the bits of version or variant put in -/
def stamped (i : Nat) (b : UInt8) : UInt8 :=
  if i = 6 then b &&& 0x0F ||| 0x40 else if i = 8 then b &&& 0x3F ||| 0x80 else b

def stamp (b : Bytes) : Bytes := b.mapIdx stamped

def text (o : Octets 16) : String :=
  let b := stamp o.bytes
  String.intercalate "-" ([b.take 4, (b.drop 4).take 2, (b.drop 6).take 2, (b.drop 8).take 2,
    b.drop 10].map Text.Hex.encode)

end LedgerClient.RequestId
