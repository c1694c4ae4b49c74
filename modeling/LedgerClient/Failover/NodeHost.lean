import LedgerClient.Text.Fields
import LedgerClient.Text.Numeral
import LedgerClient.Text.Utf8
/-!
# Hosts of URLs

A host is an address of sixteen bytes in brackets, an address of four bytes, or a name.

* `UrlFault`            what can be wrong with a text that should be a URL;
* `NodeHost.isIpv6`     eight groups, or fewer around a double colon;
* `NodeHost.ipv4?`      one to four numbers between dots, the last one as wide as it has to be;
* `NodeHost.name`       a name without escapes, in lower case;
* `NodeHost.checked`    the host as it is shown, or its fault.

A name whose last part is a number is an address of four bytes or nothing. Names are not turned
into ASCII when they go beyond it, and addresses in brackets are not shortened.
-/

namespace LedgerClient

inductive UrlFault where
  | relative
  | emptyHost
  | badIpv6
  | badIpv4
  | badName
  | badPort
  /-- a URL of something other than a web server -/
  | scheme (url : String)
deriving DecidableEq

namespace NodeHost

/-! ## Addresses in brackets -/

def isGroup (cs : List Char) : Bool :=
  cs.length ≤ 4 && (Text.numeral? 16 cs).isSome

def isQuarter (cs : List Char) : Bool :=
  match Text.numeral? 10 cs with
  | some n => n < 256 && (cs.length == 1 || cs.head? != some '0')
  | none => false

/-- four decimal bytes between dots -/
def isQuartet (cs : List Char) : Bool :=
  let quarters := Text.fields '.' cs
  quarters.length == 4 && quarters.all isQuarter

/-- how many groups are spelled; the last one may be two groups as four decimal bytes -/
def groupCount? : List (List Char) → Option Nat
  | [] => some 0
  | [g] => if isGroup g then some 1 else if isQuartet g then some 2 else none
  | g :: gs => if isGroup g then (groupCount? gs).map (· + 1) else none

/-- the parts before and behind the first double colon -/
def splitDouble? : List Char → Option (List Char × List Char)
  | ':' :: ':' :: r => some ([], r)
  | c :: r => (splitDouble? r).map fun (a, b) => (c :: a, b)
  | [] => none

def groups (cs : List Char) : List (List Char) := if cs = [] then [] else Text.fields ':' cs

/-- eight groups, or fewer around a double colon -/
def isIpv6 (cs : List Char) : Bool :=
  match splitDouble? cs with
  | none => groupCount? (groups cs) == some 8
  | some (before, behind) =>
    (groups before).all isGroup &&
      match groupCount? (groups behind) with
      | some n => (groups before).length + n < 8
      | none => false

/-! ## Addresses of four bytes -/

/-- the parts between dots; a dot at the end is none -/
def labels (name : List Char) : List (List Char) :=
  let parts := Text.fields '.' name
  if parts.getLast? = some [] then parts.dropLast else parts

/-- a number, `0` if there are no digits -/
def digits? (base : Nat) (cs : List Char) : Option Nat :=
  if cs = [] then some 0 else Text.numeral? base cs

/-- a number of base sixteen behind `0x`, of base eight behind another zero, or a decimal one -/
def number? : List Char → Option Nat
  | [] => none
  | '0' :: 'x' :: ds => digits? 16 ds
  | '0' :: d :: ds => digits? 8 (d :: ds)
  | ds => digits? 10 ds

/-- the last part is a number, or would be one if its digits were right -/
def endsInNumber (name : List Char) : Bool :=
  match (labels name).getLast? with
  | some last => (last ≠ [] && last.all Char.isDigit) || (number? last).isSome
  | none => false

/-- every number is a byte but the last, which fills the rest -/
def ipv4? (name : List Char) : Option Nat := do
  let ns ← (labels name).mapM number?
  let last ← ns.getLast?
  let front := ns.dropLast
  if front.length < 4 ∧ front.all (· < 256) ∧ last < Nat.pow 256 (4 - front.length) then
    return Digits.value 256 front * Nat.pow 256 (4 - front.length) + last
  else none

def ipv4Text (n : Nat) : List Char :=
  Text.joined '.' ([3, 2, 1, 0].map fun i => (toString (n / Nat.pow 256 i % 256)).toList)

/-! ## Names -/

/-- the bytes of a text, escapes of two digits taken for what they stand for -/
def unescaped : List Char → Bytes
  | '%' :: a :: b :: cs =>
    match Text.numeral? 16 [a, b] with
    | some n => UInt8.ofNat n :: unescaped cs
    | none => Text.utf8 "%" ++ unescaped (a :: b :: cs)
  | c :: cs => Text.utf8 c.toString ++ unescaped cs
  | [] => []

def name (host : List Char) : List Char :=
  (Text.ofUtf8Lossy (unescaped host)).toList.map Char.toLower

/-- no name holds such a character -/
def isForbidden (c : Char) : Bool :=
  c.toNat ≤ 0x20 || c.toNat == 0x7F || "#%/:<>?@[\\]^|".toList.contains c

/-! ## The whole host -/

def checked : List Char → Except UrlFault (List Char)
  | [] => .error .emptyHost
  | '[' :: inner =>
    if inner.getLast? = some ']' ∧ isIpv6 inner.dropLast then
      .ok (('[' :: inner).map Char.toLower)
    else .error .badIpv6
  | host =>
    let name := name host
    if name.any isForbidden then .error .badName
    else if endsInNumber name then
      match ipv4? name with
      | some n => .ok (ipv4Text n)
      | none => .error .badIpv4
    else .ok name

end NodeHost

end LedgerClient
