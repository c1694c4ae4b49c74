import LedgerClient.Json.Value
import LedgerClient.Text.Numeral
import LedgerClient.Text.Utf8
/-!
# JSON documents

A document is what a JSON text spells, before anybody asks for its parts. Parts that nobody asks
for may hold what no value can: a number too large for binary64, a string with an unpaired
surrogate or ill formed bytes, and any depth of nesting.

* `Document`           the parts, with `none` for a number or string that is no value;
* `Document.parse`     the document of a text, with blanks around it and nothing else;
* `Document.value?`    the value of a document that is at most so many containers deep.
-/

namespace LedgerClient

inductive Document where
  | null
  | bool (b : Bool)
  | number (n : Option JsonNumber)
  | string (s : Option String)
  | array (items : List Document)
  | object (members : List (Option String × Document))
deriving Inhabited

namespace Document

/-- a text as its characters, `none` for each ill formed piece of bytes -/
abbrev Source := List (Option Char)

def sourceOfText (s : String) : Source := s.toList.map some

def sourceOfBytes (b : Bytes) : Source := Text.scan b

/-! ## Numbers -/

/-- the digits at the front -/
def digits : Source → List Nat × Source
  | some c :: r =>
    match Text.digit? 10 c with
    | some d => let (ds, r) := digits r; (d :: ds, r)
    | none => ([], some c :: r)
  | r => ([], r)

/-- reads digits into a significand of 64 bits as long as they fit; the rest is returned -/
def accumulate : Nat → List Nat → Nat × List Nat
  | n, [] => (n, [])
  | n, d :: ds => if n * 10 + d < Nat.pow 2 64 then accumulate (n * 10 + d) ds else (n, d :: ds)

/-- the exponent digits, unless they leave 31 bits -/
def exponent? : Nat → List Nat → Option Nat
  | n, [] => some n
  | n, d :: ds => if n * 10 + d < Nat.pow 2 31 then exponent? (n * 10 + d) ds else none

/-- the number spelled by a sign, whole digits, a fraction and an exponent; `none` if it is too
large -/
def numberOf (neg : Bool) (whole : List Nat) (fraction : Option (List Nat))
    (exponent : Option (Bool × List Nat)) : Option JsonNumber :=
  let (n, dropped) := accumulate 0 whole
  match fraction, exponent, dropped with
  | none, none, [] =>
    if !neg then some (.whole n)
    else if n = 0 ∨ Nat.pow 2 63 < n then some (.double (Double.ofNegated n))
    else some (.whole (-(n : Int)))
  | _, _, _ =>
    let (n', rest) := accumulate n (fraction.getD [])
    let e : Int := dropped.length - ((fraction.getD []).length - rest.length)
    match exponent with
    | none => (Double.ofDecimal neg n' e).map .double
    | some (down, ds) =>
      match exponent? 0 ds with
      | some x => (Double.ofDecimal neg n' (if down then e - x else e + x)).map .double
      | none =>
        if n' ≠ 0 ∧ !down then none else (Double.ofDecimal neg 0 0).map .double

/-- a number whose sign has been read -/
def numeral? (neg : Bool) (r : Source) : Option (Document × Source) := do
  let (whole, r) := digits r
  if whole = [] ∨ (whole.head? = some 0 ∧ 1 < whole.length) then none
  else
    let (fraction, r) ←
      match r with
      | some '.' :: r =>
        let (ds, r) := digits r
        if ds = [] then none else some (some ds, r)
      | r => some (none, r)
    let exponentPart (r : Source) : Option (Option (Bool × List Nat) × Source) :=
      let (down, r) :=
        match r with
        | some '+' :: r => (false, r)
        | some '-' :: r => (true, r)
        | r => (false, r)
      let (ds, r) := digits r
      if ds = [] then none else some (some (down, ds), r)
    let (exponent, r) ←
      match r with
      | some 'e' :: r => exponentPart r
      | some 'E' :: r => exponentPart r
      | r => some (none, r)
    return (.number (numberOf neg whole fraction exponent), r)

/-! ## Strings -/

/-- a piece of a string: a character, half of a surrogate pair, or ill formed bytes -/
inductive Piece where
  | char (c : Char)
  | unit (n : Nat)
  | illFormed

/-- four hexadecimal digits -/
def unit? : Source → Option (Nat × Source)
  | some a :: some b :: some c :: some d :: r => do
    let n ← Text.numeral? 16 [a, b, c, d]
    return (n, r)
  | _ => none

def isSurrogate (n : Nat) : Bool := 0xD800 ≤ n && n < 0xE000

/-- the pieces up to the closing quote -/
def pieces : (fuel : Nat) → Source → Option (List Piece × Source)
  | 0, _ => none
  | _ + 1, [] => none
  | fuel + 1, none :: r => do
    let (ps, r) ← pieces fuel r
    return (.illFormed :: ps, r)
  | fuel + 1, some c :: r =>
    if c = '"' then some ([], r)
    else if c = '\\' then
      let short (e : Char) (r : Source) : Option (List Piece × Source) := do
        let (ps, r) ← pieces fuel r
        return (.char e :: ps, r)
      match r with
      | some '"' :: r => short '"' r
      | some '\\' :: r => short '\\' r
      | some '/' :: r => short '/' r
      | some 'b' :: r => short '\x08' r
      | some 'f' :: r => short '\x0c' r
      | some 'n' :: r => short '\n' r
      | some 'r' :: r => short '\r' r
      | some 't' :: r => short '\t' r
      | some 'u' :: r => do
        let (n, r) ← unit? r
        let (ps, r) ← pieces fuel r
        return ((if isSurrogate n then .unit n else .char (Char.ofNat n)) :: ps, r)
      | _ => none
    else if c.toNat < 0x20 then none
    else do
      let (ps, r) ← pieces fuel r
      return (.char c :: ps, r)

/-- the characters of a string whose surrogates are paired -/
def chars? : List Piece → Option (List Char)
  | [] => some []
  | .char c :: ps => (chars? ps).map (c :: ·)
  | .unit hi :: .unit lo :: ps =>
    if hi < 0xDC00 ∧ 0xDC00 ≤ lo then
      (chars? ps).map (Char.ofNat (0x10000 + (hi - 0xD800) * 0x400 + (lo - 0xDC00)) :: ·)
    else none
  | .unit _ :: _ => none
  | .illFormed :: _ => none

/-- a string whose opening quote has been read -/
def stringTail (r : Source) : Option (Option String × Source) := do
  let (ps, r) ← pieces (r.length + 1) r
  return ((chars? ps).map String.ofList, r)

/-! ## Documents -/

def isBlank (c : Char) : Bool := c = ' ' || c = '\n' || c = '\t' || c = '\r'

def skipBlanks : Source → Source
  | some c :: r => if isBlank c then skipBlanks r else some c :: r
  | r => r

/-- what follows the word `w` -/
def word? (w : String) (r : Source) : Option Source :=
  if (w.toList.map some).isPrefixOf r then some (r.drop w.length) else none

mutual

def element : (fuel : Nat) → Source → Option (Document × Source)
  | 0, _ => none
  | fuel + 1, r =>
    match skipBlanks r with
    | some 'n' :: r => do return (.null, ← word? "ull" r)
    | some 't' :: r => do return (.bool true, ← word? "rue" r)
    | some 'f' :: r => do return (.bool false, ← word? "alse" r)
    | some '"' :: r => do
      let (s, r) ← stringTail r
      return (.string s, r)
    | some '-' :: r => numeral? true r
    | some '[' :: r =>
      match skipBlanks r with
      | some ']' :: r => some (.array [], r)
      | r => do
        let (items, r) ← elements fuel r
        return (.array items, r)
    | some '\x7b' :: r =>
      match skipBlanks r with
      | some '\x7d' :: r => some (.object [], r)
      | r => do
        let (ms, r) ← members fuel r
        return (.object ms, r)
    | r => numeral? false r

/-- elements up to the closing bracket, at least one -/
def elements : (fuel : Nat) → Source → Option (List Document × Source)
  | 0, _ => none
  | fuel + 1, r => do
    let (v, r) ← element fuel r
    match skipBlanks r with
    | some ',' :: r => do
      let (vs, r) ← elements fuel r
      return (v :: vs, r)
    | some ']' :: r => return ([v], r)
    | _ => none

/-- members up to the closing brace, at least one -/
def members : (fuel : Nat) → Source → Option (List (Option String × Document) × Source)
  | 0, _ => none
  | fuel + 1, r =>
    match skipBlanks r with
    | some '"' :: r => do
      let (name, r) ← stringTail r
      match skipBlanks r with
      | some ':' :: r => do
        let (v, r) ← element fuel r
        match skipBlanks r with
        | some ',' :: r => do
          let (ms, r) ← members fuel r
          return ((name, v) :: ms, r)
        | some '\x7d' :: r => return ([(name, v)], r)
        | _ => none
      | _ => none
    | _ => none

end

/-- every value takes at least one character, and two levels of the reader share one -/
def parse (s : Source) : Option Document :=
  match element (2 * s.length + 2) s with
  | some (d, r) => if skipBlanks r = [] then some d else none
  | none => none

/-! ## Values -/

/-- how many containers a value may be nested in -/
def depthLimit : Nat := 127

mutual

/-- the value of a document with `room` levels of containers left -/
def value? : (room : Nat) → Document → Option Json
  | _, .null => some .null
  | _, .bool b => some (.bool b)
  | _, .number n => n.map .number
  | _, .string s => s.map .string
  | 0, .array _ => none
  | 0, .object _ => none
  | room + 1, .array items => (values? room items).map .array
  | room + 1, .object ms => (memberValues? room ms).map Json.ofMembers

def values? : (room : Nat) → List Document → Option (List Json)
  | _, [] => some []
  | room, d :: ds => do
    let v ← value? room d
    let vs ← values? room ds
    return v :: vs

def memberValues? : (room : Nat) → List (Option String × Document) →
    Option (List (String × Json))
  | _, [] => some []
  | room, (name, d) :: ms => do
    let name ← name
    let v ← value? room d
    let vs ← memberValues? room ms
    return (name, v) :: vs

end

mutual

/-- a value as a document -/
def ofValue : Json → Document
  | .null => .null
  | .bool b => .bool b
  | .number n => .number (some n)
  | .string s => .string (some s)
  | .array items => .array (ofValues items)
  | .object members => .object (ofMemberValues members)

def ofValues : List Json → List Document
  | [] => []
  | v :: vs => ofValue v :: ofValues vs

def ofMemberValues : List (String × Json) → List (Option String × Document)
  | [] => []
  | (name, v) :: ms => (some name, ofValue v) :: ofMemberValues ms

end

end Document

end LedgerClient
