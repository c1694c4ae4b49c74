import LedgerClient.Json.Double
/-!
# JSON values

* `Json`           a value; numbers are whole (64 bits, signed or not) or binary64;
* `Json.insert`    an object's members stay sorted by name, each name once;
* `Json.text`      compact text: no blanks, and escapes only where they are needed.
-/

namespace LedgerClient

inductive JsonNumber where
  | whole (n : Int)
  | double (bits : UInt64)
deriving DecidableEq

inductive Json where
  | null
  | bool (b : Bool)
  | number (n : JsonNumber)
  | string (s : String)
  | array (items : List Json)
  | object (members : List (String × Json))
deriving Inhabited, BEq

namespace Json

def nat (n : Nat) : Json := .number (.whole n)

def int (i : Int) : Json := .number (.whole i)

/-- adds a member or replaces the one of that name -/
def insert (name : String) (v : Json) : List (String × Json) → List (String × Json)
  | [] => [(name, v)]
  | (k, w) :: rest =>
    if name < k then (name, v) :: (k, w) :: rest
    else if name = k then (name, v) :: rest
    else (k, w) :: insert name v rest

/-- an object from members in any order; of equal names the last counts -/
def ofMembers (members : List (String × Json)) : Json :=
  .object (members.foldl (fun ms (k, v) => insert k v ms) [])

def lookup? (name : String) : List (String × Json) → Option Json
  | [] => none
  | (k, v) :: rest => if k = name then some v else lookup? name rest

/-! ## Text -/

def hexDigit (n : Nat) : Char := Nat.digitChar n

/-- one character between double quotes -/
def escape (c : Char) : List Char :=
  if c = '"' then ['\\', '"']
  else if c = '\\' then ['\\', '\\']
  else if c = '\x08' then ['\\', 'b']
  else if c = '\x0c' then ['\\', 'f']
  else if c = '\n' then ['\\', 'n']
  else if c = '\r' then ['\\', 'r']
  else if c = '\t' then ['\\', 't']
  else if c.toNat < 0x20 then
    ['\\', 'u', '0', '0', hexDigit (c.toNat / 16), hexDigit (c.toNat % 16)]
  else [c]

def quotedChars (s : String) : List Char := '"' :: s.toList.flatMap escape ++ ['"']

def quoted (s : String) : String := String.ofList (quotedChars s)

def numberText : JsonNumber → String
  | .whole n => toString n
  | .double bits => Double.text bits

mutual

def text : Json → String
  | .null => "null"
  | .bool b => if b then "true" else "false"
  | .number n => numberText n
  | .string s => quoted s
  | .array items => "[" ++ String.intercalate "," (itemTexts items) ++ "]"
  | .object members => "\x7b" ++ String.intercalate "," (memberTexts members) ++ "\x7d"

def itemTexts : List Json → List String
  | [] => []
  | v :: rest => text v :: itemTexts rest

def memberTexts : List (String × Json) → List String
  | [] => []
  | (k, v) :: rest => (quoted k ++ ":" ++ text v) :: memberTexts rest

end

end Json

end LedgerClient
