import LedgerClient.Json.Document
/-!
# Reading records from documents

A record is read from an object by the names of its fields, or from an array by their order. A
field may be missing, but not given twice; members with other names are passed over, whatever they
hold.

* `Document.Reader α`    how an `α` is read, with so many levels of containers left;
* `Document.fields`      the document of every field of a record, `none` for a missing one;
* `Document.text`, `whole`, `value`, `optional`, `listOf`   readers of single fields.
-/

namespace LedgerClient.Document

abbrev Reader (α : Type) := (room : Nat) → Document → Option α

/-- puts `d` into the slot whose names include `name`, which must be empty -/
def place (name : String) (d : Document) : List (List String) → List (Option Document) →
    Option (List (Option Document))
  | names :: rest, slot :: slots =>
    if name ∈ names then
      match slot with
      | none => some (some d :: slots)
      | some _ => none
    else (place name d rest slots).map (slot :: ·)
  | _, slots => some slots

def placeAll (known : List (List String)) : List (Option String × Document) →
    List (Option Document) → Option (List (Option Document))
  | [], slots => some slots
  | (none, _) :: _, _ => none
  | (some name, d) :: ms, slots => (place name d known slots).bind (placeAll known ms)

/-- the documents of the fields `known`, each given by its possible names -/
def fields (known : List (List String)) : Reader (List (Option Document))
  | 0, _ => none
  | _ + 1, .object ms => placeAll known ms (known.map fun _ => none)
  | _ + 1, .array items =>
    if items.length ≤ known.length then
      some (items.map some ++ List.replicate (known.length - items.length) none)
    else none
  | _, _ => none

def value : Reader Json := value?

def text : Reader String
  | _, .string s => s
  | _, _ => none

/-- a whole number from `low` to `high` -/
def whole (low high : Int) : Reader Int
  | _, .number (some (.whole n)) => if low ≤ n ∧ n ≤ high then some n else none
  | _, _ => none

/-- an unsigned number of `bits` bits -/
def unsigned (bits : Nat) : Reader Nat := fun room d =>
  (whole 0 (Nat.pow 2 bits - 1) room d).map Int.toNat

def optional {α : Type} (read : Reader α) : Reader (Option α)
  | _, .null => some none
  | room, d => (read room d).map some

def listOf {α : Type} (read : Reader α) : Reader (List α)
  | room + 1, .array items => items.mapM (read room)
  | _, _ => none

/-- a field that must be there -/
def required {α : Type} (read : Reader α) (room : Nat) (d : Option Document) : Option α :=
  d.bind (read room)

/-- a field with a default -/
def defaulted {α : Type} (read : Reader α) (default : α) (room : Nat) (d : Option Document) :
    Option α :=
  match d with
  | none => some default
  | some d => read room d

/-- the reader of a record by its fields -/
def record {α : Type} (known : List (List String))
    (build : (room : Nat) → List (Option Document) → Option α) : Reader α := fun room d =>
  (fields known room d).bind (build (room - 1))

/-- reads a whole text -/
def readText {α : Type} (read : Reader α) (s : String) : Option α :=
  (parse (sourceOfText s)).bind (read depthLimit)

/-- reads a value that is at hand -/
def readValue {α : Type} (read : Reader α) (v : Json) : Option α := read depthLimit (ofValue v)

end LedgerClient.Document
