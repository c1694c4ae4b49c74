import LedgerClient.Bytes
import LedgerClient.Keystore.Signer
/-!
# A flat directory

Files and folders by name, each name at most once.

* `Directory.find?`    what a name stands for;
* `Directory.create`   adds a file under a name that is free;
* `Directory.write`    adds a file or replaces one;
* `Directory.read`     the content of a file.

A name takes at most 255 bytes.

Left out: links, so that every entry is a file or a folder by itself; and faults of the device, so
that what is opened is read or written as a whole.
-/

namespace LedgerClient

/-- what a name stands for; there are no links -/
inductive Entry where
  | file (content : Bytes)
  | folder
deriving DecidableEq

structure Directory where
  entries : List (String × Entry)
  distinct : (entries.map Prod.fst).Nodup

namespace Directory

def empty : Directory := ⟨[], by simp⟩

def find? (d : Directory) (name : String) : Option Entry :=
  (d.entries.find? (·.1 = name)).map Prod.snd

def names (d : Directory) : List String := d.entries.map Prod.fst

def remove (d : Directory) (name : String) : Directory :=
  ⟨d.entries.filter (·.1 ≠ name), by
    exact d.distinct.sublist (List.filter_sublist.map _)⟩

/-- adds or replaces -/
def put (d : Directory) (name : String) (e : Entry) : Directory :=
  ⟨(name, e) :: (d.remove name).entries, by
    rw [List.map_cons, List.nodup_cons]
    refine ⟨?_, (d.remove name).distinct⟩
    simp [remove]⟩

def nameTooLong (name : String) : Bool := 255 < (Text.utf8 name).length

def create (d : Directory) (name : String) (content : Bytes) : Except FileError Directory :=
  if nameTooLong name then .error .nameTooLong
  else if (d.find? name).isSome then .error .present
  else .ok (d.put name (.file content))

def write (d : Directory) (name : String) (content : Bytes) : Except FileError Directory :=
  if nameTooLong name then .error .nameTooLong
  else
    match d.find? name with
    | some .folder => .error .isFolder
    | _ => .ok (d.put name (.file content))

def read (d : Directory) (name : String) : Except FileError Bytes :=
  if nameTooLong name then .error .nameTooLong
  else
    match d.find? name with
    | none => .error .absent
    | some .folder => .error .isFolder
    | some (.file content) => .ok content

/-- a name that cannot stand for anything does not exist -/
def exists? (d : Directory) (name : String) : Bool :=
  !nameTooLong name && (d.find? name).isSome

theorem find?_put_self (d : Directory) (name : String) (e : Entry) :
    (d.put name e).find? name = some e := by
  simp [find?, put]

theorem find?_put_of_ne {d : Directory} {name other : String} (e : Entry) (h : name ≠ other) :
    (d.put name e).find? other = d.find? other := by
  simp only [find?, put, remove, List.find?_cons, decide_eq_false h]
  rw [List.find?_filter]
  congr 2
  funext x
  by_cases hx : x.1 = other
  · subst hx; simp [Ne.symm h]
  · simp [hx]

end Directory

end LedgerClient
