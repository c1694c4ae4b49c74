import LedgerClient.Keystore.Signer
/-!
# Keys in memory

* `KeyRing.insert`   adds a key, replacing one of the same name;
* `KeyRing.unlock`   the key of a name, if the passphrase is right;
* `KeyRing.signer`   the signer over these keys;
* `KeyRing.shown`    the names in order, and nothing else.
-/

namespace LedgerClient

structure StoredKey where
  name : String
  passphrase : String
  keypair : Keypair
deriving DecidableEq

structure KeyRing where
  keys : List StoredKey
deriving DecidableEq

namespace KeyRing

def empty : KeyRing := ⟨[]⟩

def insert (r : KeyRing) (k : StoredKey) : KeyRing :=
  ⟨k :: r.keys.filter (·.name ≠ k.name)⟩

def find? (r : KeyRing) (name : String) : Option StoredKey := r.keys.find? (·.name = name)

def unlock (r : KeyRing) (key : KeyRef) : Except KeyringError Keypair :=
  match r.find? key.name with
  | none => .error (.notFound key.name)
  | some k =>
    if k.passphrase = key.passphrase then .ok k.keypair else .error (.wrongPassphrase key.name)

def signer (P : Primitives) (r : KeyRing) : Signer where
  publicKey key := (r.unlock key).map (·.publicKey P)
  sign key message := (r.unlock key).map (·.sign P message)

/-- in the order of their code points -/
def sortedNames (names : List String) : List String := names.mergeSort fun a b => !(b < a)

def shown (r : KeyRing) : String :=
  "InMemoryKeyManager \x7b keys: [" ++
    String.intercalate ", " ((sortedNames (r.keys.map (·.name))).map Text.quote) ++ "] \x7d"

theorem find?_insert_self (r : KeyRing) (k : StoredKey) : (r.insert k).find? k.name = some k := by
  simp [find?, insert]

theorem find?_insert_of_ne {r : KeyRing} {k : StoredKey} {name : String} (h : k.name ≠ name) :
    (r.insert k).find? name = r.find? name := by
  simp only [find?, insert, List.find?_cons, decide_eq_false h]
  rw [List.find?_filter]
  congr 1
  funext x
  by_cases hx : x.name = name
  · subst hx; simp [Ne.symm h]
  · simp [hx]

end KeyRing

end LedgerClient
