import LedgerClient.Proofs.Keystore.Vault
/-!
# A vault only grows

A directory may hold anything when a vault is opened on it: keys, foreign files, and folders named
like key files. Whatever is asked of the vault, an entry that is there stays there with its
content. A stored key is one new entry, and a refusal leaves no trace.

* `Directory.Extends`       what one directory holds is in another, unchanged;
* `Vault.Op.perform`        what an operation answers, and the directory after it;
* `Vault.Performed`         what that comes to: an answer, a refusal, or one new key file;
* `Vault.entries_kept`      what becomes of the entries of any directory under any operation;
* `Vault.extends_performAll`   what becomes of them under operations in any order.
-/

namespace LedgerClient

namespace Directory

variable {d d' d'' : Directory} {name : String}

/-- what `d` holds is in `d'`, unchanged -/
def Extends (d d' : Directory) : Prop :=
  ∀ name e, d.find? name = some e → d'.find? name = some e

theorem Extends.refl (d : Directory) : d.Extends d := fun _ _ h => h

theorem Extends.trans (h : d.Extends d') (h' : d'.Extends d'') : d.Extends d'' :=
  fun name e he => h' name e (h name e he)

theorem extends_put (h : d.find? name = none) (e : Entry) : d.Extends (d.put name e) := by
  intro other e' he'
  have hne : name ≠ other := by
    rintro rfl
    rw [h] at he'
    cases he'
  rw [find?_put_of_ne e hne]
  exact he'

/-- a free name is added in front of what is there -/
theorem entries_put (h : d.find? name = none) (e : Entry) :
    (d.put name e).entries = (name, e) :: d.entries := by
  have hfree : ∀ x ∈ d.entries, x.1 ≠ name := by
    intro x hx heq
    have hmem : name ∈ d.names := List.mem_map.2 ⟨x, hx, heq⟩
    rw [mem_names_iff, h] at hmem
    cases hmem
  show (name, e) :: d.entries.filter (fun x => decide (x.1 ≠ name)) = _
  rw [List.filter_eq_self.2 fun x hx => decide_eq_true (hfree x hx)]

end Directory

namespace Vault

/-- what an operation answers -/
inductive Answer where
  | done
  | keypair (k : Keypair)
  | publicKey (key : PublicKey)
  | signature (s : SignatureRecord)
  | address (a : Address)
  | names (ns : List String)

/-- the answer of an operation on a directory, and the directory after it -/
def Op.perform (P : Primitives) : Op → Directory → Except KeyringError Answer × Directory
  | .store (.create nonce) key k, d =>
    ((createKey P nonce key k d).1.map .publicKey, (createKey P nonce key k d).2)
  | .store (.sealed nonce) key k, d =>
    ((importKey P nonce key k d).1.map fun _ => .done, (importKey P nonce key k d).2)
  | .store .plain key k, d =>
    ((importPlain P key k d).1.map fun _ => .done, (importPlain P key k d).2)
  | .load key, d => ((Vault.load P key d).map .keypair, d)
  | .publicKey key, d => (((signer P d).publicKey key).map .publicKey, d)
  | .sign key message, d => (((signer P d).sign key message).map .signature, d)
  | .address chainId key, d => (((signer P d).address P chainId key).map .address, d)
  | .list, d => (.ok (.names (Vault.list d)), d)
  | .reopen, d => (.ok .done, d)

/-- an operation that has nothing to store -/
def Op.Reads : Op → Prop
  | .store _ _ _ => False
  | _ => True

/-- only storing changes a directory, and only by a file whose name was free -/
inductive Performed (P : Primitives) (d : Directory) (op : Op) :
    Except KeyringError Answer → Directory → Prop
  | answered {a : Answer} : op.Reads → Performed P d op (.ok a) d
  | refused {e : KeyringError} : Performed P d op (.error e) d
  | stored {way : Import} {key : KeyRef} {k : Keypair} {blob : Bytes} {a : Answer} :
    op = .store way key k → d.find? (fileName key.name) = none → way.blob P key k = .ok blob →
      Performed P d op (.ok a) (d.put (fileName key.name) (.file blob))

variable {P : Primitives} {d d' : Directory} {op : Op} {way : Import} {key : KeyRef} {k : Keypair}

theorem performed_read {α : Type} (op : Op) (hop : op.Reads) (r : Except KeyringError α)
    (f : α → Answer) : Performed P d op (r.map f) d := by
  cases r with
  | error e => exact .refused
  | ok a => exact .answered hop

/-- storing, whatever is made of its result -/
theorem performed_store {α : Type} {r : Except KeyringError α} (f : α → Answer)
    (h : Stored P key k d way (r.map fun _ => ()) d') :
    Performed P d (.store way key k) (r.map f) d' := by
  cases r with
  | error e =>
    -- each of the three refusals leaves the directory as it was
    cases h with
    | invalid _ => exact .refused
    | tooLong _ _ => exact .refused
    | taken _ _ _ => exact .refused
  | ok a =>
    cases h with
    | new _ _ hfind hblob => exact .stored rfl hfind hblob

theorem performed (P : Primitives) (d : Directory) (op : Op) :
    Performed P d op (op.perform P d).1 (op.perform P d).2 := by
  have hunit : ∀ r : Except KeyringError Unit, (r.map fun _ => ()) = r := by
    intro r
    cases r <;> rfl
  cases op with
  | store way key k =>
    cases way with
    | create nonce => exact performed_store _ (createKey_stored P nonce key k d)
    | sealed nonce =>
      have h := importKey_stored P nonce key k d
      rw [← hunit (importKey P nonce key k d).1] at h
      exact performed_store _ h
    | plain =>
      have h := importPlain_stored P key k d
      rw [← hunit (importPlain P key k d).1] at h
      exact performed_store _ h
  | load key => exact performed_read (.load key) trivial _ _
  | publicKey key => exact performed_read (.publicKey key) trivial _ _
  | sign key message => exact performed_read (.sign key message) trivial _ _
  | address chainId key => exact performed_read (.address chainId key) trivial _ _
  | list => exact .answered trivial
  | reopen => exact .answered trivial

namespace Performed

variable {r : Except KeyringError Answer}

theorem grows (h : Performed P d op r d') : d.Extends d' := by
  cases h with
  | answered _ => exact .refl d
  | refused => exact .refl d
  | stored _ hfind _ => exact Directory.extends_put hfind _

theorem unchanged (h : Performed P d op r d')
    (hquiet : (∃ e, r = .error e) ∨ op.Reads) : d' = d := by
  cases h with
  | answered _ => rfl
  | refused => rfl
  | stored hop _ _ =>
    rcases hquiet with ⟨e, he⟩ | hread
    · cases he
    · subst hop
      exact hread.elim

theorem entries_eq {a : Answer} (h : Performed P d (.store way key k) (.ok a) d') :
    d.find? (fileName key.name) = none ∧ ∃ blob, way.blob P key k = .ok blob ∧
      d'.entries = (fileName key.name, .file blob) :: d.entries := by
  cases h with
  | answered hread => exact hread.elim
  | stored hop hfind hblob =>
    obtain ⟨rfl, rfl, rfl⟩ := Op.store.inj hop
    exact ⟨hfind, _, hblob, Directory.entries_put hfind _⟩

end Performed

/-- no operation touches an entry that is there: what is refused or only read changes nothing, and
what is stored is one new file -/
theorem entries_kept (P : Primitives) (d : Directory) (op : Op) :
    let answer := (op.perform P d).1
    let after := (op.perform P d).2
    d.Extends after ∧
    ((∃ e, answer = .error e) ∨ op.Reads → after = d) ∧
    ∀ way key k a, op = .store way key k → answer = .ok a →
      d.find? (key.name ++ ".wal") = none ∧ ∃ blob, way.blob P key k = .ok blob ∧
        after.entries = (key.name ++ ".wal", .file blob) :: d.entries := by
  intro answer after
  have h : Performed P d op answer after := performed P d op
  refine ⟨h.grows, h.unchanged, ?_⟩
  rintro way key k a rfl hok
  rw [hok] at h
  rw [← fileName_eq_append]
  exact h.entries_eq

/-- a folder named like a key file is in the way of that key, and stays -/
example (P : Primitives) (k : Keypair) (d : Directory) (h : d.entries = [("main.wal", .folder)]) :
    importPlain P ⟨"main", "pw"⟩ k d = (.error (.exists "main"), d) := by
  obtain ⟨entries, distinct⟩ := d
  subst h
  rfl

/-! ## runs -/

/-- the directory after operations one after the other -/
def performAll (P : Primitives) (ops : List Op) (d : Directory) : Directory :=
  ops.foldl (fun d op => (op.perform P d).2) d

theorem extends_performAll (P : Primitives) (ops : List Op) (d : Directory) :
    d.Extends (performAll P ops d) := by
  induction ops generalizing d with
  | nil => exact .refl d
  | cons op ops ih => exact (performed P d op).grows.trans (ih (op.perform P d).2)

end Vault

end LedgerClient
