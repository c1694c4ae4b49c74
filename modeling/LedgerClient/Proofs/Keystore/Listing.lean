import LedgerClient.Proofs.Keystore.Growth
/-!
# The list and the keys that load

The list reads names off files, and loading makes file names of names. Both go by the same extension,
so they fit each other on everything that a vault has written. Anybody can put a file into the
directory, though, and what stands before its extension need not be the name of a key: the list
shows it all the same, and loading refuses the name.

* `Vault.Stray`              a listed name that is no key's name;
* `Vault.Loaded`             what loading comes to, one case for each way it can end;
* `Vault.list_fits_load`     what loading says of the listed names, and when the two agree;
* `Vault.stray_performAll_iff`   operations on a vault make no stray name and take none away.
-/

namespace LedgerClient.Vault

variable {P : Primitives} {d : Directory} {key : KeyRef} {name : String}

/-- a listed name that is no key's name -/
def Stray (d : Directory) (name : String) : Prop := name ∈ list d ∧ ¬ IsKeyName name

/-! ## loading -/

/-- what loading comes to: a name that no key has, a file that is not there or cannot be read, a
blob that does not open, one that opens to no key, or the key -/
inductive Loaded (P : Primitives) (d : Directory) (key : KeyRef) :
    Except KeyringError Keypair → Prop
  | invalid : ¬ IsKeyName key.name → Loaded P d key (.error (.invalidName key.name))
  | tooLong : IsKeyName key.name → ¬ IsShort key.name →
    Loaded P d key (.error (.file .nameTooLong))
  | absent : IsKeyName key.name → IsShort key.name → d.find? (fileName key.name) = none →
    Loaded P d key (.error (.notFound key.name))
  | folder : IsKeyName key.name → IsShort key.name →
    d.find? (fileName key.name) = some .folder → Loaded P d key (.error (.file .isFolder))
  | closed {blob : Bytes} {e : BlobError} : IsKeyName key.name → IsShort key.name →
    d.find? (fileName key.name) = some (.file blob) →
    KeyBlob.decrypt P blob key.passphrase none = .error e →
    Loaded P d key (.error (blobError key.name e))
  | malformed {blob seed : Bytes} {e : KeyError} : IsKeyName key.name → IsShort key.name →
    d.find? (fileName key.name) = some (.file blob) →
    KeyBlob.decrypt P blob key.passphrase none = .ok seed → Keypair.ofBytes seed = .error e →
    Loaded P d key (.error (.key e))
  | opened {blob seed : Bytes} {k : Keypair} : IsKeyName key.name → IsShort key.name →
    d.find? (fileName key.name) = some (.file blob) →
    KeyBlob.decrypt P blob key.passphrase none = .ok seed → Keypair.ofBytes seed = .ok k →
    Loaded P d key (.ok k)

theorem loaded (P : Primitives) (d : Directory) (key : KeyRef) :
    Loaded P d key (load P key d) := by
  unfold load
  by_cases hname : IsKeyName key.name
  · rw [fileOf?_of_isKeyName hname, ok_bind]
    by_cases hshort : IsShort key.name
    · rw [read_of_isShort hshort]
      cases hfind : d.find? (fileName key.name) with
      | none => exact .absent hname hshort hfind
      | some entry =>
        cases entry with
        | folder => exact .folder hname hshort hfind
        | file blob =>
          dsimp only
          cases hblob : KeyBlob.decrypt P blob key.passphrase none with
          | error e => exact .closed hname hshort hfind hblob
          | ok seed =>
            dsimp only
            cases hkey : Keypair.ofBytes seed with
            | error e => exact .malformed hname hshort hfind hblob hkey
            | ok k => exact .opened hname hshort hfind hblob hkey
    · rw [read_of_not_isShort hshort]
      exact .tooLong hname hshort
  · rw [fileOf?_of_not hname]
    exact .invalid hname

theorem Loaded.result_iff {r : Except KeyringError Keypair} (h : Loaded P d key r) :
    (r = .error (.invalidName key.name) ↔ ¬ IsKeyName key.name) ∧
    (r = .error (.notFound key.name) ↔
      IsKeyName key.name ∧ IsShort key.name ∧ d.find? (fileName key.name) = none) := by
  cases h with
  | invalid hname => simp [hname]
  | tooLong hname hshort => simp [hname, hshort]
  | absent hname hshort hfind => simp [hname, hshort, hfind]
  | folder hname hshort hfind => simp [hname, hfind]
  | @closed _ e hname hshort hfind _ => cases e <;> simp [blobError, hname, hfind]
  | malformed hname hshort hfind _ _ => simp [hname, hfind]
  | opened hname hshort hfind _ _ => simp [hname, hfind]

/-! ## the two together -/

/-- the list goes by the extension alone, and loading by the name as well: what is listed is there,
but a stray name is refused, and the two agree on a directory exactly when it has none -/
theorem list_fits_load (P : Primitives) (d : Directory) :
    (list d).Pairwise (fun a b => a < b) ∧
    (∀ name, name ∈ list d ↔ name ≠ "" ∧ d.find? (name ++ ".wal") ≠ none) ∧
    (∀ name ∈ list d, ∀ passphrase,
      load P ⟨name, passphrase⟩ d ≠ .error (.notFound name) ∧
      (load P ⟨name, passphrase⟩ d = .error (.invalidName name) ↔ ¬ IsKeyName name)) ∧
    ((∀ name, name ∈ list d ↔ IsKeyName name ∧ d.find? (name ++ ".wal") ≠ none) ↔
      ∀ name, ¬ Stray d name) := by
  have hlist : ∀ name, name ∈ list d ↔ name ≠ "" ∧ d.find? (name ++ ".wal") ≠ none := by
    intro name
    rw [mem_list_iff, fileName_eq_append, Ne, String.toList_eq_nil_iff]
  refine ⟨pairwise_list d, hlist, ?_, ?_⟩
  · intro name hname passphrase
    obtain ⟨hinvalid, habsent⟩ := (loaded P d ⟨name, passphrase⟩).result_iff
    refine ⟨?_, hinvalid⟩
    intro h
    exact (mem_list_iff.1 hname).2 (habsent.1 h).2.2
  · constructor
    · intro hagree name hstray
      exact hstray.2 ((hagree name).1 hstray.1).1
    · intro hnone name
      constructor
      · intro hname
        refine ⟨?_, ((hlist name).1 hname).2⟩
        by_contra hkey
        exact hnone name ⟨hname, hkey⟩
      · intro h
        refine (hlist name).2 ⟨?_, h.2⟩
        rintro rfl
        exact h.1.1 rfl

/-- somebody has kept a copy of a key file beside it -/
theorem copied_file_listed :
    let d : Directory := ⟨[("main.bak.wal", .file [])], by simp⟩
    list d = ["main.bak"] ∧
      load .standard ⟨"main.bak", "pw"⟩ d = .error (.invalidName "main.bak") := by
  intro d
  have hnames : d.names.filterMap nameOf? = ["main.bak"] := by decide
  refine ⟨?_, rfl⟩
  show KeyRing.sortedNames (d.names.filterMap nameOf?) = _
  rw [hnames]
  exact List.mergeSort_singleton _

/-! ## runs -/

theorem stray_put_iff {entry : Entry} (hname : IsKeyName name) (other : String) :
    Stray (d.put (fileName name) entry) other ↔ Stray d other := by
  unfold Stray
  rw [mem_list_iff, mem_list_iff]
  by_cases heq : name = other
  · subst heq
    simp [hname]
  · rw [Directory.find?_put_of_ne entry fun hfiles => heq (fileName_injective hfiles)]

/-- a new file is named for its key -/
theorem stray_perform_iff (P : Primitives) (op : Op) (d : Directory) (name : String) :
    Stray (op.perform P d).2 name ↔ Stray d name := by
  cases op with
  | store way key k =>
    have hperform : ((Op.store way key k).perform P d).2 = (way.run P key k d).2 := by
      cases way <;> rfl
    have hstored := way.run_stored P key k d
    rw [hperform]
    generalize way.run P key k d = out at hstored ⊢
    obtain ⟨r, d'⟩ := out
    cases hstored with
    | invalid _ => exact Iff.rfl
    | tooLong _ _ => exact Iff.rfl
    | taken _ _ _ => exact Iff.rfl
    | new hname _ _ _ => exact stray_put_iff hname name
  | load key => exact Iff.rfl
  | publicKey key => exact Iff.rfl
  | sign key message => exact Iff.rfl
  | address chainId key => exact Iff.rfl
  | list => exact Iff.rfl
  | reopen => exact Iff.rfl

/-- whatever is done to a vault, its stray names are those of the directory it was opened on -/
theorem stray_performAll_iff (P : Primitives) (ops : List Op) (d : Directory) (name : String) :
    Stray (performAll P ops d) name ↔ Stray d name := by
  induction ops generalizing d with
  | nil => exact Iff.rfl
  | cons op ops ih =>
    show Stray (performAll P ops (op.perform P d).2) name ↔ _
    rw [ih, stray_perform_iff]

end LedgerClient.Vault
