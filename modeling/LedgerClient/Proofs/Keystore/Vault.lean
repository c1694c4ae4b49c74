import LedgerClient.Proofs.Keystore.Blob
import LedgerClient.Proofs.Keystore.Names
/-!
# A vault behaves like a map

A vault is compared to a ring that holds what was stored: nothing enters the ring but a key whose
storing succeeded.

* `Vault.Import`          the three ways to store a key, with one account of what they do, `Stored`;
* `Vault.Op`, `Vault.runs`   operations in any order, from an empty directory and an empty ring;
* `Vault.Refines`         every file is a key of the ring, and every key of the ring is in its file;
* `Vault.runs_refines`    so it is after every run;
* `Vault.behaves_like_ring`   what imports, the list and the uses of keys show of the ring.
-/

namespace LedgerClient

namespace Directory

theorem mem_names_iff {d : Directory} {name : String} :
    name ∈ d.names ↔ (d.find? name).isSome = true := by
  unfold names find?
  rw [Option.isSome_map, List.find?_isSome, List.mem_map]
  simp only [decide_eq_true_eq]

theorem find?_empty (name : String) : empty.find? name = none := rfl

end Directory

namespace Vault

variable {P : Primitives} {d d' : Directory} {key : KeyRef} {k : Keypair}

/-- names whose files have a name of at most 255 bytes -/
def IsShort (name : String) : Prop := (Text.utf8 name).length ≤ 251

instance (name : String) : Decidable (IsShort name) := inferInstanceAs (Decidable (_ ≤ 251))

theorem nameTooLong_of_isShort {name : String} (h : IsShort name) :
    Directory.nameTooLong (fileName name) = false := by
  unfold IsShort at h
  unfold Directory.nameTooLong
  rw [decide_eq_false_iff_not, length_fileName]
  omega

theorem nameTooLong_of_not {name : String} (h : ¬ IsShort name) :
    Directory.nameTooLong (fileName name) = true := by
  unfold IsShort at h
  unfold Directory.nameTooLong
  rw [decide_eq_true_iff, length_fileName]
  omega

theorem read_of_isShort {name : String} (hshort : IsShort name) (d : Directory) :
    d.read (fileName name) = match d.find? (fileName name) with
      | none => .error .absent
      | some .folder => .error .isFolder
      | some (.file blob) => .ok blob := by
  unfold Directory.read
  rw [nameTooLong_of_isShort hshort]
  rfl

theorem read_of_not_isShort {name : String} (hshort : ¬ IsShort name) (d : Directory) :
    d.read (fileName name) = .error .nameTooLong := by
  unfold Directory.read
  rw [nameTooLong_of_not hshort]
  rfl

/-! ## storing -/

/-- how a key gets into a vault -/
inductive Import where
  | create (nonce : Octets 12)
  | sealed (nonce : Octets 12)
  | plain

/-- stores the key `k`; a created key is one that was just generated -/
def Import.run (P : Primitives) (key : KeyRef) (k : Keypair) (d : Directory) :
    Import → Except KeyringError Unit × Directory
  | .create nonce => ((createKey P nonce key k d).1.map fun _ => (), (createKey P nonce key k d).2)
  | .sealed nonce => importKey P nonce key k d
  | .plain => importPlain P key k d

/-- the blob that is stored -/
def Import.blob (P : Primitives) (key : KeyRef) (k : Keypair) : Import → Except BlobError Bytes
  | .create nonce => KeyBlob.encryptSealed P nonce k.seed.bytes key.passphrase none
  | .sealed nonce => KeyBlob.encryptSealed P nonce k.seed.bytes key.passphrase none
  | .plain => KeyBlob.encryptPlain P k.seed.bytes key.passphrase none

/-- what storing comes to: a bad name, one that is too long for a file, one that is taken, or a new
file -/
inductive Stored (P : Primitives) (key : KeyRef) (k : Keypair) (d : Directory) (way : Import) :
    Except KeyringError Unit → Directory → Prop
  | invalid : ¬ IsKeyName key.name → Stored P key k d way (.error (.invalidName key.name)) d
  | tooLong : IsKeyName key.name → ¬ IsShort key.name →
    Stored P key k d way (.error (.file .nameTooLong)) d
  | taken : IsKeyName key.name → IsShort key.name → d.find? (fileName key.name) ≠ none →
    Stored P key k d way (.error (.exists key.name)) d
  | new {blob : Bytes} : IsKeyName key.name → IsShort key.name →
    d.find? (fileName key.name) = none → way.blob P key k = .ok blob →
    Stored P key k d way (.ok ()) (d.put (fileName key.name) (.file blob))

/-- a seed is never too large for a blob -/
theorem length_seed_lt (seed : Seed) : seed.bytes.length < 2 ^ 32 := by
  rw [seed.size]
  decide

theorem fileOf?_of_isKeyName {name : String} (h : IsKeyName name) :
    fileOf? name = .ok (fileName name) := if_pos (isName_iff.2 h)

theorem fileOf?_of_not {name : String} (h : ¬ IsKeyName name) :
    fileOf? name = .error (.invalidName name) := if_neg fun hn => h (isName_iff.1 hn)

theorem importKey_stored (P : Primitives) (nonce : Octets 12) (key : KeyRef) (k : Keypair)
    (d : Directory) : Stored P key k d (.sealed nonce) (importKey P nonce key k d).1
      (importKey P nonce key k d).2 := by
  obtain ⟨blob, hblob⟩ := KeyBlob.exists_encryptSealed P nonce key.passphrase none
    (length_seed_lt k.seed)
  unfold importKey
  by_cases hname : IsKeyName key.name
  · rw [fileOf?_of_isKeyName hname]
    simp only [hblob]
    unfold Directory.create
    by_cases hshort : IsShort key.name
    · rw [nameTooLong_of_isShort hshort]
      cases hfind : d.find? (fileName key.name) with
      | none => exact .new hname hshort hfind hblob
      | some entry => exact .taken hname hshort (by rw [hfind]; exact Option.some_ne_none entry)
    · rw [nameTooLong_of_not hshort]
      exact .tooLong hname hshort
  · rw [fileOf?_of_not hname]
    exact .invalid hname

theorem importPlain_stored (P : Primitives) (key : KeyRef) (k : Keypair) (d : Directory) :
    Stored P key k d .plain (importPlain P key k d).1 (importPlain P key k d).2 := by
  obtain ⟨blob, hblob⟩ := KeyBlob.exists_encryptPlain P key.passphrase none
    (length_seed_lt k.seed)
  unfold importPlain
  by_cases hname : IsKeyName key.name
  · rw [fileOf?_of_isKeyName hname]
    simp only [hblob]
    unfold Directory.exists? Directory.write
    by_cases hshort : IsShort key.name
    · rw [nameTooLong_of_isShort hshort]
      cases hfind : d.find? (fileName key.name) with
      | none => exact .new hname hshort hfind hblob
      | some entry => exact .taken hname hshort (by rw [hfind]; exact Option.some_ne_none entry)
    · rw [nameTooLong_of_not hshort]
      exact .tooLong hname hshort
  · rw [fileOf?_of_not hname]
    exact .invalid hname

theorem createKey_stored (P : Primitives) (nonce : Octets 12) (key : KeyRef) (k : Keypair)
    (d : Directory) : Stored P key k d (.create nonce)
      ((createKey P nonce key k d).1.map fun _ => ()) (createKey P nonce key k d).2 := by
  have h := importKey_stored P nonce key k d
  unfold createKey
  generalize importKey P nonce key k d = out at h
  obtain ⟨r, d'⟩ := out
  cases h with
  | invalid hname => exact .invalid hname
  | tooLong hname hshort => exact .tooLong hname hshort
  | taken hname hshort hfind => exact .taken hname hshort hfind
  | new hname hshort hfind hblob => exact .new hname hshort hfind hblob

theorem Import.run_stored (P : Primitives) (key : KeyRef) (k : Keypair) (d : Directory)
    (way : Import) : Stored P key k d way (way.run P key k d).1 (way.run P key k d).2 := by
  cases way with
  | create nonce => exact createKey_stored P nonce key k d
  | sealed nonce => exact importKey_stored P nonce key k d
  | plain => exact importPlain_stored P key k d

/-! ## runs -/

/-- an operation on a vault; only storing changes anything -/
inductive Op where
  | store (way : Import) (key : KeyRef) (k : Keypair)
  | load (key : KeyRef)
  | publicKey (key : KeyRef)
  | sign (key : KeyRef) (message : Bytes)
  | address (chainId : String) (key : KeyRef)
  | list
  | reopen

/-- the ring with a key, if storing it succeeded -/
def recorded (key : KeyRef) (k : Keypair) (ring : KeyRing) : Except KeyringError Unit → KeyRing
  | .ok () => ring.insert ⟨key.name, key.passphrase, k⟩
  | .error _ => ring

/-- the directory after an operation, and the ring with what the operation has stored -/
def Op.run (P : Primitives) : Op → Directory × KeyRing → Directory × KeyRing
  | .store way key k, (d, ring) =>
    ((way.run P key k d).2, recorded key k ring (way.run P key k d).1)
  | _, s => s

/-- the operations `ops` one after the other, from nothing -/
def runs (P : Primitives) (ops : List Op) : Directory × KeyRing :=
  ops.foldl (fun s op => op.run P s) (Directory.empty, KeyRing.empty)

/-- a blob in the plain format is no sealed blob under the same passphrase -/
def Op.Unauthentic (P : Primitives) : Op → Prop
  | .store .plain key k => ∀ blob, Import.plain.blob P key k = .ok blob →
    KeyBlob.Unauthentic P blob key.passphrase none
  | _ => True

/-- every key of the ring is in its file, under its passphrase, and there is no other file -/
structure Refines (P : Primitives) (d : Directory) (ring : KeyRing) : Prop where
  stored : ∀ {name k}, ring.find? name = some k → IsKeyName name ∧ IsShort name ∧
    ∃ blob, d.find? (fileName name) = some (.file blob) ∧
      KeyBlob.decrypt P blob k.passphrase none = .ok k.keypair.seed.bytes
  listed : ∀ {file}, d.find? file ≠ none → ∃ name, file = fileName name ∧ ring.find? name ≠ none

variable {ring : KeyRing} {way : Import}

theorem Refines.empty (P : Primitives) : Refines P Directory.empty KeyRing.empty where
  stored h := nomatch h
  listed h := absurd (Directory.find?_empty _) h

/-- a file is there exactly for the keys of the ring -/
theorem Refines.find?_eq_none_iff (h : Refines P d ring) {name : String} :
    d.find? (fileName name) = none ↔ ring.find? name = none := by
  constructor
  · intro hfile
    cases hring : ring.find? name with
    | none => rfl
    | some k =>
      obtain ⟨-, -, blob, hblob, -⟩ := h.stored hring
      rw [hfile] at hblob
      cases hblob
  · intro hring
    by_contra hfile
    obtain ⟨other, hother, hfound⟩ := h.listed hfile
    rw [← fileName_injective hother] at hfound
    exact hfound hring

theorem Refines.insert (h : Refines P d ring) {blob : Bytes} (hname : IsKeyName key.name)
    (hshort : IsShort key.name)
    (hblob : KeyBlob.decrypt P blob key.passphrase none = .ok k.seed.bytes) :
    Refines P (d.put (fileName key.name) (.file blob))
      (ring.insert ⟨key.name, key.passphrase, k⟩) where
  stored := by
    intro name k' hk'
    by_cases heq : key.name = name
    · subst heq
      rw [KeyRing.find?_insert_self ring ⟨key.name, key.passphrase, k⟩] at hk'
      obtain rfl := Option.some_inj.1 hk'
      exact ⟨hname, hshort, blob, Directory.find?_put_self _ _ _, hblob⟩
    · rw [KeyRing.find?_insert_of_ne (k := ⟨key.name, key.passphrase, k⟩) heq] at hk'
      obtain ⟨hname', hshort', blob', hfile, hdecrypt⟩ := h.stored hk'
      refine ⟨hname', hshort', blob', ?_, hdecrypt⟩
      rw [Directory.find?_put_of_ne _ fun hfiles => heq (fileName_injective hfiles)]
      exact hfile
  listed := by
    intro file hfile
    by_cases heq : fileName key.name = file
    · refine ⟨key.name, heq.symm, ?_⟩
      rw [KeyRing.find?_insert_self ring ⟨key.name, key.passphrase, k⟩]
      exact Option.some_ne_none _
    · rw [Directory.find?_put_of_ne _ heq] at hfile
      obtain ⟨name, rfl, hring⟩ := h.listed hfile
      refine ⟨name, rfl, ?_⟩
      have hne : key.name ≠ name := fun hnames => heq (congrArg fileName hnames)
      rw [KeyRing.find?_insert_of_ne (k := ⟨key.name, key.passphrase, k⟩) hne]
      exact hring

/-- what was stored opens under the passphrase it was stored with -/
theorem decrypt_of_blob (hP : P.LawfulCiphers) (hop : (Op.store way key k).Unauthentic P)
    {blob : Bytes} (hblob : way.blob P key k = .ok blob) :
    KeyBlob.decrypt P blob key.passphrase none = .ok k.seed.bytes := by
  cases way with
  | create nonce => exact KeyBlob.decrypt_of_encryptSealed hP hblob
  | sealed nonce => exact KeyBlob.decrypt_of_encryptSealed hP hblob
  | plain => exact KeyBlob.decrypt_of_encryptPlain hP hblob (hop blob hblob)

theorem Refines.run (hP : P.LawfulCiphers) {op : Op} (hop : op.Unauthentic P)
    (h : Refines P d ring) :
    Refines P (op.run P (d, ring)).1 (op.run P (d, ring)).2 := by
  cases op with
  | store way key k =>
    have hstored := way.run_stored P key k d
    show Refines P (way.run P key k d).2 (recorded key k ring (way.run P key k d).1)
    generalize way.run P key k d = out at hstored ⊢
    obtain ⟨r, d'⟩ := out
    cases hstored with
    | invalid _ => exact h
    | tooLong _ _ => exact h
    | taken _ _ _ => exact h
    | new hname hshort _ hblob => exact h.insert hname hshort (decrypt_of_blob hP hop hblob)
  | load key => exact h
  | publicKey key => exact h
  | sign key message => exact h
  | address chainId key => exact h
  | list => exact h
  | reopen => exact h

/-- a key whose name is free is stored -/
theorem Refines.recorded_eq (h : Refines P d ring) (hname : IsKeyName key.name)
    (hshort : IsShort key.name) (hfree : ring.find? key.name = none) :
    recorded key k ring (way.run P key k d).1 = ring.insert ⟨key.name, key.passphrase, k⟩ := by
  have hstored := way.run_stored P key k d
  generalize way.run P key k d = out at hstored ⊢
  obtain ⟨r, d'⟩ := out
  cases hstored with
  | invalid hinvalid => exact absurd hname hinvalid
  | tooLong _ hlong => exact absurd hshort hlong
  | taken _ _ htaken => exact absurd (h.find?_eq_none_iff.2 hfree) htaken
  | new _ _ _ _ => rfl

theorem recorded_of_not_isKeyName (hname : ¬ IsKeyName key.name) :
    recorded key k ring (way.run P key k d).1 = ring := by
  have hstored := way.run_stored P key k d
  generalize way.run P key k d = out at hstored ⊢
  obtain ⟨r, d'⟩ := out
  cases hstored with
  | new hvalid _ _ _ => exact absurd hvalid hname
  | _ => rfl

theorem runs_refines (hP : P.LawfulCiphers) {ops : List Op} (hops : ∀ op ∈ ops, op.Unauthentic P) :
    Refines P (runs P ops).1 (runs P ops).2 := by
  have hfold : ∀ (ops : List Op) (s : Directory × KeyRing), (∀ op ∈ ops, op.Unauthentic P) →
      Refines P s.1 s.2 → Refines P (ops.foldl (fun s op => op.run P s) s).1
        (ops.foldl (fun s op => op.run P s) s).2 := by
    intro ops
    induction ops with
    | nil => exact fun _ _ hs => hs
    | cons op ops ih =>
      intro s hops hs
      rw [List.foldl_cons]
      exact ih _ (fun op' hop' => hops op' (List.mem_cons_of_mem op hop'))
        (hs.run hP (hops op List.mem_cons_self))
  exact hfold ops _ hops (.empty P)

/-! ## what can be seen -/

/-- the list has every name that an entry has before its extension -/
theorem mem_list_iff {name : String} :
    name ∈ list d ↔ name.toList ≠ [] ∧ d.find? (fileName name) ≠ none := by
  unfold list
  rw [KeyRing.mem_sortedNames, List.mem_filterMap]
  constructor
  · rintro ⟨file, hfile, hname⟩
    obtain ⟨hnil, rfl⟩ := nameOf?_eq_some_iff.1 hname
    rw [Directory.mem_names_iff, Option.isSome_iff_ne_none] at hfile
    exact ⟨hnil, hfile⟩
  · rintro ⟨hnil, hfile⟩
    refine ⟨fileName name, ?_, nameOf?_fileName hnil⟩
    rw [Directory.mem_names_iff, Option.isSome_iff_ne_none]
    exact hfile

theorem Refines.mem_list_iff (h : Refines P d ring) {name : String} :
    name ∈ list d ↔ ring.find? name ≠ none := by
  have hfile : d.find? (fileName name) ≠ none ↔ ring.find? name ≠ none :=
    not_congr h.find?_eq_none_iff
  rw [Vault.mem_list_iff, hfile]
  refine and_iff_right_of_imp fun hring => ?_
  obtain ⟨k, hk⟩ := Option.ne_none_iff_exists'.1 hring
  exact (h.stored hk).1.1

/-- two files never show one name -/
theorem pairwise_list (d : Directory) : (list d).Pairwise (fun a b => a < b) := by
  refine KeyRing.pairwise_lt_sortedNames (List.Nodup.filterMap ?_ d.distinct)
  intro file file' name hname hname'
  rw [eq_fileName_of_nameOf? hname, eq_fileName_of_nameOf? hname']

theorem Refines.load_eq (h : Refines P d ring) {k : StoredKey} {name : String}
    (hk : ring.find? name = some k) : load P ⟨name, k.passphrase⟩ d = .ok k.keypair := by
  obtain ⟨hname, hshort, blob, hfile, hdecrypt⟩ := h.stored hk
  unfold load
  rw [fileOf?_of_isKeyName hname, ok_bind, read_of_isShort hshort, hfile]
  simp only [hdecrypt, Keypair.ofBytes, Octets.ofBytes?_bytes]

theorem Refines.load_eq_notFound (h : Refines P d ring) (hname : IsKeyName key.name)
    (hshort : IsShort key.name) (hk : ring.find? key.name = none) :
    load P key d = .error (.notFound key.name) := by
  unfold load
  rw [fileOf?_of_isKeyName hname, ok_bind, read_of_isShort hshort, h.find?_eq_none_iff.2 hk]

/-- vault and ring use keys in the same way, once they are loaded -/
theorem signer_eq_of_load_eq {r : Except KeyringError Keypair} (hload : load P key d = r)
    (hunlock : ring.unlock key = r) :
    (signer P d).publicKey key = (ring.signer P).publicKey key ∧
    (∀ message, (signer P d).sign key message = (ring.signer P).sign key message) ∧
    ∀ chainId, (signer P d).address P chainId key = (ring.signer P).address P chainId key := by
  have hkey : (signer P d).publicKey key = (ring.signer P).publicKey key := by
    show (load P key d).map _ = (ring.unlock key).map _
    rw [hload, hunlock]
  refine ⟨hkey, fun message => ?_, fun chainId => ?_⟩
  · show (load P key d).map _ = (ring.unlock key).map _
    rw [hload, hunlock]
  · show ((signer P d).publicKey key).map _ = ((ring.signer P).publicKey key).map _
    rw [hkey]

theorem Stored.result_iff {r : Except KeyringError Unit} (h : Stored P key k d way r d')
    (hshort : IsShort key.name) :
    (r = .ok () ↔ IsKeyName key.name ∧ d.find? (fileName key.name) = none) ∧
    (r = .error (.exists key.name) ↔ IsKeyName key.name ∧ d.find? (fileName key.name) ≠ none) ∧
    (r = .error (.invalidName key.name) ↔ ¬ IsKeyName key.name) := by
  cases h with
  | invalid hname => simp [hname]
  | tooLong _ hlong => exact absurd hshort hlong
  | taken hname _ hfind => simp [hname, hfind]
  | new hname _ hfind _ => simp [hname, hfind]

/-- whatever has been done to a vault, it is the ring of the keys whose storing succeeded -/
theorem behaves_like_ring (hP : P.LawfulCiphers) {ops : List Op}
    (hops : ∀ op ∈ ops, op.Unauthentic P) :
    let d := (runs P ops).1
    let ring := (runs P ops).2
    (∀ (way : Import) (key : KeyRef) (k : Keypair), IsShort key.name →
      ((way.run P key k d).1 = .ok () ↔ IsKeyName key.name ∧ ring.find? key.name = none) ∧
      ((way.run P key k d).1 = .error (.exists key.name) ↔
        IsKeyName key.name ∧ ring.find? key.name ≠ none) ∧
      ((way.run P key k d).1 = .error (.invalidName key.name) ↔ ¬ IsKeyName key.name)) ∧
    ((list d).Pairwise (fun a b => a < b) ∧
      ∀ name, name ∈ list d ↔ ring.find? name ≠ none) ∧
    (∀ (name : String) (k : StoredKey), ring.find? name = some k →
      load P ⟨name, k.passphrase⟩ d = .ok k.keypair ∧
      (signer P d).publicKey ⟨name, k.passphrase⟩ =
        (ring.signer P).publicKey ⟨name, k.passphrase⟩ ∧
      (∀ message, (signer P d).sign ⟨name, k.passphrase⟩ message =
        (ring.signer P).sign ⟨name, k.passphrase⟩ message) ∧
      ∀ chainId, (signer P d).address P chainId ⟨name, k.passphrase⟩ =
        (ring.signer P).address P chainId ⟨name, k.passphrase⟩) ∧
    ∀ key : KeyRef, IsKeyName key.name → IsShort key.name → ring.find? key.name = none →
      load P key d = .error (.notFound key.name) ∧
      (signer P d).publicKey key = .error (.notFound key.name) ∧
      (∀ message, (signer P d).sign key message = .error (.notFound key.name)) ∧
      ∀ chainId, (signer P d).address P chainId key = .error (.notFound key.name) := by
  intro d ring
  have h : Refines P d ring := runs_refines hP hops
  refine ⟨fun way key k hshort => ?_, ⟨pairwise_list d, fun name => h.mem_list_iff⟩,
    fun name k hk => ?_, fun key hname hshort hk => ?_⟩
  · have htaken : d.find? (fileName key.name) ≠ none ↔ ring.find? key.name ≠ none :=
      not_congr h.find?_eq_none_iff
    rw [← htaken, ← h.find?_eq_none_iff]
    exact (way.run_stored P key k d).result_iff hshort
  · have hunlock : ring.unlock ⟨name, k.passphrase⟩ = .ok k.keypair := by
      unfold KeyRing.unlock
      rw [hk]
      exact if_pos rfl
    exact ⟨h.load_eq hk, signer_eq_of_load_eq (h.load_eq hk) hunlock⟩
  · have hload := h.load_eq_notFound hname hshort hk
    have hpublic : (signer P d).publicKey key = .error (.notFound key.name) := by
      show (load P key d).map _ = _
      rw [hload]
      rfl
    refine ⟨hload, hpublic, fun message => ?_, fun chainId => ?_⟩
    · show (load P key d).map _ = _
      rw [hload]
      rfl
    · show ((signer P d).publicKey key).map _ = _
      rw [hpublic]
      rfl

/-- the standard functions, but blocks are left as they are -/
def plainBlocks : Primitives :=
  { Primitives.standard with encryptBlock := fun _ b => b, decryptBlock := fun _ b => b }

theorem lawfulCiphers_plainBlocks : plainBlocks.LawfulCiphers where
  decryptBlock_encryptBlock _ _ := rfl
  unlock_lock := Primitives.lawfulCiphers_standard.unlock_lock

/-- a frame starts with its magic, not with the tag of sealed blobs -/
theorem isSealed_frame : KeyBlob.isSealed (Block.mapAll (fun b => b) (KeyBlob.padded
    (KeyBlob.magic ++ Bytes.fixed 4 32 ++ (Octets.ofNat 32 7).bytes))) = false := by decide

/-- a key that is stored, and another one under a name that no key may have -/
def mainRun : List Op :=
  [.store (.create (Octets.ofNat 12 1)) ⟨"main", "pw"⟩ ⟨Octets.ofNat 32 1⟩,
    .store (.sealed (Octets.ofNat 12 2)) ⟨"../main", "pw"⟩ ⟨Octets.ofNat 32 2⟩, .reopen]

/-- a key in the plain format -/
def oldRun : List Op := [.store .plain ⟨"old", "pw"⟩ ⟨Octets.ofNat 32 7⟩, .load ⟨"old", "pw"⟩]

theorem unauthentic_mainRun : ∀ op ∈ mainRun, op.Unauthentic Primitives.standard := by
  intro op hop
  simp only [mainRun, List.mem_cons, List.not_mem_nil, or_false] at hop
  rcases hop with rfl | rfl | rfl <;> trivial

theorem unauthentic_oldRun : ∀ op ∈ oldRun, op.Unauthentic plainBlocks := by
  intro op hop
  simp only [oldRun, List.mem_cons, List.not_mem_nil, or_false] at hop
  rcases hop with rfl | rfl
  · intro blob hblob hsealed
    obtain ⟨b, hb, rfl⟩ := KeyBlob.encryptPlain_eq_ok_iff.1 hblob
    rw [(KeyBlob.framed_eq_ok_iff.1 hb).2] at hsealed
    exact absurd hsealed (Bool.eq_false_iff.1 isSealed_frame)
  · trivial

theorem ring_mainRun (P : Primitives) :
    (runs P mainRun).2 = KeyRing.empty.insert ⟨"main", "pw", ⟨Octets.ofNat 32 1⟩⟩ := by
  simp only [runs, mainRun, List.foldl_cons, List.foldl_nil, Op.run]
  rw [recorded_of_not_isKeyName (by decide),
    (Refines.empty P).recorded_eq (by decide) (by decide) rfl]

theorem ring_oldRun (P : Primitives) :
    (runs P oldRun).2 = KeyRing.empty.insert ⟨"old", "pw", ⟨Octets.ofNat 32 7⟩⟩ := by
  simp only [runs, oldRun, List.foldl_cons, List.foldl_nil, Op.run]
  rw [(Refines.empty P).recorded_eq (by decide) (by decide) rfl]

/-- sealed keys under the standard functions, and a plain one where it can be seen to be plain -/
theorem behaves_like_ring_two_runs :
    let P := Primitives.standard
    let d := (runs P mainRun).1
    let k : Keypair := ⟨Octets.ofNat 32 1⟩
    let d' := (runs plainBlocks oldRun).1
    (∀ name, name ∈ list d ↔ (runs P mainRun).2.find? name ≠ none) ∧
    ((runs P mainRun).2.find? "main" = some ⟨"main", "pw", k⟩ ∧
      load P ⟨"main", "pw"⟩ d = .ok k ∧
      ∀ message, (signer P d).sign ⟨"main", "pw"⟩ message = .ok (k.sign P message)) ∧
    (load P ⟨"spare", "pw"⟩ d = .error (.notFound "spare") ∧
      ∀ message, (signer P d).sign ⟨"spare", "pw"⟩ message = .error (.notFound "spare")) ∧
    (∀ name, name ∈ list d' ↔ (runs plainBlocks oldRun).2.find? name ≠ none) ∧
    load plainBlocks ⟨"old", "pw"⟩ d' = .ok ⟨Octets.ofNat 32 7⟩ := by
  intro P d k d'
  obtain ⟨-, ⟨-, hlist⟩, hstored, habsent⟩ :=
    behaves_like_ring Primitives.lawfulCiphers_standard unauthentic_mainRun
  obtain ⟨-, ⟨-, hlistOld⟩, hstoredOld, -⟩ :=
    behaves_like_ring lawfulCiphers_plainBlocks unauthentic_oldRun
  have hmain : (runs P mainRun).2.find? "main" = some ⟨"main", "pw", k⟩ := by
    rw [ring_mainRun]
    decide
  have hspare : (runs P mainRun).2.find? "spare" = none := by
    rw [ring_mainRun]
    decide
  have hold : (runs plainBlocks oldRun).2.find? "old" =
      some ⟨"old", "pw", ⟨Octets.ofNat 32 7⟩⟩ := by
    rw [ring_oldRun]
    decide
  obtain ⟨hload, -, hsign, -⟩ := hstored "main" _ hmain
  obtain ⟨hnone, -, hsignNone, -⟩ := habsent ⟨"spare", "pw"⟩ (by decide) (by decide) hspare
  refine ⟨hlist, ⟨hmain, hload, fun message => ?_⟩, ⟨hnone, hsignNone⟩, hlistOld, ?_⟩
  · rw [hsign message, ring_mainRun]
    rfl
  · exact (hstoredOld "old" _ hold).1

end Vault

end LedgerClient
