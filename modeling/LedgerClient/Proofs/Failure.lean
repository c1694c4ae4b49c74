import LedgerClient.Failover.Ledger
import LedgerClient.Failure
import LedgerClient.Keystore.Vault
import LedgerClient.Proofs.Keystore.Opening
import LedgerClient.Proofs.Transaction.Draft
/-!
# Kinds of failures

A transaction that cannot be built is not sent, whoever asks for it: the error of building it is
returned as the client's, and no node hears of it. The kind of that error is decided once for
envelopes and once more for clients, and the two differ for one cause only: a blob that does not
open is a fault of the cipher to the former and of the keys to the latter. Keys in memory never
fail for that cause. Keys on disk do, when a file is damaged in a way that no wrong passphrase
explains.

* `TransactionForm.build_eq_error_iff`   building fails for a field or for the key;
* `Vault.damaged_iff`                    the files whose keys fail for their blobs;
* `Failure.client_kind_eq_iff`           the errors that both take for the same kind;
* `FailoverClient.commit_fails_as_built`   what a commit returns when nothing can be built.
-/

namespace LedgerClient

variable {P : Primitives} {chain : Chain} {signer : Signer} {key : KeyRef} {e : EnvelopeError}

/-! ## building -/

theorem TransactionForm.build_eq_error_iff {f : TransactionForm} :
    f.build P chain signer key = .error e ↔
      (∃ cause, f.validate P chain = .error cause ∧ e = .input cause) ∨
        ∃ t cause, f.validate P chain = .ok t ∧
          signer.sign key (Record.encode t) = .error cause ∧ e = .signing cause := by
  unfold build
  cases f.validate P chain with
  | error cause => simp [eq_comm]
  | ok t => simp [Envelope.sealRecord_eq_error_iff]

/-! ## keys -/

/-- a key in memory is missing or locked, and nothing else -/
theorem KeyRing.sign_ne_blob {r : KeyRing} {m : Bytes} {cause : BlobError} :
    (r.signer P).sign key m ≠ .error (.blob cause) := by
  intro h
  have hunlock : r.unlock key = .error (.blob cause) := map_eq_error_iff.1 h
  unfold unlock at hunlock
  split at hunlock
  · cases hunlock
  · split at hunlock <;> cases hunlock

namespace Vault

variable {d : Directory}

/-- the key has a file whose content does not open, for another reason than the two that a wrong
passphrase gives -/
def Damaged (P : Primitives) (d : Directory) (key : KeyRef) : Prop :=
  isName key.name = true ∧ ∃ blob cause, d.read (fileName key.name) = .ok blob ∧
    KeyBlob.decrypt P blob key.passphrase none = .error cause ∧
      cause ≠ .magic ∧ cause ≠ .notAuthentic

theorem blobError_eq_blob_iff {name : String} {b cause : BlobError} :
    blobError name b = .blob cause ↔ b = cause ∧ b ≠ .magic ∧ b ≠ .notAuthentic := by
  cases b <;> simp [blobError]

theorem damaged_iff : Damaged P d key ↔ ∃ cause, load P key d = .error (.blob cause) := by
  unfold Damaged load fileOf?
  by_cases hname : isName key.name = true
  · rw [if_pos hname, ok_bind, and_iff_right hname]
    cases d.read (fileName key.name) with
    | error fault => cases fault <;> simp
    | ok blob =>
      dsimp only
      cases hblob : KeyBlob.decrypt P blob key.passphrase none with
      | error b =>
        dsimp only
        simp only [Except.error.injEq, blobError_eq_blob_iff]
        constructor
        · rintro ⟨_, cause, hread, hcause, hother⟩
          obtain rfl := Except.ok.inj hread
          obtain rfl := Except.error.inj (hblob.symm.trans hcause)
          exact ⟨b, rfl, hother⟩
        · rintro ⟨_, rfl, hother⟩
          exact ⟨blob, b, rfl, hblob, hother⟩
      | ok seed =>
        constructor
        · rintro ⟨_, cause, hread, hcause, -⟩
          obtain rfl := Except.ok.inj hread
          cases hblob.symm.trans hcause
        · rintro ⟨cause, h⟩
          dsimp only at h
          split at h <;> cases h
  · rw [if_neg hname]
    refine iff_of_false (fun h => hname h.1) ?_
    rintro ⟨cause, h⟩
    cases h

end Vault

/-! ## kinds -/

/-- the two decisions agree on fields and on keys, except for blobs -/
theorem Failure.client_kind_eq_iff :
    (Failure.client (.envelope e)).kind = (Failure.envelope e).kind ↔
      (∃ cause, e = .input cause) ∨ ∃ cause, e = .signing cause ∧ ∀ b, cause ≠ .blob b := by
  cases e with
  | input cause => exact iff_of_true rfl (.inl ⟨cause, rfl⟩)
  | signing cause =>
    cases cause <;> simp [Failure.kind, ClientError.kind, EnvelopeError.kind, KeyringError.kind]
  | _ => simp [Failure.kind, ClientError.kind, EnvelopeError.kind]

namespace TransactionForm

variable {f : TransactionForm}

/-- of what building can fail with, the two decisions differ on blobs only -/
theorem kind_eq_iff_of_build (h : f.build P chain signer key = .error e) :
    (Failure.client (.envelope e)).kind = (Failure.envelope e).kind ↔
      ∀ b, e ≠ .signing (.blob b) := by
  rw [Failure.client_kind_eq_iff]
  obtain ⟨cause, -, rfl⟩ | ⟨t, cause, -, -, rfl⟩ := build_eq_error_iff.1 h
  · exact iff_of_true (.inl ⟨cause, rfl⟩) nofun
  · simp

theorem ring_ne_blob {r : KeyRing} (h : f.build P chain (r.signer P) key = .error e)
    (b : BlobError) : e ≠ .signing (.blob b) := by
  rintro rfl
  obtain ⟨_, -, hcause⟩ | ⟨t, cause, -, hsign, hcause⟩ := build_eq_error_iff.1 h
  · cases hcause
  · obtain rfl := EnvelopeError.signing.inj hcause
    exact KeyRing.sign_ne_blob hsign

theorem vault_blob_iff {d : Directory} (h : f.build P chain (Vault.signer P d) key = .error e) :
    (∃ b, e = .signing (.blob b)) ↔ (∃ t, f.validate P chain = .ok t) ∧ Vault.Damaged P d key := by
  rw [Vault.damaged_iff]
  constructor
  · rintro ⟨b, rfl⟩
    obtain ⟨_, -, hcause⟩ | ⟨t, cause, ht, hsign, hcause⟩ := build_eq_error_iff.1 h
    · cases hcause
    · obtain rfl := EnvelopeError.signing.inj hcause
      exact ⟨⟨t, ht⟩, b, map_eq_error_iff.1 hsign⟩
  · rintro ⟨⟨t, ht⟩, b, hload⟩
    have hbuild : f.build P chain (Vault.signer P d) key = .error (.signing (.blob b)) :=
      build_eq_error_iff.2 (.inr ⟨t, _, ht, map_eq_error_iff.2 hload, rfl⟩)
    exact ⟨b, Except.error.inj (h.symm.trans hbuild)⟩

end TransactionForm

namespace FailoverClient

theorem commitForm_of_build_error {form : TransactionForm}
    (h : form.build P chain signer key = .error e) (client : FailoverClient) (net : Network) :
    client.commitForm P chain form signer key net = (.error (.envelope e), net) := by
  unfold commitForm
  rw [h]

/-- what cannot be built is not sent, and is the client's failure as it is. Its kind is the same for
both, unless the form is valid and the key's file is damaged -/
theorem commit_fails_as_built {form : TransactionForm}
    (h : form.build P chain signer key = .error e) :
    (∀ (client : FailoverClient) (net : Network),
      client.commitForm P chain form signer key net = (.error (.envelope e), net)) ∧
    ((Failure.client (.envelope e)).kind = (Failure.envelope e).kind ↔
      ∀ b, e ≠ .signing (.blob b)) ∧
    (∀ ring : KeyRing, signer = ring.signer P →
      (Failure.client (.envelope e)).kind = (Failure.envelope e).kind) ∧
    ∀ d : Directory, signer = Vault.signer P d →
      ((Failure.client (.envelope e)).kind = (Failure.envelope e).kind ↔
        ¬ ((∃ t, form.validate P chain = .ok t) ∧ Vault.Damaged P d key)) := by
  have hkind := TransactionForm.kind_eq_iff_of_build h
  refine ⟨commitForm_of_build_error h, hkind, ?_, ?_⟩
  · rintro ring rfl
    exact hkind.2 (TransactionForm.ring_ne_blob h)
  · rintro d rfl
    rw [hkind, ← TransactionForm.vault_blob_iff h, not_exists]

open TransactionDraft (transfer)

/-- a directory where one byte was written to the file of a key -/
def strayByte : Directory := Directory.empty.put "alice.wal" (.file [0])

theorem transfer_form_valid : ∃ t, transfer.toForm.validate .standard ⟨"bcb"⟩ = .ok t := by
  obtain ⟨t, ht, -⟩ := TransactionDraft.transfer_built
  rw [TransactionDraft.validate_toForm_of_valid TransactionDraft.transfer_destination_valid]
  exact ⟨t, ht⟩

/-- a key without a file is missing to both -/
theorem commit_fails_missing_key :
    let signer := Vault.signer .standard strayByte
    let e : EnvelopeError := .signing (.notFound "bob")
    transfer.toForm.build .standard ⟨"bcb"⟩ signer ⟨"bob", "pw"⟩ = .error e ∧
      (∀ (client : FailoverClient) (net : Network),
        client.commitForm .standard ⟨"bcb"⟩ transfer.toForm signer ⟨"bob", "pw"⟩ net =
          (.error (.envelope e), net)) ∧
      (Failure.client (.envelope e)).kind = (Failure.envelope e).kind := by
  intro signer e
  obtain ⟨t, ht⟩ := transfer_form_valid
  have hbuild : transfer.toForm.build .standard ⟨"bcb"⟩ signer ⟨"bob", "pw"⟩ = .error e :=
    TransactionForm.build_eq_error_iff.2 (.inr ⟨t, _, ht, rfl, rfl⟩)
  obtain ⟨hsent, -, -, hvault⟩ := commit_fails_as_built hbuild
  refine ⟨hbuild, hsent, (hvault strayByte rfl).2 ?_⟩
  rintro ⟨-, -, blob, cause, hread, -⟩
  cases hread

/-- a byte that is no blob is the cipher's fault to one and the keys' to the other -/
theorem stray_byte_kinds :
    let signer := Vault.signer .standard strayByte
    let e : EnvelopeError := .signing (.blob (.notAligned 1))
    transfer.toForm.build .standard ⟨"bcb"⟩ signer ⟨"alice", "pw"⟩ = .error e ∧
      (∀ (client : FailoverClient) (net : Network),
        client.commitForm .standard ⟨"bcb"⟩ transfer.toForm signer ⟨"alice", "pw"⟩ net =
          (.error (.envelope e), net)) ∧
      (Failure.envelope e).kind = .cipher ∧
        (Failure.client (.envelope e)).kind = .keyManagement := by
  intro signer e
  obtain ⟨t, ht⟩ := transfer_form_valid
  have hbuild : transfer.toForm.build .standard ⟨"bcb"⟩ signer ⟨"alice", "pw"⟩ = .error e :=
    TransactionForm.build_eq_error_iff.2 (.inr ⟨t, _, ht, rfl, rfl⟩)
  exact ⟨hbuild, commitForm_of_build_error hbuild, rfl, rfl⟩

end FailoverClient

end LedgerClient
