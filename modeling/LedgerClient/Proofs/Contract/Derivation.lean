import LedgerClient.Proofs.Address
import LedgerClient.Proofs.Separation
/-!
# Which contracts share an address

The address of a contract is hashed from chain id, name, version and owner, one behind the other.
Name and version have no fixed length, so the hash is told where the name starts and where the
version ends, and not where the one passes into the other: `token` in version `12.0` is `token1`
in version `2.0`. No other two contracts of one owner share what is hashed.

* `Address.contractSource_eq_iff`     equal bytes come from the same contract, or a piece has moved
  between name and version;
* `Address.contractSource_ne_of_version_ne`   two versions under one name are told apart;
* `Address.ofBody_inj`                the address of a body shows the body's digest;
* `Address.ofContract_told_apart`     when two contracts of one owner share an address;
* `Address.two_contracts_one_address` two that do.
-/

namespace LedgerClient.Address

open Text

variable {P : Primitives} {chainId owner name version name' version' : String}

/-! ## what is hashed -/

theorem contractSource_eq (chainId owner name version : String) :
    contractSource chainId owner name version =
      utf8 chainId ++ (utf8 name ++ utf8 version) ++ utf8 owner := by
  rw [contractSource, List.append_assoc (utf8 chainId)]

/-- chain id and owner stand around it, so name and version together are told -/
theorem contractSource_eq_iff :
    contractSource chainId owner name version = contractSource chainId owner name' version' ↔
      (name = name' ∧ version = version') ∨ Moved name version name' version' := by
  rw [contractSource_eq, contractSource_eq, List.append_left_inj, List.append_right_inj,
    utf8_append_eq_iff]

theorem contractSource_ne_of_version_ne (h : version ≠ version') :
    contractSource chainId owner name version ≠ contractSource chainId owner name version' := by
  intro heq
  rcases contractSource_eq_iff.1 heq with ⟨-, hversion⟩ | hmoved
  · exact h hversion
  · exact hmoved.ne_left rfl

/-! ## addresses -/

/-- bodies of one length are told apart by their addresses: the checksum is cut off again -/
theorem ofBody_inj {body body' : Bytes} (hlength : body.length = body'.length)
    (h : ofBody P chainId body = ofBody P chainId body') : body = body' := by
  have hpacked : body ++ checksum P body = body' ++ checksum P body' := ofPacked_inj h
  exact (List.append_inj hpacked hlength).1

theorem ofContract_eq_iff {o o' : Address} :
    ofContract P chainId o name version = ofContract P chainId o' name' version' ↔
      P.shortDigest (P.digest (contractSource chainId o.text name version)) =
        P.shortDigest (P.digest (contractSource chainId o'.text name' version')) := by
  constructor
  · intro h
    refine ofBody_inj ?_ h
    rw [P.shortDigest_length, P.shortDigest_length]
  · intro h
    show ofBody P chainId _ = ofBody P chainId _
    rw [h]

/-- two contracts of one owner are hashed from different bytes unless a piece of text has moved
between name and version, and unless one of the two hashes collides they have different addresses
then -/
theorem ofContract_told_apart (P : Primitives) (chainId : String) (owner : Address)
    (name version name' version' : String) :
    let source := contractSource chainId owner.text name version
    let source' := contractSource chainId owner.text name' version'
    (source = source' ↔
      (name = name' ∧ version = version') ∨ Moved name version name' version') ∧
    (ofContract P chainId owner name version = ofContract P chainId owner name' version' ↔
      ((name = name' ∧ version = version') ∨ Moved name version name' version') ∨
        Collides P.digest source source' ∨
          Collides P.shortDigest (P.digest source) (P.digest source')) := by
  intro source source'
  have hsource : source = source' ↔
      (name = name' ∧ version = version') ∨ Moved name version name' version' :=
    contractSource_eq_iff
  refine ⟨hsource, ?_⟩
  rw [ofContract_eq_iff, hash_hash_eq_iff, hsource]

/-- the `1` is the name's or the version's -/
theorem two_contracts_one_address :
    let owner : Address := ⟨"bcb8F2StpfR4JNRkgrzY1jDdMSwLM7L42tom"⟩
    ("token", "12.0") ≠ ("token1", "2.0") ∧
      contractSource "bcb" owner.text "token" "12.0" =
        contractSource "bcb" owner.text "token1" "2.0" ∧
      ofContract .standard "bcb" owner "token" "12.0" =
        ofContract .standard "bcb" owner "token1" "2.0" := by
  intro owner
  have hmoved : Moved "token" "12.0" "token1" "2.0" := ⟨"1", by decide, .inl ⟨rfl, rfl⟩⟩
  have hsource : contractSource "bcb" owner.text "token" "12.0" =
      contractSource "bcb" owner.text "token1" "2.0" := contractSource_eq_iff.2 (.inr hmoved)
  refine ⟨by decide, hsource, ?_⟩
  rw [ofContract_eq_iff, hsource]

end LedgerClient.Address
