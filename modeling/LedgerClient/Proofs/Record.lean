import LedgerClient.Proofs.Check
import LedgerClient.Proofs.Rlp.Item
import LedgerClient.Record.Payload
/-!
# Records, both ways

A record is read back from its bytes. The other way round it is not alone: the reader of a list
stops at bytes that begin no item, so such bytes may stand behind the last field, inside the list.

* `LawfulRecord`               the fields are read back from their items, and from no others;
* `Record.encodeWith x tail`   the bytes of a record with `tail` behind its last field;
* `Record.decode_encode`       a record is read back;
* `Record.decode_eq_ok_iff`    exactly which bytes are read as a record.
-/

namespace LedgerClient

open Rlp

/-- a record whose fields are read back from their items, and from no other items -/
class LawfulRecord (α : Type) [Record α] : Prop where
  length_write : ∀ x : α, (Record.write x).length = Record.arity α
  single_write : ∀ x : α, (Record.write x).flatten.length < 2 ^ 64 →
    ∀ i ∈ Record.write x, Single i
  read_write : ∀ x : α, (Record.write x).flatten.length < 2 ^ 64 →
    Record.read (Record.write x) = .ok x
  write_of_read : ∀ {is : List Bytes} {x : α}, (∀ i ∈ is, Single i) →
    Record.read is = .ok x → Record.write x = is

namespace Record

variable {α : Type} [Record α]

/-- the fields of `x` one after the other -/
def fieldBytes (x : α) : Bytes := (write x).flatten

/-- the bytes of `x` with `tail` behind its last field -/
def encodeWith (x : α) (tail : Bytes) : Bytes :=
  header (offset true) (fieldBytes x ++ tail).length ++ (fieldBytes x ++ tail)

theorem encodeWith_nil (x : α) : encodeWith x [] = encode x := by
  rw [encodeWith, List.append_nil]
  rfl

theorem length_fieldBytes_le (x : α) : (fieldBytes x).length ≤ (encode x).length := by
  rw [← encodeWith_nil, encodeWith, List.append_nil, List.length_append]
  omega

theorem length_of_data_mem {x : α} (h : (encode x).length < 2 ^ 64) {b : Bytes}
    (hb : data b ∈ write x) : b.length < 2 ^ 64 :=
  Rlp.length_of_data_mem (Nat.lt_of_le_of_lt (length_fieldBytes_le x) h) hb

/-- the tail is told by the bytes -/
theorem encodeWith_inj {x : α} {s t : Bytes} (hs : (fieldBytes x ++ s).length < 2 ^ 64)
    (ht : (fieldBytes x ++ t).length < 2 ^ 64) (h : encodeWith x s = encodeWith x t) : s = t :=
  listWith_inj hs ht h

variable [LawfulRecord α]

theorem decode_eq_ok_iff {b : Bytes} {x : α} :
    decode b = .ok x ↔ ∃ tail, split? tail = none ∧ (fieldBytes x ++ tail).length < 2 ^ 64 ∧
      b = encodeWith x tail := by
  unfold decode
  rw [bind_eq_ok_iff]
  constructor
  · rintro ⟨h, hex, hread⟩
    obtain ⟨payload, hi⟩ := exact_eq_ok_iff.1 hex
    rw [hi.drop_size] at hread
    split at hread
    · rename_i hl
      dsimp only at hread
      split at hread
      · obtain ⟨his, tail, ht, hpay⟩ := items_eq_iff.1 (rfl : items payload = items payload)
        have hw := LawfulRecord.write_of_read his hread
        rw [← hw] at hpay
        cases hi with
        | bare => cases hl
        | headed isList hn =>
          obtain rfl : isList = true := hl
          subst hpay
          exact ⟨tail, ht, hn, rfl⟩
      · cases hread
    · cases hread
  · rintro ⟨tail, ht, hlen, rfl⟩
    have hfields : (write x).flatten.length < 2 ^ 64 := by
      rw [List.length_append] at hlen
      exact Nat.lt_of_le_of_lt (Nat.le_add_right _ _) hlen
    have hi := IsItem.headed true hlen
    have hitems : items (fieldBytes x ++ tail) = write x :=
      items_eq_iff.2 ⟨LawfulRecord.single_write x hfields, tail, ht, rfl⟩
    refine ⟨_, exact_eq_ok_iff.2 ⟨_, hi⟩, ?_⟩
    show (if (items ((encodeWith x tail).drop _)).length = arity α then
      read (items ((encodeWith x tail).drop _)) else _) = _
    rw [encodeWith, hi.drop_size, hitems, if_pos (LawfulRecord.length_write x)]
    exact LawfulRecord.read_write x hfields

theorem decode_encode {x : α} (h : (encode x).length < 2 ^ 64) : decode (encode x) = .ok x := by
  refine decode_eq_ok_iff.2 ⟨[], split?_nil, ?_, (encodeWith_nil x).symm⟩
  rw [List.append_nil]
  exact Nat.lt_of_le_of_lt (length_fieldBytes_le x) h

end Record

/-! ## the records of the ledger -/

theorem toNat_nat64 (n : UInt64) : Rlp.toNat 8 (nat n.toNat) = .ok n.toNat :=
  toNat_nat (by omega) n.toNat_lt

theorem nat64_of_toNat {n : Nat} {item : Bytes} (hs : Single item) (h : Rlp.toNat 8 item = .ok n) :
    nat (UInt64.ofNat n).toNat = item := by
  obtain ⟨e, hn⟩ := nat_of_toNat (by omega) hs h
  have h64 : (UInt64.ofNat n).toNat = n := UInt64.toNat_ofNat_of_lt' hn
  rw [h64, e]

theorem nat32_of_toNat {n : Nat} {item : Bytes} (hs : Single item) (h : Rlp.toNat 4 item = .ok n) :
    nat (UInt32.ofNat n).toNat = item := by
  obtain ⟨e, hn⟩ := nat_of_toNat (by omega) hs h
  have h32 : (UInt32.ofNat n).toNat = n := UInt32.toNat_ofNat_of_lt' hn
  rw [h32, e]

instance : LawfulRecord Transaction where
  length_write _ := rfl
  single_write t h := single_of_data h (by
    intro i hi
    simp only [Record.write, List.mem_cons, List.not_mem_nil, or_false] at hi
    rcases hi with rfl | rfl | rfl | rfl | rfl <;> exact ⟨_, rfl⟩)
  read_write t h := by
    have hnote := Rlp.length_of_data_mem h (b := Text.utf8 t.note) (by simp [Record.write, text])
    have hdest := Rlp.length_of_data_mem h (b := Text.utf8 t.destination.text)
      (by simp [Record.write, text])
    have hdata := Rlp.length_of_data_mem h (b := t.data) (by simp [Record.write])
    simp only [Record.read, Record.write, toText_text hdest, toNat_nat64, toText_text hnote,
      toData_data hdata, ok_bind, UInt64.ofNat_toNat]
    rfl
  write_of_read {is t} his h := by
    simp only [Record.read] at h
    split at h
    · rename_i nonce gasLimit note destination data
      obtain ⟨d, hd, h⟩ := bind_eq_ok_iff.1 h
      obtain ⟨n, hn, h⟩ := bind_eq_ok_iff.1 h
      obtain ⟨g, hg, h⟩ := bind_eq_ok_iff.1 h
      obtain ⟨s, hs, h⟩ := bind_eq_ok_iff.1 h
      obtain ⟨b, hb, h⟩ := bind_eq_ok_iff.1 h
      obtain rfl := pure_eq_ok_iff.1 h
      have en := nat64_of_toNat (his _ (by simp)) hn
      have eg := nat64_of_toNat (his _ (by simp)) hg
      have ed := text_of_toText (his _ (by simp)) hd
      have es := text_of_toText (his _ (by simp)) hs
      have eb := data_of_toData (his _ (by simp)) hb
      simp only [Record.write, en, eg, ed, es, eb]
    · cases h

instance : LawfulRecord Query where
  length_write _ := rfl
  single_write q h := single_of_data h (by
    intro i hi
    simp only [Record.write, List.mem_cons, List.not_mem_nil, or_false] at hi
    exact ⟨_, hi⟩)
  read_write q h := by
    have hkey := Rlp.length_of_data_mem h (b := Text.utf8 q.key) (by simp [Record.write, text])
    simp only [Record.read, Record.write, toText_text hkey, ok_bind]
    rfl
  write_of_read {is q} his h := by
    simp only [Record.read] at h
    split at h
    · obtain ⟨s, hs, h⟩ := bind_eq_ok_iff.1 h
      obtain rfl := pure_eq_ok_iff.1 h
      simp only [Record.write, text_of_toText (his _ (by simp)) hs]
    · cases h

instance : LawfulRecord MethodCall where
  length_write _ := rfl
  single_write c h := single_of_data h (by
    intro i hi
    simp only [Record.write, List.mem_cons, List.not_mem_nil, or_false] at hi
    rcases hi with rfl | rfl <;> exact ⟨_, rfl⟩)
  read_write c h := by
    have hparams := Rlp.length_of_data_mem h (b := c.params) (by simp [Record.write])
    have hid : Rlp.toNat 4 (nat c.selector.id.toNat) = .ok c.selector.id.toNat :=
      toNat_nat (by omega) c.selector.id.toNat_lt
    simp only [Record.read, Record.write, hid, toData_data hparams, ok_bind, UInt32.ofNat_toNat]
    rfl
  write_of_read {is c} his h := by
    simp only [Record.read] at h
    split at h
    · obtain ⟨n, hn, h⟩ := bind_eq_ok_iff.1 h
      obtain ⟨b, hb, h⟩ := bind_eq_ok_iff.1 h
      obtain rfl := pure_eq_ok_iff.1 h
      have en := nat32_of_toNat (his _ (by simp)) hn
      have eb := data_of_toData (his _ (by simp)) hb
      simp only [Record.write, en, eb]
    · cases h

instance : LawfulRecord SignatureRecord where
  length_write _ := rfl
  single_write s h := single_of_data h (by
    intro i hi
    simp only [Record.write, List.mem_cons, List.not_mem_nil, or_false] at hi
    rcases hi with rfl | rfl <;> exact ⟨_, rfl⟩)
  read_write s _ := by
    have hkey : s.publicKey.bytes.length < 2 ^ 64 := by rw [s.publicKey.size]; omega
    have hsig : s.signature.bytes.length < 2 ^ 64 := by rw [s.signature.size]; omega
    simp only [Record.read, Record.write, toData_data hkey, toData_data hsig, ok_bind,
      Octets.ofBytes?_bytes]
    rfl
  write_of_read {is s} his h := by
    simp only [Record.read] at h
    split at h
    · obtain ⟨key, hkey, h⟩ := bind_eq_ok_iff.1 h
      obtain ⟨sig, hsig, h⟩ := bind_eq_ok_iff.1 h
      have ekey := data_of_toData (his _ (by simp)) hkey
      have esig := data_of_toData (his _ (by simp)) hsig
      split at h
      · rename_i k g hk hg
        obtain rfl := pure_eq_ok_iff.1 h
        simp only [Record.write, ← Octets.ofBytes?_eq_some_iff.1 hk,
          ← Octets.ofBytes?_eq_some_iff.1 hg, ekey, esig]
      · cases h
      · cases h
    · cases h

/-- a call is hardly longer than its parameters -/
theorem MethodCall.length_encode_le {c : MethodCall} (h : c.params.length < 2 ^ 63) :
    (Record.encode c).length ≤ c.params.length + 31 := by
  have hid : (Bytes.ofNat c.selector.id.toNat).length ≤ 4 :=
    (Bytes.length_ofNat_le_iff 4 _).2 c.selector.id.toNat_lt
  have h1 : (nat c.selector.id.toNat).length ≤ (Bytes.ofNat c.selector.id.toNat).length + 9 :=
    length_data_le (by omega)
  have h2 : (data c.params).length ≤ c.params.length + 9 := length_data_le (by omega)
  have hl : ([nat c.selector.id.toNat, data c.params].flatten).length =
      (nat c.selector.id.toNat).length + (data c.params).length := by
    simp only [List.flatten_cons, List.flatten_nil, List.length_append, List.length_nil,
      Nat.add_zero]
  have h3 : (header 0xc0 ([nat c.selector.id.toNat, data c.params].flatten).length).length ≤ 9 :=
    length_header_le (by omega)
  show (header 0xc0 ([nat c.selector.id.toNat, data c.params].flatten).length ++
    [nat c.selector.id.toNat, data c.params].flatten).length ≤ _
  rw [List.length_append]
  omega

namespace SignatureRecord

/-- a key and a signature, with one and two bytes of header -/
theorem length_fieldBytes (s : SignatureRecord) : (Record.fieldBytes s).length = 99 := by
  have hk : data s.publicKey.bytes = header 0x80 32 ++ s.publicKey.bytes := by
    rw [data_of_one_lt_length (by rw [s.publicKey.size]; omega), s.publicKey.size]
  have hs : data s.signature.bytes = header 0x80 64 ++ s.signature.bytes := by
    rw [data_of_one_lt_length (by rw [s.signature.size]; omega), s.signature.size]
  have h32 : (header 0x80 32).length = 1 := by decide
  have h64 : (header 0x80 64).length = 2 := by decide
  show ([data s.publicKey.bytes, data s.signature.bytes].flatten).length = 99
  rw [hk, hs]
  simp only [List.flatten_cons, List.flatten_nil, List.length_append, List.length_nil, h32, h64,
    s.publicKey.size, s.signature.size]

theorem decode_encode (s : SignatureRecord) : Record.decode (Record.encode s) = .ok s := by
  refine Record.decode_eq_ok_iff.2 ⟨[], split?_nil, ?_, (Record.encodeWith_nil s).symm⟩
  rw [List.append_nil, length_fieldBytes]
  omega

end SignatureRecord

end LedgerClient
