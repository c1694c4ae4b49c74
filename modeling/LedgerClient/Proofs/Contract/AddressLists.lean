import LedgerClient.Proofs.Contract.RoundTrip
import LedgerClient.Proofs.Contract.Table
/-!
# Address lists

A list of addresses is packed: the bytes behind the chain ids stand one after the other, with
nothing between them, and the reader cuts them apart every 24 bytes. Neither side looks at what the
other relies on. The reader does not look at the checksums, so what it cuts out need not be an
address; the writer does not look at the widths, so what it packs need not be cut where it was
joined. What holds is said here for every call:

* `DecodedCall.PackedIn`                the bytes that are read as one address of a list;
* `DecodedCall.addresses_checked_iff`   all addresses of a call are in order exactly when all of
  these bytes end with their checksum; a single address always is;
* `PreparedCall.lists_returned_iff`     a list is read back as it was sent exactly when each of its
  addresses has 24 bytes.
-/

namespace LedgerClient

open ParamValue

variable {P : Primitives} {c : Chain} {t : ContractTable}

/-! ## calls with a list -/

namespace PreparedCall

/-- one unit for everyone -/
def toAll (as : List Address) : List ParamValue := [.addressList as, .bigUint "1"]

/-- the data of a call to `batchTransfer` with 24 bytes of packed addresses -/
def batchTo (b : Bytes) : Bytes :=
  [0xe1, 0x84, 0xb8, 0xf4, 0xb0, 0xd8, 0x9b, 0xda, 0x98] ++ b ++ [1]

def payeeBytes : Bytes := Bytes.ofNat 0xe82334e011a8369e2edeff9df9b6dfdf9cb80f125e4eba99

end PreparedCall

open PreparedCall

/-! ## what is read -/

namespace DecodedCall

/-- `b` stands for one address of a list in the data of a call -/
def PackedIn (data : Bytes) (m : MethodSpec) (b : Bytes) : Prop :=
  ∃ (call : MethodCall) (l : ParamList) (i : Nat) (field : Bytes),
    Record.decode data = .ok call ∧ ParamList.decode call.params = .ok l ∧
      m.params[i]? = some .addressList ∧ l.items[i]? = some field ∧
        b ∈ Bytes.pieces Address.packedLength field

/-- every single address of a decoded call is in order; those of its lists are exactly when all the
bytes that were read as one of them end with their checksum -/
theorem addresses_checked_iff {data : Bytes} {d : DecodedCall} (h : decode P c t data = .ok d) :
    (∀ a, .address a ∈ d.args → Address.validate P c.id a.text = .ok ()) ∧
      ((∀ as, .addressList as ∈ d.args → ∀ a ∈ as, Address.validate P c.id a.text = .ok ()) ↔
        ∀ b, PackedIn data d.method b → Address.Checked P b) := by
  obtain ⟨call, l, hcall, -, hl, -, hargs⟩ := decode_eq_ok_iff.1 h
  refine ⟨fun a ha => ?_, ?_, ?_⟩
  · obtain ⟨i, -, hv⟩ := exists_value_of_mem hargs ha
    obtain ⟨s, -, hs, e⟩ := value_address_eq_ok_iff.1 hv
    obtain rfl := ParamValue.address.inj e
    exact hs
  · rintro hall b ⟨call', l', i, field, hcall', hl', hi, hf, hb⟩
    obtain rfl := Except.ok.inj (hcall.symm.trans hcall')
    obtain rfl := Except.ok.inj (hl.symm.trans hl')
    obtain ⟨v, hv, hread⟩ := exists_value_of_kind hargs hi
    obtain ⟨field', hf', -, rfl⟩ := value_addressList_eq_ok_iff.1 hread
    obtain rfl : field = field' := Option.some.inj (hf.symm.trans hf')
    exact Address.validate_ofPacked_iff.1
      (hall _ (List.mem_of_getElem? hv) _ (List.mem_map_of_mem hb))
  · intro hall as has a ha
    obtain ⟨i, hi, hv⟩ := exists_value_of_mem hargs has
    obtain ⟨field, hf, -, e⟩ := value_addressList_eq_ok_iff.1 hv
    obtain rfl := ParamValue.addressList.inj e
    obtain ⟨b, hb, rfl⟩ := List.mem_map.1 ha
    exact Address.validate_ofPacked_iff.2 (hall b ⟨call, l, i, field, hcall, hl, hi, hf, hb⟩)

/-- the data of a call to `batchTransfer` is decoded with what is packed in it -/
theorem decode_batchTo {b : Bytes} {as : List Address}
    (hcall : Record.decode (batchTo b) = .ok (⟨⟨0xb8f4b0d8⟩, Param.listOf [b, [1]]⟩ : MethodCall))
    (hlist : ParamList.decode (Param.listOf [b, [1]]) = .ok ⟨[b, [1]]⟩)
    (hargs : valuesFrom .standard ⟨"bcb"⟩ ⟨[b, [1]]⟩ 0 batchTransfer.params = .ok (toAll as)) :
    decode .standard ⟨"bcb"⟩ .token (batchTo b) = .ok ⟨batchTransfer, toAll as⟩ :=
  decode_eq_ok_iff.2 ⟨_, _, hcall, token_batchTransfer, hlist, Nat.le_refl 2, hargs⟩

theorem addresses_checked_payee :
    decode .standard ⟨"bcb"⟩ .token (batchTo payeeBytes) = .ok ⟨batchTransfer, toAll [payee]⟩ ∧
      ∀ b, PackedIn (batchTo payeeBytes) batchTransfer b → Address.Checked .standard b := by
  have h : decode .standard ⟨"bcb"⟩ .token (batchTo payeeBytes) =
      .ok ⟨batchTransfer, toAll [payee]⟩ :=
    decode_batchTo (by decide +kernel) (by decide +kernel) (by decide +kernel)
  refine ⟨h, (addresses_checked_iff h).2.1 fun as has a ha => ?_⟩
  obtain rfl : as = [payee] := by simpa [toAll] using has
  obtain rfl := List.mem_singleton.1 ha
  decide +kernel

/-- 24 bytes of zero do not end with their checksum, and are read as an address nevertheless -/
theorem unchecked_address_decoded :
    decode .standard ⟨"bcb"⟩ .token (batchTo (List.replicate 24 0)) =
        .ok ⟨batchTransfer, toAll [⟨"bcb111111111111111111111111"⟩]⟩ ∧
      Address.validate .standard "bcb" "bcb111111111111111111111111" = .error .checksum :=
  ⟨decode_batchTo (by decide +kernel) (by decide +kernel) (by decide +kernel), by decide +kernel⟩

end DecodedCall

/-! ## what comes back -/

namespace PreparedCall

variable {m : MethodSpec} {args : List ParamValue} {p : PreparedCall}

/-- the arguments of a call that was built come back, except for lists that are cut elsewhere than
they were joined: a list comes back exactly when each of its addresses has 24 bytes -/
theorem lists_returned_iff (hm : t.withId? P (m.selector P) = some m)
    (hb : build P c m args = .ok p) :
    ∃ call, p.methodCall P m = .ok call ∧ ((Record.encode call).length < 2 ^ 64 →
      (DecodedCall.decode P c t (Record.encode call) = .ok ⟨m, args.map canonical⟩ ↔
        ∀ v ∈ args, v.Packable P c) ∧
      ∀ d, DecodedCall.decode P c t (Record.encode call) = .ok d → d.method = m ∧
        ∀ (i : Nat) (as : List Address), args[i]? = some (.addressList as) →
          (d.args[i]? = some (.addressList as) ↔ ∀ a ∈ as, Address.Packable P c.id a)) := by
  obtain ⟨-, hkinds, bs, hsent, hbytes⟩ := build_eq_ok hb
  have hcount := length_params_le hkinds hsent
  refine ⟨⟨m.selector P, Param.listOf bs⟩, methodCall_eq hbytes, fun hl => ⟨?_, fun d hd => ?_⟩⟩
  · rw [DecodedCall.decode_encode_eq_ok_iff hm hcount hl, and_iff_right rfl, hkinds]
    exact DecodedCall.values_canonical_iff hsent
  · obtain ⟨hmethod, hargs⟩ := (DecodedCall.decode_encode_eq_ok_iff hm hcount hl).1 hd
    refine ⟨hmethod, fun i as has => ?_⟩
    obtain ⟨b, hb, hs⟩ := DecodedCall.sentAs_getElem? hsent has
    have hk : m.params[i]? = some .addressList := by
      rw [hkinds, List.getElem?_map, has]
      rfl
    obtain ⟨v, hv, hread⟩ := DecodedCall.exists_value_of_kind hargs hk
    have hback : DecodedCall.value P c ⟨bs⟩ i .addressList = .ok (.addressList as) ↔
        ∀ a ∈ as, Address.Packable P c.id a := DecodedCall.value_eq_canonical_iff hs hb
    rw [← hback, hread, hv, Option.some.injEq, Except.ok.injEq]

theorem lists_returned_payees : ∃ p call,
    build .standard ⟨"bcb"⟩ batchTransfer (toAll [payee, payee]) = .ok p ∧
      p.methodCall .standard batchTransfer = .ok call ∧
        DecodedCall.decode .standard ⟨"bcb"⟩ .token (Record.encode call) =
          .ok ⟨batchTransfer, toAll [payee, payee]⟩ := by
  let items := [hexItem payeeBytes ++ "," ++ hexItem payeeBytes, "0x01"]
  have hitems : Param.itemsBytes items = .ok [payeeBytes ++ payeeBytes, [1]] := by
    decide +kernel
  have hb : build .standard ⟨"bcb"⟩ batchTransfer (toAll [payee, payee]) =
      .ok ⟨batchTransfer.selectorHex .standard, items⟩ :=
    build_of_itemsFrom rfl (by decide +kernel)
  have hm : ContractTable.token.withId? .standard (batchTransfer.selector .standard) =
      some batchTransfer := by
    rw [selector_batchTransfer, token_batchTransfer]
  have hpack : ∀ v ∈ toAll [payee, payee], v.Packable .standard ⟨"bcb"⟩ := by
    simp [toAll, ParamValue.Packable, derived_payee.packable]
  obtain ⟨call, hcall, h⟩ := lists_returned_iff hm hb
  refine ⟨_, call, hb, hcall, (h ?_).1.2 hpack⟩
  obtain rfl := Except.ok.inj ((methodCall_eq hitems).symm.trans hcall)
  rw [selector_batchTransfer]
  decide +kernel

/-- an address with 48 bytes -/
def wide : Address := ⟨"bcb111111111111111111111111111111111111111111113AHZ8H"⟩

/-- one address was sent and two are read, neither of which was sent -/
theorem one_address_returned_as_two : ∃ p call,
    build .standard ⟨"bcb"⟩ batchTransfer (toAll [wide]) = .ok p ∧
      p.methodCall .standard batchTransfer = .ok call ∧
        DecodedCall.decode .standard ⟨"bcb"⟩ .token (Record.encode call) =
          .ok ⟨batchTransfer,
            toAll [⟨"bcb111111111111111111111111"⟩, ⟨"bcb111111111111111111113AHZ8H"⟩]⟩ := by
  let packed : Bytes := List.replicate 44 0 ++ [0x54, 0x81, 0xc9, 0x76]
  let items := [hexItem packed, "0x01"]
  have hitems : Param.itemsBytes items = .ok [packed, [1]] := by
    decide +kernel
  have hb : build .standard ⟨"bcb"⟩ batchTransfer (toAll [wide]) =
      .ok ⟨batchTransfer.selectorHex .standard, items⟩ :=
    build_of_itemsFrom rfl (by decide +kernel)
  refine ⟨_, _, hb, methodCall_eq hitems, ?_⟩
  rw [selector_batchTransfer]
  refine DecodedCall.decode_eq_ok_iff.2
    ⟨⟨⟨0xb8f4b0d8⟩, Param.listOf [packed, [1]]⟩, ⟨[packed, [1]]⟩, ?_, token_batchTransfer, ?_⟩
  · decide +kernel
  · decide +kernel

end PreparedCall

end LedgerClient
