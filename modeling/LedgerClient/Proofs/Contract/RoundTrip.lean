import LedgerClient.Proofs.Contract.Argument
import LedgerClient.Proofs.Transaction.Form
/-!
# Calls, built and decoded

A call that is built for a method is decoded to the method and its arguments, and a form that
sends it is valid for every nonce, gas limit and contract.

* `PreparedCall.sentAs_of_itemsFrom`   the items of a call are sent as its arguments' bytes;
* `DecodedCall.values_canonical_iff`   and read back as the arguments, if they can be packed;
* `DecodedCall.decode_eq_ok_iff`   which bytes are a call, and of which method and arguments;
* `Selector.parse?_hex`, `TransactionForm.word?_hexNumeral`   the texts of a form are read back;
* `PreparedCall.build_decode`          the whole way.
-/

namespace LedgerClient

open ParamValue

variable {P : Primitives} {c : Chain}

/-! ## arguments one after the other -/

/-- the items of arguments are sent as bytes that stand for them, and the kinds agree -/
theorem PreparedCall.sentAs_of_itemsFrom {method : String} {index : Nat} {kinds : List ParamKind}
    {vs : List ParamValue} {items : List String} (hl : vs.length = kinds.length)
    (h : itemsFrom P c method index kinds vs = .ok items) :
    kinds = vs.map kind ∧ ∃ bs, List.Forall₂ (SentAs P c) vs bs ∧
      ∀ n, Param.itemsBytesFrom n items = .ok bs := by
  induction vs generalizing index kinds items with
  | nil =>
    obtain rfl := List.length_eq_zero_iff.1 hl.symm
    obtain rfl := Except.ok.inj h
    exact ⟨rfl, [], .nil, fun _ => rfl⟩
  | cons v vs ih =>
    cases kinds with
    | nil => cases hl
    | cons k kinds =>
      rw [itemsFrom] at h
      split at h
      · rename_i hk
        obtain ⟨item, hitem, h⟩ := bind_eq_ok_iff.1 h
        obtain ⟨rest, hrest, h⟩ := bind_eq_ok_iff.1 h
        obtain rfl := pure_eq_ok_iff.1 h
        obtain ⟨hks, bs, hbs, hparam⟩ := ih (Nat.succ.inj hl) hrest
        obtain ⟨b, hb, hpb⟩ := sentAs_of_toItem hitem
        refine ⟨by rw [List.map_cons, hk, hks], b :: bs, .cons hb hbs, fun n => ?_⟩
        rw [Param.itemsBytesFrom, hpb, ok_bind, hparam]
        rfl
      · cases h

namespace DecodedCall

variable {t : ContractTable} {l : ParamList} {i : Nat}

theorem values_eq_ok_iff {ks : List ParamKind} {vs : List ParamValue} :
    valuesFrom P c l 0 ks = .ok vs ↔ vs.length = ks.length ∧
      ∀ i k v, ks[i]? = some k → vs[i]? = some v → value P c l i k = .ok v := by
  have h : valuesFrom P c l 0 ks = .ok vs ↔ vs.length = ks.length ∧
      ∀ i k v, ks[i]? = some k → vs[i]? = some v → value P c l (0 + i) k = .ok v :=
    numbered_eq_ok_iff (F := valuesFrom P c l) (fun _ => rfl) fun _ _ _ => rfl
  simpa only [Nat.zero_add] using h

/-- every kind has its argument -/
theorem exists_value_of_kind {ks : List ParamKind} {vs : List ParamValue} {k : ParamKind}
    (h : valuesFrom P c l 0 ks = .ok vs) (hk : ks[i]? = some k) :
    ∃ v, vs[i]? = some v ∧ value P c l i k = .ok v := by
  obtain ⟨hlen, hvalues⟩ := values_eq_ok_iff.1 h
  have hlt : i < vs.length := hlen ▸ (List.getElem?_eq_some_iff.1 hk).1
  have hv : vs[i]? = some vs[i] := List.getElem?_eq_getElem hlt
  exact ⟨vs[i], hv, hvalues i k vs[i] hk hv⟩

/-- every argument was read from the field at its position, as an argument of its kind -/
theorem exists_value_of_mem {ks : List ParamKind} {vs : List ParamValue} {v : ParamValue}
    (h : valuesFrom P c l 0 ks = .ok vs) (hv : v ∈ vs) :
    ∃ i, ks[i]? = some v.kind ∧ value P c l i v.kind = .ok v := by
  obtain ⟨hlen, hvalues⟩ := values_eq_ok_iff.1 h
  obtain ⟨i, hi⟩ := List.mem_iff_getElem?.1 hv
  have hlt : i < ks.length := hlen ▸ (List.getElem?_eq_some_iff.1 hi).1
  have hk : ks[i]? = some ks[i] := List.getElem?_eq_getElem hlt
  have hread : value P c l i ks[i] = .ok v := hvalues i _ v hk hi
  have hkind : v.kind = ks[i] := kind_of_value hread
  exact ⟨i, hkind ▸ hk, hkind ▸ hread⟩

theorem sentAs_getElem? {vs : List ParamValue} {bs : List Bytes} {v : ParamValue}
    (h : List.Forall₂ (SentAs P c) vs bs) (hv : vs[i]? = some v) :
    ∃ b, bs[i]? = some b ∧ SentAs P c v b := by
  obtain ⟨hi, rfl⟩ := List.getElem?_eq_some_iff.1 hv
  have hi' : i < bs.length := h.length_eq ▸ hi
  exact ⟨bs[i], List.getElem?_eq_getElem hi', h.get hi hi'⟩

/-- arguments are read back from the fields that stand for them, if they can be packed -/
theorem values_canonical_iff {vs : List ParamValue} {bs : List Bytes}
    (h : List.Forall₂ (SentAs P c) vs bs) :
    valuesFrom P c ⟨bs⟩ 0 (vs.map kind) = .ok (vs.map canonical) ↔ ∀ v ∈ vs, v.Packable P c := by
  have hvalue : ∀ {i v}, vs[i]? = some v →
      (value P c ⟨bs⟩ i v.kind = .ok v.canonical ↔ v.Packable P c) := by
    intro i v hv
    obtain ⟨b, hb, hs⟩ := sentAs_getElem? h hv
    exact value_eq_canonical_iff hs hb
  rw [values_eq_ok_iff]
  constructor
  · rintro ⟨-, hvalues⟩ v hv
    obtain ⟨i, hi⟩ := List.mem_iff_getElem?.1 hv
    refine (hvalue hi).1 (hvalues i v.kind v.canonical ?_ ?_)
    · rw [List.getElem?_map, hi, Option.map_some]
    · rw [List.getElem?_map, hi, Option.map_some]
  · intro hpack
    refine ⟨by rw [List.length_map, List.length_map], fun i k w hk hw => ?_⟩
    rw [List.getElem?_map] at hk hw
    obtain ⟨v, hv, rfl⟩ := Option.map_eq_some_iff.1 hk
    obtain rfl : v.canonical = w := by rwa [hv, Option.map_some, Option.some.injEq] at hw
    exact (hvalue hv).2 (hpack v (List.mem_of_getElem? hv))

/-- what is decoded is a call to a method of the table, with a field for each of its parameters -/
theorem decode_eq_ok_iff {data : Bytes} {d : DecodedCall} :
    decode P c t data = .ok d ↔ ∃ (call : MethodCall) (l : ParamList),
      Record.decode data = .ok call ∧ t.withId? P call.selector = some d.method ∧
        ParamList.decode call.params = .ok l ∧ d.method.params.length ≤ l.items.length ∧
          valuesFrom P c l 0 d.method.params = .ok d.args := by
  unfold decode
  constructor
  · intro h
    split at h
    · cases h
    · rename_i call hcall
      split at h
      · cases h
      · rename_i m hm
        obtain ⟨l, hl, h⟩ := bind_eq_ok_iff.1 h
        obtain ⟨⟨⟩, hr, h⟩ := bind_eq_ok_iff.1 h
        obtain ⟨args, hargs, h⟩ := bind_eq_ok_iff.1 h
        obtain rfl := pure_eq_ok_iff.1 h
        exact ⟨call, l, hcall, hm, ofParams_eq_ok_iff.1 hl,
          ParamList.require_eq_ok_iff.1 (ofParams_eq_ok_iff.1 hr), hargs⟩
  · rintro ⟨call, l, hcall, hm, hl, hr, hargs⟩
    rw [hcall]
    dsimp only
    rw [hm]
    refine bind_eq_ok_iff.2 ⟨l, ofParams_eq_ok_iff.2 hl, bind_eq_ok_iff.2 ⟨(), ?_, ?_⟩⟩
    · exact ofParams_eq_ok_iff.2 (ParamList.require_eq_ok_iff.2 hr)
    · exact bind_eq_ok_iff.2 ⟨d.args, hargs, rfl⟩

/-- a call that is written for a method of the table is decoded to that method -/
theorem decode_encode_eq_ok_iff {m : MethodSpec} {bs : List Bytes} {d : DecodedCall}
    (hm : t.withId? P (m.selector P) = some m) (hcount : m.params.length ≤ bs.length)
    (hl : (Record.encode (⟨m.selector P, Param.listOf bs⟩ : MethodCall)).length < 2 ^ 64) :
    decode P c t (Record.encode (⟨m.selector P, Param.listOf bs⟩ : MethodCall)) = .ok d ↔
      d.method = m ∧ valuesFrom P c ⟨bs⟩ 0 m.params = .ok d.args := by
  have hp : (Param.listOf bs).length < 2 ^ 64 :=
    Record.length_of_data_mem hl (by simp [Record.write])
  rw [decode_eq_ok_iff]
  constructor
  · rintro ⟨call, l, hcall, hmethod, hlist, -, hargs⟩
    obtain rfl := Except.ok.inj ((Record.decode_encode hl).symm.trans hcall)
    obtain rfl := Except.ok.inj ((ParamList.decode_listOf hp).symm.trans hlist)
    obtain rfl := Option.some.inj (hm.symm.trans hmethod)
    exact ⟨rfl, hargs⟩
  · rintro ⟨rfl, hargs⟩
    exact ⟨_, _, Record.decode_encode hl, hm, ParamList.decode_listOf hp, hcount, hargs⟩

end DecodedCall

/-! ## the texts of a form -/

theorem Selector.parse?_hex (s : Selector) : parse? ("0x" ++ s.hex) = some s := by
  have hn : s.id.toNat % 256 ^ 4 = s.id.toNat := Nat.mod_eq_of_lt s.id.toNat_lt
  have ht : Text.dropLead ['0', 'x'] ("0x" ++ s.hex).toList = s.hex.toList := by
    rw [String.toList_append]
    exact Text.dropLead_append ['0', 'x'] s.hex.toList
  unfold parse?
  rw [ht, String.ofList_toList, hex, Text.Hex.decode_encode]
  dsimp only
  rw [bytes, if_pos (Bytes.length_fixed 4 _), ofBytes, Bytes.toNat_fixed, hn, UInt32.ofNat_toNat]

theorem TransactionForm.word?_hexNumeral (n : UInt64) :
    word? (Text.hexNumeral n.toNat) = some n := by
  have hn : Text.numeral? 16 (Nat.toDigits 16 n.toNat) = some n.toNat :=
    Text.numeral?_toDigits (by omega) (by omega) n.toNat
  have hb : Text.bounded? (Nat.pow 2 64) n.toNat = some n.toNat := if_pos n.toNat_lt
  rw [word?, Text.hexNumeral, String.toList_ofList, Text.dropLead_toDigits, hn, Option.bind_some,
    hb, Option.map_some, UInt64.ofNat_toNat]

namespace PreparedCall

variable {t : ContractTable} {m : MethodSpec} {args : List ParamValue} {p : PreparedCall}

/-- what was built: the method's selector, and items that are sent as the arguments' bytes -/
theorem build_eq_ok (h : build P c m args = .ok p) :
    p.selectorHex = m.selectorHex P ∧ m.params = args.map kind ∧
      ∃ bs, List.Forall₂ (SentAs P c) args bs ∧ Param.itemsBytes p.items = .ok bs := by
  unfold build at h
  split at h
  · rename_i hl
    obtain ⟨items, hitems, rfl⟩ := map_eq_ok_iff.1 h
    obtain ⟨hk, bs, hbs, hparam⟩ := sentAs_of_itemsFrom hl hitems
    exact ⟨rfl, hk, bs, hbs, hparam 0⟩
  · cases h

theorem build_of_itemsFrom {items : List String} (hl : args.length = m.params.length)
    (h : itemsFrom P c m.name 0 m.params args = .ok items) :
    build P c m args = .ok ⟨m.selectorHex P, items⟩ := by
  rw [build, if_pos hl, h]
  rfl

theorem methodCall_eq {bs : List Bytes} (h : Param.itemsBytes p.items = .ok bs) :
    p.methodCall P m = .ok ⟨m.selector P, Param.listOf bs⟩ := by
  unfold methodCall
  rw [Param.encode_eq_ok_iff.2 ⟨bs, h, rfl⟩]

theorem length_params_le {bs : List Bytes} (hk : m.params = args.map kind)
    (hs : List.Forall₂ (SentAs P c) args bs) : m.params.length ≤ bs.length := by
  rw [hk, List.length_map, hs.length_eq]

/-- a call to a method of the table is decoded to the method and the arguments -/
theorem decode_of_sentAs {bs : List Bytes} (hm : t.withId? P (m.selector P) = some m)
    (hk : m.params = args.map kind) (hs : List.Forall₂ (SentAs P c) args bs)
    (hd : ∀ as, .addressList as ∈ args → ∀ a ∈ as, Address.Derived P c.id a)
    (hl : (Record.encode (⟨m.selector P, Param.listOf bs⟩ : MethodCall)).length < 2 ^ 64) :
    DecodedCall.decode P c t (Record.encode (⟨m.selector P, Param.listOf bs⟩ : MethodCall)) =
      .ok ⟨m, args.map canonical⟩ := by
  have hcount := length_params_le hk hs
  have hpack : ∀ v ∈ args, v.Packable P c := by
    intro v hv
    cases v with
    | addressList as => exact fun a ha => (hd as hv a ha).packable
    | _ => trivial
  rw [DecodedCall.decode_encode_eq_ok_iff hm hcount hl, hk]
  exact ⟨rfl, (DecodedCall.values_canonical_iff hs).2 hpack⟩

/-- a form that sends a call is valid for every nonce, gas limit, short note and contract -/
theorem validate_toForm {bs : List Bytes} (hsel : p.selectorHex = m.selectorHex P)
    (hbytes : Param.itemsBytes p.items = .ok bs) (nonce gasLimit : UInt64) {note : String}
    {contract : Address} (hnote : note.toList.length ≤ 256)
    (hcontract : Address.validate P c.id contract.text = .ok ()) :
    (p.toForm nonce gasLimit note contract).validate P c =
      .ok ⟨nonce, gasLimit, note, contract,
        Record.encode (⟨m.selector P, Param.listOf bs⟩ : MethodCall)⟩ := by
  refine TransactionForm.validate_eq_ok_iff.2 ⟨m.selector P, bs, ?_⟩
  exact
    { nonce := TransactionForm.word?_hexNumeral nonce
      gasLimit := TransactionForm.word?_hexNumeral gasLimit
      selector := by
        show Selector.parse? p.selectorHex = _
        rw [hsel]
        exact Selector.parse?_hex (m.selector P)
      noteLength := hnote
      note := rfl
      destination := Address.parse_of_validate hcontract
      items := hbytes
      data := rfl }

/-- a call that is built for a method is decoded to it, and every form that sends it is valid -/
theorem build_decode (hm : t.withId? P (m.selector P) = some m)
    (hargs : ∀ as, .addressList as ∈ args → ∀ a ∈ as, Address.Derived P c.id a)
    (hb : build P c m args = .ok p) :
    ∃ call, p.methodCall P m = .ok call ∧
      ((Record.encode call).length < 2 ^ 64 →
        DecodedCall.decode P c t (Record.encode call) = .ok ⟨m, args.map canonical⟩) ∧
      (∀ v ∈ args, ReadBackAs v v.canonical) ∧
      ∀ nonce gasLimit note contract, note.toList.length ≤ 256 →
        Address.validate P c.id contract.text = .ok () →
        ∃ tx, (p.toForm nonce gasLimit note contract).validate P c = .ok tx ∧
          tx.nonce = nonce ∧ tx.gasLimit = gasLimit ∧ tx.data = Record.encode call := by
  obtain ⟨hsel, hkinds, bs, hsent, hbytes⟩ := build_eq_ok hb
  refine ⟨⟨m.selector P, Param.listOf bs⟩, methodCall_eq hbytes,
    decode_of_sentAs hm hkinds hsent hargs, fun v hv => ?_, ?_⟩
  · obtain ⟨i, hi⟩ := List.mem_iff_getElem?.1 hv
    obtain ⟨_, -, hb⟩ := DecodedCall.sentAs_getElem? hsent hi
    exact readBackAs_canonical hb
  · intro nonce gasLimit note contract hnote hcontract
    exact ⟨_, validate_toForm hsel hbytes nonce gasLimit hnote hcontract, rfl, rfl, rfl⟩

/-! ## a method with a parameter of every kind -/

def payAll : MethodSpec where
  name := "PayAll"
  prototype := "PayAll(string,smc.Address,[]smc.Address,big.Int,uint64,uint32,bool,[]byte)smc.Error"
  params := [.str, .address, .addressList, .bigUint, .uint64, .uint32, .bool, .bytes]

def payee : Address := ⟨"bcbNARwhVpDeeWs33HNPYAiVZCMCqSs9Av8g"⟩

def payAllArgs : List ParamValue :=
  [.str "0x,", .address payee, .addressList [payee], .bigUint "007", .uint64 7, .uint32 0,
    .bool true, .bytes [0]]

theorem derived_payee : Address.Derived .standard "bcb" payee := by
  refine .inl
    ⟨.ofNat 32 0x197f6b23e16c8532c6abc838facd5ea789be0c76b2920334039bfa8b3d368d61, ?_⟩
  decide +kernel

theorem payAll_built : ∃ p call, build .standard ⟨"bcb"⟩ payAll payAllArgs = .ok p ∧
    p.methodCall .standard payAll = .ok call ∧ call.params.length < 200 := by
  -- the selector is left out of the evaluation, since a digest takes long
  have h : ((itemsFrom .standard ⟨"bcb"⟩ "PayAll" 0 payAll.params payAllArgs).toOption.bind
      fun items => (Param.itemsBytes items).toOption).any
        (fun bs => (Param.listOf bs).length < 200) = true := by
    decide +kernel
  obtain ⟨bs, hbs, hlen⟩ := (Option.any_eq_true _ _).1 h
  obtain ⟨items, hitems, hbs⟩ := Option.bind_eq_some_iff.1 hbs
  have hp : build .standard ⟨"bcb"⟩ payAll payAllArgs = .ok ⟨payAll.selectorHex .standard, items⟩ :=
    build_of_itemsFrom rfl (toOption_eq_some_iff.1 hitems)
  exact ⟨_, _, hp, methodCall_eq (toOption_eq_some_iff.1 hbs), of_decide_eq_true hlen⟩

theorem build_decode_payAll : ∃ p call, IsAmount "007" 7 ∧
    build .standard ⟨"bcb"⟩ payAll payAllArgs = .ok p ∧ p.methodCall .standard payAll = .ok call ∧
      DecodedCall.decode .standard ⟨"bcb"⟩ ⟨"pay", [payAll]⟩ (Record.encode call) =
        .ok ⟨payAll, [.str "0x,", .address payee, .addressList [payee], .bigUint "7", .uint64 7,
          .uint32 0, .bool true, .bytes [0]]⟩ := by
  obtain ⟨p, call, hb, hcall, hlen⟩ := payAll_built
  have hm : ContractTable.withId? .standard ⟨"pay", [payAll]⟩ (payAll.selector .standard) =
      some payAll :=
    List.find?_cons_of_pos (decide_eq_true rfl)
  have hargs : ∀ as, .addressList as ∈ payAllArgs →
      ∀ a ∈ as, Address.Derived .standard "bcb" a := by
    intro as has a ha
    obtain rfl : as = [payee] := by simpa [payAllArgs] using has
    obtain rfl := List.mem_singleton.1 ha
    exact derived_payee
  obtain ⟨call', hcall', hdecode, -⟩ := build_decode (c := ⟨"bcb"⟩) hm hargs hb
  obtain rfl : call = call' := Except.ok.inj (hcall.symm.trans hcall')
  have hl := MethodCall.length_encode_le (c := call) (by omega)
  have hamount : IsAmount "007" 7 := ⟨by decide, Text.value_eq_some_iff.1 rfl, by decide⟩
  exact ⟨p, call, hamount, hb, hcall, hdecode (by omega)⟩

end PreparedCall

end LedgerClient
