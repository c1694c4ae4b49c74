import LedgerClient.Proofs.Contract.RoundTrip
import LedgerClient.Proofs.Contract.Table
/-!
# Amounts in method calls

An amount is a decimal number below `2 ^ 256`. It is given as text and sent as its bytes without
zeros in front, none for zero, so the zeros in front of the digits are not sent. Of the texts that
are no amount one is taken nevertheless: the empty one, which is sent like a zero.

* `PreparedCall.build_eq_ok_iff`      a call is built when every argument is, each at its place;
* `PreparedCall.build_eq_error_iff`   and refused for its first argument that is not;
* `PreparedCall.amount_sent`          what becomes of an amount among the arguments of a call.
-/

namespace LedgerClient

open ParamValue

variable {P : Primitives} {c : Chain}

namespace PreparedCall

variable {m : MethodSpec} {args : List ParamValue} {p : PreparedCall} {e : CallError}

/-! ## arguments at their places -/

/-- the argument at position `i` has the kind of its parameter and can be written -/
def Writable (P : Primitives) (c : Chain) (m : MethodSpec) (args : List ParamValue) (i : Nat) :
    Prop :=
  ∀ k v, m.params[i]? = some k → args[i]? = some v →
    v.kind = k ∧ ∃ item, v.toItem P c i = .ok item

/-- the item of an argument for a parameter of kind `x.1` -/
def placed (P : Primitives) (c : Chain) (method : String) (index : Nat)
    (x : ParamKind × ParamValue) : Except CallError String :=
  if x.2.kind = x.1 then x.2.toItem P c index else .error (.kindMismatch method index x.1 x.2.kind)

theorem placed_eq_ok_iff {method : String} {index : Nat} {k : ParamKind} {v : ParamValue}
    {item : String} :
    placed P c method index (k, v) = .ok item ↔ v.kind = k ∧ v.toItem P c index = .ok item := by
  unfold placed
  split
  · rename_i hk
    exact (and_iff_right hk).symm
  · rename_i hk
    exact ⟨nofun, fun h => absurd h.1 hk⟩

theorem placed_eq_error_iff {method : String} {index : Nat} {k : ParamKind} {v : ParamValue} :
    placed P c method index (k, v) = .error e ↔
      v.kind ≠ k ∧ e = .kindMismatch method index k v.kind ∨
        v.kind = k ∧ v.toItem P c index = .error e := by
  unfold placed
  split
  · rename_i hk
    exact ⟨fun h => .inr ⟨hk, h⟩, fun h => (h.resolve_left fun h => h.1 hk).2⟩
  · rename_i hk
    rw [Except.error.injEq, or_iff_left fun h => hk h.1, and_iff_right hk, eq_comm]

/-- items of arguments that are paired with the kinds of their parameters -/
def pairsFrom (P : Primitives) (c : Chain) (method : String) (index : Nat)
    (xs : List (ParamKind × ParamValue)) : Except CallError (List String) :=
  itemsFrom P c method index (xs.map Prod.fst) (xs.map Prod.snd)

theorem pairsFrom_cons (method : String) (index : Nat) (x : ParamKind × ParamValue)
    (xs : List (ParamKind × ParamValue)) :
    pairsFrom P c method index (x :: xs) = placed P c method index x >>= fun item =>
      pairsFrom P c method (index + 1) xs >>= fun items => pure (item :: items) := by
  unfold pairsFrom placed
  rw [List.map_cons, List.map_cons, itemsFrom]
  split <;> rfl

theorem itemsFrom_eq_pairsFrom {method : String} (hl : args.length = m.params.length) :
    itemsFrom P c method 0 m.params args = pairsFrom P c method 0 (m.params.zip args) := by
  unfold pairsFrom
  rw [List.map_fst_zip (Nat.le_of_eq hl.symm), List.map_snd_zip (Nat.le_of_eq hl)]

theorem itemsFrom_eq_ok_iff {items : List String} (hl : args.length = m.params.length) :
    itemsFrom P c m.name 0 m.params args = .ok items ↔ items.length = args.length ∧
      ∀ (i : Nat) (k : ParamKind) (v : ParamValue) (item : String), m.params[i]? = some k →
        args[i]? = some v → items[i]? = some item → v.kind = k ∧ v.toItem P c i = .ok item := by
  have hzip : (m.params.zip args).length = args.length := by
    rw [List.length_zip, ← hl, Nat.min_self]
  rw [itemsFrom_eq_pairsFrom hl,
    numbered_eq_ok_iff (F := pairsFrom P c m.name) (fun _ => rfl) (pairsFrom_cons m.name), hzip]
  refine and_congr_right fun _ => forall_congr' fun i => ?_
  rw [Nat.zero_add, Prod.forall]
  refine forall₂_congr fun k v => forall_congr' fun item => ?_
  rw [List.getElem?_zip_eq_some, and_imp, placed_eq_ok_iff]

theorem build_eq_ok_iff : build P c m args = .ok p ↔ args.length = m.params.length ∧
    p.selectorHex = m.selectorHex P ∧ p.items.length = args.length ∧
      ∀ (i : Nat) (k : ParamKind) (v : ParamValue) (item : String), m.params[i]? = some k →
        args[i]? = some v → p.items[i]? = some item → v.kind = k ∧ v.toItem P c i = .ok item := by
  unfold build
  by_cases hl : args.length = m.params.length
  · rw [if_pos hl, and_iff_right hl, map_eq_ok_iff, ← itemsFrom_eq_ok_iff hl]
    constructor
    · rintro ⟨items, hitems, rfl⟩
      exact ⟨rfl, hitems⟩
    · rintro ⟨hsel, hitems⟩
      exact ⟨p.items, hitems, by rw [← hsel]⟩
  · rw [if_neg hl]
    exact ⟨nofun, fun h => absurd h.1 hl⟩

theorem itemsFrom_eq_error_iff (hl : args.length = m.params.length) :
    itemsFrom P c m.name 0 m.params args = .error e ↔ ∃ i k v, m.params[i]? = some k ∧
      args[i]? = some v ∧ (∀ j < i, Writable P c m args j) ∧
        placed P c m.name i (k, v) = .error e := by
  rw [itemsFrom_eq_pairsFrom hl,
    numbered_eq_error_iff_place (F := pairsFrom P c m.name) (fun _ => rfl) (pairsFrom_cons m.name)]
  refine exists_congr fun i => ?_
  rw [Prod.exists]
  refine exists₂_congr fun k v => ?_
  rw [List.getElem?_zip_eq_some, and_assoc, Nat.zero_add]
  refine and_congr_right fun _ => and_congr_right fun _ => and_congr_left fun _ =>
    forall₂_congr fun j _ => ?_
  rw [Prod.forall]
  refine forall₂_congr fun k v => ?_
  simp only [List.getElem?_zip_eq_some, and_imp, Nat.zero_add, placed_eq_ok_iff, exists_and_left]

theorem build_eq_error_iff : build P c m args = .error e ↔
    args.length ≠ m.params.length ∧ e = .arity m.name m.params.length args.length ∨
      args.length = m.params.length ∧ ∃ i k v, m.params[i]? = some k ∧ args[i]? = some v ∧
        (∀ j < i, Writable P c m args j) ∧ placed P c m.name i (k, v) = .error e := by
  unfold build
  by_cases hl : args.length = m.params.length
  · rw [if_pos hl, or_iff_right fun h => h.1 hl, and_iff_right hl, map_eq_error_iff,
      itemsFrom_eq_error_iff hl]
  · rw [if_neg hl, or_iff_left fun h => hl h.1, and_iff_right hl, Except.error.injEq, eq_comm]

theorem placed_eq_ok_of_writable {i : Nat} {k : ParamKind} {v : ParamValue}
    (h : Writable P c m args i) (hk : m.params[i]? = some k) (hv : args[i]? = some v) :
    ∃ item, placed P c m.name i (k, v) = .ok item := by
  obtain ⟨hkind, item, hitem⟩ := h k v hk hv
  exact ⟨item, placed_eq_ok_iff.2 ⟨hkind, hitem⟩⟩

theorem exists_build_iff : (∃ p, build P c m args = .ok p) ↔
    args.length = m.params.length ∧ ∀ i, Writable P c m args i := by
  constructor
  · rintro ⟨p, hp⟩
    obtain ⟨hl, -, hitems, hall⟩ := build_eq_ok_iff.1 hp
    refine ⟨hl, fun i k v hk hv => ?_⟩
    have hlt : i < p.items.length := hitems ▸ (List.getElem?_eq_some_iff.1 hv).1
    obtain ⟨hkind, hitem⟩ := hall i k v _ hk hv (List.getElem?_eq_getElem hlt)
    exact ⟨hkind, _, hitem⟩
  · rintro ⟨hl, hall⟩
    cases hb : build P c m args with
    | ok p => exact ⟨p, rfl⟩
    | error e =>
      obtain ⟨hne, -⟩ | ⟨-, i, k, v, hk, hv, -, hfault⟩ := build_eq_error_iff.1 hb
      · exact absurd hl hne
      · obtain ⟨item, hitem⟩ := placed_eq_ok_of_writable (hall i) hk hv
        cases hitem.symm.trans hfault

end PreparedCall

/-! ## amounts -/

namespace ParamValue

variable {s : String} {n : Nat}

theorem exists_bigUint?_iff : (∃ n, bigUint? s = some n) ↔ s = "" ∨ ∃ n, IsAmount s n := by
  simp only [bigUint?_eq_some_iff, exists_or, exists_eq_right]

theorem toItem_bigUint_eq_ok_iff {index : Nat} {item : String} :
    (bigUint s).toItem P c index = .ok item ↔
      ∃ n, bigUint? s = some n ∧ item = hexItem (Bytes.ofNat n) := by
  rw [toItem]
  cases bigUint? s <;> simp [eq_comm]

theorem toItem_bigUint_of_none {index : Nat} (h : bigUint? s = none) :
    (bigUint s).toItem P c index = .error (.badBigUint index s) := by
  rw [toItem, h]

end ParamValue

namespace PreparedCall

variable {m : MethodSpec} {args : List ParamValue} {i : Nat} {s : String}

theorem writable_bigUint_iff (hk : m.params[i]? = some .bigUint)
    (hv : args[i]? = some (.bigUint s)) :
    Writable P c m args i ↔ s = "" ∨ ∃ n, IsAmount s n := by
  rw [← exists_bigUint?_iff]
  constructor
  · intro h
    obtain ⟨-, item, hitem⟩ := h _ _ hk hv
    obtain ⟨n, hn, -⟩ := toItem_bigUint_eq_ok_iff.1 hitem
    exact ⟨n, hn⟩
  · rintro ⟨n, hn⟩ k v hk' hv'
    obtain rfl := Option.some.inj (hk.symm.trans hk')
    obtain rfl := Option.some.inj (hv.symm.trans hv')
    exact ⟨rfl, _, toItem_bigUint_eq_ok_iff.2 ⟨n, hn, rfl⟩⟩

/-- an amount among the arguments of a call is taken or refused for its text alone, and what is sent
for it is read back as its number; the empty text is taken for zero -/
theorem amount_sent (hl : args.length = m.params.length) (hk : m.params[i]? = some .bigUint)
    (hv : args[i]? = some (.bigUint s)) :
    ((∀ j, j ≠ i → Writable P c m args j) →
      ((∃ p, build P c m args = .ok p) ↔ s = "" ∨ ∃ n, IsAmount s n)) ∧
    ((∀ j, j < i → Writable P c m args j) → s ≠ "" → (∀ n, ¬ IsAmount s n) →
      build P c m args = .error (.badBigUint i s)) ∧
    ∀ p, build P c m args = .ok p → ∃ n b, (s = "" ∧ n = 0 ∨ IsAmount s n) ∧
      p.items[i]? = some ("0x" ++ Text.Hex.encode b) ∧
        Bytes.toNat b = n ∧ b.head? ≠ some 0 ∧
          ∀ (l : ParamList) (j : Nat), l.items[j]? = some b → l.bigUint j = .ok (toString n) := by
  refine ⟨fun hothers => ?_, fun hbefore hne hnot => ?_, fun p hp => ?_⟩
  · rw [exists_build_iff, and_iff_right hl, ← writable_bigUint_iff hk hv]
    refine ⟨fun h => h i, fun h j => ?_⟩
    obtain rfl | hj := eq_or_ne j i
    · exact h
    · exact hothers j hj
  · have hnone : bigUint? s = none := Option.eq_none_iff_forall_ne_some.2 fun n hn =>
      (bigUint?_eq_some_iff.1 hn).elim (fun h => hne h.1) (hnot n)
    have hfault : placed P c m.name i (.bigUint, .bigUint s) = .error (.badBigUint i s) :=
      placed_eq_error_iff.2 (.inr ⟨rfl, toItem_bigUint_of_none hnone⟩)
    exact build_eq_error_iff.2 (.inr ⟨hl, i, _, _, hk, hv, hbefore, hfault⟩)
  · obtain ⟨-, -, hitems, hall⟩ := build_eq_ok_iff.1 hp
    have hlt : i < p.items.length := hitems ▸ (List.getElem?_eq_some_iff.1 hv).1
    have hitem : p.items[i]? = some p.items[i] := List.getElem?_eq_getElem hlt
    obtain ⟨n, hn, e⟩ := toItem_bigUint_eq_ok_iff.1 (hall i _ _ _ hk hv hitem).2
    refine ⟨n, Bytes.ofNat n, bigUint?_eq_some_iff.1 hn, hitem.trans (congrArg some e),
      Bytes.toNat_ofNat n, Bytes.head?_ofNat_ne_zero n, fun l j hj => ?_⟩
    exact ParamList.bigUint_eq hj (decimalText_of_amount (bigUint?_eq_some_iff.1 hn)).2

theorem isAmount_0256 : IsAmount "0256" 256 := by
  have hread : bigUint? "0256" = some 256 := rfl
  exact (bigUint?_eq_some_iff.1 hread).resolve_left fun h => absurd h.1 (by decide)

theorem amount_sent_burn :
    (∃ p b, build .standard ⟨"bcb"⟩ burn [.bigUint "0256"] = .ok p ∧
      p.items[0]? = some ("0x" ++ Text.Hex.encode b) ∧ Bytes.toNat b = 256 ∧
        b.head? ≠ some 0 ∧ (⟨[b]⟩ : ParamList).bigUint 0 = .ok "256") ∧
      build .standard ⟨"bcb"⟩ burn [.bigUint "12abc"] = .error (.badBigUint 0 "12abc") := by
  have halone : ∀ (s : String) (j : Nat), j ≠ 0 →
      Writable .standard ⟨"bcb"⟩ burn [.bigUint s] j := by
    intro s j hj k v hk
    obtain ⟨hlt, -⟩ := List.getElem?_eq_some_iff.1 hk
    exact absurd (Nat.lt_one_iff.1 hlt) hj
  constructor
  · obtain ⟨haccepted, -, hsent⟩ :=
      @amount_sent .standard ⟨"bcb"⟩ burn [.bigUint "0256"] 0 "0256" rfl rfl rfl
    obtain ⟨p, hp⟩ := (haccepted (halone _)).2 (.inr ⟨256, isAmount_0256⟩)
    obtain ⟨n, b, hn, hitem, hb, hhead, hread⟩ := hsent p hp
    have h256 : n = 256 := by
      have hamount := bigUint?_eq_some_iff.2 (.inr isAmount_0256)
      exact Option.some.inj ((bigUint?_eq_some_iff.2 hn).symm.trans hamount)
    subst h256
    exact ⟨p, b, hp, hitem, hb, hhead, hread ⟨[b]⟩ 0 rfl⟩
  · refine (@amount_sent .standard ⟨"bcb"⟩ burn [.bigUint "12abc"] 0 "12abc" rfl rfl rfl).2.1
      nofun (by decide) fun n h => ?_
    have hread : bigUint? "12abc" = none := rfl
    cases hread.symm.trans (bigUint?_eq_some_iff.2 (.inr h))

/-- the empty text is no amount, and the token contract's method is built with it -/
theorem empty_amount_sent :
    ContractTable.token.named? "Burn" = some burn ∧
      build .standard ⟨"bcb"⟩ burn [.bigUint ""] = .ok ⟨burn.selectorHex .standard, ["0x"]⟩ ∧
        ∀ n, ¬ IsAmount "" n :=
  ⟨token_burn, build_of_itemsFrom rfl rfl, fun _ h => h.nonempty rfl⟩

end PreparedCall

end LedgerClient
