import LedgerClient.Proofs.Contract.Argument
/-!
# Numbers in parameter lists

A word is read from the first eight bytes of what it is given, and narrowed by dropping what does
not fit. Neither shows: the width of a field is checked before, so the bytes that are read are all
of its bytes, and their number fits where it is put.

* `ParamList.ReadsWhole`      a reader gives the number of the whole field, or says why not;
* `ParamList.readsWhole_of_narrow`, `ReadsWhole.word`   so do readers of bytes, and casts to a word;
* `ParamList.Refuses`         what the readers of a field refuse it with;
* `ParamList.numbers_whole`   every reader of numbers does so, and no reader misses a field that was
  asked for beforehand.
-/

namespace LedgerClient.ParamList

variable {l : ParamList} {i max : Nat} {e : ParamError} {α : Type} {Denotes : α → Nat → Prop}

/-- `r` is what a reader of numbers of at most `max` bytes makes of field `i`: a value that denotes
the number of the whole field, or which of its bounds the list or the field is beyond -/
structure ReadsWhole (l : ParamList) (i max : Nat) {α : Type} (Denotes : α → Nat → Prop)
    (r : Except ParamError α) : Prop where
  value : ∀ a, r = .ok a ↔
    ∃ b, l.items[i]? = some b ∧ b.length ≤ max ∧ Denotes a (Bytes.toNat b)
  refusal : ∀ e, r = .error e ↔
    l.items.length ≤ i ∧ e = .tooFew (i + 1) l.items.length ∨
      ∃ b, l.items[i]? = some b ∧ max < b.length ∧ e = .tooLong i b.length max

/-! ## fields -/

theorem bytes_eq_error_iff :
    l.bytes i = .error e ↔ l.items.length ≤ i ∧ e = .tooFew (i + 1) l.items.length := by
  rw [← List.getElem?_eq_none_iff]
  unfold bytes
  split
  · rename_i b hb
    rw [hb]
    exact ⟨nofun, nofun⟩
  · rename_i hb
    rw [Except.error.injEq, and_iff_right hb, eq_comm]

theorem narrow_eq_ok_iff {b : Bytes} :
    l.narrow i max = .ok b ↔ l.items[i]? = some b ∧ b.length ≤ max := by
  constructor
  · intro h
    obtain ⟨b', hb, h⟩ := bind_eq_ok_iff.1 h
    split at h
    · cases h
    · rename_i hwidth
      obtain rfl := pure_eq_ok_iff.1 h
      exact ⟨bytes_eq_ok_iff.1 hb, Nat.not_lt.1 hwidth⟩
  · rintro ⟨hb, hwidth⟩
    exact narrow_eq hb hwidth

theorem narrow_eq_error_iff : l.narrow i max = .error e ↔
    l.items.length ≤ i ∧ e = .tooFew (i + 1) l.items.length ∨
      ∃ b, l.items[i]? = some b ∧ max < b.length ∧ e = .tooLong i b.length max := by
  rw [narrow, bind_eq_error_iff]
  refine or_congr bytes_eq_error_iff (exists_congr fun b => and_congr bytes_eq_ok_iff ?_)
  by_cases hwidth : max < b.length
  · rw [if_pos hwidth, Except.error.injEq, and_iff_right hwidth, eq_comm]
  · rw [if_neg hwidth]
    refine ⟨fun h => ?_, fun h => absurd h.1 hwidth⟩
    cases h

/-- reading the bytes of a narrow field -/
theorem readsWhole_of_narrow {f : Bytes → α}
    (hf : ∀ b a, b.length ≤ max → (f b = a ↔ Denotes a (Bytes.toNat b))) :
    ReadsWhole l i max Denotes ((l.narrow i max).map f) where
  value a := by
    rw [map_eq_ok_iff]
    refine exists_congr fun b => ?_
    rw [narrow_eq_ok_iff, and_assoc]
    exact and_congr_right fun _ => and_congr_right fun hwidth => hf b a hwidth
  refusal e := by
    rw [map_eq_error_iff, narrow_eq_error_iff]

/-- casting a number that was read: it is below what its bytes can hold -/
theorem ReadsWhole.map {r : Except ParamError Nat} {f : Nat → α}
    (h : ReadsWhole l i max (fun v n => v = n) r)
    (hf : ∀ n a, n < 256 ^ max → (f n = a ↔ Denotes a n)) :
    ReadsWhole l i max Denotes (r.map f) where
  value a := by
    rw [map_eq_ok_iff]
    constructor
    · rintro ⟨n, hn, ha⟩
      obtain ⟨b, hb, hwidth, rfl⟩ := (h.value n).1 hn
      have hlt : Bytes.toNat b < 256 ^ max :=
        Nat.lt_of_lt_of_le (Bytes.toNat_lt b) (Nat.pow_le_pow_right (by omega) hwidth)
      exact ⟨b, hb, hwidth, (hf _ a hlt).1 ha⟩
    · rintro ⟨b, hb, hwidth, ha⟩
      have hlt : Bytes.toNat b < 256 ^ max :=
        Nat.lt_of_lt_of_le (Bytes.toNat_lt b) (Nat.pow_le_pow_right (by omega) hwidth)
      exact ⟨Bytes.toNat b, (h.value _).2 ⟨b, hb, hwidth, rfl⟩, (hf _ a hlt).2 ha⟩
  refusal e := by
    rw [map_eq_error_iff, h.refusal e]

/-- a word that holds every number of so many bytes cuts nothing off -/
theorem ReadsWhole.word {r : Except ParamError Nat} {toNat : α → Nat} {ofNat : Nat → α}
    (h : ReadsWhole l i max (fun v n => v = n) r)
    (hto : ∀ n, n < 256 ^ max → toNat (ofNat n) = n) (hof : ∀ x, ofNat (toNat x) = x) :
    ReadsWhole l i max (fun x n => toNat x = n) (r.map ofNat) := by
  refine h.map fun n x hn => ⟨?_, ?_⟩
  · rintro rfl
    exact hto n hn
  · rintro rfl
    exact hof x

theorem ReadsWhole.length_le {r : Except ParamError α} {expected got : Nat}
    (h : ReadsWhole l i max Denotes r) (hr : r = .error (.tooFew expected got)) :
    l.items.length ≤ i := by
  rcases (h.refusal _).1 hr with ⟨hmissing, -⟩ | ⟨b, -, -, hlong⟩
  · exact hmissing
  · cases hlong

/-! ## readers -/

/-- the word of a field that fits it is the number of all its bytes -/
theorem ofBytes_eq_toNat {b : Bytes} (h : b.length ≤ 8) : Word.ofBytes b = Bytes.toNat b := by
  rw [Word.ofBytes, List.take_of_length_le h]

theorem readsWhole_uint (l : ParamList) (i w : Nat) :
    ReadsWhole l i (min w 8) (fun v n => v = n) (l.uint i w) := by
  have huint : l.uint i w = (l.narrow i (min w 8)).map Word.ofBytes := by
    unfold uint
    cases l.narrow i (min w 8) <;> rfl
  rw [huint]
  refine readsWhole_of_narrow fun b v hwidth => ?_
  rw [ofBytes_eq_toNat (by omega), eq_comm]

theorem readsWhole_bigUint (l : ParamList) (i : Nat) :
    ReadsWhole l i 32 (fun t n => t = toString n) (l.bigUint i) := by
  have hbig : l.bigUint i = (l.narrow i 32).map fun b => toString (Bytes.toNat b) := by
    unfold bigUint
    cases l.narrow i 32 <;> rfl
  rw [hbig]
  exact readsWhole_of_narrow fun b t _ => eq_comm

theorem readsWhole_u64 (l : ParamList) (i : Nat) :
    ReadsWhole l i 8 (fun x n => x.toNat = n) (l.u64 i) :=
  (readsWhole_uint l i 8).word (fun _ hn => UInt64.toNat_ofNat_of_lt' hn)
    fun _ => UInt64.ofNat_toNat

theorem readsWhole_u32 (l : ParamList) (i : Nat) :
    ReadsWhole l i 4 (fun x n => x.toNat = n) (l.u32 i) :=
  (readsWhole_uint l i 4).word (fun _ hn => UInt32.toNat_ofNat_of_lt' hn)
    fun _ => UInt32.ofNat_toNat

theorem readsWhole_u16 (l : ParamList) (i : Nat) :
    ReadsWhole l i 2 (fun x n => x.toNat = n) (l.u16 i) :=
  (readsWhole_uint l i 2).word (fun _ hn => UInt16.toNat_ofNat_of_lt' hn)
    fun _ => UInt16.ofNat_toNat

theorem readsWhole_u8 (l : ParamList) (i : Nat) :
    ReadsWhole l i 1 (fun x n => x.toNat = n) (l.u8 i) :=
  (readsWhole_uint l i 1).word (fun _ hn => UInt8.toNat_ofNat_of_lt' hn)
    fun _ => UInt8.ofNat_toNat

theorem readsWhole_bool (l : ParamList) (i : Nat) :
    ReadsWhole l i 1 (fun x n => x = true ↔ n ≠ 0) (l.bool i) := by
  have hbool : l.bool i = (l.uint i 1).map (· != 0) := by
    unfold bool
    cases l.uint i 1 <;> rfl
  rw [hbool]
  refine (readsWhole_uint l i 1).map fun n x _ => ?_
  rw [← bne_iff_ne, eq_comm]
  exact Bool.eq_iff_iff

/-- some reader refuses field `i` with `e` -/
inductive Refuses (l : ParamList) (i : Nat) : ParamError → Prop
  | bytes {e : ParamError} : l.bytes i = .error e → Refuses l i e
  | text {e : ParamError} : l.text i = .error e → Refuses l i e
  | bigUint {e : ParamError} : l.bigUint i = .error e → Refuses l i e
  | uint {w : Nat} {e : ParamError} : l.uint i w = .error e → Refuses l i e
  | u64 {e : ParamError} : l.u64 i = .error e → Refuses l i e
  | u32 {e : ParamError} : l.u32 i = .error e → Refuses l i e
  | u16 {e : ParamError} : l.u16 i = .error e → Refuses l i e
  | u8 {e : ParamError} : l.u8 i = .error e → Refuses l i e
  | bool {e : ParamError} : l.bool i = .error e → Refuses l i e
  | addresses {chainId : String} {e : ParamError} :
    l.addresses i chainId = .error e → Refuses l i e

/-- only the bytes of a field can be missing, whatever is made of them -/
theorem Refuses.length_le {expected got : Nat} (h : Refuses l i (.tooFew expected got)) :
    l.items.length ≤ i := by
  cases h with
  | bytes h => exact (bytes_eq_error_iff.1 h).1
  | text h =>
    rcases bind_eq_error_iff.1 h with h | ⟨b, -, h⟩
    · exact (bytes_eq_error_iff.1 h).1
    · split at h <;> cases h
  | bigUint h => exact (readsWhole_bigUint l i).length_le h
  | uint h => exact (readsWhole_uint l i _).length_le h
  | u64 h => exact (readsWhole_u64 l i).length_le h
  | u32 h => exact (readsWhole_u32 l i).length_le h
  | u16 h => exact (readsWhole_u16 l i).length_le h
  | u8 h => exact (readsWhole_u8 l i).length_le h
  | bool h => exact (readsWhole_bool l i).length_le h
  | addresses h =>
    rcases bind_eq_error_iff.1 h with h | ⟨b, -, h⟩
    · exact (bytes_eq_error_iff.1 h).1
    · split at h <;> cases h

/-- readers of numbers give the number of all the bytes of a field, and give it whole; the readers
of a field that was asked for beforehand never miss it -/
theorem numbers_whole (l : ParamList) (i : Nat) :
    (∀ w, ReadsWhole l i (min w 8) (fun v n => v = n) (l.uint i w)) ∧
    ReadsWhole l i 8 (fun x n => x.toNat = n) (l.u64 i) ∧
    ReadsWhole l i 4 (fun x n => x.toNat = n) (l.u32 i) ∧
    ReadsWhole l i 2 (fun x n => x.toNat = n) (l.u16 i) ∧
    ReadsWhole l i 1 (fun x n => x.toNat = n) (l.u8 i) ∧
    ReadsWhole l i 1 (fun x n => x = true ↔ n ≠ 0) (l.bool i) ∧
    ReadsWhole l i 32 (fun t n => t = toString n) (l.bigUint i) ∧
    ∀ n, l.require n = .ok () → i < n → ∀ e, Refuses l i e →
      ∀ expected got, e ≠ .tooFew expected got := by
  refine ⟨readsWhole_uint l i, readsWhole_u64 l i, readsWhole_u32 l i, readsWhole_u16 l i,
    readsWhole_u8 l i, readsWhole_bool l i, readsWhole_bigUint l i, ?_⟩
  rintro n hn hi _ h expected got rfl
  have hcount := require_eq_ok_iff.1 hn
  have hmissing := h.length_le
  omega

/-- nine bytes are no word, however wide a number may be, although their first eight are one -/
theorem numbers_whole_nine :
    let l : ParamList := ⟨[[1, 0], [0, 0, 0, 0, 0, 0, 0, 7, 255]]⟩
    l.require 2 = .ok () ∧ l.u16 0 = .ok 256 ∧ l.u8 0 = .error (.tooLong 0 2 1) ∧
      l.uint 1 64 = .error (.tooLong 1 9 8) ∧ l.bigUint 1 = .ok "2047" ∧
        ∀ e, Refuses l 1 e → ∀ expected got, e ≠ .tooFew expected got := by
  intro l
  obtain ⟨-, -, -, hu16, hu8, -⟩ := numbers_whole l 0
  obtain ⟨huint, -, -, -, -, -, hbig, hmissed⟩ := numbers_whole l 1
  have hrequire : l.require 2 = .ok () := rfl
  refine ⟨hrequire, ?_, ?_, ?_, ?_, hmissed 2 hrequire (by omega)⟩
  · exact (hu16.value 256).2 ⟨[1, 0], rfl, by decide, rfl⟩
  · exact (hu8.refusal _).2 (.inr ⟨[1, 0], rfl, by decide, rfl⟩)
  · exact ((huint 64).refusal _).2 (.inr ⟨_, rfl, by decide, rfl⟩)
  · exact (hbig.value _).2 ⟨_, rfl, by decide, rfl⟩

end LedgerClient.ParamList
