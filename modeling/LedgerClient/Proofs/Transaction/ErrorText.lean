import LedgerClient.Proofs.Json.Record
import LedgerClient.Proofs.Text.Blank
import LedgerClient.Proofs.Transaction.InBand
/-!
# Which texts are errors

A text is an error exactly when it spells a JSON object that gives a code and a message, each once:
a whole number of 64 bits with its sign, and a string. Other members may stand beside them, whatever
they hold. A record is also read from an array, by the order of its items, but an array does not
start with a brace, so such a text is left as it is.

* `InBandError.IsGivenBy e ms`     the members of an object give this error;
* `InBandError.read_object_iff`    an error is read from an object that gives it;
* `Document.Spells.head?_eq`       a container starts with its bracket, blanks apart;
* `InBandError.split_exact`        errors are read back, and exactly these texts are errors.
-/

namespace LedgerClient

namespace Document

theorem eq_singleton_iff {ds : List Document} {d : Document} :
    ds = [d] ↔ ds.length ≤ 1 ∧ ds.head? = some d := by
  cases ds with
  | nil => exact ⟨nofun, nofun⟩
  | cons x xs => simp [and_comm]

/-! ## the first character -/

theorem isBlank_text {c : Char} (h : isBlank c = true) : Text.isBlank c = true := by
  rcases isBlank_iff.1 h with rfl | rfl | rfl | rfl <;> decide

theorem not_isBlank_of_brackets? {d : Document} {opening closing : Char}
    (h : brackets? d = some (opening, closing)) : Text.isBlank opening = false := by
  cases d with
  | array items | object ms =>
    cases h
    decide
  | _ => cases h

/-- a container starts with its bracket, apart from blanks -/
theorem Spells.head?_eq {s : String} {d : Document} {opening closing : Char} (h : Spells s d)
    (hd : brackets? d = some (opening, closing)) :
    (Text.trimStartChars s.toList).head? = some opening := by
  obtain ⟨b, u, b', hb, -, hs⟩ := IsElement.exists_between h hd
  obtain ⟨lead, rest, hsplit, rfl, hrest⟩ := List.map_eq_append_iff.1 hs
  obtain ⟨c, inner, rfl, hc, -⟩ := List.map_eq_cons_iff.1 hrest
  obtain rfl := Option.some.inj hc
  have hlead : ∀ x ∈ lead, Text.isBlank x = true := by
    intro x hx
    obtain ⟨y, hy, hblank⟩ := hb (some x) (List.mem_map_of_mem hx)
    rw [Option.some.inj hy]
    exact isBlank_text hblank
  have hhead : ∀ x, (c :: inner).head? = some x → Text.isBlank x = false := by
    intro x hx
    obtain rfl := Option.some.inj hx
    exact not_isBlank_of_brackets? hd
  rw [hsplit, Text.trimStartChars, Text.dropWhile_append_of_blank hlead hhead]
  rfl

end Document

namespace InBandError

open Document

/-! ## errors -/

/-- the members of an object give the code and the message of an error, each once -/
structure IsGivenBy (e : InBandError) (ms : List (Option String × Document)) : Prop where
  named : ∀ m ∈ ms, m.1 ≠ none
  code : given ["code"] ms = [.number (some (.whole e.code.toInt))]
  message : given ["message"] ms = [.string (some e.message)]

theorem disjoint_names : [["code"], ["message"]].Pairwise fun a b => ∀ n ∈ a, n ∉ b := by decide

/-- both fields have to be there, and nothing is lost in the code's 64 bits -/
theorem build_eq_some_iff {room : Nat} {code message : Option Document} {e : InBandError} :
    ((required (whole (-0x8000000000000000) 0x7fffffffffffffff) room code).bind fun c =>
      (required Document.text room message).bind fun m => some (⟨Int64.ofInt c, m⟩ : InBandError)) =
        some e ↔
      code = some (.number (some (.whole e.code.toInt))) ∧
        message = some (.string (some e.message)) := by
  constructor
  · intro h
    obtain ⟨c, ⟨_, rfl, rfl, hlow, hhigh⟩, hrest⟩ := (reads_whole _ _).required_bind.1 h
    obtain ⟨m, ⟨_, rfl, rfl⟩, ⟨⟩⟩ := reads_text.required_bind.1 hrest
    rw [Int64.toInt_ofInt_of_le (by omega) (by omega)]
    exact ⟨rfl, rfl⟩
  · rintro ⟨rfl, rfl⟩
    have hlow := e.code.le_toInt
    have hhigh := e.code.toInt_lt
    refine (reads_whole _ _).required_bind.2 ⟨_, ⟨_, rfl, rfl, by omega, by omega⟩, ?_⟩
    refine reads_text.required_bind.2 ⟨_, ⟨_, rfl, rfl⟩, ?_⟩
    rw [Int64.ofInt_toInt]

theorem read_object_iff {room : Nat} {ms : List (Option String × Document)} {e : InBandError} :
    read (room + 1) (.object ms) = some e ↔ e.IsGivenBy ms := by
  have hread : read (room + 1) (.object ms) = some e ↔ _ := record_eq_some_iff disjoint_names
  rw [hread, and_iff_right (Nat.succ_pos room)]
  constructor
  · rintro ⟨⟨hnamed, hone⟩, h⟩
    obtain ⟨hcode, hmessage⟩ := build_eq_some_iff.1 h
    exact ⟨hnamed, eq_singleton_iff.2 ⟨hone _ (by simp), hcode⟩,
      eq_singleton_iff.2 ⟨hone _ (by simp), hmessage⟩⟩
  · rintro ⟨hnamed, hcode, hmessage⟩
    obtain ⟨hcode1, hcode⟩ := eq_singleton_iff.1 hcode
    obtain ⟨hmessage1, hmessage⟩ := eq_singleton_iff.1 hmessage
    have hone : ∀ names ∈ [["code"], ["message"]], (given names ms).length ≤ 1 :=
      List.forall_mem_cons.2 ⟨hcode1, List.forall_mem_singleton.2 hmessage1⟩
    exact ⟨⟨hnamed, hone⟩, build_eq_some_iff.2 ⟨hcode, hmessage⟩⟩

/-- an error is read from a text in braces when it is one of an object that gives the error -/
theorem readText_eq_some_iff {s : String} {e : InBandError}
    (hbrace : (Text.trimStartChars s.toList).head? = some '\x7b') :
    readText read s = some e ↔ ∃ ms, Spells s (.object ms) ∧ e.IsGivenBy ms := by
  have hread : readText read s = some e ↔ ∃ d, Spells s d ∧ read depthLimit d = some e := by
    simp only [← parse_eq_some_iff]
    exact Option.bind_eq_some_iff
  rw [hread]
  constructor
  · rintro ⟨d, hd, h⟩
    obtain ⟨opening, closing, hbrackets, -⟩ := container_of_read h
    obtain rfl : opening = '\x7b' := by
      rw [hd.head?_eq hbrackets] at hbrace
      exact Option.some.inj hbrace
    cases d with
    | object ms => exact ⟨ms, hd, read_object_iff.1 h⟩
    | _ => cases hbrackets
  · rintro ⟨ms, hms, h⟩
    exact ⟨_, hms, read_object_iff.2 h⟩

theorem split_eq_error_iff {s : String} {e : InBandError} :
    split s = .error e ↔ (Text.trimStartChars s.toList).head? = some '\x7b' ∧
      ∃ ms, Spells s (.object ms) ∧ e.IsGivenBy ms := by
  unfold split
  by_cases hbrace : (Text.trimStartChars s.toList).head? = some '\x7b'
  · rw [if_pos hbrace, and_iff_right hbrace, ← readText_eq_some_iff hbrace]
    cases readText read s with
    | none => exact ⟨nofun, nofun⟩
    | some e' => simp
  · rw [if_neg hbrace]
    exact ⟨nofun, fun h => absurd h.1 hbrace⟩

/-- other members are passed over, whatever their order; escapes are read -/
example : readText read "\n\x7b\"at\":[],\"message\":\"\\u0041\",\"code\":-7\x7d" =
    some ⟨-7, "A"⟩ := by
  decide +kernel

/-- an array is read as a record, but is no error -/
example : readText read "[-7,\"A\"]" = some ⟨-7, "A"⟩ ∧
    (split "[-7,\"A\"]").toOption = some "[-7,\"A\"]" := by
  decide +kernel

theorem split_eq_ok_or (s : String) : split s = .ok s ∨ ∃ e, split s = .error e := by
  unfold split
  split
  · cases readText read s with
    | none => exact .inl rfl
    | some e => exact .inr ⟨e, rfl⟩
  · exact .inl rfl

/-- an error is read back from its text, whatever its code and message; a text is an error exactly
when it is a JSON object that gives a code of 64 bits and a message, and any other text stays as it
is -/
theorem split_exact :
    (∀ e : InBandError, split e.text = .error e) ∧
    (∀ s e, split s = .error e ↔ (Text.trimStartChars s.toList).head? = some '\x7b' ∧
      ∃ ms, Spells s (.object ms) ∧ e.IsGivenBy ms) ∧
    ∀ s, split s = .ok s ∨ ∃ e, split s = .error e :=
  ⟨split_text, fun _ _ => split_eq_error_iff, split_eq_ok_or⟩

end InBandError

end LedgerClient
