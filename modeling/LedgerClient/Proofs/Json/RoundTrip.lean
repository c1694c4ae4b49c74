import LedgerClient.Proofs.Json.Reader
/-!
# JSON values, read back from their text

The text of a value is in the grammar, and spells that value: whatever its strings hold, and
however deep it is. Its numbers have to be whole and fit 64 bits. (Binary64 numbers are written and
read by floating point arithmetic, and are left out.)

* `Json.Whole`        the values meant;
* `isPiece_escape`    one written character is one piece, whatever it is;
* `isValue_text`      the text of a value spells it;
* `parse_text`        so it is read back.
-/

namespace LedgerClient

mutual

/-- every number is whole and fits 64 bits, signed or not -/
def Json.Whole : Json → Prop
  | .number (.whole n) => -2 ^ 63 ≤ n ∧ n < 2 ^ 64
  | .number (.double _) => False
  | .array items => Json.WholeItems items
  | .object members => Json.WholeMembers members
  | _ => True

def Json.WholeItems : List Json → Prop
  | [] => True
  | v :: vs => v.Whole ∧ Json.WholeItems vs

def Json.WholeMembers : List (String × Json) → Prop
  | [] => True
  | (_, v) :: ms => v.Whole ∧ Json.WholeMembers ms

end

namespace Document

open Json

theorem sourceOfText_append (s t : String) :
    sourceOfText (s ++ t) = sourceOfText s ++ sourceOfText t := by
  unfold sourceOfText
  rw [String.toList_append, List.map_append]

theorem sourceOfText_quoted (s : String) :
    sourceOfText (quoted s) =
      some '"' :: ((s.toList.flatMap escape).map some ++ [some '"']) := by
  unfold sourceOfText quoted quotedChars
  rw [String.toList_ofList, List.cons_append, List.map_cons, List.map_append]
  rfl

/-! ## numbers -/

/-- a number is written in digits, with no zero in front -/
theorem exists_isWhole (n : Nat) :
    ∃ ds, IsWhole ((Nat.toDigits 10 n).map some) ds ∧ Digits.value 10 ds = n := by
  obtain ⟨ds, hds, hvalue⟩ := Text.mapM_digit?_toDigits (b := 10) (by omega) (by omega) n
  have hdigits : List.Forall₂ IsDigit ((Nat.toDigits 10 n).map some) ds :=
    List.forall₂_map_left_iff.2 ((mapM_eq_some_iff.1 hds).imp fun _ _ => isDigit_iff.2)
  refine ⟨ds, ⟨⟨hdigits, ?_⟩, Text.head?_of_toDigits n hds⟩, hvalue⟩
  rintro rfl
  exact Nat.toDigits_ne_nil (List.map_eq_nil_iff.1 (List.forall₂_nil_right_iff.1 hdigits))

theorem sourceOfText_natural (n : Nat) :
    sourceOfText (toString (n : Int)) = (Nat.toDigits 10 n).map some := by
  show (Nat.repr n).toList.map some = _
  rw [Nat.toList_repr]

theorem sourceOfText_negative (n : Nat) :
    sourceOfText (toString (Int.negSucc n)) = some '-' :: (Nat.toDigits 10 (n + 1)).map some := by
  show sourceOfText ("-" ++ Nat.repr (n + 1)) = _
  rw [sourceOfText_append]
  show some '-' :: (Nat.repr (n + 1)).toList.map some = _
  rw [Nat.toList_repr]

theorem isValue_whole {n : Int} (h : -2 ^ 63 ≤ n ∧ n < 2 ^ 64) :
    IsValue (sourceOfText (numberText (.whole n))) (.number (some (.whole n))) := by
  obtain ⟨hlow, hhigh⟩ := h
  cases n with
  | ofNat n =>
    obtain ⟨ds, hds, hvalue⟩ := exists_isWhole n
    have hn : WholeValue false ds (Int.ofNat n) := by
      refine ⟨by rw [hvalue]; rfl, ?_⟩
      rw [hvalue]
      exact Int.ofNat_lt.1 hhigh
    show IsValue (sourceOfText (toString (n : Int))) _
    rw [sourceOfText_natural]
    exact .natural (isNumeral_whole_iff.2 ⟨ds, hds, hn⟩)
  | negSucc n =>
    obtain ⟨ds, hds, hvalue⟩ := exists_isWhole (n + 1)
    have hn : WholeValue true ds (Int.negSucc n) := by
      refine ⟨by rw [hvalue]; rfl, ?_, ?_⟩
      · rw [hvalue]
        exact Nat.succ_pos n
      · rw [hvalue]
        omega
    show IsValue (sourceOfText (toString (Int.negSucc n))) _
    rw [sourceOfText_negative]
    exact .negative (isNumeral_whole_iff.2 ⟨ds, hds, hn⟩)

/-! ## strings -/

theorem isHexDigit_hexDigit {n : Nat} (h : n < 16) : Text.IsHexDigit (hexDigit n) n :=
  Text.digit?_eq_some_iff.1 (Text.digit?_digitChar (by omega) h)

theorem unitPiece_of_lt {n : Nat} (h : n < 0x20) : unitPiece n = .char (Char.ofNat n) := by
  have hsurrogate : isSurrogate n = false := by
    unfold isSurrogate
    rw [decide_eq_false (by omega), Bool.false_and]
  unfold unitPiece
  rw [hsurrogate]
  rfl

/-- a character is one piece, whatever is written for it -/
theorem isPiece_escape (c : Char) : IsPiece ((escape c).map some) (.char c) := by
  unfold escape
  -- the seven characters with a letter of their own
  iterate 7
    split
    · subst_vars
      exact .short (by decide)
  rename_i hquote hslash _ _ _ _ _
  split
  · rename_i hcontrol
    have hdigits : List.Forall₂ Text.IsHexDigit
        ['0', '0', hexDigit (c.toNat / 16), hexDigit (c.toNat % 16)]
        [0, 0, c.toNat / 16, c.toNat % 16] :=
      .cons rfl (.cons rfl (.cons (isHexDigit_hexDigit (by omega))
        (.cons (isHexDigit_hexDigit (by omega)) .nil)))
    have hvalue : Text.hexValue [0, 0, c.toNat / 16, c.toNat % 16] = c.toNat := by
      show Nat.ofDigits 16 [c.toNat % 16, c.toNat / 16, 0, 0] = _
      simp only [Nat.ofDigits_cons, Nat.ofDigits_nil]
      omega
    have hpiece := IsPiece.unit rfl hdigits
    rwa [hvalue, unitPiece_of_lt hcontrol, Char.ofNat_toNat] at hpiece
  · rename_i hcontrol
    exact .char hquote hslash (Nat.le_of_not_lt hcontrol)

theorem isPieces_escape (cs : List Char) :
    IsPieces ((cs.flatMap escape).map some) (cs.map .char) := by
  induction cs with
  | nil => exact .nil
  | cons c cs ih =>
    rw [List.flatMap_cons, List.map_append]
    exact .cons (isPiece_escape c) ih

theorem chars?_map_char (cs : List Char) : chars? (cs.map .char) = some cs := by
  induction cs with
  | nil => rfl
  | cons c cs ih =>
    show (chars? (cs.map .char)).map (c :: ·) = some (c :: cs)
    rw [ih]
    rfl

theorem isString_quoted (s : String) : IsString (sourceOfText (quoted s)) (some s) := by
  have hstring := IsString.quoted (isPieces_escape s.toList)
  rwa [chars?_map_char, Option.map_some, String.ofList_toList, ← sourceOfText_quoted] at hstring

/-! ## containers -/

theorem sourceOfText_array (items : List Json) :
    sourceOfText (Json.array items).text =
      some '[' :: (sourceOfText (String.intercalate "," (itemTexts items)) ++ [some ']']) := by
  rw [Json.text, sourceOfText_append, sourceOfText_append]
  rfl

theorem sourceOfText_object (members : List (String × Json)) :
    sourceOfText (Json.object members).text =
      some '\x7b' ::
        (sourceOfText (String.intercalate "," (memberTexts members)) ++ [some '\x7d']) := by
  rw [Json.text, sourceOfText_append, sourceOfText_append]
  rfl

theorem sourceOfText_items (v w : Json) (vs : List Json) :
    sourceOfText (String.intercalate "," (itemTexts (v :: w :: vs))) =
      sourceOfText v.text ++
        some ',' :: sourceOfText (String.intercalate "," (itemTexts (w :: vs))) := by
  rw [itemTexts, itemTexts, String.intercalate_cons_cons, sourceOfText_append,
    sourceOfText_append, List.append_assoc]
  rfl

theorem sourceOfText_member (name : String) (v : Json) :
    sourceOfText (String.intercalate "," (memberTexts [(name, v)])) =
      sourceOfText (quoted name) ++ some ':' :: sourceOfText v.text := by
  rw [memberTexts, memberTexts, String.intercalate_singleton, sourceOfText_append,
    sourceOfText_append, List.append_assoc]
  rfl

theorem sourceOfText_members (name : String) (v : Json) (m : String × Json)
    (ms : List (String × Json)) :
    sourceOfText (String.intercalate "," (memberTexts ((name, v) :: m :: ms))) =
      sourceOfText (String.intercalate "," (memberTexts [(name, v)])) ++
        some ',' :: sourceOfText (String.intercalate "," (memberTexts (m :: ms))) := by
  rw [memberTexts, memberTexts, String.intercalate_cons_cons, sourceOfText_append,
    sourceOfText_append, List.append_assoc, memberTexts, memberTexts,
    String.intercalate_singleton]
  rfl

theorem IsValue.isElement {t : Source} {d : Document} (h : IsValue t d) : IsElement t d := by
  have helement := IsElement.padded isBlanks_nil h isBlanks_nil
  rwa [List.append_nil] at helement

theorem isMember_quoted (name : String) {t : Source} {d : Document} (h : IsValue t d) :
    IsMember (sourceOfText (quoted name) ++ some ':' :: t) (some name, d) := by
  have hmember := IsMember.named isBlanks_nil (isString_quoted name) isBlanks_nil h.isElement
  rwa [List.nil_append, List.nil_append] at hmember

/-- the text of a value spells it -/
def Written (v : Json) : Prop := v.Whole → IsValue (sourceOfText v.text) (ofValue v)

def ItemsWritten (vs : List Json) : Prop := WholeItems vs → vs ≠ [] →
  IsElements (sourceOfText (String.intercalate "," (itemTexts vs))) (ofValues vs)

def MembersWritten (ms : List (String × Json)) : Prop := WholeMembers ms → ms ≠ [] →
  IsMembers (sourceOfText (String.intercalate "," (memberTexts ms))) (ofMemberValues ms)

theorem written_number (n : JsonNumber) : Written (.number n) := by
  intro h
  cases n with
  | whole n => exact isValue_whole h
  | double bits => exact h.elim

theorem written_array {vs : List Json} (h : ItemsWritten vs) : Written (.array vs) := by
  intro hvs
  rw [sourceOfText_array]
  cases vs with
  | nil => exact .emptyArray isBlanks_nil
  | cons v vs => exact .array (h hvs (List.cons_ne_nil v vs))

theorem written_object {ms : List (String × Json)} (h : MembersWritten ms) :
    Written (.object ms) := by
  intro hms
  rw [sourceOfText_object]
  cases ms with
  | nil => exact .emptyObject isBlanks_nil
  | cons m ms => exact .object (h hms (List.cons_ne_nil m ms))

theorem itemsWritten_cons {v : Json} {vs : List Json} (hv : Written v) (hvs : ItemsWritten vs) :
    ItemsWritten (v :: vs) := by
  rintro ⟨hwhole, hwholes⟩ -
  cases vs with
  | nil =>
    rw [itemTexts, itemTexts, String.intercalate_singleton]
    exact .last (hv hwhole).isElement
  | cons w vs =>
    rw [sourceOfText_items]
    exact .more (hv hwhole).isElement (hvs hwholes (List.cons_ne_nil w vs))

theorem membersWritten_cons {name : String} {v : Json} {ms : List (String × Json)}
    (hv : Written v) (hms : MembersWritten ms) : MembersWritten ((name, v) :: ms) := by
  rintro ⟨hwhole, hwholes⟩ -
  have hmember : IsMember _ (some name, ofValue v) := isMember_quoted name (hv hwhole)
  cases ms with
  | nil =>
    rw [sourceOfText_member]
    exact .last hmember
  | cons m ms =>
    rw [sourceOfText_members, sourceOfText_member]
    exact .more hmember (hms hwholes (List.cons_ne_nil m ms))

/-- by induction over the value, its items and its members -/
theorem isValue_text (v : Json) : Written v := by
  refine (Json.text.mutual_induct Written MembersWritten ItemsWritten
    ?null ?true ?false ?number ?string ?array ?object ?noItems ?items ?noMembers ?members).1 v
  case null => exact fun _ => .null
  case true => exact fun _ => .true
  case false =>
    intro b hb
    obtain rfl : b = false := Bool.eq_false_iff.2 hb
    exact fun _ => .false
  case number => exact written_number
  case string => exact fun s _ => .string (isString_quoted s)
  case array => exact fun _ => written_array
  case object => exact fun _ => written_object
  case noItems => exact fun _ hne => absurd rfl hne
  case items => exact fun _ _ => itemsWritten_cons
  case noMembers => exact fun _ hne => absurd rfl hne
  case members => exact fun _ _ _ => membersWritten_cons

theorem spells_text {v : Json} (h : v.Whole) : Spells v.text (ofValue v) :=
  (isValue_text v h).isElement

/-- the text of a value spells that value, and nothing else -/
theorem parse_text {v : Json} (h : v.Whole) : parse (sourceOfText v.text) = some (ofValue v) :=
  parse_eq_some_iff.2 (spells_text h)

end Document

end LedgerClient
