import LedgerClient.Json.Document
import LedgerClient.Proofs.Text.Decimal
/-!
# What a JSON text spells

The grammar of JSON as a relation between texts and documents, with no reader in it: a text is put
together from the texts of its parts. Blanks may stand around values and names and nowhere else, and
there is a comma between any two items and behind none.

* `IsNumeral`, `IsString`   what a number and a string look like, and what they spell;
* `IsValue`, `IsElement`    a value, and a value with blanks around it;
* `IsElements`, `IsMembers`   what stands inside the brackets of an array and of an object;
* `Spells s d`              the text `s` is an element that spells `d`, and nothing else;
* `IsElement.exists_between`   a container stands between its brackets.

Strings may hold what is no text: half of a surrogate pair, or ill formed bytes. Such a string is
in order, but spells no characters.
-/

namespace LedgerClient.Document

def IsBlanks (t : Source) : Prop := ∀ c ∈ t, ∃ b, c = some b ∧ isBlank b = true

/-! ## numbers -/

def IsDigit (c : Option Char) (d : Nat) : Prop := ∃ x, c = some x ∧ Text.IsDecimalDigit x d

/-- one or more digits -/
structure IsDigits (t : Source) (ds : List Nat) : Prop where
  digits : List.Forall₂ IsDigit t ds
  ne_nil : ds ≠ []

/-- digits that do not start with zero, or zero alone -/
structure IsWhole (t : Source) (ds : List Nat) : Prop extends IsDigits t ds where
  lead : ds.head? = some 0 → ds = [0]

/-- a point and digits, or nothing -/
inductive IsFraction : Source → Option (List Nat) → Prop
  | absent : IsFraction [] none
  | given {t : Source} {ds : List Nat} : IsDigits t ds → IsFraction (some '.' :: t) (some ds)

/-- a sign or none, and whether it is a minus -/
inductive IsSign : Source → Bool → Prop
  | absent : IsSign [] false
  | plus : IsSign [some '+'] false
  | minus : IsSign [some '-'] true

/-- the mark of an exponent with a sign and digits, or nothing -/
inductive IsExponent : Source → Option (Bool × List Nat) → Prop
  | absent : IsExponent [] none
  | given {e : Char} {s t : Source} {down : Bool} {ds : List Nat} : e = 'e' ∨ e = 'E' →
    IsSign s down → IsDigits t ds → IsExponent (some e :: (s ++ t)) (some (down, ds))

/-- a number behind its sign -/
inductive IsNumeral (neg : Bool) : Source → Option JsonNumber → Prop
  | parts {w f e : Source} {whole : List Nat} {fraction : Option (List Nat)}
    {exponent : Option (Bool × List Nat)} : IsWhole w whole → IsFraction f fraction →
    IsExponent e exponent → IsNumeral neg (w ++ (f ++ e)) (numberOf neg whole fraction exponent)

/-! ## strings -/

/-- the letters that may stand behind a backslash, and the characters they stand for -/
def shortEscapes : List (Char × Char) :=
  [('"', '"'), ('\\', '\\'), ('/', '/'), ('b', '\x08'), ('f', '\x0c'), ('n', '\n'), ('r', '\r'),
    ('t', '\t')]

/-- a unit of sixteen bits is a character, unless it is half of a pair -/
def unitPiece (n : Nat) : Piece := if isSurrogate n then .unit n else .char (Char.ofNat n)

/-- a character between quotes, as it is or escaped -/
inductive IsPiece : Source → Piece → Prop
  | illFormed : IsPiece [none] .illFormed
  | char {c : Char} : c ≠ '"' → c ≠ '\\' → 0x20 ≤ c.toNat → IsPiece [some c] (.char c)
  | short {e c : Char} : (e, c) ∈ shortEscapes → IsPiece [some '\\', some e] (.char c)
  | unit {cs : List Char} {vs : List Nat} : cs.length = 4 → List.Forall₂ Text.IsHexDigit cs vs →
    IsPiece (some '\\' :: some 'u' :: cs.map some) (unitPiece (Text.hexValue vs))

inductive IsPieces : Source → List Piece → Prop
  | nil : IsPieces [] []
  | cons {t u : Source} {p : Piece} {ps : List Piece} : IsPiece t p → IsPieces u ps →
    IsPieces (t ++ u) (p :: ps)

/-- pieces between quotes; they spell a string when every surrogate is paired -/
inductive IsString : Source → Option String → Prop
  | quoted {t : Source} {ps : List Piece} : IsPieces t ps →
    IsString (some '"' :: (t ++ [some '"'])) ((chars? ps).map String.ofList)

/-! ## documents -/

mutual

/-- a value without blanks around it -/
inductive IsValue : Source → Document → Prop
  | null : IsValue (sourceOfText "null") .null
  | true : IsValue (sourceOfText "true") (.bool true)
  | false : IsValue (sourceOfText "false") (.bool false)
  | natural {t : Source} {n : Option JsonNumber} : IsNumeral false t n → IsValue t (.number n)
  | negative {t : Source} {n : Option JsonNumber} : IsNumeral true t n →
    IsValue (some '-' :: t) (.number n)
  | string {t : Source} {s : Option String} : IsString t s → IsValue t (.string s)
  | emptyArray {b : Source} : IsBlanks b → IsValue (some '[' :: (b ++ [some ']'])) (.array [])
  | array {t : Source} {ds : List Document} : IsElements t ds →
    IsValue (some '[' :: (t ++ [some ']'])) (.array ds)
  | emptyObject {b : Source} : IsBlanks b →
    IsValue (some '\x7b' :: (b ++ [some '\x7d'])) (.object [])
  | object {t : Source} {ms : List (Option String × Document)} : IsMembers t ms →
    IsValue (some '\x7b' :: (t ++ [some '\x7d'])) (.object ms)

/-- a value with blanks around it -/
inductive IsElement : Source → Document → Prop
  | padded {b t b' : Source} {d : Document} : IsBlanks b → IsValue t d → IsBlanks b' →
    IsElement (b ++ (t ++ b')) d

/-- one or more elements with commas between them -/
inductive IsElements : Source → List Document → Prop
  | last {t : Source} {d : Document} : IsElement t d → IsElements t [d]
  | more {t u : Source} {d : Document} {ds : List Document} : IsElement t d → IsElements u ds →
    IsElements (t ++ some ',' :: u) (d :: ds)

/-- a name with blanks around it, a colon and an element -/
inductive IsMember : Source → Option String × Document → Prop
  | named {b q b' t : Source} {name : Option String} {d : Document} : IsBlanks b →
    IsString q name → IsBlanks b' → IsElement t d →
    IsMember (b ++ (q ++ (b' ++ some ':' :: t))) (name, d)

/-- one or more members with commas between them -/
inductive IsMembers : Source → List (Option String × Document) → Prop
  | last {t : Source} {m : Option String × Document} : IsMember t m → IsMembers t [m]
  | more {t u : Source} {m : Option String × Document} {ms : List (Option String × Document)} :
    IsMember t m → IsMembers u ms → IsMembers (t ++ some ',' :: u) (m :: ms)

end

/-- a text is one element -/
def Spells (s : String) (d : Document) : Prop := IsElement (sourceOfText s) d

/-! ## where the parts of a text begin and end -/

theorem isBlanks_nil : IsBlanks [] := fun _ h => absurd h List.not_mem_nil

theorem isBlank_iff {c : Char} :
    isBlank c = true ↔ c = ' ' ∨ c = '\n' ∨ c = '\t' ∨ c = '\r' := by
  simp [isBlank, or_assoc]

/-- what `skipBlanks` passes over are blanks -/
theorem exists_blanks (r : Source) : ∃ b, IsBlanks b ∧ r = b ++ skipBlanks r := by
  induction r with
  | nil => exact ⟨[], isBlanks_nil, rfl⟩
  | cons c r ih =>
    cases c with
    | none => exact ⟨[], isBlanks_nil, rfl⟩
    | some c =>
      rw [skipBlanks]
      split
      · rename_i hblank
        obtain ⟨b, hb, hr⟩ := ih
        refine ⟨some c :: b, List.forall_mem_cons.2 ⟨⟨c, rfl, hblank⟩, hb⟩, ?_⟩
        rw [List.cons_append, ← hr]
      · exact ⟨[], isBlanks_nil, rfl⟩

theorem skipBlanks_append {b : Source} (hb : IsBlanks b) (r : Source) :
    skipBlanks (b ++ r) = skipBlanks r := by
  induction b with
  | nil => rfl
  | cons c b ih =>
    obtain ⟨⟨x, rfl, hx⟩, hrest⟩ := List.forall_mem_cons.1 hb
    rw [List.cons_append, skipBlanks, if_pos hx, ih hrest]

theorem skipBlanks_some {c : Char} (hc : isBlank c = false) (r : Source) :
    skipBlanks (some c :: r) = some c :: r := by
  rw [skipBlanks, if_neg (by rw [hc]; exact Bool.false_ne_true)]

theorem skipBlanks_eq_nil_iff {r : Source} : skipBlanks r = [] ↔ IsBlanks r := by
  constructor
  · intro h
    obtain ⟨b, hb, hr⟩ := exists_blanks r
    rw [h, List.append_nil] at hr
    rwa [hr]
  · intro h
    rw [← List.append_nil r, skipBlanks_append h]
    rfl

/-- the brackets that a container stands between -/
def brackets? : Document → Option (Char × Char)
  | .array _ => some ('[', ']')
  | .object _ => some ('\x7b', '\x7d')
  | _ => none

theorem IsValue.exists_between {t : Source} {d : Document} {opening closing : Char}
    (h : IsValue t d) (hd : brackets? d = some (opening, closing)) :
    ∃ u, t = some opening :: (u ++ [some closing]) := by
  cases h with
  | emptyArray _ | array _ | emptyObject _ | object _ =>
    cases hd
    exact ⟨_, rfl⟩
  | _ => cases hd

/-- the text of a container stands between its brackets, apart from blanks -/
theorem IsElement.exists_between {t : Source} {d : Document} {opening closing : Char}
    (h : IsElement t d) (hd : brackets? d = some (opening, closing)) :
    ∃ b u b', IsBlanks b ∧ IsBlanks b' ∧ t = b ++ some opening :: (u ++ some closing :: b') := by
  cases h with
  | @padded b t b' _ hb ht hb' =>
    obtain ⟨u, rfl⟩ := ht.exists_between hd
    refine ⟨b, u, b', hb, hb', ?_⟩
    rw [List.cons_append, List.append_assoc, List.singleton_append]

end LedgerClient.Document
