import LedgerClient.Proofs.Json.Soundness
/-!
# JSON texts, read as the grammar has them

What is in the grammar is read, as what it spells. Two units of fuel for each character are enough.
A value is followed by a blank, a comma, the end of its container or nothing, so its reader stops
where it ends; and none of these begins a value, so an empty container is told from others.

* `IsValue.begins`              how a value begins;
* `Complete fuel`, `complete`   what is in the grammar is read when there is fuel enough;
* `parse_eq_some_iff`           exactly which texts are read, and as what;
* `Spells.unique`               so a text spells one document at most.
-/

namespace LedgerClient.Document

variable {fuel : Nat}

/-! ## blanks -/

theorem startsIn_blanks {b r : Source} (hb : IsBlanks b) (hr : Ends r) : Ends (b ++ r) := by
  cases b with
  | nil => exact hr
  | cons c b =>
    obtain ⟨x, rfl, hx⟩ := hb c List.mem_cons_self
    rw [List.cons_append]
    refine startsIn_cons ?_ _
    rcases isBlank_iff.1 hx with rfl | rfl | rfl | rfl <;> decide

theorem element_blanks {b : Source} (hb : IsBlanks b) (fuel : Nat) (r : Source) :
    element fuel (b ++ r) = element fuel r := by
  cases fuel with
  | zero => rfl
  | succ fuel => rw [element, element, skipBlanks_append hb]

theorem elements_blanks {b : Source} (hb : IsBlanks b) (fuel : Nat) (r : Source) :
    elements fuel (b ++ r) = elements fuel r := by
  cases fuel with
  | zero => rfl
  | succ fuel => rw [elements, elements, element_blanks hb]

theorem members_blanks {b : Source} (hb : IsBlanks b) (fuel : Nat) (r : Source) :
    members fuel (b ++ r) = members fuel r := by
  cases fuel with
  | zero => rfl
  | succ fuel => rw [members, members, skipBlanks_append hb]

/-- blanks in front of items are passed over before the items are read -/
theorem elements_skipBlanks (fuel : Nat) (r : Source) :
    elements fuel (skipBlanks r) = elements fuel r := by
  obtain ⟨b, hb, hr⟩ := exists_blanks r
  conv => rhs; rw [hr, elements_blanks hb]

theorem members_skipBlanks (fuel : Nat) (r : Source) :
    members fuel (skipBlanks r) = members fuel r := by
  obtain ⟨b, hb, hr⟩ := exists_blanks r
  conv => rhs; rw [hr, members_blanks hb]

/-! ## how the parts begin -/

theorem IsNumeral.begins {neg : Bool} {t : Source} {n : Option JsonNumber}
    (h : IsNumeral neg t n) : ∃ x r d, t = some x :: r ∧ Text.digit? 10 x = some d := by
  cases h with
  | parts hw _ _ =>
    obtain ⟨x, r, d, rfl, hx⟩ := hw.toIsDigits.begins
    exact ⟨x, _, d, rfl, hx⟩

theorem not_mem_ends_of_digit {x : Char} {d : Nat} (h : Text.digit? 10 x = some d) :
    x ∉ ends := by
  intro hx
  rw [digit?_of_mem_numberMarks (by simp [numberMarks, hx])] at h
  cases h

theorem not_isBlank_of_not_mem_ends {x : Char} (h : x ∉ ends) : isBlank x = false := by
  rw [← Bool.not_eq_true, isBlank_iff]
  rintro (rfl | rfl | rfl | rfl) <;> exact absurd h (by decide)

/-- a value starts with a character that can follow no value -/
theorem IsValue.begins {t : Source} {d : Document} (h : IsValue t d) :
    ∃ c r, t = some c :: r ∧ c ∉ ends := by
  cases h with
  | null => exact ⟨_, _, rfl, by decide⟩
  | true => exact ⟨_, _, rfl, by decide⟩
  | false => exact ⟨_, _, rfl, by decide⟩
  | natural hn =>
    obtain ⟨x, r, d, rfl, hx⟩ := hn.begins
    exact ⟨x, r, rfl, not_mem_ends_of_digit hx⟩
  | negative _ => exact ⟨_, _, rfl, by decide⟩
  | string hs =>
    cases hs
    exact ⟨_, _, rfl, by decide⟩
  | emptyArray _ => exact ⟨_, _, rfl, by decide⟩
  | array _ => exact ⟨_, _, rfl, by decide⟩
  | emptyObject _ => exact ⟨_, _, rfl, by decide⟩
  | object _ => exact ⟨_, _, rfl, by decide⟩

theorem IsElement.begins {t : Source} {d : Document} (h : IsElement t d) (r : Source) :
    ∃ c u, skipBlanks (t ++ r) = some c :: u ∧ c ∉ ends := by
  cases h with
  | @padded b t b' _ hb ht hb' =>
    obtain ⟨c, u, rfl, hc⟩ := ht.begins
    rw [List.append_assoc, skipBlanks_append hb]
    exact ⟨c, _, skipBlanks_some (not_isBlank_of_not_mem_ends hc) _, hc⟩

theorem IsElements.begins {t : Source} {ds : List Document} (h : IsElements t ds) (r : Source) :
    ∃ c u, skipBlanks (t ++ r) = some c :: u ∧ c ∉ ends := by
  cases h with
  | last ht => exact ht.begins r
  | more ht _ =>
    rw [List.append_assoc]
    exact ht.begins _

theorem IsMember.begins {t : Source} {m : Option String × Document} (h : IsMember t m)
    (r : Source) : ∃ u, skipBlanks (t ++ r) = some '"' :: u := by
  cases h with
  | @named b q b' t name d hb hq hb' ht =>
    cases hq
    rw [List.append_assoc, skipBlanks_append hb]
    exact ⟨_, rfl⟩

theorem IsMembers.begins {t : Source} {ms : List (Option String × Document)} (h : IsMembers t ms)
    (r : Source) : ∃ u, skipBlanks (t ++ r) = some '"' :: u := by
  cases h with
  | last ht => exact ht.begins r
  | more ht _ =>
    rw [List.append_assoc]
    exact ht.begins _

/-! ## the readers, by what they meet first -/

theorem element_digit {x : Char} {d : Nat} (h : Text.digit? 10 x = some d) (fuel : Nat)
    (r : Source) : element (fuel + 1) (some x :: r) = numeral? false (some x :: r) := by
  rw [element, skipBlanks_some (not_isBlank_of_not_mem_ends (not_mem_ends_of_digit h))]
  -- none of the other characters that begin a value is a digit
  split
  case h_8 => rfl
  all_goals
    rename_i heq
    cases heq
    cases h

/-- what an opening bracket is followed by -/
def arrayTail (fuel : Nat) (r : Source) : Option (Document × Source) :=
  match skipBlanks r with
  | some ']' :: r => some (.array [], r)
  | r => (elements fuel r).bind fun p => some (.array p.1, p.2)

theorem arrayTail_of_not_mem_ends {r u : Source} {c : Char} (h : skipBlanks r = some c :: u)
    (hc : c ∉ ends) (fuel : Nat) :
    arrayTail fuel r = (elements fuel r).bind fun p => some (.array p.1, p.2) := by
  rw [arrayTail, ← elements_skipBlanks, h]
  split
  · rename_i heq
    cases heq
    exact absurd (by decide) hc
  · rfl

/-- what an opening brace is followed by -/
def objectTail (fuel : Nat) (r : Source) : Option (Document × Source) :=
  match skipBlanks r with
  | some '\x7d' :: r => some (.object [], r)
  | r => (members fuel r).bind fun p => some (.object p.1, p.2)

theorem objectTail_of_quote {r u : Source} (h : skipBlanks r = some '"' :: u) (fuel : Nat) :
    objectTail fuel r = (members fuel r).bind fun p => some (.object p.1, p.2) := by
  rw [objectTail, ← members_skipBlanks, h]
  rfl

theorem element_bracket (fuel : Nat) (r : Source) :
    element (fuel + 1) (some '[' :: r) = arrayTail fuel r := rfl

theorem element_brace (fuel : Nat) (r : Source) :
    element (fuel + 1) (some '\x7b' :: r) = objectTail fuel r := rfl

/-- what an item is followed by -/
def elementEnd (fuel : Nat) (d : Document) (r : Source) : Option (List Document × Source) :=
  match skipBlanks r with
  | some ',' :: r => (elements fuel r).bind fun p => some (d :: p.1, p.2)
  | some ']' :: r => some ([d], r)
  | _ => none

theorem elements_succ (fuel : Nat) (r : Source) : elements (fuel + 1) r =
    (element fuel r).bind fun p => elementEnd fuel p.1 p.2 := by
  rw [elements]
  rfl

/-- what a member is followed by -/
def memberEnd (fuel : Nat) (m : Option String × Document) (r : Source) :
    Option (List (Option String × Document) × Source) :=
  match skipBlanks r with
  | some ',' :: r => (members fuel r).bind fun p => some (m :: p.1, p.2)
  | some '\x7d' :: r => some ([m], r)
  | _ => none

theorem members_quote (fuel : Nat) (r : Source) : members (fuel + 1) (some '"' :: r) =
    (stringTail r).bind fun p =>
      match skipBlanks p.2 with
      | some ':' :: r => (element fuel r).bind fun q => memberEnd fuel (p.1, q.1) q.2
      | _ => none := rfl

/-! ## the readers, by what they are given -/

/-- the readers with so much fuel take what is in the grammar, if it is not too long: two units for
each character are enough, less one for a value itself -/
structure Complete (fuel : Nat) : Prop where
  value : ∀ t d r, IsValue t d → Ends r → 2 * t.length ≤ fuel + 1 →
    element fuel (t ++ r) = some (d, r)
  elements : ∀ t ds r, IsElements t ds → 2 * t.length ≤ fuel →
    elements fuel (t ++ some ']' :: r) = some (ds, r)
  members : ∀ t ms r, IsMembers t ms → 2 * t.length ≤ fuel →
    members fuel (t ++ some '\x7d' :: r) = some (ms, r)

namespace Complete

/-- an element is read but for the blanks behind it -/
theorem element (h : Complete fuel) {t r : Source} {d : Document} (ht : IsElement t d)
    (hr : Ends r) (hfuel : 2 * t.length ≤ fuel + 1) :
    ∃ b, IsBlanks b ∧ Document.element fuel (t ++ r) = some (d, b ++ r) := by
  cases ht with
  | @padded b t b' _ hb ht hb' =>
    rw [List.length_append, List.length_append] at hfuel
    refine ⟨b', hb', ?_⟩
    rw [List.append_assoc, List.append_assoc, element_blanks hb]
    exact h.value _ _ _ ht (startsIn_blanks hb' hr) (by omega)

theorem elements_element (h : Complete fuel) {t r : Source} {d : Document} (ht : IsElement t d)
    (hr : Ends r) (hfuel : 2 * t.length ≤ fuel + 1) :
    Document.elements (fuel + 1) (t ++ r) = elementEnd fuel d r := by
  obtain ⟨b, hb, hread⟩ := h.element ht hr hfuel
  rw [Document.elements_succ, hread, Option.bind_some]
  unfold elementEnd
  rw [skipBlanks_append hb]

theorem members_member (h : Complete fuel) {t r : Source} {m : Option String × Document}
    (ht : IsMember t m) (hr : Ends r) (hfuel : 2 * t.length ≤ fuel + 1) :
    Document.members (fuel + 1) (t ++ r) = memberEnd fuel m r := by
  cases ht with
  | @named b q b' t name d hb hq hb' ht =>
    simp only [List.length_append, List.length_cons] at hfuel
    obtain ⟨b'', hb'', hread⟩ := h.element ht hr (by omega)
    obtain ⟨q, rfl⟩ : ∃ q', q = some '"' :: q' := by
      cases hq
      exact ⟨_, rfl⟩
    have hname : stringTail (q ++ (b' ++ some ':' :: (t ++ r))) =
        some (name, b' ++ some ':' :: (t ++ r)) :=
      stringTail_eq_some_iff.2 ⟨q, hq, rfl⟩
    simp only [List.append_assoc, List.cons_append]
    rw [members_blanks hb, members_quote, hname, Option.bind_some]
    dsimp only
    rw [skipBlanks_append hb']
    show (Document.element fuel (t ++ r)).bind (fun q => memberEnd fuel (name, q.1) q.2) = _
    rw [hread, Option.bind_some]
    unfold memberEnd
    rw [skipBlanks_append hb'']

theorem length_pos {t : Source} {d : Document} (h : IsValue t d) : 0 < t.length := by
  obtain ⟨c, r, rfl, -⟩ := h.begins
  exact Nat.zero_lt_succ _

theorem zero : Complete 0 where
  value t d r ht _ hfuel := by
    have hpos := length_pos ht
    omega
  elements t ds r ht hfuel := by
    obtain rfl := List.eq_nil_of_length_eq_zero (l := t) (by omega)
    obtain ⟨c, u, hskip, -⟩ := ht.begins []
    cases hskip
  members t ms r ht hfuel := by
    obtain rfl := List.eq_nil_of_length_eq_zero (l := t) (by omega)
    obtain ⟨u, hskip⟩ := ht.begins []
    cases hskip

/-- a value is read by its first character; what begins its items is no closing bracket -/
theorem value_succ (h : Complete fuel) (t : Source) (d : Document) (r : Source)
    (ht : IsValue t d) (hr : Ends r) (hfuel : 2 * t.length ≤ fuel + 2) :
    Document.element (fuel + 1) (t ++ r) = some (d, r) := by
  cases ht with
  | null => rfl
  | true => rfl
  | false => rfl
  | natural hn =>
    have hread := numeral?_append hn hr
    obtain ⟨x, u, d, rfl, hx⟩ := hn.begins
    exact (element_digit hx fuel _).trans hread
  | negative hn => exact numeral?_append hn hr
  | @string t s hs =>
    cases hs with
    | @quoted t ps ht =>
      have hread : stringTail ((t ++ [some '"']) ++ r) = some ((chars? ps).map String.ofList, r) :=
        stringTail_eq_some_iff.2 ⟨_, .quoted ht, rfl⟩
      show (stringTail ((t ++ [some '"']) ++ r)).bind
        (fun p => some (Document.string p.1, p.2)) = _
      rw [hread, Option.bind_some]
  | @emptyArray b hb =>
    rw [List.cons_append, List.append_assoc, element_bracket, arrayTail, skipBlanks_append hb]
    rfl
  | @array t ds ht =>
    rw [List.length_cons, List.length_append, List.length_singleton] at hfuel
    obtain ⟨c, u, hskip, hc⟩ := ht.begins (some ']' :: r)
    rw [List.cons_append, List.append_assoc, List.singleton_append, element_bracket,
      arrayTail_of_not_mem_ends hskip hc, h.elements t ds r ht (by omega), Option.bind_some]
  | @emptyObject b hb =>
    rw [List.cons_append, List.append_assoc, element_brace, objectTail, skipBlanks_append hb]
    rfl
  | @object t ms ht =>
    rw [List.length_cons, List.length_append, List.length_singleton] at hfuel
    obtain ⟨u, hskip⟩ := ht.begins (some '\x7d' :: r)
    rw [List.cons_append, List.append_assoc, List.singleton_append, element_brace,
      objectTail_of_quote hskip, h.members t ms r ht (by omega), Option.bind_some]

theorem elements_succ (h : Complete fuel) (t : Source) (ds : List Document) (r : Source)
    (ht : IsElements t ds) (hfuel : 2 * t.length ≤ fuel + 1) :
    Document.elements (fuel + 1) (t ++ some ']' :: r) = some (ds, r) := by
  cases ht with
  | last ht =>
    rw [h.elements_element ht (startsIn_cons (by decide) r) hfuel]
    rfl
  | @more t u d ds ht hu =>
    rw [List.length_append, List.length_cons] at hfuel
    rw [List.append_assoc, List.cons_append,
      h.elements_element ht (startsIn_cons (by decide) _) (by omega)]
    show (Document.elements fuel (u ++ some ']' :: r)).bind (fun p => some (d :: p.1, p.2)) = _
    rw [h.elements u ds r hu (by omega), Option.bind_some]

theorem members_succ (h : Complete fuel) (t : Source) (ms : List (Option String × Document))
    (r : Source) (ht : IsMembers t ms) (hfuel : 2 * t.length ≤ fuel + 1) :
    Document.members (fuel + 1) (t ++ some '\x7d' :: r) = some (ms, r) := by
  cases ht with
  | last ht =>
    rw [h.members_member ht (startsIn_cons (by decide) r) hfuel]
    rfl
  | @more t u m ms ht hu =>
    rw [List.length_append, List.length_cons] at hfuel
    rw [List.append_assoc, List.cons_append,
      h.members_member ht (startsIn_cons (by decide) _) (by omega)]
    show (Document.members fuel (u ++ some '\x7d' :: r)).bind (fun p => some (m :: p.1, p.2)) = _
    rw [h.members u ms r hu (by omega), Option.bind_some]

theorem succ (h : Complete fuel) : Complete (fuel + 1) :=
  ⟨h.value_succ, h.elements_succ, h.members_succ⟩

end Complete

theorem complete (fuel : Nat) : Complete fuel := by
  induction fuel with
  | zero => exact .zero
  | succ fuel ih => exact ih.succ

theorem parse_of_isElement {r : Source} {d : Document} (h : IsElement r d) : parse r = some d := by
  obtain ⟨b, hb, hread⟩ :=
    (complete (2 * r.length + 2)).element h (startsIn_nil ends) (by omega)
  rw [List.append_nil, List.append_nil] at hread
  unfold parse
  rw [hread]
  exact if_pos (skipBlanks_eq_nil_iff.2 hb)

/-- exactly which texts are read, and as what -/
theorem parse_eq_some_iff {s : String} {d : Document} :
    parse (sourceOfText s) = some d ↔ Spells s d :=
  ⟨isElement_of_parse, parse_of_isElement⟩

/-- a text spells one document at most -/
theorem Spells.unique {s : String} {d d' : Document} (h : Spells s d) (h' : Spells s d') :
    d = d' := by
  have hread := parse_eq_some_iff.2 h
  rw [parse_eq_some_iff.2 h'] at hread
  exact (Option.some.inj hread).symm

end LedgerClient.Document
