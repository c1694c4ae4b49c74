import LedgerClient.Proofs.Json.Number
import LedgerClient.Proofs.Json.Quoted
/-!
# What is read as JSON is in the grammar

Whatever the readers take with some fuel is put together from its parts as the grammar says. The
induction is on the fuel: a reader gives less of it to the readers it calls.

* `IsElement.append`       blanks in front belong to the first element;
* `Sound fuel`, `sound`    what is read with so much fuel is in the grammar;
* `isElement_of_parse`     what is read as a whole text is one element.
-/

namespace LedgerClient.Document

variable {fuel : Nat}

theorem word?_eq_some_iff {w : String} {r r' : Source} :
    word? w r = some r' ↔ r = sourceOfText w ++ r' := by
  have hlength : w.length = (sourceOfText w).length := by
    rw [sourceOfText, List.length_map, String.length_toList]
  unfold word?
  constructor
  · intro h
    split at h
    · rename_i hprefix
      obtain ⟨u, rfl⟩ := List.isPrefixOf_iff_prefix.1 hprefix
      rw [← Option.some.inj h, hlength]
      exact congrArg _ List.drop_left.symm
    · cases h
  · rintro rfl
    have hprefix : (w.toList.map some).isPrefixOf (sourceOfText w ++ r') = true :=
      List.isPrefixOf_iff_prefix.2 (List.prefix_append _ _)
    rw [if_pos hprefix, hlength, List.drop_left]

/-- blanks in front belong to the first element -/
theorem IsElement.append {b t : Source} {d : Document} (hb : IsBlanks b) (h : IsElement t d) :
    IsElement (b ++ t) d := by
  cases h with
  | @padded b' t b'' _ hb' ht hb'' =>
    rw [← List.append_assoc]
    exact .padded (List.forall_mem_append.2 ⟨hb, hb'⟩) ht hb''

theorem IsElements.append {b t : Source} {ds : List Document} (hb : IsBlanks b)
    (h : IsElements t ds) : IsElements (b ++ t) ds := by
  cases h with
  | last ht => exact .last (ht.append hb)
  | more ht hu =>
    rw [← List.append_assoc]
    exact .more (ht.append hb) hu

theorem IsMember.append {b t : Source} {m : Option String × Document} (hb : IsBlanks b)
    (h : IsMember t m) : IsMember (b ++ t) m := by
  cases h with
  | named hb' hq hb'' ht =>
    rw [← List.append_assoc]
    exact .named (List.forall_mem_append.2 ⟨hb, hb'⟩) hq hb'' ht

theorem IsMembers.append {b t : Source} {ms : List (Option String × Document)} (hb : IsBlanks b)
    (h : IsMembers t ms) : IsMembers (b ++ t) ms := by
  cases h with
  | last ht => exact .last (ht.append hb)
  | more ht hu =>
    rw [← List.append_assoc]
    exact .more (ht.append hb) hu

/-- what the readers take with so much fuel is in the grammar -/
structure Sound (fuel : Nat) : Prop where
  element : ∀ r d r', element fuel r = some (d, r') →
    ∃ b t, IsBlanks b ∧ IsValue t d ∧ r = b ++ (t ++ r')
  elements : ∀ r ds r', elements fuel r = some (ds, r') →
    ∃ t, IsElements t ds ∧ r = t ++ some ']' :: r'
  members : ∀ r ms r', members fuel r = some (ms, r') →
    ∃ t, IsMembers t ms ∧ r = t ++ some '\x7d' :: r'

namespace Sound

theorem zero : Sound 0 where
  element _ _ _ h := nomatch h
  elements _ _ _ h := nomatch h
  members _ _ _ h := nomatch h

/-- behind the blanks in front of it stands a value -/
theorem of_skipBlanks {r r₁ r' : Source} {d : Document} (hskip : skipBlanks r = r₁)
    (h : ∃ t, IsValue t d ∧ r₁ = t ++ r') :
    ∃ b t, IsBlanks b ∧ IsValue t d ∧ r = b ++ (t ++ r') := by
  obtain ⟨t, ht, rfl⟩ := h
  obtain ⟨b, hb, hr⟩ := exists_blanks r
  rw [hskip] at hr
  exact ⟨b, t, hb, ht, hr⟩

theorem word {w : String} {c : Char} {r r' : Source} {d : Document}
    (h : word? w r = some r') (hvalue : IsValue (some c :: sourceOfText w) d) :
    ∃ t, IsValue t d ∧ some c :: r = t ++ r' :=
  ⟨_, hvalue, by rw [word?_eq_some_iff.1 h, List.cons_append]⟩

/-- brackets around what has been read -/
theorem bracketed {opening closing : Char} {t r r' : Source} {d : Document}
    (hvalue : IsValue (some opening :: (t ++ [some closing])) d)
    (hr : r = t ++ some closing :: r') :
    ∃ u, IsValue u d ∧ some opening :: r = u ++ r' := by
  refine ⟨_, hvalue, ?_⟩
  rw [hr, List.cons_append, List.append_assoc, List.singleton_append]

theorem array (h : Sound fuel) {r r' : Source} {ds : List Document}
    (hread : Document.elements fuel (skipBlanks r) = some (ds, r')) :
    ∃ t, IsValue t (.array ds) ∧ some '[' :: r = t ++ r' := by
  obtain ⟨t, ht, hrest⟩ := h.elements _ _ _ hread
  obtain ⟨b, hb, hr⟩ := exists_blanks r
  rw [hrest, ← List.append_assoc] at hr
  exact bracketed (.array (ht.append hb)) hr

theorem object (h : Sound fuel) {r r' : Source} {ms : List (Option String × Document)}
    (hread : Document.members fuel (skipBlanks r) = some (ms, r')) :
    ∃ t, IsValue t (.object ms) ∧ some '\x7b' :: r = t ++ r' := by
  obtain ⟨t, ht, hrest⟩ := h.members _ _ _ hread
  obtain ⟨b, hb, hr⟩ := exists_blanks r
  rw [hrest, ← List.append_assoc] at hr
  exact bracketed (.object (ht.append hb)) hr

theorem emptyArray {r r' : Source} (h : skipBlanks r = some ']' :: r') :
    ∃ t, IsValue t (.array []) ∧ some '[' :: r = t ++ r' := by
  obtain ⟨b, hb, hr⟩ := exists_blanks r
  rw [h] at hr
  exact bracketed (.emptyArray hb) hr

theorem emptyObject {r r' : Source} (h : skipBlanks r = some '\x7d' :: r') :
    ∃ t, IsValue t (.object []) ∧ some '\x7b' :: r = t ++ r' := by
  obtain ⟨b, hb, hr⟩ := exists_blanks r
  rw [h] at hr
  exact bracketed (.emptyObject hb) hr

/-- the value behind the blanks, by its first character -/
theorem element_succ (h : Sound fuel) (r : Source) (d : Document) (r' : Source)
    (hread : Document.element (fuel + 1) r = some (d, r')) :
    ∃ b t, IsBlanks b ∧ IsValue t d ∧ r = b ++ (t ++ r') := by
  rw [Document.element] at hread
  split at hread
  case h_1 r₁ hskip =>
    obtain ⟨r₂, hword, heq⟩ := Option.bind_eq_some_iff.1 hread
    cases heq
    exact of_skipBlanks hskip (word hword .null)
  case h_2 r₁ hskip =>
    obtain ⟨r₂, hword, heq⟩ := Option.bind_eq_some_iff.1 hread
    cases heq
    exact of_skipBlanks hskip (word hword .true)
  case h_3 r₁ hskip =>
    obtain ⟨r₂, hword, heq⟩ := Option.bind_eq_some_iff.1 hread
    cases heq
    exact of_skipBlanks hskip (word hword .false)
  case h_4 r₁ hskip =>
    obtain ⟨⟨s, r₂⟩, hs, heq⟩ := Option.bind_eq_some_iff.1 hread
    cases heq
    obtain ⟨t, ht, rfl⟩ := stringTail_eq_some_iff.1 hs
    exact of_skipBlanks hskip ⟨_, .string ht, rfl⟩
  case h_5 r₁ hskip =>
    obtain ⟨t, n, ht, rfl, rfl⟩ := exists_isNumeral hread
    exact of_skipBlanks hskip ⟨_, .negative ht, rfl⟩
  case h_6 r₁ hskip =>
    refine of_skipBlanks hskip ?_
    split at hread
    · rename_i r₂ hclose
      cases hread
      exact emptyArray hclose
    · obtain ⟨⟨ds, r₂⟩, hds, heq⟩ := Option.bind_eq_some_iff.1 hread
      cases heq
      exact h.array hds
  case h_7 r₁ hskip =>
    refine of_skipBlanks hskip ?_
    split at hread
    · rename_i r₂ hclose
      cases hread
      exact emptyObject hclose
    · obtain ⟨⟨ms, r₂⟩, hms, heq⟩ := Option.bind_eq_some_iff.1 hread
      cases heq
      exact h.object hms
  case h_8 =>
    obtain ⟨t, n, ht, rfl, hr⟩ := exists_isNumeral hread
    exact of_skipBlanks rfl ⟨t, .natural ht, hr⟩

/-- a value with the blanks around it -/
theorem exists_isElement (h : Sound fuel) {r r₁ r₂ : Source} {d : Document} {c : Option Char}
    (hread : Document.element fuel r = some (d, r₁)) (hskip : skipBlanks r₁ = c :: r₂) :
    ∃ t, IsElement t d ∧ r = t ++ c :: r₂ := by
  obtain ⟨b, t, hb, ht, rfl⟩ := h.element _ _ _ hread
  obtain ⟨b', hb', hr₁⟩ := exists_blanks r₁
  refine ⟨b ++ (t ++ b'), .padded hb ht hb', ?_⟩
  rw [List.append_assoc, List.append_assoc, ← hskip, ← hr₁]

theorem elements_succ (h : Sound fuel) (r : Source) (ds : List Document) (r' : Source)
    (hread : Document.elements (fuel + 1) r = some (ds, r')) :
    ∃ t, IsElements t ds ∧ r = t ++ some ']' :: r' := by
  rw [Document.elements] at hread
  obtain ⟨⟨d, r₁⟩, hd, hread⟩ := Option.bind_eq_some_iff.1 hread
  dsimp only at hread
  split at hread
  · rename_i r₂ hcomma
    obtain ⟨⟨ds', r₃⟩, hds, heq⟩ := Option.bind_eq_some_iff.1 hread
    cases heq
    obtain ⟨t, ht, rfl⟩ := h.exists_isElement hd hcomma
    obtain ⟨u, hu, rfl⟩ := h.elements _ _ _ hds
    exact ⟨t ++ some ',' :: u, .more ht hu, by rw [List.append_assoc, List.cons_append]⟩
  · rename_i r₂ hclose
    cases hread
    obtain ⟨t, ht, rfl⟩ := h.exists_isElement hd hclose
    exact ⟨t, .last ht, rfl⟩
  · cases hread

/-- a name, a colon and an element -/
theorem exists_isMember (h : Sound fuel) {r r₁ r₂ r₃ r₄ r₅ : Source} {name : Option String}
    {d : Document} {c : Option Char} (hquote : skipBlanks r = some '"' :: r₁)
    (hname : stringTail r₁ = some (name, r₂)) (hcolon : skipBlanks r₂ = some ':' :: r₃)
    (hread : Document.element fuel r₃ = some (d, r₄)) (hskip : skipBlanks r₄ = c :: r₅) :
    ∃ t, IsMember t (name, d) ∧ r = t ++ c :: r₅ := by
  obtain ⟨b, hb, hr⟩ := exists_blanks r
  obtain ⟨q, hq, rfl⟩ := stringTail_eq_some_iff.1 hname
  obtain ⟨b', hb', hr₂⟩ := exists_blanks r₂
  obtain ⟨t, ht, rfl⟩ := h.exists_isElement hread hskip
  refine ⟨b ++ (some '"' :: q ++ (b' ++ some ':' :: t)), .named hb hq hb' ht, ?_⟩
  rw [hquote] at hr
  rw [hcolon] at hr₂
  rw [hr, hr₂]
  simp only [List.append_assoc, List.cons_append]

theorem members_succ (h : Sound fuel) (r : Source) (ms : List (Option String × Document))
    (r' : Source) (hread : Document.members (fuel + 1) r = some (ms, r')) :
    ∃ t, IsMembers t ms ∧ r = t ++ some '\x7d' :: r' := by
  rw [Document.members] at hread
  split at hread
  · rename_i r₁ hquote
    obtain ⟨⟨name, r₂⟩, hname, hread⟩ := Option.bind_eq_some_iff.1 hread
    dsimp only at hread
    split at hread
    · rename_i r₃ hcolon
      obtain ⟨⟨d, r₄⟩, hd, hread⟩ := Option.bind_eq_some_iff.1 hread
      dsimp only at hread
      split at hread
      · rename_i r₅ hcomma
        obtain ⟨⟨ms', r₆⟩, hms, heq⟩ := Option.bind_eq_some_iff.1 hread
        cases heq
        obtain ⟨t, ht, rfl⟩ := h.exists_isMember hquote hname hcolon hd hcomma
        obtain ⟨u, hu, rfl⟩ := h.members _ _ _ hms
        exact ⟨t ++ some ',' :: u, .more ht hu, by rw [List.append_assoc, List.cons_append]⟩
      · rename_i r₅ hclose
        cases hread
        obtain ⟨t, ht, rfl⟩ := h.exists_isMember hquote hname hcolon hd hclose
        exact ⟨t, .last ht, rfl⟩
      · cases hread
    · cases hread
  · cases hread

theorem succ (h : Sound fuel) : Sound (fuel + 1) :=
  ⟨h.element_succ, h.elements_succ, h.members_succ⟩

end Sound

theorem sound (fuel : Nat) : Sound fuel := by
  induction fuel with
  | zero => exact .zero
  | succ fuel ih => exact ih.succ

/-- what is read as a whole text is one element -/
theorem isElement_of_parse {r : Source} {d : Document} (h : parse r = some d) :
    IsElement r d := by
  unfold parse at h
  split at h
  · rename_i d' r' hread
    split at h
    · rename_i hblank
      cases h
      obtain ⟨b, t, hb, ht, rfl⟩ := (sound _).element _ _ _ hread
      exact .padded hb ht (skipBlanks_eq_nil_iff.1 hblank)
    · cases h
  · cases h

end LedgerClient.Document
