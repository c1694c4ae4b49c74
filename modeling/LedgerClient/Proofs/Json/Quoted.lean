import LedgerClient.Proofs.Json.Grammar
/-!
# Strings, read as the grammar has them

A string brings its own end, so its reader takes exactly the strings of the grammar, whatever
follows: the first quote that is not escaped is the last character of the string.

* `unit?_eq_some_iff`       four hexadecimal digits;
* `exists_isPieces`         what is read up to the quote are pieces of the grammar;
* `pieces_append`           and such pieces are read, whatever they hold;
* `stringTail_eq_some_iff`  exactly what is read as a string.
-/

namespace LedgerClient.Document

theorem bind_piece (x : Option (List Piece × Source)) (p : Piece) :
    (do let (ps, r) ← x; return (p :: ps, r)) = x.map fun q => (p :: q.1, q.2) := by
  cases x <;> rfl

theorem unit?_eq_some_iff {r r' : Source} {n : Nat} : unit? r = some (n, r') ↔
    ∃ cs vs, cs.length = 4 ∧ List.Forall₂ Text.IsHexDigit cs vs ∧ Text.hexValue vs = n ∧
      r = cs.map some ++ r' := by
  constructor
  · intro h
    unfold unit? at h
    split at h
    · rename_i a b c d r
      obtain ⟨x, hx, heq⟩ := Option.bind_eq_some_iff.1 h
      cases heq
      obtain ⟨vs, -, hvs, hvalue⟩ := Text.numeral?_eq_some_iff.1 hx
      exact ⟨[a, b, c, d], vs, rfl, hvs, hvalue, rfl⟩
    · cases h
  · rintro ⟨cs, vs, hlength, hvs, rfl, rfl⟩
    match cs, hlength with
    | [a, b, c, d], _ =>
      have hread : Text.numeral? 16 [a, b, c, d] = some (Text.hexValue vs) := by
        refine Text.numeral?_eq_some_iff.2 ⟨vs, ?_, hvs, rfl⟩
        rintro rfl
        cases hvs
      show (Text.numeral? 16 [a, b, c, d]).bind (fun n => some (n, r')) = _
      rw [hread, Option.bind_some]

/-- one more piece leaves what the pieces behind it leave -/
theorem exists_next {x : Option (List Piece × Source)} {r : Source} {p : Piece} {ps : List Piece}
    (h : (do let (ps, r) ← x; return (p :: ps, r)) = some (ps, r)) :
    ∃ ps', x = some (ps', r) ∧ ps = p :: ps' := by
  rw [bind_piece] at h
  obtain ⟨⟨ps', r'⟩, hread, heq⟩ := Option.map_eq_some_iff.1 h
  cases heq
  exact ⟨ps', hread, rfl⟩

theorem exists_isPieces_cons {t u r' : Source} {p : Piece} {ps : List Piece} (ht : IsPiece t p)
    (hu : ∃ v, IsPieces v ps ∧ u = v ++ some '"' :: r') :
    ∃ v, IsPieces v (p :: ps) ∧ t ++ u = v ++ some '"' :: r' := by
  obtain ⟨v, hv, rfl⟩ := hu
  exact ⟨t ++ v, .cons ht hv, (List.append_assoc _ _ _).symm⟩

/-- what is read between quotes are pieces of the grammar -/
theorem exists_isPieces (fuel : Nat) {r r' : Source} {ps : List Piece}
    (h : pieces fuel r = some (ps, r')) : ∃ t, IsPieces t ps ∧ r = t ++ some '"' :: r' := by
  induction fuel generalizing r ps with
  | zero => cases h
  | succ fuel ih =>
    rcases r with _ | ⟨_ | c, r⟩
    · cases h
    · obtain ⟨_, hread, rfl⟩ := exists_next h
      exact exists_isPieces_cons .illFormed (ih hread)
    · rw [pieces] at h
      split at h
      · rename_i hquote
        cases h
        rw [hquote]
        exact ⟨[], .nil, rfl⟩
      rename_i hquote
      split at h
      -- an escape: a letter, or a unit of four digits
      · rename_i hslash
        rw [hslash]
        dsimp only at h
        split at h
        case h_9 =>
          obtain ⟨⟨n, r₁⟩, hunit, h⟩ := Option.bind_eq_some_iff.1 h
          obtain ⟨_, hread, rfl⟩ := exists_next h
          obtain ⟨cs, vs, hlength, hvs, rfl, rfl⟩ := unit?_eq_some_iff.1 hunit
          exact exists_isPieces_cons (.unit hlength hvs) (ih hread)
        case h_10 => cases h
        all_goals
          obtain ⟨_, hread, rfl⟩ := exists_next h
          exact exists_isPieces_cons (.short (by simp [shortEscapes])) (ih hread)
      rename_i hslash
      split at h
      · cases h
      · rename_i hcontrol
        obtain ⟨_, hread, rfl⟩ := exists_next h
        exact exists_isPieces_cons (.char hquote hslash (Nat.le_of_not_lt hcontrol)) (ih hread)

theorem pieces_append_piece {t : Source} {p : Piece} (ht : IsPiece t p) (fuel : Nat) (r : Source) :
    pieces (fuel + 1) (t ++ r) = (pieces fuel r).map fun q => (p :: q.1, q.2) := by
  cases ht with
  | illFormed => exact bind_piece _ _
  | char hquote hslash hcontrol =>
    rw [List.singleton_append, pieces, if_neg hquote, if_neg hslash,
      if_neg (Nat.not_lt_of_le hcontrol)]
    exact bind_piece _ _
  | short hmem =>
    simp only [shortEscapes, List.mem_cons, Prod.mk.injEq, List.not_mem_nil, or_false] at hmem
    rcases hmem with ⟨rfl, rfl⟩ | ⟨rfl, rfl⟩ | ⟨rfl, rfl⟩ | ⟨rfl, rfl⟩ | ⟨rfl, rfl⟩ | ⟨rfl, rfl⟩ |
      ⟨rfl, rfl⟩ | ⟨rfl, rfl⟩ <;> exact bind_piece _ _
  | @unit cs vs hlength hvs =>
    have hunit : unit? (cs.map some ++ r) = some (Text.hexValue vs, r) :=
      unit?_eq_some_iff.2 ⟨cs, vs, hlength, hvs, rfl, rfl⟩
    show ((unit? (cs.map some ++ r)).bind fun u => (pieces fuel u.2).bind fun q =>
      some (unitPiece u.1 :: q.1, q.2)) = _
    rw [hunit, Option.bind_some]
    exact bind_piece _ _

theorem IsPiece.length_pos {t : Source} {p : Piece} (h : IsPiece t p) : 0 < t.length := by
  cases h <;> exact Nat.zero_lt_succ _

theorem pieces_append {t : Source} {ps : List Piece} (ht : IsPieces t ps) {fuel : Nat}
    (hfuel : t.length < fuel) (r : Source) :
    pieces fuel (t ++ some '"' :: r) = some (ps, r) := by
  induction ht generalizing fuel with
  | nil =>
    cases fuel with
    | zero => exact absurd hfuel (Nat.not_lt_zero _)
    | succ fuel => rfl
  | @cons t u p ps ht _ ih =>
    rw [List.length_append] at hfuel
    have hpos := ht.length_pos
    cases fuel with
    | zero => exact absurd hfuel (Nat.not_lt_zero _)
    | succ fuel =>
      have hrest : pieces fuel (u ++ some '"' :: r) = some (ps, r) := ih (by omega)
      rw [List.append_assoc, pieces_append_piece ht, hrest]
      rfl

/-- exactly what is read as a string, its opening quote apart -/
theorem stringTail_eq_some_iff {r r' : Source} {s : Option String} :
    stringTail r = some (s, r') ↔ ∃ t, IsString (some '"' :: t) s ∧ r = t ++ r' := by
  constructor
  · intro h
    obtain ⟨⟨ps, r₁⟩, hread, heq⟩ := Option.bind_eq_some_iff.1 h
    cases heq
    obtain ⟨t, ht, rfl⟩ := exists_isPieces _ hread
    refine ⟨t ++ [some '"'], .quoted ht, ?_⟩
    rw [List.append_assoc]
    rfl
  · rintro ⟨_, h, rfl⟩
    cases h with
    | @quoted t ps ht =>
      have hread : pieces ((t ++ some '"' :: r').length + 1) (t ++ some '"' :: r') =
          some (ps, r') := by
        refine pieces_append ht ?_ r'
        rw [List.length_append]
        omega
      rw [List.append_assoc]
      show (pieces ((t ++ some '"' :: r').length + 1) (t ++ some '"' :: r')).bind
        (fun p => some ((chars? p.1).map String.ofList, p.2)) = _
      rw [hread, Option.bind_some]

end LedgerClient.Document
