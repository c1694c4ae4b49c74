import LedgerClient.Text.Blank
/-!
# Trimmed texts

* `Trimmed cs t`   `t` is `cs` without the blanks at both ends;
* `trimmed_trimChars`   that is what trimming gives;
* `trimmed_iff`    and nothing else is.
-/

namespace LedgerClient.Text

/-- `cs` is `t` between blanks, and `t` neither begins nor ends with one -/
structure Trimmed (cs t : List Char) : Prop where
  between : ∃ lead trail, cs = lead ++ t ++ trail ∧ ∀ c ∈ lead ++ trail, isBlank c = true
  head_eq : ∀ c, t.head? = some c → isBlank c = false
  last_eq : ∀ c, t.getLast? = some c → isBlank c = false

theorem isBlank_of_mem_takeWhile {c : Char} {cs : List Char} (h : c ∈ cs.takeWhile isBlank) :
    isBlank c = true :=
  List.all_eq_true.1 List.all_takeWhile c h

theorem isBlank_of_head?_dropWhile (cs : List Char) {c : Char}
    (h : (cs.dropWhile isBlank).head? = some c) : isBlank c = false := by
  have hd := List.head?_dropWhile_not isBlank cs
  rw [h] at hd
  simpa using hd

theorem trimmed_trimChars (cs : List Char) : Trimmed cs (trimChars cs) := by
  -- the front is dropped first, then the end of the rest
  have hfront : cs.takeWhile isBlank ++ cs.dropWhile isBlank = cs := List.takeWhile_append_dropWhile
  have hrest : trimChars cs ++ ((cs.dropWhile isBlank).reverse.takeWhile isBlank).reverse =
      cs.dropWhile isBlank := by
    show ((cs.dropWhile isBlank).reverse.dropWhile isBlank).reverse ++ _ = _
    rw [← List.reverse_append, List.takeWhile_append_dropWhile, List.reverse_reverse]
  refine ⟨⟨cs.takeWhile isBlank, ((cs.dropWhile isBlank).reverse.takeWhile isBlank).reverse, ?_, ?_⟩,
    ?_, ?_⟩
  · rw [List.append_assoc, hrest, hfront]
  · intro c hc
    rcases List.mem_append.1 hc with h | h
    · exact isBlank_of_mem_takeWhile h
    · exact isBlank_of_mem_takeWhile (List.mem_reverse.1 h)
  · intro c hc
    refine isBlank_of_head?_dropWhile cs ?_
    rw [← hrest, List.head?_append, hc]
    rfl
  · intro c hc
    refine isBlank_of_head?_dropWhile (cs.dropWhile isBlank).reverse ?_
    rw [← List.getLast?_reverse]
    exact hc

theorem dropWhile_append_of_blank {lead t : List Char} (hlead : ∀ c ∈ lead, isBlank c = true)
    (hhead : ∀ c, t.head? = some c → isBlank c = false) : (lead ++ t).dropWhile isBlank = t := by
  rw [List.dropWhile_append_of_pos hlead]
  cases t with
  | nil => rfl
  | cons c r => exact List.dropWhile_cons_of_neg (by rw [hhead c rfl]; exact Bool.false_ne_true)

theorem Trimmed.eq_trimChars {cs t : List Char} (h : Trimmed cs t) : t = trimChars cs := by
  obtain ⟨⟨lead, trail, rfl, hblank⟩, hhead, hlast⟩ := h
  have hlead : ∀ c ∈ lead, isBlank c = true := fun c hc => hblank c (List.mem_append_left _ hc)
  have htrail : ∀ c ∈ trail.reverse, isBlank c = true := fun c hc =>
    hblank c (List.mem_append_right _ (List.mem_reverse.1 hc))
  have hend : ∀ c, t.reverse.head? = some c → isBlank c = false := fun c hc =>
    hlast c (List.head?_reverse.symm.trans hc)
  unfold trimChars trimStartChars
  rw [List.append_assoc]
  cases t with
  | nil =>
    have hall : (lead ++ trail ++ []).dropWhile isBlank = [] :=
      dropWhile_append_of_blank hblank nofun
    rw [List.append_nil] at hall
    rw [List.nil_append, hall]
    rfl
  | cons c r =>
    have hfront : (lead ++ (c :: r ++ trail)).dropWhile isBlank = c :: r ++ trail :=
      dropWhile_append_of_blank hlead hhead
    rw [hfront, List.reverse_append, dropWhile_append_of_blank htrail hend, List.reverse_reverse]

theorem trimmed_iff {cs t : List Char} : Trimmed cs t ↔ t = trimChars cs := by
  constructor
  · exact Trimmed.eq_trimChars
  · rintro rfl
    exact trimmed_trimChars cs

/-- a text without blanks is trimmed already -/
theorem trimmed_self {cs : List Char} (h : ∀ c ∈ cs, isBlank c = false) : Trimmed cs cs where
  between := ⟨[], [], (List.append_nil cs).symm, fun _ hc => absurd hc List.not_mem_nil⟩
  head_eq c hc := h c (List.mem_of_mem_head? hc)
  last_eq c hc := h c (List.mem_of_getLast? hc)

end LedgerClient.Text
