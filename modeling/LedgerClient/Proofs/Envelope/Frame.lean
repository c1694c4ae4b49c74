import LedgerClient.Envelope.Basic
import LedgerClient.Proofs.Text.Base58
/-!
# The frame of an envelope

Which texts have the five fields of an envelope, and what stops the others. A framed text is put
together again from its two segments, and no field of it holds a separator; so a chain whose id
holds one has no framed texts at all.

* `Framed`, `Misframed`              the texts in order, and the first fault of the others;
* `framed_or_misframed`              every text is one or the other;
* `frame`, `framed_iff`              the text of two segments; framed texts are of this form.
-/

namespace LedgerClient

namespace Envelope

variable {c : Chain} {k : EnvelopeKind} {s p g : String}

/-- the pieces of a text between separators -/
def fieldsOf (s : String) : List String := (Text.fields separator s.toList).map String.ofList

/-- a text in order, with its payload and signature segments -/
def Framed (c : Chain) (k : EnvelopeKind) (s p g : String) : Prop :=
  fieldsOf s = [k.mark c, version, p, signerCount, g]

/-- the first thing wrong with the frame of a text -/
inductive Misframed (c : Chain) (k : EnvelopeKind) (s : String) : FrameFault → Prop
  | fieldCount : (fieldsOf s).length ≠ 5 → Misframed c k s (.fieldCount (fieldsOf s).length)
  | mark {m v p n g : String} :
    fieldsOf s = [m, v, p, n, g] → m ≠ k.mark c → Misframed c k s (.mark m (k.mark c))
  | version {v p n g : String} :
    fieldsOf s = [k.mark c, v, p, n, g] → v ≠ version → Misframed c k s (.version v)
  | signerCount {p n g : String} :
    fieldsOf s = [k.mark c, Envelope.version, p, n, g] → n ≠ signerCount →
      Misframed c k s (.signerCount n)

theorem segments_of_framed (h : Framed c k s p g) : segments c k s = .ok (p, g) := by
  unfold segments
  rw [show (Text.fields separator s.toList).map String.ofList = _ from h]
  simp

theorem segments_of_misframed {f : FrameFault} (h : Misframed c k s f) :
    segments c k s = .error f := by
  unfold segments
  cases h with
  | fieldCount h =>
    split
    · rename_i e
      exact absurd (congrArg List.length e) h
    · rfl
  | mark h hm =>
    rw [show (Text.fields separator s.toList).map String.ofList = _ from h]
    simp [hm]
  | version h hv =>
    rw [show (Text.fields separator s.toList).map String.ofList = _ from h]
    simp [hv]
  | signerCount h hn =>
    rw [show (Text.fields separator s.toList).map String.ofList = _ from h]
    simp [hn]

theorem framed_or_misframed (c : Chain) (k : EnvelopeKind) (s : String) :
    (∃ p g, Framed c k s p g) ∨ ∃ f, Misframed c k s f := by
  by_cases hl : (fieldsOf s).length = 5
  · match hf : fieldsOf s, hl with
    | [m, v, p, n, g], _ =>
      by_cases hm : m = k.mark c
      · subst hm
        by_cases hv : v = version
        · subst hv
          by_cases hn : n = signerCount
          · subst hn
            exact .inl ⟨p, g, hf⟩
          · exact .inr ⟨_, .signerCount hf hn⟩
        · exact .inr ⟨_, .version hf hv⟩
      · exact .inr ⟨_, .mark hf hm⟩
  · exact .inr ⟨_, .fieldCount hl⟩

/-! ## the text of two segments -/

/-- the text with these segments -/
def frame (c : Chain) (k : EnvelopeKind) (p g : String) : String :=
  String.ofList (Text.joined separator
    [(k.mark c).toList, version.toList, p.toList, signerCount.toList, g.toList])

theorem text_eq_frame (c : Chain) (k : EnvelopeKind) (e : Envelope) :
    text c k e =
      frame c k (Text.Base58.encode e.payload) (Text.Base58.encode (Record.encode e.signature)) :=
  rfl

/-- the framed texts are those put together from segments, none of them with a separator inside -/
theorem framed_iff :
    Framed c k s p g ↔ s = frame c k p g ∧ separator ∉ (k.mark c).toList ∧
      separator ∉ p.toList ∧ separator ∉ g.toList := by
  constructor
  · intro h
    have hl : Text.fields separator s.toList =
        [(k.mark c).toList, version.toList, p.toList, signerCount.toList, g.toList] := by
      have e := congrArg (List.map String.toList) (show List.map _ _ = _ from h)
      rw [List.map_map] at e
      simpa [Function.comp_def] using e
    have hs : s = frame c k p g := by
      rw [frame, ← hl, Text.joined_fields, String.ofList_toList]
    have hmem : ∀ f ∈ [(k.mark c).toList, version.toList, p.toList, signerCount.toList, g.toList],
        separator ∉ f := fun f hf => Text.not_mem_of_mem_fields (hl ▸ hf)
    exact ⟨hs, hmem _ (by simp), hmem _ (by simp), hmem _ (by simp)⟩
  · rintro ⟨rfl, hm, hp, hg⟩
    show List.map _ (Text.fields separator (String.toList (String.ofList _))) = _
    rw [String.toList_ofList, Text.fields_joined (by simp)]
    · simp
    · intro f hf
      simp only [List.mem_cons, List.not_mem_nil, or_false] at hf
      rcases hf with rfl | rfl | rfl | rfl | rfl
      · exact hm
      · decide
      · exact hp
      · decide
      · exact hg

theorem separator_mem_mark_iff : separator ∈ (k.mark c).toList ↔ separator ∈ c.id.toList := by
  have hk : separator ∉ k.tag.toList := by cases k <;> decide
  rw [EnvelopeKind.mark, String.toList_append, List.mem_append]
  exact or_iff_left hk

theorem separator_not_mem_encode (b : Bytes) : separator ∉ (Text.Base58.encode b).toList :=
  fun h => absurd (Text.Base58.mem_alphabet_of_mem_encode h) (by decide)

/-- segments that hold bytes are framed on every chain whose id has no separator -/
theorem framed_encode_iff {a b : Bytes} :
    Framed c k s (Text.Base58.encode a) (Text.Base58.encode b) ↔
      separator ∉ c.id.toList ∧ s = frame c k (Text.Base58.encode a) (Text.Base58.encode b) := by
  rw [framed_iff, separator_mem_mark_iff]
  constructor
  · rintro ⟨hs, hc, -, -⟩
    exact ⟨hc, hs⟩
  · rintro ⟨hc, hs⟩
    exact ⟨hs, hc, separator_not_mem_encode a, separator_not_mem_encode b⟩

end Envelope

end LedgerClient
