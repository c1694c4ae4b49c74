import LedgerClient.Cipher.Aes
/-!
# Block by block

* `Block.mapAll f b`   `f` on every whole block of `b`; a shorter rest stays as it is.
-/

namespace LedgerClient.Block

/-- `mapAll` with a bound on the number of blocks -/
def mapFrom (f : Block → Block) : (fuel : Nat) → Bytes → Bytes
  | 0, b => b
  | fuel + 1, b =>
    if h : 16 ≤ b.length then
      (f ⟨b.take 16, by simp; omega⟩).bytes ++ mapFrom f fuel (b.drop 16)
    else b

def mapAll (f : Block → Block) (b : Bytes) : Bytes := mapFrom f b.length b

theorem length_mapFrom (f : Block → Block) (fuel : Nat) (b : Bytes) :
    (mapFrom f fuel b).length = b.length := by
  induction fuel generalizing b with
  | zero => rfl
  | succ fuel ih =>
    rw [mapFrom]
    split
    · rw [List.length_append, ih, (f _).size, List.length_drop]; omega
    · rfl

@[simp] theorem length_mapAll (f : Block → Block) (b : Bytes) :
    (mapAll f b).length = b.length := length_mapFrom f b.length b

end LedgerClient.Block
