import LedgerClient.Proofs.Digits
import LedgerClient.Proofs.Keystore.Formats
/-!
# What becomes of any blob

`decrypt` is given whatever lies in a key file. A blob with the tag is tried as a sealed one; if it
fails as that, its length decides whether it is tried as a plain one too. So no plain blob is lost
to the tag, and the error of a sealed blob is seen only where no plain blob can be meant. Nothing
is assumed about the ciphers but the length of what they give.

* `KeyBlob.unframed_eq_ok_iff`   a frame is magic, length and secret, whatever follows;
* `KeyBlob.Opening`              the three ways that `decrypt` takes;
* `KeyBlob.decryptSliced`        `decrypt` with its parts taken out by position, or `none` when a
  position is out of range;
* `KeyBlob.Outcome`              what is promised about the answer for a blob;
* `KeyBlob.decrypt_outcome`      the promise is kept for every blob, and no position is ever out of
  range.
-/

namespace LedgerClient

/-! ## parts by position -/

namespace Bytes

variable {b : Bytes} {i j : Nat}

/-- the bytes from position `i` up to position `j`, or `none` when there are not so many -/
def slice? (b : Bytes) (i j : Nat) : Option Bytes :=
  if i ≤ j ∧ j ≤ b.length then some ((b.drop i).take (j - i)) else none

theorem slice?_of_le (hi : i ≤ j) (hj : j ≤ b.length) :
    b.slice? i j = some ((b.drop i).take (j - i)) :=
  if_pos ⟨hi, hj⟩

theorem slice?_zero (hj : j ≤ b.length) : b.slice? 0 j = some (b.take j) :=
  slice?_of_le (Nat.zero_le j) hj

theorem slice?_length (hi : i ≤ b.length) : b.slice? i b.length = some (b.drop i) := by
  have hlength : (b.drop i).length ≤ b.length - i := Nat.le_of_eq List.length_drop
  rw [slice?_of_le hi (Nat.le_refl _), List.take_of_length_le hlength]

end Bytes

namespace Block

/-- `f` on the blocks of `b`, each of which has to be a whole one -/
def mapSliced (f : Block → Block) (b : Bytes) : Option Bytes :=
  ((Bytes.pieces 16 b).mapM (Octets.ofBytes? 16)).map fun blocks => blocks.flatMap fun x => (f x).bytes

theorem mapM_piecesFrom (f : Block → Block) {fuel : Nat} {b : Bytes} (haligned : b.length % 16 = 0)
    (hfuel : b.length ≤ fuel) :
    ((Bytes.piecesFrom 16 fuel b).mapM (Octets.ofBytes? 16)).map
      (fun blocks => blocks.flatMap fun x => (f x).bytes) = some (mapFrom f fuel b) := by
  induction fuel generalizing b with
  | zero =>
    obtain rfl : b = [] := List.length_eq_zero_iff.1 (Nat.le_zero.1 hfuel)
    rfl
  | succ fuel ih =>
    cases b with
    | nil => rfl
    | cons y r =>
      have hlong : 16 ≤ (y :: r).length :=
        Nat.le_of_dvd (Nat.succ_pos _) (Nat.dvd_of_mod_eq_zero haligned)
      have hblock : ((y :: r).take 16).length = 16 := by
        rw [List.length_take, Nat.min_eq_left hlong]
      have hrest : ((y :: r).drop 16).length = (y :: r).length - 16 := List.length_drop
      have hmap := ih (b := (y :: r).drop 16) (by omega) (by omega)
      obtain ⟨blocks, hblocks, hflat⟩ := Option.map_eq_some_iff.1 hmap
      have hfirst : Octets.ofBytes? 16 ((y :: r).take 16) = some ⟨(y :: r).take 16, hblock⟩ :=
        Octets.ofBytes?_eq_some_iff.2 rfl
      have hfrom : mapFrom f (fuel + 1) (y :: r) =
          (f ⟨(y :: r).take 16, hblock⟩).bytes ++ mapFrom f fuel ((y :: r).drop 16) :=
        dif_pos hlong
      rw [Bytes.piecesFrom, List.mapM_cons, hfirst, hblocks, hfrom, ← hflat]
      · rfl
      · exact List.cons_ne_nil y r

theorem mapSliced_eq (f : Block → Block) {b : Bytes} (h : b.length % 16 = 0) :
    mapSliced f b = some (mapAll f b) :=
  mapM_piecesFrom f h (Nat.le_refl _)

end Block

namespace KeyBlob

variable {P : Primitives} {secret b blob : Bytes} {password : String} {keyword : Option String}
  {e : BlobError}

/-! ## frames -/

/-- what a frame that is read holds: the magic, a length, and at least so many bytes -/
theorem parts_of_unframed (h : unframed b = .ok secret) :
    b.take 4 = magic ∧ 8 ≤ b.length ∧
      Bytes.toNat ((b.drop 4).take 4) ≤ (b.drop 8).length ∧
        secret = (b.drop 8).take (Bytes.toNat ((b.drop 4).take 4)) := by
  unfold unframed at h
  split at h
  · cases h
  · rename_i hmagic
    split at h
    · cases h
    · rename_i hheader
      dsimp only at h
      split at h
      · cases h
      · rename_i hbody
        cases h
        exact ⟨not_not.1 hmagic, Nat.not_lt.1 hheader, Nat.not_lt.1 hbody, rfl⟩

/-- a frame is read as the secret it starts with -/
theorem unframed_eq_ok_iff :
    unframed b = .ok secret ↔ ∃ f rest, framed secret = .ok f ∧ b = f ++ rest := by
  constructor
  · intro h
    obtain ⟨hmagic, hheader, hbody, hsecret⟩ := parts_of_unframed h
    have hfour : ((b.drop 4).take 4).length = 4 := by
      rw [List.length_take, List.length_drop]
      omega
    have hsize : secret.length = Bytes.toNat ((b.drop 4).take 4) := by
      rw [hsecret, List.length_take, Nat.min_eq_left hbody]
    have hlt := Bytes.toNat_lt ((b.drop 4).take 4)
    rw [hfour, ← hsize] at hlt
    refine ⟨_, (b.drop 8).drop secret.length, framed_eq_ok_iff.2 ⟨hlt, rfl⟩, ?_⟩
    calc b = b.take 4 ++ b.drop 4 := (List.take_append_drop 4 b).symm
      _ = magic ++ ((b.drop 4).take 4 ++ (b.drop 4).drop 4) := by
        rw [hmagic, List.take_append_drop]
      _ = magic ++ (Bytes.fixed 4 secret.length ++ b.drop 8) := by
        rw [hsize, Bytes.fixed_toNat hfour, List.drop_drop]
      _ = magic ++ (Bytes.fixed 4 secret.length ++ (secret ++ (b.drop 8).drop secret.length)) := by
        rw [hsize, hsecret, List.take_append_drop]
      _ = magic ++ Bytes.fixed 4 secret.length ++ secret ++ (b.drop 8).drop secret.length := by
        simp only [List.append_assoc]
  · rintro ⟨f, rest, hf, rfl⟩
    exact unframed_append hf rest

/-- a secret is eight bytes shorter than its frame, or more -/
theorem length_of_unframed (h : unframed b = .ok secret) : secret.length + 8 ≤ b.length := by
  obtain ⟨f, rest, hf, rfl⟩ := unframed_eq_ok_iff.1 h
  rw [List.length_append, length_of_framed hf]
  omega

theorem unframed_eq_error (h : unframed b = .error e) : e = .magic ∨ e = .tooShort := by
  unfold unframed at h
  split at h
  · cases h
    exact .inl rfl
  · split at h
    · cases h
      exact .inr rfl
    · dsimp only at h
      split at h
      · cases h
        exact .inr rfl
      · cases h

/-! ## either format -/

theorem length_of_decryptSealed (h : decryptSealed P blob password keyword = .ok secret) :
    secret.length + 8 ≤ blob.length := by
  unfold decryptSealed at h
  dsimp only at h
  split at h
  · rename_i m hm
    have hlocked := P.unlock_length _ _ _ _ _ hm
    have hsecret := length_of_unframed h
    rw [List.length_drop, List.length_drop] at hlocked
    omega
  · cases h

theorem decryptSealed_eq_error (h : decryptSealed P blob password keyword = .error e) :
    e = .notAuthentic ∨ e = .magic ∨ e = .tooShort := by
  unfold decryptSealed at h
  dsimp only at h
  split at h
  · exact .inr (unframed_eq_error h)
  · cases h
    exact .inl rfl

theorem length_of_decryptPlain (h : decryptPlain P blob password keyword = .ok secret) :
    secret.length + 8 ≤ blob.length := by
  unfold decryptPlain at h
  split at h
  · cases h
  · split at h
    · cases h
    · have hsecret := length_of_unframed h
      rwa [Block.length_mapAll] at hsecret

theorem decryptPlain_nil : decryptPlain P [] password keyword = .error .empty := rfl

theorem decryptPlain_of_not_aligned (hne : blob ≠ []) (h : blob.length % 16 ≠ 0) :
    decryptPlain P blob password keyword = .error (.notAligned blob.length) := by
  rw [decryptPlain, if_neg hne]
  exact if_pos h

theorem decryptPlain_of_aligned (hne : blob ≠ []) (h : blob.length % 16 = 0) :
    decryptPlain P blob password keyword =
      unframed (Block.mapAll (P.decryptBlock (plainKey P password keyword)) blob) := by
  rw [decryptPlain, if_neg hne]
  exact if_neg (not_not.2 h)

/-- an error of the plain format is told by the length of the blob, up to the frame's own -/
theorem decryptPlain_eq_error (h : decryptPlain P blob password keyword = .error e) :
    blob = [] ∧ e = .empty ∨ blob ≠ [] ∧ blob.length % 16 ≠ 0 ∧ e = .notAligned blob.length ∨
      blob ≠ [] ∧ blob.length % 16 = 0 ∧ (e = .magic ∨ e = .tooShort) := by
  by_cases hnil : blob = []
  · subst hnil
    cases h
    exact .inl ⟨rfl, rfl⟩
  · by_cases haligned : blob.length % 16 = 0
    · rw [decryptPlain_of_aligned hnil haligned] at h
      exact .inr (.inr ⟨hnil, haligned, unframed_eq_error h⟩)
    · rw [decryptPlain_of_not_aligned hnil haligned] at h
      cases h
      exact .inr (.inl ⟨hnil, haligned, rfl⟩)

theorem decryptPlain_eq_empty_iff :
    decryptPlain P blob password keyword = .error .empty ↔ blob = [] := by
  constructor
  · intro h
    rcases decryptPlain_eq_error h with ⟨hnil, -⟩ | ⟨-, -, he⟩ | ⟨-, -, he | he⟩
    · exact hnil
    all_goals cases he
  · rintro rfl
    exact decryptPlain_nil

theorem decryptPlain_eq_notAligned_iff {n : Nat} :
    decryptPlain P blob password keyword = .error (.notAligned n) ↔
      n = blob.length ∧ blob ≠ [] ∧ blob.length % 16 ≠ 0 := by
  constructor
  · intro h
    rcases decryptPlain_eq_error h with ⟨-, he⟩ | ⟨hne, haligned, he⟩ | ⟨-, -, he | he⟩
    · cases he
    · exact ⟨BlobError.notAligned.inj he, hne, haligned⟩
    all_goals cases he
  · rintro ⟨rfl, hne, haligned⟩
    exact decryptPlain_of_not_aligned hne haligned

theorem ne_nil_of_isSealed (h : isSealed blob = true) : blob ≠ [] := by
  rintro rfl
  cases h

theorem le_length_of_isSealed (h : isSealed blob = true) : 32 ≤ blob.length :=
  of_decide_eq_true (Bool.and_eq_true_iff.1 h).1

/-- how the answer for a blob comes about -/
inductive Opening (P : Primitives) (blob : Bytes) (password : String) (keyword : Option String) :
    Except BlobError Bytes → Prop
  | opened {secret : Bytes} :
    isSealed blob = true → decryptSealed P blob password keyword = .ok secret →
      Opening P blob password keyword (.ok secret)
  | broken {e : BlobError} :
    isSealed blob = true → decryptSealed P blob password keyword = .error e →
      blob.length % 16 ≠ 0 → Opening P blob password keyword (.error e)
  | plain :
    (isSealed blob = true →
      (∃ e, decryptSealed P blob password keyword = .error e) ∧ blob.length % 16 = 0) →
      Opening P blob password keyword (decryptPlain P blob password keyword)

theorem opening_decrypt (P : Primitives) (blob : Bytes) (password : String)
    (keyword : Option String) :
    Opening P blob password keyword (decrypt P blob password keyword) := by
  unfold decrypt
  split
  · rename_i hnil
    subst hnil
    exact .plain nofun
  · split
    · rename_i hsealed
      split
      · rename_i secret hopen
        exact .opened hsealed hopen
      · rename_i e hopen
        split
        · rename_i haligned
          exact .broken hsealed hopen haligned
        · rename_i haligned
          exact .plain fun _ => ⟨⟨e, hopen⟩, not_not.1 haligned⟩
    · rename_i hsealed
      exact .plain fun h => absurd h hsealed

/-! ## reading by position -/

/-- `unframed`, with its parts taken out by position -/
def unframedSliced (b : Bytes) : Option (Except BlobError Bytes) :=
  if b.length < magic.length then some (.error .magic)
  else do
    let lead ← b.slice? 0 magic.length
    if lead ≠ magic then return .error .magic
    else if b.length < headerLength then return .error .tooShort
    else
      let declared ← b.slice? magic.length headerLength
      let declared ← Octets.ofBytes? 4 declared
      let body ← b.slice? headerLength b.length
      if body.length < Bytes.toNat declared.bytes then return .error .tooShort
      else
        let secret ← body.slice? 0 (Bytes.toNat declared.bytes)
        return .ok secret

/-- `decryptSealed`, with its parts taken out by position; a nonce has twelve bytes -/
def decryptSealedSliced (P : Primitives) (blob : Bytes) (password : String)
    (keyword : Option String) : Option (Except BlobError Bytes) := do
  let body ← blob.slice? sealedTag.length blob.length
  let nonce ← body.slice? 0 nonceLength
  let nonce ← Octets.ofBytes? 12 nonce
  let locked ← body.slice? nonceLength body.length
  match P.unlock (sealedKey P password keyword) nonce.bytes sealedTag locked with
  | some b => unframedSliced b
  | none => return .error .notAuthentic

/-- `decryptPlain`, block by block -/
def decryptPlainSliced (P : Primitives) (blob : Bytes) (password : String)
    (keyword : Option String) : Option (Except BlobError Bytes) :=
  if blob = [] then some (.error .empty)
  else if blob.length % blockLength ≠ 0 then some (.error (.notAligned blob.length))
  else do
    let b ← Block.mapSliced (P.decryptBlock (plainKey P password keyword)) blob
    unframedSliced b

/-- `decrypt`, with its parts taken out by position -/
def decryptSliced (P : Primitives) (blob : Bytes) (password : String) (keyword : Option String) :
    Option (Except BlobError Bytes) :=
  if blob = [] then some (.error .empty)
  else if isSealed blob then do
    match ← decryptSealedSliced P blob password keyword with
    | .ok secret => return .ok secret
    | .error e =>
      if blob.length % blockLength ≠ 0 then return .error e
      else decryptPlainSliced P blob password keyword
  else decryptPlainSliced P blob password keyword

theorem unframedSliced_eq (b : Bytes) : unframedSliced b = some (unframed b) := by
  unfold unframedSliced unframed
  by_cases hshort : b.length < magic.length
  · have hlead : b.take 4 ≠ magic := by
      intro h
      have hlength := congrArg List.length h
      rw [List.length_take] at hlength
      omega
    rw [if_pos hshort, if_pos hlead]
  · have hfirst : b.slice? 0 magic.length = some (b.take 4) := Bytes.slice?_zero (Nat.not_lt.1 hshort)
    rw [if_neg hshort, hfirst, Option.bind_eq_bind, Option.bind_some]
    by_cases hlead : b.take 4 ≠ magic
    · rw [if_pos hlead, if_pos hlead]
      rfl
    · rw [if_neg hlead, if_neg hlead]
      by_cases hheader : b.length < headerLength
      · rw [if_pos hheader, if_pos hheader]
        rfl
      · have height : headerLength ≤ b.length := Nat.not_lt.1 hheader
        have hfour : ((b.drop 4).take 4).length = 4 := by
          rw [List.length_take, List.length_drop]
          exact Nat.min_eq_left (Nat.le_sub_of_add_le height)
        have hdeclared : b.slice? magic.length headerLength = some ((b.drop 4).take 4) :=
          Bytes.slice?_of_le (by decide) height
        have hcount : Octets.ofBytes? 4 ((b.drop 4).take 4) = some ⟨(b.drop 4).take 4, hfour⟩ :=
          Octets.ofBytes?_eq_some_iff.2 rfl
        simp only [if_neg hheader, hdeclared, hcount, Bytes.slice?_length height,
          Option.bind_eq_bind, Option.bind_some]
        by_cases hbody : (b.drop headerLength).length < Bytes.toNat ((b.drop 4).take 4)
        · rw [if_pos hbody, if_pos hbody]
          rfl
        · rw [if_neg hbody, if_neg hbody, Bytes.slice?_zero (Nat.not_lt.1 hbody)]
          rfl

theorem decryptSealedSliced_eq (h : isSealed blob = true) :
    decryptSealedSliced P blob password keyword =
      some (decryptSealed P blob password keyword) := by
  have hlong := le_length_of_isSealed h
  have htag : sealedTag.length ≤ blob.length := Nat.le_trans (by decide) hlong
  have hbody : (blob.drop sealedTag.length).length = blob.length - 4 := List.length_drop
  have hnonce : nonceLength ≤ (blob.drop sealedTag.length).length := by
    rw [hbody]
    exact Nat.le_sub_of_add_le (Nat.le_trans (by decide) hlong)
  have htwelve : ((blob.drop sealedTag.length).take nonceLength).length = 12 := by
    rw [List.length_take]
    exact Nat.min_eq_left hnonce
  have hoctets : Octets.ofBytes? 12 ((blob.drop sealedTag.length).take nonceLength) =
      some ⟨_, htwelve⟩ :=
    Octets.ofBytes?_eq_some_iff.2 rfl
  unfold decryptSealedSliced decryptSealed
  simp only [Bytes.slice?_length htag, Bytes.slice?_zero hnonce, hoctets,
    Bytes.slice?_length hnonce, Option.bind_eq_bind, Option.bind_some]
  cases P.unlock (sealedKey P password keyword) _ sealedTag _ with
  | some b => exact unframedSliced_eq b
  | none => rfl

theorem decryptPlainSliced_eq (P : Primitives) (blob : Bytes) (password : String)
    (keyword : Option String) :
    decryptPlainSliced P blob password keyword =
      some (decryptPlain P blob password keyword) := by
  unfold decryptPlainSliced decryptPlain
  by_cases hnil : blob = []
  · rw [if_pos hnil, if_pos hnil]
  · rw [if_neg hnil, if_neg hnil]
    by_cases haligned : blob.length % blockLength ≠ 0
    · rw [if_pos haligned, if_pos haligned]
    · rw [if_neg haligned, if_neg haligned, Block.mapSliced_eq _ (not_not.1 haligned)]
      exact unframedSliced_eq _

/-- no position is out of range -/
theorem decryptSliced_eq (P : Primitives) (blob : Bytes) (password : String)
    (keyword : Option String) :
    decryptSliced P blob password keyword = some (decrypt P blob password keyword) := by
  unfold decryptSliced decrypt
  by_cases hnil : blob = []
  · rw [if_pos hnil, if_pos hnil]
  · rw [if_neg hnil, if_neg hnil]
    by_cases hsealed : isSealed blob = true
    · rw [if_pos hsealed, if_pos hsealed, decryptSealedSliced_eq hsealed, Option.bind_eq_bind,
        Option.bind_some]
      cases decryptSealed P blob password keyword with
      | ok secret => rfl
      | error e =>
        dsimp only
        by_cases haligned : blob.length % blockLength ≠ 0
        · rw [if_pos haligned, if_pos haligned]
          rfl
        · rw [if_neg haligned, if_neg haligned, decryptPlainSliced_eq]
    · rw [if_neg hsealed, if_neg hsealed, decryptPlainSliced_eq]

/-! ## the answer -/

/-- what is promised about the answer `r` for a blob -/
structure Outcome (P : Primitives) (blob : Bytes) (password : String) (keyword : Option String)
    (r : Except BlobError Bytes) : Prop where
  empty_iff : r = .error .empty ↔ blob = []
  notAligned_iff : ∀ n, r = .error (.notAligned n) ↔
    n = blob.length ∧ blob ≠ [] ∧ isSealed blob = false ∧ blob.length % 16 ≠ 0
  of_sealed : isSealed blob = true → ∀ secret, decryptSealed P blob password keyword = .ok secret →
    r = .ok secret
  of_broken : isSealed blob = true → blob.length % 16 ≠ 0 →
    ∀ e, decryptSealed P blob password keyword = .error e → r = .error e
  /-- in every other case it is the answer of the plain format -/
  of_rest : ¬ (isSealed blob = true ∧ ((∃ secret, decryptSealed P blob password keyword = .ok secret) ∨
    blob.length % 16 ≠ 0)) → r = decryptPlain P blob password keyword
  /-- no plain blob is lost; it may open as another secret only when it is a sealed blob as well -/
  of_plain : ∀ secret, decryptPlain P blob password keyword = .ok secret →
    r = .ok secret ∨
      isSealed blob = true ∧ ∃ other, decryptSealed P blob password keyword = .ok other ∧ r = .ok other
  notAuthentic : r = .error .notAuthentic → isSealed blob = true ∧ blob.length % 16 ≠ 0
  ne_tooLarge : ∀ n, r ≠ .error (.tooLarge n)
  ne_notEncrypted : r ≠ .error .notEncrypted
  length_le : ∀ secret, r = .ok secret → secret.length + 8 ≤ blob.length

theorem Opening.outcome {r : Except BlobError Bytes} (h : Opening P blob password keyword r) :
    Outcome P blob password keyword r := by
  cases h with
  | @opened secret hsealed hopen =>
    have hne := ne_nil_of_isSealed hsealed
    exact
      { empty_iff := ⟨nofun, fun hnil => absurd hnil hne⟩
        notAligned_iff := fun n => ⟨nofun, fun h => absurd (hsealed.symm.trans h.2.2.1) nofun⟩
        of_sealed := fun _ s hs => hopen.symm.trans hs
        of_broken := fun _ _ e he => hopen.symm.trans he
        of_rest := fun h => absurd ⟨hsealed, .inl ⟨secret, hopen⟩⟩ h
        of_plain := fun _ _ => .inr ⟨hsealed, secret, hopen, rfl⟩
        notAuthentic := nofun
        ne_tooLarge := nofun
        ne_notEncrypted := nofun
        length_le := fun s hs => length_of_decryptSealed (hopen.trans hs) }
  | @broken e hsealed hopen haligned =>
    have hne := ne_nil_of_isSealed hsealed
    have hkind : ∀ x, (Except.error e : Except BlobError Bytes) = .error x →
        x = .notAuthentic ∨ x = .magic ∨ x = .tooShort := by
      rintro x h
      cases h
      exact decryptSealed_eq_error hopen
    exact
      { empty_iff := ⟨fun h => by simpa using hkind _ h, fun hnil => absurd hnil hne⟩
        notAligned_iff := fun n =>
          ⟨fun h => by simpa using hkind _ h, fun h => absurd (hsealed.symm.trans h.2.2.1) nofun⟩
        of_sealed := fun _ s hs => hopen.symm.trans hs
        of_broken := fun _ _ x hx => hopen.symm.trans hx
        of_rest := fun h => absurd ⟨hsealed, .inr haligned⟩ h
        of_plain := fun s hs => by
          rw [decryptPlain_of_not_aligned hne haligned] at hs
          cases hs
        notAuthentic := fun _ => ⟨hsealed, haligned⟩
        ne_tooLarge := fun n h => by simpa using hkind _ h
        ne_notEncrypted := fun h => by simpa using hkind _ h
        length_le := nofun }
  | plain htag =>
    have hopened : isSealed blob = true →
        ¬ ∃ secret, decryptSealed P blob password keyword = .ok secret := by
      rintro hsealed ⟨secret, hsecret⟩
      obtain ⟨e, he⟩ := (htag hsealed).1
      cases he.symm.trans hsecret
    have hkind : ∀ x, decryptPlain P blob password keyword = .error x →
        x = .empty ∨ x = .notAligned blob.length ∨ x = .magic ∨ x = .tooShort := by
      intro x hx
      rcases decryptPlain_eq_error hx with ⟨-, rfl⟩ | ⟨-, -, rfl⟩ | ⟨-, -, rfl | rfl⟩ <;> simp
    exact
      { empty_iff := decryptPlain_eq_empty_iff
        notAligned_iff := fun n => by
          rw [decryptPlain_eq_notAligned_iff]
          constructor
          · rintro ⟨hn, hne, haligned⟩
            exact ⟨hn, hne, Bool.eq_false_iff.2 fun hsealed => haligned (htag hsealed).2, haligned⟩
          · rintro ⟨hn, hne, -, haligned⟩
            exact ⟨hn, hne, haligned⟩
        of_sealed := fun hsealed s hs => absurd ⟨s, hs⟩ (hopened hsealed)
        of_broken := fun hsealed haligned => absurd (htag hsealed).2 haligned
        of_rest := fun _ => rfl
        of_plain := fun _ hs => .inl hs
        notAuthentic := fun h => by simpa using hkind _ h
        ne_tooLarge := fun n h => by simpa using hkind _ h
        ne_notEncrypted := fun h => by simpa using hkind _ h
        length_le := fun _ hs => length_of_decryptPlain hs }

/-- every blob has the answer that is promised, and none has a part that is out of range -/
theorem decrypt_outcome (P : Primitives) (blob : Bytes) (password : String)
    (keyword : Option String) :
    Outcome P blob password keyword (decrypt P blob password keyword) ∧
      decryptSliced P blob password keyword = some (decrypt P blob password keyword) :=
  ⟨(opening_decrypt P blob password keyword).outcome, decryptSliced_eq P blob password keyword⟩

end KeyBlob

end LedgerClient
