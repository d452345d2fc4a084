import AttestedChannel.Proofs.Cbor.Items
import AttestedChannel.Proofs.Text.Length

/-!
# Failures take few words

Why an item is not accepted is told to the peer, in a text that quotes what the peer has sent. This
text is short whatever was read (`Failure.IsShort`): numbers have at most 64 bits, names are read
only up to one chunk, and everything else is a name of the library's own.

A reading is *tame* if it fails in few words and leaves a cursor within the input. Readers are
tidied up one by one (`Reader.IsTidy`), in the order in which they are built.
-/

namespace AttestedChannel.Cbor

variable {α β σ δ : Type}

/-! ## Short texts -/

/-- The cause of a refusal takes few words. -/
def Refusal.IsShort (r : Refusal) : Prop := r.message.length ≤ 5000

/-- The failure takes few words. -/
def Failure.IsShort (f : Failure) : Prop := f.text.length ≤ 51000

instance (r : Refusal) : Decidable r.IsShort := inferInstanceAs (Decidable (r.message.length ≤ 5000))

instance (f : Failure) : Decidable f.IsShort := inferInstanceAs (Decidable (f.text.length ≤ 51000))

/-- What the head announces takes few words. -/
def Head.IsShort (h : Head) : Prop := h.found.describe.length ≤ 2100

/-- The input is within memory. -/
def Cursor.Fits (c : Cursor) : Prop := c.offset + c.rest.length < headRange

theorem length_toString_le_of_lt {n : Nat} (h : n < headRange) : (toString n).length ≤ 20 :=
  Text.length_toString_le (by decide) (Nat.lt_trans h (by decide))

namespace Failure

theorem endOfInput_isShort : endOfInput.IsShort := by decide

theorem tooDeep_isShort : tooDeep.IsShort := by decide

theorem malformed_isShort {offset : Nat} (h : offset < headRange) : (malformed offset).IsShort := by
  have hn := length_toString_le_of_lt h
  unfold IsShort text
  simp only [String.length_append, show "Syntax(".length = 7 by decide,
    show ")".length = 1 by decide]
  omega

theorem refused_isShort {r : Refusal} (h : r.IsShort) : (refused none r).IsShort := by
  have hq := Text.Quoted.length_encode_le r.message
  unfold Refusal.IsShort at h
  unfold IsShort text
  simp only [String.length_append, show "Semantic(None, ".length = 15 by decide,
    show ")".length = 1 by decide]
  omega

theorem refused_some_isShort {offset : Nat} {r : Refusal} (h : r.IsShort)
    (ho : offset < headRange) : (refused (some offset) r).IsShort := by
  have hq := Text.Quoted.length_encode_le r.message
  have hn := length_toString_le_of_lt ho
  unfold Refusal.IsShort at h
  unfold IsShort text
  simp only [String.length_append, show "Semantic(Some(".length = 14 by decide,
    show "), ".length = 3 by decide, show ")".length = 1 by decide]
  omega

end Failure

namespace Refusal

theorem wrongKind_isShort {found : Found} {wanted : Wanted} (h : found.describe.length ≤ 2100) :
    (wrongKind found wanted).IsShort := by
  have hw : wanted.describe.length ≤ 20 := by cases wanted <;> decide
  unfold IsShort message
  simp only [String.length_append, show "invalid type: ".length = 14 by decide,
    show ", expected ".length = 11 by decide]
  omega

theorem outOfRange_isShort {n w : Nat} (hn : n < headRange) (hw : w < headRange) :
    (outOfRange n w).IsShort := by
  have h₁ := length_toString_le_of_lt hn
  have h₂ := length_toString_le_of_lt hw
  unfold IsShort message
  simp only [String.length_append,
    show "invalid value: integer `".length = 24 by decide, show "`, expected u".length = 13 by decide]
  omega

theorem unknownCode_isShort {n : Nat} {codes : List Nat} (hn : n < headRange)
    (hc : (", ".intercalate (codes.map toString)).length ≤ 200) :
    (unknownCode n codes).IsShort := by
  have h := length_toString_le_of_lt hn
  unfold IsShort message
  simp only [String.length_append, show "invalid value: ".length = 15 by decide,
    show ", expected one of: ".length = 19 by decide]
  omega

theorem missingField_isShort {name : String} (h : name.length ≤ 200) :
    (missingField name).IsShort := by
  unfold IsShort message
  simp only [String.length_append, show "missing field `".length = 15 by decide,
    show "`".length = 1 by decide]
  omega

theorem duplicateField_isShort {name : String} (h : name.length ≤ 200) :
    (duplicateField name).IsShort := by
  unfold IsShort message
  simp only [String.length_append, show "duplicate field `".length = 17 by decide,
    show "`".length = 1 by decide]
  omega

/-- The name of a variant that is not known is quoted, and it is no longer than a chunk. -/
theorem unknownVariant_isShort {b : Bytes} {known : List String} (hb : b.length ≤ chunkSize)
    (hk : (alternatives known).length ≤ 200) :
    (unknownVariant (Text.Utf8.lossy b) known).IsShort := by
  have h := Text.Utf8.length_lossy_le b
  have hc : chunkSize = 4096 := rfl
  unfold IsShort message
  simp only [String.length_append, show "unknown variant `".length = 17 by decide,
    show "`, expected ".length = 12 by decide]
  omega

end Refusal

/-! ## Tame readings -/

/-- The reading fails in few words or yields a value with a property and stays within memory. -/
structure Tame (P : α → Prop) (o : Except Failure (α × Cursor)) : Prop where
  short : ∀ {f}, o = .error f → f.IsShort
  good : ∀ {a d}, o = .ok (a, d) → P a ∧ d.Fits

/-- The reader is tame on all that it may be given, and its values have a property. -/
def Reader.Yields (r : Reader α) (P : α → Prop) : Prop :=
  ∀ start h c, start < headRange → h.IsShort → c.Fits → Tame P (r start h c)

/-- The reader is tame on all that it may be given. -/
abbrev Reader.IsTidy (r : Reader α) : Prop := r.Yields fun _ => True

variable {P : α → Prop}

theorem Tame.error {f : Failure} (h : f.IsShort) : Tame P (.error f) where
  short hf := by
    cases hf
    exact h
  good hd := by cases hd

theorem Tame.ok {a : α} {d : Cursor} (ha : P a) (hd : d.Fits) : Tame P (.ok (a, d)) where
  short hf := by cases hf
  good h := by
    cases h
    exact ⟨ha, hd⟩

theorem Cursor.Fits.offset_lt {c : Cursor} (h : c.Fits) : c.offset < headRange :=
  Nat.lt_of_le_of_lt (Nat.le_add_right _ _) h

theorem Cursor.Fits.startOf_lt {c : Cursor} (h : c.Fits) (g : Head) : c.startOf g < headRange :=
  Nat.lt_of_le_of_lt (Nat.sub_le _ _) h.offset_lt

theorem tame_take {c : Cursor} (hc : c.Fits) (n : Nat) : Tame (·.length = n) (c.take n) := by
  unfold Cursor.take
  split
  · next b r h =>
    obtain ⟨hl, hr⟩ := Bytes.take?_eq_some.1 h
    refine .ok hl ?_
    unfold Cursor.Fits at hc ⊢
    rw [hr, List.length_append] at hc
    dsimp only
    omega
  · exact .error Failure.endOfInput_isShort

/-! ## Heads -/

namespace Head

theorem length_describe_integer_le {n : Int} (h : n.natAbs ≤ headRange) :
    (Found.integer n).describe.length ≤ 2100 := by
  have hn := Text.length_toString_int_le (e := 20) (by decide) (Nat.lt_of_le_of_lt h (by decide))
  unfold Found.describe
  simp only [String.length_append, show "integer `".length = 9 by decide,
    show "`".length = 1 by decide]
  omega

theorem float_isShort (x : Binary64) : (float x).IsShort := by
  have hx := x.length_text_le
  unfold IsShort found Found.describe
  simp only [String.length_append, show "floating point `".length = 16 by decide,
    show "`".length = 1 by decide]
  omega

theorem simple_isShort (n : Nat) : (simple n).IsShort := by
  unfold IsShort found
  split
  all_goals first | decide | contradiction

theorem ofArgument_isShort (major : Nat) {n : Nat} (hn : n < headRange) :
    (ofArgument major n).IsShort := by
  unfold ofArgument
  split
  · exact length_describe_integer_le (Nat.le_of_lt hn)
  · refine length_describe_integer_le ?_
    have h₁ := Int.bmod_lt (x := -1 - (n : Int)) (m := 0x10000000000000000) (by decide)
    have h₂ := Int.le_bmod (x := -1 - (n : Int)) (m := 0x10000000000000000) (by decide)
    have hr : headRange = 0x10000000000000000 := rfl
    omega
  · exact (by decide : Found.bytes.describe.length ≤ 2100)
  · exact (by decide : Found.string.describe.length ≤ 2100)
  · exact (by decide : Found.sequence.describe.length ≤ 2100)
  · exact (by decide : Found.map.describe.length ≤ 2100)
  · exact (by decide : Found.tag.describe.length ≤ 2100)
  · exact simple_isShort n

theorem ofWide_isShort (major octets : Nat) {n : Nat} (hn : n < headRange) :
    (ofWide major octets n).IsShort := by
  unfold ofWide
  split
  · exact float_isShort _
  · exact ofArgument_isShort major hn

theorem isShort_of_ofIndefinite? {major : Nat} {h : Head} (e : ofIndefinite? major = some h) :
    h.IsShort := by
  unfold ofIndefinite? at e
  unfold IsShort
  split at e <;> cases e <;> decide

theorem refuse_isShort {h : Head} (hh : h.IsShort) (wanted : Wanted) : (h.refuse wanted).IsShort :=
  Failure.refused_isShort (Refusal.wrongKind_isShort hh)

theorem tame_read {c : Cursor} (hc : c.Fits) : Tame IsShort (read c) := by
  unfold read
  split
  · exact .error Failure.endOfInput_isShort
  · next x r hr =>
    have hbody : Cursor.Fits ⟨r, c.offset + 1⟩ := by
      unfold Cursor.Fits at hc ⊢
      rw [hr, List.length_cons] at hc
      dsimp only
      omega
    dsimp only
    split
    · next hm => exact .ok (ofArgument_isShort _ (Nat.lt_trans hm (by decide))) hbody
    · split
      · have ht := tame_take hbody (1 <<< (x.toNat % 32 - 24))
        split
        · next e he => exact .error (ht.short he)
        · next b d hd =>
          obtain ⟨hl, hd⟩ := ht.good hd
          have hb : b.toNat < headRange := by
            have hk : x.toNat % 32 - 24 < 4 := by omega
            have hb := b.toNat_lt
            rw [hl] at hb
            -- one, two, four or eight octets
            generalize x.toNat % 32 - 24 = k at hb hk
            refine Nat.lt_of_lt_of_le hb ?_
            have hcap : ∀ k < 4, Bytes.capacity (1 <<< k) ≤ headRange := by decide
            exact hcap k hk
          refine .ok ?_ hd
          split
          · exact ofArgument_isShort _ hb
          · exact ofWide_isShort _ _ hb
      · split
        · split
          · next h hi => exact .ok (isShort_of_ofIndefinite? hi) hbody
          · exact .error (Failure.malformed_isShort hc.offset_lt)
        · exact .error (Failure.malformed_isShort hc.offset_lt)

end Head

/-! ## Items -/

theorem Reader.Yields.run {r : Reader α} (hr : r.Yields P) {c : Cursor} (hc : c.Fits) :
    Tame P (r.run c) := by
  have hh := Head.tame_read hc
  unfold Reader.run
  split
  · next e he => exact .error (hh.short he)
  · next h d hd =>
    obtain ⟨hs, hd⟩ := hh.good hd
    exact hr _ _ _ hc.offset_lt hs hd

theorem Reader.Yields.again {r : Reader α} (hr : r.Yields P) : r.again.Yields P := by
  intro start h c _ hh hc
  exact hr _ _ _ (hc.startOf_lt h) hh hc

theorem Reader.Yields.map {r : Reader α} (hr : r.Yields P) (f : α → β) : (r.map f).IsTidy := by
  intro start h c hs hh hc
  have ht := hr _ _ _ hs hh hc
  unfold Reader.map
  split
  · next e he => exact .error (ht.short he)
  · next a d hd => exact .ok trivial (ht.good hd).2

/-- Skipping tags is tame. -/
theorem Reader.Yields.untagged {r : Reader α} (hr : r.Yields P) :
    Reader.Yields (untagged r) P := by
  intro start h c hs hh hc
  induction start, h, c using untagged.induct with
  | case1 start c t e he =>
    rw [untagged.eq_def]
    dsimp only
    split
    · next e' he' => exact .error ((Head.tame_read hc).short he')
    · next he' => cases he.symm.trans he'
  | case2 start c t h d he ih =>
    rw [untagged.eq_def]
    dsimp only
    split
    · next he' => cases he.symm.trans he'
    · next h' d' he' =>
      cases he.symm.trans he'
      obtain ⟨hh', hd⟩ := (Head.tame_read hc).good he
      exact ih hc.offset_lt hh' hd
  | case3 start h c hn =>
    rw [untagged.eq_def]
    split
    · next t => exact absurd rfl (hn t)
    · exact hr _ _ _ hs hh hc

/-- Every item of a container is tame. -/
def ItemReader.IsTidy (item : ItemReader σ) : Prop := ∀ s, (item s).IsTidy

theorem tame_readItems {item : ItemReader σ} (hi : item.IsTidy) (n : Nat) (s : σ) {c : Cursor}
    (hc : c.Fits) : Tame (fun _ => True) (readItems item n s c) := by
  induction n generalizing s c with
  | zero => exact .ok trivial hc
  | succ n ih =>
    have ht := (hi s).run hc
    unfold readItems
    split
    · next e he => exact .error (ht.short he)
    · next a d hd => exact ih a (ht.good hd).2

theorem tame_readUntilStop {item : ItemReader σ} (hi : item.IsTidy) (fuel : Nat) (s : σ) {c : Cursor}
    (hc : c.Fits) : Tame (fun _ => True) (readUntilStop item fuel s c) := by
  induction fuel generalizing s c with
  | zero => exact .error Failure.endOfInput_isShort
  | succ fuel ih =>
    have hread := Head.tame_read hc
    unfold readUntilStop
    split
    · next e he => exact .error (hread.short he)
    · next d hd => exact .ok trivial (hread.good hd).2
    · next h d _ hd =>
      obtain ⟨hh, hd⟩ := hread.good hd
      have ht := (hi s).again _ _ _ hc.offset_lt hh hd
      split
      · next e he => exact .error (ht.short he)
      · next a d' hd' => exact ih a (ht.good hd').2

theorem tame_readContainer {item : ItemReader σ} (hi : item.IsTidy) (length : Option Nat) (s : σ)
    {c : Cursor} (hc : c.Fits) : Tame (fun _ => True) (readContainer item length s c) := by
  cases length with
  | some n => exact tame_readItems hi n s hc
  | none => exact tame_readUntilStop hi _ s hc

/-! ## Content -/

/-- Every segment is tame. -/
def Piece.IsTidy (piece : Piece σ) : Prop :=
  ∀ start n s c, start < headRange → c.Fits → Tame (fun _ => True) (piece start n s c)

theorem tame_segments (lengthOf : Head → Option (Option Nat)) {piece : Piece σ}
    (hp : piece.IsTidy) (fuel nested : Nat) (s : σ) {c : Cursor} (hc : c.Fits) :
    Tame (fun _ => True) (segments lengthOf piece fuel nested s c) := by
  induction fuel generalizing nested s c with
  | zero => exact .error Failure.endOfInput_isShort
  | succ fuel ih =>
    cases nested with
    | zero => exact .ok trivial hc
    | succ nested =>
      have hread := Head.tame_read hc
      unfold segments
      split
      · next e he => exact .error (hread.short he)
      · next d hd => exact ih nested s (hread.good hd).2
      · next h d _ hd =>
        obtain ⟨-, hd⟩ := hread.good hd
        split
        · exact .error (Failure.malformed_isShort hc.offset_lt)
        · exact ih (nested + 2) s hd
        · next n _ =>
          have ht := hp _ n s _ hc.offset_lt hd
          split
          · next e he => exact .error (ht.short he)
          · next a d' hd' => exact ih (nested + 1) a (ht.good hd').2

theorem tame_pieces (lengthOf : Head → Option (Option Nat)) {piece : Piece σ} (hp : piece.IsTidy)
    {start : Nat} (hs : start < headRange) (length : Option Nat) (s : σ) {c : Cursor}
    (hc : c.Fits) : Tame (fun _ => True) (pieces lengthOf piece start length s c) := by
  cases length with
  | some n => exact hp _ _ _ _ hs hc
  | none => exact tame_segments lengthOf hp _ 1 s hc

theorem bytesPiece_isTidy : Piece.IsTidy bytesPiece := by
  intro start n s c _ hc
  have ht := tame_take hc n
  unfold bytesPiece
  split
  · next e he => exact .error (ht.short he)
  · next b d hd => exact .ok trivial (ht.good hd).2

theorem tame_readBytes {start : Nat} (hs : start < headRange) (length : Option Nat) {c : Cursor}
    (hc : c.Fits) : Tame (fun _ => True) (readBytes start length c) := by
  have ht := tame_pieces bytesLength bytesPiece_isTidy hs length [] hc
  unfold readBytes
  split
  · next e he => exact .error (ht.short he)
  · next b d hd => exact .ok trivial (ht.good hd).2

theorem textPiece_isTidy : Piece.IsTidy textPiece := by
  intro start n read c hs hc
  unfold textPiece
  generalize (⟨[], by simp⟩ : Carry) = carry
  induction n using Nat.strong_induction_on generalizing carry read c with
  | _ unread ih =>
    have ht := tame_take hc (min (chunkSize - carry.val.length) unread)
    rw [textChunks.eq_def]
    split
    · split
      · exact .ok trivial hc
      · exact .error (Failure.malformed_isShort hs)
    · split
      · next e he => exact .error (ht.short he)
      · next b d hd =>
        split
        split
        · -- a chunk has room for more than it carries over
          have hroom : unread - min (chunkSize - carry.val.length) unread < unread := by
            have hc := carry.property
            unfold chunkSize
            omega
          exact ih _ hroom _ _ (ht.good hd).2 _
        · exact .error (Failure.malformed_isShort hs)

theorem tame_readText {start : Nat} (hs : start < headRange) (length : Option Nat) {c : Cursor}
    (hc : c.Fits) : Tame (fun _ => True) (readText start length c) := by
  have ht := tame_pieces textLength textPiece_isTidy hs length [] hc
  unfold readText
  split
  · next e he => exact .error (ht.short he)
  · next b d hd => exact .ok trivial (ht.good hd).2

theorem bignumPiece_isTidy : Piece.IsTidy fun _ n number c => bignumChunks n number c := by
  intro start n number c hs hc
  induction n using Nat.strong_induction_on generalizing number c with
  | _ unread ih =>
    have ht := tame_take hc (min 16 unread)
    dsimp only
    rw [bignumChunks.eq_def]
    split
    · exact .ok trivial hc
    · split
      · next e he => exact .error (ht.short he)
      · next b d hd =>
        split
        · exact .error (Failure.refused_isShort (by decide))
        · exact ih _ (by omega) _ _ (ht.good hd).2

theorem tame_readBignum {start : Nat} (hs : start < headRange) (length : Option Nat) {c : Cursor}
    (hc : c.Fits) : Tame (fun _ => True) (readBignum start length c) := by
  have ht := tame_pieces bytesLength bignumPiece_isTidy hs length (0, 0) hc
  unfold readBignum
  split
  · next e he => exact .error (ht.short he)
  · next b d hd => exact .ok trivial (ht.good hd).2

/-! ## Numbers -/

theorem tame_rawInteger {h : Head} (hh : h.IsShort) {c : Cursor} (hc : c.Fits) :
    Tame (fun _ => True) (rawInteger h c) := by
  -- on the input that is left, of which every tag takes some
  induction hn : c.rest.length using Nat.strong_induction_on generalizing h c with
  | _ n ih =>
    have hread := Head.tame_read hc
    rw [rawInteger.eq_def]
    split
    · exact .ok trivial hc
    · exact .ok trivial hc
    · split
      · next e he => exact .error (hread.short he)
      · next g d hd =>
        obtain ⟨hg, hd'⟩ := hread.good hd
        split
        · split
          · next length _ =>
            have ht := tame_readBignum (hd'.startOf_lt (.bytes length)) length hd'
            split
            · next e he => exact .error (ht.short he)
            · next value d hd => exact .ok trivial (ht.good hd).2
          · exact .error (Head.refuse_isShort hg _)
        · exact ih _ (hn ▸ Head.length_of_read hd) hg hd' rfl
    · exact .error (Head.refuse_isShort hh _)

theorem unsigned_yields {width : Nat} (hw : width < headRange) :
    Reader.Yields (unsigned width) (· < headRange) := by
  intro start h c hs hh hc
  have ht := tame_rawInteger hh hc
  unfold unsigned
  split
  · next e he => exact .error (ht.short he)
  · next i d hd =>
    split
    · exact .error (Failure.refused_isShort (by decide))
    · split
      · exact .error (Failure.refused_isShort (by decide))
      · next hlt =>
        have hi : i.argument < headRange := Nat.lt_of_not_le hlt
        split
        · exact .error (Failure.refused_isShort (Refusal.outOfRange_isShort hi hw))
        · exact .ok hi (ht.good hd).2

theorem uint8_isTidy : uint8.IsTidy := (unsigned_yields (by decide)).map _

theorem uint32_isTidy : uint32.IsTidy := (unsigned_yields (by decide)).map _

theorem code_isTidy {codes : List Nat} {ofCode? : Nat → Option α}
    (hc : (", ".intercalate (codes.map toString)).length ≤ 200) :
    Reader.IsTidy (code codes ofCode?) := by
  intro start h c hs hh hcur
  have hu : Reader.Yields (unsigned 16) _ := unsigned_yields (by decide)
  have ht := hu start h c hs hh hcur
  unfold code
  split
  · next e he => exact .error (ht.short he)
  · next n d hd =>
    obtain ⟨hn, hd⟩ := ht.good hd
    split
    · exact .ok trivial hd
    · exact .error (Failure.refused_isShort (Refusal.unknownCode_isShort hn hc))

theorem boolean_isTidy : boolean.IsTidy := by
  refine Reader.Yields.untagged ?_
  intro start h c hs hh hc
  dsimp only
  split
  · exact .ok trivial hc
  · exact .ok trivial hc
  · exact .error (Failure.refused_some_isShort (by decide) hs)

theorem text_isTidy : text.IsTidy := by
  refine Reader.Yields.untagged ?_
  intro start h c hs hh hc
  dsimp only
  split
  · exact tame_readText hs _ hc
  · exact .error (Head.refuse_isShort hh _)

theorem octets_isTidy (depth : Nat) : Reader.IsTidy (octets depth) := by
  refine Reader.Yields.untagged ?_
  intro start h c hs hh hc
  dsimp only
  split
  · next n =>
    split
    · exact .error Failure.tooDeep_isShort
    · have hi : ItemReader.IsTidy octetItem := fun _ => uint8_isTidy.map _
      have ht := tame_readContainer hi n [] hc
      split
      · next e he => exact .error (ht.short he)
      · next read d hd => exact .ok trivial (ht.good hd).2
  · exact tame_readBytes hs _ hc
  · exact .error (Head.refuse_isShort hh _)

/-! ## Names -/

/-- A name is no longer than a chunk. -/
theorem name_yields : Reader.Yields name (·.length ≤ chunkSize) := by
  refine Reader.Yields.untagged ?_
  intro start h c hs hh hc
  dsimp only
  split
  · next n =>
    split
    · next hn =>
      have ht := tame_take hc n
      exact ⟨ht.short, fun e => ⟨(ht.good e).1 ▸ hn, (ht.good e).2⟩⟩
    · exact .error (Head.refuse_isShort hh _)
  · next n =>
    split
    · next hn =>
      have ht := tame_take hc n
      split
      · next e he => exact .error (ht.short he)
      · next b d hd =>
        obtain ⟨hl, hd⟩ := ht.good hd
        split
        · exact .ok (hl ▸ hn) hd
        · exact .error (Failure.malformed_isShort hs)
    · exact .error (Head.refuse_isShort hh _)
  · exact .error (Head.refuse_isShort hh _)

theorem tame_variantNamed {variants : List (String × α)} {b : Bytes} (hb : b.length ≤ chunkSize)
    (hv : (alternatives (variants.map (·.1))).length ≤ 200) {c : Cursor} (hc : c.Fits) :
    Tame (fun _ => True) (variantNamed variants b c) := by
  unfold variantNamed
  split
  · exact .ok trivial hc
  · exact .error (Failure.refused_isShort (Refusal.unknownVariant_isShort hb hv))

theorem variant_isTidy {variants : List (String × α)}
    (hv : (alternatives (variants.map (·.1))).length ≤ 200) (depth : Nat) :
    Reader.IsTidy (variant depth variants) := by
  refine Reader.Yields.untagged ?_
  intro start h c hs hh hc
  dsimp only
  split
  · have ht := name_yields.run hc
    split
    · exact .error Failure.tooDeep_isShort
    · split
      · next e he => exact .error (ht.short he)
      · next b d hd =>
        obtain ⟨hb, hd⟩ := ht.good hd
        exact tame_variantNamed hb hv hd
  · have ht := name_yields.again _ _ _ hs hh hc
    split
    · exact .error Failure.tooDeep_isShort
    · split
      · next e he => exact .error (ht.short he)
      · next b d hd =>
        obtain ⟨hb, hd⟩ := ht.good hd
        exact tame_variantNamed hb hv hd
  · exact .error (Head.refuse_isShort hh _)

theorem optional_isTidy {r : Reader α} (hr : r.IsTidy) : Reader.IsTidy (optional r) := by
  intro start h c hs hh hc
  unfold optional
  split
  · exact .ok trivial hc
  · exact .ok trivial hc
  · exact (hr.map some).again _ _ _ hs hh hc

/-! ## Skipping -/

theorem skipEntry_isTidy {inner : Reader Unit} (hi : inner.IsTidy) :
    ItemReader.IsTidy (skipEntry inner) := by
  intro s start h c hs hh hc
  have ht := hi _ _ _ hs hh hc
  unfold skipEntry
  split
  · next e he => exact .error (ht.short he)
  · next d hd => exact hi.run (ht.good hd).2

theorem tame_skipBignum (t n : Nat) {start : Nat} (hs : start < headRange) {c : Cursor}
    (hc : c.Fits) : Tame (fun _ => True) (skipBignum t start n c) := by
  have ht := tame_readBignum hs (some n) hc
  unfold skipBignum
  split
  · next e he => exact .error (ht.short he)
  · next value d hd =>
    split
    · exact .error (Failure.refused_isShort (by decide))
    · exact .ok trivial (ht.good hd).2

theorem skipWith_isTidy {inner : Option (Reader Unit)} (hi : ∀ r, inner = some r → r.IsTidy) :
    Reader.IsTidy (skipWith inner) := by
  intro start h c hs hh hc
  unfold skipWith
  split
  case h_1 | h_2 | h_3 | h_4 | h_5 | h_6 | h_7 => exact .ok trivial hc
  case h_8 | h_9 => exact .error (Head.refuse_isShort hh _)
  · next n =>
    have ht := tame_readBytes (hc.startOf_lt (.bytes n)) n hc
    split
    · next e he => exact .error (ht.short he)
    · next d hd => exact .ok trivial (ht.good hd).2
  · next n =>
    have ht := tame_readText (hc.startOf_lt (.text n)) n hc
    split
    · next e he => exact .error (ht.short he)
    · next d hd => exact .ok trivial (ht.good hd).2
  · split
    · exact .error Failure.tooDeep_isShort
    · exact tame_readContainer (fun _ => hi _ rfl) _ () hc
  · split
    · exact .error Failure.tooDeep_isShort
    · exact tame_readContainer (skipEntry_isTidy (hi _ rfl)) _ () hc
  · split
    · -- the tag of a bignum
      have hread := Head.tame_read hc
      split
      · next e he => exact .error (hread.short he)
      · next g d hd =>
        obtain ⟨hg, hd'⟩ := hread.good hd
        split
        · next n =>
          split
          · exact tame_skipBignum _ n (hd'.startOf_lt (.bytes (some n))) hd'
          · split
            · exact .error Failure.tooDeep_isShort
            · exact (hi _ rfl).again _ _ _ hc.offset_lt hg hd'
        · exact .error Failure.tooDeep_isShort
        · exact (hi _ rfl).again _ _ _ hc.offset_lt hg hd'
    · split
      · exact .error Failure.tooDeep_isShort
      · exact (hi _ rfl).run hc

theorem skip_isTidy (depth : Nat) : (skip depth).IsTidy := by
  induction depth with
  | zero => exact skipWith_isTidy fun _ h => by cases h
  | succ depth ih =>
    refine skipWith_isTidy ?_
    rintro r hr
    cases hr
    exact ih

/-! ## Records -/

/-- The field has a short name and a tidy reader. -/
structure Field.IsTidy (f : Field δ) : Prop where
  name : f.name.length ≤ 200
  read : ∀ depth draft, (f.read depth draft).IsTidy

theorem field_isTidy {name : String} {get : δ → Option α} {set : δ → α → δ} {r : Nat → Reader α}
    (hn : name.length ≤ 200) (hr : ∀ depth, (r depth).IsTidy) :
    (Field.ofReader name get set r).IsTidy where
  name := hn
  read depth _ := (hr depth).map _

theorem readEntry_isTidy {fields : List (Field δ)} (hf : ∀ f ∈ fields, f.IsTidy) (depth : Nat) :
    ItemReader.IsTidy (readEntry fields skipUnknown depth) := by
  intro draft start h c hs hh hc
  have ht := name_yields _ _ _ hs hh hc
  unfold readEntry
  split
  · next e he => exact .error (ht.short he)
  · next b d hd =>
    obtain ⟨-, hd⟩ := ht.good hd
    split
    · next f hfind =>
      have hfield := hf f (List.mem_of_find?_eq_some hfind)
      split
      · exact .error (Failure.refused_isShort (Refusal.duplicateField_isShort hfield.name))
      · exact (hfield.read depth draft).run hd
    · have hskip := (skip_isTidy depth).run hd
      unfold skipUnknown
      split
      · next e he =>
        split at he
        · next e' he' =>
          cases he
          exact .error (hskip.short he')
        · cases he
      · next d' hd' =>
        split at hd'
        · cases hd'
        · next d'' hd'' =>
          cases hd'
          exact .ok trivial (hskip.good hd'').2

theorem record_isTidy {fields : List (Field δ)} (hf : ∀ f ∈ fields, f.IsTidy) (empty : δ)
    {finish : δ → Except Failure α} (hfinish : ∀ {d f}, finish d = .error f → f.IsShort)
    (depth : Nat) : Reader.IsTidy (record fields skipUnknown empty finish depth) := by
  refine Reader.Yields.untagged ?_
  intro start h c hs hh hc
  dsimp only
  split
  · next n =>
    split
    · exact .error Failure.tooDeep_isShort
    · next depth =>
      have ht := tame_readContainer (readEntry_isTidy hf depth) n empty hc
      split
      · next e he => exact .error (ht.short he)
      · next draft d hd =>
        split
        · next e he => exact .error (hfinish he)
        · exact .ok trivial (ht.good hd).2
  · exact .error (Head.refuse_isShort hh _)

/-- A field that is missing is named. -/
theorem isShort_of_required {name : String} (hn : name.length ≤ 200) {o : Option α} {f : Failure}
    (h : required name o = .error f) : f.IsShort := by
  cases o with
  | some a => cases h
  | none =>
    cases h
    exact Failure.refused_isShort (Refusal.missingField_isShort hn)

theorem isShort_of_bind {x : Except Failure α} {k : α → Except Failure β} {f : Failure}
    (h : x >>= k = .error f) (hx : x = .error f → f.IsShort)
    (hk : ∀ a, k a = .error f → f.IsShort) : f.IsShort := by
  cases x with
  | error e =>
    cases h
    exact hx rfl
  | ok a => exact hk a h

/-- What does not decode is refused in few words. -/
theorem isShort_of_decode {r : Reader α} (hr : r.IsTidy) {b : Bytes} (hb : b.length < headRange)
    {f : Failure} (h : decode r b = .error f) : f.IsShort := by
  have hc : (Cursor.ofBytes b).Fits := by
    unfold Cursor.Fits
    simpa [Cursor.ofBytes] using hb
  have ht := hr.run hc
  unfold decode at h
  split at h
  · next e he =>
    cases h
    exact ht.short he
  · cases h

end AttestedChannel.Cbor
