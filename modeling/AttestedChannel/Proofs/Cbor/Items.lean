import AttestedChannel.Proofs.Cbor.Takes
import AttestedChannel.Proofs.Text.Utf8

/-!
# Reading back single items

Every item that the library writes is read back by the reader of its kind, and by that reader only
when the whole item is there (`Reads`). Lengths and numbers have to fit 64 bits, which is what a
head can hold; everything that is shorter than `2 ^ 32` octets has such heads throughout.
-/

namespace AttestedChannel.Cbor

variable {α β σ : Type}

/-- The numbers that the argument of a head can hold. -/
abbrev headRange : Nat := 0x10000000000000000

/-! ## Numbers -/

theorem reads_unsigned (width : Nat) {n : Nat} (hw : width ≤ 64) (hn : n < 1 <<< width) :
    Reads (unsigned width) (Write.unsigned n) n := by
  have h64 : n < headRange := by
    refine Nat.lt_of_lt_of_le hn ?_
    rw [Nat.one_shiftLeft]
    exact Nat.pow_le_pow_right (by decide) hw
  have hr : Takes (fun c => Except.ok (n, c)) [] n := .done fun _ => rfl
  have ht := Reads.of_head (r := unsigned width) (b := []) 0 (by decide) h64
    fun start => hr.congr fun c => by
      simp only [unsigned, Head.ofArgument, rawInteger, Bool.false_eq_true, if_false,
        if_neg (Nat.not_le.2 h64), if_neg (Nat.not_le.2 hn)]
  rwa [List.append_nil] at ht

theorem reads_uint8 (x : UInt8) : Reads uint8 (Write.unsigned x.toNat) x := by
  have h := (reads_unsigned 8 (by decide) x.toNat_lt).map UInt8.ofNat
  rwa [UInt8.ofNat_toNat] at h

theorem reads_uint32 (x : UInt32) : Reads uint32 (Write.unsigned x.toNat) x := by
  have h := (reads_unsigned 32 (by decide) x.toNat_lt).map UInt32.ofNat
  rwa [UInt32.ofNat_toNat] at h

/-- A code is read back as what it is the code of. -/
theorem reads_code {codes : List Nat} {ofCode? : Nat → Option α} {n : Nat} {a : α}
    (hn : n < 1 <<< 16) (ha : ofCode? n = some a) :
    Reads (code codes ofCode?) (Write.unsigned n) a := by
  obtain ⟨h, v, b, hw, hp, hv, hb⟩ := reads_unsigned 16 (by decide) hn
  exact ⟨h, v, b, hw, hp, hv, fun start => (hb start).map
    (fun c d hd => by simp only [code, hd, ha]) fun c e he => by simp only [code, he]⟩

/-- A truth value is a head and nothing else. -/
theorem reads_boolean (x : Bool) : Reads boolean (Write.boolean x) x := by
  have hr : Takes (fun c => Except.ok (x, c)) [] x := .done fun _ => rfl
  cases x with
  | false =>
    exact Reads.untagged ⟨.simple 20, [0xF4], [], rfl, ⟨by decide, by decide⟩,
      Head.takes_read_short 7 20 (by decide) (by decide),
      fun start => hr.congr fun c => rfl⟩
  | true =>
    exact Reads.untagged ⟨.simple 21, [0xF5], [], rfl, ⟨by decide, by decide⟩,
      Head.takes_read_short 7 21 (by decide) (by decide),
      fun start => hr.congr fun c => rfl⟩

/-! ## Texts -/

/-- The chunks of a segment: what is carried over and what is unread together write characters, and
no character is complete in what is carried over. -/
theorem takes_textChunks (start : Nat) (carry : Carry) (read : List Char) {cs : List Char}
    {u : Bytes} (hc : carry.val ++ u = cs.flatMap Text.Utf8.encodeChar)
    (hd : Text.Utf8.decodeChar carry.val = none) :
    Takes (textChunks start carry u.length read) u (cs.reverse ++ read) := by
  induction hk : u.length using Nat.strongRecOn generalizing u carry read cs with
  | ind k ih =>
    subst hk
    by_cases hu : u.length = 0
    · have hnil : u = [] := List.length_eq_zero_iff.1 hu
      subst hnil
      rw [List.append_nil] at hc
      rw [hc] at hd
      have hcs := Text.Utf8.eq_nil_of_decodeChar hd
      subst hcs
      refine .done fun c => ?_
      have hempty : carry.val.isEmpty = true := by rw [hc]; rfl
      rw [textChunks, if_pos List.length_nil, if_pos hempty]
      rfl
    · -- the next chunk, and what is left for the chunks after it
      have h3 := carry.property
      obtain ⟨n, hn⟩ : ∃ n, n = min (chunkSize - carry.val.length) u.length := ⟨_, rfl⟩
      -- three octets at most are carried over, so every chunk takes something in
      have hpos : 0 < n := by
        simp only [chunkSize] at hn
        omega
      have hle : n ≤ u.length := hn ▸ Nat.min_le_right _ _
      have hb : (u.take n).length = n := List.length_take_of_le hle
      have hsplit : (carry.val ++ u.take n) ++ u.drop n = cs.flatMap Text.Utf8.encodeChar := by
        rw [List.append_assoc, List.take_append_drop, hc]
      obtain ⟨cs₁, cs₂, left, rfl, hq, hl, hl3⟩ :=
        Text.Utf8.prefix_flatMap_encodeChar ⟨_, hsplit⟩
      have hrest : left ++ u.drop n = cs₂.flatMap Text.Utf8.encodeChar := by
        rw [hq, List.flatMap_append, List.append_assoc] at hsplit
        exact List.append_cancel_left hsplit
      have hscan : Text.Utf8.scan (carry.val ++ u.take n) = (cs₁, left) := by
        rw [hq]
        exact Text.Utf8.scan_append cs₁ hl
      have hlen : (u.drop n).length = u.length - n := List.length_drop
      have hnext := ih (u.length - n) (by omega) ⟨left, hl3⟩ (cs₁.reverse ++ read)
        hrest hl hlen
      have hread : cs₂.reverse ++ (cs₁.reverse ++ read) = (cs₁ ++ cs₂).reverse ++ read := by
        rw [List.reverse_append, List.append_assoc]
      have htake := takes_take (u.take n)
      rw [hb] at htake
      rw [← hread, ← List.take_append_drop n u]
      refine htake.bind (g := fun _ => textChunks start ⟨left, hl3⟩ (u.length - n)
        (cs₁.reverse ++ read)) (fun _ => hnext) (fun c d hd => ?_) fun c e he => ?_
      · rw [List.take_append_drop, textChunks, if_neg hu, ← hn]
        simp only [hd, hscan, dif_pos hl3]
      · rw [List.take_append_drop, textChunks, if_neg hu, ← hn]
        simp only [he]

/-- The content of a text is read back, however its characters fall into the chunks. -/
theorem takes_readText (start : Nat) (s : String) :
    Takes (readText start (some (Text.Utf8.encode s).length)) (Text.Utf8.encode s) s := by
  have hc := takes_textChunks start ⟨[], by decide⟩ [] (u := Text.Utf8.encode s)
    (List.nil_append _) rfl
  rw [List.append_nil] at hc
  refine hc.map (fun c d hd => ?_) fun c e he => ?_
  · simp only [readText, pieces, textPiece, hd, List.reverse_reverse, String.ofList_toList]
  · simp only [readText, pieces, textPiece, he]

/-- A text is read back. -/
theorem reads_text {s : String} (hs : (Text.Utf8.encode s).length < headRange) :
    Reads text (Write.text s) s :=
  Reads.untagged (Reads.of_head 3 (by decide) hs fun start => takes_readText start s)

/-! ## Names -/

/-- The content of a name, which has to fit one chunk. -/
theorem takes_name (start : Nat) {s : String} (hs : (Text.Utf8.encode s).length ≤ chunkSize) :
    Takes (name start (.text (some (Text.Utf8.encode s).length))) (Text.Utf8.encode s)
      (Text.Utf8.encode s) := by
  have hd : (Text.Utf8.decode? (Text.Utf8.encode s)).isSome = true := by
    rw [Text.Utf8.decode?_encode]
    rfl
  refine (takes_take (Text.Utf8.encode s)).map (fun c d h => ?_) fun c e h => ?_
  · simp only [name, untagged, if_pos hs, h, if_pos hd]
  · simp only [name, untagged, if_pos hs, h]

theorem lt_headRange_of_le_chunkSize {n : Nat} (h : n ≤ chunkSize) : n < headRange :=
  Nat.lt_of_le_of_lt h (by decide)

/-- A name is read back. -/
theorem reads_name {s : String} (hs : (Text.Utf8.encode s).length ≤ chunkSize) :
    Reads name (Write.text s) (Text.Utf8.encode s) :=
  Reads.of_head 3 (by decide) (lt_headRange_of_le_chunkSize hs) fun start =>
    takes_name start hs

/-- A variant is read back from its name. -/
theorem reads_variant {depth : Nat} {variants : List (String × α)} {v : String × α}
    (hs : (Text.Utf8.encode v.1).length ≤ chunkSize)
    (hv : variants.find? (fun w => Text.Utf8.encode w.1 == Text.Utf8.encode v.1) = some v) :
    Reads (variant (depth + 1) variants) (Write.text v.1) v.2 := by
  refine Reads.untagged (Reads.of_head 3 (by decide) (lt_headRange_of_le_chunkSize hs)
    fun start => ?_)
  have hn := Takes.again start fun start => takes_name start hs
  refine hn.map (fun c d hd => ?_) fun c e he => ?_
  · simp only [Head.ofArgument, Nat.succ_ne_zero, if_false, hd, variantNamed, hv]
  · simp only [Head.ofArgument, Nat.succ_ne_zero, if_false, he]

/-! ## Items in a row -/

/-- The octets of items that are read one after the other, from one state into another. -/
inductive Fills (item : ItemReader σ) : σ → List Bytes → σ → Prop
  | nil (s : σ) : Fills item s [] s
  | cons {s t u : σ} {w : Bytes} {ws : List Bytes} (hw : Reads (item s) w t)
      (hws : Fills item t ws u) : Fills item s (w :: ws) u

/-- Items in a row are read back. -/
theorem Fills.takes {item : ItemReader σ} {s t : σ} {ws : List Bytes} (h : Fills item s ws t) :
    Takes (readItems item ws.length s) ws.flatten t := by
  induction h with
  | nil s => exact .done fun c => rfl
  | cons hw _ ih =>
    exact hw.run.bind (fun _ => ih)
      (fun c d hd => by simp only [List.length_cons, readItems, hd])
      fun c e he => by simp only [List.length_cons, readItems, he]

theorem Fills.append {item : ItemReader σ} {s t u : σ} {vs ws : List Bytes} (hv : Fills item s vs t)
    (hw : Fills item t ws u) : Fills item s (vs ++ ws) u := by
  induction hv with
  | nil s => exact hw
  | cons hv _ ih => exact .cons hv (ih hw)

theorem fills_octets (b read : Bytes) :
    Fills octetItem read (b.map fun x => Write.unsigned x.toNat) (b.reverse ++ read) := by
  induction b generalizing read with
  | nil => exact .nil read
  | cons x b ih =>
    have hb := ih (x :: read)
    rw [List.map_cons, List.reverse_cons, List.append_assoc, List.singleton_append]
    exact .cons ((reads_uint8 x).map (· :: read)) hb

/-- Octets are read back from an array. -/
theorem reads_octets {depth : Nat} {b : Bytes} (hb : b.length < headRange) :
    Reads (octets (depth + 1)) (Write.octets b) b := by
  refine Reads.untagged (Reads.of_head 4 (by decide) hb fun start => ?_)
  have ht := (fills_octets b []).takes
  rw [List.length_map, List.append_nil, ← List.flatMap_def] at ht
  refine ht.map (fun c d hd => ?_) fun c e he => ?_
  · simp only [Head.ofArgument, Nat.succ_ne_zero, if_false, readContainer, hd, List.reverse_reverse]
  · simp only [Head.ofArgument, Nat.succ_ne_zero, if_false, readContainer, he]

end AttestedChannel.Cbor
