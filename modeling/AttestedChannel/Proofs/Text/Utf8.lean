import AttestedChannel.Text.Utf8

/-!
# Reading back UTF-8

A character is read back whatever follows it, and not before its last octet is there. So a front of
a written text is scanned into its characters up to where it was cut, and what is left over is the
start of one character, of three octets at most.
-/

namespace AttestedChannel.Text.Utf8

/-! ## Octets -/

/-- The number of an octet. -/
theorem toNat_octet {n : Nat} (h : n < 256) : (UInt8.ofNat n).toNat = n := by
  rw [UInt8.toNat_ofNat']
  omega

theorem isContinuation_octet (n : Nat) : isContinuation (UInt8.ofNat (0x80 + n % 64)) = true := by
  have h := toNat_octet (n := 0x80 + n % 64) (by omega)
  simp only [isContinuation, Bool.and_eq_true, decide_eq_true_eq, UInt8.le_iff_toNat_le, h]
  simp only [UInt8.reduceToNat]
  omega

/-- The octets that may follow the first of a three-octet character. -/
theorem startsThree_octets {n : Nat} (hn : 0x800 ≤ n) (hw : n < 0x10000)
    (hs : n < 0xD800 ∨ 0xDFFF < n) :
    startsThree (UInt8.ofNat (0xE0 + n / 4096)) (UInt8.ofNat (0x80 + n / 64 % 64)) = true := by
  have ha := toNat_octet (n := 0xE0 + n / 4096) (by omega)
  have hb := toNat_octet (n := 0x80 + n / 64 % 64) (by omega)
  simp only [startsThree, isContinuation, UInt8.le_iff_toNat_le, ← UInt8.toNat_inj, ha, hb]
  simp only [UInt8.reduceToNat]
  repeat' split
  all_goals
    simp only [Bool.and_eq_true, decide_eq_true_eq]
    omega

/-- The octets that may follow the first of a four-octet character. -/
theorem startsFour_octets {n : Nat} (hn : 0x10000 ≤ n) (hw : n < 0x110000) :
    startsFour (UInt8.ofNat (0xF0 + n / 262144)) (UInt8.ofNat (0x80 + n / 4096 % 64)) = true := by
  have ha := toNat_octet (n := 0xF0 + n / 262144) (by omega)
  have hb := toNat_octet (n := 0x80 + n / 4096 % 64) (by omega)
  simp only [startsFour, isContinuation, UInt8.le_iff_toNat_le, ← UInt8.toNat_inj, ha, hb]
  simp only [UInt8.reduceToNat]
  repeat' split
  all_goals
    simp only [Bool.and_eq_true, decide_eq_true_eq]
    omega

/-- The first octet of a character of several octets is none of a shorter character. -/
theorem lead_two {n : Nat} (hn : 0x80 ≤ n) (hw : n < 0x800) :
    ¬ UInt8.ofNat (0xC0 + n / 64) < 0x80 ∧
      (0xC2 ≤ UInt8.ofNat (0xC0 + n / 64) && UInt8.ofNat (0xC0 + n / 64) ≤ 0xDF) = true := by
  have ha := toNat_octet (n := 0xC0 + n / 64) (by omega)
  simp only [Bool.and_eq_true, decide_eq_true_eq, UInt8.le_iff_toNat_le, UInt8.lt_iff_toNat_lt, ha,
    UInt8.reduceToNat]
  omega

theorem lead_three {n : Nat} (hw : n < 0x10000) :
    ¬ UInt8.ofNat (0xE0 + n / 4096) < 0x80 ∧
      (0xC2 ≤ UInt8.ofNat (0xE0 + n / 4096) && UInt8.ofNat (0xE0 + n / 4096) ≤ 0xDF) = false := by
  have ha := toNat_octet (n := 0xE0 + n / 4096) (by omega)
  simp only [Bool.and_eq_false_iff, decide_eq_false_iff_not, UInt8.le_iff_toNat_le,
    UInt8.lt_iff_toNat_lt, ha, UInt8.reduceToNat]
  omega

theorem lead_four {n : Nat} (hw : n < 0x110000) (b : UInt8) :
    ¬ UInt8.ofNat (0xF0 + n / 262144) < 0x80 ∧
      (0xC2 ≤ UInt8.ofNat (0xF0 + n / 262144) && UInt8.ofNat (0xF0 + n / 262144) ≤ 0xDF) = false ∧
      startsThree (UInt8.ofNat (0xF0 + n / 262144)) b = false := by
  have ha := toNat_octet (n := 0xF0 + n / 262144) (by omega)
  have h₁ : ¬ 0xF0 + n / 262144 = 224 := by omega
  have h₂ : ¬ 0xF0 + n / 262144 = 237 := by omega
  have h₃ : ¬ 0xF0 + n / 262144 ≤ 239 := by omega
  simp only [startsThree, Bool.and_eq_false_iff, decide_eq_false_iff_not, UInt8.le_iff_toNat_le,
    UInt8.lt_iff_toNat_lt, ← UInt8.toNat_inj, ha, UInt8.reduceToNat, h₁, h₂, h₃, if_false,
    decide_false, Bool.and_false, Bool.false_and, and_true]
  omega

/-! ## One character -/

/-- The octets write the character: they have the shape that `decodeChar` asks for. -/
inductive Encodes (c : Char) : Bytes → Prop
  | one {a : UInt8} (ha : a < 0x80) (hc : Char.ofNat a.toNat = c) : Encodes c [a]
  | two {a b : UInt8} (ha : ¬ a < 0x80) (hb : (0xC2 ≤ a && a ≤ 0xDF && isContinuation b) = true)
      (hc : Char.ofNat ((a.toNat - 0xC0) * 64 + (b.toNat - 0x80)) = c) : Encodes c [a, b]
  | three {a b d : UInt8} (ha : ¬ a < 0x80) (hl : (0xC2 ≤ a && a ≤ 0xDF) = false)
      (hd : (startsThree a b && isContinuation d) = true)
      (hc : Char.ofNat ((a.toNat - 0xE0) * 4096 + (b.toNat - 0x80) * 64 + (d.toNat - 0x80)) = c) :
      Encodes c [a, b, d]
  | four {a b d e : UInt8} (ha : ¬ a < 0x80) (hl : (0xC2 ≤ a && a ≤ 0xDF) = false)
      (ht : startsThree a b = false)
      (he : (startsFour a b && isContinuation d && isContinuation e) = true)
      (hc : Char.ofNat ((a.toNat - 0xF0) * 262144 + (b.toNat - 0x80) * 4096 +
        (d.toNat - 0x80) * 64 + (e.toNat - 0x80)) = c) : Encodes c [a, b, d, e]

/-- A character is written in one of these shapes. -/
theorem encodes_encodeChar (c : Char) : Encodes c (encodeChar c) := by
  have hv : c.toNat < 0xD800 ∨ 0xDFFF < c.toNat ∧ c.toNat < 0x110000 := c.valid
  have hc := Char.ofNat_toNat c
  unfold encodeChar
  dsimp only
  generalize c.toNat = n at hv hc ⊢
  -- one case for each number of octets
  split
  · next h =>
    have ha := toNat_octet (n := n) (by omega)
    exact .one (UInt8.lt_iff_toNat_lt.2 (by rw [ha]; exact h)) (by rw [ha, hc])
  · split
    · next h₁ h =>
      have ha := toNat_octet (n := 0xC0 + n / 64) (by omega)
      have hb := toNat_octet (n := 0x80 + n % 64) (by omega)
      have hn : (0xC0 + n / 64 - 0xC0) * 64 + (0x80 + n % 64 - 0x80) = n := by omega
      obtain ⟨hl, hr⟩ := lead_two (Nat.le_of_not_lt h₁) h
      exact .two hl (by rw [hr, isContinuation_octet]; rfl) (by rw [ha, hb, hn, hc])
    · split
      · next h₁ h₂ h =>
        have ha := toNat_octet (n := 0xE0 + n / 4096) (by omega)
        have hb := toNat_octet (n := 0x80 + n / 64 % 64) (by omega)
        have hd := toNat_octet (n := 0x80 + n % 64) (by omega)
        have hn : (0xE0 + n / 4096 - 0xE0) * 4096 + (0x80 + n / 64 % 64 - 0x80) * 64 +
            (0x80 + n % 64 - 0x80) = n := by omega
        obtain ⟨hl, hr⟩ := lead_three h
        have hs := startsThree_octets (Nat.le_of_not_lt h₂) h (by omega)
        exact .three hl hr (by rw [hs, isContinuation_octet]; rfl) (by rw [ha, hb, hd, hn, hc])
      · next h₁ h₂ h₃ =>
        have ha := toNat_octet (n := 0xF0 + n / 262144) (by omega)
        have hb := toNat_octet (n := 0x80 + n / 4096 % 64) (by omega)
        have hd := toNat_octet (n := 0x80 + n / 64 % 64) (by omega)
        have he := toNat_octet (n := 0x80 + n % 64) (by omega)
        have hn : (0xF0 + n / 262144 - 0xF0) * 262144 + (0x80 + n / 4096 % 64 - 0x80) * 4096 +
            (0x80 + n / 64 % 64 - 0x80) * 64 + (0x80 + n % 64 - 0x80) = n := by omega
        obtain ⟨hl, hr, ht⟩ := lead_four (n := n) (by omega) (UInt8.ofNat (0x80 + n / 4096 % 64))
        have hs := startsFour_octets (Nat.le_of_not_lt h₃) (by omega)
        exact .four hl hr ht (by rw [hs, isContinuation_octet, isContinuation_octet]; rfl)
          (by rw [ha, hb, hd, he, hn, hc])

/-- A character is read back whatever follows it. -/
theorem Encodes.decodeChar_append {c : Char} {w : Bytes} (h : Encodes c w) (r : Bytes) :
    decodeChar (w ++ r) = some (c, r) := by
  cases h with
  | one ha hc => simp only [List.cons_append, List.nil_append, decodeChar, if_pos ha, hc]
  | two ha hb hc =>
    simp only [List.cons_append, List.nil_append, decodeChar, if_neg ha, hb, if_true, hc]
  | three ha hl hd hc =>
    simp only [List.cons_append, List.nil_append, decodeChar, if_neg ha, hl, Bool.false_and,
      Bool.false_eq_true, if_false, hd, if_true, hc]
  | four ha hl ht he hc =>
    simp only [List.cons_append, List.nil_append, decodeChar, if_neg ha, hl, ht, Bool.false_and,
      Bool.false_eq_true, if_false, he, if_true, hc]

/-- A character of which octets are missing is not read. -/
theorem Encodes.decodeChar_of_prefix {c : Char} {w p : Bytes} (h : Encodes c w) (hp : p <+: w)
    (hl : p.length < w.length) : decodeChar p = none := by
  rw [List.prefix_iff_eq_take.1 hp]
  generalize p.length = k at hl
  cases h with
  | one _ _ =>
    match k, hl with
    | 0, _ => rfl
  | two ha _ _ =>
    match k, hl with
    | 0, _ => rfl
    | 1, _ => simp only [List.take_succ_cons, List.take_zero, decodeChar, if_neg ha]
  | three ha hr _ _ =>
    match k, hl with
    | 0, _ => rfl
    | 1, _ => simp only [List.take_succ_cons, List.take_zero, decodeChar, if_neg ha]
    | 2, _ =>
      simp only [List.take_succ_cons, List.take_zero, decodeChar, if_neg ha, hr, Bool.false_and,
        Bool.false_eq_true, if_false]
  | four ha hr ht _ _ =>
    match k, hl with
    | 0, _ => rfl
    | 1, _ => simp only [List.take_succ_cons, List.take_zero, decodeChar, if_neg ha]
    | 2, _ =>
      simp only [List.take_succ_cons, List.take_zero, decodeChar, if_neg ha, hr, Bool.false_and,
        Bool.false_eq_true, if_false]
    | 3, _ =>
      simp only [List.take_succ_cons, List.take_zero, decodeChar, if_neg ha, hr, ht,
        Bool.false_and, Bool.false_eq_true, if_false]

theorem Encodes.length_le {c : Char} {w : Bytes} (h : Encodes c w) : w.length ≤ 4 := by
  cases h <;> simp

/-! ## Characters in a row -/

/-- Characters in a row are read one after the other, up to where none begins. -/
theorem scanOnto_append (cs read : List Char) {left : Bytes} (h : decodeChar left = none) :
    scanOnto read (cs.flatMap encodeChar ++ left) = (read.reverse ++ cs, left) := by
  induction cs generalizing read with
  | nil =>
    rw [List.flatMap_nil, List.nil_append, List.append_nil, scanOnto]
    split
    · rfl
    · next hd => rw [h] at hd; cases hd
  | cons c cs ih =>
    have hc := (encodes_encodeChar c).decodeChar_append (cs.flatMap encodeChar ++ left)
    rw [List.flatMap_cons, List.append_assoc, scanOnto]
    split
    · next hd => rw [hc] at hd; cases hd
    · next d r hd =>
      rw [hc] at hd
      cases hd
      rw [ih, List.reverse_cons, List.append_assoc, List.singleton_append]

theorem scan_append (cs : List Char) {left : Bytes} (h : decodeChar left = none) :
    scan (cs.flatMap encodeChar ++ left) = (cs, left) :=
  scanOnto_append cs [] h

/-- Where characters in a row are cut, at most one of them is cut through. -/
theorem prefix_flatMap_encodeChar {q : Bytes} {cs : List Char} (h : q <+: cs.flatMap encodeChar) :
    ∃ cs₁ cs₂ left, cs = cs₁ ++ cs₂ ∧ q = cs₁.flatMap encodeChar ++ left ∧
      decodeChar left = none ∧ left.length ≤ 3 := by
  induction cs generalizing q with
  | nil => exact ⟨[], [], [], rfl, List.prefix_nil.1 h, rfl, Nat.zero_le _⟩
  | cons c cs ih =>
    have hc := encodes_encodeChar c
    rw [List.flatMap_cons] at h
    by_cases hl : q.length < (encodeChar c).length
    · -- the first character is cut through, so it is what is left over
      have hp : q <+: encodeChar c :=
        List.prefix_of_prefix_length_le h (List.prefix_append _ _) (Nat.le_of_lt hl)
      have h4 := hc.length_le
      exact ⟨[], c :: cs, q, rfl, rfl, hc.decodeChar_of_prefix hp hl, by omega⟩
    · have hp : encodeChar c <+: q :=
        List.prefix_of_prefix_length_le (List.prefix_append _ _) h (Nat.le_of_not_lt hl)
      obtain ⟨q, rfl⟩ := hp
      obtain ⟨cs₁, cs₂, left, rfl, rfl, hd, h3⟩ := ih ((List.prefix_append_right_inj _).1 h)
      exact ⟨c :: cs₁, cs₂, left, rfl, by rw [List.flatMap_cons, List.append_assoc], hd, h3⟩

/-- Characters in a row begin with one unless there is none. -/
theorem eq_nil_of_decodeChar {cs : List Char} (h : decodeChar (cs.flatMap encodeChar) = none) :
    cs = [] := by
  cases cs with
  | nil => rfl
  | cons c cs =>
    rw [List.flatMap_cons, (encodes_encodeChar c).decodeChar_append] at h
    cases h

/-! ## Texts -/

/-- A text is read back. -/
@[simp] theorem decode?_encode (s : String) : decode? (encode s) = some s := by
  have h : scan (s.toList.flatMap encodeChar ++ []) = (s.toList, []) := scan_append s.toList rfl
  rw [List.append_nil] at h
  rw [decode?, encode, h]
  exact congrArg some String.ofList_toList

theorem length_encode_replicate (n : Nat) (c : Char) :
    (encode (String.ofList (List.replicate n c))).length = n * (encodeChar c).length := by
  rw [encode, String.toList_ofList, List.length_flatMap, List.map_replicate, List.sum_replicate_nat]

end AttestedChannel.Text.Utf8
