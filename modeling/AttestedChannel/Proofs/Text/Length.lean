import AttestedChannel.Duration
import Mathlib.Data.Nat.Digits.Defs

/-!
# How long texts get

Bounds on the number of characters of everything that is put into an error text, and on the number
of octets of a text. None of them is sharp: they only have to be far below the size of a frame.
-/

namespace AttestedChannel

/-! ## UTF-8 -/

namespace Text.Utf8

theorem length_encodeChar_le (c : Char) : (encodeChar c).length ≤ 4 := by
  unfold encodeChar
  dsimp only
  repeat' split
  all_goals simp

/-- A character takes at most four octets. -/
theorem length_encode_le (s : String) : (encode s).length ≤ 4 * s.length := by
  rw [← String.length_toList, encode]
  induction s.toList with
  | nil => simp
  | cons c cs ih =>
    have hc := length_encodeChar_le c
    rw [List.flatMap_cons, List.length_append, List.length_cons]
    omega

theorem length_lossyOnto_le (read : List Char) (b : Bytes) :
    (lossyOnto read b).length ≤ read.length + b.length := by
  induction read, b using lossyOnto.induct with
  | case1 read b c r h ih =>
    have hr := length_of_decodeChar h
    rw [lossyOnto.eq_def]
    split
    · next c' r' h' =>
      cases h.symm.trans h'
      rw [List.length_cons] at ih
      omega
    · next h' => cases h.symm.trans h'
  | case2 read h =>
    rw [lossyOnto.eq_def]
    simp [decodeChar]
  | case3 read x r h ih =>
    have hpos := illFormed_pos (x :: r)
    rw [lossyOnto.eq_def]
    split
    · next h' => cases h.symm.trans h'
    · rw [List.length_cons, List.length_drop] at ih
      rw [List.length_cons] at ih ⊢
      dsimp only
      omega

/-- Reading octets as text yields at most one character for each. -/
theorem length_lossy_le (b : Bytes) : (lossy b).length ≤ b.length := by
  have h := length_lossyOnto_le [] b
  rw [lossy, String.length_ofList]
  simpa using h

end Text.Utf8

/-! ## Numbers -/

theorem Text.length_toString_le {n e : Nat} (he : 0 < e) (h : n < 10 ^ e) :
    (toString n).length ≤ e := by
  rw [Nat.toString_eq_repr, Nat.repr, String.length_ofList]
  exact Nat.toDigits_length 10 n e he h

/-- A sign takes one character more. -/
theorem Text.length_toString_int_le {n : Int} {e : Nat} (he : 0 < e) (h : n.natAbs < 10 ^ e) :
    (toString n).length ≤ e + 1 := by
  cases n with
  | ofNat n => exact Nat.le_succ_of_le (Text.length_toString_le he h)
  | negSucc n =>
    have hn := Text.length_toString_le he h
    show ("-" ++ toString (n + 1)).length ≤ e + 1
    rw [String.length_append, show "-".length = 1 from rfl]
    exact Nat.add_comm e 1 ▸ Nat.add_le_add_left hn 1

theorem Text.Hex.length_padded (w n : Nat) : (padded w n).length = max w (width n) := by
  rw [padded, String.length_ofList, length_digits]

theorem Text.Hex.width_le {n k : Nat} (h : n < 2 ^ (4 * k + 4)) : width n ≤ k + 1 := by
  unfold width
  split
  · omega
  · have hn : n ≠ 0 := by omega
    have := (Nat.log2_lt hn).2 h
    omega

/-! ## Quoted text -/

namespace Text.Quoted

theorem length_encodeChar_le (c : Char) : (encodeChar c).length ≤ 10 := by
  have hw : Hex.width c.toNat ≤ 6 := by
    have hc : c.toNat < 0x110000 := by
      rcases c.valid with h | ⟨-, h⟩
      · exact Nat.lt_trans h (by decide)
      · exact h
    exact Hex.width_le (Nat.lt_trans hc (by decide))
  unfold encodeChar
  repeat' split
  all_goals simp [Hex.length_digits]
  omega

/-- No character takes more than ten between the quotes. -/
theorem length_encode_le (s : String) : (encode s).length ≤ 10 * s.length + 2 := by
  rw [encode, String.length_ofList, ← String.length_toList]
  induction s.toList with
  | nil => simp
  | cons c cs ih =>
    have hc := length_encodeChar_le c
    simp only [List.flatMap_cons, List.length_append, List.length_cons, List.length_nil] at ih ⊢
    omega

end Text.Quoted

/-! ## Numbers with a point -/

namespace Binary64

theorem magnitude_finite {x : Binary64} {m : Nat} {q : Int} (h : x.magnitude = .finite m q) :
    m < 2 ^ 53 ∧ -1074 ≤ q ∧ q ≤ 971 := by
  have hf : x.bits.toNat % (1 <<< 52) < 2 ^ 52 := Nat.mod_lt _ (by decide)
  have he : x.bits.toNat >>> 52 % 2048 < 2048 := Nat.mod_lt _ (by decide)
  unfold magnitude at h
  generalize x.bits.toNat % (1 <<< 52) = fraction at h hf
  generalize x.bits.toNat >>> 52 % 2048 = exponent at h he
  dsimp only at h
  split at h
  · split at h <;> cases h
  · split at h
    · cases h
      omega
    · simp only [Magnitude.finite.injEq, Int.ofNat_eq_natCast] at h
      have hone : 1 <<< 52 = 2 ^ 52 := rfl
      omega

/-- The points that `onGrid` tests are next to the number itself. -/
theorem digits_le_of_onGrid {m : Nat} {q k : Int} {d : Decimal} (h : onGrid m q k = some d) :
    d.exponent = k ∧ d.digits ≤ 4 * m * (10 ^ (-k).toNat * 2 ^ (q - 2).toNat) + 1 := by
  have hdiv : ∀ v g : Nat, v / g ≤ v := Nat.div_le_self
  have hv := hdiv (4 * m * (Nat.pow 10 (-k).toNat <<< (q - 2).toNat))
    (Nat.pow 10 k.toNat <<< (2 - q).toNat)
  rw [Nat.shiftLeft_eq (Nat.pow 10 (-k).toNat)] at hv
  unfold onGrid at h
  dsimp only at h
  rw [Nat.shiftLeft_eq (Nat.pow 10 (-k).toNat)] at h
  repeat' split at h
  all_goals
    cases h
    try exact ⟨rfl, by first | exact Nat.le_succ_of_le hv | exact Nat.succ_le_succ hv⟩

theorem of_search {m : Nat} {q : Int} {n : Nat} {k : Int} {d : Decimal}
    (h : search m q n k = some d) : k - n < d.exponent ∧ d.exponent ≤ k ∧
      onGrid m q d.exponent = some d := by
  induction n generalizing k with
  | zero => cases h
  | succ n ih =>
    rw [search] at h
    split at h
    · next d' hd =>
      cases h
      obtain ⟨rfl, -⟩ := digits_le_of_onGrid hd
      exact ⟨by omega, Int.le_refl _, hd⟩
    · obtain ⟨h₁, h₂, h₃⟩ := ih h
      exact ⟨by omega, by omega, h₃⟩

theorem coarseGrid_bounds {m : Nat} {q : Int} (hm : m < 2 ^ 53) (h₁ : -1074 ≤ q) (h₂ : q ≤ 971) :
    -400 ≤ coarseGrid m q ∧ coarseGrid m q ≤ 400 := by
  have hl : m.log2 ≤ 53 := by
    by_cases h0 : m = 0
    · simp [h0]
    · exact Nat.le_of_lt ((Nat.log2_lt h0).2 hm)
  unfold coarseGrid
  simp only [Int.ofNat_eq_natCast, Nat.cast_add, Nat.cast_one]
  omega

theorem length_toDigits_of_le {m a b d : Nat} (hm : m < 2 ^ 53)
    (hd : d ≤ 4 * m * (10 ^ a * 2 ^ b) + 1) : (Nat.toDigits 10 d).length ≤ 18 + a + b := by
  refine Nat.toDigits_length 10 d _ (by omega) ?_
  have hm : 4 * m ≤ 10 ^ 17 := by omega
  have h2 : 2 ^ b ≤ 10 ^ b := Nat.pow_le_pow_left (by decide) b
  calc
    d ≤ 4 * m * (10 ^ a * 2 ^ b) + 1 := hd
    _ ≤ 10 ^ 17 * (10 ^ a * 10 ^ b) + 1 := by gcongr
    _ < 10 * (10 ^ 17 * (10 ^ a * 10 ^ b)) := by
      have : 0 < 10 ^ 17 * (10 ^ a * 10 ^ b) := by positivity
      omega
    _ = 10 ^ (18 + a + b) := by ring

/-- The digits of a shortest decimal and the size of its exponent are limited. -/
theorem shortest_bounds {m : Nat} {q : Int} (hm : m < 2 ^ 53) (h₁ : -1074 ≤ q) (h₂ : q ≤ 971) :
    (Nat.toDigits 10 (shortest m q).digits).length ≤ 1500 ∧ -420 ≤ (shortest m q).exponent ∧
      (shortest m q).exponent ≤ 400 := by
  unfold shortest
  split
  · decide
  · cases hs : search m q 20 (coarseGrid m q) with
    | none => decide
    | some d =>
      obtain ⟨hlow, hhigh, hgrid⟩ := of_search hs
      obtain ⟨hc₁, hc₂⟩ := coarseGrid_bounds hm h₁ h₂
      obtain ⟨-, hd⟩ := digits_le_of_onGrid hgrid
      have hl := length_toDigits_of_le hm hd
      simp only [Option.getD_some]
      omega

theorem Decimal.length_positional_le {d : Decimal} (hd : (Nat.toDigits 10 d.digits).length ≤ 1500)
    (h₁ : -420 ≤ d.exponent) (h₂ : d.exponent ≤ 400) : d.positional.length ≤ 2000 := by
  unfold positional
  dsimp only
  split
  · next n hn =>
    rw [Int.ofNat_eq_natCast] at hn
    simp only [String.length_ofList, List.length_append, List.length_replicate, List.length_cons,
      List.length_nil]
    omega
  · next n hn =>
    simp only [String.length_ofList, List.length_append, List.length_replicate, List.length_cons,
      List.length_take, List.length_drop]
    omega

/-- However large or small a number is, its text is short. -/
theorem length_text_le (x : Binary64) : x.text.length ≤ 2001 := by
  have hsign : (if x.isNegative then "-" else "").length ≤ 1 := by split <;> decide
  unfold text
  dsimp only
  split
  · decide
  · rw [String.length_append, show "inf".length = 3 from rfl]
    omega
  · next m q hmag =>
    obtain ⟨hm, h₁, h₂⟩ := magnitude_finite hmag
    obtain ⟨hd, he₁, he₂⟩ := shortest_bounds hm h₁ h₂
    have hp := Decimal.length_positional_le hd he₁ he₂
    rw [String.length_append]
    omega

end Binary64

/-! ## Durations -/

namespace Duration

theorem length_decimalText_le {whole w fraction : Nat} (hw : whole < 10 ^ 20) (hf : fraction < 10 ^ 10)
    (hp : w ≤ 10) : (decimalText whole w fraction).length ≤ 31 := by
  have h₁ := Nat.toDigits_length 10 whole 20 (by decide) hw
  have h₂ := Nat.toDigits_length 10 fraction 10 (by decide) hf
  have h₃ : (((paddedDigits w fraction).reverse.dropWhile (· == '0')).reverse).length ≤ 10 := by
    have h := (List.dropWhile_suffix (l := (paddedDigits w fraction).reverse) (· == '0')).length_le
    rw [List.length_reverse] at h ⊢
    refine Nat.le_trans h ?_
    rw [paddedDigits, List.length_append, List.length_replicate]
    omega
  rw [decimalText, String.length_ofList, List.length_append]
  split
  · rw [List.length_nil]
    omega
  · rw [List.length_cons]
    omega

/-- The text of a duration is short. -/
theorem length_text_le (d : Duration) : d.text.length ≤ 33 := by
  have hs := d.seconds.toNat_lt
  have hn := d.nanos.toNat_lt
  have hunit : ∀ {s : String} (u : String), s.length ≤ 31 → u.length ≤ 2 → (s ++ u).length ≤ 33 := by
    intro s u h hu
    rw [String.length_append]
    omega
  unfold text
  dsimp only
  split
  · exact hunit "s" (length_decimalText_le (by omega) (by omega) (by decide)) (by decide)
  · split
    · exact hunit "ms" (length_decimalText_le (by omega) (by omega) (by decide)) (by decide)
    · split
      · exact hunit "µs" (length_decimalText_le (by omega) (by omega) (by decide)) (by decide)
      · exact hunit "ns" (length_decimalText_le (by omega) (by decide) (by decide)) (by decide)

end Duration

end AttestedChannel
