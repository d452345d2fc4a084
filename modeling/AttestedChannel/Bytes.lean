/-!
# Byte strings

A byte string is a list of octets. This module holds what every wire format of the library needs of
them:

* `take? n b` splits off exactly `n` octets, or fails when there are fewer (`take?_append`,
  `take?_eq_some`);
* `bigEndian w n` and `toNat b` write and read unsigned numbers, highest octet first
  (`toNat_bigEndian`).

Both walk the list with an accumulator, so that a frame of a mebibyte does not cost stack.
-/

namespace AttestedChannel

/-- A byte string. -/
abbrev Bytes := List UInt8

namespace Bytes

/-! ## Exact prefixes -/

/-- `take? n b` with the octets already split off, last one first. -/
def takeOnto : Nat → Bytes → Bytes → Option (Bytes × Bytes)
  | 0, taken, b => some (taken.reverse, b)
  | _ + 1, _, [] => none
  | n + 1, taken, x :: b => takeOnto n (x :: taken) b

/-- The first `n` octets and what follows them; nothing when there are fewer than `n`. -/
def take? (n : Nat) (b : Bytes) : Option (Bytes × Bytes) := takeOnto n [] b

theorem takeOnto_append (p r taken : Bytes) :
    takeOnto p.length taken (p ++ r) = some (taken.reverse ++ p, r) := by
  induction p generalizing taken with
  | nil => simp [takeOnto]
  | cons x p ih => simp [takeOnto, ih]

theorem eq_append_of_takeOnto {n : Nat} {taken b p r : Bytes}
    (h : takeOnto n taken b = some (p, r)) :
    ∃ q, q.length = n ∧ p = taken.reverse ++ q ∧ b = q ++ r := by
  induction n generalizing taken b with
  | zero =>
    simp only [takeOnto, Option.some.injEq, Prod.mk.injEq] at h
    exact ⟨[], rfl, by simp [h.1], by simp [h.2]⟩
  | succ n ih =>
    cases b with
    | nil => simp [takeOnto] at h
    | cons x b =>
      obtain ⟨q, hl, hp, hb⟩ := ih (by simpa [takeOnto] using h)
      exact ⟨x :: q, by simp [hl], by simp [hp], by simp [hb]⟩

theorem takeOnto_eq_none {n : Nat} {taken b : Bytes} (h : takeOnto n taken b = none) :
    b.length < n := by
  induction n generalizing taken b with
  | zero => simp [takeOnto] at h
  | succ n ih =>
    cases b with
    | nil => simp
    | cons x b => have := ih (by simpa [takeOnto] using h); simp; omega

/-- A prefix of the asked length is split off, and the rest is left as it is. -/
@[simp] theorem take?_append (p r : Bytes) : take? p.length (p ++ r) = some (p, r) := by
  simp [take?, takeOnto_append]

/-- What was split off is the front of the input and has the asked length. -/
theorem take?_eq_some {n : Nat} {b p r : Bytes} :
    take? n b = some (p, r) ↔ p.length = n ∧ b = p ++ r := by
  constructor
  · intro h
    obtain ⟨q, hl, hp, hb⟩ := eq_append_of_takeOnto h
    simp only [List.reverse_nil, List.nil_append] at hp
    exact ⟨by rw [hp, hl], by rw [hp, hb]⟩
  · rintro ⟨rfl, rfl⟩
    exact take?_append p r

/-- Splitting fails exactly when the input is too short. -/
theorem take?_eq_none {n : Nat} {b : Bytes} : take? n b = none ↔ b.length < n := by
  constructor
  · exact takeOnto_eq_none
  · intro h
    cases hc : take? n b with
    | none => rfl
    | some pr =>
      obtain ⟨hl, hb⟩ := take?_eq_some.1 (show take? n b = some (pr.1, pr.2) from hc)
      rw [hb, List.length_append] at h
      omega

/-! ## Big-endian numbers -/

/-- The number that the octets write, highest first. -/
def toNat (b : Bytes) : Nat := b.foldl (fun n x => n * 256 + x.toNat) 0

/-- The `w` lowest octets of `n`, highest first. -/
def bigEndian : Nat → Nat → Bytes
  | 0, _ => []
  | w + 1, n => bigEndian w (n / 256) ++ [UInt8.ofNat n]

@[simp] theorem length_bigEndian (w n : Nat) : (bigEndian w n).length = w := by
  induction w generalizing n with
  | zero => rfl
  | succ w ih => simp [bigEndian, ih]

theorem toNat_concat (b : Bytes) (x : UInt8) : toNat (b ++ [x]) = toNat b * 256 + x.toNat := by
  simp [toNat]

/-- How many numbers `w` octets can write. -/
def capacity (w : Nat) : Nat := 1 <<< (8 * w)

theorem capacity_succ (w : Nat) : capacity (w + 1) = capacity w * 256 := by
  rw [capacity, capacity, Nat.mul_succ, Nat.shiftLeft_add, Nat.shiftLeft_eq _ 8]

/-- A number that fits its octets is read back. -/
theorem toNat_bigEndian {w n : Nat} (h : n < capacity w) : toNat (bigEndian w n) = n := by
  induction w generalizing n with
  | zero =>
    have hn : n = 0 := Nat.lt_one_iff.1 h
    simp [bigEndian, toNat, hn]
  | succ w ih =>
    rw [capacity_succ] at h
    have hdiv : n / 256 < capacity w := by
      rw [Nat.div_lt_iff_lt_mul (by decide)]
      exact h
    rw [bigEndian, toNat_concat, ih hdiv]
    simp only [UInt8.toNat_ofNat']
    omega

/-- Octets write a number within their capacity. -/
theorem toNat_lt (b : Bytes) : toNat b < capacity b.length := by
  rw [← List.reverse_reverse b]
  generalize b.reverse = r
  induction r with
  | nil => decide
  | cons x r ih =>
    rw [List.reverse_cons, toNat_concat, List.length_append, List.length_singleton, capacity_succ]
    have := x.toNat_lt
    omega

/-- Octets are written back from their number. -/
theorem bigEndian_toNat (b : Bytes) : bigEndian b.length (toNat b) = b := by
  rw [← List.reverse_reverse b]
  generalize b.reverse = r
  induction r with
  | nil => rfl
  | cons x r ih =>
    have hx := x.toNat_lt
    rw [List.reverse_cons, toNat_concat, List.length_append, List.length_singleton, bigEndian]
    have hd : (toNat r.reverse * 256 + x.toNat) / 256 = toNat r.reverse := by omega
    have hm : UInt8.ofNat (toNat r.reverse * 256 + x.toNat) = x := by
      apply UInt8.toNat.inj
      simp only [UInt8.toNat_ofNat']
      omega
    rw [hd, ih, hm]

end Bytes

end AttestedChannel
