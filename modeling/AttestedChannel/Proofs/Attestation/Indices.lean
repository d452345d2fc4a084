import AttestedChannel.Proofs.Attestation.Judging
import AttestedChannel.Proofs.Payload.RoundTrip
import Mathlib.Data.List.Sort

/-!
# Masks and lists of indices

A list of indices makes a mask that selects those of them that are below 32 (`selects_ofIndices`).
Masks that select the same are equal, so neither the order of a list nor its repetitions nor its
greater indices have a say in its mask, and whatever else `ofIndices` does to masks can be read off
what they select. The other way round a mask is listed in ascending order (`ascending_indices`), and
there is only one ascending list of given elements. `masks_correspond_to_indices` puts the two
together: listing a mask and making one of a list undo each other, as far as the list can tell.
-/

namespace AttestedChannel.PropertyMask

variable {m : PropertyMask} {is js : List UInt8} {i : UInt8}

/-! ## What a list of indices selects -/

theorem selects_empty (j : Nat) : empty.selects j = false := Nat.zero_testBit j

/-- An index below 32 is one bit, and every other index is none. -/
theorem selects_single {j : Nat} : (single i).selects j = true ↔ i < 32 ∧ i.toNat = j := by
  unfold single
  split
  · next hi =>
    have hlt : i.toNat < 32 := UInt8.lt_iff_toNat_lt.1 hi
    have hbits : ((1 : UInt32) <<< i.toUInt32).toNat = 2 ^ i.toNat := by
      rw [UInt32.toNat_shiftLeft, UInt8.toNat_toUInt32, Nat.mod_eq_of_lt hlt]
      exact (congrArg (· % 2 ^ 32) (Nat.one_shiftLeft _)).trans
        (Nat.mod_eq_of_lt (Nat.pow_lt_pow_right (by decide) hlt))
    rw [selects, hbits, Nat.testBit_two_pow, decide_eq_true_iff, and_iff_right hi]
  · next hi =>
    rw [selects_empty]
    simp [hi]

/-- **A list selects what is in it and below 32.** -/
theorem selects_ofIndices {j : Nat} :
    (ofIndices is).selects j = true ↔ ∃ i ∈ is, i < 32 ∧ i.toNat = j := by
  induction is with
  | nil => simp [ofIndices, selects_empty]
  | cons i is ih =>
    show ((single i).union (ofIndices is)).selects j = true ↔ _
    rw [selects_union, Bool.or_eq_true, selects_single, ih, List.exists_mem_cons_iff]

/-- A list selects an index that is in it and below 32. -/
theorem selects_ofIndices_toNat :
    (ofIndices is).selects i.toNat = true ↔ i ∈ is ∧ i < 32 := by
  rw [selects_ofIndices]
  constructor
  · rintro ⟨j, hj, hlt, heq⟩
    obtain rfl := UInt8.toNat.inj heq
    exact ⟨hj, hlt⟩
  · rintro ⟨hi, hlt⟩
    exact ⟨i, hi, hlt, rfl⟩

/-! ## Masks by their indices -/

/-- Masks that select the same indices are equal. -/
theorem eq_of_mem_indices {m n : PropertyMask} (h : ∀ i, i ∈ m.indices ↔ i ∈ n.indices) :
    m = n := by
  refine eq_of_selects fun j => ?_
  by_cases hj : j < 256
  · have hi := h (UInt8.ofNat j)
    rw [mem_indices, mem_indices, UInt8.toNat_ofNat_of_lt' hj] at hi
    exact Bool.eq_iff_iff.2 hi
  · -- no mask selects anything there
    have hnone : ∀ m : PropertyMask, m.selects j = false := by
      intro m
      rw [← Bool.not_eq_true]
      exact fun hs => hj (Nat.lt_trans (lt_of_selects hs) (by decide))
    rw [hnone, hnone]

theorem mem_indices_ofIndices : i ∈ (ofIndices is).indices ↔ i ∈ is ∧ i < 32 :=
  mem_indices.trans selects_ofIndices_toNat

/-- A mask is listed in ascending order. -/
theorem ascending_indices (m : PropertyMask) : m.indices.Pairwise (· < ·) := by
  refine List.pairwise_map.2 (List.Pairwise.filter _ ?_)
  decide

theorem lt_of_mem_indices (h : i ∈ m.indices) : i < 32 :=
  UInt8.lt_iff_toNat_lt.2 (lt_of_selects (mem_indices.1 h))

/-! ## The laws of `ofIndices` -/

/-- **Lists make one mask if they have the same indices below 32.** -/
theorem ofIndices_eq_iff :
    ofIndices is = ofIndices js ↔ ∀ i, i < 32 → (i ∈ is ↔ i ∈ js) := by
  constructor
  · intro h i hi
    have hmem : i ∈ is ∧ i < 32 ↔ i ∈ js ∧ i < 32 := by
      rw [← mem_indices_ofIndices, ← mem_indices_ofIndices, h]
    rwa [and_iff_left hi, and_iff_left hi] at hmem
  · intro h
    refine eq_of_mem_indices fun i => ?_
    rw [mem_indices_ofIndices, mem_indices_ofIndices]
    exact and_congr_left fun hi => h i hi

theorem ofIndices_append (is js : List UInt8) :
    ofIndices (is ++ js) = (ofIndices is).union (ofIndices js) := by
  refine eq_of_mem_indices fun i => ?_
  rw [mem_indices_ofIndices, mem_indices, selects_union, Bool.or_eq_true, selects_ofIndices_toNat,
    selects_ofIndices_toNat, List.mem_append, or_and_right]

/-- **A mask is that of its indices.** -/
theorem ofIndices_indices (m : PropertyMask) : ofIndices m.indices = m := by
  refine eq_of_mem_indices fun i => ?_
  rw [mem_indices_ofIndices]
  exact and_iff_left_of_imp lt_of_mem_indices

/-- **The mask of a list is listed as the ascending list of its elements below 32.** -/
theorem eq_indices_ofIndices_iff {l : List UInt8} :
    l = (ofIndices is).indices ↔ l.Pairwise (· < ·) ∧ ∀ i, i ∈ l ↔ i ∈ is ∧ i < 32 := by
  constructor
  · rintro rfl
    exact ⟨ascending_indices _, fun i => mem_indices_ofIndices⟩
  · rintro ⟨hasc, hmem⟩
    exact hasc.eq_of_mem_iff (ascending_indices _) fun i =>
      (hmem i).trans mem_indices_ofIndices.symm

/-- **Masks and lists of indices correspond.**

* The mask of a list is listed in ascending order, with each element of the list that is below 32
  once and with no other; this is the only such list.
* Two lists make the same mask exactly if the same indices below 32 are in them, so a list can be
  reordered and its elements repeated; a list that consists of two makes the union of their masks,
  bit by bit.
* Every mask of 32 bits, whether they have names or not, is the mask of its indices, and it is read
  back from its octets, whatever follows them. -/
theorem masks_correspond_to_indices :
    (∀ is l : List UInt8, l = (ofIndices is).indices ↔
      l.Pairwise (· < ·) ∧ ∀ i, i ∈ l ↔ i ∈ is ∧ i < 32) ∧
    (∀ is js : List UInt8, ofIndices is = ofIndices js ↔ ∀ i, i < 32 → (i ∈ is ↔ i ∈ js)) ∧
    (∀ is js : List UInt8,
      (ofIndices (is ++ js)).bits = (ofIndices is).bits ||| (ofIndices js).bits) ∧
    ∀ bits : UInt32, ofIndices (mk bits).indices = ⟨bits⟩ ∧
      ∀ rest, Cbor.decode reader ((mk bits).write ++ rest) = .ok ⟨bits⟩ := by
  refine ⟨fun is l => eq_indices_ofIndices_iff, fun is js => ofIndices_eq_iff, fun is js => ?_,
    fun bits => ⟨ofIndices_indices ⟨bits⟩, fun rest => (reads_write ⟨bits⟩).decode_append rest⟩⟩
  rw [ofIndices_append]
  rfl

/-- An unordered list with a repetition and an index that is too large has the mask of the ascending
list of the others, and that is how the mask is listed. -/
theorem scattered_indices_sorted :
    ofIndices [31, 40, 17, 31] = ofIndices [17, 31] ∧
      (ofIndices [31, 40, 17, 31]).indices = [17, 31] := by
  obtain ⟨hlist, hsame, -⟩ := masks_correspond_to_indices
  refine ⟨(hsame _ _).2 fun i hi => ?_, ((hlist [31, 40, 17, 31] [17, 31]).2 ⟨by decide, ?_⟩).symm⟩
  · have hne : i ≠ 40 := by
      rintro rfl
      exact absurd hi (by decide)
    simp only [List.mem_cons, List.not_mem_nil, or_false]
    tauto
  · intro i
    simp only [List.mem_cons, List.not_mem_nil, or_false]
    constructor
    · rintro (rfl | rfl)
      · decide
      · decide
    · rintro ⟨rfl | rfl | rfl | rfl, hi⟩
      · exact .inr rfl
      · exact absurd hi (by decide)
      · exact .inl rfl
      · exact .inr rfl

end AttestedChannel.PropertyMask
