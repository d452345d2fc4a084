import AttestedChannel.Attestation.Appraisal

/-!
# What a passing judgement means

`PropertyMask.indices` lists exactly the selected properties (`mem_indices`), and `Appraisal.judge`
passes values exactly when the nonce matched, something is selected, and every selected property has
the same expected and measured value (`judge_eq_ok_iff`).

What passes under a mask is a matter of the selected properties alone. Values that `Conform` to a
mask conform to every part of it that selects something, and values that conform to two masks
conform to their union; `no_partial_pass` says so of judgements.
-/

namespace AttestedChannel

namespace PropertyMask

/-- A mask has 32 bits. -/
theorem lt_of_selects {m : PropertyMask} {i : Nat} (h : m.selects i = true) : i < 32 := by
  refine Nat.lt_of_not_ge fun hge => ?_
  have hlt : m.bits.toNat < 2 ^ i :=
    Nat.lt_of_lt_of_le m.bits.toNat_lt (Nat.pow_le_pow_right (by decide) hge)
  have hf : m.selects i = false := Nat.testBit_lt_two_pow hlt
  rw [hf] at h
  cases h

/-- The listed indices are the selected ones. -/
theorem mem_indices {m : PropertyMask} {i : UInt8} : i ∈ m.indices ↔ m.selects i.toNat = true := by
  unfold indices
  rw [List.mem_map]
  constructor
  · rintro ⟨j, hj, rfl⟩
    obtain ⟨hlt, hs⟩ := List.mem_filter.1 hj
    have hj : (UInt8.ofNat j).toNat = j :=
      UInt8.toNat_ofNat_of_lt' (Nat.lt_trans (List.mem_range.1 hlt) (by decide))
    rw [hj]
    exact hs
  · intro hs
    refine ⟨i.toNat, List.mem_filter.2 ⟨List.mem_range.2 (lt_of_selects hs), hs⟩, ?_⟩
    exact UInt8.ofNat_toNat

/-! ### Set operations by what they select -/

/-- Masks that select the same are equal. -/
theorem eq_of_selects {m n : PropertyMask} (h : ∀ i, m.selects i = n.selects i) : m = n := by
  have hbits : m.bits = n.bits := UInt32.toNat_inj.1 (Nat.eq_of_testBit_eq h)
  cases m
  cases n
  exact congrArg mk hbits

@[simp] theorem selects_union (m n : PropertyMask) (i : Nat) :
    (m.union n).selects i = (m.selects i || n.selects i) := by
  simp only [selects, union, UInt32.toNat_or, Nat.testBit_or]

@[simp] theorem selects_inter (m n : PropertyMask) (i : Nat) :
    (m.inter n).selects i = (m.selects i && n.selects i) := by
  simp only [selects, inter, UInt32.toNat_and, Nat.testBit_and]

/-- A mask includes another exactly if it selects all that the other selects. -/
theorem includes_iff {m n : PropertyMask} :
    m.includes n = true ↔ ∀ i, n.selects i = true → m.selects i = true := by
  unfold includes
  rw [beq_iff_eq]
  constructor
  · intro h i hi
    rw [← h, selects_inter, Bool.and_eq_true] at hi
    exact hi.1
  · intro h
    refine eq_of_selects fun i => ?_
    rw [selects_inter]
    cases hi : n.selects i with
    | false => exact Bool.and_false _
    | true => rw [h i hi, Bool.and_true]

/-- A mask is not empty exactly if it selects something. -/
theorem isEmpty_eq_false_iff {m : PropertyMask} :
    m.isEmpty = false ↔ ∃ i, m.selects i = true := by
  unfold isEmpty
  rw [beq_eq_false_iff_ne]
  constructor
  · intro h
    exact Nat.exists_testBit_of_ne_zero fun hz => h (UInt32.toNat_inj.1 hz)
  · rintro ⟨i, hi⟩ hz
    rw [selects, hz] at hi
    exact absurd hi (by simp)

end PropertyMask

namespace Appraisal

/-- Whether a property has the same expected and measured value. -/
def SameValue (expected actual : Measurements) (i : UInt8) : Prop :=
  ∃ v, expected.get? i = some v ∧ actual.get? i = some v

theorem agrees_iff {expected actual : Measurements} {i : UInt8} :
    agrees expected actual i = true ↔ SameValue expected actual i := by
  unfold agrees SameValue
  cases expected.get? i with
  | none => simp
  | some v =>
    cases actual.get? i with
    | none => simp
    | some w =>
      simp only [beq_iff_eq, Option.some.injEq]
      exact ⟨fun h => ⟨v, rfl, h.symm⟩, fun ⟨u, hu, hw⟩ => hu.trans hw.symm⟩

/-- **Values pass exactly when something is selected and everything selected agrees.** -/
theorem judge_eq_ok_iff {expected actual : Measurements} {mask : PropertyMask}
    {nonceMatches : Bool} :
    judge expected actual mask nonceMatches = .ok () ↔
      nonceMatches = true ∧ (∃ i, i ∈ mask.indices) ∧
        ∀ i ∈ mask.indices, SameValue expected actual i := by
  unfold judge
  cases nonceMatches with
  | false => simp
  | true =>
    rw [if_neg (by simp)]
    cases hm : mask.indices with
    | nil => simp
    | cons i is =>
      rw [if_neg (by simp)]
      simp only [← agrees_iff, ← List.all_eq_true]
      cases (i :: is).all (agrees expected actual) <;> simp

/-- Once the nonce has matched, values are never refused for the nonce. -/
theorem judge_error {expected actual : Measurements} {mask : PropertyMask} {reason : FailureReason}
    (h : judge expected actual mask true = .error reason) : reason = .measurementMismatch := by
  unfold judge at h
  rw [if_neg (by simp)] at h
  repeat' split at h
  all_goals simp_all

/-! ## Values that conform to a mask -/

/-- What it takes for values to pass under a mask: it selects something, and every selected property
has the same expected and measured value. -/
structure Conform (expected actual : Measurements) (mask : PropertyMask) : Prop where
  selective : mask.isEmpty = false
  same : ∀ i : UInt8, mask.selects i.toNat = true → SameValue expected actual i

section

variable {expected actual expected' actual' : Measurements} {mask mask' : PropertyMask}
  {nonceMatches : Bool}

/-- Values conform by what is selected of them. -/
theorem Conform.congr (h : Conform expected actual mask)
    (he : ∀ i : UInt8, mask.selects i.toNat = true → expected'.get? i = expected.get? i)
    (ha : ∀ i : UInt8, mask.selects i.toNat = true → actual'.get? i = actual.get? i) :
    Conform expected' actual' mask where
  selective := h.selective
  same := by
    intro i hi
    obtain ⟨v, hv, hw⟩ := h.same i hi
    exact ⟨v, (he i hi).trans hv, (ha i hi).trans hw⟩

/-- What conforms to a mask conforms to every part of it. -/
theorem Conform.mono (h : Conform expected actual mask) (hne : mask'.isEmpty = false)
    (hsub : mask.includes mask' = true) : Conform expected actual mask' where
  selective := hne
  same := fun i hi => h.same i (PropertyMask.includes_iff.1 hsub i.toNat hi)

/-- What conforms to two masks conforms to both together. -/
theorem Conform.union (h : Conform expected actual mask) (h' : Conform expected actual mask') :
    Conform expected actual (mask.union mask') where
  selective := by
    obtain ⟨i, hi⟩ := PropertyMask.isEmpty_eq_false_iff.1 h.selective
    refine PropertyMask.isEmpty_eq_false_iff.2 ⟨i, ?_⟩
    rw [PropertyMask.selects_union, hi, Bool.true_or]
  same := by
    intro i hi
    rw [PropertyMask.selects_union, Bool.or_eq_true] at hi
    rcases hi with hi | hi
    · exact h.same i hi
    · exact h'.same i hi

theorem conform_iff :
    Conform expected actual mask ↔
      (∃ i, i ∈ mask.indices) ∧ ∀ i ∈ mask.indices, SameValue expected actual i := by
  constructor
  · intro h
    obtain ⟨i, hi⟩ := PropertyMask.isEmpty_eq_false_iff.1 h.selective
    have hlt : i < 2 ^ 8 := Nat.lt_trans (PropertyMask.lt_of_selects hi) (by decide)
    have hmem : UInt8.ofNat i ∈ mask.indices := by
      rw [PropertyMask.mem_indices, UInt8.toNat_ofNat_of_lt' hlt]
      exact hi
    exact ⟨⟨_, hmem⟩, fun j hj => h.same j (PropertyMask.mem_indices.1 hj)⟩
  · rintro ⟨⟨i, hi⟩, hall⟩
    exact ⟨PropertyMask.isEmpty_eq_false_iff.2 ⟨_, PropertyMask.mem_indices.1 hi⟩,
      fun j hj => hall j (PropertyMask.mem_indices.2 hj)⟩

/-- The ways a judgement can go. -/
inductive Judges (expected actual : Measurements) (mask : PropertyMask) (nonceMatches : Bool) :
    Except FailureReason Unit → Prop
  | mismatched (hn : nonceMatches = false) :
    Judges expected actual mask nonceMatches (.error .nonceMismatch)
  | passed (hn : nonceMatches = true) (h : Conform expected actual mask) :
    Judges expected actual mask nonceMatches (.ok ())
  | failed (hn : nonceMatches = true) (h : ¬ Conform expected actual mask) :
    Judges expected actual mask nonceMatches (.error .measurementMismatch)

/-- **A judgement goes one of these ways.** -/
theorem judges (expected actual : Measurements) (mask : PropertyMask) (nonceMatches : Bool) :
    Judges expected actual mask nonceMatches (judge expected actual mask nonceMatches) := by
  cases nonceMatches with
  | false => exact .mismatched rfl
  | true =>
    cases hj : judge expected actual mask true with
    | ok u => exact .passed rfl (conform_iff.2 (judge_eq_ok_iff.1 hj).2)
    | error reason =>
      obtain rfl := judge_error hj
      refine .failed rfl fun h => ?_
      cases hj.symm.trans (judge_eq_ok_iff.2 ⟨rfl, conform_iff.1 h⟩)

namespace Judges

variable {o o' : Except FailureReason Unit}

theorem eq_ok_iff (h : Judges expected actual mask nonceMatches o) :
    o = .ok () ↔ nonceMatches = true ∧ Conform expected actual mask := by
  cases h with
  | mismatched hn => simp [hn]
  | passed hn hc => simp [hn, hc]
  | failed hn hc => simp [hn, hc]

theorem eq_nonceMismatch_iff (h : Judges expected actual mask nonceMatches o) :
    o = .error .nonceMismatch ↔ nonceMatches = false := by
  cases h with
  | mismatched hn | passed hn | failed hn => simp [hn]

theorem eq_measurementMismatch_iff (h : Judges expected actual mask nonceMatches o) :
    o = .error .measurementMismatch ↔
      nonceMatches = true ∧ ¬ Conform expected actual mask := by
  cases h with
  | mismatched hn => simp [hn]
  | passed hn hc => simp [hn, hc]
  | failed hn hc => simp [hn, hc]

/-- Values that conform alike are judged alike. -/
theorem unique (h : Judges expected actual mask nonceMatches o)
    (h' : Judges expected' actual' mask nonceMatches o')
    (hc : Conform expected actual mask ↔ Conform expected' actual' mask) : o = o' := by
  cases h with
  | mismatched hn => exact (h'.eq_nonceMismatch_iff.2 hn).symm
  | passed hn h => exact (h'.eq_ok_iff.2 ⟨hn, hc.1 h⟩).symm
  | failed hn h => exact (h'.eq_measurementMismatch_iff.2 ⟨hn, fun h' => h (hc.2 h')⟩).symm

end Judges

end

/-- **There is no partial pass.** Values pass exactly if the nonce matched, the mask selects
something, and every selected property, of the 32 that there are, has an expected and a measured
value that are equal. They fail for the nonce exactly if it did not match, and for their values in
every other case. So nothing counts that is not selected; what passes under a mask passes under
every part of it that selects something, and what passes under two masks passes under their
union. -/
theorem no_partial_pass (expected actual : Measurements) (mask : PropertyMask)
    (nonceMatches : Bool) :
    (judge expected actual mask nonceMatches = .ok () ↔
      nonceMatches = true ∧ mask.bits ≠ 0 ∧ ∀ i : UInt8, i < 32 → mask.selects i.toNat = true →
        ∃ v, expected.get? i = some v ∧ actual.get? i = some v) ∧
    (judge expected actual mask nonceMatches = .error .nonceMismatch ↔ nonceMatches = false) ∧
    (judge expected actual mask nonceMatches = .error .measurementMismatch ↔
      nonceMatches = true ∧ judge expected actual mask nonceMatches ≠ .ok ()) ∧
    (∀ expected' actual', (∀ i : UInt8, mask.selects i.toNat = true →
        expected'.get? i = expected.get? i ∧ actual'.get? i = actual.get? i) →
      judge expected' actual' mask nonceMatches = judge expected actual mask nonceMatches) ∧
    (judge expected actual mask nonceMatches = .ok () → ∀ part : PropertyMask,
      part.isEmpty = false → mask.includes part = true →
        judge expected actual part nonceMatches = .ok ()) ∧
    (judge expected actual mask nonceMatches = .ok () → ∀ other : PropertyMask,
      judge expected actual other nonceMatches = .ok () →
        judge expected actual (mask.union other) nonceMatches = .ok ()) := by
  have hj := judges expected actual mask nonceMatches
  refine ⟨?_, hj.eq_nonceMismatch_iff, ?_, fun expected' actual' hsame => ?_,
    fun hok part hne hsub => ?_, fun hok other hother => ?_⟩
  · rw [hj.eq_ok_iff]
    refine and_congr_right fun _ => ?_
    constructor
    · intro h
      refine ⟨fun hz => ?_, fun i _ hi => h.same i hi⟩
      have hne := h.selective
      rw [PropertyMask.isEmpty, hz] at hne
      cases hne
    · rintro ⟨hne, hall⟩
      refine ⟨beq_eq_false_iff_ne.2 hne, fun i hi => hall i ?_ hi⟩
      exact UInt8.lt_iff_toNat_lt.2 (PropertyMask.lt_of_selects hi)
  · rw [hj.eq_measurementMismatch_iff, Ne, hj.eq_ok_iff]
    refine and_congr_right fun hn => ?_
    rw [and_iff_right hn]
  · refine (judges expected' actual' mask nonceMatches).unique hj ⟨fun h => ?_, fun h => ?_⟩
    · exact h.congr (fun i hi => (hsame i hi).1.symm) fun i hi => (hsame i hi).2.symm
    · exact h.congr (fun i hi => (hsame i hi).1) fun i hi => (hsame i hi).2
  · obtain ⟨hn, hc⟩ := hj.eq_ok_iff.1 hok
    exact (judges expected actual part nonceMatches).eq_ok_iff.2 ⟨hn, hc.mono hne hsub⟩
  · obtain ⟨hn, hc⟩ := hj.eq_ok_iff.1 hok
    obtain ⟨-, hc'⟩ := (judges expected actual other nonceMatches).eq_ok_iff.1 hother
    exact (judges expected actual (mask.union other) nonceMatches).eq_ok_iff.2 ⟨hn, hc.union hc'⟩

/-- Two maps that agree but for property 5 pass under the properties 0, 3 and 31 and under parts of
them, whatever they say of property 5; and they fail as soon as that is selected. -/
theorem judge_but_for_one_property :
    let expected := Measurements.ofList [(0, [1]), (3, [2, 2]), (5, [7]), (31, [])]
    let actual := Measurements.ofList [(0, [1]), (3, [2, 2]), (5, [8]), (31, [])]
    let mask : PropertyMask := .ofIndices [0, 3, 31]
    judge expected actual mask true = .ok () ∧
      judge expected (actual.insert 5 [9]) mask true = .ok () ∧
      judge expected actual (.single 31) true = .ok () ∧
      judge expected actual (mask.union (.single 31)) true = .ok () ∧
      judge expected actual (mask.union (.single 5)) true = .error .measurementMismatch := by
  intro expected actual mask
  have hagree : mask.indices.all (agrees expected actual) = true := by decide +kernel
  have hok : judge expected actual mask true = .ok () :=
    judge_eq_ok_iff.2 ⟨rfl, ⟨0, by decide +kernel⟩,
      fun i hi => agrees_iff.1 (List.all_eq_true.1 hagree i hi)⟩
  obtain ⟨-, -, -, hsame, hpart, hunion⟩ := no_partial_pass expected actual mask true
  have hlast : judge expected actual (.single 31) true = .ok () :=
    hpart hok (.single 31) (by decide) (by decide)
  refine ⟨hok, ?_, hlast, hunion hok (.single 31) hlast, ?_⟩
  · rw [← hok]
    refine hsame expected (actual.insert 5 [9]) fun i hi => ⟨rfl, ?_⟩
    rw [Measurements.get?_insert, if_neg]
    rintro rfl
    exact absurd hi (by decide)
  · obtain ⟨hpass, -, hfail, -⟩ := no_partial_pass expected actual (mask.union (.single 5)) true
    refine hfail.2 ⟨rfl, fun h => ?_⟩
    obtain ⟨v, he, ha⟩ := (hpass.1 h).2.2 5 (by decide) (by decide)
    cases he
    cases ha

end Appraisal

end AttestedChannel
