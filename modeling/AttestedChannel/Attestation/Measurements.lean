import AttestedChannel.Cbor.Reader
import AttestedChannel.Cbor.Write

/-!
# Measurements

A map from property indices to measured values. The entries are kept in ascending order of the
index, which the type guarantees, so two maps with the same values are equal. `get?` is the view of
a map; the law of `insert` is `get?_insert`.
-/

namespace AttestedChannel

/-- Measured values by property index. -/
structure Measurements where
  entries : List (UInt8 × Bytes)
  ascending : entries.Pairwise (fun a b => a.1 < b.1)
deriving DecidableEq

namespace Measurements

/-- No values. -/
def empty : Measurements := ⟨[], .nil⟩

instance : Inhabited Measurements := ⟨empty⟩

/-- The value of a property. -/
def get? (m : Measurements) (i : UInt8) : Option Bytes := m.entries.lookup i

/-- Puts a value among ascending entries. -/
def insertEntry (i : UInt8) (v : Bytes) : List (UInt8 × Bytes) → List (UInt8 × Bytes)
  | [] => [(i, v)]
  | (j, w) :: r =>
    if i < j then (i, v) :: (j, w) :: r
    else if i = j then (i, v) :: r
    else (j, w) :: insertEntry i v r

theorem mem_insertEntry {i : UInt8} {v : Bytes} {es : List (UInt8 × Bytes)} {e : UInt8 × Bytes}
    (h : e ∈ insertEntry i v es) : e = (i, v) ∨ e ∈ es := by
  induction es with
  | nil => simpa [insertEntry] using h
  | cons f r ih =>
    obtain ⟨j, w⟩ := f
    simp only [insertEntry] at h
    split at h
    · simpa using h
    · split at h
      · rcases List.mem_cons.1 h with h | h
        · exact .inl h
        · exact .inr (List.mem_cons_of_mem _ h)
      · rcases List.mem_cons.1 h with h | h
        · exact .inr (h ▸ List.mem_cons_self)
        · rcases ih h with h | h
          · exact .inl h
          · exact .inr (List.mem_cons_of_mem _ h)

theorem ascending_insertEntry {i : UInt8} {v : Bytes} {es : List (UInt8 × Bytes)}
    (h : es.Pairwise (fun a b => a.1 < b.1)) :
    (insertEntry i v es).Pairwise (fun a b => a.1 < b.1) := by
  induction es with
  | nil => simp [insertEntry]
  | cons f r ih =>
    obtain ⟨j, w⟩ := f
    obtain ⟨hj, hr⟩ := List.pairwise_cons.1 h
    simp only [insertEntry]
    split
    · next hij =>
      refine List.pairwise_cons.2 ⟨fun e he => ?_, h⟩
      rcases List.mem_cons.1 he with rfl | he
      · exact hij
      · exact UInt8.lt_trans hij (hj e he)
    · split
      · next hij => exact List.pairwise_cons.2 ⟨fun e he => hij ▸ hj e he, hr⟩
      · next hlt hne =>
        refine List.pairwise_cons.2 ⟨fun e he => ?_, ih hr⟩
        rcases mem_insertEntry he with rfl | he
        · rw [UInt8.lt_iff_toNat_lt] at hlt ⊢
          have : i.toNat ≠ j.toNat := fun h => hne (UInt8.toNat.inj h)
          exact Nat.lt_of_le_of_ne (Nat.le_of_not_lt hlt) (Ne.symm this)
        · exact hj e he

/-- The map with the value of a property replaced. -/
def insert (m : Measurements) (i : UInt8) (v : Bytes) : Measurements :=
  ⟨insertEntry i v m.entries, ascending_insertEntry m.ascending⟩

theorem lookup_cons_ite (i j : UInt8) (v : Bytes) (es : List (UInt8 × Bytes)) :
    ((i, v) :: es).lookup j = if j = i then some v else es.lookup j := by
  by_cases h : j = i
  · rw [h, List.lookup_cons_self, if_pos rfl]
  · have hf : (j == i) = false := by simpa using h
    rw [List.lookup_cons, hf, if_neg h]

theorem lookup_insertEntry (i j : UInt8) (v : Bytes) (es : List (UInt8 × Bytes)) :
    (insertEntry i v es).lookup j = if j = i then some v else es.lookup j := by
  induction es with
  | nil => simp [insertEntry, lookup_cons_ite]
  | cons f r ih =>
    obtain ⟨k, w⟩ := f
    simp only [insertEntry]
    split
    · exact lookup_cons_ite i j v _
    · split
      · next h => subst h; simp only [lookup_cons_ite]; split <;> rfl
      · next hik =>
        simp only [lookup_cons_ite, ih]
        split
        · next hjk => rw [if_neg (fun h => hik (h.symm.trans hjk))]
        · rfl

/-- After an insertion the property has the new value and all others have their old ones. -/
@[simp] theorem get?_insert (m : Measurements) (i j : UInt8) (v : Bytes) :
    (m.insert i v).get? j = if j = i then some v else m.get? j :=
  lookup_insertEntry i j v m.entries

/-- The map of a list of entries; of two entries for one property the later counts. -/
def ofList (es : List (UInt8 × Bytes)) : Measurements :=
  es.foldl (fun m e => m.insert e.1 e.2) empty

/-- The map with every value mapped. -/
def mapValues (f : Bytes → Bytes) (m : Measurements) : Measurements :=
  ⟨m.entries.map fun e => (e.1, f e.2), List.pairwise_map.2 m.ascending⟩

/-! ## On the wire -/

/-- The map as a map from numbers to octets, by ascending index. -/
def write (m : Measurements) : Bytes :=
  Cbor.Head.write 5 m.entries.length ++
    m.entries.flatMap fun e => Cbor.Write.unsigned e.1.toNat ++ Cbor.Write.octets e.2

/-- Reads one entry into a map. -/
def entryReader (depth : Nat) : Cbor.ItemReader Measurements := fun m start h c =>
  match Cbor.uint8 start h c with
  | .error e => .error e
  | .ok (i, c) => ((Cbor.octets depth).map (m.insert i)).run c

/-- Reads a map. A later entry for the same property replaces an earlier one. -/
def reader (depth : Nat) : Cbor.Reader Measurements := Cbor.untagged fun _ h c =>
  match h with
  | .map n =>
    match depth with
    | 0 => .error .tooDeep
    | depth + 1 => Cbor.readContainer (entryReader depth) n empty c
  | h => .error (h.refuse .map)

end Measurements

end AttestedChannel
