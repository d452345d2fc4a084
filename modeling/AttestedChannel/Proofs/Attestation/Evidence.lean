import AttestedChannel.Attestation.Evidence
import AttestedChannel.Proofs.Payload.RoundTrip

/-!
# Reading back evidence

Measured values and evidence are read back from their octets. A map of values is read by inserting
one entry after the other; since its entries are written in ascending order, each goes to the end
(`insertEntry_concat`), and the map that results has the entries of the one that was written.
-/

namespace AttestedChannel

open Cbor

/-! ## Measured values -/

namespace Measurements

variable {i : UInt8} {v : Bytes} {es : List (UInt8 × Bytes)}

/-- An entry goes behind all that are below it. -/
theorem insertEntry_append (h : ∀ e ∈ es, e.1 < i) (fs : List (UInt8 × Bytes)) :
    insertEntry i v (es ++ fs) = es ++ insertEntry i v fs := by
  induction es with
  | nil => rfl
  | cons e es ih =>
    obtain ⟨j, w⟩ := e
    have hj : j < i := h (j, w) List.mem_cons_self
    have hlt : ¬ i < j := UInt8.lt_asymm hj
    have hne : ¬ i = j := fun he => UInt8.lt_irrefl j (he ▸ hj)
    rw [List.cons_append, insertEntry, if_neg hlt, if_neg hne,
      ih fun e he => h e (List.mem_cons_of_mem _ he)]
    rfl

/-- An entry above all others goes to the end. -/
theorem insertEntry_concat (h : ∀ e ∈ es, e.1 < i) : insertEntry i v es = es ++ [(i, v)] := by
  have hi := insertEntry_append (v := v) h []
  rwa [List.append_nil] at hi

/-- Ascending entries are inserted one behind the other. -/
theorem foldl_insert_entries (m : Measurements)
    (h : (m.entries ++ es).Pairwise fun a b => a.1 < b.1) :
    (es.foldl (fun m e => m.insert e.1 e.2) m).entries = m.entries ++ es := by
  induction es generalizing m with
  | nil => rw [List.foldl_nil, List.append_nil]
  | cons e es ih =>
    have hlast : ∀ f ∈ m.entries, f.1 < e.1 := fun f hf =>
      (List.pairwise_append.1 h).2.2 f hf e List.mem_cons_self
    have hinsert : (m.insert e.1 e.2).entries = m.entries ++ [e] := insertEntry_concat hlast
    rw [List.append_cons, ← hinsert] at h
    rw [List.foldl_cons, ih _ h, hinsert, ← List.append_cons]

theorem eq_of_entries {m n : Measurements} (h : m.entries = n.entries) : m = n := by
  cases m
  cases n
  cases h
  rfl

/-- A map is the map of its entries. -/
theorem ofList_entries (m : Measurements) : ofList m.entries = m :=
  eq_of_entries (foldl_insert_entries empty m.ascending)

/-- An entry is read into a map. -/
theorem reads_entry (depth : Nat) (m : Measurements) (i : UInt8) {v : Bytes}
    (hv : v.length < headRange) :
    Reads (entryReader (depth + 1) m) (Write.unsigned i.toNat ++ Write.octets v) (m.insert i v) := by
  obtain ⟨h, x, b, hx, hp, hh, hb⟩ := reads_uint8 i
  refine ⟨h, x, b ++ Write.octets v, by rw [hx, List.append_assoc], hp, hh, fun start => ?_⟩
  refine (hb start).bind (g := fun _ => ((Cbor.octets (depth + 1)).map (m.insert i)).run)
    (fun _ => ((reads_octets hv).map (m.insert i)).run) (fun c d hd => ?_) fun c e he => ?_
  · simp only [entryReader, hd]
  · simp only [entryReader, he]

theorem fills_entries (depth : Nat) (m : Measurements) (h : ∀ e ∈ es, e.2.length < headRange) :
    Fills (entryReader (depth + 1)) m
      (es.map fun e => Write.unsigned e.1.toNat ++ Write.octets e.2)
      (es.foldl (fun m e => m.insert e.1 e.2) m) := by
  induction es generalizing m with
  | nil => exact .nil m
  | cons e es ih =>
    exact .cons (reads_entry depth m e.1 (h e List.mem_cons_self))
      (ih _ fun e he => h e (List.mem_cons_of_mem _ he))

/-- The octets of an entry are among those of its map. -/
theorem length_of_write {m : Measurements} {n : Nat} (h : m.write.length < n) :
    m.entries.length < n ∧ ∀ e ∈ m.entries, e.2.length < n := by
  have hsum : m.entries.length ≤ (m.entries.flatMap fun e =>
      Write.unsigned e.1.toNat ++ Write.octets e.2).length ∧
      ∀ e ∈ m.entries, (Write.octets e.2).length ≤ (m.entries.flatMap fun e =>
        Write.unsigned e.1.toNat ++ Write.octets e.2).length := by
    clear h
    induction m.entries with
    | nil => exact ⟨Nat.le_refl _, fun e he => by cases he⟩
    | cons x es ih =>
      have hx : 1 ≤ (Write.unsigned x.1.toNat).length := by
        rw [Write.unsigned, Head.length_write, Head.argumentWidth]
        repeat' split
        all_goals decide
      rw [List.flatMap_cons, List.length_append, List.length_append, List.length_cons]
      refine ⟨by omega, fun e he => ?_⟩
      rcases List.mem_cons.1 he with rfl | he
      · omega
      · have := ih.2 e he
        omega
  rw [write, List.length_append] at h
  refine ⟨by omega, fun e he => length_of_octets_lt (b := e.2) ?_⟩
  have := hsum.2 e he
  omega

/-- **A map of values is read back.** -/
theorem reads_write (depth : Nat) {m : Measurements} (hm : m.write.length < headRange) :
    Reads (reader (depth + 2)) m.write m := by
  obtain ⟨hlength, hvalues⟩ := length_of_write hm
  refine Reads.untagged (Reads.of_head 5 (by decide) hlength fun start => ?_)
  have ht := (fills_entries depth empty hvalues).takes
  rw [List.length_map, ← List.flatMap_def,
    show m.entries.foldl (fun m e => m.insert e.1 e.2) empty = m from m.ofList_entries] at ht
  exact ht.congr fun c => rfl

/-- No value takes more than twice its length. -/
theorem length_write_le (m : Measurements) :
    m.write.length ≤ 9 + (m.entries.map fun e => 18 + 2 * e.2.length).sum := by
  have hw := Head.argumentWidth_le m.entries.length
  have he : (m.entries.flatMap fun e => Write.unsigned e.1.toNat ++ Write.octets e.2).length ≤
      (m.entries.map fun e => 18 + 2 * e.2.length).sum := by
    clear hw
    induction m.entries with
    | nil => exact Nat.le_refl _
    | cons x es ih =>
      have hi := Write.length_unsigned_le x.1.toNat
      have hv := Write.length_octets_le x.2
      rw [List.flatMap_cons, List.length_append, List.length_append, List.map_cons, List.sum_cons]
      omega
  rw [write, List.length_append, Head.length_write]
  omega

end Measurements

/-! ## Evidence -/

namespace Evidence

/-- Evidence is read back. -/
theorem reads_encode (depth : Nat) {e : Evidence} (he : e.encode.length < headRange) :
    Reads (reader (depth + 3)) e.encode e := by
  have hn := length_of_octets_lt
    (length_of_record_lt "nonce" he (w := Write.octets e.nonce) (by simp))
  have hm := length_of_record_lt "measurements" he (w := e.measurements.write) (by simp)
  have hq := length_of_octets_lt
    (length_of_record_lt "quote" he (w := Write.octets e.quote) (by simp))
  exact reads_record ⟨some e.nonce, some e.attestationType, some e.propertyMask,
      some e.measurements, some e.quote⟩ (by simp [headRange])
    (.cons (reads_field "nonce" rfl (by decide) rfl (reads_octets hn))
      (.cons (reads_field "attestation_type" rfl (by decide) rfl
        (e.attestationType.reads_write (depth + 1)))
        (.cons (reads_field "property_mask" rfl (by decide) rfl e.propertyMask.reads_write)
          (.cons (reads_field "measurements" rfl (by decide) rfl
            (Measurements.reads_write depth hm))
            (.cons (reads_field "quote" rfl (by decide) rfl (reads_octets hq)) (.nil _)))))) rfl

/-- **Evidence that was written is decoded.** -/
theorem decode_encode {e : Evidence} (he : e.encode.length < headRange) :
    decode e.encode = .ok e := by
  have h := (reads_encode 253 he).run.whole [] 0
  rw [List.append_nil] at h
  simp only [decode, Cbor.decode, Cursor.ofBytes, maxDepth, h]

theorem length_encode_le (e : Evidence) :
    e.encode.length ≤ 500 + 2 * e.nonce.length + e.measurements.write.length +
      2 * e.quote.length := by
  have hn := Write.length_octets_le e.nonce
  have ht : e.attestationType.write.length ≤ 9 := by cases e.attestationType <;> decide
  have hm : e.propertyMask.write.length ≤ 9 := Write.length_unsigned_le _
  have hq := Write.length_octets_le e.quote
  refine Nat.le_trans (Write.length_record_le _) ?_
  simp only [List.map_cons, List.map_nil, List.sum_cons, List.sum_nil,
    show "nonce".length = 5 by decide, show "attestation_type".length = 16 by decide,
    show "property_mask".length = 13 by decide, show "measurements".length = 12 by decide,
    show "quote".length = 5 by decide]
  omega

end Evidence

end AttestedChannel
