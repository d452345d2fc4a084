import AttestedChannel.Event
import AttestedChannel.Proofs.Payload.RoundTrip

/-!
# Reading back frames

A frame whose size field tells the length of its payload is read back from its octets. So the octets
of a payload's frame, where it can be written at all, are the event of that payload.
-/

namespace AttestedChannel

/-! ## Headers -/

theorem Bytes.bigEndian_two (n : Nat) : ∃ a b, bigEndian 2 n = [a, b] := ⟨_, _, rfl⟩

theorem Bytes.bigEndian_four (n : Nat) : ∃ a b c d, bigEndian 4 n = [a, b, c, d] :=
  ⟨_, _, _, _, rfl⟩

/-- A header is read back. -/
theorem FrameHeader.read_encode {h : FrameHeader} (hl : h.payloadSize.toNat ≤ maxPayload)
    (rest : Bytes) : read (h.encode ++ rest) = .ok (h, rest) := by
  obtain ⟨m₀, m₁, m₂, m₃, hm⟩ := Bytes.bigEndian_four magic
  obtain ⟨t₀, t₁, ht⟩ := Bytes.bigEndian_two h.messageType.toNat
  obtain ⟨s₀, s₁, s₂, s₃, hs⟩ := Bytes.bigEndian_four h.sequence.toNat
  obtain ⟨p₀, p₁, p₂, p₃, hp⟩ := Bytes.bigEndian_four h.payloadSize.toNat
  have hmn := Bytes.toNat_bigEndian (w := 4) (n := magic) (by decide)
  have htn := Bytes.toNat_bigEndian (w := 2) h.messageType.toNat_lt
  have hsn := Bytes.toNat_bigEndian (w := 4) h.sequence.toNat_lt
  have hpn := Bytes.toNat_bigEndian (w := 4) h.payloadSize.toNat_lt
  rw [hm] at hmn
  rw [ht] at htn
  rw [hs] at hsn
  rw [hp] at hpn
  simp only [encode, hm, ht, hs, hp, List.cons_append, List.nil_append, read, hmn, htn, hsn, hpn,
    ne_eq, not_true, if_false, if_neg (Nat.not_lt.2 hl), UInt16.ofNat_toNat, UInt32.ofNat_toNat]

/-! ## Frames -/

namespace Frame

theorem encode_eq_ok {f : Frame} {b : Bytes} (h : f.encode = .ok b) :
    f.payload.length ≤ FrameHeader.maxPayload ∧ b = f.header.encode ++ f.payload := by
  unfold encode at h
  split at h
  · cases h
  · next hl =>
    cases h
    exact ⟨Nat.le_of_not_lt hl, rfl⟩

/-- A frame is read back whatever follows it. -/
theorem decode_encode_append {f : Frame} {b : Bytes} (h : f.encode = .ok b)
    (hs : f.header.payloadSize.toNat = f.payload.length) (rest : Bytes) :
    decode (b ++ rest) = .ok f := by
  obtain ⟨hl, rfl⟩ := encode_eq_ok h
  have hr := FrameHeader.read_encode (h := f.header) (by rw [hs]; exact hl) (f.payload ++ rest)
  rw [List.append_assoc, decode, hr]
  simp only [hs, Bytes.take?_append]

end Frame

/-! ## Events -/

/-- **The octets of a payload's frame are the event of that payload.** -/
theorem Event.ofBytes_of_encode {p : Payload} {h : FrameHeader} {b : Bytes}
    (he : (p.toFrame h).encode = .ok b) : Event.ofBytes b = ⟨b, p, none⟩ := by
  obtain ⟨hl, -⟩ := Frame.encode_eq_ok he
  have h32 : p.encode.length < 0x100000000 := Nat.lt_of_le_of_lt hl (by decide)
  have hs : (p.toFrame h).header.payloadSize.toNat = (p.toFrame h).payload.length :=
    Nat.mod_eq_of_lt h32
  have hd := Frame.decode_encode_append he hs []
  rw [List.append_nil] at hd
  have hp := Payload.ofFrame_toFrame (Nat.lt_trans h32 (by decide)) h
  simp only [ofBytes, payloadOf, hd, hp]

end AttestedChannel
