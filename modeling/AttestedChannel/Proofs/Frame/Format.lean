import AttestedChannel.Proofs.Frame.RoundTrip

/-!
# The frame format

`Frame.IsFrame` says in terms of single octets when octets begin with a frame, and `Frame.Fails`
which fault those have that do not: the first that applies in the order of the constructors.
`decode` accepts exactly the former and reports exactly the latter (`frame_format`), and it is the
inverse of `encode` in both directions: what it accepts is written back octet by octet, also a
reserved octet and a message type that nobody knows, and what is written is read back, but no
proper front of it.
-/

namespace AttestedChannel

/-! ## Numbers -/

/-- Octets of one length that write the same number are the same. -/
theorem Bytes.toNat_inj {a b : Bytes} (hl : a.length = b.length) : toNat a = toNat b ↔ a = b := by
  constructor
  · intro h
    rw [← bigEndian_toNat a, ← bigEndian_toNat b, hl, h]
  · intro h
    rw [h]

namespace FrameHeader

/-- The octets that every frame begins with: `IDSC`. -/
def magicOctets : Bytes := [0x49, 0x44, 0x53, 0x43]

/-- The number of octets that the size field announces. -/
def announced (b : Bytes) : Nat := Bytes.toNat ((b.drop 12).take 4)

theorem announced_lt {b : Bytes} (h : size ≤ b.length) : announced b < Bytes.capacity 4 := by
  have hl : ((b.drop 12).take 4).length = 4 := by
    rw [List.length_take, List.length_drop]
    have h : 16 ≤ b.length := h
    omega
  have hlt := Bytes.toNat_lt ((b.drop 12).take 4)
  rwa [hl] at hlt

theorem toNat_eq_magic_iff {b : Bytes} (hl : b.length = 4) :
    Bytes.toNat b = magic ↔ b = magicOctets :=
  Bytes.toNat_inj (b := magicOctets) hl

theorem bigEndian_magic : Bytes.bigEndian 4 magic = magicOctets := by decide

/-- The octets of a number of 16 bits are written back. -/
theorem bigEndian_uint16 (b : Bytes) (hl : b.length = 2) :
    Bytes.bigEndian 2 (UInt16.ofNat (Bytes.toNat b)).toNat = b := by
  have hlt : Bytes.toNat b < Bytes.capacity 2 := hl ▸ Bytes.toNat_lt b
  have hn : (UInt16.ofNat (Bytes.toNat b)).toNat = Bytes.toNat b := Nat.mod_eq_of_lt hlt
  rw [hn, ← hl, Bytes.bigEndian_toNat]

/-- The octets of a number of 32 bits are written back. -/
theorem bigEndian_uint32 (b : Bytes) (hl : b.length = 4) :
    Bytes.bigEndian 4 (UInt32.ofNat (Bytes.toNat b)).toNat = b := by
  have hlt : Bytes.toNat b < Bytes.capacity 4 := hl ▸ Bytes.toNat_lt b
  have hn : (UInt32.ofNat (Bytes.toNat b)).toNat = Bytes.toNat b := Nat.mod_eq_of_lt hlt
  rw [hn, ← hl, Bytes.bigEndian_toNat]

/-- Sixteen octets make a header. -/
theorem eq_cons_of_size_le {b : Bytes} (h : size ≤ b.length) :
    ∃ m₀ m₁ m₂ m₃ v reserved t₀ t₁ s₀ s₁ s₂ s₃ p₀ p₁ p₂ p₃ rest,
      b = m₀ :: m₁ :: m₂ :: m₃ :: v :: reserved :: t₀ :: t₁ :: s₀ :: s₁ :: s₂ :: s₃ :: p₀ :: p₁ ::
        p₂ :: p₃ :: rest := by
  have hl : (b.take 16).length = 16 := by
    rw [List.length_take]
    exact Nat.min_eq_left h
  rw [← List.take_append_drop 16 b]
  generalize b.take 16 = front at hl
  generalize b.drop 16 = rest
  match front, hl with
  | [_, _, _, _, _, _, _, _, _, _, _, _, _, _, _, _], _ =>
    exact ⟨_, _, _, _, _, _, _, _, _, _, _, _, _, _, _, _, _, rfl⟩

end FrameHeader

namespace Frame

open FrameHeader

/-! ## The format -/

/-- The octets begin with a frame. -/
structure IsFrame (b : Bytes) : Prop where
  header : size ≤ b.length
  magic : b.take 4 = magicOctets
  version : b[4]? = some FrameHeader.version
  small : announced b ≤ maxPayload
  payload : size + announced b ≤ b.length

/-- The octets do not begin with a frame, and this is the first thing that is wrong with them. -/
inductive Fails (b : Bytes) : FrameFault → Prop
  | short (hl : b.length < size) : Fails b (.frameTooShort size b.length)
  | magic (hl : size ≤ b.length) (hm : b.take 4 ≠ magicOctets) : Fails b .invalidMagic
  | version {v : UInt8} (hl : size ≤ b.length) (hm : b.take 4 = magicOctets) (hv : b[4]? = some v)
      (hne : v ≠ FrameHeader.version) : Fails b (.unsupportedVersion v)
  | large (hl : size ≤ b.length) (hm : b.take 4 = magicOctets)
      (hv : b[4]? = some FrameHeader.version) (hs : maxPayload < announced b) :
    Fails b (.payloadTooLarge (announced b) maxPayload)
  | truncated (hl : size ≤ b.length) (hm : b.take 4 = magicOctets)
      (hv : b[4]? = some FrameHeader.version) (hs : announced b ≤ maxPayload)
      (hp : b.length < size + announced b) :
    Fails b (.frameTruncated (announced b) (b.length - size))

variable {b : Bytes} {e e' : FrameFault} {f : Frame}

/-- Octets that begin with a frame have no fault. -/
theorem Fails.not_isFrame (h : Fails b e) : ¬ IsFrame b := by
  intro hf
  cases h with
  | short hl => exact absurd hf.header (Nat.not_le.2 hl)
  | magic _ hm => exact hm hf.magic
  | version _ _ hv hne => exact hne (Option.some.inj (hv.symm.trans hf.version))
  | large _ _ _ hs => exact absurd hf.small (Nat.not_le.2 hs)
  | truncated _ _ _ _ hp => exact absurd hf.payload (Nat.not_le.2 hp)

/-- There is one first fault. -/
theorem Fails.unique (h : Fails b e) (h' : Fails b e') : e = e' := by
  cases h <;> cases h' <;> grind

/-! ## Reading -/

/-- What reading a header says about the octets: a fault is the first one of the format, and a
header stands there as it is written. -/
theorem read_cases (b : Bytes) :
    (∃ e, FrameHeader.read b = .error e ∧ Fails b e) ∨
      ∃ h, FrameHeader.read b = .ok (h, b.drop size) ∧ size ≤ b.length ∧ b.take 4 = magicOctets ∧
        b[4]? = some FrameHeader.version ∧ announced b ≤ maxPayload ∧ h.encode = b.take size ∧
        h.payloadSize.toNat = announced b := by
  by_cases hl : size ≤ b.length
  · obtain ⟨m₀, m₁, m₂, m₃, v, reserved, t₀, t₁, s₀, s₁, s₂, s₃, p₀, p₁, p₂, p₃, rest, rfl⟩ :=
      eq_cons_of_size_le hl
    have hmagic := toNat_eq_magic_iff (b := [m₀, m₁, m₂, m₃]) rfl
    have hn : announced (m₀ :: m₁ :: m₂ :: m₃ :: v :: reserved :: t₀ :: t₁ :: s₀ :: s₁ :: s₂ ::
        s₃ :: p₀ :: p₁ :: p₂ :: p₃ :: rest) = Bytes.toNat [p₀, p₁, p₂, p₃] := rfl
    unfold FrameHeader.read
    dsimp only
    split
    · next hm => exact .inl ⟨_, rfl, .magic hl fun h => hm (hmagic.2 h)⟩
    · next hm =>
      have hm : [m₀, m₁, m₂, m₃] = magicOctets := hmagic.1 (Decidable.not_not.1 hm)
      split
      · next hv => exact .inl ⟨_, rfl, .version hl hm rfl hv⟩
      · next hv =>
        obtain rfl := Decidable.not_not.1 hv
        split
        · next hs => exact .inl ⟨_, rfl, .large hl hm rfl hs⟩
        · next hs =>
          -- each field is written as the octets that it was read from
          have htype : Bytes.bigEndian 2 (UInt16.ofNat (Bytes.toNat [t₀, t₁])).toNat = [t₀, t₁] :=
            bigEndian_uint16 [t₀, t₁] rfl
          have hseq := bigEndian_uint32 [s₀, s₁, s₂, s₃] rfl
          have hsize := bigEndian_uint32 [p₀, p₁, p₂, p₃] rfl
          refine .inr ⟨_, rfl, hl, hm, rfl, Nat.le_of_not_lt hs, ?_,
            Nat.mod_eq_of_lt (Bytes.toNat_lt [p₀, p₁, p₂, p₃])⟩
          unfold FrameHeader.encode
          rw [bigEndian_magic, ← hm, htype, hseq, hsize]
          rfl
  · refine .inl ⟨.frameTooShort size b.length, ?_, .short (Nat.lt_of_not_le hl)⟩
    unfold FrameHeader.read
    split
    · exact absurd (by simp [size]) hl
    · rfl

/-- **Octets are a frame that is written back as it came, or have a fault.** -/
theorem decode_cases (b : Bytes) :
    (∃ e, decode b = .error e ∧ Fails b e) ∨
      ∃ f, decode b = .ok f ∧ IsFrame b ∧ f.header.payloadSize.toNat = f.payload.length ∧
        f.payload = (b.drop size).take (announced b) ∧
        f.encode = .ok (b.take (size + announced b)) := by
  unfold decode
  rcases read_cases b with ⟨e, hread, he⟩ | ⟨h, hread, hl, hm, hv, hs, hh, hn⟩
  · rw [hread]
    exact .inl ⟨e, rfl, he⟩
  · rw [hread]
    dsimp only
    rw [hn]
    cases ht : Bytes.take? (announced b) (b.drop size) with
    | none =>
      have hp := Bytes.take?_eq_none.1 ht
      rw [List.length_drop] at hp ⊢
      exact .inl ⟨_, rfl, .truncated hl hm hv hs (by omega)⟩
    | some p =>
      obtain ⟨hp, hb⟩ := Bytes.take?_eq_some.1 (show _ = some (p.1, p.2) from ht)
      have htake : (b.drop size).take (announced b) = p.1 := by
        rw [hb, ← hp, List.take_left]
      have hlen := congrArg List.length hb
      rw [List.length_drop, List.length_append] at hlen
      refine .inr ⟨_, rfl, ⟨hl, hm, hv, hs, by omega⟩, hn.trans hp.symm, htake.symm, ?_⟩
      rw [encode, if_neg (by simpa [hp] using hs), hh, List.take_add, htake]

/-- What follows a frame does not change how it is read. -/
theorem decode_append (h : decode b = .ok f) (x : Bytes) : decode (b ++ x) = .ok f := by
  rcases decode_cases b with ⟨e, he, -⟩ | ⟨g, hg, -, hsize, -, hencode⟩
  · cases h.symm.trans he
  · cases h.symm.trans hg
    have hx := decode_encode_append hencode hsize (b.drop (size + announced b) ++ x)
    rwa [← List.append_assoc, List.take_append_drop] at hx

/-! ## Writing -/

variable {h : FrameHeader} {p w q : Bytes}

/-- The size field of a frame tells the length of its payload, if the frame can be written. -/
theorem payloadSize_ofPayload (hp : p.length ≤ maxPayload) :
    (ofPayload h p).header.payloadSize.toNat = (ofPayload h p).payload.length :=
  Nat.mod_eq_of_lt (Nat.lt_of_le_of_lt hp (by decide))

/-- No proper front of a frame is read. -/
theorem decode_of_prefix (hw : (ofPayload h p).encode = .ok w) (hq : q <+: w) (hne : q ≠ w) :
    ∃ e, decode q = .error e := by
  rcases decode_cases q with ⟨e, he, -⟩ | ⟨f, hf, -, -, -, hencode⟩
  · exact ⟨e, he⟩
  · -- otherwise the whole would be read as the same frame, which is too short
    obtain ⟨x, rfl⟩ := hq
    have hwhole := decode_encode_append hw (payloadSize_ofPayload (encode_eq_ok hw).1) []
    rw [List.append_nil, decode_append hf x] at hwhole
    cases hwhole
    have hle := congrArg List.length (Except.ok.inj (hencode.symm.trans hw))
    rw [List.length_take, List.length_append] at hle
    have hx : x = [] := List.length_eq_zero_iff.1 (by omega)
    exact absurd (by rw [hx, List.append_nil]) hne

/-- **The frame format.** Octets are read as a frame exactly if they begin with one, and then they
are written back as they are, up to the end of the payload; otherwise the fault is the first that
they have. In the other direction, a frame whose payload is not too large can be written and is read
back whatever follows it, but no proper front of it is; a larger payload is refused, and nothing is
written. -/
theorem frame_format :
    (∀ b, (∃ f, decode b = .ok f) ↔ IsFrame b) ∧
    (∀ b f, decode b = .ok f → f.payload = (b.drop size).take (announced b) ∧
      f.encode = .ok (b.take (size + announced b))) ∧
    (∀ b e, decode b = .error e ↔ Fails b e) ∧
    (∀ (h : FrameHeader) (p : Bytes), p.length ≤ maxPayload →
      ∃ w, (ofPayload h p).encode = .ok w ∧
        (∀ dst, (ofPayload h p).encodeOnto dst = (dst ++ w, .ok ())) ∧
        (∀ x, decode (w ++ x) = .ok (ofPayload h p)) ∧
        ∀ q, q <+: w → q ≠ w → ∃ e, decode q = .error e) ∧
    ∀ (h : FrameHeader) (p dst : Bytes), maxPayload < p.length →
      (ofPayload h p).encodeOnto dst = (dst, .error (.payloadTooLarge p.length maxPayload)) := by
  refine ⟨fun b => ⟨?_, fun hb => ?_⟩, fun b f hf => ?_, fun b e => ⟨fun he => ?_, fun he => ?_⟩,
    fun h p hp => ?_, fun h p dst hp => if_pos hp⟩
  · rintro ⟨f, hf⟩
    rcases decode_cases b with ⟨e, he, -⟩ | ⟨g, -, hb, -⟩
    · cases hf.symm.trans he
    · exact hb
  · rcases decode_cases b with ⟨e, -, he⟩ | ⟨g, hg, -⟩
    · exact absurd hb he.not_isFrame
    · exact ⟨g, hg⟩
  · rcases decode_cases b with ⟨e, he, -⟩ | ⟨g, hg, -, -, hrest⟩
    · cases hf.symm.trans he
    · cases hf.symm.trans hg
      exact hrest
  · rcases decode_cases b with ⟨e', he', hb⟩ | ⟨g, hg, -⟩
    · cases he.symm.trans he'
      exact hb
    · cases he.symm.trans hg
  · rcases decode_cases b with ⟨e', he', hb⟩ | ⟨g, -, hb, -⟩
    · rw [he', he.unique hb]
    · exact absurd hb he.not_isFrame
  · have hw : (ofPayload h p).encode = .ok ((ofPayload h p).header.encode ++ p) :=
      if_neg (Nat.not_lt.2 hp)
    refine ⟨_, hw, fun dst => ?_, decode_encode_append hw (payloadSize_ofPayload hp),
      fun q => decode_of_prefix hw⟩
    rw [encodeOnto_eq, hw]

/-- A header with an octet in the reserved place and a message type that nobody knows. -/
def oddHeader : FrameHeader := ⟨7, 0x1234, 5, 0⟩

/-- A frame with such a header is written and read back, but not without its last octet; in front of
one octet more than a payload may have, the header is not written. -/
theorem oddHeader_frame_format :
    (∃ w, (ofPayload oddHeader [1, 2, 3]).encode = .ok w ∧
      decode (w ++ [9]) = .ok (ofPayload oddHeader [1, 2, 3]) ∧
      ∃ e, decode w.dropLast = .error e) ∧
    (ofPayload oddHeader (List.replicate 1048577 0)).encodeOnto [4] =
      ([4], .error (.payloadTooLarge 1048577 1048576)) := by
  obtain ⟨-, -, -, hwrite, hlarge⟩ := frame_format
  constructor
  · obtain ⟨w, hw, -, hread, hcut⟩ := hwrite oddHeader [1, 2, 3] (by decide)
    refine ⟨w, hw, hread [9], hcut _ (List.dropLast_prefix w) fun he => ?_⟩
    have hlen := congrArg List.length he
    rw [(encode_eq_ok hw).2, List.length_dropLast, List.length_append] at hlen
    simp [ofPayload] at hlen
  · have hl : (List.replicate 1048577 (0 : UInt8)).length = 1048577 := List.length_replicate
    rw [hlarge oddHeader _ [4] (by rw [hl]; decide), hl]
    rfl

end Frame

end AttestedChannel
