import AttestedChannel.Proofs.Frame.Format
import AttestedChannel.Session.Stream

/-!
# Frames of a stream

A stream is cut into frames in two places of the library: `Stream.nextFrame` takes one frame after
the other off it, and `Frame.decode` reads the frame at its front. They agree: `next` lists the ways
in which taking a frame can go, each with what decoding the stream comes to. From one frame to a
whole stream leads `Reads`, which is the same as writing the frames one after the other
(`reads_iff`).

The end of a stream is another matter. A stream that ends inside a payload is reported, but one that
ends inside a header counts as finished (`cut_header_ends_in_order`). So a session is closed in
order if its stream is complete or ends inside a header (`endsInOrder_iff`), and a stream is never
both (`EndsInHeader.not_isComplete`).
-/

namespace AttestedChannel

/-! ## Headers and whole frames -/

/-- A header is read off its own octets as it is off any that begin with them. -/
theorem FrameHeader.read_append {b : Bytes} (hl : b.length = size) (rest : Bytes) :
    read (b ++ rest) = (decode b).map fun h => (h, rest) := by
  obtain ⟨m₀, m₁, m₂, m₃, v, reserved, t₀, t₁, s₀, s₁, s₂, s₃, p₀, p₁, p₂, p₃, more, rfl⟩ :=
    eq_cons_of_size_le (Nat.le_of_eq hl.symm)
  have hmore : more = [] := List.length_eq_zero_iff.1 (by simpa [size] using hl)
  subst hmore
  simp only [decode, read, List.cons_append, List.nil_append]
  split
  · rfl
  · split
    · rfl
    · split <;> rfl

/-- Octets that are a header are written back, and announce a payload that is not too large. -/
theorem FrameHeader.encode_of_decode {b : Bytes} {h : FrameHeader} (hl : b.length = size)
    (hd : decode b = .ok h) : h.encode = b ∧ h.payloadSize.toNat ≤ maxPayload := by
  unfold decode at hd
  rcases Frame.read_cases b with ⟨e, he, -⟩ | ⟨h', hr, -, -, -, hs, hb, hn⟩
  · rw [he] at hd
    cases hd
  · rw [hr] at hd
    cases hd
    rw [← hl, List.take_length] at hb
    exact ⟨hb, hn ▸ hs⟩

namespace Frame

/-- The octets are one frame, as it is written, and nothing else. -/
def IsWhole (b : Bytes) : Prop := ∃ h p, (ofPayload h p).encode = .ok b

/-- A header and the payload that it announces are a whole frame. -/
theorem isWhole_append {h : FrameHeader} {p : Bytes} (hp : p.length = h.payloadSize.toNat)
    (hs : h.payloadSize.toNat ≤ FrameHeader.maxPayload) : IsWhole (h.encode ++ p) := by
  refine ⟨h, p, ?_⟩
  have hf : ofPayload h p = ⟨h, p⟩ := by
    rw [ofPayload, hp, UInt32.ofNat_toNat]
  rw [hf, encode, if_neg (by simpa [hp] using hs)]

/-- A whole frame is a header and the payload that it announces. -/
theorem IsWhole.eq_append {b : Bytes} (hb : IsWhole b) :
    ∃ (h : FrameHeader) (p : Bytes), b = h.encode ++ p ∧ p.length = h.payloadSize.toNat ∧
      h.payloadSize.toNat ≤ FrameHeader.maxPayload := by
  obtain ⟨h, p, hw⟩ := hb
  obtain ⟨hl, rfl⟩ := encode_eq_ok hw
  have hs := payloadSize_ofPayload (h := h) hl
  exact ⟨_, p, rfl, hs.symm, hs ▸ hl⟩

/-- A whole frame is read whatever follows it, and written as it came. -/
theorem IsWhole.decode_append {b : Bytes} (hb : IsWhole b) :
    ∃ f, f.encode = .ok b ∧ ∀ x, decode (b ++ x) = .ok f := by
  obtain ⟨h, p, hw⟩ := hb
  exact ⟨_, hw, decode_encode_append hw (payloadSize_ofPayload (encode_eq_ok hw).1)⟩

end Frame

namespace Stream

open AttestedChannel.Frame (IsWhole)

variable {s b rest left w cut : Bytes} {bs : List Bytes} {e : Fault}

/-! ## The next frame -/

/-- The ways in which taking the next frame off a stream can go, and what decoding the stream comes
to in each of them. -/
inductive Next (s : Bytes) : Except Fault (Option (Bytes × Bytes)) → Prop
  | ended (hl : s.length < FrameHeader.size) : Next s (.ok none)
  | invalid {f : FrameFault} (hl : FrameHeader.size ≤ s.length) (hd : Frame.decode s = .error f) :
    Next s (.error (.invalid f))
  | truncated {n m : Nat} (hl : FrameHeader.size ≤ s.length)
      (hd : Frame.decode s = .error (.frameTruncated n m)) : Next s (.error .truncated)
  | frame {b rest : Bytes} (hs : s = b ++ rest) (hb : IsWhole b) : Next s (.ok (some (b, rest)))

/-- **Taking a frame off a stream goes one of these ways.** -/
theorem next (s : Bytes) : Next s (nextFrame s) := by
  unfold nextFrame
  cases ht : Bytes.take? FrameHeader.size s with
  | none => exact .ended (Bytes.take?_eq_none.1 ht)
  | some c =>
    obtain ⟨header, rest⟩ := c
    obtain ⟨hl, rfl⟩ := Bytes.take?_eq_some.1 ht
    have hsize : FrameHeader.size ≤ (header ++ rest).length := by
      rw [List.length_append, hl]
      exact Nat.le_add_right _ _
    have hread := FrameHeader.read_append hl rest
    dsimp only
    cases hd : FrameHeader.decode header with
    | error f =>
      rw [hd] at hread
      refine .invalid hsize ?_
      rw [Frame.decode, hread]
      rfl
    | ok h =>
      rw [hd] at hread
      dsimp only
      cases hp : Bytes.take? h.payloadSize.toNat rest with
      | none =>
        refine .truncated (n := h.payloadSize.toNat) (m := rest.length) hsize ?_
        rw [Frame.decode, hread]
        simp only [Except.map, hp]
      | some c =>
        obtain ⟨payload, left⟩ := c
        obtain ⟨hpl, rfl⟩ := Bytes.take?_eq_some.1 hp
        obtain ⟨hh, hs⟩ := FrameHeader.encode_of_decode hl hd
        refine .frame (List.append_assoc _ _ _).symm ?_
        rw [← hh]
        exact Frame.isWhole_append hpl hs

/-- After a header the payload that it announces is taken. -/
theorem nextFrame_encode {h : FrameHeader} (hs : h.payloadSize.toNat ≤ FrameHeader.maxPayload)
    (p : Bytes) :
    nextFrame (h.encode ++ p) =
      match Bytes.take? h.payloadSize.toNat p with
      | none => .error .truncated
      | some (payload, rest) => .ok (some (h.encode ++ payload, rest)) := by
  have hread := FrameHeader.read_encode hs []
  rw [List.append_nil] at hread
  have htake := Bytes.take?_append h.encode p
  rw [FrameHeader.length_encode] at htake
  cases hp : Bytes.take? h.payloadSize.toNat p <;>
    simp only [nextFrame, htake, FrameHeader.decode, hread, Except.map, hp]

/-- A whole frame is taken off as it is. -/
theorem nextFrame_append (hb : IsWhole b) (rest : Bytes) :
    nextFrame (b ++ rest) = .ok (some (b, rest)) := by
  obtain ⟨h, p, rfl, hp, hs⟩ := hb.eq_append
  rw [List.append_assoc, nextFrame_encode hs, ← hp, Bytes.take?_append]

/-- A frame that lacks a part of its payload is reported. -/
theorem nextFrame_of_prefix (hw : IsWhole w) (hc : cut <+: w) (hne : cut ≠ w)
    (hl : FrameHeader.size ≤ cut.length) : nextFrame cut = .error .truncated := by
  obtain ⟨h, p, rfl, hp, hs⟩ := hw.eq_append
  obtain ⟨q, rfl⟩ : h.encode <+: cut :=
    List.prefix_of_prefix_length_le (List.prefix_append _ _) hc
      (by rwa [FrameHeader.length_encode])
  have hq : q <+: p := (List.prefix_append_right_inj _).1 hc
  have hlt : q.length < p.length :=
    Nat.lt_of_le_of_ne hq.length_le fun h => hne (by rw [hq.eq_of_length h])
  rw [nextFrame_encode hs, Bytes.take?_eq_none.2 (hp ▸ hlt)]

/-- The end of a stream is noticed when a header is missing, or a part of it. -/
theorem nextFrame_eq_none_iff : nextFrame s = .ok none ↔ s.length < FrameHeader.size := by
  constructor
  · intro h
    have hnext := next s
    rw [h] at hnext
    cases hnext with
    | ended hl => exact hl
  · intro h
    rw [nextFrame, Bytes.take?_eq_none.2 h]

/-! ## Whole streams -/

/-- Taking these frames off a stream, one after the other, leaves the rest. -/
inductive Reads : Bytes → List Bytes → Bytes → Prop
  | nil {s : Bytes} : Reads s [] s
  | cons {s b rest left : Bytes} {bs : List Bytes} (hn : nextFrame s = .ok (some (b, rest)))
      (hr : Reads rest bs left) : Reads s (b :: bs) left

/-- **Frames are read off a stream exactly if it begins with them**, written one after the other. -/
theorem reads_iff : Reads s bs left ↔ (∀ b ∈ bs, IsWhole b) ∧ s = bs.flatten ++ left := by
  constructor
  · intro h
    induction h with
    | nil => exact ⟨List.forall_mem_nil _, rfl⟩
    | @cons s b rest left bs hn _ ih =>
      have hnext := next s
      rw [hn] at hnext
      cases hnext with
      | frame hs hb =>
        refine ⟨List.forall_mem_cons.2 ⟨hb, ih.1⟩, ?_⟩
        rw [hs, ih.2, List.flatten_cons, List.append_assoc]
  · rintro ⟨hbs, rfl⟩
    induction bs with
    | nil => exact .nil
    | cons b bs ih =>
      obtain ⟨hb, hbs⟩ := List.forall_mem_cons.1 hbs
      rw [List.flatten_cons, List.append_assoc]
      exact .cons (nextFrame_append hb _) (ih hbs)

/-- One step of reading a stream to its end. -/
theorem allFrames_eq (s : Bytes) :
    allFrames s =
      match nextFrame s with
      | .error e => ([], .error e)
      | .ok none => ([], .ok ())
      | .ok (some (b, rest)) => (b :: (allFrames rest).1, (allFrames rest).2) := by
  rw [allFrames]
  split <;> next h => rw [h]

/-- Every stream is read up to a point where there is no next frame. -/
theorem exists_reads (s : Bytes) :
    ∃ bs left, Reads s bs left ∧ (nextFrame left = .ok none ∨ ∃ e, nextFrame left = .error e) := by
  induction s using allFrames.induct with
  | case1 s e h => exact ⟨[], s, .nil, .inr ⟨e, h⟩⟩
  | case2 s h => exact ⟨[], s, .nil, .inl h⟩
  | case3 s b rest h frames last _ ih =>
    obtain ⟨bs, left, hr, hend⟩ := ih
    exact ⟨b :: bs, left, .cons h hr, hend⟩

/-- Reading on from the middle. -/
theorem Reads.allFrames_eq (h : Reads s bs left) :
    allFrames s = (bs ++ (allFrames left).1, (allFrames left).2) := by
  induction h with
  | nil => rfl
  | cons hn _ ih =>
    rw [Stream.allFrames_eq, hn]
    simp only [ih, List.cons_append]

/-- A stream that is read up to its end has these frames. -/
theorem Reads.allFrames_of_none (h : Reads s bs left) (hn : nextFrame left = .ok none) :
    allFrames s = (bs, .ok ()) := by
  have hleft : allFrames left = ([], .ok ()) := by rw [Stream.allFrames_eq, hn]
  rw [h.allFrames_eq, hleft, List.append_nil]

/-- A stream that is read up to its end is closed in order. -/
theorem Reads.callbacks_of_none (h : Reads s bs left) (hn : nextFrame left = .ok none) :
    callbacks s = bs.map .message ++ [.closed closeNormal "end of stream"] := by
  rw [callbacks, h.allFrames_of_none hn]

/-- A stream that cannot be read on from a point is closed after the fault is reported. -/
theorem Reads.callbacks_of_error (h : Reads s bs left) (hn : nextFrame left = .error e) :
    callbacks s =
      bs.map .message ++ [.failed e.message, .closed closeAbnormal "read failed"] := by
  have hleft : allFrames left = ([], .error e) := by rw [Stream.allFrames_eq, hn]
  rw [callbacks, h.allFrames_eq, hleft, List.append_nil]

/-! ## Delimiting and decoding -/

/-- **A stream is cut into frames where they are decoded.** Whole frames that are written one after
the other are read back in order, and then the stream has ended; the handler is told of each of
them, and then that the session is closed in order. A frame that is taken off any stream is its
front, decodes to the same as the stream, and is written as it came, and a fault that is found in
its place is the one that decoding finds. Whatever the stream, the handler is told of the frames
that can be read, then of an error exactly if reading failed, and last that the session is closed.
-/
theorem delimiting_agrees_with_decoding :
    (∀ bs : List Bytes, (∀ b ∈ bs, IsWhole b) →
      Reads bs.flatten bs [] ∧ nextFrame [] = .ok none ∧
        callbacks bs.flatten = bs.map .message ++ [.closed closeNormal "end of stream"]) ∧
    ∀ s : Bytes,
      (∀ b rest, nextFrame s = .ok (some (b, rest)) →
        s = b ++ rest ∧ ∃ f, Frame.decode b = .ok f ∧ Frame.decode s = .ok f ∧ f.encode = .ok b) ∧
      (∀ f, nextFrame s = .error (.invalid f) → Frame.decode s = .error f) ∧
      ∃ bs left, Reads s bs left ∧
        ((nextFrame left = .ok none ∧
            callbacks s = bs.map .message ++ [.closed closeNormal "end of stream"]) ∨
          ∃ e, nextFrame left = .error e ∧
            callbacks s =
              bs.map .message ++ [.failed e.message, .closed closeAbnormal "read failed"]) := by
  refine ⟨fun bs hbs => ?_, fun s => ⟨fun b rest h => ?_, fun f h => ?_, ?_⟩⟩
  · have hr : Reads bs.flatten bs [] := reads_iff.2 ⟨hbs, (List.append_nil _).symm⟩
    exact ⟨hr, rfl, hr.callbacks_of_none rfl⟩
  · have hnext := next s
    rw [h] at hnext
    cases hnext with
    | frame hs hb =>
      obtain ⟨f, hf, hread⟩ := hb.decode_append
      refine ⟨hs, f, ?_, hs ▸ hread rest, hf⟩
      simpa using hread []
  · have hnext := next s
    rw [h] at hnext
    cases hnext with
    | invalid _ hd => exact hd
  · obtain ⟨bs, left, hr, hn | ⟨e, he⟩⟩ := exists_reads s
    · exact ⟨bs, left, hr, .inl ⟨hn, hr.callbacks_of_none hn⟩⟩
    · exact ⟨bs, left, hr, .inr ⟨e, he, hr.callbacks_of_error he⟩⟩

/-- A frame of an unknown type without payload, and one with a payload of two octets. -/
def plainFrames : List Bytes :=
  [FrameHeader.encode ⟨7, 0x4242, 5, 0⟩, FrameHeader.encode ⟨0, 0x30, 6, 2⟩ ++ [8, 9]]

theorem isWhole_of_mem_plainFrames : ∀ b ∈ plainFrames, IsWhole b :=
  List.forall_mem_cons.2 ⟨⟨⟨7, 0x4242, 5, 0⟩, [], rfl⟩,
    List.forall_mem_singleton.2 ⟨⟨0, 0x30, 6, 2⟩, [8, 9], rfl⟩⟩

/-- They are read back one after the other, and the first of them is what decoding both comes to. -/
theorem plainFrames_delimited :
    (∀ b ∈ plainFrames, IsWhole b) ∧
    Reads plainFrames.flatten plainFrames [] ∧
    callbacks plainFrames.flatten =
      plainFrames.map .message ++ [.closed closeNormal "end of stream"] ∧
    ∃ f, Frame.decode plainFrames.flatten = .ok f ∧
      f.encode = .ok (FrameHeader.encode ⟨7, 0x4242, 5, 0⟩) := by
  obtain ⟨hwritten, hstream⟩ := delimiting_agrees_with_decoding
  obtain ⟨hr, -, hc⟩ := hwritten plainFrames isWhole_of_mem_plainFrames
  obtain ⟨-, f, -, hf, he⟩ := (hstream plainFrames.flatten).1 _ _
    (nextFrame_append (isWhole_of_mem_plainFrames _ List.mem_cons_self) _)
  exact ⟨isWhole_of_mem_plainFrames, hr, hc, f, hf, he⟩

/-! ## The end of a stream -/

/-- The stream is a list of whole frames, written one after the other. -/
def IsComplete (s : Bytes) : Prop := ∃ bs : List Bytes, (∀ b ∈ bs, IsWhole b) ∧ s = bs.flatten

/-- The stream is a list of whole frames and a part of a header. -/
def EndsInHeader (s : Bytes) : Prop :=
  ∃ (bs : List Bytes) (left : Bytes), (∀ b ∈ bs, IsWhole b) ∧ s = bs.flatten ++ left ∧
    left ≠ [] ∧ left.length < FrameHeader.size

/-- The handler is told that the session is closed in order, and of no error. -/
def EndsInOrder (s : Bytes) : Prop :=
  (∃ reason, .closed closeNormal reason ∈ callbacks s) ∧ ∀ text, .failed text ∉ callbacks s

/-- A stream ends in order if less than a header is left of it after some frames. -/
theorem Reads.endsInOrder (h : Reads s bs left) (hl : left.length < FrameHeader.size) :
    EndsInOrder s := by
  rw [EndsInOrder, h.callbacks_of_none (nextFrame_eq_none_iff.2 hl)]
  exact ⟨⟨"end of stream", by simp⟩, by simp⟩

/-- **What ends in order** is a complete stream, or one that ends inside a header. -/
theorem endsInOrder_iff : EndsInOrder s ↔ IsComplete s ∨ EndsInHeader s := by
  constructor
  · intro h
    obtain ⟨bs, left, hr, hn | ⟨e, he⟩⟩ := exists_reads s
    · obtain ⟨hbs, hs⟩ := reads_iff.1 hr
      by_cases hleft : left = []
      · exact .inl ⟨bs, hbs, by rw [hs, hleft, List.append_nil]⟩
      · exact .inr ⟨bs, left, hbs, hs, hleft, nextFrame_eq_none_iff.1 hn⟩
    · refine absurd ?_ (h.2 e.message)
      rw [hr.callbacks_of_error he]
      simp
  · rintro (⟨bs, hbs, rfl⟩ | ⟨bs, left, hbs, hs, -, hl⟩)
    · exact (reads_iff.2 ⟨hbs, (List.append_nil _).symm⟩).endsInOrder (by decide)
    · exact (reads_iff.2 ⟨hbs, hs⟩).endsInOrder hl

/-- A stream that ends inside a header is not complete. -/
theorem EndsInHeader.not_isComplete (h : EndsInHeader s) : ¬ IsComplete s := by
  obtain ⟨bs, left, hbs, hs, hne, hl⟩ := h
  rintro ⟨bs', hbs', hs'⟩
  -- both ways of reading it are the one way in which it is read
  have hr := (reads_iff.2 ⟨hbs, hs⟩).allFrames_of_none (nextFrame_eq_none_iff.2 hl)
  have hr' := (reads_iff.2 ⟨hbs', hs'.trans (List.append_nil _).symm⟩).allFrames_of_none rfl
  obtain rfl : bs = bs' := (Prod.mk.inj (hr.symm.trans hr')).1
  exact hne (List.append_right_eq_self.1 (hs.symm.trans hs'))

/-- **A cut payload is reported, a cut header is not.** A stream is taken to have ended exactly if
less is left of it than a header. One that ends inside the payload of a frame, after any number of
frames, is reported before the session is closed. So a session is closed in order exactly if its
stream is complete or ends inside a header, and what ends inside a header is not complete. -/
theorem clean_end_leaves_less_than_header (s : Bytes) :
    (nextFrame s = .ok none ↔ s.length < FrameHeader.size) ∧
    (∀ (bs : List Bytes) (w cut : Bytes), (∀ b ∈ bs, IsWhole b) → IsWhole w → cut <+: w →
      cut ≠ w → FrameHeader.size ≤ cut.length → s = bs.flatten ++ cut →
      nextFrame cut = .error .truncated ∧
        callbacks s =
          bs.map .message ++ [.failed "early eof", .closed closeAbnormal "read failed"]) ∧
    (EndsInOrder s ↔ IsComplete s ∨ EndsInHeader s) ∧
    (EndsInHeader s → ¬ IsComplete s) := by
  refine ⟨nextFrame_eq_none_iff, fun bs w cut hbs hw hc hne hl hs => ?_, endsInOrder_iff,
    EndsInHeader.not_isComplete⟩
  have hn := nextFrame_of_prefix hw hc hne hl
  exact ⟨hn, (reads_iff.2 ⟨hbs, hs⟩).callbacks_of_error hn⟩

/-- Without its last octet the second of these frames is reported, after the first was handed over.
-/
theorem plainFrames_cut :
    let first := FrameHeader.encode ⟨7, 0x4242, 5, 0⟩
    let cut := FrameHeader.encode ⟨0, 0x30, 6, 2⟩ ++ [8]
    nextFrame cut = .error .truncated ∧
      callbacks (first ++ cut) =
        [.message first, .failed "early eof", .closed closeAbnormal "read failed"] := by
  intro first cut
  obtain ⟨hfirst, hsecond⟩ := List.forall_mem_cons.1 isWhole_of_mem_plainFrames
  obtain ⟨-, hcut, -⟩ := clean_end_leaves_less_than_header (first ++ cut)
  exact hcut [first] _ cut (List.forall_mem_singleton.2 hfirst) (hsecond _ List.mem_cons_self)
    ⟨[9], rfl⟩ (by decide) (by decide) (by rw [List.flatten_singleton])

/-- Four octets of a header and nothing else: octets are left, and they are no frames, but the
stream is taken to have ended and the session is closed in order. -/
theorem cut_header_ends_in_order :
    nextFrame [0x49, 0x44, 0x53, 0x43] = .ok none ∧
    EndsInOrder [0x49, 0x44, 0x53, 0x43] ∧
    ¬ IsComplete [0x49, 0x44, 0x53, 0x43] := by
  have h : EndsInHeader [0x49, 0x44, 0x53, 0x43] :=
    ⟨[], _, List.forall_mem_nil _, rfl, by decide, by decide⟩
  exact ⟨rfl, endsInOrder_iff.2 (.inr h), h.not_isComplete⟩

end Stream

end AttestedChannel
