import AttestedChannel.Attestation.Daemon

/-!
# Messages on the socket

A message is a length and a body, and both ends have the same limit. `Delivers` lists what a reader
can meet: a message, a length above the limit, or a stream that ends too early; `delivers` says that
there is nothing else. Since the length takes four octets whatever it is, a body is written in one
way only, and the reader takes messages off the stream exactly where the writer has put them
(`nextMessage_eq_ok_iff`). So whole sequences of messages are read back as well, and what is behind
them is left alone (`messages_are_delimited`).
-/

namespace AttestedChannel.Daemon

variable {body stream rest written : Bytes} {bodies : List Bytes}

/-! ## Writing -/

/-- The octets of a body and its length. -/
def wrapped (body : Bytes) : Bytes := Bytes.bigEndian 4 body.length ++ body

/-- The length that a stream begins with. -/
def announced (stream : Bytes) : Nat := Bytes.toNat (stream.take 4)

theorem length_wrapped (body : Bytes) : (wrapped body).length = 4 + body.length := by
  rw [wrapped, List.length_append, Bytes.length_bigEndian]

/-- A message announces its body. -/
theorem announced_wrapped (h : body.length ≤ maxMessage) (rest : Bytes) :
    announced (wrapped body ++ rest) = body.length := by
  rw [announced, wrapped, List.append_assoc, List.take_left' (Bytes.length_bigEndian 4 _)]
  exact Bytes.toNat_bigEndian (Nat.lt_of_le_of_lt h (by decide))

/-- A body that is too long is not sent. -/
theorem wrapMessage_of_lt (h : maxMessage < body.length) :
    wrapMessage body = .error (.encode
      ("message of " ++ toString body.length ++ " bytes exceeds " ++ toString maxMessage)) :=
  if_pos h

/-- A body that fits is sent behind its length. -/
theorem wrapMessage_of_le (h : body.length ≤ maxMessage) :
    wrapMessage body = .ok (Bytes.bigEndian 4 body.length ++ body) :=
  if_neg (Nat.not_lt.2 h)

/-- A body that is too long leaves the stream alone. -/
theorem writeMessage_of_lt (h : maxMessage < body.length) (written : Bytes) :
    writeMessage written body = (.error (.encode
      ("message of " ++ toString body.length ++ " bytes exceeds " ++ toString maxMessage)),
      written) := by
  rw [writeMessage, wrapMessage_of_lt h]

theorem writeMessage_of_le (h : body.length ≤ maxMessage) (written : Bytes) :
    writeMessage written body = (.ok (), written ++ wrapped body) := by
  rw [writeMessage, wrapMessage_of_le h, wrapped]

/-- Only what is too long is not written. -/
theorem writeMessage_fails_iff :
    (writeMessage written body).1 ≠ .ok () ↔ maxMessage < body.length := by
  by_cases h : maxMessage < body.length
  · rw [writeMessage_of_lt h]
    simp [h]
  · rw [writeMessage_of_le (Nat.le_of_not_lt h)]
    simp [h]

/-- Bodies that fit are written one behind the other. -/
theorem writeMessages_of_le (h : ∀ body ∈ bodies, body.length ≤ maxMessage) (written : Bytes) :
    writeMessages written bodies =
      (bodies.map fun _ => .ok (), written ++ bodies.flatMap wrapped) := by
  induction bodies generalizing written with
  | nil => rw [writeMessages, List.map_nil, List.flatMap_nil, List.append_nil]
  | cons body bodies ih =>
    have hbody := writeMessage_of_le (h body List.mem_cons_self) written
    have hrest := ih (fun b hb => h b (List.mem_cons_of_mem body hb)) (written ++ wrapped body)
    simp only [writeMessages, hbody, hrest, List.map_cons, List.flatMap_cons, List.append_assoc]

/-! ## Reading -/

/-- A message is taken off the stream and what follows it is left alone. -/
theorem nextMessage_append (h : body.length ≤ maxMessage) (rest : Bytes) :
    nextMessage (Bytes.bigEndian 4 body.length ++ body ++ rest) = (.ok body, rest) := by
  have hlength : (Bytes.bigEndian 4 body.length).toNat = body.length :=
    Bytes.toNat_bigEndian (Nat.lt_of_le_of_lt h (by decide))
  have htake : Bytes.take? 4 (Bytes.bigEndian 4 body.length ++ body ++ rest) =
      some (Bytes.bigEndian 4 body.length, body ++ rest) :=
    Bytes.take?_eq_some.2 ⟨Bytes.length_bigEndian 4 _, List.append_assoc _ _ _⟩
  simp only [nextMessage, htake, hlength, if_neg (Nat.not_lt.2 h), Bytes.take?_append]

/-- A length that is too large is noticed before anything else is read. -/
theorem nextMessage_of_announced {l : Bytes} (hl : l.length = 4) (h : maxMessage < l.toNat)
    (rest : Bytes) :
    nextMessage (l ++ rest) = (.error (.replyTooLarge l.toNat maxMessage), rest) := by
  have htake : Bytes.take? 4 (l ++ rest) = some (l, rest) := Bytes.take?_eq_some.2 ⟨hl, rfl⟩
  simp only [nextMessage, htake, if_pos h]

/-- The stream ends before the length is complete, or before a body within the limit is. -/
def IsCutShort (stream : Bytes) : Prop :=
  stream.length < 4 ∨ announced stream ≤ maxMessage ∧ stream.length < 4 + announced stream

/-- What a reader can meet, and what is left of the stream then. -/
inductive Delivers (stream : Bytes) : Except MeasurementError Bytes × Bytes → Prop
  | cutShort (h : IsCutShort stream) : Delivers stream (.error endOfStream, [])
  | tooLarge (hl : 4 ≤ stream.length) (h : maxMessage < announced stream) :
    Delivers stream (.error (.replyTooLarge (announced stream) maxMessage), stream.drop 4)
  | message {body rest : Bytes} (hb : body.length ≤ maxMessage)
      (hs : stream = wrapped body ++ rest) : Delivers stream (.ok body, rest)

/-- **A reader meets nothing else.** -/
theorem delivers (stream : Bytes) : Delivers stream (nextMessage stream) := by
  unfold nextMessage
  cases ht : Bytes.take? 4 stream with
  | none => exact .cutShort (.inl (Bytes.take?_eq_none.1 ht))
  | some split =>
    obtain ⟨l, rest⟩ := split
    obtain ⟨hl, rfl⟩ := Bytes.take?_eq_some.1 ht
    have hannounced : announced (l ++ rest) = l.toNat := by rw [announced, List.take_left' hl]
    have hlength : (l ++ rest).length = 4 + rest.length := by rw [List.length_append, hl]
    dsimp only
    by_cases hlarge : maxMessage < l.toNat
    · rw [if_pos hlarge]
      have h : Delivers (l ++ rest) _ := .tooLarge (by omega) (by rwa [hannounced])
      rwa [hannounced, List.drop_left' hl] at h
    · rw [if_neg hlarge]
      cases hb : Bytes.take? l.toNat rest with
      | none =>
        have hshort := Bytes.take?_eq_none.1 hb
        refine .cutShort (.inr ?_)
        rw [hannounced, hlength]
        exact ⟨Nat.le_of_not_lt hlarge, Nat.add_lt_add_left hshort 4⟩
      | some split =>
        obtain ⟨body, rest⟩ := split
        obtain ⟨hbody, rfl⟩ := Bytes.take?_eq_some.1 hb
        -- four octets are the only ones that write their number
        have hwrite : Bytes.bigEndian 4 body.length = l := by
          rw [hbody, ← hl, Bytes.bigEndian_toNat]
        refine .message (by omega) ?_
        rw [wrapped, hwrite, List.append_assoc]

/-- **What is read as a message was written as one.** -/
theorem nextMessage_eq_ok_iff :
    nextMessage stream = (.ok body, rest) ↔
      body.length ≤ maxMessage ∧ stream = wrapped body ++ rest := by
  constructor
  · intro h
    have hd := delivers stream
    rw [h] at hd
    cases hd with
    | message hb hs => exact ⟨hb, hs⟩
  · rintro ⟨hb, rfl⟩
    exact nextMessage_append hb rest

/-- A reader finds a length too large exactly if it is, and has read nothing else then. -/
theorem nextMessage_eq_tooLarge_iff {size max : Nat} :
    nextMessage stream = (.error (.replyTooLarge size max), rest) ↔
      4 ≤ stream.length ∧ maxMessage < announced stream ∧ size = announced stream ∧
        max = maxMessage ∧ rest = stream.drop 4 := by
  constructor
  · intro h
    have hd := delivers stream
    rw [h] at hd
    cases hd with
    | tooLarge hl hlarge => exact ⟨hl, hlarge, rfl, rfl, rfl⟩
  · rintro ⟨hl, hlarge, rfl, rfl, rfl⟩
    have h := nextMessage_of_announced (List.length_take_of_le hl) hlarge (stream.drop 4)
    rwa [List.take_append_drop] at h

/-- A reader runs out of octets exactly if the stream ends too early. -/
theorem exists_io_iff :
    (∃ cause, (nextMessage stream).1 = .error (.io cause)) ↔ IsCutShort stream := by
  have hd := delivers stream
  revert hd
  generalize nextMessage stream = outcome
  intro hd
  cases hd with
  | cutShort h => exact iff_of_true ⟨_, rfl⟩ h
  | tooLarge hl h => exact iff_of_false (by simp) fun hcut => by unfold IsCutShort at hcut; omega
  | @message body rest hb hs =>
    refine iff_of_false (by simp) ?_
    have hlength := length_wrapped body
    rw [IsCutShort, hs, announced_wrapped hb, List.length_append]
    omega

/-- **Messages that were written are read back**, and what follows them is left alone. -/
theorem nextMessages_flatMap (h : ∀ body ∈ bodies, body.length ≤ maxMessage) (rest : Bytes) :
    nextMessages bodies.length (bodies.flatMap wrapped ++ rest) = (bodies.map .ok, rest) := by
  induction bodies with
  | nil => rfl
  | cons body bodies ih =>
    have hbody := nextMessage_append (h body List.mem_cons_self) (bodies.flatMap wrapped ++ rest)
    have hrest := ih fun b hb => h b (List.mem_cons_of_mem body hb)
    rw [List.flatMap_cons, List.append_assoc, wrapped, List.length_cons, nextMessages, hbody]
    simp only [hrest, List.map_cons]

/-- **Messages are delimited in one way.**

* Bodies that fit are all written, behind what was written before, and as many messages as there
  are bodies are read as these bodies, in their order; what follows is left on the stream.
* A stream from which a body is read is what is written for that body, and then what is left.
* A body is not written exactly if it is too long, and then nothing is.
* A length is found too large exactly if all its octets are there and it is; nothing else has been
  read then.
* A reader runs out of octets exactly if the stream ends before the length is complete, or before a
  body within the limit is. -/
theorem messages_are_delimited :
    (∀ (bodies : List Bytes) (rest : Bytes), (∀ body ∈ bodies, body.length ≤ maxMessage) →
      ∃ octets, (∀ written, writeMessages written bodies =
          (bodies.map fun _ => .ok (), written ++ octets)) ∧
        nextMessages bodies.length (octets ++ rest) = (bodies.map .ok, rest)) ∧
    (∀ stream body rest : Bytes, nextMessage stream = (.ok body, rest) ↔
      ∃ octets, writeMessage [] body = (.ok (), octets) ∧ stream = octets ++ rest) ∧
    (∀ written body : Bytes, ((writeMessage written body).1 ≠ .ok () ↔ maxMessage < body.length) ∧
      (maxMessage < body.length → ∃ detail,
        writeMessage written body = (.error (.encode detail), written))) ∧
    (∀ (stream : Bytes) (size max : Nat) (rest : Bytes),
      nextMessage stream = (.error (.replyTooLarge size max), rest) ↔
        4 ≤ stream.length ∧ maxMessage < announced stream ∧ size = announced stream ∧
          max = maxMessage ∧ rest = stream.drop 4) ∧
    ∀ stream : Bytes, (∃ cause, (nextMessage stream).1 = .error (.io cause)) ↔
      stream.length < 4 ∨ announced stream ≤ maxMessage ∧
        stream.length < 4 + announced stream := by
  refine ⟨fun bodies rest h => ?_, fun stream body rest => ?_, fun written body => ?_,
    fun stream size max rest => nextMessage_eq_tooLarge_iff, fun stream => exists_io_iff⟩
  · exact ⟨_, writeMessages_of_le h, nextMessages_flatMap h rest⟩
  · rw [nextMessage_eq_ok_iff]
    constructor
    · rintro ⟨hb, hs⟩
      exact ⟨_, writeMessage_of_le hb [], hs⟩
    · rintro ⟨octets, hw, hs⟩
      have hok : (writeMessage [] body).1 = .ok () := by rw [hw]
      -- a body that is too long has not been written
      have hb : body.length ≤ maxMessage :=
        Nat.le_of_not_lt fun hlarge => writeMessage_fails_iff.2 hlarge hok
      rw [writeMessage_of_le hb, List.nil_append] at hw
      cases hw
      exact ⟨hb, hs⟩
  · exact ⟨writeMessage_fails_iff, fun h => ⟨_, writeMessage_of_lt h written⟩⟩

/-- An empty body and one of three octets are written behind an octet that is there already, and
read again, with an octet left behind them. One octet more than the limit is refused from either
side, and a body of which an octet is missing is not read. -/
theorem threeOctets_delimited :
    ∃ octets, writeMessages [9] [[], [1, 2, 3]] = ([.ok (), .ok ()], [9] ++ octets) ∧
      nextMessages 2 (octets ++ [7]) = ([.ok [], .ok [1, 2, 3]], [7]) ∧
      (∃ detail, writeMessage [9] (List.replicate (maxMessage + 1) 0) =
        (.error (.encode detail), [9])) ∧
      nextMessage [0, 16, 0, 1, 5] = (.error (.replyTooLarge 0x100001 maxMessage), [5]) ∧
      ∃ cause, (nextMessage [0, 0, 0, 3, 1, 2]).1 = .error (.io cause) := by
  obtain ⟨hbodies, -, hwrite, hlarge, hcut⟩ := messages_are_delimited
  obtain ⟨octets, hw, hr⟩ := hbodies [[], [1, 2, 3]] [7] (by decide)
  refine ⟨octets, hw [9], hr, (hwrite [9] _).2 ?_, ?_, ?_⟩
  · rw [List.length_replicate]
    exact Nat.lt_succ_self _
  · exact (hlarge [0, 16, 0, 1, 5] 0x100001 maxMessage [5]).2
      ⟨by decide, by decide, by decide, rfl, rfl⟩
  · exact (hcut [0, 0, 0, 3, 1, 2]).2 (.inr ⟨by decide, by decide⟩)

end AttestedChannel.Daemon
