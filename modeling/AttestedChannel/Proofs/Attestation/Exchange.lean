import AttestedChannel.Proofs.Attestation.Evidence
import AttestedChannel.Proofs.Attestation.Wrapping

/-!
# Nothing is lost between a connector and its daemon

Requests, replies and evidence are read back from their octets, whatever follows them. An optional
value is told from an empty one, because the entry of an absent value is left out.

On the socket both directions are framed alike: a length and a body (`nextMessage_append`). So a
request that fits a message arrives at the daemon as it was sent, and a reply that fits comes back
as the daemon gave it; what does not fit is noticed before it is sent, or before it is read
(`exchange_is_lossless`).
-/

namespace AttestedChannel

open Cbor

/-! ## Terms -/

theorem ServiceOperation.reads_write (depth : Nat) (o : ServiceOperation) :
    Reads (ServiceOperation.reader (depth + 1)) o.write o := by
  have hv : variants.find? (fun w => Text.Utf8.encode w.1 == Text.Utf8.encode o.name) =
      some (o.name, o) := by cases o <;> rfl
  exact reads_variant (v := (o.name, o)) (by cases o <;> decide) hv

theorem ServiceStatus.reads_write (depth : Nat) (s : ServiceStatus) :
    Reads (ServiceStatus.reader (depth + 1)) s.write s := by
  have hv : variants.find? (fun w => Text.Utf8.encode w.1 == Text.Utf8.encode s.name) =
      some (s.name, s) := by cases s <;> rfl
  exact reads_variant (v := (s.name, s)) (by cases s <;> decide) hv

/-! ## Requests and replies -/

/-- A request is read back. -/
theorem ServiceRequest.reads_encode (depth : Nat) {r : ServiceRequest}
    (hr : r.encode.length < headRange) : Reads (ServiceRequest.reader (depth + 2)) r.encode r := by
  obtain ⟨operation, type, mask, nonce, evidence⟩ := r
  have hn := length_of_octets_lt
    (length_of_record_lt "nonce" hr (w := Write.octets nonce) (by simp))
  have he : ∀ b, evidence = some b → Reads (octets (depth + 1)) (Write.octets b) b := by
    rintro b rfl
    exact reads_octets (length_of_octets_lt
      (length_of_record_lt "evidence" hr (w := Write.octets b) (by simp [Write.entry?])))
  exact reads_record ⟨some operation, some type, some mask, some nonce, evidence.map some⟩
    (by cases evidence <;> simp [headRange, Write.entry?])
    (.cons (reads_field "operation" rfl (by decide) rfl (operation.reads_write depth))
      (.cons (reads_field "attestation_type" rfl (by decide) rfl (type.reads_write depth))
        (.cons (reads_field "property_mask" rfl (by decide) rfl mask.reads_write)
          (.cons (reads_field "nonce" rfl (by decide) rfl (reads_octets hn))
            (fills_optional "evidence" rfl (by decide) rfl (by cases evidence <;> rfl) he)))))
    (by cases evidence <;> rfl)

/-- A reply is read back. -/
theorem ServiceReply.reads_encode (depth : Nat) {r : ServiceReply}
    (hr : r.encode.length < headRange) : Reads (ServiceReply.reader (depth + 3)) r.encode r := by
  obtain ⟨status, evidence, measurements, reason⟩ := r
  have he : ∀ b, evidence = some b → Reads (octets (depth + 2)) (Write.octets b) b := by
    rintro b rfl
    exact reads_octets (length_of_octets_lt
      (length_of_record_lt "evidence" hr (w := Write.octets b) (by simp [Write.entry?])))
  have hm := length_of_record_lt "measurements" hr (w := measurements.write) (by simp)
  have hs : ∀ s, reason = some s → Reads text (Write.text s) s := by
    rintro s rfl
    exact reads_text (length_of_text_lt
      (length_of_record_lt "reason" hr (w := Write.text s) (by simp [Write.entry?])))
  refine reads_record ⟨some status, evidence.map some, some measurements, reason.map some⟩
    (by cases evidence <;> cases reason <;> simp [headRange, Write.entry?]) ?_
    (by cases evidence <;> cases reason <;> rfl)
  rw [List.map_append]
  exact (Fills.cons (reads_field "status" rfl (by decide) rfl (status.reads_write (depth + 1)))
    (fills_optional (d := ⟨some status, evidence.map some, none, none⟩) "evidence" rfl
      (by decide) rfl (by cases evidence <;> rfl) he)).append
    (.cons (reads_field "measurements" rfl (by decide) rfl (measurements.reads_write depth hm))
      (fills_optional (r := fun _ => text) "reason" rfl (by decide) rfl
        (by cases reason <;> rfl) hs))

namespace Daemon

/-! ## Exchanges -/

/-- A daemon that decodes the message it has read and writes its reply. To octets that are no
request it writes nothing, nor does it write a reply that fits no message. -/
def answering (respond : ServiceRequest → ServiceReply) (body : Bytes) : Bytes :=
  match Cbor.decode (ServiceRequest.reader maxDepth) body with
  | .error _ => []
  | .ok r =>
    match wrapMessage (respond r).encode with
    | .error _ => []
    | .ok message => message

variable {r : ServiceRequest} {a : ServiceReply}

theorem decode_request (hr : r.encode.length < headRange) (x : Bytes) :
    Cbor.decode (ServiceRequest.reader maxDepth) (r.encode ++ x) = .ok r :=
  (ServiceRequest.reads_encode 254 hr).decode_append x

theorem decode_reply (ha : a.encode.length < headRange) (x : Bytes) :
    Cbor.decode (ServiceReply.reader maxDepth) (a.encode ++ x) = .ok a :=
  (ServiceReply.reads_encode 253 ha).decode_append x

theorem lt_headRange_of_le_maxMessage {n : Nat} (h : n ≤ maxMessage) : n < headRange :=
  Nat.lt_of_le_of_lt h (by decide)

/-- The client hands the body of the request to the daemon. -/
theorem measure_eq (hr : r.encode.length ≤ maxMessage) (daemon : Bytes → Bytes) :
    measure r daemon = receive (daemon r.encode) := by
  have hnext := nextMessage_append hr []
  rw [List.append_nil] at hnext
  simp only [measure, wrapMessage_of_le hr, hnext]

/-- The daemon makes the request of the body again. -/
theorem answering_encode (hr : r.encode.length < headRange)
    {respond : ServiceRequest → ServiceReply} (ha : (respond r).encode.length ≤ maxMessage) :
    answering respond r.encode =
      Bytes.bigEndian 4 (respond r).encode.length ++ (respond r).encode := by
  have hd := decode_request hr []
  rw [List.append_nil] at hd
  simp only [answering, hd, wrapMessage_of_le ha]

/-- The client makes the reply of the octets again. -/
theorem receive_message (ha : a.encode.length ≤ maxMessage) (rest : Bytes) :
    receive (Bytes.bigEndian 4 a.encode.length ++ a.encode ++ rest) = .ok a := by
  have hd := decode_reply (lt_headRange_of_le_maxMessage ha) []
  rw [List.append_nil] at hd
  simp only [receive, nextMessage_append ha rest, hd]

/-- **The exchange with the daemon loses nothing.**

* Requests, replies and evidence are read back from their octets, whatever follows them.
* Where a request and the reply to it fit a message, the daemon takes the octets of the request off
  the stream and nothing is left, it reads them as the request, and the client ends up with the
  reply.
* A request that does not fit is not sent, whatever the daemon would do.
* A reply that is announced as too long is refused, whatever comes after its length. -/
theorem exchange_is_lossless :
    (∀ r : ServiceRequest, r.encode.length < 0x10000000000000000 → ∀ x,
      Cbor.decode (ServiceRequest.reader maxDepth) (r.encode ++ x) = .ok r) ∧
    (∀ a : ServiceReply, a.encode.length < 0x10000000000000000 → ∀ x,
      Cbor.decode (ServiceReply.reader maxDepth) (a.encode ++ x) = .ok a) ∧
    (∀ e : Evidence, e.encode.length < 0x10000000000000000 → ∀ x,
      Evidence.decode (e.encode ++ x) = .ok e) ∧
    (∀ (r : ServiceRequest) (respond : ServiceRequest → ServiceReply),
      r.encode.length ≤ maxMessage → (respond r).encode.length ≤ maxMessage →
      (∃ message, wrapMessage r.encode = .ok message ∧
        nextMessage message = (.ok r.encode, []) ∧
        Cbor.decode (ServiceRequest.reader maxDepth) r.encode = .ok r) ∧
      measure r (answering respond) = .ok (respond r)) ∧
    (∀ r : ServiceRequest, maxMessage < r.encode.length → ∃ detail,
      wrapMessage r.encode = .error (.encode detail) ∧
        ∀ daemon, measure r daemon = .error (.encode detail)) ∧
    ∀ (r : ServiceRequest) (l rest : Bytes), r.encode.length ≤ maxMessage → l.length = 4 →
      maxMessage < l.toNat →
      measure r (fun _ => l ++ rest) = .error (.replyTooLarge l.toNat maxMessage) := by
  refine ⟨fun r hr => decode_request hr, fun a ha => decode_reply ha,
    fun e he x => (Evidence.reads_encode 253 he).decode_append x, fun r respond hr ha => ?_,
    fun r hr => ?_, fun r l rest hr hl hlarge => ?_⟩
  · have hrange := lt_headRange_of_le_maxMessage hr
    have hnext := nextMessage_append hr []
    have hd := decode_request hrange []
    rw [List.append_nil] at hnext hd
    refine ⟨⟨_, wrapMessage_of_le hr, hnext, hd⟩, ?_⟩
    have hreply := receive_message ha []
    rw [List.append_nil] at hreply
    rw [measure_eq hr, answering_encode hrange ha, hreply]
  · have hwrap := wrapMessage_of_lt hr
    exact ⟨_, hwrap, fun daemon => by simp only [measure, hwrap]⟩
  · rw [measure_eq hr]
    simp only [receive, nextMessage_of_announced hl hlarge rest]

/-- Evidence without octets is not the same as no evidence, in either direction. A reply of one
octet more than a message holds is refused by its length. -/
theorem emptyEvidence_is_kept :
    let r : ServiceRequest := ⟨.verify, .advanced, ⟨0x80000001⟩, [0xFF, 0], some []⟩
    let a : ServiceReply := ⟨.fail, some [], .ofList [(255, []), (3, [24, 255])], some "ü"⟩
    r.encode.length ≤ maxMessage ∧ a.encode.length ≤ maxMessage ∧
      measure r (answering fun _ => a) = .ok a ∧
      measure r (fun _ => [0, 16, 0, 1] ++ []) = .error (.replyTooLarge 0x100001 maxMessage) := by
  intro r a
  obtain ⟨-, -, -, hanswer, -, hlarge⟩ := exchange_is_lossless
  have hr : r.encode.length ≤ maxMessage := by decide +kernel
  have ha : a.encode.length ≤ maxMessage := by decide +kernel
  exact ⟨hr, ha, (hanswer r (fun _ => a) hr ha).2,
    hlarge r [0, 16, 0, 1] [] hr rfl (by decide +kernel)⟩

end Daemon

end AttestedChannel
