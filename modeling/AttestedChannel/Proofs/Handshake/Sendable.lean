import AttestedChannel.Proofs.Handshake.Coherence
import AttestedChannel.Proofs.Payload.Size
import AttestedChannel.Proofs.Text.Utf8

/-!
# Which frames can be sent

The size of a payload is looked at only when its frame is written, and by then the machine that
sends it has gone on. `Machine.Utters` lists what a machine sends while the handshake goes on. Of
that only two kinds of payloads can outgrow a frame (`unsendable_frames`): the own self-description,
which is configured, and a response, whose nonce the peer and whose evidence the measurement service
has chosen.
-/

namespace AttestedChannel

/-- The nonce that is drawn for the command has the length of a nonce. -/
def Command.DrawsNonce : Command → Prop
  | .feed _ nonce _ _ => nonce.length = Coordinator.nonceLength
  | _ => True

/-- The machine is fed this challenge, and the service quotes this response to it. -/
def Moment.Quotes (x : Moment) (ch : Challenge) (r : Response) : Prop :=
  ∃ now nonce service e, x.command = .feed now nonce service e ∧ e.Carries (.challenge ch) ∧
    Coordinator.respond ch (service (Coordinator.quoteRequest ch)) = .ok r

namespace Machine

/-- What a machine sends as long as it does not fail. -/
inductive Utters (m : Machine) (k : Command) : Payload → Prop
  | hello : Utters m k (.hello ⟨Hello.currentVersion, m.config.mutualAttestation⟩)
  | challenge {now : Instant} {nonce : Bytes} {service : ServiceRequest → Answer} {e : Event}
      (hk : k = .feed now nonce service e) : Utters m k (.challenge (m.ownChallenge nonce))
  | passed : Utters m k (.result ⟨.pass, none⟩)
  | response {ch : Challenge} {r : Response} (h : (m.perform k).Quotes ch r) :
    Utters m k (.response r)
  | description : Utters m k (.metadata ⟨m.config.selfDescription⟩)

variable {m : Machine} {k : Command}

/-- **As long as it does not fail, a machine sends nothing else.** -/
theorem perform_utters (hs : (m.perform k).after.state ≠ .failed) {f : Frame}
    (hf : .send f ∈ (m.perform k).actions) : ∃ (p : Payload) (h : FrameHeader),
      m.Utters k p ∧ f = p.toFrame h := by
  cases k with
  | start now =>
    rcases m.start_cases now with ⟨err, h⟩ | ⟨-, h⟩ | ⟨-, -, -, h⟩
    · rw [perform_start_error h] at hf
      cases hf
    · rw [perform_start_ok h] at hf
      cases hf
    · rw [perform_start_ok h] at hf
      cases List.mem_singleton.1 hf
      exact ⟨_, _, .hello, rfl⟩
  | feed now nonce service e =>
    replace hs : ((m.feed now nonce e).run service).machine.state ≠ .failed := hs
    replace hf : .send f ∈ ((m.feed now nonce e).run service).actions := hf
    cases ht : m.state.isTerminal with
    | true =>
      rw [feed_of_terminal ht] at hf
      simp [Exchange.run] at hf
    | false =>
      obtain ⟨req, pr, tr, hrun⟩ := feed_transition ht now nonce e service
      rw [hrun] at hs hf
      cases tr with
      | malformed | peerError | unexpected | unsupported | appraisalFailed | quoteFailed
      | rejected => exact absurd (state_settle_refuse _ _ _) hs
      | challenged | acceptedMutually =>
        cases List.mem_singleton.1 hf
        exact ⟨_, _, .challenge rfl, rfl⟩
      | passedToAcceptor =>
        cases List.mem_singleton.1 hf
        exact ⟨_, _, .passed, rfl⟩
      | passedToInitiator =>
        rcases List.mem_cons.1 hf with hf | hf
        · cases hf
          exact ⟨_, _, .passed, rfl⟩
        · cases List.mem_singleton.1 hf
          exact ⟨_, _, .description, rfl⟩
      | quoted he _ hq =>
        cases List.mem_singleton.1 hf
        exact ⟨_, _, .response ⟨now, nonce, service, e, rfl, he, hq⟩, rfl⟩
      | acceptedOneWay | describedToAcceptor =>
        cases List.mem_singleton.1 hf
        exact ⟨_, _, .description, rfl⟩
      | acceptedAcceptor | describedToInitiator => cases hf
  | abandon now => cases hf
  | tick now =>
    replace hs : (m.tick now).1.state ≠ .failed := hs
    replace hf : .send f ∈ (m.tick now).2 := hf
    rcases m.tick_cases now with h | ⟨-, elapsed, h⟩
    · rw [h] at hf
      cases hf
    · obtain ⟨n, hn⟩ := m.fail_machine (.timeOut elapsed)
      rw [h, hn] at hs
      exact absurd rfl hs
  | reset => cases hf

/-- Everything that is sent fits, apart from documents of others. -/
theorem Utters.fits {p : Payload} (hp : m.Utters k p) (hk : k.DrawsNonce) :
    p.Fits ∨ p = .metadata ⟨m.config.selfDescription⟩ ∨
      ∃ ch r, (m.perform k).Quotes ch r ∧ p = .response r := by
  cases hp with
  | hello => exact .inl (Nat.le_trans (Hello.length_encode_le _) (by decide))
  | @challenge now nonce service e h =>
    subst h
    have hl : nonce.length = 32 := hk
    have hc := (m.ownChallenge nonce).length_encode_le
    refine .inl (Nat.le_trans hc ?_)
    show 300 + 2 * nonce.length ≤ FrameHeader.maxPayload
    rw [hl]
    decide
  | passed => exact .inl (by decide)
  | response h => exact .inr (.inr ⟨_, _, h, rfl⟩)
  | description => exact .inr (.inl rfl)

end Machine

open Machine

/-- **The only frames that cannot be sent** while the handshake goes on carry a self-description
that is too long, or a response of which the nonce of the peer or the evidence of the service is too
long. -/
theorem unsendable_frames (c : Config) (cs : List Command) (hn : ∀ k ∈ cs, k.DrawsNonce) :
    ∀ x ∈ (ofConfig c).log cs, x.after.state ≠ .failed → ∀ f, .send f ∈ x.actions →
      (∃ b, f.encode = .ok b) ∨
        ∃ (p : Payload) (h : FrameHeader), f = p.toFrame h ∧ ¬ p.Fits ∧
          (p = .metadata ⟨c.selfDescription⟩ ∨ ∃ ch r, x.Quotes ch r ∧ p = .response r) := by
  intro x hx hs f hf
  obtain ⟨m, k, hk, rfl, -, rfl⟩ := exists_of_mem_log hx
  obtain ⟨p, h, hp, rfl⟩ := perform_utters hs hf
  by_cases hfit : p.Fits
  · rw [p.encode_toFrame, if_pos hfit]
    exact .inl ⟨_, rfl⟩
  · have hrest := (hp.fits (hn k hk)).resolve_left hfit
    exact .inr ⟨p, h, rfl, hfit, hrest⟩

/-- A nonce as it is drawn. -/
def plainNonce : Bytes := List.replicate Coordinator.nonceLength 0

/-- An initiator opens the handshake, shows evidence and is told that it has passed. -/
def plainOffer : List Command :=
  [.start 0, .feed 1 plainNonce plainService ⟨[], .challenge ⟨[5], .advanced, .single 0⟩, none⟩,
    .feed 2 plainNonce plainService ⟨[], .result ⟨.pass, none⟩, none⟩]

/-- An initiator that does not attest its peer, with a self-description of one letter repeated. -/
def wordyConfig (n : Nat) : Config :=
  { Config.default with
    role := .initiator
    selfDescription := String.ofList (List.replicate n 'x') }

theorem drawsNonce_of_mem_plainOffer : ∀ k ∈ plainOffer, k.DrawsNonce := by
  intro k hk
  simp only [plainOffer, List.mem_cons, List.not_mem_nil, or_false] at hk
  rcases hk with rfl | rfl | rfl <;> trivial

/-- It goes on with its self-description, however long that is. -/
theorem wordyConfig_offers (n : Nat) :
    ∃ x ∈ (ofConfig (wordyConfig n)).log plainOffer, x.after.state = .metadata ∧
      ∃ h, .send ((Payload.metadata ⟨(wordyConfig n).selfDescription⟩).toFrame h) ∈ x.actions :=
  ⟨_, .tail _ (.tail _ (.head _)), rfl, .ofType .metadata 2, .head _⟩

theorem length_encode_wordyConfig (n : Nat) :
    (Payload.metadata ⟨(wordyConfig n).selfDescription⟩).encode.length =
      10 + Cbor.Head.argumentWidth n + n := by
  have hx : (Text.Utf8.encodeChar 'x').length = 1 := by decide
  have hd : (Text.Utf8.encode (wordyConfig n).selfDescription).length = n := by
    rw [wordyConfig, Text.Utf8.length_encode_replicate, hx, Nat.mul_one]
  rw [Payload.encode, SelfDescription.length_encode, hd]

/-- A self-description of one mebibyte and one octet does not fit, and the frame that cannot be sent
is that of the self-description. -/
theorem plainOffer_unsendable :
    ∃ x ∈ (ofConfig (wordyConfig 1048577)).log plainOffer, ∃ f, .send f ∈ x.actions ∧
      (¬ ∃ b, f.encode = .ok b) ∧
        ∃ (p : Payload) (h : FrameHeader), f = p.toFrame h ∧ ¬ p.Fits ∧
          (p = .metadata ⟨(wordyConfig 1048577).selfDescription⟩ ∨
            ∃ ch r, x.Quotes ch r ∧ p = .response r) := by
  obtain ⟨x, hx, hs, h, hf⟩ := wordyConfig_offers 1048577
  have hs : x.after.state ≠ .failed := by simp [hs]
  have hfit : ¬ (Payload.metadata ⟨(wordyConfig 1048577).selfDescription⟩).Fits := by
    rw [Payload.Fits, length_encode_wordyConfig]
    decide
  have hno : ¬ ∃ b, ((Payload.metadata ⟨(wordyConfig 1048577).selfDescription⟩).toFrame h).encode =
      .ok b := by
    rw [Payload.encode_toFrame, if_neg hfit]
    simp
  have hcases := unsendable_frames (wordyConfig 1048577) plainOffer drawsNonce_of_mem_plainOffer x
    hx hs _ hf
  exact ⟨x, hx, _, hf, hno, hcases.resolve_left hno⟩

/-- Not every frame of a machine that goes on can be sent. -/
theorem committed_frame_is_dropped :
    ¬ ∀ (c : Config) (cs : List Command), (∀ k ∈ cs, k.DrawsNonce) →
      ∀ x ∈ (ofConfig c).log cs, x.after.state ≠ .failed → ∀ f, .send f ∈ x.actions →
        ∃ b, f.encode = .ok b := by
  intro h
  obtain ⟨x, hx, hs, k, hf⟩ := wordyConfig_offers 1048577
  obtain ⟨b, hb⟩ := h _ plainOffer drawsNonce_of_mem_plainOffer x hx (by simp [hs]) _ hf
  rw [Payload.encode_toFrame, if_neg] at hb
  · cases hb
  · rw [Payload.Fits, length_encode_wordyConfig]
    decide

end AttestedChannel
