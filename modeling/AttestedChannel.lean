import AttestedChannel.Attestation.Daemon
import AttestedChannel.Simulation.Bench
import AttestedChannel.Simulation.Environment
import AttestedChannel.Simulation.Network
import AttestedChannel.Simulation.Scenario
import AttestedChannel.Simulation.Verifier
import AttestedChannel.Proofs.Handshake.Run
import AttestedChannel.Proofs.Attestation.Judging
import AttestedChannel.Proofs.Handshake.Trust
import AttestedChannel.Proofs.Cbor.Items
import AttestedChannel.Proofs.Cbor.Records
import AttestedChannel.Proofs.Dialogue.Agreement
import AttestedChannel.Proofs.Dialogue.Convergence
import AttestedChannel.Proofs.Attestation.Freshness
import AttestedChannel.Proofs.Handshake.Coherence
import AttestedChannel.Proofs.Handshake.Disclosure
import AttestedChannel.Proofs.Cbor.Brevity
import AttestedChannel.Proofs.Handshake.Sendable
import AttestedChannel.Proofs.Payload.Brevity
import AttestedChannel.Proofs.Handshake.Failing
import AttestedChannel.Proofs.Handshake.Restart
import AttestedChannel.Proofs.Session.Roster
import AttestedChannel.Proofs.Attestation.Evidence
import AttestedChannel.Proofs.Simulation.Attesting
import AttestedChannel.Proofs.Handshake.Standing
import AttestedChannel.Proofs.Simulation.Course
import AttestedChannel.Proofs.Simulation.Pairing
import AttestedChannel.Proofs.Simulation.Outcome
import AttestedChannel.Proofs.Frame.Format
import AttestedChannel.Proofs.Handshake.Table
import AttestedChannel.Proofs.Handshake.Record
import AttestedChannel.Proofs.Dialogue.Courtesy
import AttestedChannel.Proofs.Cbor.Skipping
import AttestedChannel.Proofs.Attestation.Exchange
import AttestedChannel.Proofs.Payload.Kinds
import AttestedChannel.Proofs.Session.Delivery
import AttestedChannel.Proofs.Session.Isolation
import AttestedChannel.Proofs.Session.Framing
import AttestedChannel.Proofs.Attestation.Deciding
import AttestedChannel.Proofs.Handshake.Requests
import AttestedChannel.Proofs.Handshake.Deadline
import AttestedChannel.Proofs.Handshake.Redelivery
import AttestedChannel.Proofs.Handshake.Numbering
import AttestedChannel.Proofs.Session.Misaddressed
import AttestedChannel.Proofs.Handshake.Events
import AttestedChannel.Proofs.Cbor.Duplicates
import AttestedChannel.Proofs.Config.RoundTrip
import AttestedChannel.Proofs.Simulation.Twins
import AttestedChannel.Proofs.Simulation.Randomness
import AttestedChannel.Proofs.Attestation.Indices
import AttestedChannel.Proofs.Attestation.Wrapping
import AttestedChannel.Proofs.Handshake.Pending
import AttestedChannel.Proofs.Simulation.Corruption
