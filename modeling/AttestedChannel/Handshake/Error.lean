import AttestedChannel.Duration
import AttestedChannel.Handshake.State
import AttestedChannel.Payload

/-!
# Why a handshake fails

A failure that the peer reported is not answered. Every other one is reported to the peer by
`HandshakeError.report?`, except a failed attestation of the peer, which is reported as a verdict
instead.
-/

namespace AttestedChannel

/-- The cause of a failed handshake. -/
inductive HandshakeError where
  | unexpectedMessage (state : HandshakeState) (type : MessageType)
  | unsupportedVersion (version : UInt8)
  | malformedFrame (fault : FrameFault)
  | peerError (code : ErrorCode) (message : String)
  /-- the peer did not pass -/
  | attestationFailed (reason : FailureReason)
  /-- there is no evidence to send -/
  | quoteFailed (reason : FailureReason)
  /-- the peer did not pass us -/
  | peerRejected (reason : Option String)
  | timeOut (elapsed : Duration)
  | invalidState (state : HandshakeState) (operation : String)
  /-- an own frame cannot be written -/
  | frame (fault : FrameFault)
deriving DecidableEq, Repr

namespace HandshakeError

/-- The cause in words. -/
def message : HandshakeError → String
  | .unexpectedMessage state type => "unexpected " ++ type.name ++ " in state " ++ state.name
  | .unsupportedVersion v => "unsupported handshake version: " ++ toString v.toNat
  | .malformedFrame fault => "malformed frame: " ++ fault.message
  | .peerError code message => "peer error " ++ code.name ++ ": " ++ message
  | .attestationFailed reason => "peer attestation failed: " ++ reason.name
  | .quoteFailed reason => "local attestation failed: " ++ reason.name
  | .peerRejected reason => "peer rejected our attestation: " ++ reason.getD "no reason given"
  | .timeOut elapsed => "handshake timeout after " ++ elapsed.text
  | .invalidState state operation => "cannot " ++ operation ++ " in state " ++ state.name
  | .frame fault => "codec error: " ++ fault.message

/-- Whether the peer is the one who reported the failure. -/
def isFromPeer : HandshakeError → Bool
  | .peerError .. | .peerRejected _ => true
  | _ => false

/-- The kind under which the failure is reported to the peer. -/
def code? : HandshakeError → Option ErrorCode
  | .unexpectedMessage .. | .invalidState .. | .frame _ => some .protocolViolation
  | .unsupportedVersion _ => some .unsupportedVersion
  | .malformedFrame _ => some .malformedFrame
  | .quoteFailed _ => some .attestationFailed
  | .timeOut _ => some .handshakeTimeout
  | .attestationFailed _ | .peerError .. | .peerRejected _ => none

/-- The report to the peer. -/
def report? (e : HandshakeError) : Option ErrorReport := e.code?.map fun c => ⟨c, e.message⟩

end HandshakeError

end AttestedChannel
