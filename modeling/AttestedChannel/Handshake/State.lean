/-!
# States of the handshake

The acceptor verifies the initiator first:

```text
hello --Hello--> challengeIssued --Response--> metadata --Metadata--> complete
                       |                           ^
                       | Response, mutual          | Result
                       v                           |
                responseReceived --Challenge--> verdictPending
```

The initiator, once its Hello is out:

```text
hello --Challenge--> verdictPending --Result--> metadata --Metadata--> complete
                           |                       ^
                           | Result, mutual        | Response
                           v                       |
                           +--> challengeIssued ---+
```

Any other message, and any check that fails, leads to `failed`.
-/

namespace AttestedChannel

/-- How far a handshake has come. -/
inductive HandshakeState where
  /-- nothing has been received yet -/
  | hello
  /-- the own challenge is out -/
  | challengeIssued
  /-- the peer has passed and is going to challenge -/
  | responseReceived
  /-- the own evidence is out -/
  | verdictPending
  /-- attestation is done, descriptions are exchanged -/
  | metadata
  | complete
  | failed
deriving DecidableEq, Repr, Inhabited

namespace HandshakeState

/-- All states. -/
def all : List HandshakeState :=
  [.hello, .challengeIssued, .responseReceived, .verdictPending, .metadata, .complete, .failed]

/-- Whether the handshake is over. -/
def isTerminal : HandshakeState → Bool
  | .complete | .failed => true
  | _ => false

/-- The name of a state. -/
def name : HandshakeState → String
  | .hello => "Hello"
  | .challengeIssued => "ChallengeIssued"
  | .responseReceived => "ResponseReceived"
  | .verdictPending => "VerdictPending"
  | .metadata => "Metadata"
  | .complete => "End"
  | .failed => "Error"

end HandshakeState

end AttestedChannel
