import LiveAudit.Run

/-!
# Failures

What can go wrong while watching, with the text shown for it. None of these ends a session; they
become notices. A failure is retryable if the same action may succeed when tried again.
-/

namespace LiveAudit

inductive Failure where
  /-- The request did not complete, or its answer could not be read. -/
  | transport (detail : String)
  /-- The server answered with a status that is no success. -/
  | rejected (status : Nat) (message : String)
  | alreadyRunning (repo : Ident)
  /-- A pushed event whose payload does not match its type. -/
  | malformedEvent (kind : String) (detail : String)
deriving DecidableEq, Repr

namespace Failure

def message : Failure → String
  | .transport detail => "request failed: " ++ detail
  | .rejected status message =>
    "server rejected request (" ++ toString status ++ "): " ++ message
  | .alreadyRunning repo => "sync already running for repo " ++ repo
  | .malformedEvent kind detail => "malformed `" ++ kind ++ "` event: " ++ detail

def isRetryable : Failure → Bool
  | .transport _ => true
  | .rejected status _ => status = 429 ∨ 500 ≤ status
  | .alreadyRunning _ => true
  | .malformedEvent _ _ => false

end Failure

end LiveAudit
