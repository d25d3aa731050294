/-!
# Failures of the server

The query interface fails with a `RemoteError`, the command channel with a `ChannelError`.
-/

namespace OpsContent

/-- Failures of the query interface. -/
inductive RemoteError where
  /-- The request could not be sent or the answer did not arrive. -/
  | transport (url message : String)
  /-- The server answered that it refuses. -/
  | status (method url : String) (code : Nat) (body : String)
  /-- The answer could not be read. -/
  | decode (url message : String)
  /-- What should be sent is unusable. -/
  | invalidPayload (message : String)
  deriving DecidableEq

/-- The words for an error of the query interface. -/
def RemoteError.message : RemoteError → String
  | .transport url message => "Request to " ++ url ++ " failed: " ++ message
  | .status method url code body =>
    method ++ " " ++ url ++ " returned HTTP " ++ toString code ++ ": " ++ body
  | .decode url message => "Unexpected response from " ++ url ++ ": " ++ message
  | .invalidPayload message => "Invalid payload: " ++ message

/-- An operation of the channel that failed, and why. -/
structure ChannelError where
  operation : String
  cause : String
  deriving DecidableEq

/-- The words for an error of the channel. -/
def ChannelError.message (error : ChannelError) : String :=
  error.operation ++ " failed: " ++ error.cause

end OpsContent
