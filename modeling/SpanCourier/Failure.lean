import SpanCourier.Status

/-!
# what can go wrong

`SendError` holds the causes for which a batch is not delivered, `ConfigError` those for which no
sender can be made.
-/

namespace SpanCourier

inductive SendError where
  /-- the sender was closed before the call or while it was under way -/
  | closed
  | cancelled
  | messageTooLarge (size max : Nat)
  | shortBuffer (index length : Nat)
  | rpc (status : Status)
  /-- the callback of an enqueued batch failed, after the batch was done with -/
  | callback (message : String)
  | runtime (message : String)
  deriving DecidableEq, Inhabited

namespace SendError

def message : SendError → String
  | .closed => "sender is closed"
  | .cancelled => "send was cancelled"
  | .messageTooLarge size max =>
    "message of " ++ toString size ++ " bytes exceeds the maximum of " ++ toString max ++ " bytes"
  | .shortBuffer index length =>
    "buffer " ++ toString index ++ " of " ++ toString length
      ++ " bytes is shorter than its trace id prefix"
  | .rpc status => "rpc failed: " ++ status.text
  | .callback text => "callback panicked: " ++ text
  | .runtime text => "runtime error: " ++ text

end SendError

inductive ConfigError where
  | missingProjectId
  /-- the v1 API takes full trace identifiers only -/
  | strictTraceIdRequired
  | invalidUri (host reason : String)
  | transport (message : String)
  | noRuntime
  | invalidEnv (name value : String)
  deriving DecidableEq, Inhabited

def ConfigError.message : ConfigError → String
  | .missingProjectId => "project id is required"
  | .strictTraceIdRequired => "strict trace ids are required by the v1 api"
  | .invalidUri host reason => "invalid api host " ++ host ++ ": " ++ reason
  | .transport text => "transport setup failed: " ++ text
  | .noRuntime => "no tokio runtime available"
  | .invalidEnv name value => "invalid value for " ++ name ++ ": " ++ value

end SpanCourier
