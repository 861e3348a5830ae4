import SpanCourier.Channel.Metadata
import SpanCourier.Channel.ServerName
import SpanCourier.Settings

/-!
# the channel to a host

A channel is set up without connecting; what its address lacks shows at once.  A call passes the time
limit, then the interceptor, then the channel itself, which is gone once it is shut down.

* `Channel.open`       the channel to an address;
* `Channel.refusal?`   why a call is refused before it reaches the network;
* `SenderOptions.open` what a sender is made of.
-/

namespace SpanCourier

structure Channel where
  address : Address
  timeoutMillis : Option UInt64 := none
  interceptor : Option Interceptor := none
  isShutDown : Bool := false
  deriving DecidableEq, Inhabited

def shutDownStatus : Status := ⟨.unavailable, "transport is shut down"⟩

namespace Channel

def «open» (apiHost : String) (timeoutMillis : Option UInt64) (interceptor : Option Interceptor) :
    Except ConfigError Channel :=
  match Address.parse (utf8 apiHost) with
  | .error f => .error (.invalidUri apiHost f.message)
  | .ok address =>
    if address.scheme = some .https ∧ !ServerName.isValid address.host then
      .error (.transport "transport error")
    else .ok { address, timeoutMillis, interceptor }

def shutDown (c : Channel) : Channel := { c with isShutDown := true }

/-- the status with which a call is refused before it reaches the network, if it is -/
def refusal? (c : Channel) : Option Status :=
  (c.interceptor.bind (·.refusal? c.timeoutMillis)).or
    (if c.isShutDown then some shutDownStatus else none)

end Channel

structure SenderOptions where
  projectId : Option String := none
  apiHost : String := defaultApiHost
  apiVersion : ApiVersion := .v2
  messageMaxBytes : UInt64 := defaultMessageMaxBytes
  strictTraceId : Bool := true
  callTimeoutMillis : Option UInt64 := none
  interceptor : Option Interceptor := none
  healthCheckSeconds : UInt64 := defaultHealthCheckSeconds
  deriving DecidableEq, Inhabited

def Settings.senderOptions (s : Settings) : SenderOptions where
  projectId := s.projectId
  apiHost := s.apiHost
  apiVersion := s.apiVersion
  messageMaxBytes := s.messageMaxBytes
  strictTraceId := s.strictTraceId
  callTimeoutMillis := s.callTimeoutMillis
  healthCheckSeconds := s.healthCheckSeconds

structure SenderSettings where
  apiVersion : ApiVersion
  projectId : String
  messageMaxBytes : UInt64
  /-- how many milliseconds the result of a health check is used again -/
  healthWindowMillis : Nat
  deriving DecidableEq, Inhabited

namespace SenderOptions

/-- the settings of a sender over some transport; it needs a runtime to run its calls on -/
def resolve (o : SenderOptions) (hasRuntime : Bool) : Except ConfigError SenderSettings :=
  match checkProject o.projectId o.apiVersion o.strictTraceId with
  | .error e => .error e
  | .ok _ =>
    if hasRuntime then
      .ok ⟨o.apiVersion, o.projectId.getD "", o.messageMaxBytes, o.healthCheckSeconds.toNat * 1000⟩
    else .error .noRuntime

def «open» (o : SenderOptions) (hasRuntime : Bool) :
    Except ConfigError (SenderSettings × Channel) :=
  match o.resolve hasRuntime with
  | .error e => .error e
  | .ok settings => match Channel.open o.apiHost o.callTimeoutMillis o.interceptor with
    | .error e => .error e
    | .ok channel => .ok (settings, channel)

end SenderOptions

def Settings.open (s : Settings) (hasRuntime : Bool) :
    Except ConfigError (Encoder × SenderSettings × Channel) :=
  match s.encoder with
  | .error e => .error e
  | .ok encoder => match s.senderOptions.open hasRuntime with
    | .error e => .error e
    | .ok (settings, channel) => .ok (encoder, settings, channel)

end SpanCourier
