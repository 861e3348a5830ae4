import SpanCourier.Dict

/-!
# spans as they are recorded

A `Span` is one timed operation of a trace as Zipkin records it: who recorded it and in which role,
when it started and how long it took, what happened during it, and free tags.  Times are in
microseconds; a zero start or duration counts as an absent one.
-/

namespace SpanCourier

/-- the role of the recording host in a call or an exchange of messages -/
inductive Kind where
  | client
  | server
  | producer
  | consumer
  deriving DecidableEq, Inhabited

def Kind.label : Kind → String
  | .client => "client"
  | .server => "server"
  | .producer => "producer"
  | .consumer => "consumer"

structure Endpoint where
  serviceName : Option String := none
  ipv4 : Option String := none
  ipv6 : Option String := none
  port : Option UInt16 := none
  deriving DecidableEq, Inhabited

structure Annotation where
  timestamp : UInt64 := 0
  value : String := ""
  deriving DecidableEq, Inhabited

structure Span where
  traceId : String := ""
  parentId : Option String := none
  id : String := ""
  kind : Option Kind := none
  name : Option String := none
  timestamp : Option UInt64 := none
  duration : Option UInt64 := none
  localEndpoint : Option Endpoint := none
  remoteEndpoint : Option Endpoint := none
  annotations : List Annotation := []
  tags : Dict String := ∅
  shared : Bool := false
  deriving DecidableEq, Inhabited

/-! ## annotations that mark the two sides of a call -/

/-- the client sent its request -/
def clientSend : String := "cs"
/-- the client received the answer -/
def clientReceive : String := "cr"
/-- the server received the request -/
def serverReceive : String := "sr"
/-- the server sent its answer -/
def serverSend : String := "ss"

namespace Span

def isRoot (s : Span) : Bool := s.parentId.isNone

/-- the start of the span, if it has one that is not zero -/
def start? (s : Span) : Option UInt64 := s.timestamp.filter (· ≠ 0)

def duration? (s : Span) : Option UInt64 := s.duration.filter (· ≠ 0)

/-- the time of the first annotation with a value -/
def timeOf? (s : Span) (value : String) : Option UInt64 :=
  (s.annotations.find? (·.value == value)).map (·.timestamp)

def isAnnotatedWith (s : Span) (value : String) : Bool := s.annotations.any (·.value == value)

/-- the service that recorded the span, if it has a name that is not empty -/
def service? (s : Span) : Option String :=
  (s.localEndpoint.bind (·.serviceName)).filter (· ≠ "")

def name? (s : Span) : Option String := s.name.filter (· ≠ "")

theorem isAnnotatedWith_iff (s : Span) (value : String) :
    s.isAnnotatedWith value = (s.timeOf? value).isSome := by
  rw [Bool.eq_iff_iff]
  simp [isAnnotatedWith, timeOf?]

end Span

end SpanCourier
