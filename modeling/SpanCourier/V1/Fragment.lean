import SpanCourier.Identifier
import SpanCourier.Label
import SpanCourier.V1.Message

/-!
# spans of the v1 API

The v1 API knows no span that two hosts recorded: a span is one side of a call.  A recorded span that
shows both sides is therefore split into a client and a server fragment.  The client fragment gets an
identifier of its own, made from that of the recorded span (`SpanId.clientHalf`), and the server
fragment names it as its parent; a host that recorded only the server side computes the same
identifier from its own span.

* `sides`       which fragments a span has;
* `ids`         their identifiers and those of their parents;
* `interval?`   their start and end;
* `fragments`   the spans of the destination.
-/

namespace SpanCourier.V1

/-- what part of a call a fragment covers -/
inductive Side where
  | client
  /-- the server side, recorded by the host that owns the span -/
  | server
  /-- the server side of a span whose client side another host recorded under the same identifier -/
  | sharedServer
  /-- the server side of a span that shows both sides -/
  | splitServer
  | other
  deriving DecidableEq, Inhabited

namespace Side

def kind : Side → SpanKind
  | .client => .rpcClient
  | .server | .sharedServer | .splitServer => .rpcServer
  | .other => .unspecified

def isServer : Side → Bool
  | .server | .sharedServer | .splitServer => true
  | .client | .other => false

end Side

/-- the server side of a span of one host: a host that did not record the start does not own it -/
def serverSide (span : Span) : Side :=
  if span.shared || span.start?.isNone then .sharedServer else .server

/-- the fragments of a span: its kind tells, or else the annotations of the two sides -/
def sides (span : Span) : List Side :=
  match span.kind with
  | some .client => [.client]
  | some .server => [serverSide span]
  | some .producer | some .consumer => [.other]
  | none =>
    let client := span.isAnnotatedWith clientSend || span.isAnnotatedWith clientReceive
    let server := span.isAnnotatedWith serverReceive || span.isAnnotatedWith serverSend
    match client, server with
    | true, true => [.client, .splitServer]
    | true, false => [.client]
    | false, true => [serverSide span]
    | false, false => [.other]

def ids (span : Span) (side : Side) : SpanId × SpanId :=
  let id := SpanId.ofText span.id
  let parent := (span.parentId.map SpanId.ofText).getD 0
  match side with
  | .client => (id.clientHalf, parent)
  | .sharedServer | .splitServer => (id, id.clientHalf)
  | .server => (id, parent.clientHalf)
  | .other => (id, parent)

/-! ## start and end -/

def between? (span : Span) (first last : String) : Option (UInt64 × UInt64) :=
  match span.timeOf? first, span.timeOf? last with
  | some a, some b => some (a, b)
  | _, _ => none

def recorded? (span : Span) : Option (UInt64 × UInt64) :=
  match span.start?, span.duration? with
  | some start, some duration => some (start, addMicros start duration)
  | _, _ => none

/-- start and end of a fragment, from the first source that has both; the server half of a split span
only has its own annotations -/
def interval? (span : Span) : Side → Option (UInt64 × UInt64)
  | .splitServer => between? span serverReceive serverSend
  | _ =>
    (recorded? span).or <|
    (between? span clientSend clientReceive).or <|
    (between? span serverReceive serverSend).or <|
    span.start?.map fun start => (start, start)

/-! ## the spans of the destination -/

def fragment (rules : LabelRules) (span : Span) (side : Side) : TraceSpan where
  spanId := (ids span side).1
  kind := side.kind.number
  name := span.name.getD ""
  startTime := (interval? span side).map fun i => .ofMicros i.1
  endTime := (interval? span side).map fun i => .ofMicros i.2
  parentSpanId := (ids span side).2
  labels := rules.labels span side.isServer

/-- the one or two spans of the destination, the client before the server -/
def fragments (rules : LabelRules) (span : Span) : List TraceSpan :=
  (sides span).map (fragment rules span)

end SpanCourier.V1
