import SpanCourier.Identifier
import SpanCourier.Label
import SpanCourier.V2.Message

/-!
# spans of the v2 API

A recorded span becomes one span of the v2 API.  It is named by the path of its project, trace and
identifier; its labels become text attributes, and its annotations timed events.  Names are cut to
128 bytes, attributes and descriptions to 256, and each says how many bytes were cut off.
-/

namespace SpanCourier.V2

def unknownName : String := "unknown"
def maxDisplayNameBytes : Nat := 128
def maxAttributeBytes : Nat := 256

def spanName (project traceId id : String) : String :=
  "projects/" ++ project ++ "/traces/" ++ (TraceId.ofText traceId).text ++ "/spans/" ++ id

def maxCount : Nat := 2147483647

def saturatedCount (n : Nat) : Int32 := Int32.ofNat (if n ≤ maxCount then n else maxCount)

/-- a text cut to a number of bytes, with the number of bytes cut off -/
def cutText (max : Nat) (s : String) : TruncatableString :=
  let kept := truncate max s
  ⟨kept, saturatedCount (s.utf8ByteSize - kept.utf8ByteSize)⟩

def kindOf : Option Kind → SpanKind
  | some .client => .client
  | some .server => .server
  | some .producer => .producer
  | some .consumer => .consumer
  | none => .unspecified

/-- where the spans of the v2 API come from: their project, the names of their labels, and what tells
the error message of a span -/
structure Rules where
  project : String
  labels : LabelRules
  errorOf : Span → Option String := fun span => span.tags.get? "error"

namespace Rules

/-- the attributes of a span in rising precedence -/
def puts (rules : Rules) (span : Span) : List (String × String) :=
  rules.labels.puts span (span.kind = some .server) false
    ++ (span.kind.toList.map fun k => (kindLabel, k.label))
    ++ (rules.errorOf span).toList.map fun e => (errorLabel, e)

def attributeMap (rules : Rules) (span : Span) : Dict (Option AttributeValue) :=
  Dict.ofEntries <|
    (rules.puts span).map fun (k, v) => (k, some (.text (cutText maxAttributeBytes v)))

def attributes (rules : Rules) (span : Span) : Option Attributes :=
  let map := rules.attributeMap span
  if map.isEmpty then none else some { map }

end Rules

def timeEvent (a : Annotation) : TimeEvent where
  time := some (.ofMicros a.timestamp)
  annotation := some { description := some (cutText maxAttributeBytes a.value) }

def timeEvents (span : Span) : Option TimeEvents :=
  if span.annotations.isEmpty then none else some { events := span.annotations.map timeEvent }

def endOf (span : Span) (start : UInt64) : UInt64 := addMicros start (span.duration?.getD 0)

def resource (rules : Rules) (span : Span) : TraceSpan where
  name := spanName rules.project span.traceId span.id
  spanId := span.id
  parentSpanId := span.parentId.getD ""
  displayName := some (cutText maxDisplayNameBytes (span.name?.getD unknownName))
  startTime := span.start?.map .ofMicros
  endTime := span.start?.map fun start => .ofMicros (endOf span start)
  attributes := rules.attributes span
  timeEvents := timeEvents span
  spanKind := (kindOf span.kind).number

end SpanCourier.V2
