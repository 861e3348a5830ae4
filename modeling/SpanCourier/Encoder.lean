import SpanCourier.ApiVersion
import SpanCourier.V1.Fragment
import SpanCourier.V2.Resource

/-!
# buffers of encoded spans

An encoded span travels in a buffer: the 32 digits of its trace identifier, then the bytes of the
span.  So spans can be grouped by trace without decoding them.

* `splitBuffer?_append`   a buffer is split where its trace identifier ends.
-/

namespace SpanCourier

open Wire

inductive Encoder where
  | v1 (labels : LabelRules)
  | v2 (rules : V2.Rules)

namespace Encoder

def ofVersion (version : ApiVersion) (project : String) (labels : LabelRules) : Encoder :=
  match version with
  | .v1 => .v1 labels
  | .v2 => .v2 { project, labels }

def version : Encoder → ApiVersion
  | .v1 _ => .v1
  | .v2 _ => .v2

def messages (e : Encoder) (span : Span) : List Bytes :=
  match e with
  | .v1 labels => (V1.fragments labels span).map encode
  | .v2 rules => [encode (V2.resource rules span)]

def buffers (e : Encoder) (span : Span) : List Bytes :=
  (e.messages span).map ((TraceId.ofText span.traceId).digits ++ ·)

def encodeAll (e : Encoder) (spans : List Span) : List Bytes := spans.flatMap e.buffers

/-- the number of bytes of the buffers of a span, counted without writing them -/
def size (e : Encoder) (span : Span) : Nat :=
  match e with
  | .v1 labels => total (fun s => traceIdLength + Message.size s) (V1.fragments labels span)
  | .v2 rules => traceIdLength + Message.size (V2.resource rules span)

end Encoder

/-- the trace identifier of a buffer, or all of a buffer that is too short to hold one -/
def bufferTrace (buf : Bytes) : Bytes := buf.take traceIdLength

def bufferSpan (buf : Bytes) : Bytes := buf.drop traceIdLength

def isShort (buf : Bytes) : Bool := buf.length < traceIdLength

/-- the trace identifier and the encoded span of a buffer that is long enough -/
def splitBuffer? (buf : Bytes) : Option (Bytes × Bytes) :=
  if isShort buf then none else some (bufferTrace buf, bufferSpan buf)

theorem splitBuffer?_append {id : Bytes} (span : Bytes) (h : id.length = traceIdLength) :
    splitBuffer? (id ++ span) = some (id, span) := by
  have hlen : isShort (id ++ span) = false := by
    simp [isShort, h]
  rw [splitBuffer?, hlen, bufferTrace, bufferSpan, List.take_left' h, List.drop_left' h]
  rfl

end SpanCourier
