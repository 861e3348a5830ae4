import SpanCourier.Json.Record
import SpanCourier.Span

/-!
# spans as JSON texts

A span is written as an object of the members that it has, in a fixed order and without blanks: absent
members, empty lists and dictionaries, and `shared` when it is false are left out.  It is read as
`Shape`s are, so that the order of members is free and unknown ones are skipped.
-/

namespace SpanCourier

open Json

/-! ## reading -/

def Kind.names : List (String × Kind) :=
  [("CLIENT", .client), ("SERVER", .server), ("PRODUCER", .producer), ("CONSUMER", .consumer)]

def micros : Shape UInt64 := (Shape.nat "u64" (UInt64.size - 1)).map UInt64.ofNat

def Endpoint.record : RecordShape Endpoint where
  title := "Endpoint"
  blank := {}
  members := [
    .of "serviceName" false (.nullable .string) fun v e => { e with serviceName := v },
    .of "ipv4" false (.nullable .string) fun v e => { e with ipv4 := v },
    .of "ipv6" false (.nullable .string) fun v e => { e with ipv6 := v },
    .of "port" false (.nullable ((Shape.nat "u16" (UInt16.size - 1)).map UInt16.ofNat))
      fun v e => { e with port := v }]

def Annotation.record : RecordShape Annotation where
  title := "Annotation"
  blank := {}
  members := [
    .of "timestamp" true micros fun v a => { a with timestamp := v },
    .of "value" true .string fun v a => { a with value := v }]

def Span.record : RecordShape Span where
  title := "Span"
  blank := {}
  members := [
    .of "traceId" true .string fun v s => { s with traceId := v },
    .of "parentId" false (.nullable .string) fun v s => { s with parentId := v },
    .of "id" true .string fun v s => { s with id := v },
    .of "kind" false (.nullable (.variant Kind.names)) fun v s => { s with kind := v },
    .of "name" false (.nullable .string) fun v s => { s with name := v },
    .of "timestamp" false (.nullable micros) fun v s => { s with timestamp := v },
    .of "duration" false (.nullable micros) fun v s => { s with duration := v },
    .of "localEndpoint" false (.nullable Endpoint.record.shape)
      fun v s => { s with localEndpoint := v },
    .of "remoteEndpoint" false (.nullable Endpoint.record.shape)
      fun v s => { s with remoteEndpoint := v },
    .of "annotations" false (.list Annotation.record.shape) fun v s => { s with annotations := v },
    .of "tags" false (.dict .string) fun v s => { s with tags := v },
    .of "shared" false .bool fun v s => { s with shared := v }]

def decodeSpans (bs : Bytes) : Except Fault (List Span) := (Shape.list Span.record.shape).parse bs

/-! ## writing -/

def Kind.jsonName : Kind → String
  | .client => "CLIENT"
  | .server => "SERVER"
  | .producer => "PRODUCER"
  | .consumer => "CONSUMER"

def optionalMember {α : Type} (name : String) (f : α → Value) : Option α → List (String × Value)
  | none => []
  | some a => [(name, f a)]

def microsValue (n : UInt64) : Value := .ofNat n.toNat

def Endpoint.toValue (e : Endpoint) : Value := .object <|
  optionalMember "serviceName" .text e.serviceName
    ++ optionalMember "ipv4" .text e.ipv4
    ++ optionalMember "ipv6" .text e.ipv6
    ++ optionalMember "port" (fun p : UInt16 => .ofNat p.toNat) e.port

def Annotation.toValue (a : Annotation) : Value :=
  .object [("timestamp", microsValue a.timestamp), ("value", .text a.value)]

def tagsValue (tags : Dict String) : Value :=
  .object (tags.entries.map fun (k, v) => (k, .text v))

def Span.toValue (s : Span) : Value := .object <|
  [("traceId", .text s.traceId)]
    ++ optionalMember "parentId" .text s.parentId
    ++ [("id", .text s.id)]
    ++ optionalMember "kind" (fun k : Kind => .text k.jsonName) s.kind
    ++ optionalMember "name" .text s.name
    ++ optionalMember "timestamp" microsValue s.timestamp
    ++ optionalMember "duration" microsValue s.duration
    ++ optionalMember "localEndpoint" Endpoint.toValue s.localEndpoint
    ++ optionalMember "remoteEndpoint" Endpoint.toValue s.remoteEndpoint
    ++ (if s.annotations.isEmpty then []
        else [("annotations", .array (s.annotations.map Annotation.toValue))])
    ++ (if s.tags.isEmpty then [] else [("tags", tagsValue s.tags)])
    ++ if s.shared then [("shared", .boolean true)] else []

def Span.render (s : Span) : Bytes := s.toValue.render

def renderSpans (spans : List Span) : Bytes := (Value.array (spans.map Span.toValue)).render

theorem Kind.names_eq : Kind.names = [Kind.client, .server, .producer, .consumer].map
    fun k => (k.jsonName, k) := rfl

end SpanCourier
