import SpanCourier.Dict
import SpanCourier.Wire.Time

/-!
# the messages of the v1 API

Spans are grouped into traces.  A span has 64-bit identifiers, is the client or the server side of a
call or neither, and carries text labels.
-/

namespace SpanCourier.V1

open Wire

inductive SpanKind where
  | unspecified
  | rpcServer
  | rpcClient
  deriving DecidableEq, Inhabited

namespace SpanKind

def number : SpanKind → Int32
  | .unspecified => 0
  | .rpcServer => 1
  | .rpcClient => 2

def name : SpanKind → String
  | .unspecified => "SPAN_KIND_UNSPECIFIED"
  | .rpcServer => "RPC_SERVER"
  | .rpcClient => "RPC_CLIENT"

def all : List SpanKind := [.unspecified, .rpcServer, .rpcClient]

def ofNumber? (n : Int32) : Option SpanKind := all.find? (·.number == n)

def ofName? (s : String) : Option SpanKind := all.find? (·.name == s)

theorem ofNumber?_number (k : SpanKind) : ofNumber? k.number = some k := by cases k <;> decide

theorem ofName?_name (k : SpanKind) : ofName? k.name = some k := by cases k <;> decide

end SpanKind

structure TraceSpan where
  spanId : UInt64 := 0
  /-- the number of a `SpanKind`, or one that is not known -/
  kind : Int32 := 0
  name : String := ""
  startTime : Option Timestamp := none
  endTime : Option Timestamp := none
  parentSpanId : UInt64 := 0
  labels : Dict String := ∅
  deriving DecidableEq, Inhabited

structure Trace where
  projectId : String := ""
  traceId : String := ""
  spans : List TraceSpan := []
  deriving DecidableEq, Inhabited

structure Traces where
  traces : List Trace := []
  deriving DecidableEq, Inhabited

structure PatchTracesRequest where
  projectId : String := ""
  traces : Option Traces := none
  deriving DecidableEq, Inhabited

def labelEntries (labels : Dict String) : List (Entry String) :=
  labels.entries.map fun (k, v) => ⟨k, v⟩

instance : Message TraceSpan where
  blank := {}
  entry tag := tag == 7
  records s :=
    fixed64Field 1 s.spanId ++ int32Field 2 s.kind ++ textField 3 s.name
      ++ optionalField 4 s.startTime ++ optionalField 5 s.endTime
      ++ fixed64Field 6 s.parentSpanId ++ repeatedField 7 (labelEntries s.labels)
  size s :=
    fixed64Size 1 s.spanId + int32Size 2 s.kind + textSize 3 s.name
      + optionalSize 4 s.startTime + optionalSize 5 s.endTime
      + fixed64Size 6 s.parentSpanId + repeatedSize 7 (labelEntries s.labels)
  merge depth s r := match r.tag with
    | 1 => r.payload.fixed64?.map fun v => { s with spanId := v }
    | 2 => r.payload.int32?.map fun v => { s with kind := v }
    | 3 => r.payload.text?.map fun v => { s with name := v }
    | 4 => (r.payload.intoOption? depth s.startTime).map fun v => { s with startTime := some v }
    | 5 => (r.payload.intoOption? depth s.endTime).map fun v => { s with endTime := some v }
    | 6 => r.payload.fixed64?.map fun v => { s with parentSpanId := v }
    | 7 => (r.payload.message? depth : Option (Entry String)).map fun e =>
        { s with labels := s.labels.insert e.key e.value }
    | _ => some s

instance : Message Trace where
  blank := {}
  entry _ := false
  records t := textField 1 t.projectId ++ textField 2 t.traceId ++ repeatedField 3 t.spans
  size t := textSize 1 t.projectId + textSize 2 t.traceId + repeatedSize 3 t.spans
  merge depth t r := match r.tag with
    | 1 => r.payload.text?.map fun v => { t with projectId := v }
    | 2 => r.payload.text?.map fun v => { t with traceId := v }
    | 3 => (r.payload.message? depth).map fun s => { t with spans := t.spans ++ [s] }
    | _ => some t

instance : Message Traces where
  blank := {}
  entry _ := false
  records t := repeatedField 1 t.traces
  size t := repeatedSize 1 t.traces
  merge depth t r := match r.tag with
    | 1 => (r.payload.message? depth).map fun s => { t with traces := t.traces ++ [s] }
    | _ => some t

instance : Message PatchTracesRequest where
  blank := {}
  entry _ := false
  records q := textField 2 q.projectId ++ optionalField 3 q.traces
  size q := textSize 2 q.projectId + optionalSize 3 q.traces
  merge depth q r := match r.tag with
    | 2 => r.payload.text?.map fun v => { q with projectId := v }
    | 3 => (r.payload.intoOption? depth q.traces).map fun v => { q with traces := some v }
    | _ => some q

end SpanCourier.V1
