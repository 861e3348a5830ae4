import SpanCourier.Dict
import SpanCourier.Wire.Time

/-!
# the messages of the v2 API

Spans come in one flat list.  A span is named by a resource path, keeps its identifiers as text, and
carries typed attributes and timed annotations; texts that were cut say by how much.
-/

namespace SpanCourier.V2

open Wire

/-- a text that may have been cut, with the number of bytes cut off -/
structure TruncatableString where
  value : String := ""
  truncatedByteCount : Int32 := 0
  deriving DecidableEq, Inhabited

inductive AttributeValue where
  | text (value : TruncatableString)
  | int (value : Int64)
  | bool (value : Bool)
  deriving DecidableEq, Inhabited

structure Attributes where
  /-- an attribute may lack a value -/
  map : Dict (Option AttributeValue) := ∅
  dropped : Int32 := 0
  deriving DecidableEq, Inhabited

structure Note where
  description : Option TruncatableString := none
  attributes : Option Attributes := none
  deriving DecidableEq, Inhabited

structure TimeEvent where
  time : Option Timestamp := none
  annotation : Option Note := none
  deriving DecidableEq, Inhabited

structure TimeEvents where
  events : List TimeEvent := []
  droppedAnnotations : Int32 := 0
  droppedMessageEvents : Int32 := 0
  deriving DecidableEq, Inhabited

inductive SpanKind where
  | unspecified
  | internal
  | server
  | client
  | producer
  | consumer
  deriving DecidableEq, Inhabited

namespace SpanKind

def number : SpanKind → Int32
  | .unspecified => 0
  | .internal => 1
  | .server => 2
  | .client => 3
  | .producer => 4
  | .consumer => 5

def name : SpanKind → String
  | .unspecified => "SPAN_KIND_UNSPECIFIED"
  | .internal => "INTERNAL"
  | .server => "SERVER"
  | .client => "CLIENT"
  | .producer => "PRODUCER"
  | .consumer => "CONSUMER"

def all : List SpanKind := [.unspecified, .internal, .server, .client, .producer, .consumer]

def ofNumber? (n : Int32) : Option SpanKind := all.find? (·.number == n)

def ofName? (s : String) : Option SpanKind := all.find? (·.name == s)

theorem ofNumber?_number (k : SpanKind) : ofNumber? k.number = some k := by cases k <;> decide

theorem ofName?_name (k : SpanKind) : ofName? k.name = some k := by cases k <;> decide

end SpanKind

structure TraceSpan where
  name : String := ""
  spanId : String := ""
  parentSpanId : String := ""
  displayName : Option TruncatableString := none
  startTime : Option Timestamp := none
  endTime : Option Timestamp := none
  attributes : Option Attributes := none
  timeEvents : Option TimeEvents := none
  spanKind : Int32 := 0
  deriving DecidableEq, Inhabited

structure BatchWriteSpansRequest where
  name : String := ""
  spans : List TraceSpan := []
  deriving DecidableEq, Inhabited

instance : Message TruncatableString where
  blank := {}
  entry _ := false
  records s := textField 1 s.value ++ int32Field 2 s.truncatedByteCount
  size s := textSize 1 s.value + int32Size 2 s.truncatedByteCount
  merge _ s r := match r.tag with
    | 1 => r.payload.text?.map fun v => { s with value := v }
    | 2 => r.payload.int32?.map fun v => { s with truncatedByteCount := v }
    | _ => some s

def ofBool (b : Bool) : UInt64 := if b then 1 else 0

/-- a value of one of three kinds, of which the last one to come stays; a text that follows a text is
merged into it -/
instance : Message (Option AttributeValue) where
  blank := none
  entry _ := false
  records
    | none => []
    | some (.text s) => [nested 1 s]
    | some (.int v) => [⟨2, .varint (ofInt64 v)⟩]
    | some (.bool b) => [⟨3, .varint (ofBool b)⟩]
  size
    | none => 0
    | some (.text s) => nestedSize 1 s
    | some (.int v) => keySize 2 + varintSize (ofInt64 v).toNat
    | some (.bool b) => keySize 3 + varintSize (ofBool b).toNat
  merge depth v r := match r.tag with
    | 1 =>
      let before := match v with
        | some (.text s) => some s
        | _ => none
      (r.payload.intoOption? depth before).map fun s => some (.text s)
    | 2 => r.payload.int64?.map fun v => some (.int v)
    | 3 => r.payload.bool?.map fun b => some (.bool b)
    | _ => some v

instance : EntryValue (Option AttributeValue) where
  blank := none
  records v := if v = none then [] else [nested 2 v]
  size v := if v = none then 0 else nestedSize 2 v
  merge depth v p := p.into? depth v

def attributeEntries (map : Dict (Option AttributeValue)) : List (Entry (Option AttributeValue)) :=
  map.entries.map fun (k, v) => ⟨k, v⟩

instance : Message Attributes where
  blank := {}
  entry tag := tag == 1
  records a := repeatedField 1 (attributeEntries a.map) ++ int32Field 2 a.dropped
  size a := repeatedSize 1 (attributeEntries a.map) + int32Size 2 a.dropped
  merge depth a r := match r.tag with
    | 1 => (r.payload.message? depth : Option (Entry (Option AttributeValue))).map fun e =>
        { a with map := a.map.insert e.key e.value }
    | 2 => r.payload.int32?.map fun v => { a with dropped := v }
    | _ => some a

instance : Message Note where
  blank := {}
  entry _ := false
  records n := optionalField 1 n.description ++ optionalField 2 n.attributes
  size n := optionalSize 1 n.description + optionalSize 2 n.attributes
  merge depth n r := match r.tag with
    | 1 => (r.payload.intoOption? depth n.description).map fun v => { n with description := some v }
    | 2 => (r.payload.intoOption? depth n.attributes).map fun v => { n with attributes := some v }
    | _ => some n

instance : Message TimeEvent where
  blank := {}
  entry _ := false
  records e := optionalField 1 e.time ++ optionalField 2 e.annotation
  size e := optionalSize 1 e.time + optionalSize 2 e.annotation
  merge depth e r := match r.tag with
    | 1 => (r.payload.intoOption? depth e.time).map fun v => { e with time := some v }
    | 2 => (r.payload.intoOption? depth e.annotation).map fun v => { e with annotation := some v }
    | _ => some e

instance : Message TimeEvents where
  blank := {}
  entry _ := false
  records e :=
    repeatedField 1 e.events ++ int32Field 2 e.droppedAnnotations
      ++ int32Field 3 e.droppedMessageEvents
  size e :=
    repeatedSize 1 e.events + int32Size 2 e.droppedAnnotations + int32Size 3 e.droppedMessageEvents
  merge depth e r := match r.tag with
    | 1 => (r.payload.message? depth).map fun v => { e with events := e.events ++ [v] }
    | 2 => r.payload.int32?.map fun v => { e with droppedAnnotations := v }
    | 3 => r.payload.int32?.map fun v => { e with droppedMessageEvents := v }
    | _ => some e

instance : Message TraceSpan where
  blank := {}
  entry _ := false
  records s :=
    textField 1 s.name ++ textField 2 s.spanId ++ textField 3 s.parentSpanId
      ++ optionalField 4 s.displayName ++ optionalField 5 s.startTime ++ optionalField 6 s.endTime
      ++ optionalField 7 s.attributes ++ optionalField 9 s.timeEvents ++ int32Field 14 s.spanKind
  size s :=
    textSize 1 s.name + textSize 2 s.spanId + textSize 3 s.parentSpanId
      + optionalSize 4 s.displayName + optionalSize 5 s.startTime + optionalSize 6 s.endTime
      + optionalSize 7 s.attributes + optionalSize 9 s.timeEvents + int32Size 14 s.spanKind
  merge depth s r := match r.tag with
    | 1 => r.payload.text?.map fun v => { s with name := v }
    | 2 => r.payload.text?.map fun v => { s with spanId := v }
    | 3 => r.payload.text?.map fun v => { s with parentSpanId := v }
    | 4 => (r.payload.intoOption? depth s.displayName).map fun v => { s with displayName := some v }
    | 5 => (r.payload.intoOption? depth s.startTime).map fun v => { s with startTime := some v }
    | 6 => (r.payload.intoOption? depth s.endTime).map fun v => { s with endTime := some v }
    | 7 => (r.payload.intoOption? depth s.attributes).map fun v => { s with attributes := some v }
    | 9 => (r.payload.intoOption? depth s.timeEvents).map fun v => { s with timeEvents := some v }
    | 14 => r.payload.int32?.map fun v => { s with spanKind := v }
    | _ => some s

instance : Message BatchWriteSpansRequest where
  blank := {}
  entry _ := false
  records q := textField 1 q.name ++ repeatedField 2 q.spans
  size q := textSize 1 q.name + repeatedSize 2 q.spans
  merge depth q r := match r.tag with
    | 1 => r.payload.text?.map fun v => { q with name := v }
    | 2 => (r.payload.message? depth).map fun s => { q with spans := q.spans ++ [s] }
    | _ => some q

end SpanCourier.V2
