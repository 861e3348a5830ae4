import SpanCourier.Wire.Message
import SpanCourier.Time.Timestamp

/-!
# timestamps on the wire

A timestamp is the message of its seconds (field 1) and nanoseconds (field 2); neither is brought
into range when it is read.
-/

namespace SpanCourier

open Wire

instance : Message Timestamp where
  blank := ⟨0, 0⟩
  entry _ := false
  records t := int64Field 1 t.seconds ++ int32Field 2 t.nanos
  size t := int64Size 1 t.seconds + int32Size 2 t.nanos
  merge _ t r := match r.tag with
    | 1 => r.payload.int64?.map fun v => { t with seconds := v }
    | 2 => r.payload.int32?.map fun v => { t with nanos := v }
    | _ => some t

end SpanCourier
