import SpanCourier.Proofs.Wire.Lawful
import SpanCourier.V1.Message

/-!
# the messages of the v1 API are read back

Every message of the v1 API is lawful, from timestamps up to the request: its size is the number of
its bytes, and it is read back from them.
-/

namespace SpanCourier

open Wire

instance : LawfulMessage Timestamp where
  height := 0
  size_eq t := by
    simp (disch := decide) only [Message.size, encode, Message.records, length_writeRecords_append,
      length_int64Field, length_int32Field]
  shaped t := by
    simp (disch := decide) only [Message.records, shaped_append, shaped_int64Field,
      shaped_int32Field, and_self]
  merges t _ _ :=
    (merges_int64Field (fun v => (⟨v, 0⟩ : Timestamp)) (fun _ => rfl) t.seconds).append
      (merges_int32Field (fun v => (⟨t.seconds, v⟩ : Timestamp)) (fun _ => rfl) t.nanos)

namespace V1

instance : LawfulMessage TraceSpan where
  height := 1
  size_eq s := by
    simp (disch := decide) only [Message.size, encode, Message.records, length_writeRecords_append,
      length_fixed64Field, length_int32Field, length_textField, length_optionalField,
      length_repeatedField]
  shaped s := by
    simp (disch := decide) only [Message.records, shaped_append, shaped_fixed64Field,
      shaped_int32Field, shaped_textField, shaped_optionalField, shaped_repeatedField, and_self]
  merges s depth hd :=
    (merges_fixed64Field (fun v => ({ spanId := v } : TraceSpan)) (fun _ => rfl) s.spanId).append
      (merges_int32Field (fun v => ({ spanId := s.spanId, kind := v } : TraceSpan))
        (fun _ => rfl) s.kind)
    |>.append (merges_textField (fun v =>
        ({ spanId := s.spanId, kind := s.kind, name := v } : TraceSpan)) (fun _ => rfl) s.name)
    |>.append (merges_optionalField hd (fun v =>
        ({ s with startTime := v, endTime := none, parentSpanId := 0, labels := ∅ } : TraceSpan))
        (fun _ => rfl) s.startTime)
    |>.append (merges_optionalField hd (fun v =>
        ({ s with endTime := v, parentSpanId := 0, labels := ∅ } : TraceSpan))
        (fun _ => rfl) s.endTime)
    |>.append (merges_fixed64Field (fun v =>
        ({ s with parentSpanId := v, labels := ∅ } : TraceSpan)) (fun _ => rfl) s.parentSpanId)
    |>.append (merges_dict hd (fun v => ({ s with labels := v } : TraceSpan))
        (fun _ _ => rfl) s.labels)

instance : LawfulMessage Trace where
  height := 2
  size_eq t := by
    simp (disch := decide) only [Message.size, encode, Message.records, length_writeRecords_append,
      length_textField, length_repeatedField]
  shaped t := by
    simp (disch := decide) only [Message.records, shaped_append, shaped_textField,
      shaped_repeatedField, and_self]
  merges t depth hd :=
    (merges_textField (fun v => (⟨v, "", []⟩ : Trace)) (fun _ => rfl) t.projectId).append
      (merges_textField (fun v => (⟨t.projectId, v, []⟩ : Trace)) (fun _ => rfl) t.traceId)
    |>.append (merges_repeatedField hd (fun v => (⟨t.projectId, t.traceId, v⟩ : Trace))
        (fun _ _ => rfl) [] t.spans)

instance : LawfulMessage Traces where
  height := 3
  size_eq t := by
    simp (disch := decide) only [Message.size, encode, Message.records, length_repeatedField]
  shaped t := by
    simp (disch := decide) only [Message.records, shaped_repeatedField]
  merges t depth hd :=
    merges_repeatedField hd (fun v => (⟨v⟩ : Traces)) (fun _ _ => rfl) [] t.traces

instance : LawfulMessage PatchTracesRequest where
  height := 4
  size_eq q := by
    simp (disch := decide) only [Message.size, encode, Message.records, length_writeRecords_append,
      length_textField, length_optionalField]
  shaped q := by
    simp (disch := decide) only [Message.records, shaped_append, shaped_textField,
      shaped_optionalField, and_self]
  merges q depth hd :=
    (merges_textField (fun v => (⟨v, none⟩ : PatchTracesRequest)) (fun _ => rfl) q.projectId).append
      (merges_optionalField hd (fun v => (⟨q.projectId, v⟩ : PatchTracesRequest)) (fun _ => rfl)
        q.traces)

end V1

end SpanCourier
