import SpanCourier.Proofs.V1.Lawful
import SpanCourier.V2.Message

/-!
# the messages of the v2 API are read back

Every message of the v2 API is lawful, from texts that were cut up to the request.  An attribute is
one of three kinds of value or none; its kind is the tag of its only record.
-/

namespace SpanCourier.V2

open Wire

instance : LawfulMessage TruncatableString where
  height := 0
  size_eq s := by
    simp (disch := decide) only [Message.size, encode, Message.records, length_writeRecords_append,
      length_textField, length_int32Field]
  shaped s := by
    simp (disch := decide) only [Message.records, shaped_append, shaped_textField,
      shaped_int32Field, and_self]
  merges s _ _ :=
    (merges_textField (fun v => (⟨v, 0⟩ : TruncatableString)) (fun _ => rfl) s.value).append
      (merges_int32Field (fun v => (⟨s.value, v⟩ : TruncatableString)) (fun _ => rfl)
        s.truncatedByteCount)

theorem bool?_ofBool (b : Bool) : (Payload.varint (ofBool b)).bool? = some b := by
  cases b <;> rfl

instance : LawfulMessage (Option AttributeValue) where
  height := 1
  size_eq v := by
    match v with
    | none => rfl
    | some (.text s) =>
      exact ((congrArg List.length (writeRecords_singleton _)).trans
        (length_nested (by decide) s)).symm
    | some (.int n) =>
      exact ((congrArg List.length (writeRecords_singleton _)).trans
        (length_write_varint (by decide) _)).symm
    | some (.bool b) =>
      exact ((congrArg List.length (writeRecords_singleton _)).trans
        (length_write_varint (by decide) _)).symm
  shaped v := by
    match v with
    | none => exact shaped_nil
    | some (.text s) => exact shaped_singleton (shaped_bytes (by decide) (by decide) _)
    | some (.int n) =>
      exact shaped_singleton (shaped_of_not_entry (by decide) (by decide) rfl fun h => nomatch h)
    | some (.bool b) =>
      exact shaped_singleton (shaped_of_not_entry (by decide) (by decide) rfl fun h => nomatch h)
  merges v depth hd := by
    match v with
    | none => exact merges_nil _
    | some (.text s) =>
      exact merges_optionalField hd (fun o : Option TruncatableString =>
        o.map AttributeValue.text) (fun _ => rfl) (some s)
    | some (.int n) =>
      intro _
      show ((Payload.varint (ofInt64 n)).int64?.map fun v =>
        some (AttributeValue.int v)).bind some = _
      rw [int64?_ofInt64]
      rfl
    | some (.bool b) =>
      intro _
      show ((Payload.varint (ofBool b)).bool?.map fun v =>
        some (AttributeValue.bool v)).bind some = _
      rw [bool?_ofBool]
      rfl

instance : LawfulEntryValue (Option AttributeValue) where
  height := 2
  size_eq v := by
    by_cases h : v = none
    · simp only [EntryValue.size, EntryValue.records, if_pos h]
      rfl
    · simp only [EntryValue.size, EntryValue.records, if_neg h, writeRecords_singleton]
      exact (length_nested (by decide) v).symm
  shaped v := by
    simp only [EntryValue.records]
    split
    · exact shaped_nil
    · exact shaped_singleton (shaped_bytes (by decide) (by decide) _)
  merges k v depth hd := by
    by_cases h : v = none
    · subst h
      exact merges_nil _
    · intro hl
      simp only [EntryValue.records, if_neg h] at hl ⊢
      have hread : (Payload.bytes (encode v)).into? depth none = some v :=
        message?_encode hd (length_nested_lt hl)
      show (((Payload.bytes (encode v)).into? depth none).map fun v =>
        (⟨k, v⟩ : Entry (Option AttributeValue))).bind some = _
      rw [hread]
      rfl

instance : LawfulMessage Attributes where
  height := 3
  size_eq a := by
    simp (disch := decide) only [Message.size, encode, Message.records, length_writeRecords_append,
      length_repeatedField, length_int32Field]
  shaped a := by
    simp (disch := decide) only [Message.records, shaped_append, shaped_repeatedField,
      shaped_int32Field, and_self]
  merges a depth hd :=
    (merges_dict hd (fun v => (⟨v, 0⟩ : Attributes)) (fun _ _ => rfl) a.map).append
      (merges_int32Field (fun v => (⟨a.map, v⟩ : Attributes)) (fun _ => rfl) a.dropped)

instance : LawfulMessage Note where
  height := 4
  size_eq n := by
    simp (disch := decide) only [Message.size, encode, Message.records, length_writeRecords_append,
      length_optionalField]
  shaped n := by
    simp (disch := decide) only [Message.records, shaped_append, shaped_optionalField, and_self]
  merges n depth hd :=
    (merges_optionalField (Nat.lt_of_lt_of_le (by decide) hd) (fun v => (⟨v, none⟩ : Note))
        (fun _ => rfl) n.description).append
      (merges_optionalField hd (fun v => (⟨n.description, v⟩ : Note)) (fun _ => rfl) n.attributes)

instance : LawfulMessage TimeEvent where
  height := 5
  size_eq e := by
    simp (disch := decide) only [Message.size, encode, Message.records, length_writeRecords_append,
      length_optionalField]
  shaped e := by
    simp (disch := decide) only [Message.records, shaped_append, shaped_optionalField, and_self]
  merges e depth hd :=
    (merges_optionalField (Nat.lt_of_lt_of_le (by decide) hd) (fun v => (⟨v, none⟩ : TimeEvent))
        (fun _ => rfl) e.time).append
      (merges_optionalField hd (fun v => (⟨e.time, v⟩ : TimeEvent)) (fun _ => rfl) e.annotation)

instance : LawfulMessage TimeEvents where
  height := 6
  size_eq e := by
    simp (disch := decide) only [Message.size, encode, Message.records, length_writeRecords_append,
      length_repeatedField, length_int32Field]
  shaped e := by
    simp (disch := decide) only [Message.records, shaped_append, shaped_repeatedField,
      shaped_int32Field, and_self]
  merges e depth hd :=
    (merges_repeatedField hd (fun v => (⟨v, 0, 0⟩ : TimeEvents)) (fun _ _ => rfl) []
        e.events).append
      (merges_int32Field (fun v => (⟨e.events, v, 0⟩ : TimeEvents)) (fun _ => rfl)
        e.droppedAnnotations)
    |>.append (merges_int32Field (fun v => (⟨e.events, e.droppedAnnotations, v⟩ : TimeEvents))
        (fun _ => rfl) e.droppedMessageEvents)

instance : LawfulMessage TraceSpan where
  height := 7
  size_eq s := by
    simp (disch := decide) only [Message.size, encode, Message.records, length_writeRecords_append,
      length_textField, length_optionalField, length_int32Field]
  shaped s := by
    simp (disch := decide) only [Message.records, shaped_append, shaped_textField,
      shaped_optionalField, shaped_int32Field, and_self]
  merges s depth hd :=
    have h0 : 0 < depth := Nat.lt_of_lt_of_le (by decide) hd
    have h3 : 3 < depth := Nat.lt_of_lt_of_le (by decide) hd
    (merges_textField (fun v => ({ name := v } : TraceSpan)) (fun _ => rfl) s.name).append
      (merges_textField (fun v => ({ name := s.name, spanId := v } : TraceSpan)) (fun _ => rfl)
        s.spanId)
    |>.append (merges_textField (fun v =>
        ({ name := s.name, spanId := s.spanId, parentSpanId := v } : TraceSpan)) (fun _ => rfl)
        s.parentSpanId)
    |>.append (merges_optionalField h0 (fun v =>
        ({ s with displayName := v, startTime := none, endTime := none, attributes := none,
                  timeEvents := none, spanKind := 0 } : TraceSpan)) (fun _ => rfl) s.displayName)
    |>.append (merges_optionalField h0 (fun v =>
        ({ s with startTime := v, endTime := none, attributes := none, timeEvents := none,
                  spanKind := 0 } : TraceSpan)) (fun _ => rfl) s.startTime)
    |>.append (merges_optionalField h0 (fun v =>
        ({ s with endTime := v, attributes := none, timeEvents := none,
                  spanKind := 0 } : TraceSpan)) (fun _ => rfl) s.endTime)
    |>.append (merges_optionalField h3 (fun v =>
        ({ s with attributes := v, timeEvents := none, spanKind := 0 } : TraceSpan))
        (fun _ => rfl) s.attributes)
    |>.append (merges_optionalField hd (fun v =>
        ({ s with timeEvents := v, spanKind := 0 } : TraceSpan)) (fun _ => rfl) s.timeEvents)
    |>.append (merges_int32Field (fun v => ({ s with spanKind := v } : TraceSpan))
        (fun _ => rfl) s.spanKind)

instance : LawfulMessage BatchWriteSpansRequest where
  height := 8
  size_eq q := by
    simp (disch := decide) only [Message.size, encode, Message.records, length_writeRecords_append,
      length_textField, length_repeatedField]
  shaped q := by
    simp (disch := decide) only [Message.records, shaped_append, shaped_textField,
      shaped_repeatedField, and_self]
  merges q depth hd :=
    (merges_textField (fun v => (⟨v, []⟩ : BatchWriteSpansRequest)) (fun _ => rfl) q.name).append
      (merges_repeatedField hd (fun v => (⟨q.name, v⟩ : BatchWriteSpansRequest)) (fun _ _ => rfl)
        [] q.spans)

end SpanCourier.V2
