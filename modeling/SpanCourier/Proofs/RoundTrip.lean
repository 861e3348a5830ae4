import SpanCourier.Proofs.Wire.Growth
import SpanCourier.Proofs.V2.Lawful

/-!
# messages of both versions of the API, there and back

The fields of a message are independent of each other when it is read: a record changes one field, and
what the field gains the message gains.  So each type of message has one line per field, and the
general facts about reading and writing do the rest.

* `RoundTrips`            what the bytes of a message tell about it;
* `messages_round_trip`   it holds of every message, and of every part of one.
-/

namespace SpanCourier

open Wire

instance : GrowingMessage Timestamp where
  size_blank := rfl
  size_merge {_ m _ r} h := by
    obtain ⟨tag, p⟩ := r
    simp only [Message.merge] at h
    split at h
    · exact size_le_of_set h (fun v hv => int64Size_le (by decide) hv m.seconds) fun v => by
        simp only [Message.size]; omega
    · exact size_le_of_set h (fun v hv => int32Size_le (by decide) hv m.nanos) fun v => by
        simp only [Message.size]; omega
    · cases h
      exact Nat.le_add_right _ _

namespace V1

instance : GrowingMessage TraceSpan where
  size_blank := rfl
  size_merge {_ m _ r} h := by
    obtain ⟨tag, p⟩ := r
    simp only [Message.merge] at h
    split at h
    · exact size_le_of_set h (fun v hv => fixed64Size_le (by decide) hv m.spanId) fun v => by
        simp only [Message.size]; omega
    · exact size_le_of_set h (fun v hv => int32Size_le (by decide) hv m.kind) fun v => by
        simp only [Message.size]; omega
    · exact size_le_of_set h (fun v hv => textSize_le (by decide) hv m.name) fun v => by
        simp only [Message.size]; omega
    · exact size_le_of_set h (fun v hv => optionalSize_le (by decide) hv) fun v => by
        simp only [Message.size]; omega
    · exact size_le_of_set h (fun v hv => optionalSize_le (by decide) hv) fun v => by
        simp only [Message.size]; omega
    · exact size_le_of_set h (fun v hv => fixed64Size_le (by decide) hv m.parentSpanId) fun v => by
        simp only [Message.size]; omega
    · exact size_le_of_set h (fun v hv => repeatedSize_insert_le (by decide) hv m.labels) fun v => by
        simp only [Message.size, labelEntries]; omega
    · cases h
      exact Nat.le_add_right _ _

instance : GrowingMessage Trace where
  size_blank := rfl
  size_merge {_ m _ r} h := by
    obtain ⟨tag, p⟩ := r
    simp only [Message.merge] at h
    split at h
    · exact size_le_of_set h (fun v hv => textSize_le (by decide) hv m.projectId) fun v => by
        simp only [Message.size]; omega
    · exact size_le_of_set h (fun v hv => textSize_le (by decide) hv m.traceId) fun v => by
        simp only [Message.size]; omega
    · exact size_le_of_set h (fun v hv => repeatedSize_append_le (by decide) hv m.spans) fun v => by
        simp only [Message.size]; omega
    · cases h
      exact Nat.le_add_right _ _

instance : GrowingMessage Traces where
  size_blank := rfl
  size_merge {_ m _ r} h := by
    obtain ⟨tag, p⟩ := r
    simp only [Message.merge] at h
    split at h
    · exact size_le_of_set h (fun v hv => repeatedSize_append_le (by decide) hv m.traces) fun v => by
        simp only [Message.size]; omega
    · cases h
      exact Nat.le_add_right _ _

instance : GrowingMessage PatchTracesRequest where
  size_blank := rfl
  size_merge {_ m _ r} h := by
    obtain ⟨tag, p⟩ := r
    simp only [Message.merge] at h
    split at h
    · exact size_le_of_set h (fun v hv => textSize_le (by decide) hv m.projectId) fun v => by
        simp only [Message.size]; omega
    · exact size_le_of_set h (fun v hv => optionalSize_le (by decide) hv) fun v => by
        simp only [Message.size]; omega
    · cases h
      exact Nat.le_add_right _ _

end V1

namespace V2

instance : GrowingMessage TruncatableString where
  size_blank := rfl
  size_merge {_ m _ r} h := by
    obtain ⟨tag, p⟩ := r
    simp only [Message.merge] at h
    split at h
    · exact size_le_of_set h (fun v hv => textSize_le (by decide) hv m.value) fun v => by
        simp only [Message.size]; omega
    · exact size_le_of_set h (fun v hv => int32Size_le (by decide) hv m.truncatedByteCount) fun v => by
        simp only [Message.size]; omega
    · cases h
      exact Nat.le_add_right _ _

theorem varintSize_ofBool_le {tag : Nat} {p : Payload} {b : Bool} (ht : tag < 16)
    (h : p.bool? = some b) :
    keySize tag + varintSize (ofBool b).toNat ≤ (Record.write ⟨tag, p⟩).length := by
  cases p with
  | varint w =>
    have hone : varintSize (ofBool b).toNat = 1 := by cases b <;> decide
    have hpos := varintSize_pos w.toNat
    rw [length_write_varint ht]
    omega
  | fixed64 w | bytes data | fixed32 w | group => cases h

instance : GrowingMessage (Option AttributeValue) where
  size_blank := rfl
  size_merge {_ m _ r} h := by
    obtain ⟨tag, p⟩ := r
    simp only [Message.merge] at h
    split at h
    · refine size_le_of_set h (fun s hs => optionalSize_le (by decide) hs) fun s => ?_
      -- a text keeps what it had; a value of another kind gives way
      rcases m with _ | (s' | n | b) <;> simp only [Message.size, optionalSize] <;> omega
    · obtain ⟨n, hn, rfl⟩ := Option.map_eq_some_iff.mp h
      have hsize : keySize 2 + varintSize (ofInt64 n).toNat ≤ (Record.write ⟨2, p⟩).length :=
        varintSize_int64_le (by decide) hn
      simp only [Message.size]
      omega
    · obtain ⟨b, hb, rfl⟩ := Option.map_eq_some_iff.mp h
      have hsize : keySize 3 + varintSize (ofBool b).toNat ≤ (Record.write ⟨3, p⟩).length :=
        varintSize_ofBool_le (by decide) hb
      simp only [Message.size]
      omega
    · cases h
      exact Nat.le_add_right _ _

instance : GrowingEntryValue (Option AttributeValue) where
  size_blank := rfl
  size_merge {_ v v' p} h := by
    have hsize : nestedSize 2 v' ≤ (if Message.size v = 0 then 0 else nestedSize 2 v)
        + 2 * (Record.write ⟨2, p⟩).length := nestedSize_le (by decide) h
    have hbefore : (if Message.size v = 0 then 0 else nestedSize 2 v)
        ≤ if v = none then 0 else nestedSize 2 v := by
      cases v with
      | none => exact Nat.le_refl _
      | some a =>
        rw [if_neg (Option.some_ne_none a)]
        split <;> omega
    simp only [EntryValue.size]
    split <;> omega

instance : GrowingMessage Attributes where
  size_blank := rfl
  size_merge {_ m _ r} h := by
    obtain ⟨tag, p⟩ := r
    simp only [Message.merge] at h
    split at h
    · exact size_le_of_set h (fun v hv => repeatedSize_insert_le (by decide) hv m.map) fun v => by
        simp only [Message.size, attributeEntries]; omega
    · exact size_le_of_set h (fun v hv => int32Size_le (by decide) hv m.dropped) fun v => by
        simp only [Message.size]; omega
    · cases h
      exact Nat.le_add_right _ _

instance : GrowingMessage Note where
  size_blank := rfl
  size_merge {_ m _ r} h := by
    obtain ⟨tag, p⟩ := r
    simp only [Message.merge] at h
    split at h
    · exact size_le_of_set h (fun v hv => optionalSize_le (by decide) hv) fun v => by
        simp only [Message.size]; omega
    · exact size_le_of_set h (fun v hv => optionalSize_le (by decide) hv) fun v => by
        simp only [Message.size]; omega
    · cases h
      exact Nat.le_add_right _ _

instance : GrowingMessage TimeEvent where
  size_blank := rfl
  size_merge {_ m _ r} h := by
    obtain ⟨tag, p⟩ := r
    simp only [Message.merge] at h
    split at h
    · exact size_le_of_set h (fun v hv => optionalSize_le (by decide) hv) fun v => by
        simp only [Message.size]; omega
    · exact size_le_of_set h (fun v hv => optionalSize_le (by decide) hv) fun v => by
        simp only [Message.size]; omega
    · cases h
      exact Nat.le_add_right _ _

instance : GrowingMessage TimeEvents where
  size_blank := rfl
  size_merge {_ m _ r} h := by
    obtain ⟨tag, p⟩ := r
    simp only [Message.merge] at h
    split at h
    · exact size_le_of_set h (fun v hv => repeatedSize_append_le (by decide) hv m.events) fun v => by
        simp only [Message.size]; omega
    · exact size_le_of_set h (fun v hv => int32Size_le (by decide) hv m.droppedAnnotations) fun v => by
        simp only [Message.size]; omega
    · exact size_le_of_set h (fun v hv => int32Size_le (by decide) hv m.droppedMessageEvents) fun v => by
        simp only [Message.size]; omega
    · cases h
      exact Nat.le_add_right _ _

instance : GrowingMessage TraceSpan where
  size_blank := rfl
  size_merge {_ m _ r} h := by
    obtain ⟨tag, p⟩ := r
    simp only [Message.merge] at h
    split at h
    · exact size_le_of_set h (fun v hv => textSize_le (by decide) hv m.name) fun v => by
        simp only [Message.size]; omega
    · exact size_le_of_set h (fun v hv => textSize_le (by decide) hv m.spanId) fun v => by
        simp only [Message.size]; omega
    · exact size_le_of_set h (fun v hv => textSize_le (by decide) hv m.parentSpanId) fun v => by
        simp only [Message.size]; omega
    · exact size_le_of_set h (fun v hv => optionalSize_le (by decide) hv) fun v => by
        simp only [Message.size]; omega
    · exact size_le_of_set h (fun v hv => optionalSize_le (by decide) hv) fun v => by
        simp only [Message.size]; omega
    · exact size_le_of_set h (fun v hv => optionalSize_le (by decide) hv) fun v => by
        simp only [Message.size]; omega
    · exact size_le_of_set h (fun v hv => optionalSize_le (by decide) hv) fun v => by
        simp only [Message.size]; omega
    · exact size_le_of_set h (fun v hv => optionalSize_le (by decide) hv) fun v => by
        simp only [Message.size]; omega
    · exact size_le_of_set h (fun v hv => int32Size_le (by decide) hv m.spanKind) fun v => by
        simp only [Message.size]; omega
    · cases h
      exact Nat.le_add_right _ _

instance : GrowingMessage BatchWriteSpansRequest where
  size_blank := rfl
  size_merge {_ m _ r} h := by
    obtain ⟨tag, p⟩ := r
    simp only [Message.merge] at h
    split at h
    · exact size_le_of_set h (fun v hv => textSize_le (by decide) hv m.name) fun v => by
        simp only [Message.size]; omega
    · exact size_le_of_set h (fun v hv => repeatedSize_append_le (by decide) hv m.spans) fun v => by
        simp only [Message.size]; omega
    · cases h
      exact Nat.le_add_right _ _

end V2

/-! ## there and back -/

/-- bytes read as a message and written again -/
def renew (α : Type) [Message α] (bs : Bytes) : Option Bytes := (decode α bs).map encode

/-- what the bytes of a message tell about it.  A run of bytes has a word for its length, so that
nothing can be said of messages that have more bytes than a word counts. -/
structure RoundTrips (α : Type) [Message α] : Prop where
  /-- a message is read back from its bytes -/
  decode_encode : ∀ m : α, (encode m).length < UInt64.size → decode α (encode m) = some m
  /-- the size that is counted without writing is the number of bytes -/
  size : ∀ m : α, Message.size m = (encode m).length
  /-- different messages have different bytes -/
  injective : ∀ m m' : α, (encode m).length < UInt64.size → encode m = encode m' → m = m'
  /-- bytes that can be read at all are renewed once: then they stay, and stand for the same message -/
  settles : ∀ bs bs' : Bytes, 2 * bs.length < UInt64.size → renew α bs = some bs' →
    renew α bs' = some bs' ∧ decode α bs' = decode α bs
  /-- renewed bytes are at most twice as many -/
  grows : ∀ bs bs' : Bytes, renew α bs = some bs' → bs'.length ≤ 2 * bs.length

theorem roundTrips {α : Type} [Message α] [LawfulMessage α] [GrowingMessage α]
    (hd : LawfulMessage.height α ≤ depthLimit) : RoundTrips α := by
  have grows : ∀ {bs m}, decode α bs = some m → (encode m).length ≤ 2 * bs.length := by
    intro bs m hread
    rw [← LawfulMessage.size_eq]
    exact size_decode_le hread
  refine ⟨fun m => Wire.decode_encode m hd, LawfulMessage.size_eq, ?_, ?_, ?_⟩
  · intro m m' hl heq
    have hm := Wire.decode_encode m hd hl
    rw [heq, Wire.decode_encode m' hd (heq ▸ hl)] at hm
    exact (Option.some.inj hm).symm
  · intro bs bs' hl h
    obtain ⟨m, hread, rfl⟩ := Option.map_eq_some_iff.mp h
    have hagain : decode α (encode m) = some m :=
      Wire.decode_encode m hd (Nat.lt_of_le_of_lt (grows hread) hl)
    exact ⟨by rw [renew, hagain, Option.map_some], by rw [hagain, hread]⟩
  · intro bs bs' h
    obtain ⟨m, hread, rfl⟩ := Option.map_eq_some_iff.mp h
    exact grows hread

/-- every message of both versions of the API, and every part of one -/
theorem messages_round_trip :
    RoundTrips Timestamp
      ∧ RoundTrips V1.TraceSpan ∧ RoundTrips V1.Trace ∧ RoundTrips V1.Traces
      ∧ RoundTrips V1.PatchTracesRequest
      ∧ RoundTrips V2.TruncatableString ∧ RoundTrips (Option V2.AttributeValue)
      ∧ RoundTrips V2.Attributes ∧ RoundTrips V2.Note ∧ RoundTrips V2.TimeEvent
      ∧ RoundTrips V2.TimeEvents ∧ RoundTrips V2.TraceSpan
      ∧ RoundTrips V2.BatchWriteSpansRequest := by
  refine ⟨?_, ?_, ?_, ?_, ?_, ?_, ?_, ?_, ?_, ?_, ?_, ?_, ?_⟩ <;> exact roundTrips (by decide)

/-- a span with an unknown kind and values that are all left out or hardly there, and a negative count
that comes in five bytes and goes out in ten -/
theorem messages_round_trip_sparse :
    let span : V2.TraceSpan :=
      { attributes := some { map := Dict.ofEntries [("", none), ("é", some (.bool false))] },
        timeEvents := some { events := [{ annotation := some {} }] },
        startTime := some ⟨-1, 0⟩, spanKind := -7 }
    let padded : Bytes := [16, 255, 255, 255, 255, 15]
    let renewed : Bytes := [16, 255, 255, 255, 255, 255, 255, 255, 255, 255, 1]
    decode V2.TraceSpan (encode span) = some span
      ∧ renew V2.TruncatableString padded = some renewed
      ∧ renew V2.TruncatableString renewed = some renewed := by
  intro span padded renewed
  obtain ⟨-, -, -, -, -, text, -, -, -, -, -, spans, -⟩ := messages_round_trip
  have hshort : (encode span).length < UInt64.size := by
    rw [← spans.size]
    decide +kernel
  have hrenew : renew V2.TruncatableString padded = some renewed := by decide +kernel
  exact ⟨spans.decode_encode span hshort, hrenew,
    (text.settles padded renewed (by decide) hrenew).1⟩

end SpanCourier
