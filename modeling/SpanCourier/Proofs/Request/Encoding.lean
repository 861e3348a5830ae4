import SpanCourier.Proofs.Request.Length
import SpanCourier.Proofs.Request.Reuse
import SpanCourier.Proofs.V2.Lawful

/-!
# requests are messages of the schemas

A request is put together from spans that are encoded already.  Its body is, byte for byte, the
encoding of the request message that holds these spans: the headers announce the lengths that the
schema encoder would have written, and a field is left out where it would have left it out.

* `Traced`                 a span under the identifier of its trace, and the buffer it travels in;
* `patchTraces`            the v1 request that a batch stands for;
* `batchWriteSpans`        the v2 request that a batch stands for;
* `assemble_eq_encode`     the assembled requests.
-/

namespace SpanCourier

open Wire

variable {α : Type}

/-- a span under the identifier of its trace -/
structure Traced (α : Type) where
  traceId : String
  span : α

namespace Traced

def buffer [Message α] (s : Traced α) : Bytes := utf8 s.traceId ++ encode s.span

end Traced

/-- whether all identifiers have the length that buffers have room for -/
def AllFit (batch : List (Traced α)) : Prop := ∀ s ∈ batch, s.traceId.utf8ByteSize = traceIdLength

instance (batch : List (Traced α)) : Decidable (AllFit batch) :=
  inferInstanceAs (Decidable (∀ s ∈ batch, _))

/-- these are the identifiers of the traces of a batch, each once, in the order of their bytes -/
structure AreTraceIds (ids : List String) (batch : List (Traced α)) : Prop where
  ascending : ids.Pairwise fun a b => utf8 a < utf8 b
  mem_iff : ∀ id, id ∈ ids ↔ ∃ s ∈ batch, s.traceId = id

def spansOf (id : String) (batch : List (Traced α)) : List α :=
  (batch.filter fun s => decide (s.traceId = id)).map (·.span)

/-- the v1 request for the traces of a batch -/
def patchTraces (project : String) (ids : List String) (batch : List (Traced V1.TraceSpan)) :
    V1.PatchTracesRequest where
  projectId := project
  traces := some { traces := ids.map fun id => ⟨project, id, spansOf id batch⟩ }

/-- the v2 request for a batch -/
def batchWriteSpans (project : String) (batch : List (Traced V2.TraceSpan)) :
    V2.BatchWriteSpansRequest where
  name := "projects/" ++ project
  spans := batch.map (·.span)

/-! ## buffers -/

section
variable [Message α] {s : Traced α}

theorem bufferTrace_buffer (h : s.traceId.utf8ByteSize = traceIdLength) :
    bufferTrace s.buffer = utf8 s.traceId :=
  List.take_left' ((length_utf8 _).trans h)

theorem bufferSpan_buffer (h : s.traceId.utf8ByteSize = traceIdLength) :
    bufferSpan s.buffer = encode s.span :=
  List.drop_left' ((length_utf8 _).trans h)

theorem ofTrace_buffers {batch : List (Traced α)} (h : AllFit batch) (id : String) :
    ofTrace (utf8 id) (batch.map Traced.buffer)
      = (batch.filter fun s => decide (s.traceId = id)).map Traced.buffer := by
  rw [ofTrace, List.filter_map]
  congr 1
  refine List.filter_congr fun s hs => ?_
  show decide (bufferTrace s.buffer = utf8 id) = decide (s.traceId = id)
  rw [bufferTrace_buffer (h s hs)]
  exact decide_eq_decide.mpr ⟨utf8_injective, congrArg utf8⟩

theorem exists_map_utf8 {ids : List Bytes} (h : ∀ id ∈ ids, ∃ t, utf8 t = id) :
    ∃ ts : List String, ts.map utf8 = ids := by
  induction ids with
  | nil => exact ⟨[], rfl⟩
  | cons id ids ih =>
    obtain ⟨t, rfl⟩ := h id List.mem_cons_self
    obtain ⟨ts, rfl⟩ := ih fun id hid => h id (List.mem_cons_of_mem _ hid)
    exact ⟨t :: ts, rfl⟩

theorem exists_areTraceIds {batch : List (Traced α)} (h : AllFit batch) :
    ∃ ids, AreTraceIds ids batch ∧ traceIds (batch.map Traced.buffer) = ids.map utf8 := by
  have hmem : ∀ id, id ∈ traceIds (batch.map Traced.buffer) ↔ ∃ s ∈ batch, utf8 s.traceId = id := by
    intro id
    rw [mem_traceIds]
    constructor
    · rintro ⟨b, hb, rfl⟩
      obtain ⟨s, hs, rfl⟩ := List.mem_map.mp hb
      exact ⟨s, hs, (bufferTrace_buffer (h s hs)).symm⟩
    · rintro ⟨s, hs, rfl⟩
      exact ⟨s.buffer, List.mem_map_of_mem hs, bufferTrace_buffer (h s hs)⟩
  obtain ⟨ids, hids⟩ := exists_map_utf8 fun id hid =>
    have ⟨s, _, hs⟩ := (hmem id).mp hid
    ⟨s.traceId, hs⟩
  have hasc := pairwise_traceIds (batch.map Traced.buffer)
  rw [← hids, List.pairwise_map] at hasc
  refine ⟨ids, ⟨hasc, fun id => ?_⟩, hids.symm⟩
  have hid := hmem (utf8 id)
  rw [← hids] at hid
  constructor
  · intro h
    obtain ⟨s, hs, heq⟩ := hid.mp (List.mem_map_of_mem h)
    exact ⟨s, hs, utf8_injective heq⟩
  · rintro ⟨s, hs, rfl⟩
    obtain ⟨t, ht, heq⟩ := List.mem_map.mp (hid.mpr ⟨s, hs, rfl⟩)
    exact utf8_injective heq ▸ ht

end

/-! ## fields -/

theorem run_utf8 (tag : Nat) (t : String) : run tag (utf8 t) = writeRecords (textField tag t) := by
  rw [run, textField, isEmpty_utf8]
  by_cases h : t = ""
  · rw [if_pos (decide_eq_true h), if_pos h]
    rfl
  · rw [if_neg (by simpa using h), if_neg h, writeRecords_singleton]
    exact List.append_assoc ..

theorem write_nested [Message α] (tag : Nat) (m : α) :
    (nested tag m).write = header tag (encode m).length ++ encode m :=
  (List.append_assoc ..).symm

theorem flatMap_spanField [Message α] (tag : Nat) {batch : List (Traced α)} (h : AllFit batch) :
    (batch.map Traced.buffer).flatMap (spanField tag)
      = writeRecords (repeatedField tag (batch.map (·.span))) := by
  rw [writeRecords, repeatedField, List.flatMap_map, List.flatMap_map, List.flatMap_map]
  rw [List.flatMap_def, List.flatMap_def]
  refine congrArg List.flatten (List.map_congr_left fun s hs => ?_)
  rw [spanField, bufferSpan_buffer (h s hs)]
  exact (write_nested tag s.span).symm

/-! ## the v1 request -/

theorem run_traceId {id : String} (h : id.utf8ByteSize = traceIdLength) (tag : Nat) :
    run tag (utf8 id) = header tag traceIdLength ++ utf8 id := by
  have hne : (utf8 id).isEmpty = false := by
    rw [isEmpty_utf8]
    refine decide_eq_false fun h0 => ?_
    subst h0
    exact absurd h (by decide)
  rw [run, if_neg (ne_true_of_eq_false hne), length_utf8, h]

/-- a group is written as the trace that holds its spans -/
theorem traceField_buffers (project : String) {id : String} {batch : List (Traced V1.TraceSpan)}
    (h : AllFit batch) (hne : batch ≠ []) (hid : ∀ s ∈ batch, s.traceId = id) :
    traceField project (batch.map Traced.buffer)
      = (nested 1 (⟨project, id, batch.map (·.span)⟩ : V1.Trace)).write := by
  have hfit : id.utf8ByteSize = traceIdLength ∧
      bufferTrace ((batch.map Traced.buffer).headD []) = utf8 id := by
    cases batch with
    | nil => exact absurd rfl hne
    | cons s batch =>
      have hs := h s List.mem_cons_self
      have heq := hid s List.mem_cons_self
      exact ⟨heq ▸ hs, heq ▸ bufferTrace_buffer hs⟩
  obtain ⟨hfit, htrace⟩ := hfit
  have hlen : (utf8 id).length = traceIdLength := hfit
  have hbody : encode (⟨project, id, batch.map (·.span)⟩ : V1.Trace)
      = run 1 (utf8 project) ++ header 2 traceIdLength ++ utf8 id
        ++ (batch.map Traced.buffer).flatMap (spanField 3) := by
    rw [flatMap_spanField 3 h, List.append_assoc (run 1 (utf8 project)), ← run_traceId hfit,
      run_utf8, run_utf8, ← writeRecords_append, ← writeRecords_append]
    rfl
  -- the header announces what stands behind it, since the length of the whole field is known
  have hsize : traceLength project (batch.map Traced.buffer)
      = (encode (⟨project, id, batch.map (·.span)⟩ : V1.Trace)).length := by
    have hfield := length_traceField project (batch.map Traced.buffer)
    rw [traceField, htrace, missing, hlen, Nat.sub_self] at hfield
    simp only [List.append_assoc] at hbody hfield
    rw [← hbody, List.length_append, length_header (by decide), fieldSize] at hfield
    omega
  rw [write_nested, hbody, ← hbody, ← hsize, hbody, traceField, htrace]
  simp only [List.append_assoc]

theorem traceField_ofTrace (project : String) {id : String} {batch : List (Traced V1.TraceSpan)}
    (h : AllFit batch) (hid : utf8 id ∈ traceIds (batch.map Traced.buffer)) :
    traceField project (ofTrace (utf8 id) (batch.map Traced.buffer))
      = (nested 1 (⟨project, id, spansOf id batch⟩ : V1.Trace)).write := by
  have hne : (batch.filter fun s => decide (s.traceId = id)) ≠ [] := by
    obtain ⟨b, hb, heq⟩ := mem_traceIds.mp hid
    obtain ⟨s, hs, rfl⟩ := List.mem_map.mp hb
    rw [bufferTrace_buffer (h s hs)] at heq
    exact List.ne_nil_of_mem (List.mem_filter.mpr ⟨hs, decide_eq_true (utf8_injective heq)⟩)
  rw [ofTrace_buffers h]
  exact traceField_buffers project (fun s hs => h s (List.mem_filter.mp hs).1) hne
    fun s hs => of_decide_eq_true (List.mem_filter.mp hs).2

theorem patchTracesBody_buffers (project : String) {ids : List String}
    {batch : List (Traced V1.TraceSpan)} (h : AllFit batch)
    (hids : traceIds (batch.map Traced.buffer) = ids.map utf8) :
    patchTracesBody project
        ((traceIds (batch.map Traced.buffer)).map fun id => ofTrace id (batch.map Traced.buffer))
      = encode (patchTraces project ids batch) := by
  have hlong : ∀ b ∈ batch.map Traced.buffer, traceIdLength ≤ b.length := by
    intro b hb
    obtain ⟨s, hs, rfl⟩ := List.mem_map.mp hb
    have hs := h s hs
    rw [← length_utf8] at hs
    rw [Traced.buffer, List.length_append]
    omega
  have hlen := length_patchTracesBody project
    ((traceIds (batch.map Traced.buffer)).map fun id => ofTrace id (batch.map Traced.buffer))
  rw [total_missing, total_missing_eq_zero hlong] at hlen
  have htraces : ((traceIds (batch.map Traced.buffer)).map
        fun id => ofTrace id (batch.map Traced.buffer)).flatMap (traceField project)
      = encode (⟨ids.map fun id => ⟨project, id, spansOf id batch⟩⟩ : V1.Traces) := by
    rw [hids, List.map_map, List.flatMap_map, List.flatMap_def]
    show _ = writeRecords (repeatedField 1 (ids.map fun id => _))
    rw [writeRecords, repeatedField, List.map_map, List.flatMap_map, List.flatMap_def]
    refine congrArg List.flatten (List.map_congr_left fun id hid => ?_)
    exact traceField_ofTrace project h (hids ▸ List.mem_map_of_mem hid)
  rw [patchTracesBody, htraces] at hlen ⊢
  generalize total _ _ = size at hlen ⊢
  have hsize : size
      = (encode (⟨ids.map fun id => ⟨project, id, spansOf id batch⟩⟩ : V1.Traces)).length := by
    rw [List.length_append, List.length_append, length_run (by decide), length_header (by decide),
      fieldSize] at hlen
    omega
  rw [hsize, List.append_assoc, ← write_nested, run_utf8, ← writeRecords_singleton,
    ← writeRecords_append]
  rfl

/-! ## the v2 request -/

theorem batchWriteBody_buffers (project : String) {batch : List (Traced V2.TraceSpan)}
    (h : AllFit batch) :
    batchWriteBody project (batch.map Traced.buffer) = encode (batchWriteSpans project batch) := by
  rw [batchWriteBody, flatMap_spanField 2 h, run_utf8, ← writeRecords_append]
  rfl

/-! ## assembled requests -/

theorem assemble_buffers_v1 (project : String) {ids : List String}
    {batch : List (Traced V1.TraceSpan)} (hne : batch ≠ []) (h : AllFit batch)
    (hids : traceIds (batch.map Traced.buffer) = ids.map utf8) :
    assemble .v1 project (batch.map Traced.buffer)
      = ⟨⟨.v1, encode (patchTraces project ids batch)⟩, batch.length, ids.length⟩ := by
  have hne' : batch.map Traced.buffer ≠ [] := fun h0 => hne (List.map_eq_nil_iff.mp h0)
  rw [assemble_v1 project hne', tracesOf_collate, patchTracesBody_buffers project h hids, hids,
    List.length_map, List.length_map, List.length_map]

theorem assemble_buffers_v2 (project : String) {ids : List String}
    {batch : List (Traced V2.TraceSpan)} (hne : batch ≠ []) (h : AllFit batch)
    (hids : traceIds (batch.map Traced.buffer) = ids.map utf8) :
    assemble .v2 project (batch.map Traced.buffer)
      = ⟨⟨.v2, encode (batchWriteSpans project batch)⟩, batch.length, ids.length⟩ := by
  have hne' : batch.map Traced.buffer ≠ [] := fun h0 => hne (List.map_eq_nil_iff.mp h0)
  have hcount : countTraces (batch.map Traced.buffer) = ids.length := by
    have hlen : (traceIds (batch.map Traced.buffer)).length = (ids.map utf8).length :=
      congrArg List.length hids
    rwa [List.length_map] at hlen
  rw [assemble_v2 project hne', batchWriteBody_buffers project h, hcount, List.length_map]

/-- The request for a batch is the encoding of the request message for it, in either version and
whatever the assembler was used for before.  A v1 request has one trace for each identifier, a v2
request has all spans in their order, and both count the traces alike. -/
theorem assemble_eq_encode (project : String) (earlier : List (List Bytes)) :
    (∀ batch : List (Traced V1.TraceSpan), batch ≠ [] → AllFit batch →
      ∃ ids, AreTraceIds ids batch ∧
        (((Assembler.ofProject .v1 project).after earlier).assemble (batch.map Traced.buffer)).1
          = ⟨⟨.v1, encode (patchTraces project ids batch)⟩, batch.length, ids.length⟩)
    ∧ ∀ batch : List (Traced V2.TraceSpan), batch ≠ [] → AllFit batch →
      ∃ ids, AreTraceIds ids batch ∧
        (((Assembler.ofProject .v2 project).after earlier).assemble (batch.map Traced.buffer)).1
          = ⟨⟨.v2, encode (batchWriteSpans project batch)⟩, batch.length, ids.length⟩ := by
  constructor
  · intro batch hne h
    obtain ⟨ids, hare, hids⟩ := exists_areTraceIds h
    have used := (Assembler.serves_ofProject .v1 project).after earlier
    exact ⟨ids, hare, (used.assemble _).1.trans (assemble_buffers_v1 project hne h hids)⟩
  · intro batch hne h
    obtain ⟨ids, hare, hids⟩ := exists_areTraceIds h
    have used := (Assembler.serves_ofProject .v2 project).after earlier
    exact ⟨ids, hare, (used.assemble _).1.trans (assemble_buffers_v2 project hne h hids)⟩

/-- three spans of two traces, the later trace first -/
theorem assemble_eq_encode_three_spans :
    let batch : List (Traced V1.TraceSpan) :=
      [⟨"bbbbbbbbbbbbbbbbbbbbbbbbbbbbbbbb", { spanId := 1 }⟩,
        ⟨"aaaaaaaaaaaaaaaaaaaaaaaaaaaaaaaa", { spanId := 2 }⟩,
        ⟨"bbbbbbbbbbbbbbbbbbbbbbbbbbbbbbbb", { name := "leaf" }⟩]
    batch ≠ [] ∧ AllFit batch ∧ ∃ ids, AreTraceIds ids batch ∧
      (((Assembler.ofProject .v1 "").after [[[1, 2]], []]).assemble (batch.map Traced.buffer)).1
        = ⟨⟨.v1, encode (patchTraces "" ids batch)⟩, 3, ids.length⟩ :=
  ⟨by decide, by decide, (assemble_eq_encode "" [[[1, 2]], []]).1 _ (by decide) (by decide)⟩

end SpanCourier
