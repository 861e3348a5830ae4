import SpanCourier.Exporter
import SpanCourier.Proofs.Request.Encoding
import SpanCourier.Proofs.Sender.Batches
import SpanCourier.Proofs.V1.Linkage

/-!
# spans are delivered

From recorded spans to the body of a call nothing is lost, doubled or put into another trace.  The
buffers of the encoder are those of spans under the written identifiers of their traces, so that the
request for them is one of the schemas, and reading its body gives the spans back.

* `Span.traceText`     the written identifier of the trace of a span;
* `traced`             the spans of the destination under these identifiers;
* `Delivers`           what the body of a call carries;
* `exporter_delivers`  every accepted list of spans is delivered in one call.
-/

namespace SpanCourier

open Wire

/-- the written identifier of the trace of a span -/
def Span.traceText (span : Span) : String := (TraceId.ofText span.traceId).text

theorem Span.utf8_traceText (span : Span) :
    utf8 span.traceText = (TraceId.ofText span.traceId).digits := TraceId.utf8_text _

theorem Span.utf8ByteSize_traceText (span : Span) :
    span.traceText.utf8ByteSize = traceIdLength := by
  rw [← length_utf8, utf8_traceText]
  exact TraceId.length_digits _

theorem Span.length_traceText (span : Span) : span.traceText.length = traceIdLength := by
  rw [traceText, TraceId.text, String.length_ofList, List.length_map]
  exact TraceId.length_digits _

section
variable {α : Type}

/-- the spans of the destination that `f` gives, under the identifiers of their traces -/
def traced (f : Span → List α) (spans : List Span) : List (Traced α) :=
  spans.flatMap fun span => (f span).map fun m => ⟨span.traceText, m⟩

variable {f : Span → List α} {spans : List Span}

theorem mem_traced {s : Traced α} :
    s ∈ traced f spans ↔ ∃ span ∈ spans, span.traceText = s.traceId ∧ s.span ∈ f span := by
  rw [traced, List.mem_flatMap]
  constructor
  · rintro ⟨span, hspan, hs⟩
    obtain ⟨m, hm, rfl⟩ := List.mem_map.mp hs
    exact ⟨span, hspan, rfl, hm⟩
  · rintro ⟨span, hspan, hid, hm⟩
    exact ⟨span, hspan, List.mem_map.mpr ⟨s.span, hm, by rw [hid]⟩⟩

theorem allFit_traced (f : Span → List α) (spans : List Span) : AllFit (traced f spans) := by
  intro s hs
  obtain ⟨span, _, hid, _⟩ := mem_traced.mp hs
  rw [← hid]
  exact span.utf8ByteSize_traceText

theorem map_span_traced (f : Span → List α) (spans : List Span) :
    (traced f spans).map (·.span) = spans.flatMap f := by
  rw [traced, List.map_flatMap]
  refine congrArg (spans.flatMap ·) (funext fun span => ?_)
  rw [List.map_map]
  exact List.map_id _

theorem spansOf_map (id traceId : String) (ms : List α) :
    spansOf id (ms.map fun m => (⟨traceId, m⟩ : Traced α)) = if traceId = id then ms else [] := by
  rw [spansOf, List.filter_map, List.map_map]
  by_cases h : traceId = id
  · have hall : ms.filter ((fun s : Traced α => decide (s.traceId = id)) ∘ fun m => ⟨traceId, m⟩)
        = ms := List.filter_eq_self.mpr fun m _ => decide_eq_true h
    rw [if_pos h, hall]
    exact List.map_id ms
  · have hnone : ms.filter ((fun s : Traced α => decide (s.traceId = id)) ∘ fun m => ⟨traceId, m⟩)
        = [] := List.filter_eq_nil_iff.mpr fun m _ hm => h (of_decide_eq_true hm)
    rw [if_neg h, hnone]
    rfl

theorem spansOf_append (id : String) (as bs : List (Traced α)) :
    spansOf id (as ++ bs) = spansOf id as ++ spansOf id bs := by
  rw [spansOf, List.filter_append, List.map_append]
  rfl

/-- a trace of the destination holds what comes from the spans of the trace, in their order -/
theorem spansOf_traced (id : String) (f : Span → List α) (spans : List Span) :
    spansOf id (traced f spans)
      = (spans.filter fun span => decide (span.traceText = id)).flatMap f := by
  induction spans with
  | nil => rfl
  | cons span spans ih =>
    have hcons : traced f (span :: spans)
        = (f span).map (fun m => ⟨span.traceText, m⟩) ++ traced f spans := List.flatMap_cons
    rw [hcons, spansOf_append, spansOf_map, ih]
    by_cases h : span.traceText = id
    · rw [if_pos h, List.filter_cons_of_pos (by exact decide_eq_true h), List.flatMap_cons]
    · rw [if_neg h, List.filter_cons_of_neg (by simpa using h), List.nil_append]

theorem exists_traceId_iff (hf : ∀ span, f span ≠ []) (id : String) :
    (∃ s ∈ traced f spans, s.traceId = id) ↔ ∃ span ∈ spans, span.traceText = id := by
  constructor
  · rintro ⟨s, hs, rfl⟩
    obtain ⟨span, hspan, hid, _⟩ := mem_traced.mp hs
    exact ⟨span, hspan, hid⟩
  · rintro ⟨span, hspan, rfl⟩
    obtain ⟨m, hm⟩ := List.exists_mem_of_ne_nil _ (hf span)
    exact ⟨⟨span.traceText, m⟩, mem_traced.mpr ⟨span, hspan, rfl, hm⟩, rfl⟩

theorem traced_ne_nil (hf : ∀ span, f span ≠ []) (hne : spans ≠ []) : traced f spans ≠ [] := by
  obtain ⟨span, hspan⟩ := List.exists_mem_of_ne_nil _ hne
  obtain ⟨s, hs, _⟩ := (exists_traceId_iff hf span.traceText).mpr ⟨span, hspan, rfl⟩
  exact List.ne_nil_of_mem hs

theorem map_buffer_traced [Message α] (f : Span → List α) (spans : List Span) :
    (traced f spans).map Traced.buffer
      = spans.flatMap fun span =>
          ((f span).map encode).map ((TraceId.ofText span.traceId).digits ++ ·) := by
  rw [traced, List.map_flatMap]
  refine congrArg (spans.flatMap ·) (funext fun span => ?_)
  rw [List.map_map, List.map_map]
  refine List.map_congr_left fun m _ => ?_
  show utf8 span.traceText ++ encode m = _
  rw [span.utf8_traceText]
  rfl

end

theorem encodeAll_v1 (labels : LabelRules) (spans : List Span) :
    (Encoder.v1 labels).encodeAll spans
      = (traced (V1.fragments labels) spans).map Traced.buffer := (map_buffer_traced _ spans).symm

theorem encodeAll_v2 (rules : V2.Rules) (spans : List Span) :
    (Encoder.v2 rules).encodeAll spans
      = (traced (fun span => [V2.resource rules span]) spans).map Traced.buffer :=
  (map_buffer_traced (fun span => [V2.resource rules span]) spans).symm

/-! ## what is delivered -/

/-- a span becomes one span of the v1 API, or two of them, the client side before the server side -/
theorem V1.fragments_eq (labels : LabelRules) (span : Span) :
    (∃ s, V1.fragments labels span = [s])
      ∨ ∃ c s, V1.fragments labels span = [c, s] ∧ c.kind = V1.SpanKind.rpcClient.number
        ∧ s.kind = V1.SpanKind.rpcServer.number := by
  unfold V1.fragments
  by_cases h : V1.IsMerged span
  · rw [V1.sides_of_isMerged h]
    exact Or.inr ⟨V1.fragment labels span .client, V1.fragment labels span .splitServer,
      rfl, rfl, rfl⟩
  · obtain ⟨side, hside, -⟩ := V1.exists_side_of_not_isMerged h
    rw [hside]
    exact Or.inl ⟨V1.fragment labels span side, rfl⟩

theorem V1.fragments_ne_nil (labels : LabelRules) (span : Span) :
    V1.fragments labels span ≠ [] := by
  rcases V1.fragments_eq labels span with ⟨s, h⟩ | ⟨c, s, h, _⟩
  · rw [h]
    exact List.cons_ne_nil s []
  · rw [h]
    exact List.cons_ne_nil c [s]

/-- the v1 request for spans: one trace for each identifier, in the order of their bytes, with what
comes from the spans of the trace, which is one span or the two sides of it for each -/
structure IsPatchTraces (settings : Settings) (spans : List Span) (q : V1.PatchTracesRequest) :
    Prop where
  projectId_eq : q.projectId = settings.project
  fragments_eq : ∀ span ∈ spans, (∃ s, V1.fragments settings.labelRules span = [s])
    ∨ ∃ c s, V1.fragments settings.labelRules span = [c, s]
      ∧ c.kind = V1.SpanKind.rpcClient.number ∧ s.kind = V1.SpanKind.rpcServer.number
  traces_eq : ∃ ids : List String,
    (ids.Pairwise fun a b => utf8 a < utf8 b)
    ∧ (∀ id ∈ ids, id.length = traceIdLength)
    ∧ (∀ id, id ∈ ids ↔ ∃ span ∈ spans, span.traceText = id)
    ∧ q.traces = some ⟨ids.map fun id => ⟨settings.project, id,
        (spans.filter fun span => decide (span.traceText = id)).flatMap
          (V1.fragments settings.labelRules)⟩⟩

/-- the v2 request for spans: one span for each, in their order -/
structure IsBatchWriteSpans (settings : Settings) (spans : List Span)
    (q : V2.BatchWriteSpansRequest) : Prop where
  name_eq : q.name = "projects/" ++ settings.project
  spans_eq : q.spans = spans.map
    (V2.resource { project := settings.project, labels := settings.labelRules })

/-- the body carries the message `q` and nothing else, in `size` bytes -/
structure Carries {α : Type} [Message α] (body : Bytes) (size : Nat) (q : α) : Prop where
  decode_eq : decode α body = some q
  encode_eq : encode q = body
  size_eq : Message.size q = size

/-- the body of a call delivers spans, in the version of the settings -/
def Delivers (settings : Settings) (spans : List Span) (size : Nat) (body : Bytes) : Prop :=
  match settings.apiVersion with
  | .v1 => ∃ q : V1.PatchTracesRequest, Carries body size q ∧ IsPatchTraces settings spans q
  | .v2 => ∃ q : V2.BatchWriteSpansRequest, Carries body size q ∧ IsBatchWriteSpans settings spans q

theorem carries_encode {α : Type} [Message α] [LawfulMessage α] {q : α} {body : Bytes} {size : Nat}
    (hd : LawfulMessage.height α ≤ depthLimit) (hbody : body = encode q)
    (hsize : body.length = size) (hlt : size < UInt64.size) : Carries body size q := by
  subst hbody hsize
  exact ⟨decode_encode q hd hlt, rfl, LawfulMessage.size_eq q⟩

theorem delivers_v1 (settings : Settings) {spans : List Span} {size : Nat} {bufs : List Bytes}
    (hv : settings.apiVersion = .v1) (hne : spans ≠ [])
    (hbufs : bufs = (Encoder.v1 settings.labelRules).encodeAll spans)
    (hsize : (assemble .v1 settings.project bufs).call.body.length = size)
    (hlt : size < UInt64.size) :
    Delivers settings spans size (assemble .v1 settings.project bufs).call.body := by
  have hf : ∀ span, V1.fragments settings.labelRules span ≠ [] := V1.fragments_ne_nil _
  have hfit := allFit_traced (V1.fragments settings.labelRules) spans
  obtain ⟨ids, hare, hids⟩ := exists_areTraceIds hfit
  have hrequest := assemble_buffers_v1 settings.project (traced_ne_nil hf hne) hfit hids
  rw [← encodeAll_v1, ← hbufs] at hrequest
  have hmem : ∀ id, id ∈ ids ↔ ∃ span ∈ spans, span.traceText = id := fun id =>
    (hare.mem_iff id).trans (exists_traceId_iff hf id)
  rw [Delivers, hv]
  refine ⟨patchTraces settings.project ids (traced (V1.fragments settings.labelRules) spans),
    carries_encode (by decide) (by rw [hrequest]) hsize hlt, rfl,
    fun span _ => V1.fragments_eq settings.labelRules span, ids, hare.ascending,
    fun id hid => ?_, hmem, ?_⟩
  · obtain ⟨span, _, rfl⟩ := (hmem id).mp hid
    exact span.length_traceText
  · simp only [patchTraces, spansOf_traced]

theorem delivers_v2 (settings : Settings) {spans : List Span} {size : Nat} {bufs : List Bytes}
    (hv : settings.apiVersion = .v2) (hne : spans ≠ [])
    (hbufs : bufs = (Encoder.v2
      { project := settings.project, labels := settings.labelRules }).encodeAll spans)
    (hsize : (assemble .v2 settings.project bufs).call.body.length = size)
    (hlt : size < UInt64.size) :
    Delivers settings spans size (assemble .v2 settings.project bufs).call.body := by
  let rules : V2.Rules := { project := settings.project, labels := settings.labelRules }
  have hf : ∀ span, [V2.resource rules span] ≠ [] := fun span => List.cons_ne_nil _ []
  have hfit := allFit_traced (fun span => [V2.resource rules span]) spans
  obtain ⟨ids, hare, hids⟩ := exists_areTraceIds hfit
  have hrequest := assemble_buffers_v2 settings.project (traced_ne_nil hf hne) hfit hids
  rw [← encodeAll_v2, ← hbufs] at hrequest
  rw [Delivers, hv]
  refine ⟨batchWriteSpans settings.project (traced (fun span => [V2.resource rules span]) spans),
    carries_encode (by decide) (by rw [hrequest]) hsize hlt, rfl, ?_⟩
  rw [batchWriteSpans, map_span_traced]
  exact List.map_eq_flatMap.symm

/-- usable settings give an encoder and a sender of their version and project -/
theorem exporter_eq {settings : Settings} (h : settings.check = .ok ()) :
    ∃ o : SenderSettings,
      settings.senderOptions.resolve true = .ok o
      ∧ settings.encoder
          = .ok (.ofVersion settings.apiVersion settings.project settings.labelRules)
      ∧ settings.exporter
          = .ok ⟨.ofVersion settings.apiVersion settings.project settings.labelRules, .ofSettings o⟩
      ∧ o.apiVersion = settings.apiVersion ∧ o.projectId = settings.project
      ∧ o.messageMaxBytes = settings.messageMaxBytes := by
  have hc : checkProject settings.projectId settings.apiVersion settings.strictTraceId = .ok () := h
  have hresolve : settings.senderOptions.resolve true = .ok ⟨settings.apiVersion, settings.project,
      settings.messageMaxBytes, settings.healthCheckSeconds.toNat * 1000⟩ := by
    simp only [SenderOptions.resolve, Settings.senderOptions, hc, if_true]
    rfl
  have hencoder : settings.encoder
      = .ok (.ofVersion settings.apiVersion settings.project settings.labelRules) := by
    rw [Settings.encoder, h]
  refine ⟨_, hresolve, hencoder, ?_, rfl, rfl, rfl⟩
  rw [Settings.exporter, hencoder, hresolve]

theorem delivers_assemble (settings : Settings) {spans : List Span} {size : Nat} {bufs : List Bytes}
    (hne : spans ≠ [])
    (hbufs : bufs = (Encoder.ofVersion settings.apiVersion settings.project
      settings.labelRules).encodeAll spans)
    (hsize : (assemble settings.apiVersion settings.project bufs).call.body.length = size)
    (hlt : size < UInt64.size) :
    Delivers settings spans size
      (assemble settings.apiVersion settings.project bufs).call.body := by
  cases hv : settings.apiVersion with
  | v1 =>
    rw [hv] at hbufs hsize
    exact delivers_v1 settings hv hne hbufs hsize hlt
  | v2 =>
    rw [hv] at hbufs hsize
    exact delivers_v2 settings hv hne hbufs hsize hlt

theorem traceIdLength_le_of_mem_encodeAll {e : Encoder} {spans : List Span} {b : Bytes}
    (hb : b ∈ e.encodeAll spans) : traceIdLength ≤ b.length := by
  obtain ⟨span, _, hb⟩ := List.mem_flatMap.mp hb
  obtain ⟨m, _, rfl⟩ := List.mem_map.mp hb
  rw [List.length_append, TraceId.length_digits]
  exact Nat.le_add_right _ _

theorem encodeAll_ne_nil (e : Encoder) {spans : List Span} (hne : spans ≠ []) :
    e.encodeAll spans ≠ [] := by
  cases e with
  | v1 labels =>
    rw [encodeAll_v1]
    exact fun h0 => traced_ne_nil (V1.fragments_ne_nil labels) hne (List.map_eq_nil_iff.mp h0)
  | v2 rules =>
    rw [encodeAll_v2]
    exact fun h0 => traced_ne_nil (fun span => List.cons_ne_nil (V2.resource rules span) []) hne
      (List.map_eq_nil_iff.mp h0)

/-- Usable settings give an encoder, a sender and an exporter.  In every state that the exporter gets
into, a list of spans whose turn has come, that an open sender has to deliver and whose size is within
the limit, is sent in exactly one call, and its body delivers the spans in the size that was
reported. -/
theorem exporter_delivers (settings : Settings) (h : settings.check = .ok ()) :
    ∃ e : Exporter, settings.exporter = .ok e ∧ settings.encoder = .ok e.encoder
      ∧ (∃ o, settings.senderOptions.resolve true = .ok o ∧ e.system = .ofSettings o)
      ∧ ∀ actions i t signal spans,
        let y := e.system.run actions
        let size := (y.measure (e.encoder.encodeAll spans)).1
        spans ≠ [] → y.tasks[i]? = some t → t.stage = .waiting → t.isGivenUp = false →
        (t.job = e.sendJob spans ∨ t.job = e.enqueueJob spans) → y.sender.isClosed = false →
        size ≤ settings.messageMaxBytes.toNat →
        ∃ body, y.Calls i ⟨settings.apiVersion, body⟩ (y.step (.poll i signal))
          ∧ Delivers settings spans size body := by
  obtain ⟨o, hresolve, hencoder, hexporter, hversion, hproject, hmax⟩ := exporter_eq h
  refine ⟨_, hexporter, hencoder, ⟨o, hresolve, rfl⟩, ?_⟩
  intro actions i t signal spans y size hne ht hw hg hjob hopen hle
  let encoder := Encoder.ofVersion settings.apiVersion settings.project settings.labelRules
  have hb : t.job.batch? = some (encoder.encodeAll spans) := by
    rcases hjob with hjob | hjob <;> rw [hjob] <;> rfl
  have hlong : ∀ b ∈ encoder.encodeAll spans, traceIdLength ≤ b.length :=
    fun b => traceIdLength_le_of_mem_encodeAll
  have hsound : System.Sound o y := (System.sound_ofSettings o).run actions
  have hcalls := (hsound.admission ht hw hg hb signal).sent hopen (encodeAll_ne_nil _ hne) hlong
    (hmax ▸ hle)
  have hsize : size
      = (assemble o.apiVersion o.projectId (encoder.encodeAll spans)).call.body.length :=
    (hsound.measure_eq _).trans (requestSize_eq_length _ _ hlong)
  have hlt : size < UInt64.size := Nat.lt_of_le_of_lt hle settings.messageMaxBytes.toNat_lt
  rw [hversion, hproject] at hcalls hsize
  have hcall : (assemble settings.apiVersion settings.project (encoder.encodeAll spans)).call
      = ⟨settings.apiVersion,
        (assemble settings.apiVersion settings.project (encoder.encodeAll spans)).call.body⟩ :=
    congrArg (Call.mk · _) (version_assemble settings.apiVersion settings.project _)
  rw [hcall] at hcalls
  exact ⟨_, hcalls, delivers_assemble settings hne rfl hsize.symm hlt⟩

/-- a span that belongs to another one is delivered under the settings of a project -/
theorem exporter_delivers_child :
    let settings : Settings := { projectId := some "p", apiVersion := .v1 }
    let span : Span := { traceId := "A1", id := "2", parentId := some "1" }
    settings.check = .ok () ∧ ∃ e : Exporter, settings.exporter = .ok e ∧
      let y := e.system.run [.start (e.sendJob [span])]
      ∃ body, y.Calls 0 ⟨.v1, body⟩ (y.step (.poll 0 (.reply .accepted)))
        ∧ Delivers settings [span] (y.measure (e.encoder.encodeAll [span])).1 body := by
  intro settings span
  refine ⟨rfl, ?_⟩
  obtain ⟨e, he, -, -, hdelivers⟩ := exporter_delivers settings rfl
  obtain rfl : _ = e := Except.ok.inj he
  let fragment := V1.fragment settings.labelRules span .other
  have hsize : (encode fragment).length = Message.size fragment := (LawfulMessage.size_eq _).symm
  have hle : requestSizeOfOne .v1 "p" (32 + Message.size fragment) ≤ 1024 * 1024 := by decide
  refine ⟨_, he, hdelivers [.start (.send _)] 0 _ _ [span] (List.cons_ne_nil _ _) rfl rfl rfl
    (Or.inl rfl) rfl ?_⟩
  show requestSizeOfOne .v1 "p" ((TraceId.ofText "A1").digits ++ encode fragment).length
    ≤ 1024 * 1024
  rw [List.length_append, TraceId.length_digits, hsize]
  exact hle

end SpanCourier
