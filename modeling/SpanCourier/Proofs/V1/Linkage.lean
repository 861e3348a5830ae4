import SpanCourier.V1.Fragment

/-!
# the two sides of a call are linked

The client and the server of a call may record it in one span or in two, and two hosts translate
their spans without knowing of each other.  In the destination the server fragment names the client
fragment as its parent all the same, because both sides compute the identifier of the client half
from what their spans have in common.

* `IsMerged`            a span that shows both sides of a call and says of neither that it is its own;
* `Linked`              the two fragments of such a span;
* `OwnsStart`           whether the server has a span of its own, below that of the client, or shares
                        the span of the client;
* `fragments_linkage`   the fragments of every span, and the link between those of any two.
-/

namespace SpanCourier

/-- the mark moves every identifier -/
theorem SpanId.xor_clientMark_ne (id : SpanId) : id ^^^ clientMark ≠ id := by
  intro h
  have h0 : clientMark = 0 := UInt64.xor_right_inj id |>.mp (h.trans (UInt64.xor_zero).symm)
  exact absurd h0 (by decide)

theorem SpanId.clientHalf_ne {id : SpanId} (h : id ≠ 0) : id.clientHalf ≠ id := by
  rw [clientHalf, if_neg h]
  exact id.xor_clientMark_ne

namespace V1

/-! ## what a span shows -/

/-- an annotation of the client side of a call is there -/
def ShowsClient (span : Span) : Prop :=
  ∃ a ∈ span.annotations, a.value = clientSend ∨ a.value = clientReceive

/-- an annotation of the server side of a call is there -/
def ShowsServer (span : Span) : Prop :=
  ∃ a ∈ span.annotations, a.value = serverReceive ∨ a.value = serverSend

/-- the span shows both sides of a call, and its kind does not tell which of them recorded it -/
structure IsMerged (span : Span) : Prop where
  kind_eq : span.kind = none
  client : ShowsClient span
  server : ShowsServer span

/-- the span started with the host that recorded it: it is not shared, and its start is known -/
structure OwnsStart (span : Span) : Prop where
  shared_eq : span.shared = false
  start : ∃ t, span.timestamp = some t ∧ t ≠ 0

/-- the identifier of a span as it is recorded -/
def recordedId (span : Span) : SpanId := .ofText span.id

/-- the identifier of the parent of a span as it is recorded, zero for a span without a parent -/
def recordedParent (span : Span) : SpanId :=
  match span.parentId with
  | some id => .ofText id
  | none => 0

/-- the kind of what becomes of a span that has a kind itself -/
def kindOf : Kind → SpanKind
  | .client => .rpcClient
  | .server => .rpcServer
  | .producer | .consumer => .unspecified

instance (span : Span) : Decidable (ShowsClient span) :=
  inferInstanceAs (Decidable (∃ a ∈ span.annotations, _))

instance (span : Span) : Decidable (ShowsServer span) :=
  inferInstanceAs (Decidable (∃ a ∈ span.annotations, _))

/-- the kind of the only fragment of a span: its own kind decides, and without one the side that it
shows -/
def onlyKind (span : Span) : SpanKind :=
  match span.kind with
  | some k => kindOf k
  | none =>
    if ShowsClient span then .rpcClient
    else if ShowsServer span then .rpcServer
    else .unspecified

variable {span : Span}

theorem isAnnotatedWith_or_eq_true {first second : String} :
    (span.isAnnotatedWith first || span.isAnnotatedWith second) = true
      ↔ ∃ a ∈ span.annotations, a.value = first ∨ a.value = second := by
  simp only [Span.isAnnotatedWith, Bool.or_eq_true, List.any_eq_true, beq_iff_eq]
  constructor
  · rintro (⟨a, ha, h⟩ | ⟨a, ha, h⟩)
    · exact ⟨a, ha, Or.inl h⟩
    · exact ⟨a, ha, Or.inr h⟩
  · rintro ⟨a, ha, h | h⟩
    · exact Or.inl ⟨a, ha, h⟩
    · exact Or.inr ⟨a, ha, h⟩

theorem clientAnnotated_eq (span : Span) :
    (span.isAnnotatedWith clientSend || span.isAnnotatedWith clientReceive)
      = decide (ShowsClient span) :=
  Bool.eq_iff_iff.mpr (isAnnotatedWith_or_eq_true.trans decide_eq_true_iff.symm)

theorem serverAnnotated_eq (span : Span) :
    (span.isAnnotatedWith serverReceive || span.isAnnotatedWith serverSend)
      = decide (ShowsServer span) :=
  Bool.eq_iff_iff.mpr (isAnnotatedWith_or_eq_true.trans decide_eq_true_iff.symm)

theorem start?_isNone_iff :
    span.start?.isNone = false ↔ ∃ t, span.timestamp = some t ∧ t ≠ 0 := by
  unfold Span.start?
  cases span.timestamp with
  | none => simp
  | some t => by_cases h : t = 0 <;> simp [h]

theorem ownsStart_iff : OwnsStart span ↔ (span.shared || span.start?.isNone) = false := by
  rw [Bool.or_eq_false_iff, start?_isNone_iff]
  exact ⟨fun h => ⟨h.shared_eq, h.start⟩, fun h => ⟨h.1, h.2⟩⟩

/-! ## the sides of a span -/

theorem serverSide_of_ownsStart (h : OwnsStart span) : serverSide span = .server := by
  rw [serverSide, ownsStart_iff.mp h]
  rfl

theorem serverSide_of_not_ownsStart (h : ¬ OwnsStart span) : serverSide span = .sharedServer := by
  rw [ownsStart_iff, Bool.not_eq_false] at h
  rw [serverSide, h]
  rfl

theorem kind_serverSide (span : Span) : (serverSide span).kind = .rpcServer := by
  unfold serverSide
  split <;> rfl

/-- without a kind, the annotations of a span tell its sides -/
theorem sides_of_kind_eq_none (h : span.kind = none) :
    sides span = if ShowsClient span then
        if ShowsServer span then [.client, .splitServer] else [.client]
      else if ShowsServer span then [serverSide span] else [.other] := by
  simp only [sides, h, clientAnnotated_eq, serverAnnotated_eq]
  by_cases hc : ShowsClient span <;> by_cases hs : ShowsServer span <;> simp only [hc, hs] <;> rfl

theorem sides_of_isMerged (h : IsMerged span) : sides span = [.client, .splitServer] := by
  rw [sides_of_kind_eq_none h.kind_eq, if_pos h.client, if_pos h.server]

/-- a span that does not show both sides has one, and on the server its start tells which -/
theorem exists_side_of_not_isMerged (h : ¬ IsMerged span) :
    ∃ side, sides span = [side] ∧ side.kind = onlyKind span
      ∧ (side.kind = .rpcServer → side = serverSide span) := by
  have hserver := kind_serverSide span
  cases hk : span.kind with
  | some k =>
    unfold sides onlyKind
    rw [hk]
    cases k with
    | client => exact ⟨.client, rfl, rfl, fun h => nomatch h⟩
    | server => exact ⟨serverSide span, rfl, hserver, fun _ => rfl⟩
    | producer => exact ⟨.other, rfl, rfl, fun h => nomatch h⟩
    | consumer => exact ⟨.other, rfl, rfl, fun h => nomatch h⟩
  | none =>
    rw [sides_of_kind_eq_none hk, onlyKind, hk]
    by_cases hc : ShowsClient span
    · have hs : ¬ ShowsServer span := fun hs => h ⟨hk, hc, hs⟩
      rw [if_pos hc, if_neg hs]
      exact ⟨.client, rfl, (if_pos hc).symm, fun h => nomatch h⟩
    · rw [if_neg hc]
      by_cases hs : ShowsServer span
      · rw [if_pos hs]
        exact ⟨serverSide span, rfl, hserver.trans (by simp only [if_neg hc, if_pos hs]), fun _ => rfl⟩
      · rw [if_neg hs]
        exact ⟨.other, rfl, by simp only [if_neg hc, if_neg hs]; rfl, fun h => nomatch h⟩

/-! ## identifiers -/

theorem ids_client (span : Span) :
    ids span .client = ((recordedId span).clientHalf, recordedParent span) := by
  unfold ids recordedParent
  cases span.parentId <;> rfl

theorem ids_server (span : Span) :
    ids span .server = (recordedId span, (recordedParent span).clientHalf) := by
  unfold ids recordedParent
  cases span.parentId <;> rfl

theorem ids_other (span : Span) : ids span .other = (recordedId span, recordedParent span) := by
  unfold ids recordedParent
  cases span.parentId <;> rfl

theorem number_injective {j k : SpanKind} (h : j.number = k.number) : j = k := by
  have hj := SpanKind.ofNumber?_number j
  rw [h, SpanKind.ofNumber?_number] at hj
  exact (Option.some.inj hj).symm

/-- the client and the server fragment of one span: the client half hangs below the parent of the
span, and the server below the client half -/
structure Linked (span : Span) (client server : TraceSpan) : Prop where
  kind_client : client.kind = SpanKind.rpcClient.number
  kind_server : server.kind = SpanKind.rpcServer.number
  spanId_client : client.spanId = (recordedId span).clientHalf
  parentSpanId_client : client.parentSpanId = recordedParent span
  spanId_server : server.spanId = recordedId span
  parentSpanId_server : server.parentSpanId = client.spanId
  spanId_ne : recordedId span ≠ 0 → client.spanId ≠ server.spanId

section
variable {rules : LabelRules} {f : TraceSpan}

theorem linked_fragments (rules : LabelRules) (span : Span) :
    Linked span (fragment rules span .client) (fragment rules span .splitServer) where
  kind_client := rfl
  kind_server := rfl
  spanId_client := congrArg Prod.fst (ids_client span)
  parentSpanId_client := congrArg Prod.snd (ids_client span)
  spanId_server := rfl
  parentSpanId_server := rfl
  spanId_ne := SpanId.clientHalf_ne

theorem exists_side_of_mem (h : f ∈ fragments rules span) {k : SpanKind}
    (hkind : f.kind = k.number) : ∃ side : Side, side.kind = k ∧ f = fragment rules span side := by
  obtain ⟨side, -, rfl⟩ := List.mem_map.mp h
  exact ⟨side, number_injective hkind, rfl⟩

/-- a client fragment has the identifier of the client half of its span -/
theorem spanId_of_client (h : f ∈ fragments rules span)
    (hkind : f.kind = SpanKind.rpcClient.number) : f.spanId = (recordedId span).clientHalf := by
  obtain ⟨side, hside, rfl⟩ := exists_side_of_mem h hkind
  cases side with
  | client => rfl
  | server | sharedServer | splitServer | other => cases hside

/-- a fragment of no side has the identifiers of its span -/
theorem ids_of_unspecified (h : f ∈ fragments rules span)
    (hkind : f.kind = SpanKind.unspecified.number) :
    f.spanId = recordedId span ∧ f.parentSpanId = recordedParent span := by
  obtain ⟨side, hside, rfl⟩ := exists_side_of_mem h hkind
  cases side with
  | other => exact Prod.mk.inj (ids_other span)
  | client | server | sharedServer | splitServer => cases hside

/-- a server fragment that is the only one of its span is as the start of the span tells -/
theorem eq_fragment_serverSide (h : fragments rules span = [f])
    (hkind : f.kind = SpanKind.rpcServer.number) :
    f = fragment rules span (serverSide span) := by
  have hmerged : ¬ IsMerged span := fun hm => by
    rw [fragments, sides_of_isMerged hm] at h
    cases h
  obtain ⟨side, hsides, -, hserver⟩ := exists_side_of_not_isMerged hmerged
  rw [fragments, hsides] at h
  cases h
  rw [hserver (number_injective hkind)]

theorem parentSpanId_of_ownsStart (h : fragments rules span = [f])
    (hkind : f.kind = SpanKind.rpcServer.number) (hown : OwnsStart span) :
    f.parentSpanId = (recordedParent span).clientHalf := by
  rw [eq_fragment_serverSide h hkind, serverSide_of_ownsStart hown]
  exact congrArg Prod.snd (ids_server span)

theorem parentSpanId_of_not_ownsStart (h : fragments rules span = [f])
    (hkind : f.kind = SpanKind.rpcServer.number) (hown : ¬ OwnsStart span) :
    f.parentSpanId = (recordedId span).clientHalf := by
  rw [eq_fragment_serverSide h hkind, serverSide_of_not_ownsStart hown]
  rfl

end

theorem not_ownsStart_of (h : span.shared = true ∨ ∀ t, span.timestamp = some t → t = 0) :
    ¬ OwnsStart span := by
  rintro ⟨hshared, t, ht, hne⟩
  rcases h with h | h
  · exact Bool.false_ne_true (hshared.symm.trans h)
  · exact hne (h t ht)

/-- A span that shows both sides of a call becomes a client and a server fragment that are linked, and
every other span becomes one fragment, of the kind of the span if it has one.  The server fragment of
one span is linked to the client fragment of another, under whatever label rules either of them was
translated: by the identifier of the span if the server shares it or does not know its start, and else
by that of its parent.  A server span with a start but without a parent starts a trace, and a fragment
of no side keeps the identifiers of its span. -/
theorem fragments_linkage (rules rules' : LabelRules) :
    (∀ span, IsMerged span →
      ∃ client server, fragments rules span = [client, server] ∧ Linked span client server)
    ∧ (∀ span, ¬ IsMerged span →
      ∃ f, fragments rules span = [f] ∧ f.kind = (onlyKind span).number)
    ∧ (∀ c s client server, client ∈ fragments rules c →
      client.kind = SpanKind.rpcClient.number →
      fragments rules' s = [server] → server.kind = SpanKind.rpcServer.number →
      ((s.shared = true ∨ ∀ t, s.timestamp = some t → t = 0) → recordedId s = recordedId c →
        server.parentSpanId = client.spanId)
      ∧ (s.shared = false → (∃ t, s.timestamp = some t ∧ t ≠ 0) →
        recordedParent s = recordedId c → server.parentSpanId = client.spanId))
    ∧ (∀ s server, fragments rules s = [server] → server.kind = SpanKind.rpcServer.number →
      s.parentId = none → s.shared = false → (∃ t, s.timestamp = some t ∧ t ≠ 0) →
      server.parentSpanId = 0)
    ∧ (∀ span f, f ∈ fragments rules span → f.kind = SpanKind.unspecified.number →
      f.spanId = recordedId span ∧ f.parentSpanId = recordedParent span) := by
  refine ⟨fun span hm => ?_, fun span hm => ?_, fun c s client server hc hck hs hsk => ⟨?_, ?_⟩,
    fun s server hs hsk hroot hshared hstart => ?_, fun span f hf hk => ids_of_unspecified hf hk⟩
  · rw [fragments, sides_of_isMerged hm]
    exact ⟨_, _, rfl, linked_fragments rules span⟩
  · obtain ⟨side, hsides, hkind, -⟩ := exists_side_of_not_isMerged hm
    rw [fragments, hsides]
    exact ⟨_, rfl, congrArg SpanKind.number hkind⟩
  · intro hown hid
    rw [parentSpanId_of_not_ownsStart hs hsk (not_ownsStart_of hown), spanId_of_client hc hck, hid]
  · intro hshared hstart hid
    rw [parentSpanId_of_ownsStart hs hsk ⟨hshared, hstart⟩, spanId_of_client hc hck, hid]
  · rw [parentSpanId_of_ownsStart hs hsk ⟨hshared, hstart⟩, recordedParent, hroot]
    rfl

/-- a call recorded by two hosts that write its identifier in different ways, with a server that shares
the span and one below it, and the same call recorded in one span -/
theorem fragments_linkage_two_hosts :
    let rules : LabelRules := {}
    let merged : Span :=
      { id := "a2", annotations := [⟨10, "sr"⟩, ⟨0, "ms"⟩, ⟨20, "cr"⟩] }
    let c : Span := { id := "00A2", parentId := some "1", kind := some .client }
    let s : Span := { id := "a2", kind := some .server, shared := true, timestamp := some 5 }
    let below : Span :=
      { id := "b3", parentId := some "a2", annotations := [⟨10, "ss"⟩], timestamp := some 5 }
    let root : Span := { below with parentId := none }
    let server span := fragment rules span (serverSide span)
    (∃ client server, fragments rules merged = [client, server] ∧ Linked merged client server)
    ∧ (server s).parentSpanId = (fragment rules c .client).spanId
    ∧ (server below).parentSpanId = (fragment rules c .client).spanId
    ∧ (server root).parentSpanId = 0
    ∧ (fragment rules c .client).spanId = 0xa2 ^^^ clientMark := by
  intro rules merged c s below root server
  obtain ⟨hboth, -, hlink, hroot, -⟩ := fragments_linkage rules rules
  have hc : fragment rules c .client ∈ fragments rules c := List.mem_singleton.mpr rfl
  refine ⟨hboth merged ⟨rfl, by decide, by decide⟩,
    (hlink c s _ (server s) hc rfl rfl rfl).1 (Or.inl rfl) (by decide),
    (hlink c below _ (server below) hc rfl rfl rfl).2 rfl ⟨5, rfl, by decide⟩ (by decide),
    hroot root (server root) rfl rfl rfl rfl ⟨5, rfl, by decide⟩, by decide⟩

end V1

end SpanCourier
