import SpanCourier.Proofs.V1.Linkage

/-!
# the identifiers of fragments

Zero stands for no span, so the identifier of a fragment should not be zero when the identifier of its
span is not, and different spans should have different client halves.  Marking an identifier is an
exclusive or that leaves zero alone.  This takes the mark itself to zero, from where nothing leads
back to it, and is right for every other identifier.

* `SpanId.clientHalf_eq_zero_iff`   which client halves are no identifiers;
* `SpanId.clientHalf_eq_iff`        which identifiers share a client half;
* `V1.spanId_fragments`             what this means for the fragments of spans.
-/

namespace SpanCourier

namespace SpanId

variable {a b id : SpanId}

theorem clientMark_ne_zero : clientMark ≠ 0 := by decide

theorem clientHalf_zero : clientHalf 0 = 0 := rfl

theorem clientHalf_clientMark : clientHalf clientMark = 0 := by decide

theorem clientHalf_of_ne (h : id ≠ 0) : id.clientHalf = id ^^^ clientMark := by
  rw [clientHalf, if_neg h]

theorem clientHalf_eq_zero_iff : id.clientHalf = 0 ↔ id = 0 ∨ id = clientMark := by
  by_cases h : id = 0
  · rw [h, clientHalf_zero]
    exact iff_of_true rfl (Or.inl rfl)
  · rw [clientHalf_of_ne h, UInt64.xor_eq_zero_iff, or_iff_right h]

theorem clientHalf_clientHalf_iff : id.clientHalf.clientHalf = id ↔ id ≠ clientMark := by
  constructor
  · intro h hmark
    rw [hmark, clientHalf_clientMark, clientHalf_zero] at h
    exact clientMark_ne_zero h.symm
  · exact clientHalf_clientHalf

/-- two identifiers that are not zero are told apart by their client halves as well -/
theorem clientHalf_inj (ha : a ≠ 0) (hb : b ≠ 0) : a.clientHalf = b.clientHalf ↔ a = b := by
  rw [clientHalf_of_ne ha, clientHalf_of_ne hb]
  exact UInt64.xor_left_inj clientMark

/-- zero and the mark share their client half, and no other two identifiers do -/
theorem clientHalf_eq_iff :
    a.clientHalf = b.clientHalf ↔ a = b ∨ a = 0 ∧ b = clientMark ∨ a = clientMark ∧ b = 0 := by
  by_cases ha : a = 0
  · subst ha
    rw [clientHalf_zero, eq_comm, clientHalf_eq_zero_iff, eq_comm (a := b)]
    simp [clientMark_ne_zero.symm]
  · by_cases hb : b = 0
    · subst hb
      rw [clientHalf_zero, clientHalf_eq_zero_iff]
      simp [ha]
    · rw [clientHalf_inj ha hb]
      simp [ha, hb]

end SpanId

namespace V1

variable {rules : LabelRules} {span : Span} {f : TraceSpan}

/-- a fragment that is no client has the identifier of its span -/
theorem spanId_of_not_client (h : f ∈ fragments rules span)
    (hkind : f.kind ≠ SpanKind.rpcClient.number) : f.spanId = recordedId span := by
  obtain ⟨side, -, rfl⟩ := List.mem_map.mp h
  cases side with
  | client => exact absurd rfl hkind
  | server | sharedServer | splitServer | other => rfl

/-- a fragment has no identifier if its span has none, or if it is the client half of a span that has
the mark as its identifier -/
theorem spanId_eq_zero_iff (h : f ∈ fragments rules span) :
    f.spanId = 0 ↔ recordedId span = 0
      ∨ recordedId span = clientMark ∧ f.kind = SpanKind.rpcClient.number := by
  by_cases hkind : f.kind = SpanKind.rpcClient.number
  · rw [spanId_of_client h hkind, SpanId.clientHalf_eq_zero_iff]
    simp [hkind]
  · rw [spanId_of_not_client h hkind]
    simp [hkind]

/-- A fragment has an identifier if its span has one, save the client fragment of a span whose
identifier is the mark.  Client fragments of spans with different identifiers, neither of them zero,
have different identifiers, under whatever label rules they were translated.  And marking an identifier
twice gives it back, if it is not the mark. -/
theorem spanId_fragments (rules rules' : LabelRules) :
    (∀ span f, f ∈ fragments rules span →
      (f.spanId = 0 ↔ recordedId span = 0
        ∨ recordedId span = clientMark ∧ f.kind = SpanKind.rpcClient.number))
    ∧ (∀ a b client client', client ∈ fragments rules a → client' ∈ fragments rules' b →
      client.kind = SpanKind.rpcClient.number → client'.kind = SpanKind.rpcClient.number →
      (client.spanId = client'.spanId ↔ recordedId a = recordedId b
        ∨ recordedId a = 0 ∧ recordedId b = clientMark
        ∨ recordedId a = clientMark ∧ recordedId b = 0))
    ∧ ∀ id : SpanId, id.clientHalf.clientHalf = id ↔ id ≠ clientMark := by
  refine ⟨fun span f hf => spanId_eq_zero_iff hf, fun a b c c' hc hc' hk hk' => ?_,
    fun id => SpanId.clientHalf_clientHalf_iff⟩
  rw [spanId_of_client hc hk, spanId_of_client hc' hk']
  exact SpanId.clientHalf_eq_iff

/-- a client span whose identifier is one bit away from the mark, and one whose identifier is the client
half of the first -/
theorem spanId_fragments_near_mark :
    let rules : LabelRules := {}
    let a : Span := { id := "3f6a2ec3c810c2aa", kind := some .client }
    let b : Span := { id := "1", kind := some .client }
    (fragment rules a .client).spanId ≠ 0
      ∧ (fragment rules a .client).spanId ≠ (fragment rules b .client).spanId := by
  intro rules a b
  obtain ⟨hzero, hsame, -⟩ := spanId_fragments rules rules
  have ha : fragment rules a .client ∈ fragments rules a := List.mem_singleton.mpr rfl
  have hb : fragment rules b .client ∈ fragments rules b := List.mem_singleton.mpr rfl
  constructor
  · rw [Ne, hzero a _ ha]
    decide
  · rw [Ne, hsame a b _ _ ha hb rfl rfl]
    decide

/-- the mark itself is an identifier, its client half is none, and marking it twice loses it -/
theorem spanId_of_marked_client :
    let span : Span := { id := "3f6a2ec3c810c2ab", kind := some .client }
    recordedId span ≠ 0 ∧ (∃ f ∈ fragments {} span, f.spanId = 0)
      ∧ (recordedId span).clientHalf.clientHalf ≠ recordedId span := by
  refine ⟨by decide, ⟨fragment {} _ .client, List.mem_singleton.mpr rfl, ?_⟩, by decide⟩
  decide

end V1

end SpanCourier
