import SpanCourier.Proofs.Json.Records
import SpanCourier.Span.Json

/-!
# spans are read back

A list of spans is read back from the text that is written for it, whatever the spans hold.  The
same list is read from every text in which the members of spans and of their endpoints stand in
another order, have members of other names among them, or are written as null where they may be and
are absent.

* `IsEndpointText`, `IsSpanText`  the texts of an endpoint and of a span;
* `isSpanText_render`             what is written for a span is one of them;
* `Span.describes`                each member of the record reads what a field of the span holds;
* `spans_are_read_back`           lists of spans are read from lists of their texts.
-/

namespace SpanCourier

open Json

/-! ## the members of endpoints and spans -/

/-- the members that an endpoint may have, and the texts of those that it has -/
def Endpoint.fields (e : Endpoint) : List (String × Option Bytes) := [
  ("serviceName", e.serviceName.map renderText),
  ("ipv4", e.ipv4.map renderText),
  ("ipv6", e.ipv6.map renderText),
  ("port", e.port.map fun p => (Value.ofNat p.toNat).render)]

/-- the members of an endpoint that may be null -/
def Endpoint.optional : List String := ["serviceName", "ipv4", "ipv6", "port"]

/-- the members that a span may have, and the texts of those that it has, which for its endpoints
may be any -/
def Span.fields (s : Span) (localText remoteText : Option Bytes) :
    List (String × Option Bytes) := [
  ("traceId", some (renderText s.traceId)),
  ("parentId", s.parentId.map renderText),
  ("id", some (renderText s.id)),
  ("kind", s.kind.map fun k => renderText k.jsonName),
  ("name", s.name.map renderText),
  ("timestamp", s.timestamp.map fun t => (microsValue t).render),
  ("duration", s.duration.map fun t => (microsValue t).render),
  ("localEndpoint", localText),
  ("remoteEndpoint", remoteText),
  ("annotations", if s.annotations.isEmpty then none
    else some (Value.array (s.annotations.map Annotation.toValue)).render),
  ("tags", if s.tags.isEmpty then none else some (tagsValue s.tags).render),
  ("shared", if s.shared then some (utf8 "true") else none)]

/-- the members of a span that may be null -/
def Span.optional : List String :=
  ["parentId", "kind", "name", "timestamp", "duration", "localEndpoint", "remoteEndpoint"]

/-- the texts of an endpoint, without blanks between its members -/
def IsEndpointText (e : Endpoint) (text : Bytes) : Prop :=
  ∃ members, IsForm e.fields Endpoint.optional members ∧ text = namedObject members

/-- the texts of a span, without blanks between its members -/
def IsSpanText (s : Span) (text : Bytes) : Prop :=
  ∃ localText remoteText members, Option.Rel IsEndpointText s.localEndpoint localText
    ∧ Option.Rel IsEndpointText s.remoteEndpoint remoteText
    ∧ IsForm (s.fields localText remoteText) Span.optional members ∧ text = namedObject members

/-! ## what is read so far -/

theorem taken_map {α : Type} {names : List String} {name : String} {text : α → Bytes}
    {a : Option α} (hin : (a.map text).isSome = true → name ∈ names) :
    taken names name a none = a :=
  taken_eq hin fun h => Option.map_eq_none_iff.mp h

def Endpoint.patch (e : Endpoint) (names : List String) : Endpoint where
  serviceName := taken names "serviceName" e.serviceName none
  ipv4 := taken names "ipv4" e.ipv4 none
  ipv6 := taken names "ipv6" e.ipv6 none
  port := taken names "port" e.port none

def Annotation.patch (a : Annotation) (names : List String) : Annotation where
  timestamp := taken names "timestamp" a.timestamp 0
  value := taken names "value" a.value ""

def Span.patch (s : Span) (names : List String) : Span where
  traceId := taken names "traceId" s.traceId ""
  parentId := taken names "parentId" s.parentId none
  id := taken names "id" s.id ""
  kind := taken names "kind" s.kind none
  name := taken names "name" s.name none
  timestamp := taken names "timestamp" s.timestamp none
  duration := taken names "duration" s.duration none
  localEndpoint := taken names "localEndpoint" s.localEndpoint none
  remoteEndpoint := taken names "remoteEndpoint" s.remoteEndpoint none
  annotations := taken names "annotations" s.annotations []
  tags := taken names "tags" s.tags ∅
  shared := taken names "shared" s.shared false

theorem Endpoint.patch_eq (e : Endpoint) {names : List String}
    (hnames : ∀ f ∈ e.fields, f.2.isSome = true → f.1 ∈ names) : e.patch names = e := by
  simp only [Endpoint.fields, List.forall_mem_cons] at hnames
  obtain ⟨hservice, hipv4, hipv6, hport, -⟩ := hnames
  rw [Endpoint.patch, taken_map hservice, taken_map hipv4, taken_map hipv6, taken_map hport]

theorem Span.patch_eq (s : Span) {localText remoteText : Option Bytes} {names : List String}
    (hlocal : localText = none → s.localEndpoint = none)
    (hremote : remoteText = none → s.remoteEndpoint = none)
    (hnames : ∀ f ∈ s.fields localText remoteText, f.2.isSome = true → f.1 ∈ names) :
    s.patch names = s := by
  simp only [Span.fields, List.forall_mem_cons] at hnames
  obtain ⟨htraceId, hparentId, hid, hkind, hname, htimestamp, hduration, hlocalIn, hremoteIn,
    hannotations, htags, hshared, -⟩ := hnames
  have hnoTags (h : s.tags.isEmpty = true) : s.tags = ∅ := Dict.ext_entries (List.isEmpty_iff.mp h)
  rw [Span.patch, taken_eq htraceId (fun h => nomatch h), taken_map hparentId,
    taken_eq hid (fun h => nomatch h), taken_map hkind, taken_map hname, taken_map htimestamp,
    taken_map hduration, taken_eq hlocalIn hlocal, taken_eq hremoteIn hremote,
    taken_eq hannotations (by simp), taken_eq htags (by simpa using hnoTags),
    taken_eq hshared (by simp)]

/-! ## single members -/

theorem reads_micros (t : UInt64) : Reads micros.read (microsValue t).render t := by
  have hmax : UInt64.size - 1 < UInt64.size := by decide
  have hnat : Reads (Shape.nat "u64" (UInt64.size - 1)).read (microsValue t).render t.toNat :=
    reads_nat (Nat.le_pred_of_lt t.toNat_lt) hmax
  have hword := hnat.map UInt64.ofNat
  rw [UInt64.ofNat_toNat] at hword
  exact hword

theorem reads_port (p : UInt16) :
    Reads ((Shape.nat "u16" (UInt16.size - 1)).map UInt16.ofNat).read (Value.ofNat p.toNat).render
      p := by
  have hmax : UInt16.size - 1 < UInt64.size := by decide
  have hnat : Reads (Shape.nat "u16" (UInt16.size - 1)).read (Value.ofNat p.toNat).render
      p.toNat := reads_nat (Nat.le_pred_of_lt p.toNat_lt) hmax
  have hword := hnat.map UInt16.ofNat
  rw [UInt16.ofNat_toNat] at hword
  exact hword

theorem reads_kind (k : Kind) : Reads (Shape.variant Kind.names).read (renderText k.jsonName) k :=
  reads_variant (by cases k <;> rfl) (isTextOf_renderText _)

/-! ## what is written -/

theorem present_append (fields fields' : List (String × Option Bytes)) :
    present (fields ++ fields') = present fields ++ present fields' := List.filterMap_append

theorem render_member (name : String) (v : Value) :
    [(name, v)].map (fun m => (m.1, m.2.render)) = present [(name, some v.render)] := rfl

theorem render_optionalMember {α : Type} (name : String) (f : α → Value) (a : Option α) :
    (optionalMember name f a).map (fun m => (m.1, m.2.render))
      = present [(name, a.map fun a => (f a).render)] := by
  cases a <;> rfl

theorem render_memberUnless (b : Bool) (name : String) (v : Value) :
    (if b then [] else [(name, v)]).map (fun m => (m.1, m.2.render))
      = present [(name, if b then none else some v.render)] := by
  cases b <;> rfl

theorem render_memberIf (b : Bool) (name : String) (v : Value) :
    (if b then [(name, v)] else []).map (fun m => (m.1, m.2.render))
      = present [(name, if b then some v.render else none)] := by
  cases b <;> rfl

/-! ## endpoints -/

theorem Endpoint.describes (e : Endpoint) :
    Endpoint.record.Describes e.patch Endpoint.optional e.fields e where
  distinct := by decide
  blank := rfl
  reflects := by
    -- one line for each member, in the order of the record
    refine
      .cons (reflects_nullable definite_string (rel_map reads_string _) ?_) <|
      .cons (reflects_nullable definite_string (rel_map reads_string _) ?_) <|
      .cons (reflects_nullable definite_string (rel_map reads_string _) ?_) <|
      .cons (reflects_nullable ((definite_nat _ _).map _) (rel_map reads_port _) ?_) <|
      .nil
    all_goals
      intro names
      simp [Endpoint.patch, taken]
  value _ := e.patch_eq

theorem render_endpoint (e : Endpoint) : e.toValue.render = namedObject (present e.fields) := by
  rw [Endpoint.toValue, render_object]
  simp only [List.map_append, render_optionalMember, ← present_append, Value.render]
  rfl

theorem reads_endpointText {e : Endpoint} {text : Bytes} (h : IsEndpointText e text) :
    Reads Endpoint.record.shape.read text e := by
  obtain ⟨members, hform, rfl⟩ := h
  exact e.describes.reads hform

theorem isEndpointText_render (e : Endpoint) : IsEndpointText e e.toValue.render :=
  ⟨present e.fields, isForm_present _ _, render_endpoint e⟩

/-! ## annotations, tags and what is shared -/

namespace Annotation

def fields (a : Annotation) : List (String × Option Bytes) := [
  ("timestamp", some (microsValue a.timestamp).render),
  ("value", some (renderText a.value))]

theorem describes (a : Annotation) : record.Describes a.patch [] a.fields a where
  distinct := by decide
  blank := rfl
  reflects := by
    refine
      .cons (reflects_required (reads_micros a.timestamp) ?_) <|
      .cons (reflects_required (reads_string a.value) ?_) <|
      .nil
    all_goals
      intro names
      simp [patch, taken]
  value names hnames := by
    simp only [fields, List.forall_mem_cons] at hnames
    obtain ⟨htimestamp, hvalue, -⟩ := hnames
    rw [patch, taken_eq htimestamp fun h => absurd h (Option.some_ne_none _),
      taken_eq hvalue fun h => absurd h (Option.some_ne_none _)]

theorem reads_render (a : Annotation) : Reads record.shape.read a.toValue.render a := by
  rw [toValue, render_object]
  exact a.describes.reads (isForm_present a.fields [])

end Annotation

theorem reads_annotations (as : List Annotation) :
    Reads Annotation.record.shape.list.read (Value.array (as.map Annotation.toValue)).render
      as := by
  rw [render_array, List.map_map]
  refine reads_list (List.forall₂_map_left_iff.mpr (List.forall₂_same.mpr fun a _ => ?_))
  exact a.reads_render

theorem reads_tags (tags : Dict String) :
    Reads Shape.string.dict.read (tagsValue tags).render tags := by
  have hread := reads_dict (.members _) (isMember_render reads_string tags.entries)
  rw [Dict.ofEntries_entries] at hread
  rw [tagsValue, render_object, List.map_map, namedObject_eq, List.map_map]
  exact hread

/-- a member that is left out for some values is read where it is there -/
theorem reads_unless {α : Type} {r : Reader α} {b : Bool} {t : Bytes} {a : α} (h : Reads r t a) :
    ∀ text, (if b then none else some t) = some text → Reads r text a := by
  intro text htext
  cases b with
  | true => cases htext
  | false => exact Option.some.inj htext ▸ h

theorem reads_shared (b : Bool) :
    ∀ text, (if b then some (utf8 "true") else none) = some text →
      Reads Shape.bool.read text b := by
  intro text htext
  cases b with
  | true => exact Option.some.inj htext ▸ reads_bool true
  | false => cases htext

/-! ## spans -/

theorem Span.describes (s : Span) {localText remoteText : Option Bytes}
    (hlocal : Option.Rel (Reads Endpoint.record.shape.read) localText s.localEndpoint)
    (hremote : Option.Rel (Reads Endpoint.record.shape.read) remoteText s.remoteEndpoint) :
    Span.record.Describes s.patch Span.optional (s.fields localText remoteText) s where
  distinct := by decide
  blank := rfl
  reflects := by
    refine
      .cons (reflects_required (reads_string _) ?_) <|
      .cons (reflects_nullable definite_string (rel_map reads_string _) ?_) <|
      .cons (reflects_required (reads_string _) ?_) <|
      .cons (reflects_nullable (definite_variant _) (rel_map reads_kind _) ?_) <|
      .cons (reflects_nullable definite_string (rel_map reads_string _) ?_) <|
      .cons (reflects_nullable ((definite_nat _ _).map _) (rel_map reads_micros _) ?_) <|
      .cons (reflects_nullable ((definite_nat _ _).map _) (rel_map reads_micros _) ?_) <|
      .cons (reflects_nullable (definite_record _) hlocal ?_) <|
      .cons (reflects_nullable (definite_record _) hremote ?_) <|
      .cons (reflects_optional (by decide) (reads_unless (reads_annotations _)) ?_) <|
      .cons (reflects_optional (by decide) (reads_unless (reads_tags _)) ?_) <|
      .cons (reflects_optional (by decide) (reads_shared _) ?_) <|
      .nil
    all_goals
      intro names
      simp [Span.patch, taken]
  value _ := by
    have habsent {t : Option Bytes} {e : Option Endpoint}
        (h : Option.Rel (Reads Endpoint.record.shape.read) t e) (ht : t = none) : e = none := by
      cases h with
      | none => rfl
      | some => cases ht
    exact s.patch_eq (habsent hlocal) (habsent hremote)

theorem render_span (s : Span) : s.render = namedObject (present
    (s.fields (s.localEndpoint.map fun e => e.toValue.render)
      (s.remoteEndpoint.map fun e => e.toValue.render))) := by
  rw [Span.render, Span.toValue, render_object]
  simp only [List.map_append, render_member, render_optionalMember, render_memberUnless,
    render_memberIf, ← present_append, Value.render]
  rfl

theorem isSpanText_render (s : Span) : IsSpanText s s.render := by
  have hrel (e : Option Endpoint) :
      Option.Rel IsEndpointText e (e.map fun e => e.toValue.render) := by
    cases e with
    | none => exact .none
    | some e => exact .some (isEndpointText_render e)
  exact ⟨_, _, _, hrel _, hrel _, isForm_present _ _, render_span s⟩

theorem reads_spanText {s : Span} {text : Bytes} (h : IsSpanText s text) :
    Reads Span.record.shape.read text s := by
  have hrel {e : Option Endpoint} {t : Option Bytes} (h : Option.Rel IsEndpointText e t) :
      Option.Rel (Reads Endpoint.record.shape.read) t e := by
    cases h with
    | none => exact .none
    | some h => exact .some (reads_endpointText h)
  obtain ⟨localText, remoteText, members, hlocal, hremote, hform, rfl⟩ := h
  exact (s.describes (hrel hlocal) (hrel hremote)).reads hform

theorem renderSpans_eq (spans : List Span) :
    renderSpans spans = arrayText (spans.map Span.render) := by
  rw [renderSpans, render_array, List.map_map]
  rfl

theorem decodeSpans_eq {spans : List Span} {texts : List Bytes}
    (h : List.Forall₂ IsSpanText spans texts) : decodeSpans (arrayText texts) = .ok spans :=
  parse_eq (reads_list (h.flip.imp fun _ _ hs => reads_spanText hs))

/-- Spans of any content are read back from what is written for them.  They are also read from every
list of their texts, in which the members of a span and of its endpoints have any order, others may
stand among them, and null may stand for what is absent. -/
theorem spans_are_read_back (spans : List Span) :
    decodeSpans (renderSpans spans) = .ok spans
      ∧ ∀ texts, List.Forall₂ IsSpanText spans texts →
          decodeSpans (arrayText texts) = .ok spans := by
  have hwritten : List.Forall₂ IsSpanText spans (spans.map Span.render) :=
    List.forall₂_map_right_iff.mpr (List.forall₂_same.mpr fun s _ => isSpanText_render s)
  refine ⟨?_, fun texts htexts => decodeSpans_eq htexts⟩
  rw [renderSpans_eq]
  exact decodeSpans_eq hwritten

/-- a span with its members in another order, one of another name and one that is null, and with an
endpoint of which no more than such members are there, before a span as it is written -/
theorem spans_are_read_back_rearranged :
    let first : Span := { traceId := "a", id := "b", localEndpoint := some {} }
    let second : Span := { traceId := "c", id := "d", name := some "\n", shared := true }
    decodeSpans (utf8 ("[\x7b\"x\":[1e3],\"id\":\"b\",\"localEndpoint\":\x7b\"z\":true,\"port\":null\x7d,"
        ++ "\"kind\":null,\"traceId\":\"a\"\x7d,"
        ++ "\x7b\"traceId\":\"c\",\"id\":\"d\",\"name\":\"\\n\",\"shared\":true\x7d]"))
      = .ok [first, second] := by
  intro first second
  let endpoint := namedObject [("z", utf8 "true"), ("port", utf8 "null")]
  have hendpoint : IsEndpointText {} endpoint :=
    ⟨_, ⟨["port"], [("z", utf8 "true")], List.nodup_singleton _,
      List.forall_mem_singleton.mpr (by decide), List.forall_mem_singleton.mpr ⟨by decide, .true⟩,
      by decide⟩, rfl⟩
  have hthousand : IsJson (arrayText [utf8 "1e3"]) := by
    have hdigits : ∀ d : UInt8, Number.isDigit d = true → IsDigits [d] :=
      fun d hd => ⟨List.cons_ne_nil d [], List.forall_mem_singleton.mpr hd⟩
    have hspelled : Number.IsSpelled ⟨false, [0x31], [], some (false, [0x33])⟩ [] [0x65, 0x33] :=
      ⟨.digits (by decide) (hdigits 0x31 rfl), .absent, .unsigned (.inl rfl) (hdigits 0x33 rfl)⟩
    exact .array (List.forall_mem_singleton.mpr (.number hspelled))
  let text := namedObject [("x", arrayText [utf8 "1e3"]), ("id", renderText "b"),
    ("localEndpoint", endpoint), ("kind", utf8 "null"), ("traceId", renderText "a")]
  have hfirst : IsSpanText first text :=
    ⟨some endpoint, none, _, .some hendpoint, .none, ⟨["kind"], [("x", arrayText [utf8 "1e3"])],
      List.nodup_singleton _, List.forall_mem_singleton.mpr (by decide),
      List.forall_mem_singleton.mpr ⟨by decide, hthousand⟩, by decide⟩, rfl⟩
  have hread := (spans_are_read_back [first, second]).2 [text, second.render]
    (.cons hfirst (.cons (isSpanText_render second) .nil))
  rw [← hread]
  exact congrArg decodeSpans (by decide +kernel)

end SpanCourier
