import Mathlib.Data.List.Forall2
import SpanCourier.Proofs.Precedence
import SpanCourier.Proofs.Text.Truncation

/-!
# the texts of a span are cut

A span of the destination shows long texts cut: labels in the v1 API, and in the v2 API the name of
the span, its attributes and the descriptions of its events, each with the number of bytes that it
lacks.

* `IsCounted`     what a cut text with its count is of its source;
* `CutsTexts`     the texts of the fragments and of the resource of a span;
* `texts_are_cut` every text and every span.
-/

namespace SpanCourier

namespace V2

/-- a cut text says how many bytes of its source it lacks, as far as a signed word of 32 bits counts -/
structure IsCounted (max : Nat) (source : String) (c : TruncatableString) : Prop where
  cut : IsCut max source c.value
  count : source.utf8ByteSize < c.value.utf8ByteSize + 2147483648 →
    (c.value.utf8ByteSize : Int) + c.truncatedByteCount.toInt = source.utf8ByteSize
  saturated : c.value.utf8ByteSize + 2147483648 ≤ source.utf8ByteSize →
    c.truncatedByteCount = Int32.maxValue
  whole_iff : c.truncatedByteCount = 0 ↔ c.value = source

theorem toInt_saturatedCount (n : Nat) :
    (saturatedCount n).toInt = if n < 2147483648 then (n : Int) else 2147483647 := by
  rw [saturatedCount]
  by_cases h : n < 2147483648
  · have hle : n ≤ maxCount := Nat.le_sub_one_of_lt h
    rw [if_pos hle, if_pos h, Int32.toInt_ofNat_of_lt h]
  · have hlt : ¬ n ≤ maxCount := fun hle => h (Nat.lt_succ_of_le hle)
    rw [if_neg hlt, if_neg h]
    rfl

theorem isCounted_cutText (max : Nat) (source : String) :
    IsCounted max source (cutText max source) := by
  have hcut := isCut_truncate max source
  have hcount := toInt_saturatedCount (source.utf8ByteSize - (truncate max source).utf8ByteSize)
  have hle : (truncate max source).utf8ByteSize ≤ source.utf8ByteSize :=
    hcut.boundary.le_rawEndPos
  refine ⟨hcut, fun hlt => ?_, fun hge => ?_, ?_⟩
  · have hlt' : (truncate max source).utf8ByteSize + 2147483648 > source.utf8ByteSize := hlt
    show ((truncate max source).utf8ByteSize : Int)
      + (saturatedCount (source.utf8ByteSize - (truncate max source).utf8ByteSize)).toInt = _
    rw [hcount, if_pos (by omega)]
    omega
  · have hge' : (truncate max source).utf8ByteSize + 2147483648 ≤ source.utf8ByteSize := hge
    refine Int32.toInt_inj.mp (hcount.trans ?_)
    rw [if_neg (by omega)]
    rfl
  · -- the count is zero just if nothing is missing, and then the cut text is all of its source
    have hzero : saturatedCount (source.utf8ByteSize - (truncate max source).utf8ByteSize) = 0
        ↔ source.utf8ByteSize - (truncate max source).utf8ByteSize = 0 := by
      rw [← Int32.toInt_inj, hcount, Int32.toInt_zero]
      split <;> omega
    refine hzero.trans ⟨fun h => ?_, fun h => ?_⟩
    · exact hcut.eq_of_size_eq (by omega)
    · have heq : truncate max source = source := h
      rw [heq, Nat.sub_self]

end V2

/-! ## the texts of a span -/

/-- the name that a span shows: that of the recorded span, if it has one that is not empty -/
def V2.nameSource (span : Span) : String :=
  match span.name with
  | none => "unknown"
  | some name => if name = "" then "unknown" else name

theorem V2.nameSource_eq (span : Span) : span.name?.getD unknownName = nameSource span := by
  rw [Span.name?, nameSource]
  cases span.name with
  | none => rfl
  | some name =>
    by_cases h : name = ""
    · subst h
      rfl
    · simp [Option.filter, h]

/-- an event shows an annotation: when it was, and what it says, cut to 256 bytes -/
def V2.ShowsAnnotation (a : Annotation) (e : TimeEvent) : Prop :=
  e.time = some (.ofMicros a.timestamp) ∧ ∃ note c, e.annotation = some note
    ∧ note.description = some c ∧ IsCounted 256 a.value c

/-- how the texts that a span shows are cut, in its fragments of the v1 API and its resource of the v2
API -/
structure CutsTexts (rules : V2.Rules) (span : Span) : Prop where
  labels : ∀ f ∈ V1.fragments rules.labels span, ∀ k v, f.labels.get? k = some v →
    ∃ source, rules.labels.textOf? span (f.kind = V1.SpanKind.rpcServer.number) true k = some source
      ∧ IsCut 8192 source v
  displayName : ∃ c, (V2.resource rules span).displayName = some c
    ∧ V2.IsCounted 128 (V2.nameSource span) c
  attributes : ∀ a, (V2.resource rules span).attributes = some a → ∀ k v, a.map.get? k = some v →
    ∃ source c, rules.textOf? span k = some source ∧ v = some (.text c)
      ∧ V2.IsCounted 256 source c
  noEvents : (V2.resource rules span).timeEvents = none ↔ span.annotations = []
  events : ∀ es, (V2.resource rules span).timeEvents = some es →
    List.Forall₂ V2.ShowsAnnotation span.annotations es.events

theorem cutsTexts (rules : V2.Rules) (span : Span) : CutsTexts rules span where
  labels f hf k v hv := by
    rw [V1.labels_of_mem_fragments hf, LabelRules.get?_labels, Option.map_eq_some_iff] at hv
    obtain ⟨source, hsource, rfl⟩ := hv
    exact ⟨source, hsource, isCut_truncate maxLabelBytes source⟩
  displayName := by
    refine ⟨_, rfl, ?_⟩
    rw [V2.nameSource_eq]
    exact V2.isCounted_cutText V2.maxDisplayNameBytes _
  attributes a ha k v hv := by
    rw [V2.Rules.get?_attributes ha, Option.map_eq_some_iff] at hv
    obtain ⟨source, hsource, rfl⟩ := hv
    exact ⟨source, _, hsource, rfl, V2.isCounted_cutText V2.maxAttributeBytes source⟩
  noEvents := by
    show V2.timeEvents span = none ↔ _
    rw [V2.timeEvents]
    split
    · rename_i h
      exact iff_of_true rfl (List.isEmpty_iff.mp h)
    · rename_i h
      exact iff_of_false (Option.some_ne_none _) fun hnil => h (List.isEmpty_iff.mpr hnil)
  events es hes := by
    have hes' : V2.timeEvents span = some es := hes
    rw [V2.timeEvents] at hes'
    split at hes'
    · cases hes'
    · cases hes'
      rw [List.forall₂_map_right_iff, List.forall₂_same]
      exact fun a _ => ⟨rfl, _, _, rfl, rfl, V2.isCounted_cutText V2.maxAttributeBytes a.value⟩

/-- Cutting a text to a number of bytes gives the longest prefix that fits and ends between two
characters.  So do the labels of a fragment, which are cut to 8192 bytes, and the name, the attributes
and the events of a resource, which say how much they lack. -/
theorem texts_are_cut :
    (∀ max s, IsCut max s (truncate max s)) ∧ ∀ rules span, CutsTexts rules span :=
  ⟨isCut_truncate, cutsTexts⟩

end SpanCourier
