import Mathlib.Data.List.Nodup
import SpanCourier.Proofs.V1.Linkage

/-!
# start and end of fragments

A recorded span can tell in four ways when it was: by its start and its duration, by the annotations of
either side of a call, or by its start alone.  A fragment takes both its start and its end from the first
way that gives both.  The server half of a span that shows both sides only looks at its own annotations,
as what else the span tells is about the client.

* `Source.Gives`       what a way to tell the time says of a span;
* `FirstGiven`         the first of some ways that says anything;
* `fragments_times`    the times of the fragments of every span, and what has no bearing on them.
-/

namespace SpanCourier

/-- the first annotation with a value is from a time -/
def FirstAt (span : Span) (value : String) (t : UInt64) : Prop :=
  ∃ before after, span.annotations = before ++ ⟨t, value⟩ :: after ∧ ∀ a ∈ before, a.value ≠ value

theorem Span.timeOf?_eq_some_iff {span : Span} {value : String} {t : UInt64} :
    span.timeOf? value = some t ↔ FirstAt span value t := by
  rw [timeOf?, Option.map_eq_some_iff]
  constructor
  · rintro ⟨⟨time, v⟩, hfind, rfl⟩
    obtain ⟨hvalue, before, after, hsplit, hbefore⟩ := List.find?_eq_some_iff_append.mp hfind
    obtain rfl : v = value := beq_iff_eq.mp hvalue
    exact ⟨before, after, hsplit, fun a ha => by simpa using hbefore a ha⟩
  · rintro ⟨before, after, hsplit, hbefore⟩
    refine ⟨⟨t, value⟩, List.find?_eq_some_iff_append.mpr ⟨beq_self_eq_true _, before, after, hsplit, ?_⟩, rfl⟩
    exact fun a ha => by simpa using hbefore a ha

/-- a span with other annotations -/
def Span.withAnnotations (span : Span) (annotations : List Annotation) : Span :=
  { span with annotations }

/-- if no two annotations have the same value, each of them is the first with its value -/
theorem Span.timeOf?_eq_some_iff_mem {span : Span} (h : (span.annotations.map (·.value)).Nodup)
    {value : String} {t : UInt64} :
    span.timeOf? value = some t ↔ (⟨t, value⟩ : Annotation) ∈ span.annotations := by
  constructor
  · intro ht
    obtain ⟨before, after, hsplit, -⟩ := timeOf?_eq_some_iff.mp ht
    rw [hsplit]
    exact List.mem_append_right _ List.mem_cons_self
  · intro hmem
    obtain ⟨before, after, hsplit⟩ := List.append_of_mem hmem
    refine timeOf?_eq_some_iff.mpr ⟨before, after, hsplit, fun a ha hvalue => ?_⟩
    rw [hsplit, List.map_append, List.nodup_append] at h
    exact h.2.2 a.value (List.mem_map_of_mem ha) value List.mem_cons_self hvalue

theorem Span.timeOf?_withAnnotations_perm {span : Span} {annotations : List Annotation}
    (hperm : annotations.Perm span.annotations) (h : (span.annotations.map (·.value)).Nodup)
    (value : String) : (span.withAnnotations annotations).timeOf? value = span.timeOf? value := by
  have h' : ((span.withAnnotations annotations).annotations.map (·.value)).Nodup :=
    (hperm.map _).nodup_iff.mpr h
  refine Option.ext fun t => ?_
  rw [timeOf?_eq_some_iff_mem h, timeOf?_eq_some_iff_mem h']
  exact hperm.mem_iff

theorem toNat_addMicros (a b : UInt64) :
    (addMicros a b).toNat = min (a.toNat + b.toNat) (UInt64.size - 1) := by
  rw [addMicros]
  split
  · rename_i h
    rw [UInt64.toNat_add, Nat.mod_eq_of_lt h]
    omega
  · rename_i h
    rw [UInt64.toNat_ofNat_of_lt' (by decide)]
    omega

namespace V1

/-! ## the ways to tell the time -/

inductive Source where
  /-- start and duration -/
  | recorded
  /-- the annotations of the client -/
  | client
  /-- the annotations of the server -/
  | server
  /-- the start alone -/
  | instant
  deriving DecidableEq

/-- a source of a span gives a start and an end -/
inductive Source.Gives (span : Span) : Source → UInt64 → UInt64 → Prop
  | recorded {t d e : UInt64} (start : span.timestamp = some t) (start_ne : t ≠ 0)
      (duration : span.duration = some d) (duration_ne : d ≠ 0)
      (stop : e.toNat = min (t.toNat + d.toNat) (UInt64.size - 1)) : Gives span .recorded t e
  | client {a b : UInt64} (sent : FirstAt span "cs" a) (received : FirstAt span "cr" b) :
      Gives span .client a b
  | server {a b : UInt64} (received : FirstAt span "sr" a) (sent : FirstAt span "ss" b) :
      Gives span .server a b
  | instant {t : UInt64} (start : span.timestamp = some t) (start_ne : t ≠ 0) :
      Gives span .instant t t

/-- the sources in the order in which they are asked -/
def Source.inOrder : List Source := [.recorded, .client, .server, .instant]

/-- start and end as the first of some sources gives them, none if no source gives any -/
inductive FirstGiven (span : Span) : List Source → Option (UInt64 × UInt64) → Prop
  | nil : FirstGiven span [] none
  | here {source : Source} {rest : List Source} {a b : UInt64} (given : source.Gives span a b) :
      FirstGiven span (source :: rest) (some (a, b))
  | later {source : Source} {rest : List Source} {i : Option (UInt64 × UInt64)}
      (silent : ∀ a b, ¬ source.Gives span a b) (next : FirstGiven span rest i) :
      FirstGiven span (source :: rest) i

/-- the times of a fragment are those of the first of some sources that gives any -/
def TimedBy (span : Span) (sources : List Source) (f : TraceSpan) : Prop :=
  ∃ i, FirstGiven span sources i
    ∧ f.startTime = i.map (fun i => .ofMicros i.1) ∧ f.endTime = i.map (fun i => .ofMicros i.2)

/-! ## each source -/

variable {span : Span}

def Source.interval? (span : Span) : Source → Option (UInt64 × UInt64)
  | .recorded => recorded? span
  | .client => between? span clientSend clientReceive
  | .server => between? span serverReceive serverSend
  | .instant => span.start?.map fun start => (start, start)

theorem between?_eq_some_iff {first last : String} {a b : UInt64} :
    between? span first last = some (a, b) ↔ FirstAt span first a ∧ FirstAt span last b := by
  rw [← Span.timeOf?_eq_some_iff, ← Span.timeOf?_eq_some_iff, between?]
  split
  · rename_i ha hb
    simp [ha, hb]
  · rename_i h
    exact iff_of_false (fun h => nomatch h) fun hab => h a b hab.1 hab.2

theorem start?_eq_some_iff {t : UInt64} :
    span.start? = some t ↔ span.timestamp = some t ∧ t ≠ 0 := by
  rw [Span.start?, Option.filter_eq_some_iff, decide_eq_true_iff]

theorem duration?_eq_some_iff {d : UInt64} :
    span.duration? = some d ↔ span.duration = some d ∧ d ≠ 0 := by
  rw [Span.duration?, Option.filter_eq_some_iff, decide_eq_true_iff]

theorem recorded?_eq_some_iff {a b : UInt64} :
    recorded? span = some (a, b)
      ↔ span.start? = some a ∧ ∃ d, span.duration? = some d ∧ b = addMicros a d := by
  rw [recorded?]
  split
  · rename_i hs hd
    simp only [hs, hd, Option.some.injEq, Prod.mk.injEq]
    constructor
    · rintro ⟨rfl, rfl⟩
      exact ⟨rfl, _, rfl, rfl⟩
    · rintro ⟨rfl, d, rfl, rfl⟩
      exact ⟨rfl, rfl⟩
  · rename_i h
    refine iff_of_false (fun h => nomatch h) ?_
    rintro ⟨hs, d, hd, -⟩
    exact h a d hs hd

theorem Source.gives_iff {source : Source} {a b : UInt64} :
    source.Gives span a b ↔ source.interval? span = some (a, b) := by
  cases source with
  | recorded =>
    rw [interval?, recorded?_eq_some_iff, start?_eq_some_iff]
    constructor
    · intro h
      cases h with
      | recorded hs hsne hd hdne hstop =>
        refine ⟨⟨hs, hsne⟩, _, duration?_eq_some_iff.mpr ⟨hd, hdne⟩, UInt64.toNat_inj.mp ?_⟩
        rw [hstop, toNat_addMicros]
    · rintro ⟨⟨hs, hsne⟩, d, hd, rfl⟩
      obtain ⟨hd, hdne⟩ := duration?_eq_some_iff.mp hd
      exact .recorded hs hsne hd hdne (toNat_addMicros a d)
  | client =>
    rw [interval?, between?_eq_some_iff]
    exact ⟨fun h => by cases h with | client hs hr => exact ⟨hs, hr⟩, fun h => .client h.1 h.2⟩
  | server =>
    rw [interval?, between?_eq_some_iff]
    exact ⟨fun h => by cases h with | server hr hs => exact ⟨hr, hs⟩, fun h => .server h.1 h.2⟩
  | instant =>
    simp only [interval?, Option.map_eq_some_iff, Prod.mk.injEq, start?_eq_some_iff]
    constructor
    · intro h
      cases h with
      | instant hs hsne => exact ⟨a, ⟨hs, hsne⟩, rfl, rfl⟩
    · rintro ⟨t, ⟨hs, hsne⟩, rfl, rfl⟩
      exact .instant hs hsne

theorem firstGiven_findSome? (span : Span) (sources : List Source) :
    FirstGiven span sources (sources.findSome? (·.interval? span)) := by
  induction sources with
  | nil => exact .nil
  | cons source rest ih =>
    rw [List.findSome?_cons]
    cases h : source.interval? span with
    | some i => exact .here (Source.gives_iff.mpr h)
    | none =>
      refine .later (fun a b hgives => ?_) ih
      rw [Source.gives_iff, h] at hgives
      cases hgives

/-! ## the times of a fragment -/

/-- the sources that a fragment asks -/
def Side.sources : Side → List Source
  | .splitServer => [.server]
  | .client | .server | .sharedServer | .other => Source.inOrder

theorem findSome?_cons_or {α β : Type} (f : α → Option β) (a : α) (as : List α) :
    (a :: as).findSome? f = (f a).or (as.findSome? f) := by
  rw [List.findSome?_cons]
  cases f a <;> rfl

theorem interval?_eq (span : Span) (side : Side) :
    interval? span side = side.sources.findSome? (·.interval? span) := by
  cases side with
  | splitServer | client | server | sharedServer | other =>
    simp only [Side.sources, Source.inOrder, findSome?_cons_or, List.findSome?_nil, Option.or_none]
    rfl

theorem timedBy_fragment (rules : LabelRules) (span : Span) (side : Side) :
    TimedBy span side.sources (fragment rules span side) := by
  refine ⟨interval? span side, ?_, rfl, rfl⟩
  rw [interval?_eq]
  exact firstGiven_findSome? span side.sources

theorem TimedBy.isSome_eq {sources : List Source} {f : TraceSpan} (h : TimedBy span sources f) :
    f.startTime.isSome = f.endTime.isSome := by
  obtain ⟨i, -, hs, he⟩ := h
  rw [hs, he, Option.isSome_map, Option.isSome_map]

theorem sources_of_ne {side : Side} (h : side ≠ .splitServer) : side.sources = Source.inOrder := by
  cases side with
  | splitServer => exact absurd rfl h
  | client | server | sharedServer | other => rfl

theorem serverSide_ne_splitServer (span : Span) : serverSide span ≠ .splitServer := by
  intro h
  rw [serverSide] at h
  split at h <;> cases h

theorem timedBy_of_isMerged (rules : LabelRules) (h : IsMerged span) :
    ∃ client server, fragments rules span = [client, server]
      ∧ TimedBy span Source.inOrder client ∧ TimedBy span [.server] server := by
  rw [fragments, sides_of_isMerged h]
  exact ⟨_, _, rfl, timedBy_fragment rules span .client, timedBy_fragment rules span .splitServer⟩

theorem timedBy_of_not_isMerged (rules : LabelRules) (h : ¬ IsMerged span) :
    ∃ f, fragments rules span = [f] ∧ TimedBy span Source.inOrder f := by
  obtain ⟨side, hsides, -, hserver⟩ := exists_side_of_not_isMerged h
  have hne : side ≠ .splitServer := by
    rintro rfl
    exact serverSide_ne_splitServer span (hserver rfl).symm
  have htimed := timedBy_fragment rules span side
  rw [sources_of_ne hne] at htimed
  rw [fragments, hsides]
  exact ⟨_, rfl, htimed⟩

/-! ## what has no bearing on the times -/

theorem FirstGiven.eq_findSome? {sources : List Source} {i : Option (UInt64 × UInt64)}
    (h : FirstGiven span sources i) : i = sources.findSome? (·.interval? span) := by
  induction h with
  | nil => rfl
  | here given => rw [List.findSome?_cons, Source.gives_iff.mp given]
  | @later source rest i silent next ih =>
    have hnone : source.interval? span = none :=
      Option.eq_none_iff_forall_ne_some.mpr fun i h => silent i.1 i.2 (Source.gives_iff.mpr h)
    rw [List.findSome?_cons, hnone]
    exact ih

/-- two spans of which some sources say the same give the same times from them -/
theorem TimedBy.congr {span span' : Span} {sources : List Source} {f f' : TraceSpan}
    (h : TimedBy span sources f) (h' : TimedBy span' sources f')
    (hgives : ∀ source ∈ sources, source.interval? span = source.interval? span') :
    f.startTime = f'.startTime ∧ f.endTime = f'.endTime := by
  obtain ⟨i, hi, hs, he⟩ := h
  obtain ⟨i', hi', hs', he'⟩ := h'
  have hmap (s : Span) : sources.findSome? (·.interval? s)
      = (sources.map (·.interval? s)).findSome? id := by
    rw [List.findSome?_map]
    rfl
  obtain rfl : i = i' := by
    rw [hi.eq_findSome?, hi'.eq_findSome?, hmap, hmap, List.map_congr_left hgives]
  exact ⟨hs.trans hs'.symm, he.trans he'.symm⟩

theorem isMerged_of_fragments_eq {rules : LabelRules} {client server : TraceSpan}
    (h : fragments rules span = [client, server]) : IsMerged span := by
  by_contra hm
  obtain ⟨f, hf, -⟩ := timedBy_of_not_isMerged rules hm
  rw [hf] at h
  cases h

/-- the server half of a span that shows both sides only looks at the annotations of the server -/
theorem timedBy_server {rules : LabelRules} {client server : TraceSpan}
    (h : fragments rules span = [client, server]) : TimedBy span [.server] server := by
  obtain ⟨_, _, hf, -, hserver⟩ := timedBy_of_isMerged rules (isMerged_of_fragments_eq h)
  rw [hf] at h
  cases h
  exact hserver

theorem interval?_server_congr {span span' : Span}
    (h : ∀ value ∈ ["sr", "ss"], ∀ t, FirstAt span value t ↔ FirstAt span' value t) :
    Source.server.interval? span = Source.server.interval? span' := by
  have htime : ∀ value ∈ ["sr", "ss"], span.timeOf? value = span'.timeOf? value := by
    refine fun value hvalue => Option.ext fun t => ?_
    rw [Span.timeOf?_eq_some_iff, Span.timeOf?_eq_some_iff]
    exact h value hvalue t
  simp only [Source.interval?, between?, serverReceive, serverSend]
  rw [htime "sr" (by decide), htime "ss" (by decide)]

/-- what a fragment is apart from its labels -/
def unlabelled (f : TraceSpan) : TraceSpan := { f with labels := ∅ }

section
variable {annotations : List Annotation}
  (h : ∀ value, (span.withAnnotations annotations).timeOf? value = span.timeOf? value)
include h

theorem sides_withAnnotations : sides (span.withAnnotations annotations) = sides span := by
  unfold sides
  simp only [Span.isAnnotatedWith_iff, h]
  rfl

theorem unlabelled_fragment_withAnnotations (rules rules' : LabelRules) (side : Side) :
    unlabelled (fragment rules (span.withAnnotations annotations) side)
      = unlabelled (fragment rules' span side) := by
  have hinterval : interval? (span.withAnnotations annotations) side = interval? span side := by
    unfold interval? between?
    simp only [h]
    rfl
  unfold unlabelled fragment
  rw [hinterval]
  rfl

end

theorem unlabelled_fragments_perm (rules rules' : LabelRules) {annotations : List Annotation}
    (hperm : annotations.Perm span.annotations) (h : (span.annotations.map (·.value)).Nodup) :
    (fragments rules (span.withAnnotations annotations)).map unlabelled
      = (fragments rules' span).map unlabelled := by
  have htimes := Span.timeOf?_withAnnotations_perm hperm h
  rw [fragments, fragments, sides_withAnnotations htimes, List.map_map, List.map_map]
  exact List.map_congr_left fun side _ =>
    unlabelled_fragment_withAnnotations htimes rules rules' side

/-- A fragment has both a start and an end or neither, and they are those of the first source that gives
any: start and duration of the span, where the end is the greatest time if the sum is too large, then the
annotations of the client, those of the server, and the start alone.  The server half of a span that
shows both sides asks its own annotations only, so whatever else two spans tell, these halves have the
same times if the first annotations of the server are from the same times.  And where each annotation
has a value of its own, their order has no bearing on anything but the labels. -/
theorem fragments_times (rules rules' : LabelRules) :
    (∀ span f, f ∈ fragments rules span → f.startTime.isSome = f.endTime.isSome)
    ∧ (∀ span, IsMerged span → ∃ client server, fragments rules span = [client, server]
      ∧ TimedBy span Source.inOrder client ∧ TimedBy span [.server] server)
    ∧ (∀ span, ¬ IsMerged span → ∃ f, fragments rules span = [f] ∧ TimedBy span Source.inOrder f)
    ∧ (∀ span span' client client' server server', fragments rules span = [client, server] →
      fragments rules' span' = [client', server'] →
      (∀ value ∈ ["sr", "ss"], ∀ t, FirstAt span value t ↔ FirstAt span' value t) →
      server.startTime = server'.startTime ∧ server.endTime = server'.endTime)
    ∧ ∀ span annotations, annotations.Perm span.annotations →
      (span.annotations.map (·.value)).Nodup →
      (fragments rules (span.withAnnotations annotations)).map unlabelled
        = (fragments rules' span).map unlabelled := by
  refine ⟨fun span f hf => ?_, fun span hm => timedBy_of_isMerged rules hm,
    fun span hm => timedBy_of_not_isMerged rules hm, fun span span' c c' s s' hs hs' h => ?_,
    fun span annotations hperm h => unlabelled_fragments_perm rules rules' hperm h⟩
  · obtain ⟨side, -, rfl⟩ := List.mem_map.mp hf
    exact (timedBy_fragment rules span side).isSome_eq
  · refine (timedBy_server hs).congr (timedBy_server hs') fun source hsource => ?_
    rw [List.mem_singleton.mp hsource]
    exact interval?_server_congr h

/-- a span that shows both sides of a call, with times of its own, another that shows more of them and
other times, and a client whose end would be past the last time -/
theorem fragments_times_merged :
    let rules : LabelRules := {}
    let merged : Span :=
      { id := "a2", timestamp := some 7, annotations := [⟨1, "cs"⟩, ⟨10, "sr"⟩, ⟨30, "ss"⟩] }
    let other : Span :=
      { annotations := [⟨20, "cr"⟩, ⟨2, "cs"⟩, ⟨10, "sr"⟩, ⟨30, "ss"⟩, ⟨5, "sr"⟩] }
    let late : Span :=
      { kind := some .client, timestamp := some 18446744073709551615, duration := some 1 }
    let server span := fragment rules span .splitServer
    TimedBy merged [.server] (server merged)
      ∧ (server merged).startTime = (server other).startTime
      ∧ (server merged).endTime = (server other).endTime
      ∧ TimedBy late Source.inOrder (fragment rules late .client)
      ∧ (fragments rules (merged.withAnnotations [⟨30, "ss"⟩, ⟨10, "sr"⟩, ⟨1, "cs"⟩])).map unlabelled
        = (fragments rules merged).map unlabelled := by
  intro rules merged other late server
  obtain ⟨-, hmerged, honly, hserver, hperm⟩ := fragments_times rules rules
  have hfirst (t : UInt64) : FirstAt merged "sr" t ↔ FirstAt other "sr" t := by
    rw [← Span.timeOf?_eq_some_iff, ← Span.timeOf?_eq_some_iff]
    rfl
  have hlast (t : UInt64) : FirstAt merged "ss" t ↔ FirstAt other "ss" t := by
    rw [← Span.timeOf?_eq_some_iff, ← Span.timeOf?_eq_some_iff]
    rfl
  have htimes := hserver merged other _ _ (server merged) (server other) rfl rfl
    (List.forall_mem_cons.mpr ⟨hfirst, List.forall_mem_singleton.mpr hlast⟩)
  refine ⟨?_, htimes.1, htimes.2, ?_, hperm merged _ (by decide) (by decide)⟩
  · obtain ⟨client, s, hf, -, hs⟩ := hmerged merged ⟨rfl, by decide, by decide⟩
    cases hf
    exact hs
  · obtain ⟨f, hf, htimed⟩ := honly late fun h => nomatch h.kind_eq
    cases hf
    exact htimed

end V1

end SpanCourier
