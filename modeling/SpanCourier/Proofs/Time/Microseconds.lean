import SpanCourier.Proofs.V1.Times
import SpanCourier.V2.Resource

/-!
# microseconds at the destination

A time that is counted in microseconds becomes whole seconds and the nanoseconds after them.  Nothing is
lost on the way over all the times that 64 bits can count, so that different times stay different and
earlier ones earlier.  The end of a span is counted before the change of unit, and is the last time of
all if it would be past that.  So a span starts and ends at the destination as far apart as it was
recorded, in both versions of the API.

* `isBefore_ofMicros`     the order of times;
* `lasts_addMicros`       an end that is counted from a start;
* `keepsDuration_resource`, `keepsDuration_fragment`  spans of both versions;
* `times_keep_microseconds`  all of it.
-/

namespace SpanCourier

/-! ## single times -/

namespace Timestamp

/-- one time is before another: by its seconds, then by the nanoseconds after them -/
def IsBefore (t u : Timestamp) : Prop :=
  t.seconds < u.seconds ∨ t.seconds = u.seconds ∧ t.nanos < u.nanos

theorem toInt_bounds_ofMicros (micros : UInt64) :
    0 ≤ (ofMicros micros).seconds.toInt ∧ 0 ≤ (ofMicros micros).nanos.toInt
      ∧ (ofMicros micros).nanos.toInt < 1000000000 := by
  rw [toInt_seconds_ofMicros, toInt_nanos_ofMicros]
  omega

theorem injective_ofMicros : Function.Injective ofMicros := by
  intro a b h
  have hmicros := congrArg toMicros h
  rw [toMicros_ofMicros, toMicros_ofMicros] at hmicros
  exact UInt64.toNat_inj.mp (Int.ofNat_inj.mp hmicros)

theorem isBefore_ofMicros (a b : UInt64) : (ofMicros a).IsBefore (ofMicros b) ↔ a < b := by
  unfold IsBefore
  rw [Int64.lt_iff_toInt_lt, ← Int64.toInt_inj, Int32.lt_iff_toInt_lt, toInt_seconds_ofMicros,
    toInt_seconds_ofMicros, toInt_nanos_ofMicros, toInt_nanos_ofMicros, UInt64.lt_iff_toNat_lt]
  omega

end Timestamp

/-- a change of unit that loses nothing -/
structure KeepsMicros (stamp : UInt64 → Timestamp) : Prop where
  /-- the whole seconds, and none of them is cut off -/
  seconds : ∀ micros : UInt64, (stamp micros).seconds.toInt = (micros.toNat / 1000000 : Nat)
  /-- the microseconds after them in nanoseconds, and none of these is cut off -/
  nanos : ∀ micros : UInt64, (stamp micros).nanos.toInt = (micros.toNat % 1000000 * 1000 : Nat)
  bounds : ∀ micros : UInt64, 0 ≤ (stamp micros).seconds.toInt
    ∧ 0 ≤ (stamp micros).nanos.toInt ∧ (stamp micros).nanos.toInt < 1000000000
  micros : ∀ micros : UInt64, (stamp micros).seconds.toInt * 1000000
    + (stamp micros).nanos.toInt / 1000 = micros.toNat
  injective : Function.Injective stamp
  order : ∀ a b, (stamp a).IsBefore (stamp b) ↔ a < b

theorem keepsMicros_ofMicros : KeepsMicros Timestamp.ofMicros where
  seconds := Timestamp.toInt_seconds_ofMicros
  nanos := Timestamp.toInt_nanos_ofMicros
  bounds := Timestamp.toInt_bounds_ofMicros
  micros := Timestamp.toMicros_ofMicros
  injective := Timestamp.injective_ofMicros
  order := Timestamp.isBefore_ofMicros

/-! ## from a start to an end -/

/-- an end is so many microseconds after a start, or the last time that is counted if that is too late -/
structure Lasts (start duration : UInt64) (a b : Timestamp) : Prop where
  starts : a.toMicros = start.toNat
  ordered : ¬ b.IsBefore a
  lasts : start.toNat + duration.toNat ≤ 18446744073709551615 →
    b.toMicros - a.toMicros = duration.toNat
  capped : 18446744073709551615 < start.toNat + duration.toNat →
    b = .ofMicros 18446744073709551615

theorem lasts_addMicros (start duration : UInt64) :
    Lasts start duration (.ofMicros start) (.ofMicros (addMicros start duration)) := by
  have hadd := toNat_addMicros start duration
  have hlt := start.toNat_lt
  have hsize : UInt64.size = 18446744073709551616 := rfl
  constructor
  · exact Timestamp.toMicros_ofMicros start
  · rw [Timestamp.isBefore_ofMicros, UInt64.lt_iff_toNat_lt]
    omega
  · intro hle
    rw [Timestamp.toMicros_ofMicros, Timestamp.toMicros_ofMicros]
    omega
  · intro hgt
    have hlast : addMicros start duration = 18446744073709551615 := by
      apply UInt64.toNat_inj.mp
      show (addMicros start duration).toNat = 18446744073709551615
      omega
    rw [hlast]

/-- a span has both times if it has a start of its own, which is not zero, and they are as far apart as
its duration says, if it has one -/
structure KeepsDuration (span : Span) (start stop : Option Timestamp) : Prop where
  start_isSome : start.isSome = true ↔ ∃ t, span.timestamp = some t ∧ t ≠ 0
  stop_isSome : stop.isSome = true ↔ ∃ t, span.timestamp = some t ∧ t ≠ 0
  lasts : ∀ t a b, span.timestamp = some t → start = some a → stop = some b →
    Lasts t (span.duration.getD 0) a b

theorem keepsDuration_of_start? {span : Span} {t : UInt64} (h : span.start? = some t) :
    KeepsDuration span (some (.ofMicros t))
      (some (.ofMicros (addMicros t (span.duration.getD 0)))) := by
  have hstart := V1.start?_eq_some_iff.mp h
  constructor
  · exact iff_of_true rfl ⟨t, hstart⟩
  · exact iff_of_true rfl ⟨t, hstart⟩
  · intro t' a b ht' ha hb
    obtain rfl : t = t' := Option.some.inj (hstart.1.symm.trans ht')
    cases ha
    cases hb
    exact lasts_addMicros t _

theorem keepsDuration_of_start?_eq_none {span : Span} (h : span.start? = none) :
    KeepsDuration span none none := by
  have hnot : ¬ ∃ t, span.timestamp = some t ∧ t ≠ 0 := by
    rintro ⟨t, ht⟩
    have hsome := V1.start?_eq_some_iff.mpr ht
    rw [h] at hsome
    cases hsome
  constructor
  · exact iff_of_false Bool.false_ne_true hnot
  · exact iff_of_false Bool.false_ne_true hnot
  · intro t a b _ ha
    cases ha

/-- a duration of zero is as good as none -/
theorem Span.duration?_getD (span : Span) : span.duration?.getD 0 = span.duration.getD 0 := by
  unfold duration?
  cases span.duration with
  | none => rfl
  | some d =>
    by_cases h : d = 0
    · rw [h]
      rfl
    · rw [Option.filter_some, if_pos (decide_eq_true h)]

/-! ## spans of the v2 API -/

theorem keepsDuration_resource (rules : V2.Rules) (span : Span) :
    KeepsDuration span (V2.resource rules span).startTime (V2.resource rules span).endTime := by
  show KeepsDuration span (span.start?.map .ofMicros)
    (span.start?.map fun start => .ofMicros (V2.endOf span start))
  cases h : span.start? with
  | none => exact keepsDuration_of_start?_eq_none h
  | some t =>
    have hend : V2.endOf span t = addMicros t (span.duration.getD 0) := by
      rw [V2.endOf, Span.duration?_getD]
    rw [Option.map_some, Option.map_some, hend]
    exact keepsDuration_of_start? h

/-! ## fragments of the v1 API -/

namespace V1

variable {span : Span}

/-- a source is the first of some sources that gives a start and an end -/
inductive IsFirst (span : Span) (source : Source) : List Source → Prop
  | here {rest : List Source} {a b : UInt64} (given : source.Gives span a b) :
      IsFirst span source (source :: rest)
  | later {other : Source} {rest : List Source} (silent : ∀ a b, ¬ other.Gives span a b)
      (next : IsFirst span source rest) : IsFirst span source (other :: rest)

theorem Source.interval?_eq_none {source : Source} (h : ∀ a b, ¬ source.Gives span a b) :
    source.interval? span = none :=
  Option.eq_none_iff_forall_ne_some.mpr fun i hi => h i.1 i.2 (Source.gives_iff.mpr hi)

theorem IsFirst.findSome?_eq {source : Source} {sources : List Source}
    (h : IsFirst span source sources) :
    sources.findSome? (·.interval? span) = source.interval? span := by
  induction h with
  | here given => rw [List.findSome?_cons, Source.gives_iff.mp given]
  | later silent _ ih => rw [List.findSome?_cons, Source.interval?_eq_none silent, ih]

/-- a source that is the first gives times -/
theorem IsFirst.exists_gives {source : Source} {sources : List Source}
    (h : IsFirst span source sources) : ∃ a b, source.Gives span a b := by
  induction h with
  | here given => exact ⟨_, _, given⟩
  | later _ _ ih => exact ih

/-- the start alone tells the times only where there is no duration beside it -/
theorem IsFirst.recorded_silent {side : Side} (h : IsFirst span .instant side.sources) :
    ∀ a b, ¬ Source.recorded.Gives span a b := by
  cases side with
  | splitServer =>
    cases h with
    | later _ next => cases next
  | client | server | sharedServer | other =>
    cases h with
    | later silent _ => exact silent

theorem duration?_eq_none_of_silent {t : UInt64} (h : span.start? = some t)
    (hsilent : ∀ a b, ¬ Source.recorded.Gives span a b) : span.duration? = none := by
  cases hd : span.duration? with
  | none => rfl
  | some d =>
    exfalso
    apply hsilent t (addMicros t d)
    rw [Source.gives_iff]
    exact recorded?_eq_some_iff.mpr ⟨h, d, hd, rfl⟩

/-- where the times of a fragment come from the start of the span, they are its start and its end -/
theorem interval?_of_isFirst {side : Side} {source : Source}
    (hsource : source = .recorded ∨ source = .instant) (h : IsFirst span source side.sources) :
    ∃ t, span.start? = some t
      ∧ interval? span side = some (t, addMicros t (span.duration.getD 0)) := by
  have heq : interval? span side = source.interval? span := by
    rw [interval?_eq, h.findSome?_eq]
  rw [heq]
  obtain ⟨a, b, hgives⟩ := h.exists_gives
  rw [Source.gives_iff] at hgives
  rcases hsource with rfl | rfl
  · obtain ⟨hstart, d, hd, rfl⟩ := recorded?_eq_some_iff.mp hgives
    refine ⟨a, hstart, ?_⟩
    rw [hgives, ← Span.duration?_getD, hd]
    rfl
  · obtain ⟨t, hstart, hi⟩ := Option.map_eq_some_iff.mp hgives
    cases hi
    refine ⟨a, hstart, ?_⟩
    rw [hgives, ← Span.duration?_getD, duration?_eq_none_of_silent hstart h.recorded_silent]
    have hself : addMicros a 0 = a := by
      apply UInt64.toNat_inj.mp
      have hlt : a.toNat < UInt64.size := a.toNat_lt
      rw [toNat_addMicros, UInt64.toNat_zero]
      omega
    rw [Option.getD_none, hself]

theorem keepsDuration_fragment (rules : LabelRules) {side : Side} {source : Source}
    (hsource : source = .recorded ∨ source = .instant) (h : IsFirst span source side.sources) :
    KeepsDuration span (fragment rules span side).startTime (fragment rules span side).endTime := by
  obtain ⟨t, hstart, hinterval⟩ := interval?_of_isFirst hsource h
  show KeepsDuration span ((interval? span side).map fun i => .ofMicros i.1)
    ((interval? span side).map fun i => .ofMicros i.2)
  rw [hinterval]
  exact keepsDuration_of_start? hstart

end V1

/-- Every number of microseconds is kept as seconds and nanoseconds, in order.  So a span of the v2 API
has a start and an end if the recorded span has a start that is not zero; the end is never before the
start, and as much later as the duration says, or the last time of all if that is too late.  The same
holds of the fragments of the v1 API that take their times from the start of the span, with the duration
or alone. -/
theorem times_keep_microseconds :
    KeepsMicros Timestamp.ofMicros
    ∧ (∀ rules span, KeepsDuration span (V2.resource rules span).startTime
      (V2.resource rules span).endTime)
    ∧ ∀ rules span, ∀ side ∈ V1.sides span, ∀ source : V1.Source,
      source = .recorded ∨ source = .instant → V1.IsFirst span source side.sources →
      KeepsDuration span (V1.fragment rules span side).startTime
        (V1.fragment rules span side).endTime := by
  refine ⟨keepsMicros_ofMicros, keepsDuration_resource, fun rules span side _ source hsource h => ?_⟩
  exact V1.keepsDuration_fragment rules hsource h

/-- a client that ends at the last time of all, one that would end after it, and a server whose
annotations lack one of their times -/
theorem times_keep_microseconds_at_the_end :
    let rules : LabelRules := {}
    let span (duration : UInt64) : Span :=
      { kind := some .client, timestamp := some 18446744073709551610, duration := some duration }
    let server : Span :=
      { kind := some .server, timestamp := some 7, duration := some 0, annotations := [⟨9, "sr"⟩] }
    KeepsDuration (span 5) (V1.fragment rules (span 5) .client).startTime
        (V1.fragment rules (span 5) .client).endTime
      ∧ KeepsDuration (span 6) (V1.fragment rules (span 6) .client).startTime
        (V1.fragment rules (span 6) .client).endTime
      ∧ KeepsDuration server (V1.fragment rules server .server).startTime
        (V1.fragment rules server .server).endTime := by
  intro rules span server
  obtain ⟨-, -, hfragments⟩ := times_keep_microseconds
  have hclient (duration stop : UInt64) (h : duration ≠ 0)
      (hstop : stop.toNat = min (18446744073709551610 + duration.toNat) (UInt64.size - 1)) :
      V1.IsFirst (span duration) .recorded V1.Side.client.sources :=
    .here (.recorded rfl (by decide) rfl h hstop)
  have hsilent (source : V1.Source) (h : source.interval? server = none) :
      ∀ a b, ¬ source.Gives server a b := by
    intro a b hgives
    rw [V1.Source.gives_iff, h] at hgives
    cases hgives
  have hserver : V1.IsFirst server .instant V1.Side.server.sources := by
    apply V1.IsFirst.later (hsilent .recorded rfl)
    apply V1.IsFirst.later (hsilent .client rfl)
    apply V1.IsFirst.later (hsilent .server rfl)
    exact .here (.instant rfl (by decide))
  refine ⟨?_, ?_, ?_⟩
  · exact hfragments rules (span 5) .client (by decide) .recorded (.inl rfl)
      (hclient 5 18446744073709551615 (by decide) rfl)
  · exact hfragments rules (span 6) .client (by decide) .recorded (.inl rfl)
      (hclient 6 18446744073709551615 (by decide) rfl)
  · exact hfragments rules server .server (by decide) .instant (.inr rfl) hserver

end SpanCourier
