import Mathlib.Data.List.Forall2
import SpanCourier.Proofs.Delivery
import SpanCourier.Proofs.Sender.Cancelling

/-!
# the buffers of an encoder

A buffer of an encoder holds one span of the destination under the identifier of the trace.  It can be
split and its span read back, its length is known without writing it, and it is never too short, so
that no sender refuses a batch of an encoder for a short buffer, however the run of its task goes.

* `Holds`                  what the buffers of a span hold;
* `Encoder.size_eq`        the size that an encoder reports;
* `Task.Spared`            a task that was not refused for a short buffer;
* `encoder_buffers`        all of it, for every encoder and every list of spans.
-/

namespace SpanCourier

open Wire

/-! ## what a buffer holds -/

/-- Each of the buffers holds one of the messages, in their order, under the identifier of a trace.  A
message is read back from its bytes if a word counts them. -/
def Holds {α : Type} [Message α] (traceId : String) (ms : List α) (bufs : List Bytes) : Prop :=
  List.Forall₂ (fun m buf => traceIdLength ≤ buf.length ∧ ∃ bytes,
    splitBuffer? buf = some ((TraceId.ofText traceId).digits, bytes)
      ∧ (buf.length < UInt64.size → decode α bytes = some m)) ms bufs

/-- the buffers of a span hold what the span becomes in the version of the encoder -/
def Encoder.HoldsSpan (e : Encoder) (span : Span) : Prop :=
  match e with
  | .v1 labels => Holds span.traceId (V1.fragments labels span) (e.buffers span)
  | .v2 rules => Holds span.traceId [V2.resource rules span] (e.buffers span)

theorem length_prefixed (traceId : String) (bytes : Bytes) :
    ((TraceId.ofText traceId).digits ++ bytes).length = traceIdLength + bytes.length := by
  have hdigits : (TraceId.ofText traceId).digits.length = traceIdLength := TraceId.length_digits _
  rw [List.length_append, hdigits]

theorem holds_map {α : Type} [Message α] [LawfulMessage α] (hd : LawfulMessage.height α ≤ depthLimit)
    (traceId : String) (ms : List α) :
    Holds traceId ms ((ms.map encode).map ((TraceId.ofText traceId).digits ++ ·)) := by
  rw [Holds, List.map_map, List.forall₂_map_right_iff, List.forall₂_same]
  intro m _
  have hlength := length_prefixed traceId (encode m)
  refine ⟨?_, encode m, splitBuffer?_append (encode m) (TraceId.length_digits _), fun hlt => ?_⟩
  · rw [Function.comp_apply, hlength]
    exact Nat.le_add_right _ _
  · rw [Function.comp_apply, hlength] at hlt
    exact decode_encode m hd (Nat.lt_of_le_of_lt (Nat.le_add_left _ _) hlt)

namespace Encoder

theorem holdsSpan (e : Encoder) (span : Span) : e.HoldsSpan span := by
  cases e with
  | v1 labels => exact holds_map (by decide) span.traceId (V1.fragments labels span)
  | v2 rules => exact holds_map (by decide) span.traceId [V2.resource rules span]

theorem length_messages (e : Encoder) (span : Span) :
    (e.messages span).length = 1 ∨ (e.messages span).length = 2 := by
  cases e with
  | v1 labels =>
    rw [messages, List.length_map]
    rcases V1.fragments_eq labels span with ⟨s, h⟩ | ⟨c, s, h, -⟩
    · exact Or.inl (by rw [h]; rfl)
    · exact Or.inr (by rw [h]; rfl)
  | v2 rules => exact Or.inl rfl

/-- the size of a span is counted field by field, and its buffers have as many bytes -/
theorem size_eq (e : Encoder) (span : Span) : e.size span = total List.length (e.buffers span) := by
  have htotal : total List.length (e.buffers span)
      = total (fun bytes => traceIdLength + bytes.length) (e.messages span) := by
    rw [buffers, total_map]
    exact total_congr fun bytes _ => length_prefixed span.traceId bytes
  rw [htotal]
  cases e with
  | v1 labels =>
    rw [size, messages, total_map]
    exact total_congr fun s _ => by rw [LawfulMessage.size_eq]
  | v2 rules => rw [size, messages, total_cons, total_nil, LawfulMessage.size_eq, Nat.add_zero]

end Encoder

/-! ## a task that is not refused for a short buffer -/

/-- the outcome of a batch with a short buffer -/
def Outcome.IsShort (outcome : Outcome) : Prop :=
  ∃ index length, outcome = .failed (.shortBuffer index length)

theorem Sender.not_isShort_replyToSend (s : Sender) (now : Nat) (r : Reply) :
    ¬ (s.replyToSend now r).1.IsShort := by
  rintro ⟨index, length, h⟩
  cases r with
  | accepted => cases h
  | refused status =>
    simp only [replyToSend] at h
    split at h
    · cases h
    · split at h <;> cases h

theorem Sender.not_isShort_startSend {s : Sender} (hp : s.Pooled) {bufs : List Bytes}
    (hlong : ∀ b ∈ bufs, traceIdLength ≤ b.length) {outcome : Outcome}
    (h : (s.startSend bufs).1 = .done outcome) : ¬ outcome.IsShort := by
  rintro ⟨index, length, rfl⟩
  cases hc : s.isClosed with
  | true =>
    rw [startSend_of_isClosed hc] at h
    cases h
  | false =>
    by_cases hne : bufs = []
    · rw [hne, startSend_of_isEmpty hc] at h
      cases h
    · rcases Nat.lt_or_ge s.settings.messageMaxBytes.toNat (s.requestSize bufs) with hlt | hge
      · rw [startSend_of_tooLarge hp hc hne hlong hlt] at h
        cases h
      · rw [startSend_of_le hp hc hne hlong hge] at h
        cases h

namespace Task

/-- a task that neither ended for a short buffer nor told its callback so -/
structure Spared (t : Task) : Prop where
  outcome : ∀ outcome, t.outcome? = some outcome → ¬ outcome.IsShort
  told : ∀ outcome ∈ t.told, ¬ outcome.IsShort

variable {t : Task} {outcome : Outcome}

theorem spared_new (job : Job) : Spared { job } :=
  ⟨fun _ h => (nomatch h), fun _ h => nomatch h⟩

theorem Spared.finish (h : t.Spared) (ho : ¬ outcome.IsShort) : (t.finish outcome).Spared :=
  ⟨fun _ h' => Option.some.inj h' ▸ ho, h.told⟩

theorem Spared.complete (h : t.Spared) (ho : ¬ outcome.IsShort) : (t.complete outcome).Spared := by
  have htold : Spared { t with told := t.told ++ [outcome] } := by
    refine ⟨h.outcome, fun o hmem => ?_⟩
    rcases List.mem_append.mp hmem with hmem | hmem
    · exact h.told o hmem
    · exact List.mem_singleton.mp hmem ▸ ho
  unfold Task.complete
  split
  · exact h.finish ho
  · split
    · exact htold.finish ho
    · exact htold.finish (by rintro ⟨_, _, ⟨⟩⟩)

theorem Spared.heed (h : t.Spared) (s : Sender) (signal : Signal) :
    (t.heed s signal).Spared := by
  cases signal with
  | quiet =>
    rw [Task.heed]
    split
    · exact h.complete (by rintro ⟨_, _, ⟨⟩⟩)
    · exact h
  | reply r => exact h.complete (s.not_isShort_replyToSend 0 r)
  | crash report => exact h.finish (by rintro ⟨_, _, ⟨⟩⟩)

/-- a batch without short buffers is not refused for one, whatever happens to its task -/
theorem Spared.act (h : t.Spared) {s : Sender} (hp : s.Pooled) {bufs : List Bytes}
    (hlong : ∀ b ∈ bufs, traceIdLength ≤ b.length) (i : Nat) (a : Action) :
    (t.act s bufs i a).Spared := by
  have hturn : ∀ signal, (t.turn s bufs signal).Spared := by
    intro signal
    unfold turn
    split
    · exact h
    · exact h.heed s signal
    · split
      · exact h.complete (by rintro ⟨_, _, ⟨⟩⟩)
      · split
        · rename_i hstart
          exact h.complete (Sender.not_isShort_startSend hp hlong hstart)
        · rename_i c _
          have hcalling : Spared { t with stage := .calling c } :=
            ⟨fun _ h' => (nomatch h'), h.told⟩
          exact hcalling.heed s signal
  cases a with
  | poll j signal =>
    rw [Task.act]
    split
    · exact hturn signal
    · exact h
  | cancel j =>
    rw [Task.act]
    split
    · exact ⟨h.outcome, h.told⟩
    · exact h
  | _ => exact h

theorem Spared.dropped (h : t.Spared) : t.dropped.Spared := by
  rw [Task.dropped]
  split
  · exact h.finish (by rintro ⟨_, _, ⟨⟩⟩)
  · exact h

end Task

namespace System

variable {settings : SenderSettings} {y : System}

/-- the tasks of batches without short buffers are not refused for one -/
def SparesLong (y : System) : Prop :=
  ∀ (i : Nat) (t : Task) (bufs : List Bytes), y.tasks[i]? = some t → t.job.batch? = some bufs →
    (∀ b ∈ bufs, traceIdLength ≤ b.length) → t.Spared

theorem SparesLong.step (h : y.SparesLong) (hy : Sound settings y) (a : Action) :
    (y.step a).SparesLong := by
  intro i t bufs ht hb hlong
  cases hu : y.tasks[i]? with
  | none =>
    obtain ⟨job, rfl, -, -⟩ := start_of_new hu ht
    have hnew : (y.start job).tasks[i]? = some t := ht
    rw [start, List.getElem?_append_right (List.getElem?_eq_none_iff.mp hu)] at hnew
    rw [List.mem_singleton.mp (List.mem_of_getElem? hnew)]
    split
    · exact (Task.spared_new job).finish (by rintro ⟨_, _, ⟨⟩⟩)
    · exact Task.spared_new job
  | some u =>
    obtain ⟨u', hu', hon⟩ := onward_step hu a
    obtain rfl : u' = t := Option.some.inj (hu'.symm.trans ht)
    have hub : u.job.batch? = some bufs := hon.job_eq ▸ hb
    have hspared := h i u bufs hu hub hlong
    by_cases hstop : a = .stop
    · subst hstop
      obtain rfl := Option.some.inj ((getElem?_stop hu).symm.trans ht)
      exact hspared.dropped
    · obtain rfl := Option.some.inj ((hy.getElem?_step hu hub hstop).symm.trans ht)
      exact hspared.act (Sender.pooled_unused _ _) hlong i a

theorem SparesLong.run (h : y.SparesLong) (hy : Sound settings y) (actions : List Action) :
    (y.run actions).SparesLong := by
  induction actions generalizing y with
  | nil => exact h
  | cons a actions ih => exact ih (h.step hy a) (hy.step a)

theorem sparesLong_ofSettings (settings : SenderSettings) : (ofSettings settings).SparesLong :=
  fun _ _ _ ht => nomatch ht

end System

/-! ## encoders -/

/-- what the buffers of a list of spans are, for what is read from them and for who sends them -/
structure Encoder.Buffers (e : Encoder) (spans : List Span) : Prop where
  /-- they are those of each span, one span after the other -/
  concat : e.encodeAll spans = (spans.map e.buffers).flatten
  long : ∀ buf ∈ e.encodeAll spans, traceIdLength ≤ buf.length
  holds : ∀ span ∈ spans, e.HoldsSpan span
  count : ∀ span ∈ spans, (e.buffers span).length = 1 ∨ (e.buffers span).length = 2
  size : ∀ span ∈ spans, e.size span = total List.length (e.buffers span)
  /-- no sender refuses them for a short buffer, whatever else it does -/
  spared : ∀ settings actions (i : Nat) (t : Task),
    ((System.ofSettings settings).run actions).tasks[i]? = some t →
    t.job.batch? = some (e.encodeAll spans) → t.Spared

/-- An encoder gives one or two buffers for each span, in the order of the spans.  Each is split into
the identifier of the trace and the bytes of a span of the destination, and has as many bytes as the
encoder counts; and a sender of any settings finds all of them long enough. -/
theorem encoder_buffers (e : Encoder) (spans : List Span) : e.Buffers spans where
  concat := List.flatMap_def ..
  long _ hbuf := traceIdLength_le_of_mem_encodeAll hbuf
  holds span _ := e.holdsSpan span
  count span _ := by
    rw [Encoder.buffers, List.length_map]
    exact e.length_messages span
  size span _ := e.size_eq span
  spared settings actions i t ht hb := by
    have hspares := (System.sparesLong_ofSettings settings).run
      (System.sound_ofSettings settings) actions
    exact hspares i t _ ht hb fun _ hbuf => traceIdLength_le_of_mem_encodeAll hbuf

end SpanCourier
