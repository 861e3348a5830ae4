import SpanCourier.Proofs.Sender.Runs

/-!
# what becomes of a batch

When the task of a batch runs for the first time, in any state that a system gets into, the first
reason against the batch ends it without a call.  If there is none, one call is made for it and no
other one ever, and the call carries the request that a new assembler makes of the batch.

* `System.Settles`      the batch is done with, and neither the transport nor the health saw it;
* `System.Calls`        the batch is sent in one call;
* `System.admission_run` which of the two happens.
-/

namespace SpanCourier

def Job.batch? : Job → Option (List Bytes)
  | .send bufs | .enqueued bufs _ => some bufs
  | .check => none

theorem Job.start_of_batch? {job : Job} {bufs : List Bytes} (h : job.batch? = some bufs)
    (s : Sender) (now : Nat) : job.start s now = s.startSend bufs := by
  cases job <;> cases h <;> rfl

theorem Job.reply_of_batch? {job : Job} {bufs : List Bytes} (h : job.batch? = some bufs)
    (s : Sender) (now : Nat) (r : Reply) : job.reply s now r = s.replyToSend now r := by
  cases job <;> cases h <;> rfl

namespace System

/-- a step ends a task with an outcome, and nothing of it reaches the transport or the health, then or
later -/
structure Settles (y : System) (i : Nat) (outcome : Outcome) (y' : System) : Prop where
  ends : ∃ t, y.tasks[i]? = some t ∧ y'.tasks = y.tasks.set i (t.complete outcome)
  calls_eq : y'.calls = y.calls
  shutdowns_eq : y'.shutdowns = y.shutdowns
  health_eq : y'.sender.health = y.sender.health
  never : ∀ later, (y'.run later).callsOf i = []

/-- a step makes a call for a task, the only one that is ever made for it -/
structure Calls (y : System) (i : Nat) (call : Call) (y' : System) : Prop where
  calls_eq : y'.calls = y.calls ++ [(i, call)]
  once : ∀ later, (y'.run later).callsOf i = [call]

/-- what a step makes of the batch of a task: the first case that applies -/
structure Admission (settings : SenderSettings) (y : System) (i : Nat) (bufs : List Bytes)
    (y' : System) : Prop where
  closed : y.sender.isClosed → y.Settles i (.failed .closed) y'
  empty : y.sender.isClosed = false → bufs = [] → y.Settles i .ok y'
  short : y.sender.isClosed = false → ∀ k buf, bufs[k]? = some buf → buf.length < traceIdLength →
    (∀ j b, j < k → bufs[j]? = some b → traceIdLength ≤ b.length) →
    y.Settles i (.failed (.shortBuffer k buf.length)) y'
  tooLarge : y.sender.isClosed = false → bufs ≠ [] → (∀ b ∈ bufs, traceIdLength ≤ b.length) →
    settings.messageMaxBytes.toNat < (y.measure bufs).1 →
    y.Settles i (.failed
      (.messageTooLarge (y.measure bufs).1 settings.messageMaxBytes.toNat)) y'
  sent : y.sender.isClosed = false → bufs ≠ [] → (∀ b ∈ bufs, traceIdLength ≤ b.length) →
    (y.measure bufs).1 ≤ settings.messageMaxBytes.toNat →
    y.Calls i (assemble settings.apiVersion settings.projectId bufs).call y'

section
variable {settings : SenderSettings} {y : System} {i : Nat} {t : Task} {bufs : List Bytes}

/-- a task that waits for its turn and was not given up sets out when it runs -/
theorem poll_of_waiting (ht : y.tasks[i]? = some t) (hw : t.stage = .waiting)
    (hg : t.isGivenUp = false) (signal : Signal) :
    y.poll i signal = match (t.job.start y.sender y.now).1 with
      | .done outcome =>
        { y with sender := (t.job.start y.sender y.now).2 }.put i (t.complete outcome)
      | .call c => { y with sender := (t.job.start y.sender y.now).2 }.call i t c signal := by
  simp only [poll, ht, hw, begin, hg]
  rfl

theorem settles_of_done (h : Sound settings y) (ht : y.tasks[i]? = some t)
    (hw : t.stage = .waiting) (hg : t.isGivenUp = false) (signal : Signal) {outcome : Outcome}
    (hstart : (t.job.start y.sender y.now).1 = .done outcome) :
    y.Settles i outcome (y.step (.poll i signal)) := by
  have hstep : y.step (.poll i signal)
      = { y with sender := (t.job.start y.sender y.now).2 }.put i (t.complete outcome) := by
    show y.poll i signal = _
    rw [poll_of_waiting ht hw hg, hstart]
  rw [hstep]
  refine ⟨⟨t, ht, rfl⟩, rfl, rfl, (t.job.keeps_start y.sender y.now).health_eq, fun later => ?_⟩
  have hset : ({ y with sender := (t.job.start y.sender y.now).2 }.put i
      (t.complete outcome)).SetOut i :=
    ⟨_, getElem?_set_self ht _, t.stage_complete outcome⟩
  rw [callsOf_run hset]
  exact h.callsOf_of_waiting ht hw

theorem calls_of_call (h : Sound settings y) (ht : y.tasks[i]? = some t)
    (hw : t.stage = .waiting) (hg : t.isGivenUp = false) (signal : Signal) {c : Call}
    (hstart : (t.job.start y.sender y.now).1 = .call c) :
    y.Calls i c (y.step (.poll i signal)) := by
  have hstage : Stage.calling c ≠ .waiting := fun h => nomatch h
  obtain ⟨s', t', heq, -, -, hstage'⟩ := settle_eq
    { y with sender := (t.job.start y.sender y.now).2, calls := y.calls ++ [(i, c)] } i
    (t := { t with stage := .calling c }) hstage signal
  have hstep : y.step (.poll i signal)
      = { y with sender := s', tasks := y.tasks.set i t', calls := y.calls ++ [(i, c)] } := by
    show y.poll i signal = _
    rw [poll_of_waiting ht hw hg, hstart]
    exact heq
  rw [hstep]
  refine ⟨rfl, fun later => ?_⟩
  have hset : SetOut
      { y with sender := s', tasks := y.tasks.set i t', calls := y.calls ++ [(i, c)] } i :=
    ⟨t', getElem?_set_self ht _, hstage'⟩
  rw [callsOf_run hset]
  refine (callsOf_append y i i c).trans ?_
  rw [h.callsOf_of_waiting ht hw, if_pos rfl, List.nil_append]

/-- the size that a system reports for a batch is that of a new sizer -/
theorem Sound.measure_eq (h : Sound settings y) (bufs : List Bytes) :
    (y.measure bufs).1 = requestSize settings.apiVersion settings.projectId bufs := by
  have hm := Sender.measure_eq h.pooled bufs
  rw [Sender.requestSize, h.settings_eq] at hm
  exact hm

theorem Sound.admission (h : Sound settings y) (ht : y.tasks[i]? = some t)
    (hw : t.stage = .waiting) (hg : t.isGivenUp = false) (hb : t.job.batch? = some bufs)
    (signal : Signal) : Admission settings y i bufs (y.step (.poll i signal)) := by
  have hsize : (y.measure bufs).1 = y.sender.requestSize bufs := Sender.measure_eq h.pooled bufs
  have hstart : (t.job.start y.sender y.now).1 = (y.sender.startSend bufs).1 :=
    congrArg Prod.fst (Job.start_of_batch? hb y.sender y.now)
  obtain rfl := h.settings_eq
  constructor
  · intro hc
    exact settles_of_done h ht hw hg signal
      (hstart.trans (congrArg Prod.fst (Sender.startSend_of_isClosed hc bufs)))
  · intro hc hempty
    subst hempty
    exact settles_of_done h ht hw hg signal
      (hstart.trans (congrArg Prod.fst (Sender.startSend_of_isEmpty hc)))
  · intro hc k buf hk hshort hfirst
    exact settles_of_done h ht hw hg signal
      (hstart.trans (congrArg Prod.fst (Sender.startSend_of_short hc hk hshort hfirst)))
  · intro hc hne hlong hlt
    rw [hsize] at hlt ⊢
    exact settles_of_done h ht hw hg signal
      (hstart.trans (Sender.startSend_of_tooLarge h.pooled hc hne hlong hlt))
  · intro hc hne hlong hle
    rw [hsize] at hle
    exact calls_of_call h ht hw hg signal
      (hstart.trans (Sender.startSend_of_le h.pooled hc hne hlong hle))

end

/-- In every state that a system gets into, the first case that applies decides about a batch whose
task runs for the first time; the size that counts is the one that the system reports, and for
buffers that are long enough it is the length of the body that is sent.  Once the sender is closed
there are no calls at all, not even probes, and its transport was shut down once. -/
theorem admission_run (settings : SenderSettings) (actions : List Action) :
    let y := (ofSettings settings).run actions
    (∀ i t bufs signal, y.tasks[i]? = some t → t.stage = .waiting → t.isGivenUp = false →
      t.job.batch? = some bufs → Admission settings y i bufs (y.step (.poll i signal)))
    ∧ (∀ bufs : List Bytes, (∀ b ∈ bufs, traceIdLength ≤ b.length) →
      let call := (assemble settings.apiVersion settings.projectId bufs).call
      call.version = settings.apiVersion ∧ call.body.length = (y.measure bufs).1)
    ∧ (y.sender.isClosed → ∀ later, (y.run later).calls = y.calls)
    ∧ (∀ later, ((y.step .close).run later).calls = y.calls)
    ∧ y.shutdowns = if y.sender.isClosed then 1 else 0 := by
  intro y
  have h : Sound settings y := (sound_ofSettings settings).run actions
  refine ⟨fun i t bufs signal ht hw hg hb => h.admission ht hw hg hb signal,
    fun bufs hlong => ⟨version_assemble _ _ bufs, ?_⟩, fun hc later => (calls_run hc later).1,
    fun later => ?_, h.shutdowns_eq⟩
  · rw [h.measure_eq, requestSize_eq_length _ _ hlong]
  · obtain ⟨_, hcalls, hclosed⟩ := y.close_eq
    exact (calls_run hclosed later).1.trans hcalls

/-- a batch that is sent, and one that comes after the sender was closed -/
theorem admission_run_open_and_closed :
    let settings : SenderSettings := ⟨.v1, "p", 1024, 60000⟩
    let bufs : List Bytes := [List.replicate 33 97]
    let y := (ofSettings settings).run [.measure [[1], [2]], .start (.enqueued bufs none)]
    let z := (ofSettings settings).run [.start (.send bufs), .start .check, .close, .close]
    y.Calls 0 (assemble .v1 "p" bufs).call (y.step (.poll 0 .quiet))
      ∧ z.Settles 0 (.failed .closed) (z.step (.poll 0 (.reply .accepted)))
      ∧ (z.run [.poll 1 .quiet, .poll 0 .quiet]).calls = [] ∧ z.shutdowns = 1 :=
  ⟨((admission_run ⟨.v1, "p", 1024, 60000⟩ _).1 0 _ [List.replicate 33 97] .quiet
      rfl rfl rfl rfl).sent rfl (by decide) (by decide) (by decide),
    ((admission_run ⟨.v1, "p", 1024, 60000⟩ _).1 0 _ [List.replicate 33 97] (.reply .accepted)
      rfl rfl rfl rfl).closed rfl,
    (admission_run ⟨.v1, "p", 1024, 60000⟩
      [.start (.send [List.replicate 33 97]), .start .check, .close, .close]).2.2.1 rfl _,
    (admission_run ⟨.v1, "p", 1024, 60000⟩
      [.start (.send [List.replicate 33 97]), .start .check, .close, .close]).2.2.2.2⟩

end System

end SpanCourier
