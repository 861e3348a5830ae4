import SpanCourier.Proofs.Sender.Cancelling

/-!
# how a handle resolves

Whoever hands a batch over to be worked on in the background gets a handle, which resolves when the
task of the batch is done.  There is one reason for that in every run: the batch is decided on without
a call, its call is answered, its transport crashes, or it was cancelled and none of these came first.

* `System.answered_run`  the reply to the call of a batch ends it with what the reply means;
* `Task.Verdict`         the outcome that is due when a task runs;
* `Task.Concludes`       a task that is done for its own reason, and told it to its callback;
* `System.Resolves`      what holds of a handle in every state of a system;
* `System.handles_run`   for all handles, whatever happens to the others.
-/

namespace SpanCourier

namespace Sender

theorem startSend_ne_cancelled (s : Sender) (bufs : List Bytes) :
    (s.startSend bufs).1 ≠ .done (.failed .cancelled) := by
  unfold startSend
  split
  · exact fun h => by cases h
  · split
    · exact fun h => by cases h
    · split
      · exact fun h => by cases h
      · rw [withAssembler]
        dsimp only
        split
        · exact fun h => by cases h
        · exact fun h => by cases h

theorem replyToSend_ne_cancelled (s : Sender) (now : Nat) (r : Reply) :
    (s.replyToSend now r).1 ≠ .failed .cancelled := by
  intro h
  have hmeans := s.means_replyToSend now r
  rw [h] at hmeans
  cases hmeans

end Sender

namespace Task

/-- a call of the batch is in flight when the task runs: it was made before, or it is made now -/
inductive OnCall (s : Sender) (bufs : List Bytes) (t : Task) : Prop where
  | made {c : Call} (hcalling : t.stage = .calling c)
  | now {c : Call} (hwaiting : t.stage = .waiting) (hwanted : t.isCancelled = false)
      (hcall : (s.startSend bufs).1 = .call c)

/-- The outcome that is due when the task of a batch runs with a signal of the transport, and with the
sender `s`.  A task that was cancelled before it first runs does nothing else; later the answer to its
call comes before the wish to cancel it. -/
inductive Verdict (s : Sender) (bufs : List Bytes) (t : Task) : Signal → Outcome → Prop where
  | cancelledFirst {signal : Signal} (hwaiting : t.stage = .waiting) (hmark : t.isCancelled = true) :
      Verdict s bufs t signal (.failed .cancelled)
  | decided {signal : Signal} {outcome : Outcome} (hwaiting : t.stage = .waiting)
      (hwanted : t.isCancelled = false) (hdone : (s.startSend bufs).1 = .done outcome) :
      Verdict s bufs t signal outcome
  | answered {r : Reply} (now : Nat) (hcall : t.OnCall s bufs) :
      Verdict s bufs t (.reply r) (s.replyToSend now r).1
  | cancelledInFlight {c : Call} (hcalling : t.stage = .calling c) (hmark : t.isCancelled = true) :
      Verdict s bufs t .quiet (.failed .cancelled)

/-- a task is done because its transport crashed, with the report of that, and its callback was told
nothing -/
structure Lost (report : String) (t : Task) : Prop where
  outcome : t.outcome? = some (.failed (.runtime report))
  untold : t.told = []

/-- how the task `t` is done when it runs: it becomes `t'` -/
inductive Concludes (s : Sender) (bufs : List Bytes) (t : Task) (signal : Signal) (t' : Task) :
    Prop where
  | told {outcome : Outcome} (hverdict : t.Verdict s bufs signal outcome) (hends : t'.Ends outcome)
  | lost {report : String} (hcall : t.OnCall s bufs) (hsignal : signal = .crash report)
      (hlost : t'.Lost report)

variable {s : Sender} {bufs : List Bytes} {i : Nat} {t t' : Task} {signal : Signal}
  {outcome : Outcome}

theorem OnCall.isFinished_eq (h : t.OnCall s bufs) : t.isFinished = false := by
  cases h with
  | made hcalling => exact isFinished_of_calling hcalling
  | now hwaiting => exact isFinished_of_waiting hwaiting

theorem Verdict.isFinished_eq (h : t.Verdict s bufs signal outcome) : t.isFinished = false := by
  cases h with
  | cancelledFirst hwaiting => exact isFinished_of_waiting hwaiting
  | decided hwaiting => exact isFinished_of_waiting hwaiting
  | answered now hcall => exact hcall.isFinished_eq
  | cancelledInFlight hcalling => exact isFinished_of_calling hcalling

/-! ## what a task does is what is due -/

theorem isCancelled_of_verdict (h : t.Verdict s bufs signal (.failed .cancelled)) :
    t.isCancelled = true := by
  generalize hcancelled : Outcome.failed .cancelled = outcome at h
  cases h with
  | cancelledFirst _ hmark => exact hmark
  | decided _ _ hdone => exact absurd (hcancelled ▸ hdone) (s.startSend_ne_cancelled bufs)
  | answered now => exact absurd hcancelled.symm (s.replyToSend_ne_cancelled now _)
  | cancelledInFlight _ hmark => exact hmark

theorem isGivenUp_eq (hj : t.job.isEnqueued) : t.isGivenUp = t.isCancelled := by
  rw [isGivenUp, hj, Bool.true_and]

theorem callsNow_of_call {c : Call} (hj : t.job.isEnqueued) (hwaiting : t.stage = .waiting)
    (hwanted : t.isCancelled = false) (hcall : (s.startSend bufs).1 = .call c) :
    t.callsNow s bufs = [c] := by
  have hgoes : t.isGivenUp = false := (isGivenUp_eq hj).trans hwanted
  simp only [callsNow, hwaiting, hgoes, hcall, Bool.false_eq_true, if_false]

theorem onCall_of_callsNow (hj : t.job.isEnqueued) (hwaiting : t.stage = .waiting)
    (h : t.callsNow s bufs ≠ []) : t.OnCall s bufs := by
  rw [callsNow, hwaiting] at h
  dsimp only at h
  rw [isGivenUp_eq hj] at h
  cases hmark : t.isCancelled with
  | true =>
    rw [hmark] at h
    exact absurd rfl h
  | false =>
    rw [hmark, if_neg Bool.false_ne_true] at h
    cases hstart : (s.startSend bufs).1 with
    | done outcome =>
      rw [hstart] at h
      exact absurd rfl h
    | call c => exact .now hwaiting hmark hstart

theorem turn_of_verdict (hj : t.job.isEnqueued) (h : t.Verdict s bufs signal outcome) :
    t.turn s bufs signal = t.complete outcome := by
  have hgivenUp := isGivenUp_eq hj
  cases h with
  | cancelledFirst hwaiting hmark => simp only [turn, hwaiting, hgivenUp, hmark, if_true]
  | decided hwaiting hwanted hdone =>
    simp only [turn, hwaiting, hgivenUp, hwanted, hdone, Bool.false_eq_true, if_false]
  | @answered r now hcall =>
    rw [Sender.replyToSend_fst_eq rfl 0 now r]
    cases hcall with
    | made hcalling => simp only [turn, hcalling, heed]
    | now hwaiting hwanted hcall =>
      have hgoes : t.isGivenUp = false := hgivenUp.trans hwanted
      simp only [turn, hwaiting, hgoes, hcall, heed, Bool.false_eq_true, if_false]
      exact t.complete_calling _ _
  | cancelledInFlight hcalling hmark => simp only [turn, hcalling, heed, hgivenUp, hmark, if_true]

theorem turn_of_crash (hj : t.job.isEnqueued) (h : t.OnCall s bufs) (report : String) :
    t.turn s bufs (.crash report) = t.finish (.failed (.runtime report)) := by
  cases h with
  | made hcalling => simp only [turn, hcalling, heed]
  | now hwaiting hwanted hcall =>
    have hgoes : t.isGivenUp = false := (isGivenUp_eq hj).trans hwanted
    simp only [turn, hwaiting, hgoes, hcall, heed, Bool.false_eq_true, if_false]
    rfl

/-- a task that waits for nothing that is there goes on waiting -/
theorem isFinished_turn (hj : t.job.isEnqueued) (hopen : t.isFinished = false)
    (hverdict : ∀ outcome, ¬ t.Verdict s bufs signal outcome)
    (hcrash : ∀ report, signal = .crash report → ¬ t.OnCall s bufs) :
    (t.turn s bufs signal).isFinished = false := by
  have hgivenUp := isGivenUp_eq hj
  have hheed : ∀ {u : Task}, u.isFinished = false → u.isGivenUp = t.isCancelled →
      t.OnCall s bufs → (t.isCancelled = true → signal = .quiet → False) →
      (u.heed s signal).isFinished = false := by
    intro u hu hmark hcall hquiet
    cases signal with
    | quiet =>
      have hwanted : u.isGivenUp ≠ true := fun h => hquiet (hmark ▸ h) rfl
      rw [heed, if_neg hwanted]
      exact hu
    | reply r => exact absurd (.answered 0 hcall) (hverdict _)
    | crash report => exact absurd hcall (hcrash report rfl)
  cases hstage : t.stage with
  | finished outcome =>
    rw [isFinished, outcome?, hstage] at hopen
    cases hopen
  | calling c =>
    simp only [turn, hstage]
    refine hheed hopen hgivenUp (.made hstage) fun hmark hquiet => ?_
    subst hquiet
    exact hverdict _ (.cancelledInFlight hstage hmark)
  | waiting =>
    have hwanted : t.isCancelled = false :=
      eq_false_of_ne_true fun hmark => hverdict _ (.cancelledFirst hstage hmark)
    have hgoes : t.isGivenUp = false := hgivenUp.trans hwanted
    simp only [turn, hstage, hgoes, Bool.false_eq_true, if_false]
    cases hstart : (s.startSend bufs).1 with
    | done outcome => exact absurd (.decided hstage hwanted hstart) (hverdict outcome)
    | call c =>
      refine hheed rfl hgivenUp (.now hstage hwanted hstart) fun hmark _ => ?_
      rw [hwanted] at hmark
      cases hmark

/-- a task that is done after it ran is so for its own reason -/
theorem concludes_turn (hj : t.job.isEnqueued) (hopen : t.isFinished = false) (htold : t.told = [])
    (hdone : (t.turn s bufs signal).isFinished = true) :
    t.Concludes s bufs signal (t.turn s bufs signal) := by
  by_cases hverdict : ∃ outcome, t.Verdict s bufs signal outcome
  · obtain ⟨outcome, hverdict⟩ := hverdict
    rw [turn_of_verdict hj hverdict]
    exact .told hverdict (ends_complete htold outcome)
  · by_cases hcrash : ∃ report, signal = .crash report ∧ t.OnCall s bufs
    · obtain ⟨report, rfl, hcall⟩ := hcrash
      rw [turn_of_crash hj hcall]
      exact .lost hcall rfl ⟨rfl, htold⟩
    · have hwaits := isFinished_turn hj hopen (not_exists.mp hverdict)
        fun report hsignal hcall => hcrash ⟨report, hsignal, hcall⟩
      rw [hwaits] at hdone
      cases hdone

/-- nothing but running ends a task -/
theorem poll_of_isFinished_act {a : Action} (hopen : t.isFinished = false)
    (hdone : (t.act s bufs i a).isFinished = true) :
    ∃ signal, a = .poll i signal ∧ t.act s bufs i a = t.turn s bufs signal := by
  have hstays : (t.act s bufs i a).isFinished ≠ t.isFinished := fun h => by
    rw [h, hopen] at hdone
    cases hdone
  cases a with
  | poll j signal =>
    by_cases hji : j = i
    · subst hji
      exact ⟨signal, rfl, if_pos rfl⟩
    · rw [act, if_neg hji] at hstays
      exact absurd rfl hstays
  | cancel j =>
    rw [act] at hstays
    split at hstays
    · exact absurd rfl hstays
    · exact absurd rfl hstays
  | start job | close | stop | record outcome | advance millis | measure bufs' | measureOne n =>
    exact absurd rfl hstays

/-- a wish to cancel that comes later does not change how a task was done -/
theorem Concludes.of_seen {t'' : Task} (h : t.Concludes s bufs signal t')
    (hseen : t''.seen = t'.seen) : t.Concludes s bufs signal t'' := by
  have hjob : t''.job = t'.job := (congrArg Task.job hseen :)
  have houtcome : t''.outcome? = t'.outcome? := (congrArg Task.outcome? hseen :)
  have htold : t''.told = t'.told := (congrArg Task.told hseen :)
  cases h with
  | told hverdict hends =>
    refine .told hverdict ⟨?_, ?_, ?_, ?_⟩ <;> rw [hjob]
    · exact fun h => houtcome.trans (hends.alone h)
    · exact fun c hc => htold.trans (hends.told c hc)
    · exact fun c hc hr => houtcome.trans (hends.returned c hc hr)
    · exact fun c text hc hr => houtcome.trans (hends.crashed c text hc hr)
  | lost hcall hsignal hlost =>
    exact .lost hcall hsignal ⟨houtcome.trans hlost.outcome, htold.trans hlost.untold⟩

end Task

namespace System

variable {settings : SenderSettings} {y : System} {i : Nat} {t : Task} {bufs : List Bytes}

/-- the sender that a batch would have for itself -/
def own (y : System) (settings : SenderSettings) : Sender := .unused settings y.sender.isClosed

/-- the call of a batch is in flight when a reply to it would be taken -/
theorem Accounted.replies_iff (h : Accounted settings y) (ht : y.tasks[i]? = some t)
    (hj : t.job.isEnqueued) (hb : t.job.batch? = some bufs) (r : Reply) :
    y.Replies i t r ↔ t.OnCall (y.own settings) bufs := by
  have hcalls : (y.step (.poll i (.reply r))).callsOf i
      = y.callsOf i ++ t.callsNow (y.own settings) bufs := (h.poll ht hb (.reply r)).2
  constructor
  · intro hreplies
    have hmade := hreplies.made
    cases hstage : t.stage with
    | finished outcome =>
      have hopen := hreplies.unfinished
      rw [Task.isFinished, Task.outcome?, hstage] at hopen
      cases hopen
    | calling c => exact .made hstage
    | waiting =>
      rw [hcalls, h.callsOf_of_waiting ht hstage, List.nil_append] at hmade
      exact Task.onCall_of_callsNow hj hstage hmade
  · intro hcall
    refine ⟨ht, hcall.isFinished_eq, ?_⟩
    rw [hcalls]
    cases hcall with
    | made hcalling =>
      rw [(h.tracked i t ht).called _ hcalling]
      exact List.append_ne_nil_of_left_ne_nil (List.cons_ne_nil _ _) _
    | now hwaiting hwanted hcall =>
      rw [Task.callsNow_of_call hj hwaiting hwanted hcall]
      exact List.append_ne_nil_of_right_ne_nil _ (List.cons_ne_nil _ _)

/-- In every state that a system gets into, and for a batch whose caller waits for it as for one in the
background, the reply to the call of the batch has one meaning, which the batch ends with.  So a call that
is refused on an open sender gives the status of its refusal. -/
theorem answered_run (settings : SenderSettings) (actions : List Action) :
    let y := (ofSettings settings).run actions
    ∀ i t bufs r, y.Replies i t r → t.job.batch? = some bufs →
      (∃ outcome, y.sender.Means r outcome) ∧ ∀ outcome, y.sender.Means r outcome →
        ∃ t', (y.step (.poll i (.reply r))).tasks[i]? = some t' ∧ t'.job = t.job
          ∧ t'.Ends outcome := by
  intro y i t bufs r hr hb
  have hy : Accounted settings y := (accounted_ofSettings settings).run actions
  exact ⟨⟨_, y.sender.means_replyToSend y.now r⟩, fun outcome hmeans => hy.ends_of_means hr hb hmeans⟩

/-- the reply to the call of a batch is an observation of the destination, whatever the callback makes
of it -/
theorem Accounted.health_of_onCall (h : Accounted settings y) (ht : y.tasks[i]? = some t)
    (hj : t.job.isEnqueued) (hb : t.job.batch? = some bufs)
    (hcall : t.OnCall (y.own settings) bufs) (r : Reply) :
    (y.step (.poll i (.reply r))).sender.health = (y.sender.replyToSend y.now r).2.health := by
  have htakes := h.takes ((h.replies_iff ht hj hb r).mpr hcall)
  rw [htakes.health_eq, Job.reply_of_batch? hb]

theorem Accounted.health_of_not_onCall (h : Accounted settings y) (ht : y.tasks[i]? = some t)
    (hj : t.job.isEnqueued) (hb : t.job.batch? = some bufs) {signal : Signal}
    (hnone : ∀ r, signal = .reply r → ¬ t.OnCall (y.own settings) bufs) :
    (y.step (.poll i signal)).sender.health = y.sender.health := by
  cases signal with
  | reply r =>
    rcases h.replies_or i r with ⟨u, hreplies, -⟩ | ⟨-, hsame⟩
    · obtain rfl : u = t := Option.some.inj (hreplies.task.symm.trans ht)
      exact absurd ((h.replies_iff ht hj hb r).mp hreplies) (hnone r rfl)
    · exact hsame
  | quiet => exact (y.polled_poll i .quiet).health_eq fun r hr => by cases hr
  | crash report => exact (y.polled_poll i (.crash report)).health_eq fun r hr => by cases hr

/-- a batch that is done was so for its own reason, when its task ran in some state of the run -/
theorem concludes_run (settings : SenderSettings) {actions : List Action}
    (hstop : Action.stop ∉ actions) (ht : ((ofSettings settings).run actions).tasks[i]? = some t)
    (hj : t.job.isEnqueued) (hb : t.job.batch? = some bufs) (hdone : t.isFinished = true) :
    (ofSettings settings).Happens actions fun x a => ∃ signal t₀, a = .poll i signal
      ∧ x.tasks[i]? = some t₀ ∧ t₀.Concludes (x.own settings) bufs signal t := by
  induction actions using List.reverseRecOn generalizing t with
  | nil => cases ht
  | append_singleton actions a ih =>
    rw [List.mem_append, List.mem_singleton, not_or] at hstop
    have hy : Accounted settings ((ofSettings settings).run actions) :=
      (accounted_ofSettings settings).run actions
    rw [happens_concat]
    rw [run_concat] at ht
    cases hu : ((ofSettings settings).run actions).tasks[i]? with
    | none =>
      obtain ⟨job, -, -, hnew⟩ := start_of_new hu ht
      rw [hnew (isRunning_run hstop.1)] at hdone
      cases hdone
    | some u =>
      obtain ⟨u', hu', hon⟩ := onward_step hu a
      obtain rfl : u' = t := Option.some.inj (hu'.symm.trans ht)
      have huj : u.job.isEnqueued := hon.job_eq ▸ hj
      have hub : u.job.batch? = some bufs := hon.job_eq ▸ hb
      cases hopen : u.isFinished with
      | true =>
        -- the task was done before, and this step leaves it as it was
        obtain ⟨u', hu', hseen⟩ := seen_step hu hopen a
        obtain rfl : u' = _ := Option.some.inj (hu'.symm.trans ht)
        obtain ⟨before, b, after, hsplit, signal, t₀, hb, ht₀, hconcludes⟩ :=
          ih hstop.1 hu huj hub hopen
        exact Or.inl ⟨before, b, after, hsplit, signal, t₀, hb, ht₀, hconcludes.of_seen hseen⟩
      | false =>
        have hact := hy.getElem?_step hu hub (Ne.symm hstop.2)
        obtain rfl := Option.some.inj (hact.symm.trans ht)
        obtain ⟨signal, rfl, hturn⟩ := Task.poll_of_isFinished_act hopen hdone
        refine Or.inr ⟨signal, u, rfl, rfl, ?_⟩
        rw [hturn] at hdone ⊢
        exact Task.concludes_turn huj hopen ((hy.tracked i u hu).untold hopen) hdone

/-- What holds of the handle of a batch, whose task is `t`, in the state after some actions: when it
resolves, with what, and what has no bearing on it. -/
structure Resolves (settings : SenderSettings) (actions : List Action) (i : Nat) (t : Task)
    (bufs : List Bytes) (y : System) : Prop where
  /-- it is as if nothing had happened that does not concern the batch -/
  alone : let z := (ofSettings settings).run (actions.filter (Concerns i))
    z.tasks[i]? = some t ∧ z.callsOf i = y.callsOf i
  /-- until it is done its callback was told nothing -/
  untold : t.isFinished = false → t.told = []
  /-- when it is done that was for its own reason, in some state of the run -/
  concluded : t.isFinished = true →
    (ofSettings settings).Happens actions fun x a => ∃ signal t₀, a = .poll i signal
      ∧ x.tasks[i]? = some t₀ ∧ t₀.Concludes (x.own settings) bufs signal t
  /-- and that once: it stays as it is, and what comes for its call is dropped -/
  once : t.isFinished = true → ∀ later, ∃ t', (y.run later).tasks[i]? = some t' ∧ t'.seen = t.seen
  dropped : t.isFinished = true → ∀ signal, y.step (.poll i signal) = y
  /-- the outcome that is due is the one that it ends with when it runs -/
  due : ∀ signal outcome, t.Verdict (y.own settings) bufs signal outcome →
    ∃ t', (y.step (.poll i signal)).tasks[i]? = some t' ∧ t'.Ends outcome
  /-- the reply to its call ends it with what the reply means, and a crash with the report of it -/
  answered : ∀ r outcome, t.OnCall (y.own settings) bufs → y.sender.Means r outcome →
    ∃ t', (y.step (.poll i (.reply r))).tasks[i]? = some t' ∧ t'.Ends outcome
  lost : ∀ report, t.OnCall (y.own settings) bufs →
    ∃ t', (y.step (.poll i (.crash report))).tasks[i]? = some t' ∧ t'.Lost report
  /-- and if there is none it goes on waiting, as it does while others run -/
  waits : t.isFinished = false → ∀ a, a ≠ .stop →
    (∀ signal, a = .poll i signal → (∀ outcome, ¬ t.Verdict (y.own settings) bufs signal outcome)
      ∧ ∀ report, signal = .crash report → ¬ t.OnCall (y.own settings) bufs) →
    ∃ t', (y.step a).tasks[i]? = some t' ∧ t'.isFinished = false
  /-- the reply to its call is an observation, whatever its callback does, and nothing else is -/
  observed : t.OnCall (y.own settings) bufs → ∀ r,
    (y.step (.poll i (.reply r))).sender.health = (y.sender.replyToSend y.now r).2.health
  unobserved : ∀ signal, (∀ r, signal = .reply r → ¬ t.OnCall (y.own settings) bufs) →
    (y.step (.poll i signal)).sender.health = y.sender.health
  /-- it ends as cancelled only if it was itself cancelled -/
  marked : t.isCancelled = true ↔
    (ofSettings settings).Happens actions fun x a => a = .cancel i ∧ i < x.tasks.length
  wished : ∀ signal, t.Verdict (y.own settings) bufs signal (.failed .cancelled) →
    t.isCancelled = true
  /-- cancelling it again, or when it is done, changes nothing -/
  again : t.isCancelled = true → y.step (.cancel i) = y
  tooLate : t.isFinished = true → ∀ later,
    ((y.step (.cancel i)).run later).seen = (y.run later).seen
  /-- nor does cancelling another one -/
  others : ∀ j, j ≠ i → ∀ later, let z := (y.step (.cancel j)).run later
    z.tasks[i]? = (y.run later).tasks[i]? ∧ z.callsOf i = (y.run later).callsOf i
  /-- cancelled before its task first runs, it makes no call -/
  uncalled : t.stage = .waiting → t.isCancelled = true → ∀ later, (y.run later).callsOf i = []

/-- In every run in which the work in the background goes on, the handle of each batch resolves at most
once, for a reason of its own, and whatever is done with the other handles has no bearing on it. -/
theorem handles_run (settings : SenderSettings) (actions : List Action)
    (hstop : Action.stop ∉ actions) :
    let y := (ofSettings settings).run actions
    ∀ i t bufs callback, y.tasks[i]? = some t → t.job = .enqueued bufs callback →
      Resolves settings actions i t bufs y := by
  intro y i t bufs callback ht hjob
  have hy : Accounted settings y := (accounted_ofSettings settings).run actions
  have hj : t.job.isEnqueued := by rw [hjob]; rfl
  have hb : t.job.batch? = some bufs := by rw [hjob]; rfl
  have hpoll : ∀ signal, (y.step (.poll i signal)).tasks[i]?
      = some (t.turn (y.own settings) bufs signal) := fun signal => (hy.poll ht hb signal).1
  refine {
    alone := ?alone
    untold := (hy.tracked i t ht).untold
    concluded := concludes_run settings hstop ht hj hb
    once := seen_run ht
    dropped := poll_of_isFinished ht
    due := ?due
    answered := ?answered
    lost := ?lost
    waits := ?waits
    observed := fun hcall r => hy.health_of_onCall ht hj hb hcall r
    unobserved := fun signal hnone => hy.health_of_not_onCall ht hj hb hnone
    marked := isCancelled_iff settings hstop ht hb
    wished := fun signal hverdict => Task.isCancelled_of_verdict hverdict
    again := cancel_of_isCancelled ht
    tooLate := ?tooLate
    others := ?others
    uncalled := fun hw hmark => hy.uncalled_run ht hb hw ((Task.isGivenUp_eq hj).trans hmark) }
  case alone =>
    have halike : Alike i y ((ofSettings settings).run (actions.filter (Concerns i))) := by
      refine (Alike.refl i _).run (sound_ofSettings settings) (sound_ofSettings settings) ?_
      intro u hu
      obtain rfl : u = t := Option.some.inj (hu.symm.trans ht)
      exact ⟨bufs, hb⟩
    exact ⟨halike.task_eq.trans ht, halike.callsOf_eq⟩
  case due =>
    intro signal outcome hverdict
    refine ⟨_, hpoll signal, ?_⟩
    rw [Task.turn_of_verdict hj hverdict]
    exact Task.ends_complete ((hy.tracked i t ht).untold hverdict.isFinished_eq) outcome
  case answered =>
    intro r outcome hcall hmeans
    obtain ⟨t', ht', -, hends⟩ := hy.ends_of_means ((hy.replies_iff ht hj hb r).mpr hcall) hb hmeans
    exact ⟨t', ht', hends⟩
  case lost =>
    intro report hcall
    refine ⟨_, hpoll (.crash report), ?_⟩
    rw [Task.turn_of_crash hj hcall]
    exact ⟨rfl, (hy.tracked i t ht).untold hcall.isFinished_eq⟩
  case waits =>
    intro hopen a ha hnone
    refine ⟨_, hy.getElem?_step ht hb ha, eq_false_of_ne_true fun hdone => ?_⟩
    obtain ⟨signal, hsignal, hturn⟩ := Task.poll_of_isFinished_act hopen hdone
    obtain ⟨hverdict, hcrash⟩ := hnone signal hsignal
    have hwaits := Task.isFinished_turn hj hopen hverdict hcrash
    rw [hturn] at hdone
    exact Bool.false_ne_true (hwaits.symm.trans hdone)
  case tooLate =>
    intro hdone later
    show ((y.cancel i).run later).seen = _
    rw [cancel_run ht hdone, seen_cancel]
  case others =>
    intro j hji later
    have halike : Alike i y (y.step (.cancel j)) := alike_step (decide_eq_false hji)
    have hlater := halike.run_same hy.toSound (hy.step (.cancel j)).toSound ht hb later
    exact ⟨hlater.task_eq, hlater.callsOf_eq⟩

/-- a batch that is cancelled in flight, twice, whose answer comes too late, beside one whose callback
crashes on the answer to its call -/
theorem handles_run_late_answer :
    let settings : SenderSettings := ⟨.v2, "p", 1024, 60000⟩
    let first : List Bytes := [List.replicate 33 97]
    let second : List Bytes := [List.replicate 34 98]
    let actions : List Action :=
      [.start (.enqueued first (some fun _ => .returned)),
        .start (.enqueued second (some fun _ => .crashed (some "lost"))),
        .poll 1 .quiet, .poll 0 .quiet, .cancel 0, .cancel 0, .poll 0 .quiet,
        .poll 0 (.reply (.refused ⟨.internal, "late"⟩)), .poll 1 (.reply .accepted), .cancel 0]
    let y := (ofSettings settings).run actions
    (∃ t, y.tasks[0]? = some t ∧ Resolves settings actions 0 t first y)
      ∧ (∃ t, y.tasks[1]? = some t ∧ Resolves settings actions 1 t second y)
      ∧ y.tasks.map Task.outcome? = [some (.failed .cancelled), some (.failed (.callback "lost"))]
      ∧ y.tasks.map Task.told = [[.failed .cancelled], [.ok]]
      ∧ y.sender.health.latest = some ⟨.ok, 0⟩ := by
  intro settings first second actions y
  have hstop : Action.stop ∉ actions := by simp [actions]
  have hsplit : ((ofSettings settings).run (actions.take 2)).run (actions.drop 2) = y := by
    rw [← run_append, List.take_append_drop]
  -- the tasks are there, for these batches, as soon as they are started
  obtain ⟨t, ht, hfirst⟩ := onward_run (y := (ofSettings settings).run (actions.take 2)) (i := 0)
    rfl (actions.drop 2)
  obtain ⟨u, hu, hsecond⟩ := onward_run (y := (ofSettings settings).run (actions.take 2)) (i := 1)
    rfl (actions.drop 2)
  rw [hsplit] at ht hu
  refine ⟨⟨t, ht, handles_run settings actions hstop 0 t first _ ht hfirst.job_eq⟩,
    ⟨u, hu, handles_run settings actions hstop 1 u second _ hu hsecond.job_eq⟩, ?_, ?_, ?_⟩
  · decide +kernel
  · decide +kernel
  · decide +kernel

end System

end SpanCourier
