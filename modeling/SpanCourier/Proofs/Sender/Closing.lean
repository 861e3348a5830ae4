import SpanCourier.Proofs.Sender.Observations

/-!
# closing while calls are in flight

Closing leaves the calls in flight to themselves, but nobody can say how they would have ended.  When
the call of a batch fails afterwards because the destination cannot be reached, the batch ends as one
that came too late, and the health keeps what it had.  A probe in flight makes no such difference: it
tells of the destination what it would have told of it before.

* `Task.Ends`            a task is done with an outcome, which its callback was told;
* `Sender.Means`         what the reply to a batch means for whoever sent it;
* `System.closing_run`   what becomes of a batch in flight when the sender is closed;
* `System.probing_run`   what becomes of a probe.
-/

namespace SpanCourier

namespace Task

variable {t : Task} {outcome : Outcome} {callback : Callback}

/-- A task is done with an outcome.  Its callback was told, once, and one that crashed on it became
the outcome instead. -/
structure Ends (t : Task) (outcome : Outcome) : Prop where
  alone : t.job.callback? = none → t.outcome? = some outcome
  told : ∀ callback, t.job.callback? = some callback → t.told = [outcome]
  returned : ∀ callback, t.job.callback? = some callback → callback outcome = .returned →
    t.outcome? = some outcome
  crashed : ∀ callback text, t.job.callback? = some callback → callback outcome = .crashed text →
    t.outcome? = some (.failed (.callback (crashText text)))

theorem complete_of_alone (h : t.job.callback? = none) : t.complete outcome = t.finish outcome := by
  rw [complete, h]

theorem complete_of_returned (h : t.job.callback? = some callback)
    (hr : callback outcome = .returned) :
    t.complete outcome = { t with told := t.told ++ [outcome] }.finish outcome := by
  simp only [complete, h, hr]

theorem complete_of_crashed {text : Option String} (h : t.job.callback? = some callback)
    (hr : callback outcome = .crashed text) :
    t.complete outcome
      = { t with told := t.told ++ [outcome] }.finish (.failed (.callback (crashText text))) := by
  simp only [complete, h, hr]

theorem told_complete (h : t.job.callback? = some callback) :
    (t.complete outcome).told = t.told ++ [outcome] := by
  cases hr : callback outcome with
  | returned => rw [complete_of_returned h hr]; rfl
  | crashed text => rw [complete_of_crashed h hr]; rfl

theorem ends_complete (h : t.told = []) (outcome : Outcome) : (t.complete outcome).Ends outcome := by
  constructor <;> rw [job_complete]
  · intro halone
    rw [complete_of_alone halone, outcome?_finish]
  · intro callback hc
    rw [told_complete hc, h, List.nil_append]
  · intro callback hc hr
    rw [complete_of_returned hc hr, outcome?_finish]
  · intro callback text hc hr
    rw [complete_of_crashed hc hr, outcome?_finish]

end Task

namespace Sender

theorem replyToSend_of_isClosed {s : Sender} {status : Status} (h : s.isClosed)
    (hcode : status.code = .unavailable) (now : Nat) :
    s.replyToSend now (.refused status) = (.failed .closed, s) := by
  rw [replyToSend, if_pos ⟨hcode, h⟩]

/-- What the reply to the call of a batch means for whoever sent the batch.  A refusal is passed on with
its status, unless the sender was closed and the destination cannot be reached. -/
inductive Means (s : Sender) : Reply → Outcome → Prop where
  | accepted : Means s .accepted .ok
  | refused {status : Status} (hopen : status.code = .unavailable → s.isClosed = false) :
      Means s (.refused status) (.failed (.rpc status))
  | closed {status : Status} (hcode : status.code = .unavailable) (hclosed : s.isClosed) :
      Means s (.refused status) (.failed .closed)

theorem Means.replyToSend_fst {s : Sender} {r : Reply} {outcome : Outcome} (h : s.Means r outcome)
    (now : Nat) : (s.replyToSend now r).1 = outcome := by
  cases h with
  | accepted => rfl
  | refused hopen =>
    rw [replyToSend, if_neg fun hhere => Bool.false_ne_true ((hopen hhere.1).symm.trans hhere.2)]
    split <;> rfl
  | closed hcode hclosed => rw [replyToSend_of_isClosed hclosed hcode]

theorem means_replyToSend (s : Sender) (now : Nat) (r : Reply) :
    s.Means r (s.replyToSend now r).1 := by
  cases r with
  | accepted => exact .accepted
  | refused status =>
    by_cases hhere : status.code = .unavailable ∧ s.isClosed
    · rw [replyToSend_of_isClosed hhere.2 hhere.1]
      exact .closed hhere.1 hhere.2
    · have hopen : status.code = .unavailable → s.isClosed = false :=
        fun hcode => Bool.eq_false_iff.mpr fun hclosed => hhere ⟨hcode, hclosed⟩
      rw [(Means.refused hopen).replyToSend_fst now]
      exact .refused hopen

end Sender

namespace System

variable {settings : SenderSettings} {y : System} {i : Nat} {t : Task} {bufs : List Bytes}

/-- the reply to the call of a batch ends it with what the reply means -/
theorem Accounted.ends_of_means (h : Accounted settings y) {r : Reply} {outcome : Outcome}
    (hr : y.Replies i t r) (hb : t.job.batch? = some bufs) (hmeans : y.sender.Means r outcome) :
    ∃ t', (y.step (.poll i (.reply r))).tasks[i]? = some t' ∧ t'.job = t.job ∧ t'.Ends outcome := by
  have htask := (h.takes hr).task hr.task
  rw [Job.reply_of_batch? hb, hmeans.replyToSend_fst] at htask
  refine ⟨t.complete outcome, htask, t.job_complete _, ?_⟩
  exact Task.ends_complete ((h.tracked i t hr.task).untold hr.unfinished) _

/-- When the call of a batch is in flight while the sender is closed, in any state that a system gets
into, and fails later on, whatever happened in between, because the destination cannot be reached,
then the batch ends as one that came after closing and the health stays as it was. -/
theorem closing_run (settings : SenderSettings) (actions later : List Action) :
    let y := (ofSettings settings).run actions
    let z := (y.step .close).run later
    ∀ i t c bufs u status, y.InFlight i t c → t.job.batch? = some bufs →
      z.tasks[i]? = some u → u.isFinished = false → status.code = .unavailable →
      let z' := z.step (.poll i (.reply (.refused status)))
      z'.sender.health = z.sender.health
        ∧ ∃ u', z'.tasks[i]? = some u' ∧ u'.job = t.job ∧ u'.Ends (.failed .closed) := by
  intro y z i t c bufs u status hc hb hu hdone hcode z'
  have hy : Accounted settings y := (accounted_ofSettings settings).run actions
  have hz : Accounted settings z := (hy.step .close).run later
  have hclosed : z.sender.isClosed := (calls_run y.close_eq.2.2 later).2
  -- closing is one more step of the run in which the call stays in flight
  obtain ⟨hflight, hjob⟩ := hy.inFlight_run hc (.close :: later) hu hdone
  have hreplies := hz.replies hflight (.refused status)
  have hub : u.job.batch? = some bufs := hjob ▸ hb
  obtain ⟨u', hu', hjob', hends⟩ := hz.ends_of_means hreplies hub (.closed hcode hclosed)
  refine ⟨?_, u', hu', hjob'.trans hjob, hends⟩
  rw [(hz.takes hreplies).health_eq, Job.reply_of_batch? hub,
    Sender.replyToSend_of_isClosed hclosed hcode]

/-- a batch in flight whose callback takes the news -/
theorem closing_run_told :
    let job : Job := .enqueued [List.replicate 33 97] (some fun _ => .returned)
    let y := (ofSettings ⟨.v2, "p", 1024, 60000⟩).run [.start job, .poll 0 .quiet]
    let z := (y.step .close).run [.cancel 0, .advance 5]
    let z' := z.step (.poll 0 (.reply (.refused ⟨.unavailable, "transport is shut down"⟩)))
    z'.sender.health = z.sender.health
      ∧ ∃ u', z'.tasks[0]? = some u' ∧ u'.job = job ∧ u'.Ends (.failed .closed) :=
  closing_run ⟨.v2, "p", 1024, 60000⟩
    [.start (.enqueued [List.replicate 33 97] (some fun _ => .returned)), .poll 0 .quiet]
    [.cancel 0, .advance 5] 0 _ _ [List.replicate 33 97] _ ⟨.unavailable, "transport is shut down"⟩
    ⟨rfl, rfl, List.mem_cons_self⟩ rfl rfl rfl rfl

/-- When the probe of a health check is in flight while the sender is closed, and is answered later on,
then the check ends with what the answer tells of the destination, and this becomes the health.  So if the
destination cannot be reached any more, the check ends with that status, and not as one that came after
closing. -/
theorem probing_run (settings : SenderSettings) (actions later : List Action) :
    let y := (ofSettings settings).run actions
    let z := (y.step .close).run later
    ∀ i t c u r, y.InFlight i t c → t.job = .check → z.tasks[i]? = some u → u.isFinished = false →
      let z' := z.step (.poll i (.reply r))
      (z'.sender.health = z.sender.health.record z.now (.ofProbe r)
        ∧ ∃ u', z'.tasks[i]? = some u' ∧ u'.outcome? = some (.ofProbe r))
      ∧ ∀ status, r = .refused status → status.code = .unavailable →
        Outcome.ofProbe r = .failed (.rpc status) := by
  intro y z i t c u r hc hcheck hu hdone z'
  have hy : Accounted settings y := (accounted_ofSettings settings).run actions
  have hz : Accounted settings z := (hy.step .close).run later
  obtain ⟨hflight, hjob⟩ := hy.inFlight_run hc (.close :: later) hu hdone
  have hreplies := hz.replies hflight r
  have hprobe : u.job = .check := hjob.trans hcheck
  refine ⟨⟨?_, hz.outcome_of_check hreplies hprobe⟩, ?_⟩
  · exact hz.health_of_observes (hreplies.observes_of_check hprobe)
  · rintro status rfl hcode
    exact Outcome.ofProbe_refused (by rw [hcode]; decide)

/-- a batch in flight whose callback crashes on the news, and a probe in flight -/
theorem closing_run_crash_and_probe :
    let job : Job := .enqueued [List.replicate 33 97] (some fun _ => .crashed (some "lost"))
    let gone : Status := ⟨.unavailable, "transport is shut down"⟩
    let y := (ofSettings ⟨.v2, "p", 1024, 60000⟩).run
      [.start job, .start .check, .poll 0 .quiet, .poll 1 .quiet]
    let z := (y.step .close).run [.poll 0 (.reply (.refused gone)), .poll 1 (.reply (.refused gone))]
    (∃ t c, y.InFlight 0 t c) ∧ (∃ t c, y.InFlight 1 t c)
      ∧ z.tasks.map Task.outcome?
        = [some (.failed (.callback "lost")), some (.failed (.rpc gone))]
      ∧ z.sender.health.latest = some ⟨.failed (.rpc gone), 0⟩ :=
  ⟨⟨_, _, rfl, rfl, List.mem_cons_self⟩, ⟨_, _, rfl, rfl, List.mem_cons_self⟩, rfl, rfl⟩

end System

end SpanCourier
