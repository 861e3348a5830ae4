import Mathlib.Data.List.Induction
import SpanCourier.Proofs.Sender.Batches
import SpanCourier.Proofs.Sender.Flight

/-!
# what is known of the destination

An observation is made by the reply to a call, or from outside.  The health of a sender is the last
observation of its run, at the time when it was made, and no other step bears on it.

* `System.Observes`       the observation that a step makes, if it makes one;
* `System.LastObserved`   the last observation of a run;
* `System.Consults`       what a health check makes of the health;
* `System.health_run`     the health is the last observation, for as long as the window lasts.
-/

namespace SpanCourier

theorem Health.current?_eq_some {h : Health} {now : Nat} {outcome : Outcome} :
    h.current? now = some outcome ↔
      ∃ o, h.latest = some o ∧ o.outcome = outcome ∧ now - o.time < h.windowMillis := by
  rw [current?, Option.map_eq_some_iff]
  refine exists_congr fun o => ?_
  rw [Option.filter_eq_some_iff, decide_eq_true_iff, and_assoc]
  exact and_congr_right fun _ => and_comm

theorem Outcome.ofProbe_eq_ok {r : Reply}
    (h : ∀ status, r = .refused status → status.code = .invalidArgument) : ofProbe r = .ok := by
  cases r with
  | accepted => rfl
  | refused status => exact if_pos (h status rfl)

theorem Outcome.ofProbe_refused {status : Status} (h : status.code ≠ .invalidArgument) :
    ofProbe (.refused status) = .failed (.rpc status) := if_neg h

theorem Job.eq_check_of_batch?_eq_none {job : Job} (h : job.batch? = none) : job = .check := by
  cases job <;> first | rfl | cases h

namespace System

/-- What a step observes of the destination: the reply to the call of a batch, unless it says nothing
about the destination, the reply to the call of a check, or what is recorded from outside. -/
inductive Observes (y : System) : Action → Outcome → Prop where
  | accepted {i : Nat} {t : Task} {bufs : List Bytes} (hr : y.Replies i t .accepted)
      (hb : t.job.batch? = some bufs) : Observes y (.poll i (.reply .accepted)) .ok
  /-- a batch that is refused as invalid says nothing, and neither does a transport that cannot be
  reached once the sender is closed -/
  | refused {i : Nat} {t : Task} {bufs : List Bytes} {status : Status}
      (hr : y.Replies i t (.refused status)) (hb : t.job.batch? = some bufs)
      (hvalid : status.code ≠ .invalidArgument)
      (hopen : status.code = .unavailable → y.sender.isClosed = false) :
      Observes y (.poll i (.reply (.refused status))) (.failed (.rpc status))
  | healthy {i : Nat} {t : Task} {r : Reply} (hr : y.Replies i t r) (hc : t.job = .check)
      (hinvalid : ∀ status, r = .refused status → status.code = .invalidArgument) :
      Observes y (.poll i (.reply r)) .ok
  | ill {i : Nat} {t : Task} {status : Status} (hr : y.Replies i t (.refused status))
      (hc : t.job = .check) (hvalid : status.code ≠ .invalidArgument) :
      Observes y (.poll i (.reply (.refused status))) (.failed (.rpc status))
  | recorded (outcome : Outcome) : Observes y (.record outcome) outcome

/-- an action of a run, by its number, makes an observation -/
structure ObservedAt (y : System) (actions : List Action) (k : Nat) (o : Observation) : Prop where
  observes : ∃ a, actions[k]? = some a ∧ (y.run (actions.take k)).Observes a o.outcome
  time_eq : o.time = (y.run (actions.take k)).now

/-- the last observation of a run -/
def LastObserved (y : System) (actions : List Action) (o : Observation) : Prop :=
  ∃ k, y.ObservedAt actions k o ∧ ∀ j o', y.ObservedAt actions j o' → j ≤ k

/-- what a step makes of a health check that runs for the first time -/
structure Consults (settings : SenderSettings) (y : System) (i : Nat) (y' : System) : Prop where
  closed : y.sender.isClosed → y.Settles i (.failed .closed) y'
  recent : y.sender.isClosed = false → ∀ outcome,
    y.sender.health.current? y.now = some outcome → y.Settles i outcome y'
  unknown : y.sender.isClosed = false → y.sender.health.current? y.now = none →
    y.Calls i (probeCall settings.apiVersion settings.projectId) y'

variable {settings : SenderSettings} {y : System} {i k : Nat} {t : Task} {a : Action}
  {actions : List Action} {outcome : Outcome} {o : Observation}

/-! ## steps -/

theorem health_close (y : System) : y.close.sender.health = y.sender.health := by
  rw [close]
  split <;> rfl

theorem now_le_step (y : System) (a : Action) : y.now ≤ (y.step a).now := by
  cases a with
  | poll i signal =>
    have hran := y.ran_poll i signal
    have hnow : (y.poll i signal).now = y.now := by
      generalize y.poll i signal = y' at hran
      cases hran <;> rfl
    exact Nat.le_of_eq hnow.symm
  | advance millis => exact Nat.le_add_right y.now millis
  | close =>
    show y.now ≤ y.close.now
    rw [close]
    split <;> exact Nat.le_refl _
  | _ => exact Nat.le_refl _

/-- an observation becomes the health -/
theorem Accounted.health_of_observes (h : Accounted settings y) (ho : y.Observes a outcome) :
    (y.step a).sender.health = y.sender.health.record y.now outcome := by
  cases ho with
  | accepted hr hb =>
    rw [(h.takes hr).health_eq, Job.reply_of_batch? hb]
    rfl
  | refused hr hb hvalid hopen =>
    have hhere : ¬ (_ ∧ y.sender.isClosed) := fun hgone =>
      Bool.false_ne_true ((hopen hgone.1).symm.trans hgone.2)
    rw [(h.takes hr).health_eq, Job.reply_of_batch? hb, Sender.replyToSend, if_neg hhere,
      if_neg hvalid]
    rfl
  | healthy hr hc hinvalid =>
    rw [(h.takes hr).health_eq, hc, ← Outcome.ofProbe_eq_ok hinvalid]
    rfl
  | ill hr hc hvalid =>
    rw [(h.takes hr).health_eq, hc, ← Outcome.ofProbe_refused hvalid]
    rfl
  | recorded outcome => rfl

/-- the reply to the call of a check is an observation, whatever it is -/
theorem Replies.observes_of_check {r : Reply} (hr : y.Replies i t r) (hc : t.job = .check) :
    y.Observes (.poll i (.reply r)) (.ofProbe r) := by
  by_cases hinvalid : ∀ status, r = .refused status → status.code = .invalidArgument
  · rw [Outcome.ofProbe_eq_ok hinvalid]
    exact .healthy hr hc hinvalid
  · obtain ⟨status, himp⟩ := Classical.not_forall.mp hinvalid
    obtain ⟨rfl, hvalid⟩ := Classical.not_imp.mp himp
    rw [Outcome.ofProbe_refused hvalid]
    exact .ill hr hc hvalid

/-- the reply to a call that is no observation leaves the health as it is -/
theorem Replies.health_eq {r : Reply} (hr : y.Replies i t r)
    (hno : ∀ outcome, ¬ y.Observes (.poll i (.reply r)) outcome) :
    (t.job.reply y.sender y.now r).2.health = y.sender.health := by
  cases hb : t.job.batch? with
  | none =>
    exact absurd (hr.observes_of_check (Job.eq_check_of_batch?_eq_none hb)) (hno _)
  | some bufs =>
    rw [Job.reply_of_batch? hb]
    cases r with
    | accepted => exact absurd (.accepted hr hb) (hno _)
    | refused status =>
      rw [Sender.replyToSend]
      split
      · rfl
      · next hhere =>
        split
        · rfl
        · next hvalid =>
          refine absurd (.refused hr hb hvalid fun hcode => ?_) (hno _)
          exact Bool.eq_false_iff.mpr fun hclosed => hhere ⟨hcode, hclosed⟩

/-- a step that makes no observation leaves the health as it is -/
theorem Accounted.health_of_not_observes (h : Accounted settings y)
    (hno : ∀ outcome, ¬ y.Observes a outcome) : (y.step a).sender.health = y.sender.health := by
  cases a with
  | poll i signal =>
    cases signal with
    | reply r =>
      rcases h.replies_or i r with ⟨t, hr, htakes⟩ | ⟨-, heq⟩
      · exact htakes.health_eq.trans (hr.health_eq hno)
      · exact heq
    | quiet => exact (y.polled_poll i .quiet).health_eq fun _ h => nomatch h
    | crash report => exact (y.polled_poll i (.crash report)).health_eq fun _ h => nomatch h
  | record outcome => exact absurd (.recorded outcome) (hno outcome)
  | close => exact y.health_close
  | measure bufs => exact (y.sender.keeps_measure bufs).health_eq
  | measureOne n => exact (y.sender.keeps_measureOne n).health_eq
  | start job => rfl
  | cancel i => rfl
  | advance millis => rfl
  | stop => rfl

/-! ## runs -/

theorem run_concat (y : System) (actions : List Action) (a : Action) :
    y.run (actions ++ [a]) = (y.run actions).step a := y.run_append actions [a]

theorem now_le_run (y : System) (actions : List Action) : y.now ≤ (y.run actions).now := by
  induction actions generalizing y with
  | nil => exact Nat.le_refl _
  | cons a actions ih => exact Nat.le_trans (y.now_le_step a) (ih (y.step a))

theorem ObservedAt.lt (h : y.ObservedAt actions k o) : k < actions.length := by
  obtain ⟨a, hk, -⟩ := h.observes
  exact (List.getElem?_eq_some_iff.mp hk).1

theorem ObservedAt.time_le (h : y.ObservedAt actions k o) : o.time ≤ (y.run actions).now := by
  have hsplit : y.run actions = (y.run (actions.take k)).run (actions.drop k) := by
    rw [← run_append, List.take_append_drop]
  rw [h.time_eq, hsplit]
  exact now_le_run _ _

/-- the observations of a run that goes on by one step -/
theorem observedAt_concat : y.ObservedAt (actions ++ [a]) k o ↔
    y.ObservedAt actions k o
      ∨ k = actions.length ∧ (y.run actions).Observes a o.outcome
        ∧ o.time = (y.run actions).now := by
  -- the number is one of the old run, the new one, or too large
  rcases Nat.lt_trichotomy k actions.length with hlt | rfl | hgt
  · have hget : (actions ++ [a])[k]? = actions[k]? := List.getElem?_append_left hlt
    have htake : (actions ++ [a]).take k = actions.take k := List.take_append_of_le_length (Nat.le_of_lt hlt)
    constructor
    · rintro ⟨hobs, htime⟩
      rw [hget, htake] at hobs
      rw [htake] at htime
      exact Or.inl ⟨hobs, htime⟩
    · rintro (⟨hobs, htime⟩ | ⟨heq, -⟩)
      · rw [← htake] at hobs htime
        rw [← hget] at hobs
        exact ⟨hobs, htime⟩
      · exact absurd heq (Nat.ne_of_lt hlt)
  · have hget : (actions ++ [a])[actions.length]? = some a := List.getElem?_concat_length
    have htake : (actions ++ [a]).take actions.length = actions := List.take_left
    constructor
    · rintro ⟨⟨b, hb, hobs⟩, htime⟩
      rw [hget] at hb
      cases hb
      rw [htake] at hobs htime
      exact Or.inr ⟨rfl, hobs, htime⟩
    · rintro (hat | ⟨-, hobs, htime⟩)
      · exact absurd hat.lt (Nat.lt_irrefl _)
      · exact ⟨⟨a, hget, by rwa [htake]⟩, by rwa [htake]⟩
  · constructor
    · intro hat
      have hlt := hat.lt
      rw [List.length_append, List.length_singleton] at hlt
      omega
    · rintro (hat | ⟨heq, -⟩)
      · exact absurd hat.lt (Nat.lt_asymm hgt)
      · exact absurd heq (Nat.ne_of_gt hgt)

theorem lastObserved_concat_of_observes (h : (y.run actions).Observes a outcome) :
    y.LastObserved (actions ++ [a]) o ↔
      (y.run actions).Observes a o.outcome ∧ o.time = (y.run actions).now := by
  constructor
  · rintro ⟨k, hat, hlast⟩
    have hlen : actions.length ≤ k :=
      hlast _ ⟨outcome, (y.run actions).now⟩ (observedAt_concat.mpr (Or.inr ⟨rfl, h, rfl⟩))
    rcases observedAt_concat.mp hat with hold | ⟨-, hobs⟩
    · exact absurd hold.lt (Nat.not_lt_of_le hlen)
    · exact hobs
  · intro hobs
    refine ⟨actions.length, observedAt_concat.mpr (Or.inr ⟨rfl, hobs⟩), fun j o' hj => ?_⟩
    have hlt := hj.lt
    rw [List.length_append, List.length_singleton] at hlt
    exact Nat.le_of_lt_succ hlt

theorem lastObserved_concat_of_not_observes (h : ∀ outcome, ¬ (y.run actions).Observes a outcome) :
    y.LastObserved (actions ++ [a]) o ↔ y.LastObserved actions o := by
  have hat : ∀ j o', y.ObservedAt (actions ++ [a]) j o' ↔ y.ObservedAt actions j o' := fun j o' =>
    observedAt_concat.trans (or_iff_left fun hnew => h _ hnew.2.1)
  simp only [LastObserved, hat]

/-- the last observation of a run is the one that a sender keeps -/
theorem Accounted.latest_run (h : Accounted settings y) (hnone : y.sender.health.latest = none)
    (actions : List Action) (o : Observation) :
    (y.run actions).sender.health.latest = some o ↔ y.LastObserved actions o := by
  -- the run grows at its end: its last step decides, unless it observes nothing
  induction actions using List.reverseRecOn generalizing o with
  | nil =>
    have hnil : ¬ y.LastObserved [] o := fun ⟨k, hat, _⟩ => Nat.not_lt_zero k hat.lt
    rw [run_nil, hnone]
    exact iff_of_false (fun hsome => nomatch hsome) hnil
  | append_singleton actions a ih =>
    have hy := h.run actions
    rw [run_concat]
    by_cases hobs : ∃ outcome, (y.run actions).Observes a outcome
    · obtain ⟨outcome, hobs⟩ := hobs
      have hlatest := congrArg Health.latest (hy.health_of_observes hobs)
      rw [lastObserved_concat_of_observes hobs, hlatest]
      constructor
      · rintro ⟨⟩
        exact ⟨hobs, rfl⟩
      · rintro ⟨hobs', htime⟩
        rw [← hlatest, hy.health_of_observes hobs', ← htime]
        rfl
    · rw [lastObserved_concat_of_not_observes (not_exists.mp hobs),
        hy.health_of_not_observes (not_exists.mp hobs)]
      exact ih o

theorem Accounted.windowMillis_run (h : Accounted settings y) (actions : List Action) :
    (y.run actions).sender.health.windowMillis = y.sender.health.windowMillis := by
  induction actions generalizing y with
  | nil => rfl
  | cons a actions ih =>
    refine (ih (h.step a)).trans ?_
    by_cases hobs : ∃ outcome, y.Observes a outcome
    · obtain ⟨outcome, hobs⟩ := hobs
      rw [h.health_of_observes hobs]
      rfl
    · rw [h.health_of_not_observes (not_exists.mp hobs)]

/-! ## health checks -/

theorem Sound.consults (h : Sound settings y) (ht : y.tasks[i]? = some t) (hw : t.stage = .waiting)
    (hc : t.job = .check) (signal : Signal) :
    Consults settings y i (y.step (.poll i signal)) := by
  have hg : t.isGivenUp = false := by
    rw [Task.isGivenUp, hc]
    rfl
  have hstart : (t.job.start y.sender y.now).1 = y.sender.startCheck y.now := by
    rw [hc]
    rfl
  constructor
  · intro hclosed
    exact settles_of_done h ht hw hg signal
      (hstart.trans (Sender.startCheck_of_isClosed hclosed y.now))
  · intro hopen outcome hcurrent
    refine settles_of_done h ht hw hg signal (hstart.trans ?_)
    rw [Sender.startCheck, if_neg (ne_true_of_eq_false hopen), hcurrent]
  · intro hopen hcurrent
    refine calls_of_call h ht hw hg signal (hstart.trans ?_)
    rw [Sender.startCheck, if_neg (ne_true_of_eq_false hopen), hcurrent, h.settings_eq]

/-- a check ends with what the reply to its call tells of the destination -/
theorem Accounted.outcome_of_check (h : Accounted settings y) {r : Reply} (hr : y.Replies i t r)
    (hc : t.job = .check) :
    ∃ t', (y.step (.poll i (.reply r))).tasks[i]? = some t' ∧ t'.outcome? = some (.ofProbe r) := by
  refine ⟨_, (h.takes hr).task hr.task, ?_⟩
  rw [Task.complete, hc]
  rfl

/-- In every state that a system gets into, its health is the last observation of its run, at the time
when that was made, and it shows for as long as the window lasts.  Every observation becomes the
health at once, and a step that makes none leaves it as it is.  A health check answers with what
shows, and only if nothing does a call is made for it; it ends with what this call observes. -/
theorem health_run (settings : SenderSettings) (actions : List Action) :
    let y := (ofSettings settings).run actions
    (∀ o, y.sender.health.latest = some o ↔ (ofSettings settings).LastObserved actions o)
    ∧ (∀ o, (ofSettings settings).LastObserved actions o → o.time ≤ y.now)
    ∧ (∀ outcome, y.sender.health.current? y.now = some outcome ↔
      ∃ o, (ofSettings settings).LastObserved actions o ∧ o.outcome = outcome
        ∧ y.now - o.time < settings.healthWindowMillis)
    ∧ (∀ a outcome, y.Observes a outcome →
      (y.step a).sender.health.latest = some ⟨outcome, y.now⟩)
    ∧ (∀ a, (∀ outcome, ¬ y.Observes a outcome) → (y.step a).sender.health = y.sender.health)
    ∧ (∀ i t signal, y.tasks[i]? = some t → t.stage = .waiting → t.job = .check →
      Consults settings y i (y.step (.poll i signal)))
    ∧ ∀ i t r, y.Replies i t r → t.job = .check →
      ∃ outcome t', y.Observes (.poll i (.reply r)) outcome
        ∧ (y.step (.poll i (.reply r))).tasks[i]? = some t' ∧ t'.outcome? = some outcome := by
  intro y
  have hnew := accounted_ofSettings settings
  have h : Accounted settings y := hnew.run actions
  have hlatest : ∀ o, y.sender.health.latest = some o
      ↔ (ofSettings settings).LastObserved actions o := hnew.latest_run rfl actions
  have hwindow : y.sender.health.windowMillis = settings.healthWindowMillis :=
    hnew.windowMillis_run actions
  refine ⟨hlatest, ?_, ?_, ?_, ?_, ?_, ?_⟩
  · intro o ⟨k, hat, _⟩
    exact hat.time_le
  · intro outcome
    simp only [Health.current?_eq_some, hlatest, hwindow]
  · intro a outcome hobs
    rw [h.health_of_observes hobs]
    rfl
  · intro a hno
    exact h.health_of_not_observes hno
  · intro i t signal ht hw hc
    exact h.toSound.consults ht hw hc signal
  · intro i t r hr hc
    obtain ⟨t', ht', hout⟩ := h.outcome_of_check hr hc
    exact ⟨_, t', hr.observes_of_check hc, ht', hout⟩

/-- of two probes in flight at once the later reply counts, for as long as the window lasts -/
theorem health_run_two_probes :
    let settings : SenderSettings := ⟨.v2, "p", 1024, 60000⟩
    let blank : Reply := .refused ⟨.invalidArgument, "blank"⟩
    let first : List Action := [.start .check, .start .check, .poll 1 .quiet, .poll 0 .quiet,
      .advance 5, .poll 0 (.reply (.refused ⟨.internal, "down"⟩)), .advance 7]
    let second : List Action := [.poll 1 (.reply blank), .start .check]
    let x := (ofSettings settings).run first
    let y := (ofSettings settings).run (first ++ second ++ [.advance 59999])
    let z := (ofSettings settings).run (first ++ second ++ [.advance 60000])
    (∃ outcome t', x.Observes (.poll 1 (.reply blank)) outcome
        ∧ (x.step (.poll 1 (.reply blank))).tasks[1]? = some t' ∧ t'.outcome? = some outcome)
      ∧ (ofSettings settings).LastObserved (first ++ second ++ [.advance 59999]) ⟨.ok, 12⟩
      ∧ (y.step .close).sender.health = y.sender.health
      ∧ y.Settles 2 .ok (y.step (.poll 2 .quiet))
      ∧ z.Calls 2 (probeCall .v2 "p") (z.step (.poll 2 .quiet)) :=
  ⟨(health_run ⟨.v2, "p", 1024, 60000⟩ _).2.2.2.2.2.2 1 _ (.refused ⟨.invalidArgument, "blank"⟩)
      ⟨rfl, rfl, List.cons_ne_nil _ _⟩ rfl,
    ((health_run ⟨.v2, "p", 1024, 60000⟩ _).1 _).mp rfl,
    (health_run ⟨.v2, "p", 1024, 60000⟩ _).2.2.2.2.1 .close (fun _ h => nomatch h),
    ((health_run ⟨.v2, "p", 1024, 60000⟩ _).2.2.2.2.2.1 2 _ .quiet rfl rfl rfl).recent rfl .ok rfl,
    ((health_run ⟨.v2, "p", 1024, 60000⟩ _).2.2.2.2.2.1 2 _ .quiet rfl rfl rfl).unknown rfl rfl⟩

end System

end SpanCourier
