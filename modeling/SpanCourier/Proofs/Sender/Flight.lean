import SpanCourier.Proofs.Sender.Runs

/-!
# calls in flight

A call is in flight from when it is made until the task that waits for it is done.  Along every run
the calls in flight are those that the tasks wait for, at most one for each task, and what is told to a
callback is told when its task is done.

* `System.InFlight`        a call that was made for a task that is not done;
* `System.Accounted`       a sound state that knows its calls in flight;
* `Accounted.run`          every state that a system gets into is accounted;
* `Accounted.replies_or`   a task takes a reply if a call was made for it, and only then.
-/

namespace SpanCourier

namespace Task

theorem isFinished_of_waiting {t : Task} (h : t.stage = .waiting) : t.isFinished = false := by
  rw [isFinished, outcome?, h]
  rfl

theorem isFinished_of_calling {t : Task} {c : Call} (h : t.stage = .calling c) :
    t.isFinished = false := by
  rw [isFinished, outcome?, h]
  rfl

/-- what is known of a task by the calls that were made for it: until the task is done nothing was
told to its callback, and a call that it waits for is the only one -/
structure Tracked (t : Task) (calls : List Call) : Prop where
  untold : t.isFinished = false → t.told = []
  called : ∀ c, t.stage = .calling c → calls = [c]

theorem tracked_of_isFinished {t : Task} (h : t.isFinished) (calls : List Call) :
    t.Tracked calls where
  untold h' := absurd (h'.symm.trans h) Bool.false_ne_true
  called _ hc := absurd ((isFinished_of_calling hc).symm.trans h) Bool.false_ne_true

theorem tracked_complete (t : Task) (outcome : Outcome) (calls : List Call) :
    (t.complete outcome).Tracked calls := tracked_of_isFinished (t.isFinished_complete outcome) calls

theorem complete_calling (t : Task) (c : Call) (outcome : Outcome) :
    { t with stage := .calling c }.complete outcome = t.complete outcome := rfl

end Task

/-- what a reply means depends on no more of the sender than whether it is closed and its health -/
theorem Job.reply_of_keeps {s s' : Sender} (h : s.Keeps s') (job : Job) (now : Nat) (r : Reply) :
    (job.reply s' now r).1 = (job.reply s now r).1
      ∧ (job.reply s' now r).2.health = (job.reply s now r).2.health := by
  have hrecord : ∀ outcome, (s'.record now outcome).health = (s.record now outcome).health :=
    fun outcome => congrArg (Health.record · now outcome) h.health_eq
  have hsend : (s'.replyToSend now r).1 = (s.replyToSend now r).1
      ∧ (s'.replyToSend now r).2.health = (s.replyToSend now r).2.health := by
    cases r with
    | accepted => exact ⟨rfl, hrecord _⟩
    | refused status =>
      simp only [Sender.replyToSend, h.isClosed_eq]
      split
      · exact ⟨rfl, h.health_eq⟩
      · split
        · exact ⟨rfl, h.health_eq⟩
        · exact ⟨rfl, hrecord _⟩
  cases job with
  | send bufs => exact hsend
  | enqueued bufs callback => exact hsend
  | check => exact ⟨rfl, hrecord _⟩

namespace System

/-- a call was made for a task, which is not done -/
structure InFlight (y : System) (i : Nat) (t : Task) (c : Call) : Prop where
  task : y.tasks[i]? = some t
  unfinished : t.isFinished = false
  made : c ∈ y.callsOf i

/-- a sound state in which all is known of the tasks that are not done -/
structure Accounted (settings : SenderSettings) (y : System) : Prop extends Sound settings y where
  tracked : ∀ (i : Nat) (t : Task), y.tasks[i]? = some t → t.Tracked (y.callsOf i)

variable {settings : SenderSettings} {y : System} {i : Nat} {t : Task}

/-- a call in flight is the one that its task waits for -/
theorem Accounted.calling_of_inFlight {c : Call} (h : Accounted settings y)
    (hc : y.InFlight i t c) : t.stage = .calling c := by
  obtain ⟨ht, hdone, hmade⟩ := hc
  cases hstage : t.stage with
  | waiting =>
    rw [h.callsOf_of_waiting ht hstage] at hmade
    exact absurd hmade List.not_mem_nil
  | calling c' =>
    rw [(h.tracked i t ht).called c' hstage, List.mem_singleton] at hmade
    rw [hmade]
  | finished outcome =>
    rw [Task.isFinished, Task.outcome?, hstage] at hdone
    cases hdone

theorem Accounted.setOut_of_inFlight {c : Call} (h : Accounted settings y)
    (hc : y.InFlight i t c) : y.SetOut i :=
  ⟨t, hc.task, stage_calling_ne (h.calling_of_inFlight hc)⟩

theorem accounted_ofSettings (settings : SenderSettings) :
    Accounted settings (ofSettings settings) where
  toSound := sound_ofSettings settings
  tracked _ _ ht := nomatch ht

/-! ## steps -/

/-- one task changes, and calls are made for no other one -/
theorem Accounted.tracked_set (h : Accounted settings y) {y' : System} {j : Nat} {u u' : Task}
    (hu : y.tasks[j]? = some u) (htasks : y'.tasks = y.tasks.set j u')
    (hcalls : ∀ i, i ≠ j → y'.callsOf i = y.callsOf i) (hj : u'.Tracked (y'.callsOf j))
    (ht : y'.tasks[i]? = some t) : t.Tracked (y'.callsOf i) := by
  rw [htasks, getElem?_set_of_some hu] at ht
  by_cases hij : j = i
  · subst hij
    rw [if_pos rfl] at ht
    cases ht
    exact hj
  · rw [if_neg hij] at ht
    rw [hcalls i (Ne.symm hij)]
    exact h.tracked i t ht

theorem tracked_settle {calls : List Call} (ht : t.Tracked calls) (signal : Signal) :
    ∃ s' t', y.settle i t signal = { y with sender := s', tasks := y.tasks.set i t' }
      ∧ t'.Tracked calls := by
  cases signal with
  | quiet =>
    rw [settle]
    split
    · exact ⟨_, _, rfl, t.tracked_complete _ calls⟩
    · exact ⟨_, _, rfl, ht⟩
  | reply r => exact ⟨_, _, rfl, t.tracked_complete _ calls⟩
  | crash report => exact ⟨_, _, rfl, Task.tracked_of_isFinished rfl calls⟩

theorem Accounted.tracked_poll (h : Accounted settings y) (j : Nat) (signal : Signal)
    (ht : (y.poll j signal).tasks[i]? = some t) : t.Tracked ((y.poll j signal).callsOf i) := by
  have hpolled := y.polled_poll j signal
  generalize y.poll j signal = y' at hpolled ht
  cases hpolled with
  | idle => exact h.tracked i t ht
  | @ended u s' outcome hu hw hs =>
    exact h.tracked_set hu rfl (fun _ _ => rfl) (u.tracked_complete outcome _) ht
  | @called u s' c hu hw hopen hs =>
    have hcallsOf := callsOf_append y
    -- no call was made before the task set out, so this one stays the only one
    have hmade : y.callsOf j ++ [c] = [c] := by
      rw [h.callsOf_of_waiting hu hw, List.nil_append]
    have hnew : Task.Tracked { u with stage := .calling c } [c] :=
      ⟨fun _ => (h.tracked j u hu).untold (Task.isFinished_of_waiting hw),
        fun c' hc' => by cases hc'; rfl⟩
    obtain ⟨s'', u', heq, hu'⟩ := tracked_settle
      (y := { y with sender := s', calls := y.calls ++ [(j, c)] }) (i := j) hnew signal
    rw [heq] at ht ⊢
    refine h.tracked_set hu rfl (fun k hk => ?_) ?_ ht
    · exact (hcallsOf k j c).trans (by rw [if_neg (Ne.symm hk), List.append_nil])
    · have hj := (hcallsOf j j c).trans (by rw [if_pos rfl, hmade])
      exact hj.symm ▸ hu'
  | @waited u c hu =>
    obtain ⟨s', u', heq, hu'⟩ := tracked_settle (y := y) (i := j) (h.tracked j u hu) signal
    rw [heq] at ht ⊢
    exact h.tracked_set hu rfl (fun _ _ => rfl) hu' ht

theorem tracked_new (job : Job) (calls : List Call) : Task.Tracked { job } calls :=
  ⟨fun _ => rfl, fun _ hc => nomatch hc⟩

theorem Accounted.tracked_start (h : Accounted settings y) (job : Job)
    (ht : (y.start job).tasks[i]? = some t) : t.Tracked (y.callsOf i) := by
  rcases Nat.lt_or_ge i y.tasks.length with hlt | hge
  · exact h.tracked i t ((List.getElem?_append_left hlt).symm.trans ht)
  · have hlast := (List.getElem?_append_right hge).symm.trans ht
    obtain rfl := List.mem_singleton.mp (List.mem_of_getElem? hlast)
    split
    · exact Task.tracked_of_isFinished rfl _
    · exact tracked_new job _

theorem Accounted.step (h : Accounted settings y) (a : Action) :
    Accounted settings (y.step a) := by
  refine ⟨h.toSound.step a, fun i t ht => ?_⟩
  cases a with
  | poll j signal => exact h.tracked_poll j signal ht
  | start job => exact h.tracked_start job ht
  | cancel j =>
    have hmodify : (y.tasks.modify j fun u => { u with isCancelled := true })[i]? = some t := ht
    rw [List.getElem?_modify] at hmodify
    obtain ⟨u, hu, rfl⟩ := Option.map_eq_some_iff.mp hmodify
    have htracked := h.tracked i u hu
    split
    · exact ⟨htracked.untold, htracked.called⟩
    · exact htracked
  | close =>
    obtain ⟨htasks, hcalls, -⟩ := y.close_eq
    have hclosed : y.close.tasks[i]? = some t := ht
    have hcallsOf : y.close.callsOf i = y.callsOf i := by
      rw [callsOf, hcalls]
      rfl
    rw [htasks] at hclosed
    exact hcallsOf.symm ▸ h.tracked i t hclosed
  | stop =>
    have hmap : (y.tasks.map fun u =>
        if u.job.isEnqueued && !u.isFinished then u.finish (.failed .cancelled) else u)[i]?
          = some t := ht
    rw [List.getElem?_map] at hmap
    obtain ⟨u, hu, rfl⟩ := Option.map_eq_some_iff.mp hmap
    split
    · exact Task.tracked_of_isFinished rfl _
    · exact h.tracked i u hu
  | record outcome => exact h.tracked i t ht
  | advance millis => exact h.tracked i t ht
  | measure bufs => exact h.tracked i t ht
  | measureOne n => exact h.tracked i t ht

theorem Accounted.run (h : Accounted settings y) (actions : List Action) :
    Accounted settings (y.run actions) := by
  induction actions generalizing y with
  | nil => exact h
  | cons a actions ih => exact ih (h.step a)

/-- a call stays in flight, and is for the same job, until its task is done -/
theorem Accounted.inFlight_run (h : Accounted settings y) {c : Call} (hc : y.InFlight i t c)
    (actions : List Action) {u : Task} (hu : (y.run actions).tasks[i]? = some u)
    (hdone : u.isFinished = false) : (y.run actions).InFlight i u c ∧ u.job = t.job := by
  constructor
  · refine ⟨hu, hdone, ?_⟩
    rw [callsOf_run (h.setOut_of_inFlight hc)]
    exact hc.made
  · obtain ⟨u', hu', hon⟩ := onward_run hc.task actions
    obtain rfl : u' = u := Option.some.inj (hu'.symm.trans hu)
    exact hon.job_eq

/-! ## replies -/

/-- letting a task run with a reply of the transport is what the call of the task waits for: the task
was not done, and a call was made for it at the latest now -/
structure Replies (y : System) (i : Nat) (t : Task) (r : Reply) : Prop where
  task : y.tasks[i]? = some t
  unfinished : t.isFinished = false
  made : (y.step (.poll i (.reply r))).callsOf i ≠ []

/-- a step in which a task takes the reply to its call -/
structure Takes (y : System) (i : Nat) (t : Task) (r : Reply) (y' : System) : Prop where
  tasks_eq : y'.tasks = y.tasks.set i (t.complete (t.job.reply y.sender y.now r).1)
  health_eq : y'.sender.health = (t.job.reply y.sender y.now r).2.health

theorem Takes.task {r : Reply} {y' : System} (h : y.Takes i t r y') (ht : y.tasks[i]? = some t) :
    y'.tasks[i]? = some (t.complete (t.job.reply y.sender y.now r).1) := by
  rw [h.tasks_eq]
  exact getElem?_set_self ht _

theorem takes_settle (y : System) (i : Nat) (t : Task) (r : Reply) :
    y.Takes i t r (y.settle i t (.reply r)) := ⟨rfl, rfl⟩

/-- when a task runs with a reply it takes it, or no call was made for it -/
theorem Accounted.takes_or (h : Accounted settings y) (i : Nat) (r : Reply) {y' : System}
    (hpolled : y.Polled i (.reply r) y') :
    (∃ t, y.tasks[i]? = some t ∧ t.isFinished = false ∧ y'.callsOf i ≠ [] ∧ y.Takes i t r y')
      ∨ ((∀ t, y.tasks[i]? = some t → t.isFinished = false → y'.callsOf i = [])
        ∧ y'.sender.health = y.sender.health) := by
  cases hpolled with
  | idle hdone =>
    exact Or.inr ⟨fun t ht hf => absurd (hf.symm.trans (hdone t ht)) Bool.false_ne_true, rfl⟩
  | @ended t s' outcome ht hw hs =>
    exact Or.inr ⟨fun _ _ _ => h.callsOf_of_waiting ht hw, hs.health_eq⟩
  | @called t s' c ht hw hopen hs =>
    -- a call that is answered in the step that makes it; the sender that takes the reply is as
    -- closed and as healthy as the one before the step
    refine Or.inl ⟨t, ht, Task.isFinished_of_waiting hw, ?_, ?_, ?_⟩
    · have hcallsOf := (callsOf_append y i i c).trans (by rw [if_pos rfl])
      exact fun hnil => List.cons_ne_nil c [] (List.append_eq_nil_iff.mp (hcallsOf.symm.trans hnil)).2
    · show y.tasks.set i _ = _
      rw [Task.complete_calling]
      exact congrArg (fun o => y.tasks.set i (t.complete o)) (t.job.reply_of_keeps hs y.now r).1
    · exact (t.job.reply_of_keeps hs y.now r).2
  | @waited t c ht hc =>
    refine Or.inl ⟨t, ht, Task.isFinished_of_calling hc, ?_, y.takes_settle i t r⟩
    have hcalls : (y.settle i t (.reply r)).callsOf i = [c] := (h.tracked i t ht).called c hc
    rw [hcalls]
    exact List.cons_ne_nil c []

theorem Accounted.replies_or (h : Accounted settings y) (i : Nat) (r : Reply) :
    (∃ t, y.Replies i t r ∧ y.Takes i t r (y.step (.poll i (.reply r))))
      ∨ ((∀ t, ¬ y.Replies i t r)
        ∧ (y.step (.poll i (.reply r))).sender.health = y.sender.health) := by
  rcases h.takes_or i r (y.polled_poll i (.reply r)) with ⟨t, ht, hdone, hmade, htakes⟩ | ⟨hnil, heq⟩
  · exact Or.inl ⟨t, ⟨ht, hdone, hmade⟩, htakes⟩
  · exact Or.inr ⟨fun t hr => hr.made (hnil t hr.task hr.unfinished), heq⟩

/-- a task takes the reply that its call waits for -/
theorem Accounted.takes (h : Accounted settings y) {r : Reply} (hr : y.Replies i t r) :
    y.Takes i t r (y.step (.poll i (.reply r))) := by
  rcases h.replies_or i r with ⟨u, hu, htakes⟩ | ⟨hnone, -⟩
  · obtain rfl : u = t := Option.some.inj (hu.task.symm.trans hr.task)
    exact htakes
  · exact absurd hr (hnone t)

/-- any reply is what a call in flight waits for -/
theorem Accounted.replies (h : Accounted settings y) {c : Call} (hc : y.InFlight i t c) (r : Reply) :
    y.Replies i t r := by
  refine ⟨hc.task, hc.unfinished, ?_⟩
  rw [(setOut_step (h.setOut_of_inFlight hc) (.poll i (.reply r))).2]
  exact List.ne_nil_of_mem hc.made

/-- a task that runs without a reply leaves the health as it is -/
theorem Polled.health_eq {signal : Signal} {y' : System} (h : y.Polled i signal y')
    (hsignal : ∀ r, signal ≠ .reply r) : y'.sender.health = y.sender.health := by
  have hsettle : ∀ (z : System) (u : Task), (z.settle i u signal).sender = z.sender := by
    intro z u
    cases signal with
    | quiet =>
      rw [settle]
      split <;> rfl
    | reply r => exact absurd rfl (hsignal r)
    | crash report => rfl
  cases h with
  | idle => rfl
  | ended ht hw hs => exact hs.health_eq
  | called ht hw hopen hs => exact (congrArg Sender.health (hsettle _ _)).trans hs.health_eq
  | waited ht hc => exact congrArg Sender.health (hsettle y _)

end System

end SpanCourier
