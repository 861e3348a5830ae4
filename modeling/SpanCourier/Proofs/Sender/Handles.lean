import SpanCourier.Proofs.Sender.Closing

/-!
# the handle of a batch

A batch that is worked on in the background looks at no more of the system than its own task and
whether the sender is closed.  What it would do with a sender for itself (`Task.turn`) is what it does
in any system, and whatever happens to other tasks, to the health and to the clock has no bearing on
it.

* `System.getElem?_step`   what a step makes of the task of a batch;
* `System.Alike`           two states that are the same for one task;
* `System.alike_run`       actions that do not concern a task can be left out of a run.
-/

namespace SpanCourier

namespace Sender
variable {s s' : Sender}

/-- a sender that no task has used yet -/
def unused (settings : SenderSettings) (isClosed : Bool) : Sender :=
  { Sender.ofSettings settings with isClosed }

theorem pooled_unused (settings : SenderSettings) (isClosed : Bool) :
    (unused settings isClosed).Pooled := fun _ h => nomatch h

theorem traceIdLength_le_of_firstShort? {bufs : List Bytes} (h : firstShort? bufs = none) :
    ∀ b ∈ bufs, traceIdLength ≤ b.length := by
  intro b hb
  obtain ⟨k, hk⟩ := List.mem_iff_getElem?.mp hb
  have hmem : (b, k) ∈ bufs.zipIdx := List.mem_zipIdx_iff_getElem?.mpr hk
  have hlong := List.find?_eq_none.mp h (b, k) hmem
  exact Nat.le_of_not_lt fun hlt => hlong (isShort_iff.mpr hlt)

/-- how a batch sets out depends on the settings and on whether the sender is closed -/
theorem startSend_fst_eq (hp : s.Pooled) (hp' : s'.Pooled) (hsettings : s'.settings = s.settings)
    (hclosed : s'.isClosed = s.isClosed) (bufs : List Bytes) :
    (s'.startSend bufs).1 = (s.startSend bufs).1 := by
  cases hc : s.isClosed with
  | true => rw [startSend_of_isClosed hc, startSend_of_isClosed (hclosed.trans hc)]
  | false =>
    have hc' : s'.isClosed = false := hclosed.trans hc
    by_cases hne : bufs = []
    · rw [hne, startSend_of_isEmpty hc, startSend_of_isEmpty hc']
    · cases hshort : firstShort? bufs with
      | some short =>
        have hempty : ¬ bufs.isEmpty = true := fun h => hne (List.isEmpty_iff.mp h)
        simp only [startSend, hc, hc', if_neg hempty, hshort]
        rfl
      | none =>
        have hlong := traceIdLength_le_of_firstShort? hshort
        have hsize : s'.requestSize bufs = s.requestSize bufs := by
          rw [requestSize, requestSize, hsettings]
        rcases Nat.lt_or_ge s.settings.messageMaxBytes.toNat (s.requestSize bufs) with hlt | hge
        · rw [startSend_of_tooLarge hp hc hne hlong hlt,
            startSend_of_tooLarge hp' hc' hne hlong (by rwa [hsize, hsettings]), hsize, hsettings]
        · rw [startSend_of_le hp hc hne hlong hge,
            startSend_of_le hp' hc' hne hlong (by rwa [hsize, hsettings]), request, request,
            hsettings]

/-- what the reply to a batch means depends on whether the sender is closed -/
theorem replyToSend_fst_eq (h : s'.isClosed = s.isClosed) (now now' : Nat) (r : Reply) :
    (s'.replyToSend now' r).1 = (s.replyToSend now r).1 := by
  cases r with
  | accepted => rfl
  | refused status =>
    simp only [replyToSend, h]
    split
    · rfl
    · split <;> rfl

end Sender

/-! ## a task with a sender for itself -/

namespace Task

/-- what a task makes of its call, in flight with a signal of the transport -/
def heed (s : Sender) (t : Task) : Signal → Task
  | .quiet => if t.isGivenUp then t.complete (.failed .cancelled) else t
  | .reply r => t.complete (s.replyToSend 0 r).1
  | .crash report => t.finish (.failed (.runtime report))

/-- the task of a batch after it ran -/
def turn (s : Sender) (bufs : List Bytes) (t : Task) (signal : Signal) : Task :=
  match t.stage with
  | .finished _ => t
  | .calling _ => t.heed s signal
  | .waiting =>
    if t.isGivenUp then t.complete (.failed .cancelled)
    else match (s.startSend bufs).1 with
      | .done outcome => t.complete outcome
      | .call c => { t with stage := .calling c }.heed s signal

/-- the calls that the task of a batch makes when it runs -/
def callsNow (s : Sender) (bufs : List Bytes) (t : Task) : List Call :=
  match t.stage with
  | .waiting =>
    if t.isGivenUp then []
    else match (s.startSend bufs).1 with
      | .done _ => []
      | .call c => [c]
  | _ => []

/-- the task with the wish to cancel it -/
def mark (t : Task) : Task := { t with isCancelled := true }

/-- the task of a batch after any action but the end of all work in the background -/
def act (s : Sender) (bufs : List Bytes) (i : Nat) (t : Task) : Action → Task
  | .poll j signal => if j = i then t.turn s bufs signal else t
  | .cancel j => if j = i then t.mark else t
  | _ => t

variable {s : Sender} {bufs : List Bytes} {i : Nat} {t : Task}

theorem isCancelled_complete (t : Task) (outcome : Outcome) :
    (t.complete outcome).isCancelled = t.isCancelled := by
  unfold complete
  split
  · rfl
  · split <;> rfl

theorem heed_keeps (signal : Signal) :
    (t.heed s signal).job = t.job ∧ (t.heed s signal).isCancelled = t.isCancelled := by
  cases signal with
  | quiet =>
    rw [heed]
    split
    · exact ⟨t.job_complete _, t.isCancelled_complete _⟩
    · exact ⟨rfl, rfl⟩
  | reply r => exact ⟨t.job_complete _, t.isCancelled_complete _⟩
  | crash report => exact ⟨rfl, rfl⟩

theorem turn_keeps (signal : Signal) :
    (t.turn s bufs signal).job = t.job ∧ (t.turn s bufs signal).isCancelled = t.isCancelled := by
  unfold turn
  split
  · exact ⟨rfl, rfl⟩
  · exact heed_keeps signal
  · split
    · exact ⟨t.job_complete _, t.isCancelled_complete _⟩
    · split
      · exact ⟨t.job_complete _, t.isCancelled_complete _⟩
      · exact heed_keeps signal

theorem job_act (a : Action) : (t.act s bufs i a).job = t.job := by
  cases a with
  | poll j signal =>
    rw [act]
    split
    · exact (turn_keeps signal).1
    · rfl
  | cancel j =>
    rw [act]
    split <;> rfl
  | _ => rfl

/-- a task gets the mark when it is cancelled, and never loses it -/
theorem isCancelled_act (a : Action) :
    (t.act s bufs i a).isCancelled = true ↔ t.isCancelled = true ∨ a = .cancel i := by
  cases a with
  | poll j signal =>
    rw [act]
    split
    · simp [(turn_keeps signal).2]
    · simp
  | cancel j =>
    rw [act]
    split
    · rename_i hji
      simp [mark, hji]
    · rename_i hji
      simp [hji]
  | _ => simp [act]

end Task

namespace System

variable {settings : SenderSettings} {y y' : System} {i j : Nat} {t : Task} {bufs : List Bytes}

theorem Ran.getElem?_of_ne (h : y.Ran j y') (hne : j ≠ i) : y'.tasks[i]? = y.tasks[i]? := by
  cases h with
  | idle => rfl
  | went ht => exact (getElem?_set_of_some ht _).trans (if_neg hne)
  | called ht => exact (getElem?_set_of_some ht _).trans (if_neg hne)

theorem Ran.callsOf_of_ne (h : y.Ran j y') (hne : j ≠ i) : y'.callsOf i = y.callsOf i := by
  cases h with
  | idle => rfl
  | went => rfl
  | called =>
    refine (callsOf_append y i j _).trans ?_
    rw [if_neg hne, List.append_nil]

theorem getElem?_settle (ht : y.tasks[i]? = some t) {u : Task} (hb : u.job.batch? = some bufs)
    {s : Sender} (hclosed : y.sender.isClosed = s.isClosed) (signal : Signal) :
    (y.settle i u signal).tasks[i]? = some (u.heed s signal) := by
  cases signal with
  | quiet =>
    rw [settle, Task.heed]
    split
    · exact getElem?_set_self ht _
    · exact getElem?_set_self ht _
  | reply r =>
    have houtcome : (u.job.reply y.sender y.now r).1 = (s.replyToSend 0 r).1 := by
      rw [Job.reply_of_batch? hb]
      exact Sender.replyToSend_fst_eq hclosed 0 y.now r
    rw [Task.heed, ← houtcome]
    exact getElem?_set_self ht _
  | crash report => exact getElem?_set_self ht _

theorem callsOf_settle (y : System) (i j : Nat) (u : Task) (signal : Signal) :
    (y.settle j u signal).callsOf i = y.callsOf i := by
  cases signal with
  | quiet =>
    rw [settle]
    split <;> rfl
  | reply r => rfl
  | crash report => rfl

/-- a batch that runs does what it would do with a sender for itself -/
theorem Sound.poll (h : Sound settings y) (ht : y.tasks[i]? = some t)
    (hb : t.job.batch? = some bufs) (signal : Signal) :
    let s := Sender.unused settings y.sender.isClosed
    (y.poll i signal).tasks[i]? = some (t.turn s bufs signal)
      ∧ (y.poll i signal).callsOf i = y.callsOf i ++ t.callsNow s bufs := by
  intro s
  have hstart : (y.sender.startSend bufs).1 = (s.startSend bufs).1 :=
    Sender.startSend_fst_eq (Sender.pooled_unused _ _) h.pooled h.settings_eq rfl bufs
  simp only [System.poll, ht, Task.turn, Task.callsNow]
  cases hstage : t.stage with
  | finished outcome => exact ⟨ht, (List.append_nil _).symm⟩
  | calling c =>
    exact ⟨getElem?_settle (s := s) ht hb rfl signal,
      (callsOf_settle y i i t signal).trans (List.append_nil _).symm⟩
  | waiting =>
    simp only [begin, Job.start_of_batch? hb]
    split
    · exact ⟨getElem?_set_self ht _, (List.append_nil _).symm⟩
    · have hkeeps := y.sender.keeps_startSend bufs
      rw [← hstart]
      cases hs : y.sender.startSend bufs with
      | mk start s' =>
        rw [hs] at hkeeps
        cases start with
        | done outcome => exact ⟨getElem?_set_self ht _, (List.append_nil _).symm⟩
        | call c =>
          refine ⟨getElem?_settle (y := { y with sender := s', calls := y.calls ++ [(i, c)] })
            (u := { t with stage := .calling c }) (s := s) ht hb hkeeps.isClosed_eq signal, ?_⟩
          refine (callsOf_settle _ i i _ signal).trans ((callsOf_append _ i i c).trans ?_)
          rw [if_pos rfl]
          rfl

theorem getElem?_cancel (ht : y.tasks[i]? = some t) (j : Nat) :
    (y.cancel j).tasks[i]? = some (if j = i then t.mark else t) := by
  show (y.tasks.modify j _)[i]? = _
  rw [List.getElem?_modify, ht]
  rfl

/-- what a step makes of the task of a batch -/
theorem Sound.getElem?_step (h : Sound settings y) (ht : y.tasks[i]? = some t)
    (hb : t.job.batch? = some bufs) {a : Action} (hstop : a ≠ .stop) :
    (y.step a).tasks[i]? = some (t.act (Sender.unused settings y.sender.isClosed) bufs i a) := by
  cases a with
  | poll j signal =>
    by_cases hji : j = i
    · subst hji
      rw [Task.act, if_pos rfl]
      exact (h.poll ht hb signal).1
    · rw [Task.act, if_neg hji]
      exact ((y.ran_poll j signal).getElem?_of_ne hji).trans ht
  | cancel j => exact getElem?_cancel ht j
  | start job =>
    obtain ⟨hlt, _⟩ := List.getElem?_eq_some_iff.mp ht
    exact (List.getElem?_append_left hlt).trans ht
  | close => exact (congrArg (·[i]?) y.close_eq.1).trans ht
  | stop => exact absurd rfl hstop
  | record outcome | advance millis | measure bufs' | measureOne n => exact ht

/-! ## two systems that are the same for one task -/

/-- the actions that concern a task: they are about the task, or about all tasks -/
def Concerns (i : Nat) : Action → Bool
  | .poll j _ | .cancel j => j = i
  | .start _ | .close | .stop => true
  | .record _ | .advance _ | .measure _ | .measureOne _ => false

/-- two states in which a task, the calls that were made for it and all that it looks at are the same -/
structure Alike (i : Nat) (y y' : System) : Prop where
  settings_eq : y'.sender.settings = y.sender.settings
  isClosed_eq : y'.sender.isClosed = y.sender.isClosed
  isRunning_eq : y'.isRunning = y.isRunning
  length_eq : y'.tasks.length = y.tasks.length
  task_eq : y'.tasks[i]? = y.tasks[i]?
  callsOf_eq : y'.callsOf i = y.callsOf i

theorem Alike.refl (i : Nat) (y : System) : Alike i y y := ⟨rfl, rfl, rfl, rfl, rfl, rfl⟩

theorem Alike.symm (h : Alike i y y') : Alike i y' y :=
  ⟨h.settings_eq.symm, h.isClosed_eq.symm, h.isRunning_eq.symm, h.length_eq.symm, h.task_eq.symm,
    h.callsOf_eq.symm⟩

theorem Alike.trans {y'' : System} (h : Alike i y y') (h' : Alike i y' y'') : Alike i y y'' :=
  ⟨h'.settings_eq.trans h.settings_eq, h'.isClosed_eq.trans h.isClosed_eq,
    h'.isRunning_eq.trans h.isRunning_eq, h'.length_eq.trans h.length_eq,
    h'.task_eq.trans h.task_eq, h'.callsOf_eq.trans h.callsOf_eq⟩

theorem Ran.frame (h : y.Ran j y') :
    y'.isRunning = y.isRunning ∧ y'.tasks.length = y.tasks.length := by
  cases h with
  | idle => exact ⟨rfl, rfl⟩
  | went => exact ⟨rfl, List.length_set⟩
  | called => exact ⟨rfl, List.length_set⟩

/-- the work on a task leaves all that another one looks at as it was -/
theorem Ran.alike (h : y.Ran j y') (hne : j ≠ i) : Alike i y y' := by
  obtain ⟨hs, -⟩ := h.follows
  obtain ⟨hrunning, hlength⟩ := h.frame
  exact ⟨hs.settings_eq, hs.isClosed_eq, hrunning, hlength, h.getElem?_of_ne hne,
    h.callsOf_of_ne hne⟩

theorem alike_step {a : Action} (h : Concerns i a = false) : Alike i y (y.step a) := by
  cases a with
  | poll j signal => exact (y.ran_poll j signal).alike (of_decide_eq_false h)
  | cancel j =>
    have hne : j ≠ i := of_decide_eq_false h
    refine ⟨rfl, rfl, rfl, List.length_modify _ _ _, ?_, rfl⟩
    show (y.tasks.modify j _)[i]? = _
    simp [hne]
  | record outcome => exact ⟨rfl, rfl, rfl, rfl, rfl, rfl⟩
  | advance millis => exact ⟨rfl, rfl, rfl, rfl, rfl, rfl⟩
  | measure bufs =>
    have hs := (y.sender.keeps_measure bufs).toFollows
    exact ⟨hs.settings_eq, hs.isClosed_eq, rfl, rfl, rfl, rfl⟩
  | measureOne n =>
    have hs := (y.sender.keeps_measureOne n).toFollows
    exact ⟨hs.settings_eq, hs.isClosed_eq, rfl, rfl, rfl, rfl⟩
  | start job | close | stop => cases h

theorem Alike.poll (h : Alike i y y') (hy : Sound settings y) (hy' : Sound settings y')
    (hb : ∀ t, y.tasks[i]? = some t → ∃ bufs, t.job.batch? = some bufs) (signal : Signal) :
    Alike i (y.poll i signal) (y'.poll i signal) := by
  have hran := y.ran_poll i signal
  have hran' := y'.ran_poll i signal
  have hsame : (y'.poll i signal).tasks[i]? = (y.poll i signal).tasks[i]?
      ∧ (y'.poll i signal).callsOf i = (y.poll i signal).callsOf i := by
    cases ht : y.tasks[i]? with
    | none =>
      simp only [System.poll, ht, h.task_eq.trans ht]
      exact ⟨trivial, h.callsOf_eq⟩
    | some t =>
      obtain ⟨bufs, hbufs⟩ := hb t ht
      obtain ⟨htask, hcalls⟩ := hy.poll ht hbufs signal
      obtain ⟨htask', hcalls'⟩ := hy'.poll (h.task_eq.trans ht) hbufs signal
      rw [htask, htask', hcalls, hcalls', h.isClosed_eq, h.callsOf_eq]
      exact ⟨rfl, rfl⟩
  exact ⟨hran'.follows.1.settings_eq.trans (h.settings_eq.trans hran.follows.1.settings_eq.symm),
    hran'.follows.1.isClosed_eq.trans (h.isClosed_eq.trans hran.follows.1.isClosed_eq.symm),
    hran'.frame.1.trans (h.isRunning_eq.trans hran.frame.1.symm),
    hran'.frame.2.trans (h.length_eq.trans hran.frame.2.symm), hsame.1, hsame.2⟩

theorem Alike.close (h : Alike i y y') : Alike i y.close y'.close := by
  unfold System.close
  rw [h.isClosed_eq]
  split
  · exact h
  · exact ⟨h.settings_eq, rfl, h.isRunning_eq, h.length_eq, h.task_eq, h.callsOf_eq⟩

theorem Alike.start (h : Alike i y y') (job : Job) : Alike i (y.start job) (y'.start job) := by
  unfold System.start
  rw [h.isRunning_eq]
  refine ⟨h.settings_eq, h.isClosed_eq, rfl, ?_, ?_, h.callsOf_eq⟩
  · simp only [List.length_append, h.length_eq]
  · simp only [List.getElem?_append, h.length_eq, h.task_eq]

theorem Alike.step (h : Alike i y y') (hy : Sound settings y) (hy' : Sound settings y')
    (hb : ∀ t, y.tasks[i]? = some t → ∃ bufs, t.job.batch? = some bufs) {a : Action}
    (ha : Concerns i a = true) : Alike i (y.step a) (y'.step a) := by
  cases a with
  | poll j signal =>
    obtain rfl : j = i := of_decide_eq_true ha
    exact h.poll hy hy' hb signal
  | cancel j =>
    refine ⟨h.settings_eq, h.isClosed_eq, h.isRunning_eq, ?_, ?_, h.callsOf_eq⟩
    · exact (List.length_modify _ _ _).trans (h.length_eq.trans (List.length_modify _ _ _).symm)
    · show (y'.tasks.modify j _)[i]? = (y.tasks.modify j _)[i]?
      rw [List.getElem?_modify, List.getElem?_modify, h.task_eq]
  | start job => exact h.start job
  | close => exact h.close
  | stop =>
    refine ⟨h.settings_eq, h.isClosed_eq, rfl, ?_, ?_, h.callsOf_eq⟩
    · exact (List.length_map _).trans (h.length_eq.trans (List.length_map _).symm)
    · show (y'.tasks.map _)[i]? = (y.tasks.map _)[i]?
      rw [List.getElem?_map, List.getElem?_map, h.task_eq]
  | record outcome | advance millis | measure bufs | measureOne n => cases ha

/-- what does not concern the task of a batch can be left out of a run -/
theorem Alike.run {actions : List Action} (h : Alike i y y') (hy : Sound settings y)
    (hy' : Sound settings y')
    (hb : ∀ t, (y.run actions).tasks[i]? = some t → ∃ bufs, t.job.batch? = some bufs) :
    Alike i (y.run actions) (y'.run (actions.filter (Concerns i))) := by
  induction actions generalizing y y' with
  | nil => exact h
  | cons a actions ih =>
    have hstart : ∀ t, y.tasks[i]? = some t → ∃ bufs, t.job.batch? = some bufs := by
      intro t ht
      obtain ⟨u, hu, hon⟩ := onward_run ht (a :: actions)
      exact hon.job_eq ▸ hb u hu
    cases ha : Concerns i a with
    | true =>
      rw [List.filter_cons_of_pos ha]
      exact ih (h.step hy hy' hstart ha) (hy.step a) (hy'.step a) hb
    | false =>
      rw [List.filter_cons_of_neg (ne_true_of_eq_false ha)]
      exact ih ((alike_step ha).symm.trans h) (hy.step a) hy' hb

/-- two systems that are the same for the task of a batch stay so when the same happens to them -/
theorem Alike.run_same (h : Alike i y y') (hy : Sound settings y) (hy' : Sound settings y')
    (ht : y.tasks[i]? = some t) (hb : t.job.batch? = some bufs) (actions : List Action) :
    Alike i (y.run actions) (y'.run actions) := by
  have hbatch : ∀ {z : System}, z.tasks[i]? = some t → ∀ u, (z.run actions).tasks[i]? = some u →
      ∃ bufs, u.job.batch? = some bufs := by
    intro z hz u hu
    obtain ⟨u', hu', hon⟩ := onward_run hz actions
    obtain rfl : u' = u := Option.some.inj (hu'.symm.trans hu)
    exact ⟨bufs, (congrArg Job.batch? hon.job_eq).trans hb⟩
  have hleft := h.run hy hy' (hbatch ht)
  have hright := (Alike.refl i y').run hy' hy' (hbatch (h.task_eq.trans ht))
  exact hleft.trans hright.symm

end System

end SpanCourier
