import SpanCourier.Proofs.Sender.Admission
import SpanCourier.Sender.System

/-!
# what a run of a sender can do

A step of a system is looked at once: what a task does when it runs, with the call that it makes or
waits for (`Polled`), and the same without the details (`Ran`): it goes on by itself, or it makes one
call and is waiting no more.  From this follow the facts that hold along every run.

* `System.Sound`          what holds of every state that a system gets into;
* `System.callsOf_run`    a task that has set out makes no further call;
* `System.calls_run`      a closed sender makes no call.
-/

namespace SpanCourier

/-! ## tasks -/

namespace Task

theorem job_complete (t : Task) (outcome : Outcome) : (t.complete outcome).job = t.job := by
  unfold complete
  split
  · rfl
  · split <;> rfl

theorem stage_ne_waiting_of_isFinished {t : Task} (h : t.isFinished) : t.stage ≠ .waiting := by
  intro hw
  rw [isFinished, outcome?, hw] at h
  cases h

theorem stage_complete (t : Task) (outcome : Outcome) : (t.complete outcome).stage ≠ .waiting :=
  stage_ne_waiting_of_isFinished (isFinished_complete t outcome)

/-- a task some steps later: it works on the same job, and once it has set out it waits for its turn no
more -/
structure Onward (t t' : Task) : Prop where
  job_eq : t'.job = t.job
  setOut : t.stage ≠ .waiting → t'.stage ≠ .waiting

theorem Onward.refl (t : Task) : t.Onward t := ⟨rfl, fun h => h⟩

theorem Onward.trans {t t' t'' : Task} (h : t.Onward t') (h' : t'.Onward t'') : t.Onward t'' :=
  ⟨h'.job_eq.trans h.job_eq, fun hs => h'.setOut (h.setOut hs)⟩

theorem onward_finish (t : Task) (outcome : Outcome) : t.Onward (t.finish outcome) :=
  ⟨rfl, fun _ h => nomatch h⟩

end Task

namespace Job

theorem isClosed_of_start_eq_call {job : Job} {s : Sender} {now : Nat} {c : Call}
    (h : (job.start s now).1 = .call c) : s.isClosed = false := by
  cases hc : s.isClosed with
  | false => rfl
  | true =>
    cases job with
    | send bufs =>
      rw [start, Sender.startSend_of_isClosed hc] at h
      cases h
    | enqueued bufs callback =>
      rw [start, Sender.startSend_of_isClosed hc] at h
      cases h
    | check =>
      rw [start, Sender.startCheck_of_isClosed hc] at h
      cases h

theorem keeps_start (job : Job) (s : Sender) (now : Nat) : s.Keeps (job.start s now).2 := by
  cases job with
  | send bufs => exact s.keeps_startSend bufs
  | enqueued bufs callback => exact s.keeps_startSend bufs
  | check => exact Sender.Keeps.refl s

theorem follows_reply (job : Job) (s : Sender) (now : Nat) (r : Reply) :
    s.Follows (job.reply s now r).2 := by
  cases job with
  | send bufs => exact s.follows_replyToSend now r
  | enqueued bufs callback => exact s.follows_replyToSend now r
  | check => exact s.follows_record now _

end Job

namespace System

/-! ## what a task does when it runs -/

/-- The state after a task was let run.  A task that is done does nothing; one that sets out is done at
once or makes a call; and the reply to a call is taken in the same step if it is there. -/
inductive Polled (y : System) (i : Nat) (signal : Signal) : System → Prop where
  | idle (hdone : ∀ t, y.tasks[i]? = some t → t.isFinished) : Polled y i signal y
  | ended {t : Task} {s' : Sender} {outcome : Outcome} (ht : y.tasks[i]? = some t)
      (hwaiting : t.stage = .waiting) (hs : y.sender.Keeps s') :
      Polled y i signal { y with sender := s', tasks := y.tasks.set i (t.complete outcome) }
  | called {t : Task} {s' : Sender} {c : Call} (ht : y.tasks[i]? = some t)
      (hwaiting : t.stage = .waiting) (hopen : y.sender.isClosed = false)
      (hs : y.sender.Keeps s') :
      Polled y i signal (settle { y with sender := s', calls := y.calls ++ [(i, c)] } i
        { t with stage := .calling c } signal)
  | waited {t : Task} {c : Call} (ht : y.tasks[i]? = some t) (hcalling : t.stage = .calling c) :
      Polled y i signal (y.settle i t signal)

theorem polled_begin {y : System} {i : Nat} {t : Task} (ht : y.tasks[i]? = some t)
    (hwaiting : t.stage = .waiting) (signal : Signal) :
    y.Polled i signal (y.begin i t signal) := by
  rw [begin]
  split
  · exact .ended ht hwaiting (.refl _)
  · have hs := t.job.keeps_start y.sender y.now
    cases hstart : t.job.start y.sender y.now with
    | mk start s' =>
      rw [hstart] at hs
      cases start with
      | done outcome => exact .ended ht hwaiting hs
      | call c =>
        have hopen : y.sender.isClosed = false := Job.isClosed_of_start_eq_call (by rw [hstart])
        exact .called ht hwaiting hopen hs

theorem polled_poll (y : System) (i : Nat) (signal : Signal) :
    y.Polled i signal (y.poll i signal) := by
  unfold poll
  split
  · next hnone => exact .idle fun t ht => nomatch hnone.symm.trans ht
  · next t ht =>
    split
    · next hw => exact polled_begin ht hw signal
    · next c hc => exact .waited ht hc
    · next outcome hdone =>
      refine .idle fun u hu => ?_
      obtain rfl : t = u := Option.some.inj (ht.symm.trans hu)
      rw [Task.isFinished, Task.outcome?, hdone]
      rfl

/-- the same with less detail: nothing happened, or the task went on, perhaps with a call when it set
out -/
inductive Ran (y : System) (i : Nat) : System → Prop where
  | idle : Ran y i y
  | went {t t' : Task} {s' : Sender} (ht : y.tasks[i]? = some t) (hs : y.sender.Follows s')
      (hjob : t'.job = t.job) (hstage : t'.stage ≠ .waiting) :
      Ran y i { y with sender := s', tasks := y.tasks.set i t' }
  | called {t t' : Task} {s' : Sender} {c : Call} (ht : y.tasks[i]? = some t)
      (hwaiting : t.stage = .waiting) (hopen : y.sender.isClosed = false)
      (hs : y.sender.Follows s') (hjob : t'.job = t.job) (hstage : t'.stage ≠ .waiting) :
      Ran y i { y with sender := s', tasks := y.tasks.set i t', calls := y.calls ++ [(i, c)] }

/-- what a call was made for goes on or ends -/
theorem settle_eq (y : System) (i : Nat) {t : Task} (ht : t.stage ≠ .waiting) (signal : Signal) :
    ∃ s' t', y.settle i t signal = { y with sender := s', tasks := y.tasks.set i t' }
      ∧ y.sender.Follows s' ∧ t'.job = t.job ∧ t'.stage ≠ .waiting := by
  cases signal with
  | quiet =>
    rw [settle]
    split
    · exact ⟨y.sender, _, rfl, .refl _, t.job_complete _, t.stage_complete _⟩
    · exact ⟨y.sender, t, rfl, .refl _, rfl, ht⟩
  | reply r =>
    exact ⟨_, _, rfl, t.job.follows_reply y.sender y.now r, t.job_complete _, t.stage_complete _⟩
  | crash report => exact ⟨y.sender, _, rfl, .refl _, rfl, fun h => nomatch h⟩

theorem stage_calling_ne {t : Task} {c : Call} (h : t.stage = .calling c) : t.stage ≠ .waiting :=
  fun hw => nomatch h.symm.trans hw

theorem ran_poll (y : System) (i : Nat) (signal : Signal) : y.Ran i (y.poll i signal) := by
  have hpolled := y.polled_poll i signal
  generalize y.poll i signal = y' at hpolled
  cases hpolled with
  | idle => exact .idle
  | ended ht hw hs =>
    exact .went ht hs.toFollows (Task.job_complete _ _) (Task.stage_complete _ _)
  | @called t s' c ht hw hopen hs =>
    obtain ⟨s'', t', heq, hs', hjob, hstage⟩ := settle_eq
      { y with sender := s', calls := y.calls ++ [(i, c)] } i
      (t := { t with stage := .calling c }) (stage_calling_ne rfl) signal
    rw [heq]
    exact .called ht hw hopen (hs.toFollows.trans hs') hjob hstage
  | waited ht hc =>
    obtain ⟨s', t', heq, hs, hjob, hstage⟩ := y.settle_eq i (stage_calling_ne hc) signal
    rw [heq]
    exact .went ht hs hjob hstage

/-! ## what holds along every run -/

def callsOf (y : System) (i : Nat) : List Call :=
  (y.calls.filter fun c => decide (c.1 = i)).map (·.2)

/-- whether a task is there and waits no more for its turn -/
def SetOut (y : System) (i : Nat) : Prop := ∃ t, y.tasks[i]? = some t ∧ t.stage ≠ .waiting

/-- what holds of every state of a system: it is set up as it was, its sender keeps an assembler of its
own, the transport was shut down when the sender was closed, and a task that did not set out made no
call -/
structure Sound (settings : SenderSettings) (y : System) : Prop where
  settings_eq : y.sender.settings = settings
  pooled : y.sender.Pooled
  shutdowns_eq : y.shutdowns = if y.sender.isClosed then 1 else 0
  uncalled : ∀ i, ¬ y.SetOut i → y.callsOf i = []

theorem callsOf_append (y : System) (i j : Nat) (c : Call) :
    callsOf { y with calls := y.calls ++ [(j, c)] } i
      = y.callsOf i ++ if j = i then [c] else [] := by
  unfold callsOf
  rw [List.filter_append, List.map_append]
  by_cases h : j = i <;> simp [h]

section
variable {y y' : System} {i j : Nat}

theorem getElem?_set_of_some {ts : List Task} {t : Task} (h : ts[j]? = some t) (t' : Task) :
    (ts.set j t')[i]? = if j = i then some t' else ts[i]? := by
  obtain ⟨hlt, _⟩ := List.getElem?_eq_some_iff.mp h
  rw [List.getElem?_set]
  by_cases hji : j = i
  · rw [if_pos hji, if_pos hji, if_pos (by omega)]
  · rw [if_neg hji, if_neg hji]

theorem getElem?_set_self {ts : List Task} {t : Task} (h : ts[j]? = some t) (t' : Task) :
    (ts.set j t')[j]? = some t' := (getElem?_set_of_some h t').trans (if_pos rfl)

theorem Ran.onward {t : Task} (h : y.Ran j y') (ht : y.tasks[i]? = some t) :
    ∃ t', y'.tasks[i]? = some t' ∧ t.Onward t' := by
  have hset : ∀ {u u' : Task}, y.tasks[j]? = some u → u.Onward u' →
      ∃ t', (y.tasks.set j u')[i]? = some t' ∧ t.Onward t' := by
    intro u u' hu hon
    rw [getElem?_set_of_some hu]
    by_cases hji : j = i
    · subst hji
      obtain rfl : u = t := Option.some.inj (hu.symm.trans ht)
      exact ⟨u', if_pos rfl, hon⟩
    · exact ⟨t, (if_neg hji).trans ht, .refl t⟩
  cases h with
  | idle => exact ⟨t, ht, .refl t⟩
  | went hu _ hjob hstage => exact hset hu ⟨hjob, fun _ => hstage⟩
  | called hu _ _ _ hjob hstage => exact hset hu ⟨hjob, fun _ => hstage⟩

/-- a task that has set out makes no call when it runs again -/
theorem Ran.callsOf_of_setOut (h : y.Ran j y') (hi : y.SetOut i) : y'.callsOf i = y.callsOf i := by
  cases h with
  | idle => rfl
  | went => rfl
  | called ht hwaiting =>
    refine (callsOf_append y i j _).trans ?_
    obtain ⟨u, hu, hset⟩ := hi
    have hne : j ≠ i := by
      intro hji
      subst hji
      rw [ht] at hu
      cases hu
      exact hset hwaiting
    rw [if_neg hne, List.append_nil]

theorem Ran.calls_of_isClosed (h : y.Ran j y') (hc : y.sender.isClosed) : y'.calls = y.calls := by
  cases h with
  | idle => rfl
  | went => rfl
  | called _ _ hopen => exact absurd (hopen ▸ hc) Bool.false_ne_true

theorem Ran.follows (h : y.Ran j y') : y.sender.Follows y'.sender ∧ y'.shutdowns = y.shutdowns := by
  cases h with
  | idle => exact ⟨.refl _, rfl⟩
  | went _ hs => exact ⟨hs, rfl⟩
  | called _ _ _ hs => exact ⟨hs, rfl⟩

theorem Ran.callsOf_of_not_setOut (h : y.Ran j y') (hi : ¬ y'.SetOut i) :
    y'.callsOf i = y.callsOf i := by
  cases h with
  | idle => rfl
  | went => rfl
  | called ht _ _ _ _ hstage =>
    have hne : j ≠ i := by
      intro hji
      subst hji
      exact hi ⟨_, getElem?_set_self ht _, hstage⟩
    refine (callsOf_append y i j _).trans ?_
    rw [if_neg hne, List.append_nil]

end

variable {settings : SenderSettings} {y : System}

/-! ## steps -/

theorem close_eq (y : System) :
    (y.close).tasks = y.tasks ∧ (y.close).calls = y.calls ∧ (y.close).sender.isClosed := by
  unfold close
  split
  · next h => exact ⟨rfl, rfl, h⟩
  · exact ⟨rfl, rfl, rfl⟩

/-- no step takes a task away or sets it back -/
theorem onward_step {i : Nat} {t : Task} (ht : y.tasks[i]? = some t) (a : Action) :
    ∃ t', (y.step a).tasks[i]? = some t' ∧ t.Onward t' := by
  cases a with
  | poll j signal => exact (y.ran_poll j signal).onward ht
  | start job =>
    obtain ⟨hlt, _⟩ := List.getElem?_eq_some_iff.mp ht
    exact ⟨t, (List.getElem?_append_left hlt).trans ht, .refl t⟩
  | cancel j =>
    refine ⟨if j = i then { t with isCancelled := true } else t, ?_, ?_⟩
    · show (y.tasks.modify j _)[i]? = _
      rw [List.getElem?_modify, ht]
      rfl
    · split
      · exact ⟨rfl, fun h => h⟩
      · exact .refl t
  | close =>
    refine ⟨t, ?_, .refl t⟩
    show y.close.tasks[i]? = some t
    rw [y.close_eq.1, ht]
  | stop =>
    refine ⟨if t.job.isEnqueued && !t.isFinished then t.finish (.failed .cancelled) else t, ?_, ?_⟩
    · show (y.tasks.map _)[i]? = _
      rw [List.getElem?_map, ht]
      rfl
    · split
      · exact t.onward_finish _
      · exact .refl t
  | record outcome => exact ⟨t, ht, .refl t⟩
  | advance millis => exact ⟨t, ht, .refl t⟩
  | measure bufs => exact ⟨t, ht, .refl t⟩
  | measureOne n => exact ⟨t, ht, .refl t⟩

/-- only a task that runs can make a call -/
theorem calls_step {a : Action} (h : ¬ ∃ i signal, a = .poll i signal) :
    (y.step a).calls = y.calls := by
  cases a with
  | poll i signal => exact absurd ⟨i, signal, rfl⟩ h
  | close => exact y.close_eq.2.1
  | _ => rfl

theorem callsOf_step {i : Nat} {a : Action} (h : ¬ ∃ j signal, a = .poll j signal) :
    (y.step a).callsOf i = y.callsOf i := by
  rw [callsOf, calls_step h]
  rfl

/-- a task that set out has done so after any step, and makes no call -/
theorem setOut_step {i : Nat} (hi : y.SetOut i) (a : Action) :
    (y.step a).SetOut i ∧ (y.step a).callsOf i = y.callsOf i := by
  constructor
  · obtain ⟨t, ht, hstage⟩ := hi
    obtain ⟨t', ht', hon⟩ := onward_step ht a
    exact ⟨t', ht', hon.setOut hstage⟩
  · by_cases ha : ∃ j signal, a = .poll j signal
    · obtain ⟨j, signal, rfl⟩ := ha
      exact (y.ran_poll j signal).callsOf_of_setOut hi
    · exact callsOf_step ha

/-- a closed sender stays closed, and its tasks make no call -/
theorem calls_step_of_isClosed (h : y.sender.isClosed) (a : Action) :
    (y.step a).calls = y.calls ∧ (y.step a).sender.isClosed := by
  cases a with
  | poll i signal =>
    have hran := y.ran_poll i signal
    exact ⟨hran.calls_of_isClosed h, hran.follows.1.isClosed_eq.trans h⟩
  | close => exact ⟨y.close_eq.2.1, y.close_eq.2.2⟩
  | _ => exact ⟨rfl, h⟩

theorem Sound.callsOf_of_waiting {i : Nat} {t : Task} (h : Sound settings y)
    (ht : y.tasks[i]? = some t) (hw : t.stage = .waiting) : y.callsOf i = [] := by
  refine h.uncalled i fun ⟨u, hu, hset⟩ => ?_
  rw [ht] at hu
  cases hu
  exact hset hw

theorem sound_ofSettings (settings : SenderSettings) : Sound settings (ofSettings settings) where
  settings_eq := rfl
  pooled _ h := nomatch h
  shutdowns_eq := rfl
  uncalled _ _ := rfl

/-- every step but closing leaves the sender set up as it was, and the transport with it -/
theorem follows_step {a : Action} (h : a ≠ .close) :
    y.sender.Follows (y.step a).sender ∧ (y.step a).shutdowns = y.shutdowns := by
  cases a with
  | poll i signal => exact (y.ran_poll i signal).follows
  | close => exact absurd rfl h
  | record outcome => exact ⟨y.sender.follows_record y.now outcome, rfl⟩
  | measure bufs => exact ⟨(y.sender.keeps_measure bufs).toFollows, rfl⟩
  | measureOne n => exact ⟨(y.sender.keeps_measureOne n).toFollows, rfl⟩
  | start job => exact ⟨.refl _, rfl⟩
  | cancel i => exact ⟨.refl _, rfl⟩
  | advance millis => exact ⟨.refl _, rfl⟩
  | stop => exact ⟨.refl _, rfl⟩

theorem callsOf_step_of_not_setOut {i : Nat} {a : Action} (h : ¬ (y.step a).SetOut i) :
    (y.step a).callsOf i = y.callsOf i := by
  by_cases ha : ∃ j signal, a = .poll j signal
  · obtain ⟨j, signal, rfl⟩ := ha
    exact (y.ran_poll j signal).callsOf_of_not_setOut h
  · exact callsOf_step ha

theorem Sound.close (h : Sound settings y) : Sound settings y.close := by
  unfold System.close
  split
  · exact h
  · next hopen =>
    refine ⟨h.settings_eq, h.pooled, ?_, h.uncalled⟩
    show y.shutdowns + 1 = 1
    rw [h.shutdowns_eq, if_neg hopen]

theorem Sound.step (h : Sound settings y) (a : Action) : Sound settings (y.step a) := by
  by_cases ha : a = .close
  · subst ha
    exact h.close
  · obtain ⟨hs, hshut⟩ := follows_step (y := y) ha
    refine ⟨hs.settings_eq.trans h.settings_eq, hs.pooled h.pooled, ?_, fun i hi => ?_⟩
    · rw [hshut, hs.isClosed_eq]
      exact h.shutdowns_eq
    · rw [callsOf_step_of_not_setOut hi]
      exact h.uncalled i fun hi' => hi (setOut_step hi' a).1

/-! ## runs -/

theorem Sound.run (h : Sound settings y) (actions : List Action) :
    Sound settings (y.run actions) := by
  induction actions generalizing y with
  | nil => exact h
  | cons a actions ih => exact ih (h.step a)

theorem onward_run {i : Nat} {t : Task} (ht : y.tasks[i]? = some t) (actions : List Action) :
    ∃ t', (y.run actions).tasks[i]? = some t' ∧ t.Onward t' := by
  induction actions generalizing y t with
  | nil => exact ⟨t, ht, .refl t⟩
  | cons a actions ih =>
    obtain ⟨t', ht', hon⟩ := onward_step ht a
    obtain ⟨t'', ht'', hon'⟩ := ih ht'
    exact ⟨t'', ht'', hon.trans hon'⟩

/-- a task that has set out makes no further call, whatever happens -/
theorem callsOf_run {i : Nat} (hi : y.SetOut i) (actions : List Action) :
    (y.run actions).callsOf i = y.callsOf i := by
  induction actions generalizing y with
  | nil => rfl
  | cons a actions ih =>
    obtain ⟨hi', hcalls⟩ := setOut_step hi a
    exact (ih hi').trans hcalls

/-- once the sender is closed there are no calls, whatever happens -/
theorem calls_run (h : y.sender.isClosed) (actions : List Action) :
    (y.run actions).calls = y.calls ∧ (y.run actions).sender.isClosed := by
  induction actions generalizing y with
  | nil => exact ⟨rfl, h⟩
  | cons a actions ih =>
    obtain ⟨hcalls, hclosed⟩ := calls_step_of_isClosed h a
    exact ⟨(ih hclosed).1.trans hcalls, (ih hclosed).2⟩

end System

end SpanCourier
