import SpanCourier.Proofs.Sender.Handles
import SpanCourier.Proofs.Sender.Observations

/-!
# what cancelling does

A wish to cancel a task is no more than a mark on it, which counts until the task is done.  So a task
that has the mark needs no second one, a mark on a task that is done can wait until the end of a run,
and a task that has one before it first runs makes no call.

* `System.seen_run`          what can be seen of a task that is done stays;
* `System.cancel_run`        a mark on a task that is done changes nothing on the way;
* `System.uncalled_run`      a task that was cancelled before it ran;
* `System.isCancelled_iff`   which tasks have the mark.
-/

namespace SpanCourier

namespace Task

/-- what can be seen of a task: all but the wish to cancel it -/
def seen (t : Task) : Task := { t with isCancelled := false }

/-- a task after the end of all work in the background -/
def dropped (t : Task) : Task :=
  if t.job.isEnqueued && !t.isFinished then t.finish (.failed .cancelled) else t

theorem stage_dropped_ne {t : Task} (hj : t.job.isEnqueued) (hw : t.stage = .waiting) :
    t.dropped.stage ≠ .waiting := by
  rw [dropped, hj, isFinished_of_waiting hw]
  exact fun h => nomatch h

end Task

namespace System

/-- what can be seen of a system -/
def seen (y : System) : System := { y with tasks := y.tasks.map Task.seen }

variable {settings : SenderSettings} {y : System} {i j : Nat} {t : Task}

theorem getElem?_stop (ht : y.tasks[i]? = some t) : y.stop.tasks[i]? = some t.dropped := by
  show (y.tasks.map Task.dropped)[i]? = _
  rw [List.getElem?_map, ht]
  rfl

/-! ## tasks that are done -/

theorem poll_of_isFinished (ht : y.tasks[i]? = some t) (hdone : t.isFinished) (signal : Signal) :
    y.poll i signal = y := by
  cases hstage : t.stage with
  | finished outcome => simp only [poll, ht, hstage]
  | waiting => exact absurd ((Task.isFinished_of_waiting hstage).symm.trans hdone) Bool.false_ne_true
  | calling c => exact absurd ((Task.isFinished_of_calling hstage).symm.trans hdone) Bool.false_ne_true

/-- no step changes what can be seen of a task that is done -/
theorem seen_step (ht : y.tasks[i]? = some t) (hdone : t.isFinished) (a : Action) :
    ∃ t', (y.step a).tasks[i]? = some t' ∧ t'.seen = t.seen := by
  cases a with
  | poll j signal =>
    refine ⟨t, ?_, rfl⟩
    by_cases hji : j = i
    · subst hji
      show (y.poll j signal).tasks[j]? = some t
      rw [poll_of_isFinished ht hdone, ht]
    · exact ((y.ran_poll j signal).getElem?_of_ne hji).trans ht
  | cancel j =>
    refine ⟨_, getElem?_cancel ht j, ?_⟩
    split <;> rfl
  | start job =>
    obtain ⟨hlt, _⟩ := List.getElem?_eq_some_iff.mp ht
    exact ⟨t, (List.getElem?_append_left hlt).trans ht, rfl⟩
  | close => exact ⟨t, (congrArg (·[i]?) y.close_eq.1).trans ht, rfl⟩
  | stop =>
    refine ⟨t, ?_, rfl⟩
    refine (getElem?_stop ht).trans ?_
    simp [Task.dropped, hdone]
  | record outcome | advance millis | measure bufs | measureOne n => exact ⟨t, ht, rfl⟩

theorem seen_run (ht : y.tasks[i]? = some t) (hdone : t.isFinished) (later : List Action) :
    ∃ t', (y.run later).tasks[i]? = some t' ∧ t'.seen = t.seen := by
  induction later generalizing y t with
  | nil => exact ⟨t, ht, rfl⟩
  | cons a later ih =>
    obtain ⟨t', ht', hseen⟩ := seen_step ht hdone a
    have hdone' : t'.isFinished := (congrArg Task.isFinished hseen).trans hdone
    obtain ⟨t'', ht'', hseen'⟩ := ih ht' hdone'
    exact ⟨t'', ht'', hseen'.trans hseen⟩

/-! ## a wish that comes too late, or again -/

theorem cancel_of_isCancelled (ht : y.tasks[i]? = some t) (h : t.isCancelled) : y.cancel i = y := by
  have hsame : y.tasks.modify i Task.mark = y.tasks := by
    refine List.ext_getElem? fun k => ?_
    rw [List.getElem?_modify]
    by_cases hik : i = k
    · subst hik
      have hmark : t.mark = t := by rw [Task.mark, ← h]
      rw [ht, Option.map_eq_map, Option.map_some, if_pos rfl, hmark]
    · simp [hik]
  exact congrArg (fun tasks => { y with tasks }) hsame

theorem seen_cancel (y : System) (i : Nat) : (y.cancel i).seen = y.seen := by
  have hsame : (y.tasks.modify i Task.mark).map Task.seen
      = y.tasks.map Task.seen := by
    refine List.ext_getElem? fun k => ?_
    rw [List.getElem?_map, List.getElem?_map, List.getElem?_modify]
    cases y.tasks[k]? with
    | none => rfl
    | some t => by_cases hik : i = k <;> simp [hik, Task.seen, Task.mark]
  rw [seen, seen, ← hsame]
  rfl

theorem cancel_put (y : System) (h : j ≠ i) (t : Task) :
    (y.cancel i).put j t = (y.put j t).cancel i := by
  have hsame : (y.tasks.modify i Task.mark).set j t
      = (y.tasks.set j t).modify i Task.mark := by
    refine List.ext_getElem? fun k => ?_
    rw [List.getElem?_set, List.getElem?_modify, List.getElem?_modify, List.getElem?_set,
      List.length_modify]
    by_cases hjk : j = k
    · subst hjk
      simp [Ne.symm h]
    · rw [if_neg hjk, if_neg hjk]
  exact congrArg (fun tasks => { y with tasks }) hsame

theorem cancel_settle (y : System) (h : j ≠ i) (t : Task) (signal : Signal) :
    (y.cancel i).settle j t signal = (y.settle j t signal).cancel i := by
  cases signal with
  | quiet =>
    rw [settle, settle]
    split
    · exact y.cancel_put h _
    · exact y.cancel_put h _
  | reply r => exact cancel_put { y with sender := _ } h _
  | crash report => exact y.cancel_put h _

theorem cancel_begin (y : System) (h : j ≠ i) (t : Task) (signal : Signal) :
    (y.cancel i).begin j t signal = (y.begin j t signal).cancel i := by
  rw [begin, begin]
  split
  · exact y.cancel_put h _
  · have hstart : t.job.start (y.cancel i).sender (y.cancel i).now = t.job.start y.sender y.now := rfl
    rw [hstart]
    cases t.job.start y.sender y.now with
    | mk start s' =>
      cases start with
      | done outcome => exact cancel_put { y with sender := s' } h _
      | call c => exact cancel_settle { y with sender := s', calls := y.calls ++ [(j, c)] } h _ signal

theorem cancel_poll (ht : y.tasks[i]? = some t) (hdone : t.isFinished) (j : Nat) (signal : Signal) :
    (y.cancel i).poll j signal = (y.poll j signal).cancel i := by
  by_cases hji : j = i
  · subst hji
    have ht' := getElem?_cancel ht j
    rw [if_pos rfl] at ht'
    rw [poll_of_isFinished ht hdone, poll_of_isFinished ht' hdone]
  · have hsame : (y.cancel i).tasks[j]? = y.tasks[j]? := by
      show (y.tasks.modify i _)[j]? = _
      simp [Ne.symm hji]
    rw [poll, poll, hsame]
    cases y.tasks[j]? with
    | none => rfl
    | some u =>
      dsimp only
      cases u.stage with
      | waiting => exact y.cancel_begin hji u signal
      | calling c => exact y.cancel_settle hji u signal
      | finished outcome => rfl

theorem cancel_start (ht : y.tasks[i]? = some t) (job : Job) :
    (y.cancel i).start job = (y.start job).cancel i := by
  obtain ⟨hlt, _⟩ := List.getElem?_eq_some_iff.mp ht
  have hsame : ∀ u : Task, y.tasks.modify i Task.mark ++ [u]
      = (y.tasks ++ [u]).modify i Task.mark := by
    intro u
    refine List.ext_getElem? fun k => ?_
    simp only [List.getElem?_append, List.getElem?_modify, List.length_modify]
    by_cases hik : i = k
    · subst hik
      simp [hlt]
    · simp [hik]
  exact congrArg (fun tasks => { y with tasks }) (hsame _)

theorem cancel_cancel (y : System) (i j : Nat) :
    (y.cancel i).cancel j = (y.cancel j).cancel i := by
  have hsame : (y.tasks.modify i Task.mark).modify j Task.mark
      = (y.tasks.modify j Task.mark).modify i Task.mark := by
    refine List.ext_getElem? fun k => ?_
    simp only [List.getElem?_modify]
    cases y.tasks[k]? with
    | none => rfl
    | some u => by_cases hik : i = k <;> by_cases hjk : j = k <;> simp [hik, hjk]
  exact congrArg (fun tasks => { y with tasks }) hsame

theorem cancel_close (y : System) (i : Nat) : (y.cancel i).close = y.close.cancel i := by
  unfold close
  rw [show (y.cancel i).sender = y.sender from rfl]
  split <;> rfl

theorem cancel_stop (ht : y.tasks[i]? = some t) (hdone : t.isFinished) :
    (y.cancel i).stop = y.stop.cancel i := by
  have hsame : (y.tasks.modify i Task.mark).map Task.dropped
      = (y.tasks.map Task.dropped).modify i Task.mark := by
    refine List.ext_getElem? fun k => ?_
    simp only [List.getElem?_modify, List.getElem?_map]
    by_cases hik : i = k
    · subst hik
      have hmark : t.mark.isFinished = true := hdone
      simp [ht, Task.dropped, hdone, hmark]
    · simp [hik]
  exact congrArg (fun tasks => { y with tasks, isRunning := false }) hsame

/-- a wish to cancel a task that is done has the same effect after the next step -/
theorem cancel_step (ht : y.tasks[i]? = some t) (hdone : t.isFinished) (a : Action) :
    (y.cancel i).step a = (y.step a).cancel i := by
  cases a with
  | poll j signal => exact cancel_poll ht hdone j signal
  | start job => exact cancel_start ht job
  | cancel j => exact y.cancel_cancel i j
  | close => exact y.cancel_close i
  | stop => exact cancel_stop ht hdone
  | record outcome | advance millis | measure bufs | measureOne n => rfl

theorem cancel_run (ht : y.tasks[i]? = some t) (hdone : t.isFinished) (later : List Action) :
    (y.cancel i).run later = (y.run later).cancel i := by
  induction later generalizing y t with
  | nil => rfl
  | cons a later ih =>
    obtain ⟨t', ht', hseen⟩ := seen_step ht hdone a
    have hdone' : t'.isFinished := (congrArg Task.isFinished hseen).trans hdone
    rw [run_cons, cancel_step ht hdone a, ih ht' hdone']
    rfl

/-! ## a task that was cancelled before it ran -/

variable {bufs : List Bytes}

theorem Sound.callsOf_step_of_isGivenUp (h : Sound settings y) (ht : y.tasks[i]? = some t)
    (hb : t.job.batch? = some bufs) (hw : t.stage = .waiting) (hg : t.isGivenUp) (a : Action) :
    (y.step a).callsOf i = [] := by
  have hnone : y.callsOf i = [] := h.callsOf_of_waiting ht hw
  by_cases ha : ∃ j signal, a = .poll j signal
  · obtain ⟨j, signal, rfl⟩ := ha
    by_cases hji : j = i
    · subst hji
      refine (h.poll ht hb signal).2.trans ?_
      rw [hnone, Task.callsNow, hw]
      simp [hg]
    · exact ((y.ran_poll j signal).callsOf_of_ne hji).trans hnone
  · exact (callsOf_step ha).trans hnone

/-- a batch that was cancelled before its task first runs makes no call, whatever happens -/
theorem Sound.uncalled_run (h : Sound settings y) (ht : y.tasks[i]? = some t)
    (hb : t.job.batch? = some bufs) (hw : t.stage = .waiting) (hg : t.isGivenUp)
    (later : List Action) : (y.run later).callsOf i = [] := by
  induction later generalizing y t with
  | nil => exact h.callsOf_of_waiting ht hw
  | cons a later ih =>
    have hnone := h.callsOf_step_of_isGivenUp ht hb hw hg a
    by_cases hset : (y.step a).SetOut i
    · exact (callsOf_run hset later).trans hnone
    · -- the task still waits for its turn, and the wish to cancel it stands
      have hstop : a ≠ .stop := by
        rintro rfl
        exact hset ⟨_, getElem?_stop ht, Task.stage_dropped_ne (Bool.and_eq_true_iff.mp hg).1 hw⟩
      have ht' := h.getElem?_step ht hb hstop
      have hw' : (t.act (Sender.unused settings y.sender.isClosed) bufs i a).stage = .waiting :=
        Decidable.byContradiction fun hne => hset ⟨_, ht', hne⟩
      refine ih (h.step a) ht' ((congrArg Job.batch? (Task.job_act a)).trans hb) hw' ?_
      rw [Task.isGivenUp, Bool.and_eq_true] at hg ⊢
      rw [Task.job_act, Task.isCancelled_act]
      exact ⟨hg.1, Or.inl hg.2⟩

/-! ## the mark -/

/-- an action that fits happens in a run, in the state in which it happens -/
def Happens (y : System) (actions : List Action) (fits : System → Action → Prop) : Prop :=
  ∃ before a after, actions = before ++ a :: after ∧ fits (y.run before) a

theorem happens_concat {actions : List Action} {a : Action} {fits : System → Action → Prop} :
    y.Happens (actions ++ [a]) fits ↔ y.Happens actions fits ∨ fits (y.run actions) a := by
  constructor
  · rintro ⟨before, b, after, hsplit, hfits⟩
    rcases List.eq_nil_or_concat after with rfl | ⟨after, c, rfl⟩
    · obtain ⟨rfl, hab⟩ := List.append_inj' hsplit rfl
      cases hab
      exact Or.inr hfits
    · rw [List.concat_eq_append, ← List.cons_append, ← List.append_assoc] at hsplit
      obtain ⟨rfl, -⟩ := List.append_inj' hsplit rfl
      exact Or.inl ⟨before, b, after, rfl, hfits⟩
  · rintro (⟨before, b, after, rfl, hfits⟩ | hfits)
    · exact ⟨before, b, after ++ [a], by rw [List.append_assoc, List.cons_append], hfits⟩
    · exact ⟨actions, a, [], rfl, hfits⟩

theorem getElem?_eq_none_of_length_le {before after : List Action}
    (h : (y.run (before ++ after)).tasks[i]? = none) : (y.run before).tasks.length ≤ i := by
  refine Nat.le_of_not_lt fun hlt => ?_
  obtain ⟨u, hu, -⟩ := onward_run (List.getElem?_eq_getElem hlt) after
  rw [run_append, hu] at h
  cases h

/-- a task that was not there before a step was started by it -/
theorem start_of_new {a : Action} (hnone : y.tasks[i]? = none) (ht : (y.step a).tasks[i]? = some t) :
    ∃ job, a = .start job ∧ t.isCancelled = false ∧ (y.isRunning → t = { job }) := by
  have hsame : (y.step a).tasks.length ≠ y.tasks.length := by
    intro hlen
    rw [List.getElem?_eq_none_iff, ← hlen, ← List.getElem?_eq_none_iff, ht] at hnone
    cases hnone
  cases a with
  | start job =>
    refine ⟨job, rfl, ?_⟩
    have hnew : (y.start job).tasks[i]? = some t := ht
    rw [start, List.getElem?_append_right (List.getElem?_eq_none_iff.mp hnone)] at hnew
    have hmem := List.mem_singleton.mp (List.mem_of_getElem? hnew)
    subst hmem
    split
    · rename_i hdropped
      refine ⟨rfl, fun hrunning => ?_⟩
      rw [hrunning, Bool.not_true, Bool.and_false] at hdropped
      cases hdropped
    · exact ⟨rfl, fun _ => rfl⟩
  | poll j signal => exact absurd (y.ran_poll j signal).frame.2 hsame
  | cancel j => exact absurd (List.length_modify _ _ _) hsame
  | close => exact absurd (congrArg List.length y.close_eq.1) hsame
  | stop => exact absurd (List.length_map _) hsame
  | record outcome | advance millis | measure bufs | measureOne n => exact absurd rfl hsame

theorem isRunning_step {a : Action} (hstop : a ≠ .stop) : (y.step a).isRunning = y.isRunning := by
  cases a with
  | poll j signal => exact (y.ran_poll j signal).frame.1
  | close =>
    show y.close.isRunning = y.isRunning
    unfold close
    split <;> rfl
  | stop => exact absurd rfl hstop
  | _ => rfl

theorem isRunning_run {actions : List Action} (hstop : Action.stop ∉ actions) :
    (y.run actions).isRunning = y.isRunning := by
  induction actions generalizing y with
  | nil => rfl
  | cons a actions ih =>
    rw [List.mem_cons, not_or] at hstop
    exact (ih hstop.2).trans (isRunning_step (Ne.symm hstop.1))

/-- a batch has the mark if it was cancelled in the run, when it was there -/
theorem isCancelled_iff (settings : SenderSettings) {actions : List Action}
    (hstop : Action.stop ∉ actions) (ht : ((ofSettings settings).run actions).tasks[i]? = some t)
    (hb : t.job.batch? = some bufs) :
    t.isCancelled = true ↔
      (ofSettings settings).Happens actions fun x a => a = .cancel i ∧ i < x.tasks.length := by
  induction actions using List.reverseRecOn generalizing t with
  | nil => cases ht
  | append_singleton actions a ih =>
    rw [List.mem_append, List.mem_singleton, not_or] at hstop
    rw [happens_concat]
    rw [run_concat] at ht
    cases hu : ((ofSettings settings).run actions).tasks[i]? with
    | none =>
      obtain ⟨job, rfl, hmark, -⟩ := start_of_new hu ht
      rw [hmark]
      refine iff_of_false Bool.false_ne_true ?_
      rintro (⟨before, b, after, rfl, -, hlt⟩ | ⟨hcancel, -⟩)
      · exact absurd hlt (Nat.not_lt_of_le (getElem?_eq_none_of_length_le hu))
      · cases hcancel
    | some u =>
      have hsound : Sound settings ((ofSettings settings).run actions) :=
        (sound_ofSettings settings).run actions
      obtain ⟨u', hu', hon⟩ := onward_step hu a
      obtain rfl : u' = t := Option.some.inj (hu'.symm.trans ht)
      have hub : u.job.batch? = some bufs := (congrArg Job.batch? hon.job_eq).symm.trans hb
      have hact := hsound.getElem?_step hu hub (Ne.symm hstop.2)
      obtain rfl := Option.some.inj (hact.symm.trans ht)
      obtain ⟨hlt, -⟩ := List.getElem?_eq_some_iff.mp hu
      rw [Task.isCancelled_act, ih hstop.1 hu hub, and_iff_left hlt]

end System

end SpanCourier
