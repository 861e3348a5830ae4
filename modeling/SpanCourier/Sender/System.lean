import SpanCourier.Sender.Task

/-!
# runs of a sender

A sender works on any number of tasks.  In a run each thing that happens is an action: a task is
started, runs a little, or is cancelled; the sender is closed, or asked for a size; the clock goes on.
What the transport does while a task runs is part of the action.  Whoever holds the sender acts on the
same one.

* `System.step`  what an action does;
* `System.run`   a sequence of actions.
-/

namespace SpanCourier

/-- what the transport does for a call while its task runs -/
inductive Signal where
  | quiet
  | reply (reply : Reply)
  /-- the transport itself crashes; what works on the task reports it in words of its own, with a number
  that it gave the task -/
  | crash (report : String)
  deriving DecidableEq, Inhabited

inductive Action where
  | start (job : Job)
  /-- lets a task run until it is done or waits -/
  | poll (task : Nat) (signal : Signal)
  | cancel (task : Nat)
  | close
  /-- an observation from outside -/
  | record (outcome : Outcome)
  | advance (millis : Nat)
  | measure (bufs : List Bytes)
  | measureOne (length : Nat)
  /-- ends the work on tasks in the background, for good -/
  | stop
  deriving Inhabited

structure System where
  sender : Sender
  now : Nat := 0
  tasks : List Task := []
  /-- the calls so far, each with the position of its task -/
  calls : List (Nat × Call) := []
  shutdowns : Nat := 0
  isRunning : Bool := true
  deriving Inhabited

namespace System

def ofSettings (settings : SenderSettings) : System where
  sender := .ofSettings settings

def put (y : System) (i : Nat) (t : Task) : System := { y with tasks := y.tasks.set i t }

/-- Ends what a call was made for, when the transport has something to tell.  A crash ends a task in the
background with the report of it, and its callback is told nothing.  A caller that waits for its batch or
its check itself gets no outcome: the crash unwinds it, and the outcome that its task has here says no more
than that the task is over. -/
def settle (y : System) (i : Nat) (t : Task) : Signal → System
  | .quiet => if t.isGivenUp then y.put i (t.complete (.failed .cancelled)) else y.put i t
  | .reply r =>
    let (outcome, sender) := t.job.reply y.sender y.now r
    { y with sender }.put i (t.complete outcome)
  | .crash report => y.put i (t.finish (.failed (.runtime report)))

def call (y : System) (i : Nat) (t : Task) (c : Call) (signal : Signal) : System :=
  { y with calls := y.calls ++ [(i, c)] }.settle i { t with stage := .calling c } signal

/-- a task runs for the first time; one that was cancelled before makes no call -/
def begin (y : System) (i : Nat) (t : Task) (signal : Signal) : System :=
  if t.isGivenUp then y.put i (t.complete (.failed .cancelled))
  else
    let (start, sender) := t.job.start y.sender y.now
    let y := { y with sender }
    match start with
    | .done outcome => y.put i (t.complete outcome)
    | .call c => y.call i t c signal

/-- a task runs; its call is looked at before the wish to cancel it -/
def poll (y : System) (i : Nat) (signal : Signal) : System :=
  match y.tasks[i]? with
  | none => y
  | some t => match t.stage with
    | .waiting => y.begin i t signal
    | .calling _ => y.settle i t signal
    | .finished _ => y

/-- a new task; nothing works on one in the background once that has ended -/
def start (y : System) (job : Job) : System :=
  let t : Task := { job }
  let t := if job.isEnqueued && !y.isRunning then t.finish (.failed .cancelled) else t
  { y with tasks := y.tasks ++ [t] }

def cancel (y : System) (i : Nat) : System :=
  { y with tasks := y.tasks.modify i fun t => { t with isCancelled := true } }

/-- closes the sender, and shuts its transport down if it was open -/
def close (y : System) : System :=
  if y.sender.isClosed then y
  else { y with sender := y.sender.close, shutdowns := y.shutdowns + 1 }

/-- drops the tasks in the background that are not done; their callbacks are told nothing -/
def stop (y : System) : System :=
  { y with
    isRunning := false
    tasks := y.tasks.map fun t =>
      if t.job.isEnqueued && !t.isFinished then t.finish (.failed .cancelled) else t }

def measure (y : System) (bufs : List Bytes) : Nat × System :=
  let (size, sender) := y.sender.measure bufs
  (size, { y with sender })

def measureOne (y : System) (n : Nat) : Nat × System :=
  let (size, sender) := y.sender.measureOne n
  (size, { y with sender })

def step (y : System) : Action → System
  | .start job => y.start job
  | .poll i signal => y.poll i signal
  | .cancel i => y.cancel i
  | .close => y.close
  | .record outcome => { y with sender := y.sender.record y.now outcome }
  | .advance millis => { y with now := y.now + millis }
  | .measure bufs => (y.measure bufs).2
  | .measureOne n => (y.measureOne n).2
  | .stop => y.stop

def run (y : System) (actions : List Action) : System := actions.foldl step y

theorem run_nil (y : System) : y.run [] = y := rfl

theorem run_cons (y : System) (a : Action) (actions : List Action) :
    y.run (a :: actions) = (y.step a).run actions := rfl

theorem run_append (y : System) (first second : List Action) :
    y.run (first ++ second) = (y.run first).run second := by
  simp [run, List.foldl_append]

end System

end SpanCourier
