import SpanCourier.Sender

/-!
# tasks of a sender

A batch or a health check is worked on by a task.  A task makes at most one call, waits for the reply
to it, and ends with one outcome.  A batch that was enqueued can be cancelled until it is done with,
and its callback is told the outcome.

* `Task.complete`  the callback is told first; one that crashes becomes the outcome.
-/

namespace SpanCourier

/-- what a callback does when it is told an outcome; a crash may come with a text -/
inductive CallbackResult where
  | returned
  | crashed (text : Option String)
  deriving DecidableEq, Inhabited

abbrev Callback := Outcome → CallbackResult

inductive Job where
  /-- a batch whose caller waits for it -/
  | send (bufs : List Bytes)
  /-- a batch that is worked on in the background -/
  | enqueued (bufs : List Bytes) (callback : Option Callback)
  | check
  deriving Inhabited

namespace Job

def isEnqueued : Job → Bool
  | .enqueued _ _ => true
  | _ => false

def callback? : Job → Option Callback
  | .enqueued _ callback => callback
  | _ => none

def start (job : Job) (s : Sender) (now : Nat) : Start × Sender :=
  match job with
  | .send bufs | .enqueued bufs _ => s.startSend bufs
  | .check => (s.startCheck now, s)

def reply (job : Job) (s : Sender) (now : Nat) (r : Reply) : Outcome × Sender :=
  match job with
  | .send _ | .enqueued _ _ => s.replyToSend now r
  | .check => s.replyToCheck now r

end Job

inductive Stage where
  | waiting
  | calling (call : Call)
  | finished (outcome : Outcome)
  deriving DecidableEq, Inhabited

structure Task where
  job : Job
  isCancelled : Bool := false
  stage : Stage := .waiting
  /-- what the callback was told, first to last -/
  told : List Outcome := []
  deriving Inhabited

namespace Task

def outcome? (t : Task) : Option Outcome :=
  match t.stage with
  | .finished outcome => some outcome
  | _ => none

def isCalling (t : Task) : Bool :=
  match t.stage with
  | .calling _ => true
  | _ => false

def isFinished (t : Task) : Bool := t.outcome?.isSome

/-- whether the task may be cancelled and was -/
def isGivenUp (t : Task) : Bool := t.job.isEnqueued && t.isCancelled

/-- ends the task without telling its callback -/
def finish (t : Task) (outcome : Outcome) : Task := { t with stage := .finished outcome }

def crashText (text : Option String) : String := text.getD "unknown panic payload"

/-- ends the task after telling its callback the outcome; a callback that crashes becomes the
outcome instead -/
def complete (t : Task) (outcome : Outcome) : Task :=
  match t.job.callback? with
  | none => t.finish outcome
  | some callback =>
    let told : Task := { t with told := t.told ++ [outcome] }
    match callback outcome with
    | .returned => told.finish outcome
    | .crashed text => told.finish (.failed (.callback (crashText text)))

theorem outcome?_finish (t : Task) (outcome : Outcome) : (t.finish outcome).outcome? = some outcome :=
  rfl

theorem isFinished_complete (t : Task) (outcome : Outcome) : (t.complete outcome).isFinished := by
  rw [complete]
  split
  · rfl
  · split <;> rfl

end Task

end SpanCourier
