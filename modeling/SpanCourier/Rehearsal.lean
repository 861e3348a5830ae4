import SpanCourier.Exporter

/-!
# rehearsals

A rehearsal runs an exporter against a destination that follows a script.  The destination replies
as it was last told.  It can hold back the calls of tasks in the background until they are released,
and it can crash.

A task in the background runs when the rehearsal is settled; a task whose caller waits for it runs at
once and is not held back.
-/

namespace SpanCourier

structure Destination where
  reply : Reply := .accepted
  /-- the text with which calls crash, if they do -/
  crash : Option String := none
  /-- whether new calls of tasks in the background are held back -/
  isGated : Bool := false
  /-- the tasks whose calls were held back and then released -/
  released : List Nat := []
  deriving DecidableEq, Inhabited

/-- how it is reported that a task crashed with a text; the number of the task is not its position, but
chosen by what works on the task -/
def crashReport (number : Nat) (text : String) : String :=
  "task " ++ toString number ++ " panicked with message " ++ quoted text

/-- What the destination does when a task runs.  A new call crashes, is held back, or gets the reply.
A call that was held back gets the reply of now once it is released, unless the transport was shut
down in the meantime.  Crashes are reported as if tasks were numbered from one on. -/
def Destination.signal (d : Destination) (y : System) (i : Nat) (t : Task) : Signal :=
  match t.stage with
  | .calling _ =>
    if !d.released.contains i then .quiet
    else if y.shutdowns > 0 then .reply (.refused shutDownStatus)
    else .reply d.reply
  | _ => match d.crash with
    | some text => .crash (crashReport (i + 1) text)
    | none => if d.isGated && t.job.isEnqueued then .quiet else .reply d.reply

structure Rehearsal where
  exporter : Exporter
  destination : Destination := {}
  /-- the tasks in the background that are held on to, by name -/
  handles : List (String × Nat) := []

namespace Rehearsal

def system (r : Rehearsal) : System := r.exporter.system

def act (r : Rehearsal) (action : Action) : Rehearsal :=
  { r with exporter := { r.exporter with system := r.system.step action } }

def measure (r : Rehearsal) (bufs : List Bytes) : Nat × Rehearsal :=
  let (size, system) := r.system.measure bufs
  (size, { r with exporter := { r.exporter with system } })

def measureOne (r : Rehearsal) (n : Nat) : Nat × Rehearsal :=
  let (size, system) := r.system.measureOne n
  (size, { r with exporter := { r.exporter with system } })

def runTask (r : Rehearsal) (i : Nat) : Rehearsal :=
  match r.system.tasks[i]? with
  | none => r
  | some t => r.act (.poll i (r.destination.signal r.system i t))

/-- lets every task run until it is done or waits, the first one first -/
def settle (r : Rehearsal) : Rehearsal := (List.range r.system.tasks.length).foldl runTask r

def wait (r : Rehearsal) (job : Job) : Option Outcome × Rehearsal :=
  let i := r.system.tasks.length
  let r := (r.act (.start job)).runTask i
  ((r.system.tasks[i]?).bind (·.outcome?), r)

/-- sends a batch and blocks until it is done with, which needs a caller that may block -/
def execute (r : Rehearsal) (bufs : List Bytes) (mayBlock : Bool) : Option Outcome × Rehearsal :=
  if mayBlock then r.wait (.send bufs)
  else (some (.failed (.runtime "execute cannot block within an async context")), r)

def enqueue (r : Rehearsal) (name : String) (job : Job) : Rehearsal :=
  let i := r.system.tasks.length
  { r.act (.start job) with handles := (name, i) :: r.handles.filter (·.1 ≠ name) }

def handle? (r : Rehearsal) (name : String) : Option Nat := r.handles.lookup name

def task? (r : Rehearsal) (name : String) : Option Task :=
  (r.handle? name).bind (r.system.tasks[·]?)

def cancel (r : Rehearsal) (name : String) : Rehearsal :=
  match r.handle? name with
  | some i => r.act (.cancel i)
  | none => r

/-- lets go of the task under a name, which goes on all the same -/
def forget (r : Rehearsal) (name : String) : Rehearsal :=
  { r with handles := r.handles.filter (·.1 ≠ name) }

def release (r : Rehearsal) : Rehearsal :=
  let waiting := (List.range r.system.tasks.length).filter fun i =>
    (r.system.tasks[i]?).any (·.isCalling)
  { r with destination := { r.destination with released := waiting } }

def advance (r : Rehearsal) (millis : Nat) : Rehearsal := (r.act (.advance millis)).settle

/-- the health of the destination that shows while tasks can run -/
def health? (r : Rehearsal) : Option Outcome :=
  if r.system.isRunning then r.system.sender.health.current? r.system.now else none

end Rehearsal

end SpanCourier
