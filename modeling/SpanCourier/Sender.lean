import SpanCourier.Channel
import SpanCourier.Health
import SpanCourier.Request.Probe

/-!
# the sender

A sender holds the settings, whether it was closed, and the health of the destination.  It decides
whether a batch or a probe leads to a call, and what the reply to that call means.  Requests are
measured and assembled by an assembler, which the sender keeps for the next time.

* `Sender.startSend`    the first reason against a call decides, in a fixed order;
* `Sender.replyToSend`  the reply to a batch, which bears on the health of the destination as well;
* `Sender.startCheck`   a recent observation makes a probe needless.
-/

namespace SpanCourier

structure Sender where
  settings : SenderSettings
  isClosed : Bool := false
  health : Health
  spare : Option Assembler := none
  deriving DecidableEq, Inhabited

/-- how a batch or a check sets out: it is done with at once, or a call is made -/
inductive Start where
  | done (outcome : Outcome)
  | call (call : Call)
  deriving DecidableEq, Inhabited

namespace Sender

def ofSettings (settings : SenderSettings) : Sender where
  settings := settings
  health := { windowMillis := settings.healthWindowMillis }

def newAssembler (s : Sender) : Assembler :=
  .ofProject s.settings.apiVersion s.settings.projectId

/-- has an assembler do something, the one that was kept if there is one, and keeps it -/
def withAssembler {α : Type} (s : Sender) (f : Assembler → α × Assembler) : α × Sender :=
  let (result, assembler) := f (s.spare.getD s.newAssembler)
  (result, { s with spare := some assembler })

def measure (s : Sender) (bufs : List Bytes) : Nat × Sender :=
  s.withAssembler fun a => a.measure bufs

def measureOne (s : Sender) (n : Nat) : Nat × Sender :=
  s.withAssembler fun a => (a.sizer.sizeOfOne n, a)

/-- the first buffer that is too short to hold a trace identifier, with its position -/
def firstShort? (bufs : List Bytes) : Option (Bytes × Nat) := bufs.zipIdx.find? (isShort ·.1)

/-- how a batch sets out: a closed sender takes none, an empty batch needs no call, and a batch with
a short buffer or above the greatest size is refused -/
def startSend (s : Sender) (bufs : List Bytes) : Start × Sender :=
  if s.isClosed then (.done (.failed .closed), s)
  else if bufs.isEmpty then (.done .ok, s)
  else match firstShort? bufs with
    | some (buf, index) => (.done (.failed (.shortBuffer index buf.length)), s)
    | none => s.withAssembler fun a =>
      let (size, a) := a.measure bufs
      let max := s.settings.messageMaxBytes.toNat
      if size > max then (.done (.failed (.messageTooLarge size max)), a)
      else
        let (request, a) := a.assemble bufs
        (.call request.call, a)

/-- how a health check sets out: a closed sender makes none, and a recent observation is used again -/
def startCheck (s : Sender) (now : Nat) : Start :=
  if s.isClosed then .done (.failed .closed)
  else match s.health.current? now with
    | some outcome => .done outcome
    | none => .call (probeCall s.settings.apiVersion s.settings.projectId)

def record (s : Sender) (now : Nat) (outcome : Outcome) : Sender :=
  { s with health := s.health.record now outcome }

/-- The outcome of a batch, and the sender after the reply to it.  A destination that cannot be
reached once the sender is closed was left on purpose, and a batch that is refused as invalid says
nothing about the destination; both leave the health as it is. -/
def replyToSend (s : Sender) (now : Nat) : Reply → Outcome × Sender
  | .accepted => (.ok, s.record now .ok)
  | .refused status =>
    if status.code = .unavailable ∧ s.isClosed then (.failed .closed, s)
    else if status.code = .invalidArgument then (.failed (.rpc status), s)
    else (.failed (.rpc status), s.record now (.failed (.rpc status)))

def replyToCheck (s : Sender) (now : Nat) (reply : Reply) : Outcome × Sender :=
  (.ofProbe reply, s.record now (.ofProbe reply))

def close (s : Sender) : Sender := { s with isClosed := true }

theorem startSend_of_isClosed {s : Sender} (h : s.isClosed) (bufs : List Bytes) :
    s.startSend bufs = (.done (.failed .closed), s) := by
  rw [startSend, if_pos h]

theorem startCheck_of_isClosed {s : Sender} (h : s.isClosed) (now : Nat) :
    s.startCheck now = .done (.failed .closed) := by
  rw [startCheck, if_pos h]

end Sender

end SpanCourier
