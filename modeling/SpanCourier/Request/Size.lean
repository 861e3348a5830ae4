import SpanCourier.Request.Collation

/-!
# the size of a request

The size of the request for a batch is found without writing it.  Every field of the request is a run
of bytes under a key of one byte: the key, the length, and the run.  A `Sizer` computes the sizes of
one project; it knows the sizes of the fields that every request has, and keeps a collator.

* `Sizer.size`          the size for a batch, from the running totals of its traces;
* `Sizer.sizeOfOne`     the size for one buffer, from its length alone.
-/

namespace SpanCourier

/-- bytes of a run of `n` bytes under a key of one byte -/
def fieldSize (n : Nat) : Nat := 1 + varintSize n + n

def traceIdFieldSize : Nat := 2 + traceIdLength

/-- bytes of the field of the project in a v1 request or trace; an empty project is left out -/
def projectFieldSize (project : String) : Nat :=
  if project = "" then 0 else fieldSize project.utf8ByteSize

def nameFieldSize (project : String) : Nat :=
  fieldSize ("projects/".utf8ByteSize + project.utf8ByteSize)

/-- running totals over the marked buffers of a batch: the bytes of the trace that is open, and those
of the traces before it with their keys -/
structure TraceTotals where
  current : Nat
  closed : Nat

namespace TraceTotals

/-- the bytes of a trace that holds one span, with a field of the project of `projectField` bytes -/
def startTrace (projectField : Nat) (buf : Bytes) : Nat :=
  projectField + traceIdFieldSize + fieldSize (bufferSpan buf).length

def add (projectField : Nat) (t : TraceTotals) (m : Mark × Placed) : TraceTotals :=
  match m.1 with
  | .firstTrace => { t with current := startTrace projectField m.2.buffer }
  | .nextSpan => { t with current := t.current + fieldSize (bufferSpan m.2.buffer).length }
  | .nextTrace => ⟨startTrace projectField m.2.buffer, t.closed + fieldSize t.current⟩

def total (t : TraceTotals) : Nat := t.closed + fieldSize t.current

end TraceTotals

structure Sizer where
  version : ApiVersion
  projectField : Nat
  nameField : Nat
  collator : Collator := {}
  deriving DecidableEq, Inhabited

namespace Sizer

def ofProject (version : ApiVersion) (project : String) : Sizer where
  version := version
  projectField := projectFieldSize project
  nameField := nameFieldSize project

def sizeOfOne (z : Sizer) (n : Nat) : Nat :=
  let span := fieldSize (n - traceIdLength)
  match z.version with
  | .v1 =>
    let trace := z.projectField + traceIdFieldSize + span
    z.projectField + fieldSize (fieldSize trace)
  | .v2 => z.nameField + span

def sizeOfMany (z : Sizer) (bufs : List Bytes) : Nat × Sizer :=
  match z.version with
  | .v1 =>
    let (marks, collator) := z.collator.pass bufs
    let totals := marks.foldl (TraceTotals.add z.projectField) ⟨0, 0⟩
    (z.projectField + fieldSize totals.total, { z with collator })
  | .v2 => (z.nameField + total (fun b => fieldSize (bufferSpan b).length) bufs, z)

/-- the size of the request for a batch; there is no request for an empty one -/
def size (z : Sizer) : List Bytes → Nat × Sizer
  | [] => (0, z)
  | [buf] => (z.sizeOfOne buf.length, z)
  | bufs => z.sizeOfMany bufs

def after (z : Sizer) (batches : List (List Bytes)) : Sizer :=
  batches.foldl (fun z bufs => (z.size bufs).2) z

end Sizer

def requestSizeOfOne (version : ApiVersion) (project : String) (n : Nat) : Nat :=
  (Sizer.ofProject version project).sizeOfOne n

/-- the size of the request for a batch, from a new sizer -/
def requestSize (version : ApiVersion) (project : String) (bufs : List Bytes) : Nat :=
  ((Sizer.ofProject version project).size bufs).1

end SpanCourier
