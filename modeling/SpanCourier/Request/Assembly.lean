import SpanCourier.Request.Size
import SpanCourier.Wire.Record

/-!
# the request for a batch

A request is assembled around spans that are encoded already: only what encloses them is written.
The lengths of the enclosing messages come first, so they are computed from the lengths of the spans.
An `Assembler` does so for one batch after the other.
-/

namespace SpanCourier

structure Call where
  version : ApiVersion
  body : Bytes
  deriving DecidableEq, Inhabited

structure Request where
  call : Call
  spanCount : Nat
  traceCount : Nat
  deriving DecidableEq, Inhabited

/-- the key and the length of a run of `n` bytes -/
def header (tag n : Nat) : Bytes := Wire.key tag 2 ++ varint n

/-- a run of bytes under its header, left out when it is empty -/
def run (tag : Nat) (bs : Bytes) : Bytes :=
  if bs.isEmpty then [] else header tag bs.length ++ bs

/-- an encoded span under its header, written even when it is empty -/
def spanField (tag : Nat) (buf : Bytes) : Bytes :=
  header tag (bufferSpan buf).length ++ bufferSpan buf

def traceLength (project : String) (bufs : List Bytes) : Nat :=
  projectFieldSize project + fieldSize traceIdLength
    + total (fun b => fieldSize (bufferSpan b).length) bufs

/-- the buffers of a batch in trace order, with the places where a trace starts -/
structure TraceGroups where
  spans : Array Bytes := #[]
  starts : Array Nat := #[]

namespace TraceGroups

def add (g : TraceGroups) (m : Mark × Placed) : TraceGroups :=
  match m.1 with
  | .nextSpan => { g with spans := g.spans.push m.2.buffer }
  | .firstTrace | .nextTrace => ⟨g.spans.push m.2.buffer, g.starts.push g.spans.size⟩

def ofMarks (ms : List (Mark × Placed)) : TraceGroups := ms.foldl add {}

/-- the buffers from each start up to the next one, from the last up to the end -/
def slices (spans : Array Bytes) : List Nat → List (List Bytes)
  | [] => []
  | s :: ss => (spans.extract s (ss.headD spans.size)).toList :: slices spans ss

def traces (g : TraceGroups) : List (List Bytes) := slices g.spans g.starts.toList

end TraceGroups

def traceField (project : String) (bufs : List Bytes) : Bytes :=
  header 1 (traceLength project bufs) ++ run 1 (utf8 project)
    ++ header 2 traceIdLength ++ bufferTrace (bufs.headD [])
    ++ bufs.flatMap (spanField 3)

def patchTracesBody (project : String) (groups : List (List Bytes)) : Bytes :=
  run 2 (utf8 project)
    ++ header 3 (total (fun g => fieldSize (traceLength project g)) groups)
    ++ groups.flatMap (traceField project)

def batchWriteBody (project : String) (bufs : List Bytes) : Bytes :=
  run 1 (utf8 ("projects/" ++ project)) ++ bufs.flatMap (spanField 2)

def distinctSorted : List Bytes → List Bytes
  | [] => []
  | [b] => [b]
  | a :: b :: bs => if a = b then distinctSorted (b :: bs) else a :: distinctSorted (b :: bs)

def countTraces (bufs : List Bytes) : Nat :=
  (distinctSorted ((bufs.map bufferTrace).mergeSort fun a b => decide (a ≤ b))).length

structure Assembler where
  version : ApiVersion
  project : String
  sizer : Sizer
  collator : Collator := {}
  deriving DecidableEq, Inhabited

namespace Assembler

def ofProject (version : ApiVersion) (project : String) : Assembler where
  version := version
  project := project
  sizer := .ofProject version project

def measure (a : Assembler) (bufs : List Bytes) : Nat × Assembler :=
  let (size, sizer) := a.sizer.size bufs
  (size, { a with sizer })

/-- the request for a batch; an empty batch gives an empty body.  The body is measured first, so that
there is room for it. -/
def assemble (a : Assembler) (bufs : List Bytes) : Request × Assembler :=
  if bufs.isEmpty then (⟨⟨a.version, []⟩, 0, 0⟩, a)
  else
    let a := (a.measure bufs).2
    match a.version with
    | .v1 =>
      let (marks, collator) := a.collator.pass bufs
      let groups := (TraceGroups.ofMarks marks).traces
      (⟨⟨.v1, patchTracesBody a.project groups⟩, bufs.length, groups.length⟩, { a with collator })
    | .v2 => (⟨⟨.v2, batchWriteBody a.project bufs⟩, bufs.length, countTraces bufs⟩, a)

/-- the assembler after it assembled the requests for some batches -/
def after (a : Assembler) (batches : List (List Bytes)) : Assembler :=
  batches.foldl (fun a bufs => (a.assemble bufs).2) a

end Assembler

/-- the request for a batch, from a new assembler -/
def assemble (version : ApiVersion) (project : String) (bufs : List Bytes) : Request :=
  ((Assembler.ofProject version project).assemble bufs).1

end SpanCourier
