import SpanCourier.Encoder

/-!
# buffers grouped by trace

A batch of buffers is put in the order of their trace identifiers; buffers of one trace keep their
order.  Each buffer of the ordered batch is marked: the first of all, the first of another trace, or
a further span of the trace before it.  A `Collator` does so for one batch after the other, and the
space that it keeps between them has no bearing on its marks.

* `Collator.pass_fst`   what a collator gives for a batch, whatever it went through before;
* `collate_perm`        no buffer is lost or doubled.
-/

namespace SpanCourier

inductive Mark where
  | firstTrace
  | nextSpan
  | nextTrace
  deriving DecidableEq, Inhabited

structure Placed where
  position : Nat
  buffer : Bytes
  deriving DecidableEq, Inhabited

namespace Placed

def trace (p : Placed) : Bytes := bufferTrace p.buffer

end Placed

def place (bufs : List Bytes) (i : Nat) : Placed := ⟨i, bufs.getD i []⟩

/-- positions of a batch in the order of the traces found there, those of one trace as they were -/
def inTraceOrder (bufs : List Bytes) (positions : List Nat) : List Nat :=
  positions.mergeSort fun i j => decide ((place bufs i).trace ≤ (place bufs j).trace)

def markAfter (trace : Bytes) : List Placed → List (Mark × Placed)
  | [] => []
  | p :: ps =>
    (if p.trace = trace then .nextSpan else .nextTrace, p) :: markAfter p.trace ps

def mark : List Placed → List (Mark × Placed)
  | [] => []
  | p :: ps => (.firstTrace, p) :: markAfter p.trace ps

/-- goes through one batch after the other; the order of the last one stays as scratch space -/
structure Collator where
  order : Array Nat := #[]
  deriving DecidableEq, Inhabited

namespace Collator

/-- the positions of a batch of `n` buffers, laid out over the order of the batch before -/
def layOut (c : Collator) (n : Nat) : Array Nat := c.order.shrink 0 ++ Array.range n

/-- the buffers of a batch in trace order, with their marks -/
def pass (c : Collator) (bufs : List Bytes) : List (Mark × Placed) × Collator :=
  let order := inTraceOrder bufs (c.layOut bufs.length).toList
  (mark (order.map (place bufs)), ⟨order.toArray⟩)

end Collator

def collate (bufs : List Bytes) : List (Mark × Placed) := (Collator.pass {} bufs).1

theorem map_snd_markAfter (trace : Bytes) (ps : List Placed) :
    (markAfter trace ps).map (·.2) = ps := by
  induction ps generalizing trace with
  | nil => rfl
  | cons p ps ih => simp [markAfter, ih]

theorem map_snd_mark (ps : List Placed) : (mark ps).map (·.2) = ps := by
  cases ps with
  | nil => rfl
  | cons p ps => simp [mark, map_snd_markAfter]

theorem Collator.toList_layOut (c : Collator) (n : Nat) : (c.layOut n).toList = List.range n := by
  simp [layOut]

theorem Collator.pass_fst (c : Collator) (bufs : List Bytes) : (c.pass bufs).1 = collate bufs := by
  simp only [collate, pass, toList_layOut]

theorem collate_eq (bufs : List Bytes) :
    collate bufs = mark ((inTraceOrder bufs (List.range bufs.length)).map (place bufs)) := by
  simp only [collate, Collator.pass, Collator.toList_layOut]

theorem collate_perm (bufs : List Bytes) :
    ((collate bufs).map (·.2)).Perm ((List.range bufs.length).map (place bufs)) := by
  rw [collate_eq, map_snd_mark]
  exact (List.mergeSort_perm _ _).map _

end SpanCourier
