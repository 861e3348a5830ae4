import SpanCourier.Proofs.Request.Grouping
import SpanCourier.Proofs.Wire.Length

/-!
# how long the parts of a request are

A part of a request is as long as its header announces, with one exception: the header of a trace
identifier announces all of its bytes even where the buffers are too short to hold them.  What is
missing there is `missing`, counted once for each trace.

* `length_header`           the key and the length of a field;
* `length_patchTracesBody`  a v1 request;
* `length_batchWriteBody`   a v2 request.
-/

namespace SpanCourier

theorem length_header {tag : Nat} (h : tag < 16) (n : Nat) :
    (header tag n).length = 1 + varintSize n := by
  rw [header, List.length_append, Wire.length_key h (by decide), length_varint]

theorem length_header_append {tag : Nat} (h : tag < 16) (bs : Bytes) :
    (header tag bs.length ++ bs).length = fieldSize bs.length := by
  rw [List.length_append, length_header h, fieldSize]

theorem isEmpty_utf8 (s : String) : (utf8 s).isEmpty = decide (s = "") := by
  by_cases h : s = ""
  · subst h
    rfl
  · have hne : utf8 s ≠ [] := fun h0 => h (utf8_injective h0)
    rw [decide_eq_false h]
    exact Bool.eq_false_iff.mpr fun h0 => hne (List.isEmpty_iff.mp h0)

theorem length_run {tag : Nat} (h : tag < 16) (s : String) :
    (run tag (utf8 s)).length = projectFieldSize s := by
  rw [run, isEmpty_utf8, projectFieldSize]
  by_cases hs : s = ""
  · rw [if_pos (decide_eq_true hs), if_pos hs]
    rfl
  · rw [if_neg (of_decide_eq_false (decide_eq_false hs) ∘ of_decide_eq_true), if_neg hs,
      length_header_append h, length_utf8]

theorem length_spanField {tag : Nat} (h : tag < 16) (buf : Bytes) :
    (spanField tag buf).length = fieldSize (bufferSpan buf).length :=
  length_header_append h _

theorem length_spanFields {tag : Nat} (h : tag < 16) (bufs : List Bytes) :
    (bufs.flatMap (spanField tag)).length
      = total (fun b => fieldSize (bufferSpan b).length) bufs := by
  rw [length_flatMap]
  exact total_congr fun b _ => length_spanField h b

/-- how many bytes a trace identifier lacks -/
def missing (id : Bytes) : Nat := traceIdLength - id.length

theorem length_bufferTrace_le (buf : Bytes) : (bufferTrace buf).length ≤ traceIdLength :=
  List.length_take_le _ _

/-- a trace under its header, with the bytes that its identifier lacks -/
theorem length_traceField (project : String) (bufs : List Bytes) :
    (traceField project bufs).length + missing (bufferTrace (bufs.headD []))
      = fieldSize (traceLength project bufs) := by
  have hle := length_bufferTrace_le (bufs.headD [])
  have hid : (header 2 traceIdLength).length + traceIdLength = fieldSize traceIdLength := by
    rw [length_header (by decide), fieldSize]
  simp only [traceField, List.length_append, length_header (show 1 < 16 by decide),
    length_run (show 1 < 16 by decide), length_spanFields (show 3 < 16 by decide), missing]
  rw [fieldSize]
  conv => rhs; arg 2; rw [traceLength]
  omega

theorem length_patchTracesBody (project : String) (groups : List (List Bytes)) :
    (patchTracesBody project groups).length
        + total (fun g => missing (bufferTrace (g.headD []))) groups
      = projectFieldSize project
        + fieldSize (total (fun g => fieldSize (traceLength project g)) groups) := by
  have hall : (groups.flatMap (traceField project)).length
      + total (fun g => missing (bufferTrace (g.headD []))) groups
      = total (fun g => fieldSize (traceLength project g)) groups := by
    induction groups with
    | nil => rfl
    | cons g gs ih =>
      have hg := length_traceField project g
      rw [List.flatMap_cons, List.length_append, total_cons, total_cons]
      omega
  simp only [patchTracesBody, List.length_append, length_run (show 2 < 16 by decide),
    length_header (show 3 < 16 by decide)]
  rw [fieldSize]
  omega

theorem length_batchWriteBody (project : String) (bufs : List Bytes) :
    (batchWriteBody project bufs).length
      = nameFieldSize project + total (fun b => fieldSize (bufferSpan b).length) bufs := by
  have hname : "projects/" ++ project ≠ "" := by
    intro h
    have hlen := congrArg String.utf8ByteSize h
    rw [String.utf8ByteSize_append] at hlen
    exact absurd hlen (by simp)
  rw [batchWriteBody, List.length_append, length_run (by decide), length_spanFields (by decide),
    projectFieldSize, if_neg hname, nameFieldSize, String.utf8ByteSize_append]

theorem total_missing (bufs : List Bytes) :
    total (fun g => missing (bufferTrace (g.headD [])))
        ((traceIds bufs).map fun id => ofTrace id bufs)
      = total missing (traceIds bufs) := by
  rw [total_map]
  exact total_congr fun id hid => by rw [bufferTrace_headD_ofTrace hid]

theorem total_missing_eq_zero {bufs : List Bytes} (h : ∀ b ∈ bufs, traceIdLength ≤ b.length) :
    total missing (traceIds bufs) = 0 := by
  have hzero : ∀ id ∈ traceIds bufs, missing id = 0 := by
    intro id hid
    obtain ⟨b, hb, rfl⟩ := mem_traceIds.mp hid
    have hlen := h b hb
    rw [missing, bufferTrace, List.length_take]
    omega
  rw [total_congr hzero]
  induction traceIds bufs with
  | nil => rfl
  | cons id ids ih => rw [total_cons, ih]

end SpanCourier
