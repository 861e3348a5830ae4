import SpanCourier.Proofs.Request.Length
import SpanCourier.Proofs.Request.Reuse

/-!
# the size of a request is the length of its body

A sizer goes over the marked buffers of a batch with running totals, and never sees the groups that
an assembler cuts.  Yet at every mark its totals are those of the groups so far, so that in the end
it knows what the header of a request announces.

* `TraceTotals.ofGroups`       the totals when some groups are closed and one is open;
* `foldl_add_markAfter_totals` the two go over the marks side by side;
* `requestSize_v1`             a v1 request, with what its identifiers lack;
* `requestSize_v2`             a v2 request.
-/

namespace SpanCourier

/-- the bytes that the header of the traces announces for these groups -/
def groupsSize (project : String) (groups : List (List Bytes)) : Nat :=
  total (fun g => fieldSize (traceLength project g)) groups

theorem groupsSize_append_singleton (project : String) (gs : List (List Bytes)) (g : List Bytes) :
    groupsSize project (gs ++ [g])
      = groupsSize project gs + fieldSize (traceLength project g) := by
  rw [groupsSize, total_append, total_cons, total_nil, Nat.add_zero]
  rfl

theorem traceLength_append (project : String) (as bs : List Bytes) :
    traceLength project (as ++ bs)
      = traceLength project as + total (fun b => fieldSize (bufferSpan b).length) bs := by
  rw [traceLength, traceLength, total_append, Nat.add_assoc _ (total _ as)]

namespace TraceTotals

/-- the totals when the first groups are closed and the last one is open -/
def ofGroups (project : String) (gs : List (List Bytes)) (g : List Bytes) : TraceTotals :=
  ⟨traceLength project g, groupsSize project gs⟩

theorem total_ofGroups (project : String) (gs : List (List Bytes)) (g : List Bytes) :
    (ofGroups project gs g).total = groupsSize project (gs ++ [g]) :=
  (groupsSize_append_singleton project gs g).symm

theorem add_nextSpan (project : String) (gs : List (List Bytes)) (g : List Bytes) (p : Placed) :
    (ofGroups project gs g).add (projectFieldSize project) (.nextSpan, p)
      = ofGroups project gs (g ++ [p.buffer]) := by
  rw [ofGroups, ofGroups, traceLength_append]
  rfl

theorem add_nextTrace (project : String) (gs : List (List Bytes)) (g : List Bytes) (p : Placed) :
    (ofGroups project gs g).add (projectFieldSize project) (.nextTrace, p)
      = ofGroups project (gs ++ [g]) [p.buffer] := by
  rw [ofGroups, ofGroups, groupsSize_append_singleton]
  rfl

end TraceTotals

theorem foldl_add_markAfter_totals (project : String) (t : Bytes) (ps : List Placed)
    (gs : List (List Bytes)) (g : List Bytes) :
    ∃ gs' g',
      (markAfter t ps).foldl TraceGroups.add (TraceGroups.pack (gs ++ [g]))
          = TraceGroups.pack (gs' ++ [g'])
        ∧ (markAfter t ps).foldl (TraceTotals.add (projectFieldSize project))
            (TraceTotals.ofGroups project gs g) = TraceTotals.ofGroups project gs' g' := by
  induction ps generalizing t gs g with
  | nil => exact ⟨gs, g, rfl, rfl⟩
  | cons p ps ih =>
    rw [markAfter, List.foldl_cons, List.foldl_cons]
    by_cases h : p.trace = t
    · rw [if_pos h, TraceGroups.add_nextSpan, TraceTotals.add_nextSpan]
      exact ih p.trace gs (g ++ [p.buffer])
    · rw [if_neg h, TraceGroups.add_nextTrace, TraceTotals.add_nextTrace]
      exact ih p.trace (gs ++ [g]) [p.buffer]

theorem exists_collate_eq {bufs : List Bytes} (hne : bufs ≠ []) :
    ∃ p ps, collate bufs = (.firstTrace, p) :: markAfter p.trace ps := by
  have hlen := (collate_perm bufs).length_eq
  rw [collate_eq] at hlen ⊢
  cases h : (inTraceOrder bufs (List.range bufs.length)).map (place bufs) with
  | nil =>
    rw [h] at hlen
    simp [mark] at hlen
    exact absurd hlen.symm (by simpa using hne)
  | cons p ps => exact ⟨p, ps, rfl⟩

theorem total_collate (project : String) {bufs : List Bytes} (hne : bufs ≠ []) :
    ((collate bufs).foldl (TraceTotals.add (projectFieldSize project)) ⟨0, 0⟩).total
      = groupsSize project (TraceGroups.ofMarks (collate bufs)).traces := by
  obtain ⟨p, ps, h⟩ := exists_collate_eq hne
  obtain ⟨gs, g, hgroups, htotals⟩ := foldl_add_markAfter_totals project p.trace ps [] [p.buffer]
  rw [h, TraceGroups.ofMarks, List.foldl_cons, List.foldl_cons]
  show ((markAfter p.trace ps).foldl _ (TraceTotals.ofGroups project [] [p.buffer])).total
    = groupsSize project ((markAfter p.trace ps).foldl _ (TraceGroups.pack [[p.buffer]])).traces
  rw [htotals, TraceTotals.total_ofGroups]
  exact (congrArg (groupsSize project)
    ((congrArg TraceGroups.traces hgroups).trans (TraceGroups.traces_pack _))).symm

/-! ## the closed form -/

theorem collate_singleton (buf : Bytes) : collate [buf] = [(.firstTrace, ⟨0, buf⟩)] := by
  rw [collate_eq, inTraceOrder]
  show mark (([0].mergeSort _).map (place [buf])) = _
  rw [List.mergeSort_singleton]
  rfl

/-- one buffer by itself has the size that it has as a batch -/
theorem Sizer.sizeOfOne_eq (z : Sizer) (buf : Bytes) :
    z.sizeOfOne buf.length = (z.sizeOfMany [buf]).1 := by
  have hspan : (bufferSpan buf).length = buf.length - traceIdLength := List.length_drop
  unfold Sizer.sizeOfOne Sizer.sizeOfMany
  cases z.version with
  | v1 =>
    simp only [Collator.pass_fst, collate_singleton, List.foldl_cons, List.foldl_nil,
      TraceTotals.add, TraceTotals.startTrace, TraceTotals.total, hspan, Nat.zero_add]
  | v2 => rw [total_cons, total_nil, hspan, Nat.add_zero]

theorem Sizer.size_of_ne_nil (z : Sizer) {bufs : List Bytes} (hne : bufs ≠ []) :
    (z.size bufs).1 = (z.sizeOfMany bufs).1 := by
  match bufs with
  | [] => exact absurd rfl hne
  | [buf] => exact z.sizeOfOne_eq buf
  | _ :: _ :: _ => rfl

/-! ## the size and the body -/

theorem requestSize_v1_of_ne_nil (project : String) {bufs : List Bytes} (hne : bufs ≠ []) :
    requestSize .v1 project bufs = projectFieldSize project
      + fieldSize (groupsSize project (TraceGroups.ofMarks (collate bufs)).traces) := by
  rw [requestSize, Sizer.size_of_ne_nil _ hne, ← total_collate project hne]
  simp only [Sizer.sizeOfMany, Sizer.ofProject, Collator.pass_fst]

/-- the size of a v1 request is the length of its body with what its identifiers lack -/
theorem requestSize_v1 (project : String) (bufs : List Bytes) :
    requestSize .v1 project bufs
      = (assemble .v1 project bufs).call.body.length + total missing (traceIds bufs) := by
  by_cases hne : bufs = []
  · subst hne
    rw [traceIds_nil]
    rfl
  · rw [requestSize_v1_of_ne_nil project hne, assemble_v1 project hne, tracesOf_collate,
      ← total_missing, length_patchTracesBody]
    rfl

theorem requestSize_v2 (project : String) (bufs : List Bytes) :
    requestSize .v2 project bufs = (assemble .v2 project bufs).call.body.length := by
  by_cases hne : bufs = []
  · subst hne
    rfl
  · rw [requestSize, Sizer.size_of_ne_nil _ hne, assemble_v2 project hne, length_batchWriteBody]
    rfl

theorem requestSize_eq_length (version : ApiVersion) (project : String) {bufs : List Bytes}
    (h : ∀ b ∈ bufs, traceIdLength ≤ b.length) :
    requestSize version project bufs = (assemble version project bufs).call.body.length := by
  cases version with
  | v1 => rw [requestSize_v1, total_missing_eq_zero h, Nat.add_zero]
  | v2 => exact requestSize_v2 project bufs

end SpanCourier
