import Mathlib.Data.List.Chain
import SpanCourier.Proofs.Request.Grouping

/-!
# the order in which buffers are handed over

A collator hands over the buffers of a batch one after the other, each with a mark.  The order is that
of the traces, and among buffers of one trace that of the batch; a mark tells whether the trace of a
buffer is that of the buffer before it.  So the traces of a batch come in ascending order, each in one
run that a mark opens.

* `IsCollation`     the order and the marks, in terms of each event and the one before it;
* `IsGrouped`       the runs of the traces;
* `pass_hands_over` both hold of every pass of every collator.
-/

namespace SpanCourier

/-! ## members of a list by their keys -/

section
variable {α : Type} {key : α → Bytes}

theorem filter_append_filter_of_le {k : Bytes} {as : List α}
    (h : as.Pairwise fun a b => key a ≤ key b) (hk : ∀ a ∈ as, k ≤ key a) :
    as.filter (fun a => decide (key a = k)) ++ as.filter (fun a => decide (key a ≠ k)) = as := by
  induction as with
  | nil => rfl
  | cons a as ih =>
    obtain ⟨hle, has⟩ := List.pairwise_cons.mp h
    by_cases ha : key a = k
    · rw [List.filter_cons_of_pos (by exact decide_eq_true ha),
        List.filter_cons_of_neg (by simpa using ha), List.cons_append,
        ih has fun b hb => hk b (List.mem_cons_of_mem a hb)]
    · have hlt : k < key a := Std.lt_of_le_of_ne (hk a List.mem_cons_self) (Ne.symm ha)
      have hne : ∀ b ∈ a :: as, key b ≠ k := by
        intro b hb heq
        rcases List.mem_cons.mp hb with rfl | hb
        · exact ha heq
        · exact Std.lt_irrefl (Std.lt_of_lt_of_le hlt (heq ▸ hle b hb))
      rw [List.filter_eq_nil_iff.mpr fun b hb => by simpa using hne b hb,
        List.filter_eq_self.mpr fun b hb => decide_eq_true (hne b hb), List.nil_append]

/-- a list in order of its keys is made of the runs of its keys -/
theorem flatMap_filter_key {ids : List Bytes} {as : List α} (hids : ids.Pairwise (· < ·))
    (h : as.Pairwise fun a b => key a ≤ key b) (hmem : ∀ a ∈ as, key a ∈ ids) :
    (ids.flatMap fun id => as.filter fun a => decide (key a = id)) = as := by
  induction ids generalizing as with
  | nil =>
    cases as with
    | nil => rfl
    | cons a as => exact absurd (hmem a List.mem_cons_self) List.not_mem_nil
  | cons k ids ih =>
    obtain ⟨hlt, hids⟩ := List.pairwise_cons.mp hids
    have hk : ∀ a ∈ as, k ≤ key a := by
      intro a ha
      rcases List.mem_cons.mp (hmem a ha) with heq | hin
      · exact heq ▸ Std.le_refl _
      · exact Std.le_of_lt (hlt _ hin)
    have hrest : (ids.flatMap fun id => (as.filter fun a => decide (key a ≠ k)).filter
        fun a => decide (key a = id)) = as.filter fun a => decide (key a ≠ k) := by
      refine ih hids (h.sublist List.filter_sublist) fun a ha => ?_
      obtain ⟨ha, hne⟩ := List.mem_filter.mp ha
      exact (List.mem_cons.mp (hmem a ha)).resolve_left (of_decide_eq_true hne)
    have hsame : ∀ id ∈ ids, (as.filter fun a => decide (key a ≠ k)).filter
        (fun a => decide (key a = id)) = as.filter fun a => decide (key a = id) := by
      intro id hid
      rw [List.filter_filter]
      refine List.filter_congr fun a _ => ?_
      by_cases ha : key a = id
      · have hne : key a ≠ k := fun h => by
          rw [← ha, h] at hid
          exact Std.lt_irrefl (hlt k hid)
        rw [decide_eq_true ha, decide_eq_true hne, Bool.and_self]
      · rw [decide_eq_false ha, Bool.false_and]
    rw [List.flatMap_cons, ← List.flatMap_congr hsame, hrest, filter_append_filter_of_le h hk]

/-- what is put in order of its keys keeps what was true of its order where keys are the same -/
theorem pairwise_mergeSort_lex (key : α → Bytes) {R : α → α → Prop} {as : List α} (h : as.Pairwise R) :
    (as.mergeSort fun a b => decide (key a ≤ key b)).Pairwise
      fun a b => key a < key b ∨ (key a = key b ∧ R a b) := by
  have hle := pairwise_mergeSort_key key as
  rw [List.pairwise_iff_forall_sublist] at hle ⊢
  intro a b hab
  by_cases heq : key a = key b
  · have hrun : ((as.mergeSort fun a b => decide (key a ≤ key b)).filter
        fun c => decide (key c = key b)).Pairwise R := by
      rw [filter_mergeSort_key]
      exact h.filter _
    rw [List.pairwise_filter, List.pairwise_iff_forall_sublist] at hrun
    exact Or.inr ⟨heq, hrun hab (decide_eq_true heq) (decide_eq_true rfl)⟩
  · exact Or.inl (Std.lt_of_le_of_ne (hle hab) heq)

end

/-! ## marks -/

/-- the mark of an event is as the trace of the event before it tells -/
def Continues (e e' : Mark × Placed) : Prop :=
  e'.1 = if e'.2.trace = e.2.trace then .nextSpan else .nextTrace

theorem isChain_markAfter (m : Mark) (p : Placed) (ps : List Placed) :
    ((m, p) :: markAfter p.trace ps).IsChain Continues := by
  induction ps generalizing m p with
  | nil => exact List.isChain_singleton _
  | cons q ps ih => exact List.isChain_cons_cons.mpr ⟨rfl, ih _ q⟩

theorem isChain_mark (ps : List Placed) : (mark ps).IsChain Continues := by
  cases ps with
  | nil => exact List.isChain_nil
  | cons p ps => exact isChain_markAfter .firstTrace p ps

theorem countP_firstTrace_markAfter (t : Bytes) (ps : List Placed) :
    (markAfter t ps).countP (fun e => decide (e.1 = .firstTrace)) = 0 := by
  induction ps generalizing t with
  | nil => rfl
  | cons p ps ih =>
    rw [markAfter, List.countP_cons, ih]
    by_cases h : p.trace = t
    · rw [if_pos h]
      rfl
    · rw [if_neg h]
      rfl

/-- after a buffer of trace `t`, a mark opens a run for each trace that differs from the one before -/
theorem countP_markAfter (t : Bytes) (ps : List Placed) :
    (markAfter t ps).countP (fun e => decide (e.1 ≠ .nextSpan)) + 1
      = (distinctSorted (t :: ps.map Placed.trace)).length := by
  induction ps generalizing t with
  | nil => rfl
  | cons p ps ih =>
    rw [markAfter, List.countP_cons, List.map_cons, distinctSorted]
    by_cases h : p.trace = t
    · subst h
      rw [if_pos rfl, if_pos rfl, ← ih]
      rfl
    · rw [if_neg h, if_neg (Ne.symm h), List.length_cons, ← ih]
      rfl

theorem countP_mark (ps : List Placed) :
    (mark ps).countP (fun e => decide (e.1 ≠ .nextSpan))
      = (distinctSorted (ps.map Placed.trace)).length := by
  cases ps with
  | nil => rfl
  | cons p ps =>
    rw [mark, List.countP_cons, List.map_cons, ← countP_markAfter]
    rfl

/-! ## the buffers of a batch in order -/

/-- the buffers of a batch, each with its position -/
def placed (bufs : List Bytes) : List Placed := (List.range bufs.length).map (place bufs)

/-- the buffers of a batch in the order in which they are handed over -/
def inOrder (bufs : List Bytes) : List Placed :=
  (inTraceOrder bufs (List.range bufs.length)).map (place bufs)

theorem inOrder_eq (bufs : List Bytes) :
    inOrder bufs = (placed bufs).mergeSort fun p q => decide (p.trace ≤ q.trace) :=
  List.map_mergeSort fun _ _ _ _ => rfl

theorem pairwise_placed (bufs : List Bytes) :
    (placed bufs).Pairwise fun p q => p.position < q.position :=
  List.pairwise_map.mpr List.pairwise_lt_range

theorem map_position_placed (bufs : List Bytes) :
    (placed bufs).map Placed.position = List.range bufs.length := by
  rw [placed, List.map_map]
  exact List.map_id _

theorem mem_placed {bufs : List Bytes} {p : Placed} (h : p ∈ placed bufs) :
    bufs[p.position]? = some p.buffer := by
  obtain ⟨i, hi, rfl⟩ := List.mem_map.mp h
  have hlt : i < bufs.length := List.mem_range.mp hi
  show bufs[i]? = some (bufs.getD i [])
  rw [List.getD_eq_getElem?_getD, List.getElem?_eq_getElem hlt]
  rfl

theorem collate_eq_mark (bufs : List Bytes) : collate bufs = mark (inOrder bufs) := collate_eq bufs

/-! ## what a pass hands over -/

/-- The events of a pass over a batch.  Each position is handed over once and with its buffer, in
ascending order of the trace and, for one trace, of the position; the first mark is one of its own, and
every other one tells whether the trace is that of the buffer before. -/
structure IsCollation (bufs : List Bytes) (events : List (Mark × Placed)) : Prop where
  positions : (events.map fun e => e.2.position).Perm (List.range bufs.length)
  buffers : ∀ e ∈ events, bufs[e.2.position]? = some e.2.buffer
  ascending : events.Pairwise fun e e' => e.2.trace < e'.2.trace
    ∨ (e.2.trace = e'.2.trace ∧ e.2.position < e'.2.position)
  first : ∀ e ∈ events.head?, e.1 = .firstTrace
  later : events.IsChain Continues
  firstTrace : events.countP (fun e => decide (e.1 = .firstTrace)) = if bufs = [] then 0 else 1

/-- the events of a pass form one run for each trace of the batch, in ascending order of the traces; a
run holds the buffers of its trace as they stand in the batch, and is opened by a mark -/
structure IsGrouped (bufs : List Bytes) (ids : List Bytes) (events : List (Mark × Placed)) :
    Prop where
  ascending : ids.Pairwise (· < ·)
  mem_iff : ∀ id, id ∈ ids ↔ ∃ b ∈ bufs, bufferTrace b = id
  runs : events.map (·.2) = ids.flatMap fun id => (placed bufs).filter fun p => decide (p.trace = id)
  openings : events.countP (fun e => decide (e.1 ≠ .nextSpan)) = ids.length

theorem isCollation_collate (bufs : List Bytes) : IsCollation bufs (collate bufs) := by
  have hsnd : (collate bufs).map (·.2) = inOrder bufs := by
    rw [collate_eq_mark, map_snd_mark]
  have hperm : (inOrder bufs).Perm (placed bufs) := by
    rw [inOrder_eq]
    exact List.mergeSort_perm _ _
  constructor
  · have h := hperm.map Placed.position
    rwa [map_position_placed, ← hsnd, List.map_map] at h
  · intro e he
    have hmem : e.2 ∈ inOrder bufs := hsnd ▸ List.mem_map_of_mem he
    exact mem_placed (hperm.mem_iff.mp hmem)
  · have h := pairwise_mergeSort_lex Placed.trace (pairwise_placed bufs)
    rwa [← inOrder_eq, ← hsnd, List.pairwise_map] at h
  · intro e he
    rw [collate_eq_mark] at he
    cases hps : inOrder bufs with
    | nil =>
      rw [hps] at he
      cases he
    | cons p ps =>
      rw [hps] at he
      cases he
      rfl
  · rw [collate_eq_mark]
    exact isChain_mark _
  · have hlen : (inOrder bufs).length = bufs.length := by
      rw [hperm.length_eq, ← List.length_map Placed.position, map_position_placed, List.length_range]
    rw [collate_eq_mark]
    cases hps : inOrder bufs with
    | nil =>
      rw [hps] at hlen
      rw [if_pos (List.eq_nil_of_length_eq_zero hlen.symm)]
      rfl
    | cons p ps =>
      have hne : bufs ≠ [] := fun h0 => by
        rw [hps, h0] at hlen
        cases hlen
      rw [if_neg hne, mark, List.countP_cons, countP_firstTrace_markAfter]
      rfl

theorem isGrouped_collate (bufs : List Bytes) : IsGrouped bufs (traceIds bufs) (collate bufs) := by
  have htraces : (inOrder bufs).map Placed.trace
      = (bufs.map bufferTrace).mergeSort fun a b => decide (a ≤ b) := map_trace_inTraceOrder bufs
  refine ⟨pairwise_traceIds bufs, fun id => mem_traceIds, ?_, ?_⟩
  · have hsorted := pairwise_mergeSort_key Placed.trace (placed bufs)
    rw [← inOrder_eq] at hsorted
    have hmem : ∀ p ∈ inOrder bufs, p.trace ∈ traceIds bufs := by
      intro p hp
      rw [traceIds, mem_distinctSorted, ← htraces]
      exact List.mem_map_of_mem hp
    rw [collate_eq_mark, map_snd_mark, ← flatMap_filter_key (pairwise_traceIds bufs) hsorted hmem]
    simp only [inOrder_eq, filter_mergeSort_key Placed.trace]
  · rw [collate_eq_mark, countP_mark, htraces]
    rfl

/-- Whatever a collator went through before, a pass over a batch hands over each of its buffers once,
in ascending order of trace and position, with marks that tell from the event before where a trace
starts.  So each trace of the batch makes one run, the runs ascend, a run keeps the order of the batch,
and there are as many openings as traces. -/
theorem pass_hands_over (c : Collator) (bufs : List Bytes) :
    IsCollation bufs (c.pass bufs).1 ∧ IsGrouped bufs (traceIds bufs) (c.pass bufs).1 := by
  rw [c.pass_fst bufs]
  exact ⟨isCollation_collate bufs, isGrouped_collate bufs⟩

/-- a trace that is the beginning of another one, between buffers of that other trace -/
example : ((Collator.pass ⟨#[3, 1]⟩ [[2, 1], [2], [2, 1], []]).1.map fun e => (e.1, e.2.position))
    = [(.firstTrace, 3), (.nextTrace, 1), (.nextTrace, 0), (.nextSpan, 2)] := by
  cbv

end SpanCourier
