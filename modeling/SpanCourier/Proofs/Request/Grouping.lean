import SpanCourier.Request.Assembly

/-!
# a batch grouped by trace

The buffers of a batch are put in the order of their traces and cut where a trace starts.  What comes
out is one group for each trace of the batch, in ascending order of the traces, and a group holds the
buffers of its trace in the order in which they came.

* `traceIds`              the traces of a batch, each once and in ascending order;
* `ofTrace`               the buffers of one trace;
* `tracesOf_collate`      the groups of a batch.
-/

namespace SpanCourier

/-- the traces of a batch, each once, in ascending order -/
def traceIds (bufs : List Bytes) : List Bytes :=
  distinctSorted ((bufs.map bufferTrace).mergeSort fun a b => decide (a ≤ b))

/-- the buffers of one trace, in their order -/
def ofTrace (id : Bytes) (bufs : List Bytes) : List Bytes :=
  bufs.filter fun b => decide (bufferTrace b = id)

/-! ## members of an ascending list -/

theorem mem_distinctSorted {id : Bytes} {ids : List Bytes} :
    id ∈ distinctSorted ids ↔ id ∈ ids := by
  induction ids using distinctSorted.induct with
  | case1 => exact Iff.rfl
  | case2 b => exact Iff.rfl
  | case3 b bs ih =>
    rw [distinctSorted, if_pos rfl, ih]
    refine ⟨List.mem_cons_of_mem b, fun h => ?_⟩
    rcases List.mem_cons.mp h with rfl | h
    · exact List.mem_cons_self
    · exact h
  | case4 a b bs hne ih =>
    rw [distinctSorted, if_neg hne, List.mem_cons, List.mem_cons, ih]

theorem pairwise_distinctSorted {ids : List Bytes} (h : ids.Pairwise (· ≤ ·)) :
    (distinctSorted ids).Pairwise (· < ·) := by
  induction ids using distinctSorted.induct with
  | case1 => exact List.Pairwise.nil
  | case2 b => exact List.pairwise_singleton _ _
  | case3 b bs ih =>
    rw [distinctSorted, if_pos rfl]
    exact ih h.of_cons
  | case4 a b bs hne ih =>
    rw [distinctSorted, if_neg hne]
    refine List.Pairwise.cons (fun c hc => ?_) (ih h.of_cons)
    have hab : a < b := Std.lt_of_le_of_ne (List.rel_of_pairwise_cons h List.mem_cons_self) hne
    have hc' : c ∈ b :: bs := mem_distinctSorted.mp hc
    rcases List.mem_cons.mp hc' with rfl | hc'
    · exact hab
    · exact Std.lt_of_lt_of_le hab (List.rel_of_pairwise_cons h.of_cons hc')

/-! ## slices between starts -/

namespace TraceGroups

/-- where groups start when they are put one behind the other from a place on -/
def offsets : Nat → List (List Bytes) → List Nat
  | _, [] => []
  | n, g :: gs => n :: offsets (n + g.length) gs

/-- groups put one behind the other, with the places where they start -/
def pack (gs : List (List Bytes)) : TraceGroups := ⟨gs.flatten.toArray, (offsets 0 gs).toArray⟩

theorem offsets_append_singleton (n : Nat) (gs : List (List Bytes)) (g : List Bytes) :
    offsets n (gs ++ [g]) = offsets n gs ++ [n + gs.flatten.length] := by
  induction gs generalizing n with
  | nil => rfl
  | cons g' gs ih =>
    rw [List.cons_append, offsets, ih, offsets, List.cons_append, List.flatten_cons,
      List.length_append, Nat.add_assoc]

theorem add_nextTrace (gs : List (List Bytes)) (p : Placed) :
    (pack gs).add (.nextTrace, p) = pack (gs ++ [[p.buffer]]) := by
  simp [add, pack, offsets_append_singleton]

theorem add_nextSpan (gs : List (List Bytes)) (g : List Bytes) (p : Placed) :
    (pack (gs ++ [g])).add (.nextSpan, p) = pack (gs ++ [g ++ [p.buffer]]) := by
  simp [add, pack, offsets_append_singleton]

theorem headD_offsets (n : Nat) (gs : List (List Bytes)) :
    (offsets n gs).headD (n + gs.flatten.length) = n := by
  cases gs with
  | nil => rfl
  | cons g gs => rfl

theorem slices_offsets (before : List Bytes) (gs : List (List Bytes)) :
    slices (before ++ gs.flatten).toArray (offsets before.length gs) = gs := by
  induction gs generalizing before with
  | nil => rfl
  | cons g gs ih =>
    have hsize : (before ++ (g :: gs).flatten).toArray.size
        = before.length + g.length + gs.flatten.length := by
      simp [Nat.add_assoc]
    have hrest := ih (before ++ g)
    rw [List.length_append, List.append_assoc, ← List.flatten_cons] at hrest
    rw [offsets, slices, hsize, headD_offsets, hrest]
    simp

theorem traces_pack (gs : List (List Bytes)) : (pack gs).traces = gs := by
  have h := slices_offsets [] gs
  rwa [List.nil_append] at h

end TraceGroups

theorem ofTrace_append (id : Bytes) (as bs : List Bytes) :
    ofTrace id (as ++ bs) = ofTrace id as ++ ofTrace id bs := List.filter_append as bs

theorem ofTrace_eq_self {id : Bytes} {bufs : List Bytes} (h : ∀ b ∈ bufs, bufferTrace b = id) :
    ofTrace id bufs = bufs :=
  List.filter_eq_self.mpr fun b hb => decide_eq_true (h b hb)

theorem ofTrace_eq_nil {id : Bytes} {bufs : List Bytes} (h : ∀ b ∈ bufs, bufferTrace b ≠ id) :
    ofTrace id bufs = [] :=
  List.filter_eq_nil_iff.mpr fun b hb => by
    rw [decide_eq_false (h b hb)]
    exact Bool.false_ne_true

/-! ## from marks to groups -/

/-- when buffers in trace order follow those of an open group, the ones of its trace join it, and the
others form the groups of their traces -/
theorem foldl_add_markAfter {t : Bytes} {g : List Bytes} {ps : List Placed}
    (gs : List (List Bytes)) (hg : ∀ b ∈ g, bufferTrace b = t)
    (hps : (t :: ps.map Placed.trace).Pairwise (· ≤ ·)) :
    (markAfter t ps).foldl TraceGroups.add (TraceGroups.pack (gs ++ [g]))
      = TraceGroups.pack (gs ++ (distinctSorted (t :: ps.map Placed.trace)).map
          fun id => ofTrace id (g ++ ps.map Placed.buffer)) := by
  induction ps generalizing t g gs with
  | nil =>
    show TraceGroups.pack (gs ++ [g]) = TraceGroups.pack (gs ++ [ofTrace t (g ++ [])])
    rw [List.append_nil, ofTrace_eq_self hg]
  | cons p ps ih =>
    have hps' : (p.trace :: ps.map Placed.trace).Pairwise (· ≤ ·) := hps.of_cons
    have hle : t ≤ p.trace := List.rel_of_pairwise_cons hps List.mem_cons_self
    rw [markAfter, List.foldl_cons, List.map_cons, List.map_cons]
    by_cases h : p.trace = t
    · subst h
      have hg' : ∀ b ∈ g ++ [p.buffer], bufferTrace b = p.trace := by
        intro b hb
        rcases List.mem_append.mp hb with hb | hb
        · exact hg b hb
        · rw [List.mem_singleton.mp hb]
          rfl
      rw [if_pos rfl, TraceGroups.add_nextSpan, ih gs hg' hps', distinctSorted, if_pos rfl,
        List.append_assoc]
      rfl
    · have hlt : t < p.trace := Std.lt_of_le_of_ne hle (Ne.symm h)
      have hg' : ∀ b ∈ [p.buffer], bufferTrace b = p.trace := fun b hb => by
        rw [List.mem_singleton.mp hb]
        rfl
      -- the traces still to come are above `t`: none of them takes from the open group, and the
      -- open group takes nothing from them
      have habove : ∀ id ∈ p.trace :: ps.map Placed.trace, t ≠ id := by
        intro id hid heq
        have hid' : p.trace ≤ id := by
          rcases List.mem_cons.mp hid with rfl | hid
          · exact Std.le_refl _
          · exact List.rel_of_pairwise_cons hps' hid
        exact Std.lt_irrefl (Std.lt_of_lt_of_le hlt (heq ▸ hid'))
      have hopen : ofTrace t (g ++ p.buffer :: ps.map Placed.buffer) = g := by
        rw [ofTrace_append, ofTrace_eq_self hg, ofTrace_eq_nil, List.append_nil]
        intro b hb
        obtain ⟨q, hq, rfl⟩ := List.mem_map.mp (List.map_cons.symm ▸ hb)
        exact Ne.symm (habove _ (List.map_cons.symm ▸ List.mem_map_of_mem hq))
      have hlater : ∀ id ∈ distinctSorted (p.trace :: ps.map Placed.trace),
          ofTrace id ([p.buffer] ++ ps.map Placed.buffer)
            = ofTrace id (g ++ p.buffer :: ps.map Placed.buffer) := by
        intro id hid
        have hne : t ≠ id := habove id (mem_distinctSorted.mp hid)
        have hnil : ofTrace id g = [] := ofTrace_eq_nil fun b hb => hg b hb ▸ hne
        rw [ofTrace_append id g, hnil]
        rfl
      rw [if_neg h, TraceGroups.add_nextTrace, ih (gs ++ [g]) hg' hps', distinctSorted,
        if_neg (Ne.symm h), List.map_cons, hopen, List.map_congr_left hlater, List.append_assoc]
      rfl

/-! ## the order of the buffers -/

section
variable {α : Type} (key : α → Bytes)

theorem keyLE_trans (a b c : α) (h : decide (key a ≤ key b)) (h' : decide (key b ≤ key c)) :
    decide (key a ≤ key c) :=
  decide_eq_true (List.le_trans (of_decide_eq_true h) (of_decide_eq_true h'))

theorem keyLE_total (a b : α) : (decide (key a ≤ key b) || decide (key b ≤ key a)) = true := by
  rcases List.le_total (key a) (key b) with h | h
  · rw [decide_eq_true h, Bool.true_or]
  · rw [Bool.or_comm, decide_eq_true h, Bool.true_or]

/-- what is put in order of its keys ascends in them -/
theorem pairwise_mergeSort_key (as : List α) :
    (as.mergeSort fun a b => decide (key a ≤ key b)).Pairwise fun a b => key a ≤ key b :=
  (List.pairwise_mergeSort (keyLE_trans key) (keyLE_total key) as).imp of_decide_eq_true

/-- what has one key comes out as it went in -/
theorem filter_mergeSort_key (id : Bytes) (as : List α) :
    (as.mergeSort fun a b => decide (key a ≤ key b)).filter (fun a => decide (key a = id))
      = as.filter fun a => decide (key a = id) := by
  have hle : (as.filter fun a => decide (key a = id)).Pairwise
      fun a b => decide (key a ≤ key b) = true := by
    refine List.pairwise_of_forall_mem_list fun a ha b hb => ?_
    have ha' := of_decide_eq_true (List.mem_filter.mp ha).2
    have hb' := of_decide_eq_true (List.mem_filter.mp hb).2
    rw [ha', hb']
    exact decide_eq_true (Std.le_refl id)
  have hsub := List.sublist_mergeSort (keyLE_trans key) (keyLE_total key) hle List.filter_sublist
  have hsub' := hsub.filter fun a => decide (key a = id)
  simp only [List.filter_filter, Bool.and_self] at hsub'
  exact (hsub'.eq_of_length ((List.mergeSort_perm as _).filter _).length_eq.symm).symm

end

def traceLE (a b : Bytes) : Bool := decide (bufferTrace a ≤ bufferTrace b)

theorem map_buffer_place (bufs : List Bytes) :
    ((List.range bufs.length).map (place bufs)).map Placed.buffer = bufs := by
  apply List.ext_getElem
  · simp
  · intro i h h'
    simp [place, h']

theorem map_buffer_inTraceOrder (bufs : List Bytes) :
    ((inTraceOrder bufs (List.range bufs.length)).map (place bufs)).map Placed.buffer
      = bufs.mergeSort traceLE := by
  have hsort : (inTraceOrder bufs (List.range bufs.length)).map (fun i => (place bufs i).buffer)
      = ((List.range bufs.length).map fun i => (place bufs i).buffer).mergeSort traceLE :=
    List.map_mergeSort fun _ _ _ _ => rfl
  have hplace := map_buffer_place bufs
  rw [List.map_map] at hplace ⊢
  exact hsort.trans (congrArg (List.mergeSort · traceLE) hplace)

/-- the buffers of one trace come out as they went in -/
theorem ofTrace_mergeSort (id : Bytes) (bufs : List Bytes) :
    ofTrace id (bufs.mergeSort traceLE) = ofTrace id bufs := filter_mergeSort_key bufferTrace id bufs

theorem map_trace_inTraceOrder (bufs : List Bytes) :
    ((inTraceOrder bufs (List.range bufs.length)).map (place bufs)).map Placed.trace
      = (bufs.map bufferTrace).mergeSort fun a b => decide (a ≤ b) := by
  have h : ∀ ps : List Placed, ps.map Placed.trace = (ps.map Placed.buffer).map bufferTrace :=
    fun ps => (List.map_map ..).symm
  rw [h, map_buffer_inTraceOrder]
  exact List.map_mergeSort fun _ _ _ _ => rfl

theorem pairwise_sorted (ids : List Bytes) :
    (ids.mergeSort fun a b => decide (a ≤ b)).Pairwise (· ≤ ·) := pairwise_mergeSort_key (fun id => id) ids

/-! ## the traces and their groups -/

theorem traceIds_nil : traceIds [] = [] := by
  rw [traceIds, List.map_nil, List.mergeSort_nil]
  rfl

theorem mem_traceIds {id : Bytes} {bufs : List Bytes} :
    id ∈ traceIds bufs ↔ ∃ b ∈ bufs, bufferTrace b = id := by
  rw [traceIds, mem_distinctSorted, (List.mergeSort_perm _ _).mem_iff, List.mem_map]

theorem pairwise_traceIds (bufs : List Bytes) : (traceIds bufs).Pairwise (· < ·) :=
  pairwise_distinctSorted (pairwise_sorted _)

theorem nodup_traceIds (bufs : List Bytes) : (traceIds bufs).Nodup := by
  refine (pairwise_traceIds bufs).imp fun {a b} h => ?_
  intro heq
  subst heq
  exact Std.lt_irrefl h

theorem bufferTrace_headD_ofTrace {id : Bytes} {bufs : List Bytes} (h : id ∈ traceIds bufs) :
    bufferTrace ((ofTrace id bufs).headD []) = id := by
  obtain ⟨b, hb, hid⟩ := mem_traceIds.mp h
  have hmem : b ∈ ofTrace id bufs := List.mem_filter.mpr ⟨hb, decide_eq_true hid⟩
  have hall : ∀ b ∈ ofTrace id bufs, bufferTrace b = id := fun b hb =>
    of_decide_eq_true (List.mem_filter.mp hb).2
  cases hg : ofTrace id bufs with
  | nil => exact absurd (hg ▸ hmem) List.not_mem_nil
  | cons c cs => exact hall c (hg ▸ List.mem_cons_self)

/-- a batch is cut into one group for each of its traces -/
theorem tracesOf_collate (bufs : List Bytes) :
    (TraceGroups.ofMarks (collate bufs)).traces
      = (traceIds bufs).map fun id => ofTrace id bufs := by
  have hids := map_trace_inTraceOrder bufs
  have hbufs := map_buffer_inTraceOrder bufs
  have hle := pairwise_sorted (bufs.map bufferTrace)
  simp only [collate_eq, traceIds, ← ofTrace_mergeSort _ bufs]
  rw [← hids] at hle ⊢
  rw [← hbufs]
  generalize (inTraceOrder bufs (List.range bufs.length)).map (place bufs) = ps at hle
  cases ps with
  | nil => rfl
  | cons p ps =>
    have hg : ∀ b ∈ [p.buffer], bufferTrace b = p.trace := fun b hb => by
      rw [List.mem_singleton.mp hb]
      rfl
    show ((markAfter p.trace ps).foldl TraceGroups.add
      (TraceGroups.pack ([] ++ [[p.buffer]]))).traces = _
    rw [foldl_add_markAfter [] hg hle, TraceGroups.traces_pack]
    rfl

end SpanCourier
