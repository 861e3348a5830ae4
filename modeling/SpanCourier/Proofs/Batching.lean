import Mathlib.Algebra.Order.BigOperators.Group.Finset
import SpanCourier.Proofs.Request.Overflow
import SpanCourier.Proofs.Sender.Batches
import SpanCourier.Proofs.Wire.Growth

/-!
# the size of a request as a measure of batches

Who puts batches together needs more than the size of each: a batch must grow with what is put into
it, in any order, and two batches must fit where their sizes fit side by side.  In a v1 request the
spans of a batch are regrouped by trace, so that the size is not a sum over the buffers.  It is one
over the traces, and over any traces that include those of the batch, since a trace without spans
counts nothing there; so two batches can be compared trace by trace.

* `traceSize`               what one trace counts in a v1 request;
* `groupsSize_traces`       the sum over any traces that include those of the batch;
* `requestSize_lt`          more bytes of spans in one trace make a greater request;
* `requestSize_append_le`   two batches in one request take no more than in two;
* `size_measures_batches`   all of it, for sizers and for senders.
-/

namespace SpanCourier

theorem total_eq_sum {α : Type} [DecidableEq α] (f : α → Nat) {as : List α} (h : as.Nodup) :
    total f as = ∑ a ∈ as.toFinset, f a := by
  rw [List.sum_toFinset f h]
  clear h
  induction as with
  | nil => rfl
  | cons a as ih => rw [total_cons, ih, List.map_cons, List.sum_cons]

theorem fieldSize_pos (n : Nat) : 0 < fieldSize n := by
  rw [fieldSize]
  omega

theorem fieldSize_add_le (a b : Nat) : fieldSize (a + b) ≤ fieldSize a + fieldSize b := by
  have hadd := varintSize_add_le a b
  rw [fieldSize, fieldSize, fieldSize]
  omega

/-! ## the spans of a batch -/

/-- the bytes of the spans of a batch with their keys, wherever they stand -/
def spansSize (bufs : List Bytes) : Nat := total (fun b => fieldSize (bufferSpan b).length) bufs

theorem spansSize_append (as bs : List Bytes) :
    spansSize (as ++ bs) = spansSize as + spansSize bs := total_append _ as bs

theorem spansSize_singleton (buf : Bytes) :
    spansSize [buf] = fieldSize (bufferSpan buf).length := Nat.add_zero _

theorem traceLength_eq (project : String) (bufs : List Bytes) :
    traceLength project bufs = traceLength project [] + spansSize bufs :=
  traceLength_append project [] bufs

/-! ## one trace of a v1 request -/

section
variable (project : String)

/-- the bytes of a trace in the v1 request for a batch, with its key; a trace without spans is not
there -/
def traceSize (bufs : List Bytes) (id : Bytes) : Nat :=
  if ofTrace id bufs = [] then 0 else fieldSize (traceLength project (ofTrace id bufs))

variable {project} {t : Bytes} {xs ys : List Bytes}

theorem traceSize_of_ofTrace_eq {as bs : List Bytes} {id : Bytes}
    (h : ofTrace id as = ofTrace id bs) : traceSize project as id = traceSize project bs id := by
  rw [traceSize, traceSize, h]

theorem traceSize_perm {as bs : List Bytes} (h : as.Perm bs) (id : Bytes) :
    traceSize project as id = traceSize project bs id := by
  have htrace : (ofTrace id as).Perm (ofTrace id bs) := h.filter _
  have hlength : traceLength project (ofTrace id as) = traceLength project (ofTrace id bs) := by
    rw [traceLength_eq, traceLength_eq project (ofTrace id bs), spansSize, spansSize,
      total_perm _ htrace]
  have hnil : ofTrace id as = [] ↔ ofTrace id bs = [] := by
    rw [← List.length_eq_zero_iff, ← List.length_eq_zero_iff, htrace.length_eq]
  rw [traceSize, traceSize, hlength]
  simp only [hnil]

/-- other traces do not notice what is put into one -/
theorem traceSize_append_of_ne (hxs : ∀ b ∈ xs, bufferTrace b = t) (bufs : List Bytes) {id : Bytes}
    (h : id ≠ t) : traceSize project (xs ++ bufs) id = traceSize project bufs id := by
  refine traceSize_of_ofTrace_eq ?_
  rw [ofTrace_append, ofTrace_eq_nil fun b hb => (hxs b hb).trans_ne h.symm, List.nil_append]

/-- a trace with more bytes of spans is greater -/
theorem traceSize_append_lt (hxs : ∀ b ∈ xs, bufferTrace b = t) (hys : ∀ b ∈ ys, bufferTrace b = t)
    (hlt : spansSize xs < spansSize ys) (bufs : List Bytes) :
    traceSize project (xs ++ bufs) t < traceSize project (ys ++ bufs) t := by
  have hne : ys ++ ofTrace t bufs ≠ [] := by
    intro h0
    rw [(List.append_eq_nil_iff.mp h0).1] at hlt
    exact absurd hlt (Nat.not_lt_zero _)
  rw [traceSize, traceSize, ofTrace_append, ofTrace_eq_self hxs, ofTrace_append, ofTrace_eq_self hys,
    if_neg hne]
  by_cases h0 : xs ++ ofTrace t bufs = []
  · rw [if_pos h0]
    exact fieldSize_pos _
  · rw [if_neg h0, traceLength_eq, traceLength_eq project (ys ++ _), spansSize_append,
      spansSize_append]
    exact fieldSize_lt (by omega)

/-- a trace of two batches is announced once in one request and twice in two -/
theorem traceSize_append_le (as bs : List Bytes) (id : Bytes) :
    traceSize project (as ++ bs) id ≤ traceSize project as id + traceSize project bs id := by
  by_cases ha : ofTrace id as = []
  · have heq : traceSize project (as ++ bs) id = traceSize project bs id :=
      traceSize_of_ofTrace_eq (by rw [ofTrace_append, ha, List.nil_append])
    rw [heq]
    exact Nat.le_add_left _ _
  by_cases hb : ofTrace id bs = []
  · have heq : traceSize project (as ++ bs) id = traceSize project as id :=
      traceSize_of_ofTrace_eq (by rw [ofTrace_append, hb, List.append_nil])
    rw [heq]
    exact Nat.le_add_right _ _
  · have hab : ofTrace id (as ++ bs) ≠ [] := by
      rw [ofTrace_append]
      exact List.append_ne_nil_of_left_ne_nil ha _
    have hlength : traceLength project (ofTrace id (as ++ bs))
        ≤ traceLength project (ofTrace id as) + traceLength project (ofTrace id bs) := by
      rw [ofTrace_append, traceLength_append, traceLength_eq project (ofTrace id bs), spansSize]
      omega
    rw [traceSize, traceSize, traceSize, if_neg ha, if_neg hb, if_neg hab]
    exact (fieldSize_mono hlength).trans (fieldSize_add_le _ _)

/-! ## all traces of a v1 request -/

/-- the header of the traces announces a sum over any traces that include those of the batch -/
theorem groupsSize_traces {bufs : List Bytes} {ids : Finset Bytes}
    (h : ∀ b ∈ bufs, bufferTrace b ∈ ids) :
    groupsSize project ((traceIds bufs).map fun id => ofTrace id bufs)
      = ∑ id ∈ ids, traceSize project bufs id := by
  have hsize : ∀ id ∈ traceIds bufs,
      fieldSize (traceLength project (ofTrace id bufs)) = traceSize project bufs id := by
    intro id hid
    obtain ⟨b, hb, htrace⟩ := mem_traceIds.mp hid
    have hmem : b ∈ ofTrace id bufs := List.mem_filter.mpr ⟨hb, decide_eq_true htrace⟩
    rw [traceSize, if_neg (List.ne_nil_of_mem hmem)]
  have hsubset : (traceIds bufs).toFinset ⊆ ids := by
    intro id hid
    obtain ⟨b, hb, rfl⟩ := mem_traceIds.mp (List.mem_toFinset.mp hid)
    exact h b hb
  have hzero : ∀ id ∈ ids, id ∉ (traceIds bufs).toFinset → traceSize project bufs id = 0 := by
    intro id _ hid
    refine if_pos (ofTrace_eq_nil fun b hb heq => hid ?_)
    exact List.mem_toFinset.mpr (mem_traceIds.mpr ⟨b, hb, heq⟩)
  calc groupsSize project ((traceIds bufs).map fun id => ofTrace id bufs)
      = total (traceSize project bufs) (traceIds bufs) := by
        rw [groupsSize, total_map]
        exact total_congr hsize
    _ = ∑ id ∈ (traceIds bufs).toFinset, traceSize project bufs id :=
        total_eq_sum _ (nodup_traceIds bufs)
    _ = ∑ id ∈ ids, traceSize project bufs id := Finset.sum_subset hsubset hzero

end

/-! ## the size of a request -/

/-- the part of a request that depends on its batch: its traces, or its spans -/
def contentSize (version : ApiVersion) (project : String) (bufs : List Bytes) : Nat :=
  match version with
  | .v1 => groupsSize project ((traceIds bufs).map fun id => ofTrace id bufs)
  | .v2 => spansSize bufs

/-- a request around `n` bytes that depend on its batch -/
def framedSize (version : ApiVersion) (project : String) (n : Nat) : Nat :=
  match version with
  | .v1 => projectFieldSize project + fieldSize n
  | .v2 => nameFieldSize project + n

section
variable (version : ApiVersion) (project : String) {t : Bytes} {xs ys : List Bytes}

theorem requestSize_of_ne_nil {bufs : List Bytes} (hne : bufs ≠ []) :
    requestSize version project bufs
      = framedSize version project (contentSize version project bufs) := by
  cases version with
  | v1 =>
    rw [requestSize_v1_of_ne_nil project hne, tracesOf_collate]
    rfl
  | v2 =>
    rw [requestSize, Sizer.size_of_ne_nil _ hne]
    rfl

theorem framedSize_pos (n : Nat) : 0 < framedSize version project n := by
  cases version with
  | v1 => exact Nat.add_pos_right _ (fieldSize_pos n)
  | v2 => exact Nat.add_pos_left (fieldSize_pos _) n

theorem framedSize_lt {a b : Nat} (h : a < b) :
    framedSize version project a < framedSize version project b := by
  cases version with
  | v1 => exact Nat.add_lt_add_left (fieldSize_lt h) _
  | v2 => exact Nat.add_lt_add_left h _

theorem framedSize_add_le (a b : Nat) :
    framedSize version project (a + b)
      ≤ framedSize version project a + framedSize version project b := by
  have hfield := fieldSize_add_le a b
  cases version with
  | v1 =>
    simp only [framedSize]
    omega
  | v2 =>
    simp only [framedSize]
    omega

theorem contentSize_perm {as bs : List Bytes} (h : as.Perm bs) :
    contentSize version project as = contentSize version project bs := by
  cases version with
  | v1 =>
    have hbs : ∀ b ∈ bs, bufferTrace b ∈ (as.map bufferTrace).toFinset := fun b hb =>
      List.mem_toFinset.mpr (List.mem_map_of_mem (h.mem_iff.mpr hb))
    have has : ∀ b ∈ as, bufferTrace b ∈ (as.map bufferTrace).toFinset := fun b hb =>
      List.mem_toFinset.mpr (List.mem_map_of_mem hb)
    simp only [contentSize, groupsSize_traces has, groupsSize_traces hbs]
    exact Finset.sum_congr rfl fun id _ => traceSize_perm h id
  | v2 => exact total_perm _ h

theorem contentSize_lt (hxs : ∀ b ∈ xs, bufferTrace b = t) (hys : ∀ b ∈ ys, bufferTrace b = t)
    (hlt : spansSize xs < spansSize ys) (bufs : List Bytes) :
    contentSize version project (xs ++ bufs) < contentSize version project (ys ++ bufs) := by
  cases version with
  | v1 =>
    let ids := insert t (bufs.map bufferTrace).toFinset
    have hids : ∀ {zs : List Bytes}, (∀ b ∈ zs, bufferTrace b = t) →
        ∀ b ∈ zs ++ bufs, bufferTrace b ∈ ids := by
      intro zs hzs b hb
      rcases List.mem_append.mp hb with hb | hb
      · exact hzs b hb ▸ Finset.mem_insert_self t _
      · exact Finset.mem_insert_of_mem (List.mem_toFinset.mpr (List.mem_map_of_mem hb))
    have hlt' : traceSize project (xs ++ bufs) t < traceSize project (ys ++ bufs) t :=
      traceSize_append_lt hxs hys hlt bufs
    simp only [contentSize, groupsSize_traces (hids hxs), groupsSize_traces (hids hys)]
    refine Finset.sum_lt_sum (fun id _ => ?_) ⟨t, Finset.mem_insert_self t _, hlt'⟩
    by_cases h : id = t
    · exact h ▸ Nat.le_of_lt hlt'
    · rw [traceSize_append_of_ne hxs bufs h, traceSize_append_of_ne hys bufs h]
  | v2 =>
    simp only [contentSize, spansSize_append]
    exact Nat.add_lt_add_right hlt _

theorem contentSize_append_le (as bs : List Bytes) :
    contentSize version project (as ++ bs)
      ≤ contentSize version project as + contentSize version project bs := by
  cases version with
  | v1 =>
    let ids := ((as ++ bs).map bufferTrace).toFinset
    have hids : ∀ b ∈ as ++ bs, bufferTrace b ∈ ids := fun b hb =>
      List.mem_toFinset.mpr (List.mem_map_of_mem hb)
    simp only [contentSize, groupsSize_traces hids,
      groupsSize_traces fun b hb => hids b (List.mem_append_left bs hb),
      groupsSize_traces fun b hb => hids b (List.mem_append_right as hb), ← Finset.sum_add_distrib]
    exact Finset.sum_le_sum fun id _ => traceSize_append_le as bs id
  | v2 => exact Nat.le_of_eq (spansSize_append as bs)

theorem requestSize_perm {as bs : List Bytes} (h : as.Perm bs) :
    requestSize version project as = requestSize version project bs := by
  by_cases hnil : as = []
  · subst hnil
    rw [h.nil_eq]
  · have hnil' : bs ≠ [] := fun h0 => hnil (h0 ▸ h).eq_nil
    rw [requestSize_of_ne_nil _ _ hnil, requestSize_of_ne_nil _ _ hnil', contentSize_perm _ _ h]

/-- a request is greater when it has more bytes of spans in one trace, and the same spans otherwise -/
theorem requestSize_lt (hxs : ∀ b ∈ xs, bufferTrace b = t) (hys : ∀ b ∈ ys, bufferTrace b = t)
    (hlt : spansSize xs < spansSize ys) (as bs : List Bytes) :
    requestSize version project (as ++ (xs ++ bs))
      < requestSize version project (as ++ (ys ++ bs)) := by
  have hmove : ∀ zs, requestSize version project (as ++ (zs ++ bs))
      = requestSize version project (zs ++ (as ++ bs)) := by
    intro zs
    refine requestSize_perm version project ?_
    rw [← List.append_assoc, ← List.append_assoc]
    exact List.perm_append_comm.append_right bs
  have hne : ys ++ (as ++ bs) ≠ [] := by
    intro h0
    rw [(List.append_eq_nil_iff.mp h0).1] at hlt
    exact absurd hlt (Nat.not_lt_zero _)
  rw [hmove, hmove, requestSize_of_ne_nil _ _ hne]
  by_cases h0 : xs ++ (as ++ bs) = []
  · rw [h0]
    exact framedSize_pos version project _
  · rw [requestSize_of_ne_nil _ _ h0]
    exact framedSize_lt _ _ (contentSize_lt version project hxs hys hlt _)

theorem requestSize_append_le (as bs : List Bytes) :
    requestSize version project (as ++ bs)
      ≤ requestSize version project as + requestSize version project bs := by
  by_cases ha : as = []
  · subst ha
    exact Nat.le_add_left _ _
  by_cases hb : bs = []
  · subst hb
    rw [List.append_nil]
    exact Nat.le_add_right _ _
  rw [requestSize_of_ne_nil _ _ ha, requestSize_of_ne_nil _ _ hb,
    requestSize_of_ne_nil _ _ (List.append_ne_nil_of_left_ne_nil ha bs)]
  have hle := contentSize_append_le version project as bs
  refine Nat.le_trans ?_ (framedSize_add_le version project _ _)
  rcases Nat.eq_or_lt_of_le hle with heq | hlt
  · rw [heq]
  · exact Nat.le_of_lt (framedSize_lt version project hlt)

/-- the sizes of the buffers by themselves bound the size of their batch -/
theorem requestSize_le_total (bufs : List Bytes) :
    requestSize version project bufs
      ≤ total (fun b => requestSizeOfOne version project b.length) bufs := by
  induction bufs with
  | nil => exact Nat.le_refl 0
  | cons b bufs ih =>
    have hsplit := requestSize_append_le version project [b] bufs
    have hone : requestSize version project [b] = requestSizeOfOne version project b.length := rfl
    rw [hone] at hsplit
    rw [total_cons]
    exact hsplit.trans (Nat.add_le_add_left ih _)

end

/-! ## sizers and senders -/

/-- what a size of batches, and of one buffer by its length, has to fulfil so that batches can be put
together by it -/
structure MeasuresBatches (size : List Bytes → Nat) (sizeOfOne : Nat → Nat) : Prop where
  perm : ∀ as bs, as.Perm bs → size as = size bs
  insert_lt : ∀ as buf bs, size (as ++ bs) < size (as ++ buf :: bs)
  /-- a buffer that is long enough to have a trace identifier gets more bytes -/
  extend_lt : ∀ as buf more bs, traceIdLength ≤ buf.length → more ≠ [] →
    size (as ++ buf :: bs) < size (as ++ (buf ++ more) :: bs)
  append_le : ∀ as bs, size (as ++ bs) ≤ size as + size bs
  le_total : ∀ bufs, size bufs ≤ total (fun buf => sizeOfOne buf.length) bufs

theorem measuresBatches_requestSize (version : ApiVersion) (project : String) :
    MeasuresBatches (requestSize version project) (requestSizeOfOne version project) where
  perm _ _ h := requestSize_perm version project h
  insert_lt as buf bs :=
    requestSize_lt version project (List.forall_mem_nil _)
      (List.forall_mem_singleton.mpr (rfl : bufferTrace buf = bufferTrace buf))
      (Nat.add_pos_left (fieldSize_pos _) 0) as bs
  extend_lt as buf more bs hlong hmore := by
    have htrace : bufferTrace (buf ++ more) = bufferTrace buf := List.take_append_of_le_length hlong
    have hspan : (bufferSpan buf).length < (bufferSpan (buf ++ more)).length := by
      rw [bufferSpan, bufferSpan, List.drop_append_of_le_length hlong, List.length_append]
      exact Nat.lt_add_of_pos_right (List.length_pos_iff.mpr hmore)
    have hspans : spansSize [buf] < spansSize [buf ++ more] := by
      rw [spansSize_singleton, spansSize_singleton]
      exact fieldSize_lt hspan
    exact requestSize_lt version project (List.forall_mem_singleton.mpr rfl)
      (List.forall_mem_singleton.mpr htrace) hspans as bs
  append_le := requestSize_append_le version project
  le_total := requestSize_le_total version project

/-- The size that a sizer predicts, whatever it was used for before, and that a sender reports in
every state that it gets into, does not depend on the order of a batch, grows with every buffer and
with the bytes of each, and is no greater for two batches in one than for both apart.  So the sizes
of single buffers bound that of their batch. -/
theorem size_measures_batches :
    (∀ version project earlier,
      let z := (Sizer.ofProject version project).after earlier
      MeasuresBatches (fun bufs => (z.size bufs).1) z.sizeOfOne)
    ∧ ∀ settings actions,
      let y := (System.ofSettings settings).run actions
      MeasuresBatches (fun bufs => (y.measure bufs).1) fun n => (y.measureOne n).1 := by
  refine ⟨fun version project earlier => ?_, fun settings actions => ?_⟩
  · have hz := (Sizer.serves_ofProject version project).after earlier
    have hsize : (fun bufs => (((Sizer.ofProject version project).after earlier).size bufs).1)
        = requestSize version project := funext fun bufs => (hz.size bufs).1
    have hone : ((Sizer.ofProject version project).after earlier).sizeOfOne
        = requestSizeOfOne version project := funext hz.sizeOfOne
    simp only [hsize, hone]
    exact measuresBatches_requestSize version project
  · have hy := (System.sound_ofSettings settings).run actions
    have hsize : (fun bufs => (((System.ofSettings settings).run actions).measure bufs).1)
        = requestSize settings.apiVersion settings.projectId := funext hy.measure_eq
    have hone : (fun n => (((System.ofSettings settings).run actions).measureOne n).1)
        = requestSizeOfOne settings.apiVersion settings.projectId :=
      funext fun n => (Sender.measureOne_eq hy.pooled n).trans (by rw [hy.settings_eq])
    simp only [hsize, hone]
    exact measuresBatches_requestSize settings.apiVersion settings.projectId

end SpanCourier
