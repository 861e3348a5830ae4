import SpanCourier.Proofs.Request.Size

/-!
# sizes are computed in machine words

A sizer adds up numbers of 64 bits.  Here each of its sums is checked: it is lost when it does not
fit.  The sums only grow, so that none of them is lost unless the size itself does not fit.

* `word?`                 a number, if it fits;
* `word?_bind`            a sum on the way to a greater number need not be checked apart;
* `Sizer.size?_eq`        the size for a batch with all sums checked;
* `size_eq_length_body`   what a sizer predicts.
-/

namespace SpanCourier

/-- a number, if it fits a word of 64 bits -/
def word? (n : Nat) : Option Nat := if n < UInt64.size then some n else none

theorem word?_of_lt {n : Nat} (h : n < UInt64.size) : word? n = some n := if_pos h

/-- what is computed from a word that is no greater than the result is lost with the result only -/
theorem word?_bind {a n : Nat} {f : Nat → Option Nat} (hle : a ≤ n) (hf : f a = word? n) :
    (word? a).bind f = word? n := by
  by_cases h : a < UInt64.size
  · rw [word?_of_lt h]
    exact hf
  · have hn : ¬ n < UInt64.size := fun hn => h (Nat.lt_of_le_of_lt hle hn)
    rw [word?, word?, if_neg h, if_neg hn]
    rfl

/-! ## checked sums -/

def plus? (a b : Nat) : Option Nat := word? (a + b)

def fieldSize? (n : Nat) : Option Nat := do
  let header ← plus? 1 (varintSize n)
  plus? header n

def projectFieldSize? (project : String) : Option Nat :=
  if project = "" then some 0 else fieldSize? project.utf8ByteSize

def nameFieldSize? (project : String) : Option Nat := do
  let name ← plus? "projects/".utf8ByteSize project.utf8ByteSize
  fieldSize? name

namespace TraceTotals

def startTrace? (projectField : Nat) (buf : Bytes) : Option Nat := do
  let ids ← plus? projectField traceIdFieldSize
  let span ← fieldSize? (bufferSpan buf).length
  plus? ids span

def add? (projectField : Nat) (t : TraceTotals) (m : Mark × Placed) : Option TraceTotals :=
  match m.1 with
  | .firstTrace => do
    let current ← startTrace? projectField m.2.buffer
    some { t with current }
  | .nextSpan => do
    let span ← fieldSize? (bufferSpan m.2.buffer).length
    let current ← plus? t.current span
    some { t with current }
  | .nextTrace => do
    let trace ← fieldSize? t.current
    let closed ← plus? t.closed trace
    let current ← startTrace? projectField m.2.buffer
    some ⟨current, closed⟩

def total? (t : TraceTotals) : Option Nat := do
  let trace ← fieldSize? t.current
  plus? t.closed trace

end TraceTotals

namespace Sizer

def ofProject? (version : ApiVersion) (project : String) : Option Sizer := do
  let projectField ← projectFieldSize? project
  let nameField ← nameFieldSize? project
  some { version, projectField, nameField }

def sizeOfOne? (z : Sizer) (n : Nat) : Option Nat :=
  match z.version with
  | .v1 => do
    let ids ← plus? z.projectField traceIdFieldSize
    let span ← fieldSize? (n - traceIdLength)
    let trace ← plus? ids span
    let traces ← fieldSize? trace
    let field ← fieldSize? traces
    plus? z.projectField field
  | .v2 => do
    let span ← fieldSize? (n - traceIdLength)
    plus? z.nameField span

def addSpan? (spans : Nat) (buf : Bytes) : Option Nat := do
  let span ← fieldSize? (bufferSpan buf).length
  plus? spans span

def sizeOfMany? (z : Sizer) (bufs : List Bytes) : Option Nat :=
  match z.version with
  | .v1 => do
    let totals ← (z.collator.pass bufs).1.foldlM (TraceTotals.add? z.projectField) ⟨0, 0⟩
    let traces ← totals.total?
    let field ← fieldSize? traces
    plus? z.projectField field
  | .v2 => do
    let spans ← bufs.foldlM addSpan? 0
    plus? z.nameField spans

def size? (z : Sizer) : List Bytes → Option Nat
  | [] => some 0
  | [buf] => z.sizeOfOne? buf.length
  | bufs => z.sizeOfMany? bufs

end Sizer

/-! ## nothing is lost on the way -/

theorem le_fieldSize (n : Nat) : n ≤ fieldSize n := Nat.le_add_left n _

theorem fieldSize_mono {a b : Nat} (h : a ≤ b) : fieldSize a ≤ fieldSize b := by
  have hv := varintSize_mono h
  rw [fieldSize, fieldSize]
  omega

theorem fieldSize_lt {a b : Nat} (h : a < b) : fieldSize a < fieldSize b := by
  have hmono := varintSize_mono (Nat.le_of_lt h)
  rw [fieldSize, fieldSize]
  omega

theorem fieldSize?_eq (n : Nat) : fieldSize? n = word? (fieldSize n) :=
  word?_bind (Nat.le_add_right _ n) rfl

theorem fieldSize?_bind {a n : Nat} {f : Nat → Option Nat} (hle : fieldSize a ≤ n)
    (hf : f (fieldSize a) = word? n) : (fieldSize? a).bind f = word? n := by
  rw [fieldSize?_eq]
  exact word?_bind hle hf

theorem startTrace?_bind {projectField n : Nat} {buf : Bytes} {f : Nat → Option Nat}
    (hle : TraceTotals.startTrace projectField buf ≤ n)
    (hf : f (TraceTotals.startTrace projectField buf) = word? n) :
    (TraceTotals.startTrace? projectField buf).bind f = word? n := by
  have hstart : TraceTotals.startTrace? projectField buf
      = word? (TraceTotals.startTrace projectField buf) :=
    word?_bind (Nat.le_add_right _ _) (fieldSize?_bind (Nat.le_add_left _ _) rfl)
  rw [hstart]
  exact word?_bind hle hf

theorem total?_bind {t : TraceTotals} {n : Nat} {f : Nat → Option Nat} (hle : t.total ≤ n)
    (hf : f t.total = word? n) : t.total?.bind f = word? n := by
  have htotal : t.total? = word? t.total := fieldSize?_bind (Nat.le_add_left _ _) rfl
  rw [htotal]
  exact word?_bind hle hf

theorem add?_bind {projectField n : Nat} {t : TraceTotals} {m : Mark × Placed}
    {f : TraceTotals → Option Nat} (hle : (t.add projectField m).total ≤ n)
    (hf : f (t.add projectField m) = word? n) : (t.add? projectField m).bind f = word? n := by
  obtain ⟨mark, p⟩ := m
  cases mark with
  | firstTrace =>
    have hstart : TraceTotals.startTrace projectField p.buffer ≤ n :=
      Nat.le_trans (le_fieldSize _) (Nat.le_trans (Nat.le_add_left _ t.closed) hle)
    exact (Option.bind_assoc ..).trans (startTrace?_bind hstart hf)
  | nextSpan =>
    have hopen : t.current + fieldSize (bufferSpan p.buffer).length ≤ n :=
      Nat.le_trans (le_fieldSize _) (Nat.le_trans (Nat.le_add_left _ t.closed) hle)
    have hspan := Nat.le_trans (Nat.le_add_left _ _) hopen
    exact (Option.bind_assoc ..).trans (fieldSize?_bind hspan
      ((Option.bind_assoc ..).trans (word?_bind hopen hf)))
  | nextTrace =>
    have hclosed : t.closed + fieldSize t.current ≤ n := Nat.le_trans (Nat.le_add_right _ _) hle
    have htrace := Nat.le_trans (Nat.le_add_left _ _) hclosed
    have hstart : TraceTotals.startTrace projectField p.buffer ≤ n :=
      Nat.le_trans (le_fieldSize _) (Nat.le_trans (Nat.le_add_left _ _) hle)
    exact (Option.bind_assoc ..).trans (fieldSize?_bind htrace
      ((Option.bind_assoc ..).trans (word?_bind hclosed
        ((Option.bind_assoc ..).trans (startTrace?_bind hstart hf)))))

theorem total_le_foldl_markAfter (projectField : Nat) (id : Bytes) (ps : List Placed)
    (t : TraceTotals) :
    t.total ≤ ((markAfter id ps).foldl (TraceTotals.add projectField) t).total := by
  induction ps generalizing id t with
  | nil => exact Nat.le_refl _
  | cons p ps ih =>
    refine Nat.le_trans ?_ (ih p.trace _)
    by_cases h : p.trace = id
    · rw [if_pos h]
      exact Nat.add_le_add_left (fieldSize_mono (Nat.le_add_right _ _)) _
    · rw [if_neg h]
      exact Nat.le_add_right _ _

theorem foldlM_markAfter_bind {projectField n : Nat} {id : Bytes} {ps : List Placed}
    {t : TraceTotals} {f : TraceTotals → Option Nat}
    (hle : ((markAfter id ps).foldl (TraceTotals.add projectField) t).total ≤ n)
    (hf : f ((markAfter id ps).foldl (TraceTotals.add projectField) t) = word? n) :
    ((markAfter id ps).foldlM (TraceTotals.add? projectField) t).bind f = word? n := by
  induction ps generalizing id t with
  | nil => exact hf
  | cons p ps ih =>
    have hstep := Nat.le_trans (total_le_foldl_markAfter projectField p.trace ps _) hle
    rw [markAfter, List.foldlM_cons]
    exact (Option.bind_assoc ..).trans (add?_bind hstep (ih hle hf))

theorem foldlM_addSpan?_bind {spans n : Nat} {bufs : List Bytes} {f : Nat → Option Nat}
    (hle : spans + total (fun b => fieldSize (bufferSpan b).length) bufs ≤ n)
    (hf : f (spans + total (fun b => fieldSize (bufferSpan b).length) bufs) = word? n) :
    (bufs.foldlM Sizer.addSpan? spans).bind f = word? n := by
  induction bufs generalizing spans with
  | nil => exact hf
  | cons b bs ih =>
    rw [total_cons, ← Nat.add_assoc] at hle hf
    rw [List.foldlM_cons]
    refine (Option.bind_assoc ..).trans ((Option.bind_assoc ..).trans (fieldSize?_bind ?_ ?_))
    · omega
    · refine word?_bind ?_ (ih hle hf)
      omega

namespace Sizer

theorem sizeOfOne?_eq (z : Sizer) (n : Nat) : z.sizeOfOne? n = word? (z.sizeOfOne n) := by
  unfold sizeOfOne? sizeOfOne
  cases z.version with
  | v1 =>
    have hspan := le_fieldSize (z.projectField + traceIdFieldSize + fieldSize (n - traceIdLength))
    have htrace := le_fieldSize
      (fieldSize (z.projectField + traceIdFieldSize + fieldSize (n - traceIdLength)))
    refine word?_bind ?_ (fieldSize?_bind ?_ (word?_bind ?_ (fieldSize?_bind ?_
      (fieldSize?_bind ?_ rfl)))) <;> dsimp only <;> omega
  | v2 => exact fieldSize?_bind (Nat.le_add_left _ _) rfl

theorem sizeOfMany?_eq (z : Sizer) {bufs : List Bytes} (hne : bufs ≠ []) :
    z.sizeOfMany? bufs = word? (z.sizeOfMany bufs).1 := by
  unfold sizeOfMany? sizeOfMany
  cases z.version with
  | v1 =>
    obtain ⟨p, ps, h⟩ := exists_collate_eq hne
    simp only [Collator.pass_fst, h]
    let totals := (markAfter p.trace ps).foldl (TraceTotals.add z.projectField)
      (TraceTotals.add z.projectField ⟨0, 0⟩ (.firstTrace, p))
    have hfield : fieldSize totals.total ≤ z.projectField + fieldSize totals.total :=
      Nat.le_add_left _ _
    have htotal := Nat.le_trans (le_fieldSize totals.total) hfield
    have hfirst := Nat.le_trans (total_le_foldl_markAfter z.projectField p.trace ps _) htotal
    refine (Option.bind_assoc ..).trans (add?_bind hfirst (foldlM_markAfter_bind htotal ?_))
    exact total?_bind htotal (fieldSize?_bind hfield rfl)
  | v2 =>
    have hspans : total (fun b => fieldSize (bufferSpan b).length) bufs
        ≤ z.nameField + total (fun b => fieldSize (bufferSpan b).length) bufs :=
      Nat.le_add_left _ _
    rw [← Nat.zero_add (total _ bufs)] at hspans ⊢
    exact foldlM_addSpan?_bind hspans rfl

/-- a size that fits is found without losing a sum on the way -/
theorem size?_eq (z : Sizer) (bufs : List Bytes) : z.size? bufs = word? (z.size bufs).1 := by
  match bufs with
  | [] => rfl
  | [buf] => exact z.sizeOfOne?_eq buf.length
  | a :: b :: bufs => exact z.sizeOfMany?_eq (List.cons_ne_nil a (b :: bufs))

end Sizer

/-! ## the sizes that a sizer knows from the start -/

theorem varintSize_le (n : Nat) : varintSize n ≤ n + 1 := by
  induction n using Nat.strongRecOn with
  | ind n ih =>
    by_cases h : n < 128
    · rw [varintSize_of_lt h]
      omega
    · have hq := ih (n / 128) (by omega)
      rw [varintSize_of_le (by omega)]
      omega

theorem projectFieldSize?_eq (project : String) :
    projectFieldSize? project = word? (projectFieldSize project) := by
  unfold projectFieldSize? projectFieldSize
  split
  · rfl
  · exact fieldSize?_eq _

theorem nameFieldSize?_eq (project : String) :
    nameFieldSize? project = word? (nameFieldSize project) :=
  word?_bind (le_fieldSize _) (fieldSize?_eq _)

theorem projectFieldSize_le_nameFieldSize (project : String) :
    projectFieldSize project ≤ nameFieldSize project := by
  unfold projectFieldSize nameFieldSize
  split
  · exact Nat.zero_le _
  · exact fieldSize_mono (Nat.le_add_left _ _)

/-- the name of the project takes at most twice the bytes that the project itself takes -/
theorem nameFieldSize_le (project : String) :
    nameFieldSize project ≤ 2 * projectFieldSize project + traceIdFieldSize := by
  have hv := varintSize_le ("projects/".utf8ByteSize + project.utf8ByteSize)
  have hnine : "projects/".utf8ByteSize = 9 := rfl
  unfold nameFieldSize projectFieldSize
  rw [fieldSize, traceIdFieldSize, traceIdLength]
  split
  · next h =>
    subst h
    exact Nat.le_of_ble_eq_true rfl
  · have hp := le_fieldSize project.utf8ByteSize
    omega

theorem startTrace_le_groupsSize (project : String) {bufs : List Bytes} (hne : bufs ≠ []) :
    projectFieldSize project + traceIdFieldSize
      ≤ groupsSize project (TraceGroups.ofMarks (collate bufs)).traces := by
  obtain ⟨p, ps, h⟩ := exists_collate_eq hne
  have hfirst := total_le_foldl_markAfter (projectFieldSize project) p.trace ps
    (TraceTotals.add (projectFieldSize project) ⟨0, 0⟩ (.firstTrace, p))
  rw [← total_collate project hne, h]
  refine Nat.le_trans (Nat.le_trans (Nat.le_trans ?_ (le_fieldSize _)) (Nat.le_add_left _ 0)) hfirst
  exact Nat.le_add_right _ _

theorem nameFieldSize_le_requestSize (version : ApiVersion) (project : String) {bufs : List Bytes}
    (hne : bufs ≠ []) : nameFieldSize project ≤ requestSize version project bufs := by
  cases version with
  | v1 =>
    have hname := nameFieldSize_le project
    have hgroups := startTrace_le_groupsSize project hne
    have hfield := le_fieldSize (groupsSize project (TraceGroups.ofMarks (collate bufs)).traces)
    rw [requestSize_v1_of_ne_nil project hne]
    omega
  | v2 =>
    rw [requestSize, Sizer.size_of_ne_nil _ hne]
    exact Nat.le_add_right _ _

theorem Sizer.ofProject?_of_lt (version : ApiVersion) (project : String) {bufs : List Bytes}
    (hne : bufs ≠ []) (h : requestSize version project bufs < UInt64.size) :
    ofProject? version project = some (ofProject version project) := by
  have hname := nameFieldSize_le_requestSize version project hne
  have hproject := projectFieldSize_le_nameFieldSize project
  rw [ofProject?, projectFieldSize?_eq, nameFieldSize?_eq, word?_of_lt (by omega),
    word?_of_lt (by omega)]
  rfl

/-! ## the size of a request -/

/-- A sizer predicts the request for a batch without writing it, whatever it and the assembler were
used for before.  Where buffers are too short for the identifier of a v1 trace, the size counts the
bytes that are missing, once for each trace.  One buffer by itself has the size that it has as a
batch.  As long as the size fits a word, all sums on the way to it do. -/
theorem size_eq_length_body (version : ApiVersion) (project : String)
    (earlier earlier' : List (List Bytes)) (bufs : List Bytes) :
    let z := (Sizer.ofProject version project).after earlier
    let body := (((Assembler.ofProject version project).after earlier').assemble bufs).1.call.body
    ((version = .v1 → ∀ b ∈ bufs, traceIdLength ≤ b.length) → (z.size bufs).1 = body.length)
    ∧ (version = .v1 → ∀ ids : List Bytes, ids.Nodup →
        (∀ id, id ∈ ids ↔ ∃ b ∈ bufs, bufferTrace b = id) →
        (z.size bufs).1 = body.length + total (fun id => traceIdLength - id.length) ids)
    ∧ (z.size []).1 = 0
    ∧ (∀ buf : Bytes, z.sizeOfOne buf.length = (z.sizeOfMany [buf]).1)
    ∧ ((z.size bufs).1 < UInt64.size → z.size? bufs = some (z.size bufs).1
        ∧ (bufs ≠ [] → Sizer.ofProject? version project = some (Sizer.ofProject version project)))
    ∧ ∀ n, z.sizeOfOne n < UInt64.size → z.sizeOfOne? n = some (z.sizeOfOne n) := by
  intro z body
  have hz : (z.size bufs).1 = requestSize version project bufs :=
    (((Sizer.serves_ofProject version project).after earlier).size bufs).1
  have hbody : body = (assemble version project bufs).call.body :=
    congrArg (·.call.body)
      (((Assembler.serves_ofProject version project).after earlier').assemble bufs).1
  rw [hz, hbody]
  refine ⟨fun hlong => ?_, fun hv ids hnodup hmem => ?_, rfl, z.sizeOfOne_eq, fun hlt => ⟨?_, ?_⟩,
    fun n hlt => ?_⟩
  · cases version with
    | v1 => exact requestSize_eq_length .v1 project (hlong rfl)
    | v2 => exact requestSize_v2 project bufs
  · subst hv
    have hperm : ids.Perm (traceIds bufs) :=
      (List.perm_ext_iff_of_nodup hnodup (nodup_traceIds bufs)).mpr fun id =>
        (hmem id).trans mem_traceIds.symm
    rw [requestSize_v1, ← total_perm _ hperm]
    rfl
  · rw [z.size?_eq, hz, word?_of_lt hlt]
  · exact fun hne => Sizer.ofProject?_of_lt version project hne hlt
  · rw [z.sizeOfOne?_eq, word?_of_lt hlt]

/-- a v1 batch whose buffers are too short, and a v2 batch -/
theorem size_eq_length_body_short :
    (((Sizer.ofProject .v1 "p").after []).size [[1, 2], [3], [1, 2]]).1
        = (((Assembler.ofProject .v1 "p").after []).assemble
            [[1, 2], [3], [1, 2]]).1.call.body.length + 61
      ∧ (((Sizer.ofProject .v2 "p").after []).size [[1, 2], [3], [1, 2]]).1 = 18
      ∧ ((Sizer.ofProject .v2 "p").after []).size? [[1, 2], [3], [1, 2]] = some 18 :=
  ⟨(size_eq_length_body .v1 "p" [] [] [[1, 2], [3], [1, 2]]).2.1 rfl [[1, 2], [3]] (by decide)
      (fun id => by simp [bufferTrace, traceIdLength, eq_comm, or_comm]),
    rfl,
    ((size_eq_length_body .v2 "p" [] [] [[1, 2], [3], [1, 2]]).2.2.2.2.1 (by decide)).1⟩

end SpanCourier
