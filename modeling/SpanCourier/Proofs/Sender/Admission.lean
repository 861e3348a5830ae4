import SpanCourier.Proofs.Request.Size
import SpanCourier.Sender

/-!
# which batches a sender takes

The first reason against a batch decides: the sender is closed, the batch is empty, a buffer is too
short, the request is too large.  Otherwise the call that is made carries the request that a new
assembler makes of the batch; the assembler that the sender keeps has no bearing on it.

* `Sender.Pooled`          the assembler that is kept is one of the sender's own;
* `Sender.Keeps`           what work on a batch leaves as it was;
* `Sender.startSend_..`    one lemma for each case.
-/

namespace SpanCourier

/-! ## short buffers -/

theorem isShort_iff {buf : Bytes} : isShort buf = true ↔ buf.length < traceIdLength :=
  decide_eq_true_iff

theorem find?_isShort_zipIdx {bufs : List Bytes} {k : Nat} {buf : Bytes} (n : Nat)
    (h : bufs[k]? = some buf) (hshort : buf.length < traceIdLength)
    (hfirst : ∀ j b, j < k → bufs[j]? = some b → traceIdLength ≤ b.length) :
    (bufs.zipIdx n).find? (isShort ·.1) = some (buf, n + k) := by
  induction bufs generalizing k n with
  | nil => cases h
  | cons b bs ih =>
    rw [List.zipIdx_cons]
    cases k with
    | zero =>
      cases h
      exact List.find?_cons_of_pos (isShort_iff.mpr hshort)
    | succ k =>
      have hlong : ¬ isShort b = true := fun hb =>
        Nat.not_le_of_lt (isShort_iff.mp hb) (hfirst 0 b (Nat.zero_lt_succ k) rfl)
      have hrest := ih (n + 1) h fun j c hj hc => hfirst (j + 1) c (Nat.succ_lt_succ hj) hc
      rw [List.find?_cons_of_neg (by exact hlong), hrest, Nat.add_assoc, Nat.add_comm 1]

/-- the first short buffer has only longer ones before it -/
theorem firstShort?_eq_some {bufs : List Bytes} {k : Nat} {buf : Bytes} (h : bufs[k]? = some buf)
    (hshort : buf.length < traceIdLength)
    (hfirst : ∀ j b, j < k → bufs[j]? = some b → traceIdLength ≤ b.length) :
    Sender.firstShort? bufs = some (buf, k) := by
  have hfind := find?_isShort_zipIdx 0 h hshort hfirst
  rwa [Nat.zero_add] at hfind

theorem firstShort?_eq_none {bufs : List Bytes} (h : ∀ b ∈ bufs, traceIdLength ≤ b.length) :
    Sender.firstShort? bufs = none := by
  refine List.find?_eq_none.mpr fun x hx hshort => ?_
  have hmem : x.1 ∈ bufs := List.mem_of_getElem? (List.mem_zipIdx_iff_getElem?.mp hx)
  exact Nat.not_le_of_lt (isShort_iff.mp hshort) (h x.1 hmem)

namespace Sender

variable {s : Sender}

/-- the assembler that is kept, if there is one, was made for the sender -/
def Pooled (s : Sender) : Prop :=
  ∀ a, s.spare = some a → a.Serves s.settings.apiVersion s.settings.projectId

/-- a sender after some work of its tasks: it is set up as before, and closed if it was -/
structure Follows (s s' : Sender) : Prop where
  settings_eq : s'.settings = s.settings
  isClosed_eq : s'.isClosed = s.isClosed
  pooled : s.Pooled → s'.Pooled

/-- a sender after something that bears on no more than the assembler that it keeps -/
structure Keeps (s s' : Sender) : Prop extends s.Follows s' where
  health_eq : s'.health = s.health

theorem Follows.refl (s : Sender) : s.Follows s := ⟨rfl, rfl, fun h => h⟩

theorem Keeps.refl (s : Sender) : s.Keeps s := ⟨Follows.refl s, rfl⟩

theorem Follows.trans {s s' s'' : Sender} (h : s.Follows s') (h' : s'.Follows s'') :
    s.Follows s'' :=
  ⟨h'.settings_eq.trans h.settings_eq, h'.isClosed_eq.trans h.isClosed_eq,
    fun hp => h'.pooled (h.pooled hp)⟩

theorem follows_record (s : Sender) (now : Nat) (outcome : Outcome) :
    s.Follows (s.record now outcome) := ⟨rfl, rfl, fun h => h⟩

theorem follows_replyToSend (s : Sender) (now : Nat) (r : Reply) :
    s.Follows (s.replyToSend now r).2 := by
  unfold replyToSend
  split
  · exact s.follows_record now _
  · split
    · exact Follows.refl s
    · split
      · exact Follows.refl s
      · exact s.follows_record now _

def requestSize (s : Sender) (bufs : List Bytes) : Nat :=
  SpanCourier.requestSize s.settings.apiVersion s.settings.projectId bufs

def request (s : Sender) (bufs : List Bytes) : Request :=
  assemble s.settings.apiVersion s.settings.projectId bufs

theorem Pooled.serves (h : s.Pooled) :
    (s.spare.getD s.newAssembler).Serves s.settings.apiVersion s.settings.projectId := by
  cases hs : s.spare with
  | none => exact Assembler.serves_ofProject _ _
  | some a => exact h a hs

theorem keeps_withAssembler {α : Type} {f : Assembler → α × Assembler} (s : Sender)
    (hf : s.Pooled →
      (f (s.spare.getD s.newAssembler)).2.Serves s.settings.apiVersion s.settings.projectId) :
    s.Keeps (s.withAssembler f).2 := by
  refine ⟨⟨rfl, rfl, fun hp a ha => ?_⟩, rfl⟩
  cases ha
  exact hf hp

theorem measure_eq (h : s.Pooled) (bufs : List Bytes) : (s.measure bufs).1 = s.requestSize bufs :=
  (h.serves.measure bufs).1

theorem measureOne_eq (h : s.Pooled) (n : Nat) :
    (s.measureOne n).1 = requestSizeOfOne s.settings.apiVersion s.settings.projectId n :=
  h.serves.sizer.sizeOfOne n

theorem keeps_measure (s : Sender) (bufs : List Bytes) : s.Keeps (s.measure bufs).2 :=
  s.keeps_withAssembler fun h => (h.serves.measure bufs).2

theorem keeps_measureOne (s : Sender) (n : Nat) : s.Keeps (s.measureOne n).2 :=
  s.keeps_withAssembler fun h => h.serves

/-! ## how a batch sets out -/

theorem startSend_of_isEmpty (h : s.isClosed = false) : s.startSend [] = (.done .ok, s) := by
  rw [startSend, if_neg (ne_true_of_eq_false h)]
  rfl

theorem startSend_of_short {bufs : List Bytes} {k : Nat} {buf : Bytes} (h : s.isClosed = false)
    (hk : bufs[k]? = some buf) (hshort : buf.length < traceIdLength)
    (hfirst : ∀ j b, j < k → bufs[j]? = some b → traceIdLength ≤ b.length) :
    s.startSend bufs = (.done (.failed (.shortBuffer k buf.length)), s) := by
  have hne : ¬ bufs.isEmpty = true := by
    rw [List.isEmpty_iff]
    intro h0
    rw [h0] at hk
    cases hk
  rw [startSend, if_neg (ne_true_of_eq_false h), if_neg hne, firstShort?_eq_some hk hshort hfirst]

theorem startSend_of_long {bufs : List Bytes} (h : s.isClosed = false) (hne : bufs ≠ [])
    (hlong : ∀ b ∈ bufs, traceIdLength ≤ b.length) :
    s.startSend bufs = s.withAssembler fun a =>
      let (size, a) := a.measure bufs
      let max := s.settings.messageMaxBytes.toNat
      if size > max then (.done (.failed (.messageTooLarge size max)), a)
      else
        let (request, a) := a.assemble bufs
        (.call request.call, a) := by
  have hne' : ¬ bufs.isEmpty = true := fun h0 => hne (List.isEmpty_iff.mp h0)
  rw [startSend, if_neg (ne_true_of_eq_false h), if_neg hne', firstShort?_eq_none hlong]

/-- whatever is decided about a batch bears on no more than the assembler -/
theorem keeps_startSend (s : Sender) (bufs : List Bytes) : s.Keeps (s.startSend bufs).2 := by
  unfold startSend
  split
  · exact Keeps.refl s
  · split
    · exact Keeps.refl s
    · split
      · exact Keeps.refl s
      · refine s.keeps_withAssembler fun hp => ?_
        have hmeasured := (hp.serves.measure bufs).2
        dsimp only
        split
        · exact hmeasured
        · exact (hmeasured.assemble bufs).2

theorem startSend_of_tooLarge {bufs : List Bytes} (hp : s.Pooled) (h : s.isClosed = false)
    (hne : bufs ≠ []) (hlong : ∀ b ∈ bufs, traceIdLength ≤ b.length)
    (hlt : s.settings.messageMaxBytes.toNat < s.requestSize bufs) :
    (s.startSend bufs).1 = .done (.failed
      (.messageTooLarge (s.requestSize bufs) s.settings.messageMaxBytes.toNat)) := by
  have hsize : ((s.spare.getD s.newAssembler).measure bufs).1 = s.requestSize bufs :=
    (hp.serves.measure bufs).1
  rw [startSend_of_long h hne hlong]
  simp only [withAssembler, hsize, if_pos hlt]

theorem startSend_of_le {bufs : List Bytes} (hp : s.Pooled) (h : s.isClosed = false)
    (hne : bufs ≠ []) (hlong : ∀ b ∈ bufs, traceIdLength ≤ b.length)
    (hle : s.requestSize bufs ≤ s.settings.messageMaxBytes.toNat) :
    (s.startSend bufs).1 = .call (s.request bufs).call := by
  obtain ⟨hsize, hserves⟩ := hp.serves.measure bufs
  have hsize : ((s.spare.getD s.newAssembler).measure bufs).1 = s.requestSize bufs := hsize
  rw [startSend_of_long h hne hlong]
  simp only [withAssembler, hsize, if_neg (Nat.not_lt_of_le hle), (hserves.assemble bufs).1]
  rfl

end Sender

end SpanCourier
