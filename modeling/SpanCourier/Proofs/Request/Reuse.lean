import SpanCourier.Request.Assembly

/-!
# sizers and assemblers are used again

A sizer or an assembler goes through one batch after the other.  All that changes in it is its
collators, and a collator lays out its order anew for each batch, so that one that was used answers
as a new one does.

* `Sizer.Serves`, `Assembler.Serves`   made for a version and a project, and perhaps used since;
* `Sizer.Serves.size`                  the answers of a used sizer;
* `Assembler.Serves.assemble`          the requests of a used assembler.
-/

namespace SpanCourier

variable {version : ApiVersion} {project : String}

namespace Sizer

/-- a sizer of a version and a project, with any collator -/
def Serves (version : ApiVersion) (project : String) (z : Sizer) : Prop :=
  z = { ofProject version project with collator := z.collator }

theorem serves_ofProject (version : ApiVersion) (project : String) :
    (ofProject version project).Serves version project := rfl

variable {z : Sizer}

theorem Serves.sizeOfOne (h : z.Serves version project) (n : Nat) :
    z.sizeOfOne n = requestSizeOfOne version project n := by
  rw [h]
  rfl

theorem Serves.sizeOfMany (h : z.Serves version project) (bufs : List Bytes) :
    (z.sizeOfMany bufs).1 = ((ofProject version project).sizeOfMany bufs).1
      ∧ (z.sizeOfMany bufs).2.Serves version project := by
  rw [h]
  cases version with
  | v1 =>
    refine ⟨?_, rfl⟩
    simp only [Sizer.sizeOfMany, ofProject, Collator.pass_fst]
  | v2 => exact ⟨rfl, rfl⟩

theorem Serves.size (h : z.Serves version project) (bufs : List Bytes) :
    (z.size bufs).1 = requestSize version project bufs
      ∧ (z.size bufs).2.Serves version project := by
  match bufs with
  | [] => exact ⟨rfl, h⟩
  | [buf] => exact ⟨h.sizeOfOne buf.length, h⟩
  | a :: b :: bufs => exact h.sizeOfMany (a :: b :: bufs)

theorem Serves.after (h : z.Serves version project) (batches : List (List Bytes)) :
    (z.after batches).Serves version project := by
  induction batches generalizing z with
  | nil => exact h
  | cons bufs batches ih => exact ih (h.size bufs).2

end Sizer

namespace Assembler

/-- an assembler of a version and a project, with any collators -/
structure Serves (version : ApiVersion) (project : String) (a : Assembler) : Prop where
  version_eq : a.version = version
  project_eq : a.project = project
  sizer : a.sizer.Serves version project

theorem serves_ofProject (version : ApiVersion) (project : String) :
    (ofProject version project).Serves version project := ⟨rfl, rfl, rfl⟩

variable {a : Assembler}

theorem Serves.measure (h : a.Serves version project) (bufs : List Bytes) :
    (a.measure bufs).1 = requestSize version project bufs
      ∧ (a.measure bufs).2.Serves version project :=
  ⟨(h.sizer.size bufs).1, h.version_eq, h.project_eq, (h.sizer.size bufs).2⟩

def filled : ApiVersion → String → List Bytes → Request
  | .v1, project, bufs =>
    let groups := (TraceGroups.ofMarks (collate bufs)).traces
    ⟨⟨.v1, patchTracesBody project groups⟩, bufs.length, groups.length⟩
  | .v2, project, bufs => ⟨⟨.v2, batchWriteBody project bufs⟩, bufs.length, countTraces bufs⟩

theorem Serves.assemble_of_ne_nil (h : a.Serves version project) {bufs : List Bytes}
    (hne : bufs ≠ []) :
    (a.assemble bufs).1 = filled version project bufs
      ∧ (a.assemble bufs).2.Serves version project := by
  have hempty : bufs.isEmpty = false := List.isEmpty_eq_false_iff.mpr hne
  obtain ⟨hv, hp, hz⟩ := (h.measure bufs).2
  rw [Assembler.assemble, if_neg (ne_true_of_eq_false hempty)]
  generalize (a.measure bufs).2 = b at hv hp hz
  obtain ⟨v, p, z, c⟩ := b
  obtain rfl : v = version := hv
  obtain rfl : p = project := hp
  cases v with
  | v1 =>
    refine ⟨?_, rfl, rfl, hz⟩
    simp only [Collator.pass_fst]
    rfl
  | v2 => exact ⟨rfl, rfl, rfl, hz⟩

theorem Serves.assemble (h : a.Serves version project) (bufs : List Bytes) :
    (a.assemble bufs).1 = SpanCourier.assemble version project bufs
      ∧ (a.assemble bufs).2.Serves version project := by
  by_cases hne : bufs = []
  · subst hne
    refine ⟨?_, h⟩
    show (⟨⟨a.version, []⟩, 0, 0⟩ : Request) = _
    rw [h.version_eq]
    rfl
  · have hnew := (serves_ofProject version project).assemble_of_ne_nil hne
    have hused := h.assemble_of_ne_nil hne
    exact ⟨hused.1.trans hnew.1.symm, hused.2⟩

theorem Serves.after (h : a.Serves version project) (batches : List (List Bytes)) :
    (a.after batches).Serves version project := by
  induction batches generalizing a with
  | nil => exact h
  | cons bufs batches ih => exact ih (h.assemble bufs).2

end Assembler

theorem assemble_v1 (project : String) {bufs : List Bytes} (hne : bufs ≠ []) :
    assemble .v1 project bufs
      = ⟨⟨.v1, patchTracesBody project (TraceGroups.ofMarks (collate bufs)).traces⟩, bufs.length,
          (TraceGroups.ofMarks (collate bufs)).traces.length⟩ :=
  ((Assembler.serves_ofProject .v1 project).assemble_of_ne_nil hne).1

theorem assemble_v2 (project : String) {bufs : List Bytes} (hne : bufs ≠ []) :
    assemble .v2 project bufs
      = ⟨⟨.v2, batchWriteBody project bufs⟩, bufs.length, countTraces bufs⟩ :=
  ((Assembler.serves_ofProject .v2 project).assemble_of_ne_nil hne).1

theorem version_assemble (version : ApiVersion) (project : String) (bufs : List Bytes) :
    (assemble version project bufs).call.version = version := by
  by_cases hne : bufs = []
  · subst hne
    rfl
  · cases version with
    | v1 => rw [assemble_v1 project hne]
    | v2 => rw [assemble_v2 project hne]

end SpanCourier
