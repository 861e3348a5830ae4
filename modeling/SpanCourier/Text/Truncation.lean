import SpanCourier.Text.Utf8
import SpanCourier.Total

/-!
# cutting a text to a number of bytes

`truncate max s` is the longest prefix of `s` that has at most `max` UTF-8 bytes and ends between
two characters.

* `size_truncate_le`    it has at most `max` bytes.
-/

namespace SpanCourier

/-- the longest run of leading characters with at most `max` bytes in all -/
def takeFitting : Nat → List Char → List Char
  | _, [] => []
  | max, c :: cs => if c.utf8Size ≤ max then c :: takeFitting (max - c.utf8Size) cs else []

/-- the longest prefix with at most `max` bytes that ends between two characters -/
def truncate (max : Nat) (s : String) : String :=
  if s.utf8ByteSize ≤ max then s else String.ofList (takeFitting max s.toList)

theorem takeFitting_prefix (max : Nat) (cs : List Char) : takeFitting max cs <+: cs := by
  induction cs generalizing max with
  | nil => simp [takeFitting]
  | cons c cs ih =>
    rw [takeFitting]
    split
    · exact (List.cons_prefix_cons).mpr ⟨rfl, ih _⟩
    · exact List.nil_prefix

theorem size_takeFitting_le (max : Nat) (cs : List Char) :
    total Char.utf8Size (takeFitting max cs) ≤ max := by
  induction cs generalizing max with
  | nil => exact Nat.zero_le _
  | cons c cs ih =>
    rw [takeFitting]
    split
    · have := ih (max - c.utf8Size)
      rw [total_cons]
      omega
    · exact Nat.zero_le _

theorem utf8ByteSize_ofList (cs : List Char) :
    (String.ofList cs).utf8ByteSize = total Char.utf8Size cs := by
  rw [← length_utf8, utf8_ofList]
  induction cs with
  | nil => rfl
  | cons c cs ih =>
    rw [List.flatMap_cons, List.length_append, ih, String.length_utf8EncodeChar, total_cons]

theorem size_truncate_le (max : Nat) (s : String) : (truncate max s).utf8ByteSize ≤ max := by
  unfold truncate
  split
  · assumption
  · rw [utf8ByteSize_ofList]
    exact size_takeFitting_le max s.toList

end SpanCourier
