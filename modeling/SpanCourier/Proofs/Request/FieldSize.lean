import Mathlib.Algebra.Order.Ring.Nat
import Mathlib.Order.Bounds.Basic
import Mathlib.Order.Monotone.Basic
import SpanCourier.Proofs.Request.Overflow
import SpanCourier.Proofs.Wire.Growth

/-!
# sizes are the lengths of what is written

A varint is written seven bits after seven bits, and measured from the place of its highest bit alone.
The size is the least number of groups that hold the number, and the number of groups written.  A field
is measured from the length of its bytes, which its header announces.

* `isLeast_varintSize`          the least number of groups of seven bits;
* `varintSize_eq_leadingZeros`  the size from the zeros before the highest bit;
* `fieldSize?_eq_ite`           the fields whose size is a word;
* `sizes_are_lengths`           numbers and fields, in messages and in requests.
-/

namespace SpanCourier

/-! ## the groups of a number -/

theorem lt_pow_varintSize (n : Nat) : n < 128 ^ varintSize n := by
  induction n using Nat.strongRecOn with
  | ind n ih =>
    by_cases h : n < 128
    · rw [varintSize_of_lt h, Nat.pow_one]
      exact h
    · have hq : n / 128 < 128 ^ varintSize (n / 128) := ih (n / 128) (by omega)
      rw [varintSize_of_le (by omega), Nat.pow_succ]
      omega

/-- a number that some groups hold takes no more than these -/
theorem varintSize_le_of_lt_pow {n k : Nat} (h : n < 128 ^ (k + 1)) : varintSize n ≤ k + 1 := by
  induction k generalizing n with
  | zero =>
    have hlt : n < 128 := h
    exact Nat.le_of_eq (varintSize_of_lt hlt)
  | succ k ih =>
    have hq : varintSize (n / 128) ≤ k + 1 := by
      apply ih
      rw [Nat.pow_succ] at h
      omega
    exact Nat.le_trans (varintSize_le_succ n) (Nat.succ_le_succ hq)

theorem isLeast_varintSize (n : Nat) : IsLeast {k | 1 ≤ k ∧ n < 128 ^ k} (varintSize n) := by
  constructor
  · exact ⟨varintSize_pos n, lt_pow_varintSize n⟩
  · rintro k ⟨hk, hlt⟩
    obtain ⟨k, rfl⟩ : ∃ j, k = j + 1 := ⟨k - 1, by omega⟩
    exact varintSize_le_of_lt_pow hlt

/-! ## the highest bit -/

/-- how many of the 64 bits of a word are zeros before its highest one -/
def leadingZeros (w : UInt64) : Nat := w.toBitVec.clz.toNat

/-- the zeros before the highest bit and the bits from it on make up the word -/
theorem leadingZeros_add_log2 {w : UInt64} (h : w.toNat ≠ 0) :
    leadingZeros w + w.toNat.log2 = 63 := by
  have hne : w.toBitVec ≠ 0#64 := by
    intro hw
    exact h (congrArg BitVec.toNat hw)
  have hzeros : leadingZeros w < 64 := by
    show w.toBitVec.clz < 64#64
    exact BitVec.clz_lt_iff_ne_zero.mpr hne
  have hlo : 2 ^ (63 - leadingZeros w) ≤ w.toNat :=
    BitVec.two_pow_sub_clz_le_toNat_of_ne_zero (by decide) hne
  have hhi : w.toNat < 2 ^ (64 - leadingZeros w) := BitVec.toNat_lt_two_pow_sub_clz
  have hlog : w.toNat.log2 = 63 - leadingZeros w := by
    rw [Nat.log2_eq_iff h]
    refine ⟨hlo, ?_⟩
    rwa [show 63 - leadingZeros w + 1 = 64 - leadingZeros w by omega]
  omega

theorem varintSize_eq_leadingZeros (v : UInt64) :
    varintSize v.toNat = (64 - leadingZeros (v ||| 1) + 6) / 7 := by
  have hor : (v ||| 1).toNat = v.toNat ||| 1 := UInt64.toNat_or v 1
  have hne : v.toNat ||| 1 ≠ 0 := by
    intro h
    exact absurd (Nat.or_eq_zero_iff.mp h).2 (by decide)
  have hzeros := leadingZeros_add_log2 (w := v ||| 1) (hor ▸ hne)
  rw [hor] at hzeros
  rw [varintSize]
  omega

/-! ## fields -/

theorem length_run_of_ne_nil {tag : Nat} (h : tag < 16) {data : Bytes} (hne : data ≠ []) :
    (run tag data).length = fieldSize data.length := by
  have hempty : ¬ data.isEmpty = true := fun h0 => hne (List.isEmpty_iff.mp h0)
  rw [run, if_neg hempty, length_header_append h]

theorem length_record_bytes {tag : Nat} (h : tag < 16) (data : Bytes) :
    (Wire.Record.write ⟨tag, .bytes data⟩).length = fieldSize data.length := by
  rw [Wire.length_write_bytes h, Wire.runSize, Wire.keySize_of_lt h, fieldSize]

theorem strictMono_fieldSize : StrictMono fieldSize := fun _ _ h => fieldSize_lt h

/-- a size is lost when its header does not fit beside the bytes: at that length it takes eleven -/
theorem fieldSize?_eq_ite (n : Nat) :
    fieldSize? n = if n + 11 < UInt64.size then some (fieldSize n) else none := by
  have hsize : UInt64.size = 2 ^ 64 := rfl
  rw [fieldSize?_eq, word?]
  by_cases h : n + 11 < UInt64.size
  · have hpow : (2 : Nat) ^ 64 ≤ 128 ^ 10 := by decide
    have hle : varintSize n ≤ 10 := varintSize_le_of_lt_pow (by omega)
    have hlt : fieldSize n < UInt64.size := by
      rw [fieldSize]
      omega
    rw [if_pos h, if_pos hlt]
  · have hten : varintSize (2 ^ 63) = 10 := by decide
    have hge : varintSize (2 ^ 63) ≤ varintSize n := varintSize_mono (by omega)
    have hlost : ¬ fieldSize n < UInt64.size := by
      rw [fieldSize]
      omega
    rw [if_neg h, if_neg hlost]

/-- A number of 64 bits is written in as many bytes as are counted from the zeros before its highest
bit: in the fewest groups of seven bits that hold it, of which there are one to ten.  So a run of bytes
under a key below 16 takes exactly the bytes that are counted from its length, in a message and under the
header of a request, and of two runs the longer one takes more.  Only where the field as a whole has no
length of 64 bits, the count has none either. -/
theorem sizes_are_lengths :
    (∀ v : UInt64, (varint v.toNat).length = varintSize v.toNat
      ∧ varintSize v.toNat = (64 - leadingZeros (v ||| 1) + 6) / 7
      ∧ IsLeast {k | 1 ≤ k ∧ v.toNat < 128 ^ k} (varintSize v.toNat)
      ∧ 1 ≤ varintSize v.toNat ∧ varintSize v.toNat ≤ 10)
    ∧ (∀ tag data, tag < 16 →
      (Wire.Record.write ⟨tag, .bytes data⟩).length = fieldSize data.length
      ∧ (header tag data.length ++ data).length = fieldSize data.length
      ∧ (data ≠ [] → (run tag data).length = fieldSize data.length))
    ∧ StrictMono fieldSize
    ∧ ∀ n, fieldSize? n = if n + 11 < UInt64.size then some (fieldSize n) else none := by
  refine ⟨fun v => ?_, fun tag data htag => ?_, strictMono_fieldSize, fieldSize?_eq_ite⟩
  · exact ⟨length_varint _, varintSize_eq_leadingZeros v, isLeast_varintSize _, varintSize_pos _,
      Wire.varintSize_le_ten v⟩
  · exact ⟨length_record_bytes htag data, length_header_append htag data,
      fun hne => length_run_of_ne_nil htag hne⟩

/-- the least number of ten bytes, and a run of bytes with a length of two bytes under the greatest key
of one -/
theorem sizes_are_lengths_of_two :
    (varint 9223372036854775808).length = 10
      ∧ (run 15 (List.replicate 128 0)).length = 131 := by
  obtain ⟨hnumbers, hfields, -, -⟩ := sizes_are_lengths
  have hfield := (hfields 15 (List.replicate 128 0) (by decide)).2.2 (List.cons_ne_nil _ _)
  rw [List.length_replicate] at hfield
  exact ⟨(hnumbers 9223372036854775808).1, hfield⟩

end SpanCourier
