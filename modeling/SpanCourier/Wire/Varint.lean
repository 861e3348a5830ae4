import SpanCourier.Text.Utf8

/-!
# base-128 varints

`varint n` writes `n` in groups of seven bits, the lowest first, and `readVarint` reads at most ten
bytes back, the tenth of which holds one bit.  `varintSize` counts the bytes from the number of
bits alone.

* `readVarint_varint`  what is written below `2 ^ 64` is read back, whatever follows;
* `length_varint_pos`  a varint has at least one byte.
-/

namespace SpanCourier

/-- the bytes of a number, seven bits each, the lowest first -/
def varint (n : Nat) : Bytes :=
  if n < 128 then [UInt8.ofNat n] else UInt8.ofNat (n % 128 + 128) :: varint (n / 128)
termination_by n
decreasing_by omega

/-- reads a number from at most `k` bytes; the last byte allowed may only be 0 or 1 -/
def readVarintIn : Nat → Bytes → Option (Nat × Bytes)
  | 0, _ => none
  | _ + 1, [] => none
  | k + 1, b :: bs =>
    if b < 128 then
      if k = 0 ∧ 1 < b then none else some (b.toNat, bs)
    else match readVarintIn k bs with
      | some (n, rest) => some (b.toNat - 128 + 128 * n, rest)
      | none => none

/-- reads a number below `2 ^ 64` and what follows it -/
def readVarint (bs : Bytes) : Option (Nat × Bytes) := readVarintIn 10 bs

/-- number of bytes of a varint: seven bits go into each, and zero still takes one -/
def varintSize (n : Nat) : Nat := (Nat.log2 (n ||| 1) + 1 + 6) / 7

theorem length_varint_pos (n : Nat) : 0 < (varint n).length := by
  unfold varint
  split <;> simp

theorem readVarintIn_varint (k n : Nat) (rest : Bytes) (h : n < 2 * Nat.pow 128 k) :
    readVarintIn (k + 1) (varint n ++ rest) = some (n, rest) := by
  induction k generalizing n with
  | zero =>
    have h2 : n < 2 := by simpa using h
    rw [varint, if_pos (by omega)]
    have : n = 0 ∨ n = 1 := by omega
    rcases this with rfl | rfl <;> rfl
  | succ k ih =>
    rw [varint]
    by_cases hn : n < 128
    · have hb : (UInt8.ofNat n).toNat = n := by simp; omega
      have hlt : UInt8.ofNat n < 128 := by
        rw [UInt8.lt_iff_toNat_lt, hb]; exact hn
      simp [hn, readVarintIn, hlt]
      omega
    · have hb : (UInt8.ofNat (n % 128 + 128)).toNat = n % 128 + 128 := by simp; omega
      have hge : ¬ UInt8.ofNat (n % 128 + 128) < 128 := by
        rw [UInt8.lt_iff_toNat_lt, hb]; simp
      have hq : n / 128 < 2 * Nat.pow 128 k := by
        rw [Nat.pow_eq, Nat.pow_succ] at h
        rw [Nat.pow_eq]
        omega
      rw [if_neg hn, List.cons_append, readVarintIn, if_neg hge, ih _ hq]
      simp only [hb]
      congr 2
      omega

theorem readVarint_varint (n : Nat) (rest : Bytes) (h : n < UInt64.size) :
    readVarint (varint n ++ rest) = some (n, rest) :=
  readVarintIn_varint 9 n rest (by simpa using h)

end SpanCourier
