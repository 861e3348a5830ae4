import SpanCourier.Wire.Message

/-!
# how long messages are

The bytes of a varint, of a record and of every field of a message are as many as the sizes that are
counted without writing them.  The tags of the schemas are below 16, so that a key is one byte.

* `length_varint`        the bytes that the encoder writes, against the count of bits;
* `varintSize_mono`      larger numbers take no fewer bytes;
* `length_write_bytes`   a run of bytes under its key;
* `length_..Field`       the fields of messages.
-/

namespace SpanCourier

/-! ## varints -/

theorem log2_or_one {n : Nat} (h : n ≠ 0) : Nat.log2 (n ||| 1) = Nat.log2 n := by
  have hor : n ||| 1 ≠ 0 := fun h0 => h (Nat.or_eq_zero_iff.mp h0).1
  have hlt : n < 2 ^ (n.log2 + 1) := Nat.lt_log2_self
  have h1 : 1 < 2 ^ (n.log2 + 1) := Nat.one_lt_two_pow (Nat.succ_ne_zero _)
  rw [Nat.log2_eq_iff hor]
  exact ⟨Nat.le_trans (Nat.log2_self_le h) Nat.left_le_or, Nat.or_lt_two_pow hlt h1⟩

theorem log2_div_128 {n : Nat} (h : 128 ≤ n) : Nat.log2 n = Nat.log2 (n / 128) + 7 := by
  have hq : n / 128 ≠ 0 := by omega
  have lo : 2 ^ (n / 128).log2 ≤ n / 128 := Nat.log2_self_le hq
  have hi : n / 128 < 2 ^ ((n / 128).log2 + 1) := Nat.lt_log2_self
  rw [Nat.log2_eq_iff (by omega)]
  simp only [Nat.pow_add] at hi ⊢
  omega

theorem varintSize_of_lt {n : Nat} (h : n < 128) : varintSize n = 1 := by
  have hlt : (n ||| 1).log2 < 7 := by
    by_cases h0 : n = 0
    · subst h0; decide
    · rw [log2_or_one h0]
      exact (Nat.log2_lt h0).mpr h
  unfold varintSize
  omega

theorem varintSize_of_le {n : Nat} (h : 128 ≤ n) : varintSize n = varintSize (n / 128) + 1 := by
  unfold varintSize
  rw [log2_or_one (by omega), log2_or_one (by omega), log2_div_128 h]
  omega

/-- the count of bits gives the number of bytes that are written -/
theorem length_varint (n : Nat) : (varint n).length = varintSize n := by
  induction n using Nat.strongRecOn with
  | ind n ih =>
    rw [varint]
    by_cases h : n < 128
    · rw [if_pos h, varintSize_of_lt h]
      rfl
    · rw [if_neg h, List.length_cons, varintSize_of_le (n := n) (by omega),
        ih (n / 128) (by omega)]

theorem varintSize_mono {a b : Nat} (h : a ≤ b) : varintSize a ≤ varintSize b := by
  induction b using Nat.strongRecOn generalizing a with
  | ind b ih =>
    by_cases hb : b < 128
    · have ha : a < 128 := by omega
      exact Nat.le_of_eq ((varintSize_of_lt ha).trans (varintSize_of_lt hb).symm)
    · rw [varintSize_of_le (n := b) (by omega)]
      by_cases ha : a < 128
      · rw [varintSize_of_lt ha]
        exact Nat.le_add_left 1 _
      · rw [varintSize_of_le (by omega)]
        exact Nat.succ_le_succ (ih (b / 128) (by omega) (by omega))

namespace Wire

/-! ## keys and records -/

theorem length_key {tag code : Nat} (ht : tag < 16) (hc : code < 8) :
    (key tag code).length = 1 := by
  rw [key, length_varint]
  exact varintSize_of_lt (by omega)

theorem keySize_of_lt {tag : Nat} (h : tag < 16) : keySize tag = 1 :=
  varintSize_of_lt (by omega)

theorem code_lt (p : Payload) : p.code < 8 := by
  cases p <;> simp [Payload.code]

theorem length_littleEndian (k n : Nat) : (littleEndian k n).length = k := by
  induction k generalizing n with
  | zero => rfl
  | succ k ih => rw [littleEndian, List.length_cons, ih]

theorem length_write_bytes {tag : Nat} (h : tag < 16) (data : Bytes) :
    (Record.write ⟨tag, .bytes data⟩).length = runSize tag data.length := by
  simp only [Record.write, List.length_append, length_key h (code_lt _), length_varint, runSize,
    keySize_of_lt h]
  omega

theorem length_write_varint {tag : Nat} (h : tag < 16) (v : UInt64) :
    (Record.write ⟨tag, .varint v⟩).length = keySize tag + varintSize v.toNat := by
  simp only [Record.write, List.length_append, length_key h (code_lt _), length_varint,
    keySize_of_lt h]

theorem length_write_fixed64 {tag : Nat} (h : tag < 16) (v : UInt64) :
    (Record.write ⟨tag, .fixed64 v⟩).length = keySize tag + 8 := by
  simp only [Record.write, List.length_append, length_key h (code_lt _), length_littleEndian,
    keySize_of_lt h]

theorem writeRecords_nil : writeRecords [] = [] := rfl

theorem writeRecords_cons (r : Record) (rs : List Record) :
    writeRecords (r :: rs) = r.write ++ writeRecords rs := rfl

theorem writeRecords_append (rs ss : List Record) :
    writeRecords (rs ++ ss) = writeRecords rs ++ writeRecords ss := List.flatMap_append

theorem length_writeRecords_append (rs ss : List Record) :
    (writeRecords (rs ++ ss)).length = (writeRecords rs).length + (writeRecords ss).length := by
  rw [writeRecords_append, List.length_append]

theorem writeRecords_singleton (r : Record) : writeRecords [r] = r.write := by
  rw [writeRecords_cons, writeRecords_nil, List.append_nil]

/-! ## the fields of messages -/

theorem length_textField {tag : Nat} (h : tag < 16) (s : String) :
    (writeRecords (textField tag s)).length = textSize tag s := by
  unfold textField textSize
  split
  · rfl
  · rw [writeRecords_singleton, length_write_bytes h, length_utf8]

theorem length_fixed64Field {tag : Nat} (h : tag < 16) (v : UInt64) :
    (writeRecords (fixed64Field tag v)).length = fixed64Size tag v := by
  unfold fixed64Field fixed64Size
  split
  · rfl
  · rw [writeRecords_singleton, length_write_fixed64 h]

theorem length_int32Field {tag : Nat} (h : tag < 16) (v : Int32) :
    (writeRecords (int32Field tag v)).length = int32Size tag v := by
  unfold int32Field int32Size
  split
  · rfl
  · rw [writeRecords_singleton, length_write_varint h]

theorem length_int64Field {tag : Nat} (h : tag < 16) (v : Int64) :
    (writeRecords (int64Field tag v)).length = int64Size tag v := by
  unfold int64Field int64Size
  split
  · rfl
  · rw [writeRecords_singleton, length_write_varint h]

end Wire

end SpanCourier
