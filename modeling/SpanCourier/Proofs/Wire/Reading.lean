import SpanCourier.Proofs.Wire.Length

/-!
# records are read back

What the writer of records puts out is read back record by record, whatever follows.  A record can be
read when its tag is one of the schemas, it is no group, and its kind is the one that its field has:
the entries of a map are always runs of bytes.  A run must be short enough for its length to be a word.

* `readRecord_write`           one record, with what follows it;
* `readRecords_writeRecords`   all records of a message.
-/

namespace SpanCourier.Wire

/-! ## numbers -/

theorem ofLittleEndian_littleEndian (k n : Nat) :
    ofLittleEndian (littleEndian k n) = n % Nat.pow 256 k := by
  rw [Nat.pow_eq]
  induction k generalizing n with
  | zero => simp [littleEndian, ofLittleEndian, Nat.mod_one]
  | succ k ih =>
    rw [littleEndian, ofLittleEndian, ih, Nat.pow_succ, Nat.mul_comm (256 ^ k), Nat.mod_mul]
    simp

theorem splitBytes?_append (bs rest : Bytes) :
    splitBytes? bs.length (bs ++ rest) = some (bs, rest) := by
  simp [splitBytes?]

theorem readKey_key {tag code : Nat} (h0 : 0 < tag) (h16 : tag < 16) (hc : code < 8)
    (rest : Bytes) : readKey (key tag code ++ rest) = some ((tag, code), rest) := by
  have hk : tag * 8 + code < UInt32.size := by
    have : UInt32.size = 4294967296 := rfl
    omega
  have hw : tag * 8 + code < UInt64.size := Nat.lt_trans hk (by decide)
  have htag : (tag * 8 + code) / 8 = tag := by omega
  have hcode : (tag * 8 + code) % 8 = code := by omega
  have h8 : 8 ≤ tag * 8 + code := by omega
  rw [readKey, key, readVarint_varint _ _ hw]
  simp only [hk, h8, and_self, if_true, htag, hcode]

theorem readRun_append (data rest : Bytes) (h : data.length < UInt64.size) :
    readRun (varint data.length ++ (data ++ rest)) = some (data, rest) := by
  rw [readRun, readVarint_varint _ _ h]
  exact splitBytes?_append data rest

/-! ## one record -/

/-- what a record is in a schema with these map fields -/
structure Record.Shaped (entry : Nat → Bool) (r : Record) : Prop where
  tag_pos : 0 < r.tag
  tag_lt : r.tag < 16
  not_group : r.payload ≠ .group
  run_of_entry : entry r.tag → ∃ data, r.payload = .bytes data

/-- the runs of bytes of a record have lengths that are words -/
def Record.Short (r : Record) : Prop := ∀ data, r.payload = .bytes data → data.length < UInt64.size

theorem Record.Shaped.entry_eq_false {entry : Nat → Bool} {r : Record} (hs : r.Shaped entry)
    (h : ∀ data, r.payload ≠ .bytes data) : entry r.tag = false := by
  cases he : entry r.tag with
  | false => rfl
  | true =>
    obtain ⟨data, hdata⟩ := hs.run_of_entry he
    exact absurd hdata (h data)

theorem readRecord_write {entry : Nat → Bool} {r : Record} (hs : r.Shaped entry) (hr : r.Short)
    (depth : Nat) (rest : Bytes) : readRecord entry depth (r.write ++ rest) = some (r, rest) := by
  obtain ⟨tag, p⟩ := r
  have hkey := readKey_key hs.tag_pos hs.tag_lt (code_lt p)
  cases p with
  | varint v =>
    have hentry : entry tag = false := hs.entry_eq_false fun data h => by cases h
    simp only [readRecord, Record.write, List.append_assoc, hkey]
    simp [hentry, Payload.code, readPayload, readVarint_varint _ rest v.toNat_lt]
  | fixed64 v =>
    have hentry : entry tag = false := hs.entry_eq_false fun data h => by cases h
    have hsplit := splitBytes?_append (littleEndian 8 v.toNat) rest
    rw [length_littleEndian] at hsplit
    have hv : v.toNat % Nat.pow 256 8 = v.toNat := Nat.mod_eq_of_lt v.toNat_lt
    simp only [readRecord, Record.write, List.append_assoc, hkey]
    simp [hentry, Payload.code, readPayload, hsplit, ofLittleEndian_littleEndian, hv]
  | bytes data =>
    have hrun := readRun_append data rest (hr data rfl)
    simp only [readRecord, Record.write, List.append_assoc, hkey]
    by_cases he : entry tag <;> simp [he, Payload.code, readPayload, hrun]
  | fixed32 v =>
    have hentry : entry tag = false := hs.entry_eq_false fun data h => by cases h
    have hsplit := splitBytes?_append (littleEndian 4 v.toNat) rest
    rw [length_littleEndian] at hsplit
    have hv : v.toNat % Nat.pow 256 4 = v.toNat := Nat.mod_eq_of_lt v.toNat_lt
    simp only [readRecord, Record.write, List.append_assoc, hkey]
    simp [hentry, Payload.code, readPayload, hsplit, ofLittleEndian_littleEndian, hv]
  | group => exact absurd rfl hs.not_group

/-! ## all records of a message -/

theorem length_write_pos {r : Record} : 0 < r.write.length := by
  have hkey : 0 < (key r.tag r.payload.code).length := length_varint_pos _
  rw [Record.write, List.length_append]
  omega

theorem readRecordsIn_writeRecords {entry : Nat → Bool} {depth steps : Nat} {rs : List Record}
    (hs : ∀ r ∈ rs, r.Shaped entry) (hr : ∀ r ∈ rs, r.Short)
    (h : (writeRecords rs).length ≤ steps) :
    readRecordsIn entry depth steps (writeRecords rs) = some rs := by
  induction rs generalizing steps with
  | nil =>
    rw [writeRecords_nil]
    cases steps <;> rfl
  | cons r rs ih =>
    rw [writeRecords_cons] at h ⊢
    rw [List.length_append] at h
    have hpos : 0 < r.write.length := length_write_pos
    obtain ⟨k, rfl⟩ : ∃ k, steps = k + 1 := ⟨steps - 1, by omega⟩
    have hread := readRecord_write (hs r List.mem_cons_self) (hr r List.mem_cons_self) depth
      (writeRecords rs)
    have hrest : readRecordsIn entry depth k (writeRecords rs) = some rs :=
      ih (fun r' h' => hs r' (List.mem_cons_of_mem _ h'))
        (fun r' h' => hr r' (List.mem_cons_of_mem _ h')) (by omega)
    obtain ⟨b, bs, hb⟩ := List.exists_cons_of_length_pos (l := r.write ++ writeRecords rs)
      (by rw [List.length_append]; omega)
    rw [hb] at hread ⊢
    simp only [readRecordsIn, hread, hrest, Option.map_some]

theorem readRecords_writeRecords {entry : Nat → Bool} {rs : List Record}
    (hs : ∀ r ∈ rs, r.Shaped entry) (hr : ∀ r ∈ rs, r.Short) (depth : Nat) :
    readRecords entry depth (writeRecords rs) = some rs :=
  readRecordsIn_writeRecords hs hr (Nat.le_refl _)

/-- no run inside a message is longer than the message -/
theorem short_of_length_lt {rs : List Record} (h : (writeRecords rs).length < UInt64.size) :
    ∀ r ∈ rs, r.Short := by
  intro r hr data hdata
  have hle : r.write.length ≤ (writeRecords rs).length := by
    obtain ⟨before, after, rfl⟩ := List.append_of_mem hr
    rw [writeRecords_append, writeRecords_cons, List.length_append, List.length_append]
    omega
  have hdata' : data.length ≤ r.write.length := by
    obtain ⟨tag, p⟩ := r
    cases hdata
    simp only [Record.write, List.length_append]
    omega
  omega

end SpanCourier.Wire
