import SpanCourier.Proofs.Wire.Lawful

/-!
# what was read is not much longer when it is written again

Varints may be padded when they come in, fields may come twice and unknown ones are dropped, so that
the bytes of a message that was read differ from those that it was read from.  They are at most twice
as many.  Records are no longer when they are written again; a message can grow, since a negative
number of 32 bits takes ten bytes while five are enough to read it, and lengths grow with what they
count.

* `length_writeRecords_le`   the records of a run of bytes, written again;
* `GrowingMessage`           what a message type has to show: a record adds at most twice its bytes;
* `size_decode_le`           and what it gets.
-/

namespace SpanCourier

/-! ## varints -/

theorem varintSize_pos (n : Nat) : 0 < varintSize n := by
  rw [← length_varint]
  exact length_varint_pos n

theorem varintSize_le_succ (n : Nat) : varintSize n ≤ varintSize (n / 128) + 1 := by
  by_cases h : n < 128
  · rw [varintSize_of_lt h]
    exact Nat.le_add_left 1 _
  · exact Nat.le_of_eq (varintSize_of_le (by omega))

theorem varintSize_double (n : Nat) : varintSize (n + n) ≤ varintSize n + 1 := by
  have h := varintSize_le_succ (n + n)
  have hmono : varintSize ((n + n) / 128) ≤ varintSize n := varintSize_mono (by omega)
  omega

theorem varintSize_add_le (a b : Nat) : varintSize (a + b) ≤ varintSize a + varintSize b := by
  have ha := varintSize_pos a
  have hb := varintSize_pos b
  rcases Nat.le_total a b with h | h
  · have hmono : varintSize (a + b) ≤ varintSize (b + b) := varintSize_mono (by omega)
    have hdouble := varintSize_double b
    omega
  · have hmono : varintSize (a + b) ≤ varintSize (a + a) := varintSize_mono (by omega)
    have hdouble := varintSize_double a
    omega

theorem readVarintIn_size {k n : Nat} {bs rest : Bytes} (h : readVarintIn k bs = some (n, rest)) :
    varintSize n + rest.length ≤ bs.length := by
  induction k generalizing bs n with
  | zero => cases h
  | succ k ih =>
    cases bs with
    | nil => cases h
    | cons b bs =>
      rw [readVarintIn] at h
      split at h
      · rename_i hb
        split at h
        · cases h
        · cases h
          have hone : varintSize b.toNat = 1 := varintSize_of_lt (UInt8.lt_iff_toNat_lt.mp hb)
          rw [hone, List.length_cons]
          omega
      · split at h
        · rename_i n' rest' hread
          cases h
          have hrest := ih hread
          have hb : b.toNat < 256 := b.toNat_lt
          have hq : (b.toNat - 128 + 128 * n') / 128 = n' := by omega
          have hsize := varintSize_le_succ (b.toNat - 128 + 128 * n')
          rw [hq] at hsize
          rw [List.length_cons]
          omega
        · cases h

/-- the bytes of a varint are at least as many as those that its number needs -/
theorem readVarint_size {n : Nat} {bs rest : Bytes} (h : readVarint bs = some (n, rest)) :
    varintSize n + rest.length ≤ bs.length := readVarintIn_size h

namespace Wire

/-! ## records -/

theorem length_key_eq (tag : Nat) {code code' : Nat} (h : code < 8) (h' : code' < 8) :
    (key tag code).length = (key tag code').length := by
  rw [key, key, length_varint, length_varint]
  by_cases ht : tag < 16
  · rw [varintSize_of_lt (by omega), varintSize_of_lt (by omega)]
  · have hq : (tag * 8 + code) / 128 = (tag * 8 + code') / 128 := by omega
    rw [varintSize_of_le (by omega), varintSize_of_le (n := tag * 8 + code') (by omega), hq]

theorem length_key_le_write (tag : Nat) {code : Nat} (h : code < 8) (p : Payload) :
    (key tag code).length ≤ (Record.write ⟨tag, p⟩).length := by
  rw [length_key_eq tag h (code_lt p), Record.write, List.length_append]
  exact Nat.le_add_right _ _

theorem readKey_size {tag code : Nat} {bs rest : Bytes}
    (h : readKey bs = some ((tag, code), rest)) :
    (key tag code).length + rest.length ≤ bs.length ∧ code < 8 := by
  unfold readKey at h
  split at h
  · rename_i k rest' hread
    split at h
    · cases h
      have hk : k / 8 * 8 + k % 8 = k := by omega
      rw [key, length_varint, hk]
      exact ⟨readVarint_size hread, by omega⟩
    · cases h
  · cases h

theorem splitBytes?_size {n : Nat} {bs data rest : Bytes}
    (h : splitBytes? n bs = some (data, rest)) :
    data.length = n ∧ n + rest.length = bs.length := by
  rw [splitBytes?] at h
  split at h
  · rename_i hlen
    cases h
    refine ⟨hlen, ?_⟩
    rw [List.length_take] at hlen
    rw [List.length_drop]
    omega
  · cases h

theorem readRun_size {bs data rest : Bytes} (h : readRun bs = some (data, rest)) :
    (varint data.length ++ data).length + rest.length ≤ bs.length := by
  unfold readRun at h
  split at h
  · rename_i n rest' hread
    obtain ⟨hlen, hsplit⟩ := splitBytes?_size h
    have hsize := readVarint_size hread
    rw [List.length_append, length_varint, hlen]
    omega
  · cases h

/-- a payload, written again under any tag, takes no more bytes than it was read from -/
theorem readPayload_size {code : Nat} {bs rest : Bytes} {p : Payload}
    (h : readPayload code bs = some (p, rest)) (tag : Nat) :
    (Record.write ⟨tag, p⟩).length + rest.length ≤ (key tag code).length + bs.length := by
  unfold readPayload at h
  split at h
  · obtain ⟨⟨v, rest'⟩, hread, heq⟩ := Option.map_eq_some_iff.mp h
    cases heq
    have hsize := readVarint_size hread
    have hmono : varintSize (UInt64.ofNat v).toNat ≤ varintSize v :=
      varintSize_mono (by rw [UInt64.toNat_ofNat']; exact Nat.mod_le _ _)
    simp only [Record.write, Payload.code, List.length_append, length_varint]
    omega
  · obtain ⟨⟨data, rest'⟩, hread, heq⟩ := Option.map_eq_some_iff.mp h
    cases heq
    have hsize := (splitBytes?_size hread).2
    simp only [Record.write, Payload.code, List.length_append, length_littleEndian]
    omega
  · obtain ⟨⟨data, rest'⟩, hread, heq⟩ := Option.map_eq_some_iff.mp h
    cases heq
    have hsize := readRun_size hread
    simp only [Record.write, Payload.code, List.length_append] at hsize ⊢
    omega
  · obtain ⟨⟨data, rest'⟩, hread, heq⟩ := Option.map_eq_some_iff.mp h
    cases heq
    have hsize := (splitBytes?_size hread).2
    simp only [Record.write, Payload.code, List.length_append, length_littleEndian]
    omega
  · cases h

/-- every open group still has its end key to come -/
theorem skipGroups_size {depth steps : Nat} {groups : List Nat} {bs rest : Bytes}
    (h : skipGroups depth steps groups bs = some rest) :
    total (fun tag => (key tag endGroupCode).length) groups + rest.length ≤ bs.length := by
  induction steps generalizing groups bs with
  | zero =>
    cases groups with
    | nil =>
      cases h
      rw [total_nil]
      omega
    | cons tag groups => cases h
  | succ steps ih =>
    cases groups with
    | nil =>
      cases h
      rw [total_nil]
      omega
    | cons tag groups =>
      unfold skipGroups at h
      split at h
      · cases h
      · rename_i tag' code rest' hkey
        obtain ⟨hsize, hcode8⟩ := readKey_size hkey
        split at h
        · rename_i hcode
          split at h
          · rename_i htag
            subst hcode htag
            have hrest := ih h
            rw [total_cons]
            omega
          · cases h
        · split at h
          · cases h
          · split at h
            · have hrest := ih h
              rw [total_cons] at hrest
              omega
            · split at h
              · rename_i p rest'' hpayload
                have hrest := ih h
                have hp := readPayload_size hpayload tag'
                have hwrite := length_key_le_write tag' hcode8 p
                omega
              · cases h

theorem readRecord_size {entry : Nat → Bool} {depth : Nat} {bs rest : Bytes} {r : Record}
    (h : readRecord entry depth bs = some (r, rest)) :
    r.write.length + rest.length ≤ bs.length := by
  unfold readRecord at h
  split at h
  · cases h
  · rename_i tag code rest' hkey
    obtain ⟨hsize, hcode8⟩ := readKey_size hkey
    split at h
    · obtain ⟨⟨data, rest''⟩, hrun, heq⟩ := Option.map_eq_some_iff.mp h
      cases heq
      have hrest := readRun_size hrun
      have hkeys := length_key_eq tag hcode8 (code_lt (.bytes data))
      rw [List.length_append] at hrest
      simp only [Record.write, List.length_append]
      omega
    · split at h
      · rename_i hcode
        split at h
        · cases h
        · obtain ⟨rest'', hskip, heq⟩ := Option.map_eq_some_iff.mp h
          cases heq
          have hrest := skipGroups_size hskip
          rw [total_cons, total_nil] at hrest
          have hkeys := length_key_eq tag hcode8 (code_lt .group)
          simp only [Record.write, List.length_append]
          omega
      · obtain ⟨⟨p, rest''⟩, hpayload, heq⟩ := Option.map_eq_some_iff.mp h
        cases heq
        have hrest := readPayload_size hpayload tag
        omega

theorem readRecordsIn_size {entry : Nat → Bool} {depth steps : Nat} {bs : Bytes} {rs : List Record}
    (h : readRecordsIn entry depth steps bs = some rs) : (writeRecords rs).length ≤ bs.length := by
  induction steps generalizing bs rs with
  | zero =>
    cases bs with
    | nil =>
      cases h
      exact Nat.le_refl _
    | cons b bs => cases h
  | succ steps ih =>
    cases bs with
    | nil =>
      cases h
      exact Nat.le_refl _
    | cons b bs =>
      unfold readRecordsIn at h
      split at h
      · cases h
      · rename_i r rest hread
        obtain ⟨rs', hrest, rfl⟩ := Option.map_eq_some_iff.mp h
        have hr := readRecord_size hread
        have hrs := ih hrest
        rw [writeRecords_cons, List.length_append]
        omega

/-- records take no more bytes when they are written again -/
theorem length_writeRecords_le {entry : Nat → Bool} {depth : Nat} {bs : Bytes} {rs : List Record}
    (h : readRecords entry depth bs = some rs) : (writeRecords rs).length ≤ bs.length :=
  readRecordsIn_size h

/-! ## messages -/

class GrowingMessage (α : Type) [Message α] : Prop where
  size_blank : Message.size (Message.blank : α) = 0
  size_merge : ∀ {depth : Nat} {m m' : α} {r : Record}, Message.merge depth m r = some m' →
    Message.size m' ≤ Message.size m + 2 * r.write.length

section
variable {α β : Type} [Message α] [GrowingMessage α] {depth tag : Nat} {m m' : α} {p : Payload}
  {bs : Bytes}

theorem foldlM_merge_size {rs : List Record} (h : rs.foldlM (Message.merge depth) m = some m') :
    Message.size m' ≤ Message.size m + 2 * (writeRecords rs).length := by
  induction rs generalizing m with
  | nil =>
    cases h
    exact Nat.le_add_right _ _
  | cons r rs ih =>
    rw [List.foldlM_cons] at h
    obtain ⟨m₁, hr, hrs⟩ := Option.bind_eq_some_iff.mp h
    have h₁ := GrowingMessage.size_merge hr
    have h₂ := ih hrs
    rw [writeRecords_cons, List.length_append]
    omega

theorem mergeBytes_size (h : mergeBytes depth m bs = some m') :
    Message.size m' ≤ Message.size m + 2 * bs.length := by
  unfold mergeBytes at h
  split at h
  · rename_i rs hread
    have hrecords := length_writeRecords_le hread
    have hmerge := foldlM_merge_size h
    omega
  · cases h

/-- a message that was read has at most twice as many bytes as it was read from -/
theorem size_decode_le (h : decode α bs = some m) : Message.size m ≤ 2 * bs.length := by
  have hsize := mergeBytes_size h
  rwa [GrowingMessage.size_blank, Nat.zero_add] at hsize

/-! ## fields -/

omit [GrowingMessage α] in
/-- what a field of a message gained is what the message gained -/
theorem size_le_of_set {x : Option β} {set : β → α} {new : β → Nat} {old bound : Nat}
    (h : x.map set = some m') (hx : ∀ v, x = some v → new v ≤ old + bound)
    (hset : ∀ v, Message.size (set v) + old ≤ Message.size m + new v) :
    Message.size m' ≤ Message.size m + bound := by
  obtain ⟨v, hv, rfl⟩ := Option.map_eq_some_iff.mp h
  have hnew := hx v hv
  have hsize := hset v
  omega

theorem textSize_le {s : String} (ht : tag < 16) (h : p.text? = some s) (before : String) :
    textSize tag s ≤ textSize tag before + 2 * (Record.write ⟨tag, p⟩).length := by
  cases p with
  | bytes data =>
    have hs : (utf8 s).length = data.length := congrArg List.length (utf8_of_ofUtf8? h)
    rw [length_utf8] at hs
    rw [length_write_bytes ht, textSize, hs]
    split <;> omega
  | varint v | fixed64 v | fixed32 v | group => cases h

theorem fixed64Size_le {v : UInt64} (ht : tag < 16) (h : p.fixed64? = some v) (before : UInt64) :
    fixed64Size tag v ≤ fixed64Size tag before + 2 * (Record.write ⟨tag, p⟩).length := by
  cases p with
  | fixed64 w =>
    rw [length_write_fixed64 ht, fixed64Size]
    split <;> omega
  | varint w | bytes data | fixed32 w | group => cases h

theorem varintSize_int64_le {v : Int64} (ht : tag < 16) (h : p.int64? = some v) :
    keySize tag + varintSize (ofInt64 v).toNat ≤ (Record.write ⟨tag, p⟩).length := by
  cases p with
  | varint w =>
    cases h
    refine Nat.le_of_eq ?_
    rw [length_write_varint ht, ofInt64, UInt64.toUInt64_toInt64]
  | fixed64 w | bytes data | fixed32 w | group => cases h

theorem int64Size_le {v : Int64} (ht : tag < 16) (h : p.int64? = some v) (before : Int64) :
    int64Size tag v ≤ int64Size tag before + 2 * (Record.write ⟨tag, p⟩).length := by
  have hsize := varintSize_int64_le ht h
  rw [int64Size]
  split <;> omega

/-- the low half of a number is no greater, save where it counts as negative -/
theorem toNat_ofInt32_le (w : UInt64) :
    (ofInt32 w.toUInt32.toInt32).toNat ≤ w.toNat ∨ 2147483648 ≤ w.toNat := by
  rcases Nat.lt_or_ge w.toNat 2147483648 with h | h
  · have hlow : w.toUInt32.toInt32.toBitVec.toNat = w.toNat := by
      show w.toUInt32.toNat = w.toNat
      rw [UInt64.toNat_toUInt32]
      omega
    have hmsb : w.toUInt32.toInt32.toBitVec.msb = false := by
      rw [BitVec.msb_eq_false_iff_two_mul_lt, hlow]
      omega
    left
    show (w.toUInt32.toInt32.toBitVec.signExtend 64).toNat ≤ w.toNat
    rw [BitVec.toNat_signExtend, hmsb, BitVec.toNat_setWidth, hlow, if_neg Bool.false_ne_true]
    exact Nat.mod_le _ _
  · exact Or.inr h

theorem varintSize_le_ten (w : UInt64) : varintSize w.toNat ≤ 10 := by
  have hmono : varintSize w.toNat ≤ varintSize (UInt64.size - 1) :=
    varintSize_mono (Nat.le_sub_one_of_lt w.toNat_lt)
  exact Nat.le_trans hmono (by decide)

/-- a negative number takes ten bytes, and at least five to be read -/
theorem int32Size_le {v : Int32} (ht : tag < 16) (h : p.int32? = some v) (before : Int32) :
    int32Size tag v ≤ int32Size tag before + 2 * (Record.write ⟨tag, p⟩).length := by
  cases p with
  | varint w =>
    cases h
    rw [length_write_varint ht, int32Size, keySize_of_lt ht]
    split
    · exact Nat.zero_le _
    · rcases toNat_ofInt32_le w with hle | hge
      · have hmono := varintSize_mono hle
        omega
      · have hten := varintSize_le_ten (ofInt32 w.toUInt32.toInt32)
        have hfive : varintSize 2147483648 ≤ varintSize w.toNat := varintSize_mono hge
        have : varintSize 2147483648 = 5 := by decide
        omega
  | fixed64 w | bytes data | fixed32 w | group => cases h

/-- a message merged into another one under a key -/
theorem nestedSize_le (ht : tag < 16) (h : p.into? depth m = some m') :
    nestedSize tag m' ≤ (if Message.size m = 0 then 0 else nestedSize tag m)
      + 2 * (Record.write ⟨tag, p⟩).length := by
  cases p with
  | bytes data =>
    rw [Payload.into?] at h
    split at h
    · cases h
    · have hsize := mergeBytes_size h
      have hmono := varintSize_mono hsize
      have hadd := varintSize_add_le (Message.size m) (2 * data.length)
      have hdouble := varintSize_double data.length
      have hpos := varintSize_pos data.length
      rw [← Nat.two_mul] at hdouble
      rw [length_write_bytes ht, nestedSize, nestedSize, runSize, runSize, runSize, keySize_of_lt ht]
      split
      · rename_i hzero
        rw [hzero, Nat.zero_add] at hmono hsize
        omega
      · omega
  | varint v | fixed64 v | fixed32 v | group => cases h

/-- a field that takes in a message, on top of the one that it may hold already -/
theorem optionalSize_le {o : Option α} (ht : tag < 16) (h : p.intoOption? depth o = some m') :
    optionalSize tag (some m') ≤ optionalSize tag o + 2 * (Record.write ⟨tag, p⟩).length := by
  have hsize := nestedSize_le ht h
  cases o with
  | none =>
    rw [Option.getD_none, if_pos GrowingMessage.size_blank] at hsize
    exact hsize
  | some m =>
    rw [Option.getD_some] at hsize
    refine Nat.le_trans hsize (Nat.add_le_add_right ?_ _)
    rw [optionalSize]
    split <;> omega

theorem nestedSize_message_le (ht : tag < 16) (h : p.message? depth = some m') :
    nestedSize tag m' ≤ 2 * (Record.write ⟨tag, p⟩).length := by
  have hsize := nestedSize_le ht h
  rwa [if_pos GrowingMessage.size_blank, Nat.zero_add] at hsize

theorem repeatedSize_append_le (ht : tag < 16) (h : p.message? depth = some m') (ms : List α) :
    repeatedSize tag (ms ++ [m']) ≤ repeatedSize tag ms + 2 * (Record.write ⟨tag, p⟩).length := by
  have hsize := nestedSize_message_le ht h
  rw [repeatedSize, total_append, total_cons, total_nil, repeatedSize]
  omega

end

/-! ## maps -/

theorem total_put_le {β : Type} (f : String × β → Nat) (k : String) (v : β)
    (es : List (String × β)) : total f (Dict.put k v es) ≤ total f es + f (k, v) := by
  induction es with
  | nil =>
    rw [Dict.put, total_cons]
    exact Nat.le_of_eq (Nat.add_comm _ _)
  | cons e es ih =>
    obtain ⟨k', v'⟩ := e
    rw [Dict.put]
    split
    · rw [total_cons, total_cons]
      omega
    · split
      · rw [total_cons, total_cons]
        omega
      · rw [total_cons, total_cons]
        omega

class GrowingEntryValue (β : Type) [EntryValue β] : Prop where
  size_blank : EntryValue.size (EntryValue.blank : β) = 0
  size_merge : ∀ {depth : Nat} {v v' : β} {p : Payload}, EntryValue.merge depth v p = some v' →
    EntryValue.size v' ≤ EntryValue.size v + 2 * (Record.write ⟨2, p⟩).length

section
variable {β : Type} [EntryValue β] [GrowingEntryValue β]

instance : GrowingMessage (Entry β) where
  size_blank := by
    simp only [Message.size, Message.blank, GrowingEntryValue.size_blank]
    rfl
  size_merge {depth e e' r} h := by
    obtain ⟨tag, p⟩ := r
    simp only [Message.merge] at h
    split at h
    · exact size_le_of_set h (fun k hk => textSize_le (by decide) hk e.key) fun k => by
        simp only [Message.size]; omega
    · exact size_le_of_set h (fun v hv => GrowingEntryValue.size_merge hv) fun v => by
        simp only [Message.size]; omega
    · cases h
      exact Nat.le_add_right _ _

/-- an entry that comes in takes the place of one with its key -/
theorem repeatedSize_insert_le {depth tag : Nat} {p : Payload} {e : Entry β} (ht : tag < 16)
    (h : p.message? depth = some e) (d : Dict β) :
    repeatedSize tag ((d.insert e.key e.value).entries.map fun (k, v) => (⟨k, v⟩ : Entry β))
      ≤ repeatedSize tag (d.entries.map fun (k, v) => (⟨k, v⟩ : Entry β))
        + 2 * (Record.write ⟨tag, p⟩).length := by
  have hsize := nestedSize_message_le ht h
  rw [repeatedSize, repeatedSize, total_map, total_map]
  exact Nat.le_trans (total_put_le _ e.key e.value d.entries) (Nat.add_le_add_left hsize _)

end

instance : GrowingEntryValue String where
  size_blank := rfl
  size_merge h := textSize_le (by decide) h _

end Wire

end SpanCourier
