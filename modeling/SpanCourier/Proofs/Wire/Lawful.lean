import SpanCourier.Dict
import SpanCourier.Proofs.Wire.Reading

/-!
# messages are read back

A message type is lawful when its size is the number of its bytes, when its records have the shape
that readers want, and when merging its records into the blank message gives the message again.  The
records of a message are those of its fields one after the other, so each kind of field has one lemma
that says how its records are merged (`Merges`), and a message puts these together with
`Merges.append`.

* `LawfulMessage`        what a message type has to show;
* `decode_encode`        and what it gets: a message is read back from its bytes.
-/

namespace SpanCourier.Wire

variable {α β : Type}

/-! ## the shape of fields -/

/-- all records of a list have the shape of a schema with these map fields -/
def AllShaped (entry : Nat → Bool) (rs : List Record) : Prop := ∀ r ∈ rs, r.Shaped entry

section
variable {entry : Nat → Bool} {rs ss : List Record} {tag : Nat}

theorem shaped_nil : AllShaped entry [] := fun _ h => nomatch h

theorem shaped_append : AllShaped entry (rs ++ ss) ↔ AllShaped entry rs ∧ AllShaped entry ss :=
  List.forall_mem_append

theorem shaped_singleton {r : Record} (h : r.Shaped entry) : AllShaped entry [r] := fun _ hr =>
  List.mem_singleton.mp hr ▸ h

theorem shaped_bytes (h0 : 0 < tag) (h16 : tag < 16) (data : Bytes) :
    Record.Shaped entry ⟨tag, .bytes data⟩ :=
  ⟨h0, h16, fun h => (nomatch h), fun _ => ⟨data, rfl⟩⟩

theorem shaped_of_not_entry {p : Payload} (h0 : 0 < tag) (h16 : tag < 16)
    (he : entry tag = false) (hp : p ≠ .group) : Record.Shaped entry ⟨tag, p⟩ :=
  ⟨h0, h16, hp, fun h => absurd (he.symm.trans h) Bool.false_ne_true⟩

theorem shaped_textField (h0 : 0 < tag) (h16 : tag < 16) (s : String) :
    AllShaped entry (textField tag s) := by
  unfold textField
  split
  · exact shaped_nil
  · exact shaped_singleton (shaped_bytes h0 h16 _)

theorem shaped_fixed64Field (h0 : 0 < tag) (h16 : tag < 16) (he : entry tag = false)
    (v : UInt64) : AllShaped entry (fixed64Field tag v) := by
  unfold fixed64Field
  split
  · exact shaped_nil
  · exact shaped_singleton (shaped_of_not_entry h0 h16 he fun h => nomatch h)

theorem shaped_int32Field (h0 : 0 < tag) (h16 : tag < 16) (he : entry tag = false)
    (v : Int32) : AllShaped entry (int32Field tag v) := by
  unfold int32Field
  split
  · exact shaped_nil
  · exact shaped_singleton (shaped_of_not_entry h0 h16 he fun h => nomatch h)

theorem shaped_int64Field (h0 : 0 < tag) (h16 : tag < 16) (he : entry tag = false)
    (v : Int64) : AllShaped entry (int64Field tag v) := by
  unfold int64Field
  split
  · exact shaped_nil
  · exact shaped_singleton (shaped_of_not_entry h0 h16 he fun h => nomatch h)

theorem shaped_optionalField [Message β] (h0 : 0 < tag) (h16 : tag < 16) (o : Option β) :
    AllShaped entry (optionalField tag o) := by
  cases o with
  | none => exact shaped_nil
  | some b => exact shaped_singleton (shaped_bytes h0 h16 _)

theorem shaped_repeatedField [Message β] (h0 : 0 < tag) (h16 : tag < 16) (bs : List β) :
    AllShaped entry (repeatedField tag bs) := by
  intro r hr
  obtain ⟨b, _, rfl⟩ := List.mem_map.mp hr
  exact shaped_bytes h0 h16 _

end

/-! ## merging fields -/

/-- merging these records takes the message `a` to `b`, unless they are too long to be read -/
def Merges (f : α → Record → Option α) (a : α) (rs : List Record) (b : α) : Prop :=
  (writeRecords rs).length < UInt64.size → rs.foldlM f a = some b

class LawfulMessage (α : Type) [Message α] where
  /-- how many messages stand inside each other -/
  height : Nat
  size_eq : ∀ m : α, Message.size m = (encode m).length
  shaped : ∀ m : α, AllShaped (Message.entry α) (Message.records m)
  merges : ∀ (m : α) (depth : Nat), height ≤ depth →
    Merges (Message.merge depth) Message.blank (Message.records m) m

open LawfulMessage (height)

theorem mergeBytes_encode [Message α] [LawfulMessage α] (m : α) {depth : Nat}
    (hd : height α ≤ depth) (hl : (encode m).length < UInt64.size) :
    mergeBytes depth (Message.blank : α) (encode m) = some m := by
  have hread := readRecords_writeRecords (LawfulMessage.shaped m) (short_of_length_lt hl) depth
  rw [mergeBytes, encode, hread]
  exact LawfulMessage.merges m depth hd hl

/-- a message that is not too long is read back from its bytes -/
theorem decode_encode [Message α] [LawfulMessage α] (m : α) (hd : height α ≤ depthLimit)
    (hl : (encode m).length < UInt64.size) : decode α (encode m) = some m :=
  mergeBytes_encode m hd hl

section
variable {f : α → Record → Option α} {tag depth : Nat}

theorem Merges.append {a b c : α} {rs ss : List Record} (h : Merges f a rs b)
    (h' : Merges f b ss c) : Merges f a (rs ++ ss) c := by
  intro hl
  rw [length_writeRecords_append] at hl
  rw [List.foldlM_append, h (by omega)]
  exact h' (by omega)

theorem merges_nil (a : α) : Merges f a [] a := fun _ => rfl

theorem merges_textField (set : String → α)
    (h : ∀ p, f (set "") ⟨tag, p⟩ = p.text?.map set) (s : String) :
    Merges f (set "") (textField tag s) (set s) := by
  intro _
  unfold textField
  split
  · next h0 => rw [h0]; rfl
  · rw [List.foldlM_cons, h, Payload.text?, ofUtf8?_utf8]
    rfl

theorem merges_fixed64Field (set : UInt64 → α)
    (h : ∀ p, f (set 0) ⟨tag, p⟩ = p.fixed64?.map set) (v : UInt64) :
    Merges f (set 0) (fixed64Field tag v) (set v) := by
  intro _
  unfold fixed64Field
  split
  · next h0 => rw [h0]; rfl
  · rw [List.foldlM_cons, h]
    rfl

theorem low_ofInt32 (v : Int32) : (ofInt32 v).toUInt32.toInt32 = v := by
  apply Int32.toBitVec_inj.mp
  ext i hi
  simp [ofInt32, BitVec.getLsbD_signExtend, hi, BitVec.getLsbD_eq_getElem]
  omega

theorem int32?_ofInt32 (v : Int32) : (Payload.varint (ofInt32 v)).int32? = some v := by
  rw [Payload.int32?, low_ofInt32]

theorem int64?_ofInt64 (v : Int64) : (Payload.varint (ofInt64 v)).int64? = some v := by
  simp [Payload.int64?, ofInt64]

theorem merges_int32Field (set : Int32 → α)
    (h : ∀ p, f (set 0) ⟨tag, p⟩ = p.int32?.map set) (v : Int32) :
    Merges f (set 0) (int32Field tag v) (set v) := by
  intro _
  unfold int32Field
  split
  · next h0 => rw [h0]; rfl
  · rw [List.foldlM_cons, h, int32?_ofInt32]
    rfl

theorem merges_int64Field (set : Int64 → α)
    (h : ∀ p, f (set 0) ⟨tag, p⟩ = p.int64?.map set) (v : Int64) :
    Merges f (set 0) (int64Field tag v) (set v) := by
  intro _
  unfold int64Field
  split
  · next h0 => rw [h0]; rfl
  · rw [List.foldlM_cons, h, int64?_ofInt64]
    rfl

variable [Message β] [LawfulMessage β]

/-- a message inside another one takes one of the levels that are left -/
theorem message?_encode {b : β} (hd : height β < depth) (hl : (encode b).length < UInt64.size) :
    (Payload.bytes (encode b)).message? depth = some b := by
  have h0 : depth ≠ 0 := by omega
  rw [Payload.message?, Payload.into?, if_neg h0]
  exact mergeBytes_encode b (by omega) hl

omit [LawfulMessage β] in
theorem length_nested_lt {b : β} {rs : List Record}
    (hl : (writeRecords (nested tag b :: rs)).length < UInt64.size) :
    (encode b).length < UInt64.size :=
  short_of_length_lt hl _ List.mem_cons_self _ rfl

theorem merges_optionalField (hd : height β < depth) (set : Option β → α)
    (h : ∀ p, f (set none) ⟨tag, p⟩ = (p.intoOption? depth none).map fun b => set (some b))
    (o : Option β) : Merges f (set none) (optionalField tag o) (set o) := by
  intro hl
  cases o with
  | none => rfl
  | some b =>
    have hread : (Payload.bytes (encode b)).intoOption? depth none = some b :=
      message?_encode hd (length_nested_lt hl)
    rw [optionalField, nested, List.foldlM_cons, h, hread]
    rfl

/-- the messages of a repeated field are taken in one by one, behind those already there -/
theorem merges_repeatedField (hd : height β < depth) (set : List β → α)
    (h : ∀ bs p, f (set bs) ⟨tag, p⟩ = (p.message? depth).map fun b => set (bs ++ [b]))
    (before bs : List β) :
    Merges f (set before) (repeatedField tag bs) (set (before ++ bs)) := by
  induction bs generalizing before with
  | nil =>
    rw [List.append_nil]
    exact merges_nil _
  | cons b bs ih =>
    have head : Merges f (set before) [nested tag b] (set (before ++ [b])) := by
      intro hl
      rw [nested, List.foldlM_cons, h, message?_encode hd (length_nested_lt hl)]
      rfl
    rw [List.append_cons]
    exact head.append (ih (before ++ [b]))

end

/-! ## sizes of fields that hold messages -/

section
variable [Message β] [LawfulMessage β] {tag : Nat}

theorem length_nested (h : tag < 16) (b : β) : (nested tag b).write.length = nestedSize tag b := by
  rw [nested, length_write_bytes h, nestedSize, LawfulMessage.size_eq]

theorem length_optionalField (h : tag < 16) (o : Option β) :
    (writeRecords (optionalField tag o)).length = optionalSize tag o := by
  cases o with
  | none => rfl
  | some b =>
    rw [optionalField, writeRecords_singleton, length_nested h]
    rfl

theorem length_repeatedField (h : tag < 16) (bs : List β) :
    (writeRecords (repeatedField tag bs)).length = repeatedSize tag bs := by
  induction bs with
  | nil => rfl
  | cons b bs ih =>
    rw [repeatedField, List.map_cons, writeRecords_cons, List.length_append, length_nested h]
    rw [repeatedField] at ih
    rw [ih]
    rfl

end

/-! ## maps -/

class LawfulEntryValue (β : Type) [EntryValue β] where
  /-- how many messages stand inside each other in an entry -/
  height : Nat
  size_eq : ∀ v : β, EntryValue.size v = (writeRecords (EntryValue.records v)).length
  shaped : ∀ v : β, AllShaped (fun _ => false) (EntryValue.records v)
  merges : ∀ (k : String) (v : β) (depth : Nat), height ≤ depth →
    Merges (Message.merge depth) (⟨k, EntryValue.blank⟩ : Entry β) (EntryValue.records v) ⟨k, v⟩

instance [EntryValue β] [LawfulEntryValue β] : LawfulMessage (Entry β) where
  height := LawfulEntryValue.height β
  size_eq e := by
    simp only [Message.size, encode, Message.records, length_writeRecords_append,
      length_textField (show 1 < 16 by decide), LawfulEntryValue.size_eq]
  shaped e := shaped_append.mpr
    ⟨shaped_textField (by decide) (by decide) _, LawfulEntryValue.shaped e.value⟩
  merges e depth hd :=
    (merges_textField (fun k => (⟨k, EntryValue.blank⟩ : Entry β)) (fun _ => rfl) e.key).append
      (LawfulEntryValue.merges e.key e.value depth hd)

instance : LawfulEntryValue String where
  height := 0
  size_eq v := (length_textField (by decide) v).symm
  shaped v := shaped_textField (by decide) (by decide) v
  merges k v _ _ := merges_textField (fun v => (⟨k, v⟩ : Entry String)) (fun _ => rfl) v

theorem merges_entries [EntryValue β] [LawfulEntryValue β] {f : α → Record → Option α}
    {tag depth : Nat} (hd : height (Entry β) < depth) (set : Dict β → α)
    (h : ∀ d p, f (set d) ⟨tag, p⟩
      = (p.message? depth : Option (Entry β)).map fun e => set (d.insert e.key e.value))
    (d : Dict β) (es : List (String × β)) :
    Merges f (set d) (repeatedField tag (es.map fun e => (⟨e.1, e.2⟩ : Entry β)))
      (set (d.insertAll es)) := by
  induction es generalizing d with
  | nil => exact merges_nil _
  | cons e es ih =>
    have head : Merges f (set d) [nested tag (⟨e.1, e.2⟩ : Entry β)] (set (d.insert e.1 e.2)) := by
      intro hl
      rw [nested, List.foldlM_cons, h, message?_encode hd (length_nested_lt hl)]
      rfl
    exact head.append (ih (d.insert e.1 e.2))

/-- a dictionary is read back from its entries -/
theorem merges_dict [EntryValue β] [LawfulEntryValue β] {f : α → Record → Option α}
    {tag depth : Nat} (hd : height (Entry β) < depth) (set : Dict β → α)
    (h : ∀ d p, f (set d) ⟨tag, p⟩
      = (p.message? depth : Option (Entry β)).map fun e => set (d.insert e.key e.value))
    (d : Dict β) :
    Merges f (set ∅) (repeatedField tag (d.entries.map fun e => (⟨e.1, e.2⟩ : Entry β)))
      (set d) := by
  have all := merges_entries hd set h ∅ d.entries
  have hd' : (∅ : Dict β).insertAll d.entries = d := Dict.ofEntries_entries d
  rwa [hd'] at all

end SpanCourier.Wire
