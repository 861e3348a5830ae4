import SpanCourier.Total
import SpanCourier.Wire.Record

/-!
# messages and their fields

A message type lists the records of a message (`records`), counts their bytes without writing them
(`size`), and takes records in one by one (`merge`).  Decoding starts from the empty message and
merges its records in order, so that later values replace earlier ones, repeated fields grow, and
messages that come twice are merged.

The fields of the schemas follow one rule: a field that holds its default is not written.
-/

namespace SpanCourier.Wire

/-- how many messages and groups may stand inside each other -/
def depthLimit : Nat := 100

class Message (α : Type) where
  blank : α
  /-- whether a tag is that of a map -/
  entry : Nat → Bool
  records : α → List Record
  size : α → Nat
  merge : Nat → α → Record → Option α

def encode {α : Type} [Message α] (m : α) : Bytes := writeRecords (Message.records m)

def mergeBytes {α : Type} [Message α] (depth : Nat) (m : α) (bs : Bytes) : Option α :=
  match readRecords (Message.entry α) depth bs with
  | some rs => rs.foldlM (Message.merge depth) m
  | none => none

def decode (α : Type) [Message α] (bs : Bytes) : Option α :=
  mergeBytes depthLimit (Message.blank : α) bs

/-! ## the fields of a message as records -/

section
variable {α : Type}

def ofInt64 (v : Int64) : UInt64 := v.toUInt64

/-- a signed number of 32 bits as it stands in a varint: the sign fills the upper half -/
def ofInt32 (v : Int32) : UInt64 := v.toInt64.toUInt64

def textField (tag : Nat) (s : String) : List Record :=
  if s = "" then [] else [⟨tag, .bytes (utf8 s)⟩]

def fixed64Field (tag : Nat) (v : UInt64) : List Record :=
  if v = 0 then [] else [⟨tag, .fixed64 v⟩]

def int32Field (tag : Nat) (v : Int32) : List Record :=
  if v = 0 then [] else [⟨tag, .varint (ofInt32 v)⟩]

def int64Field (tag : Nat) (v : Int64) : List Record :=
  if v = 0 then [] else [⟨tag, .varint (ofInt64 v)⟩]

/-- a field that holds a message, written even when the message is blank -/
def nested [Message α] (tag : Nat) (m : α) : Record := ⟨tag, .bytes (encode m)⟩

def optionalField [Message α] (tag : Nat) : Option α → List Record
  | none => []
  | some m => [nested tag m]

def repeatedField [Message α] (tag : Nat) (ms : List α) : List Record := ms.map (nested tag)

/-! ## the sizes of fields -/

def keySize (tag : Nat) : Nat := varintSize (tag * 8)

def runSize (tag n : Nat) : Nat := keySize tag + varintSize n + n

def textSize (tag : Nat) (s : String) : Nat := if s = "" then 0 else runSize tag s.utf8ByteSize

def fixed64Size (tag : Nat) (v : UInt64) : Nat := if v = 0 then 0 else keySize tag + 8

def int32Size (tag : Nat) (v : Int32) : Nat :=
  if v = 0 then 0 else keySize tag + varintSize (ofInt32 v).toNat

def int64Size (tag : Nat) (v : Int64) : Nat :=
  if v = 0 then 0 else keySize tag + varintSize (ofInt64 v).toNat

def nestedSize [Message α] (tag : Nat) (m : α) : Nat := runSize tag (Message.size m)

def optionalSize [Message α] (tag : Nat) : Option α → Nat
  | none => 0
  | some m => nestedSize tag m

def repeatedSize [Message α] (tag : Nat) (ms : List α) : Nat := total (nestedSize tag) ms

end

/-! ## the payloads that a field takes in -/

namespace Payload

def text? : Payload → Option String
  | .bytes data => ofUtf8? data
  | _ => none

def fixed64? : Payload → Option UInt64
  | .fixed64 v => some v
  | _ => none

def int64? : Payload → Option Int64
  | .varint v => some v.toInt64
  | _ => none

/-- the low half of a varint as a signed number -/
def int32? : Payload → Option Int32
  | .varint v => some v.toUInt32.toInt32
  | _ => none

def bool? : Payload → Option Bool
  | .varint v => some (v ≠ 0)
  | _ => none

/-- the message of the payload merged into `m` -/
def into? {α : Type} [Message α] (depth : Nat) (m : α) : Payload → Option α
  | .bytes data => if depth = 0 then none else mergeBytes (depth - 1) m data
  | _ => none

def intoOption? {α : Type} [Message α] (depth : Nat) (m : Option α) (p : Payload) : Option α :=
  p.into? depth (m.getD Message.blank)

def message? {α : Type} [Message α] (depth : Nat) (p : Payload) : Option α :=
  p.into? depth Message.blank

end Payload

/-! ## the entries of a map -/

structure Entry (β : Type) where
  key : String
  value : β

/-- a map field is a repeated field of entries; a key or value that is the default is left out -/
class EntryValue (β : Type) where
  blank : β
  records : β → List Record
  size : β → Nat
  merge : Nat → β → Payload → Option β

instance {β : Type} [EntryValue β] : Message (Entry β) where
  blank := ⟨"", EntryValue.blank⟩
  entry _ := false
  records e := textField 1 e.key ++ EntryValue.records e.value
  size e := textSize 1 e.key + EntryValue.size e.value
  merge depth e r := match r.tag with
    | 1 => r.payload.text?.map fun k => { e with key := k }
    | 2 => (EntryValue.merge depth e.value r.payload).map fun v => { e with value := v }
    | _ => some e

instance : EntryValue String where
  blank := ""
  records := textField 2
  size := textSize 2
  merge _ _ p := p.text?

end SpanCourier.Wire
