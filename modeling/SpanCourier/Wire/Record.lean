import SpanCourier.Wire.Varint

/-!
# the records of a message

A protobuf message is a run of records: a tag with a payload.  The payload is a varint, eight or
four bytes, a run of bytes with its length, or a group, which is a run of records between two keys.
`Record.write` gives the bytes of a record and `readRecords` the records of a run of bytes.

Two things are left to the message that is read: `entry tag` says that the field is a map, whose
entries are read as a run of bytes with its length whatever the key announces, and `depth` bounds how
many groups may stand inside each other.

* `Record.write`   the bytes of a record;
* `readRecords`    the records of a run of bytes.
-/

namespace SpanCourier.Wire

inductive Payload where
  | varint (value : UInt64)
  | fixed64 (value : UInt64)
  | bytes (data : Bytes)
  | fixed32 (value : UInt32)
  /-- a group, whose content is skipped -/
  | group
  deriving DecidableEq, Inhabited

def Payload.code : Payload → Nat
  | .varint _ => 0
  | .fixed64 _ => 1
  | .bytes _ => 2
  | .group => 3
  | .fixed32 _ => 5

def endGroupCode : Nat := 4

structure Record where
  tag : Nat
  payload : Payload
  deriving DecidableEq, Inhabited

/-! ## writing -/

/-- the `k` low bytes of a number, the lowest first -/
def littleEndian : Nat → Nat → Bytes
  | 0, _ => []
  | k + 1, n => UInt8.ofNat n :: littleEndian k (n / 256)

def key (tag code : Nat) : Bytes := varint (tag * 8 + code)

def Record.write (r : Record) : Bytes :=
  key r.tag r.payload.code ++ match r.payload with
    | .varint v => varint v.toNat
    | .fixed64 v => littleEndian 8 v.toNat
    | .bytes data => varint data.length ++ data
    | .fixed32 v => littleEndian 4 v.toNat
    | .group => key r.tag endGroupCode

def writeRecords (rs : List Record) : Bytes := rs.flatMap Record.write

/-! ## reading -/

def ofLittleEndian : Bytes → Nat
  | [] => 0
  | b :: bs => b.toNat + 256 * ofLittleEndian bs

def splitBytes? (n : Nat) (bs : Bytes) : Option (Bytes × Bytes) :=
  let taken := bs.take n
  if taken.length = n then some (taken, bs.drop n) else none

/-- reads a key: a number of at most 32 bits with a tag from 1 on -/
def readKey (bs : Bytes) : Option ((Nat × Nat) × Bytes) :=
  match readVarint bs with
  | some (k, rest) => if k < UInt32.size ∧ 8 ≤ k then some ((k / 8, k % 8), rest) else none
  | none => none

def readRun (bs : Bytes) : Option (Bytes × Bytes) :=
  match readVarint bs with
  | some (n, rest) => splitBytes? n rest
  | none => none

def readPayload (code : Nat) (bs : Bytes) : Option (Payload × Bytes) :=
  match code with
  | 0 => (readVarint bs).map fun (v, rest) => (.varint (UInt64.ofNat v), rest)
  | 1 => (splitBytes? 8 bs).map fun (b, rest) => (.fixed64 (UInt64.ofNat (ofLittleEndian b)), rest)
  | 2 => (readRun bs).map fun (b, rest) => (.bytes b, rest)
  | 5 => (splitBytes? 4 bs).map fun (b, rest) => (.fixed32 (UInt32.ofNat (ofLittleEndian b)), rest)
  | _ => none

/-- skips to the end of the outermost of the open groups; the innermost stands first.  A record
inside `k` open groups needs `k < depth`.  Every step takes a key, so as many steps as there are
bytes are enough. -/
def skipGroups (depth : Nat) : Nat → List Nat → Bytes → Option Bytes
  | _, [], bs => some bs
  | 0, _ :: _, _ => none
  | steps + 1, tag :: groups, bs =>
    match readKey bs with
    | none => none
    | some ((tag', code), rest) =>
      if code = endGroupCode then
        if tag' = tag then skipGroups depth steps groups rest else none
      else if depth ≤ groups.length + 1 then none
      else if code = 3 then skipGroups depth steps (tag' :: tag :: groups) rest
      else match readPayload code rest with
        | some (_, rest) => skipGroups depth steps (tag :: groups) rest
        | none => none

def readRecord (entry : Nat → Bool) (depth : Nat) (bs : Bytes) : Option (Record × Bytes) :=
  match readKey bs with
  | none => none
  | some ((tag, code), rest) =>
    if entry tag ∧ code < 6 then (readRun rest).map fun (b, rest) => (⟨tag, .bytes b⟩, rest)
    else if code = 3 then
      if depth = 0 then none
      else (skipGroups depth rest.length [tag] rest).map fun rest => (⟨tag, .group⟩, rest)
    else (readPayload code rest).map fun (p, rest) => (⟨tag, p⟩, rest)

/-- reads records up to the end of the bytes.  Every record takes a key, so as many steps as there
are bytes are enough. -/
def readRecordsIn (entry : Nat → Bool) (depth : Nat) : Nat → Bytes → Option (List Record)
  | _, [] => some []
  | 0, _ :: _ => none
  | steps + 1, b :: bs =>
    match readRecord entry depth (b :: bs) with
    | none => none
    | some (r, rest) => (readRecordsIn entry depth steps rest).map (r :: ·)

def readRecords (entry : Nat → Bool) (depth : Nat) (bs : Bytes) : Option (List Record) :=
  readRecordsIn entry depth bs.length bs

end SpanCourier.Wire
