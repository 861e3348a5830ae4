import SpanCourier.Json.Shape

/-!
# records

A record is read from an object with its members in any order, or from a list of its members in the
order of the record.  Members that the record does not know are skipped; a member that comes twice is
a fault, and so is a required member that does not come at all.

Reading starts from the blank record, and each member sets its part of it.
-/

namespace SpanCourier.Json

structure Member (σ : Type) where
  name : String
  required : Bool
  read : Reader (σ → σ)
  ofValue : Value → Except Mismatch (σ → σ)

def Member.of {σ α : Type} (name : String) (required : Bool) (shape : Shape α) (set : α → σ → σ) :
    Member σ :=
  let s := shape.map set
  ⟨name, required, s.read, s.ofValue⟩

structure RecordShape (σ : Type) where
  title : String
  blank : σ
  members : List (Member σ)

namespace RecordShape
variable {σ : Type}

def expected (r : RecordShape σ) : String := "struct " ++ r.title

def member? (r : RecordShape σ) (name : String) : Option (Member σ) :=
  r.members.find? (·.name == name)

def missing? (r : RecordShape σ) (seen : List String) : Option String :=
  (r.members.find? fun m => m.required && !seen.contains m.name).map (·.name)

def finish (r : RecordShape σ) (seen : List String) (s : σ) : Except Mismatch σ :=
  match r.missing? seen with
  | some name => .error (.missingField name)
  | none => .ok s

/-! ## from an object -/

/-- reads members up to the end of an object.  Every member takes a token, so as many steps as there
are tokens are enough. -/
def readMembers (r : RecordShape σ) :
    (steps : Nat) → (first : Bool) → (seen : List String) → σ → Reader σ
  | steps, first, seen, s, ts => match Shape.nextKey first ts with
    | .error f => .error f
    | .ok (.done ts) => match r.finish seen s with
      | .ok s => .ok (s, ts)
      | .error m => .error (.mismatch m)
    | .ok (.more ts) => match steps with
      | 0 => .error .cut
      | steps + 1 => match Shape.string.read ts with
        | .error f => .error f
        | .ok (name, ts) => match r.member? name with
          | none => match expect .colon ts with
            | .error f => .error f
            | .ok ts => match skipValue ts with
              | .error f => .error f
              | .ok ts => readMembers r steps false seen s ts
          | some m =>
            if seen.contains name then .error (.mismatch (.duplicateField name))
            else match expect .colon ts with
              | .error f => .error f
              | .ok ts => match m.read ts with
                | .error f => .error f
                | .ok (set, ts) => readMembers r steps false (name :: seen) (set s) ts

def ofMembers (r : RecordShape σ) (seen : List String) (s : σ) :
    List (String × Value) → Except Mismatch σ
  | [] => r.finish seen s
  | (name, v) :: ms => match r.member? name with
    | none => ofMembers r seen s ms
    | some m =>
      if seen.contains name then .error (.duplicateField name)
      else match m.ofValue v with
        | .error e => .error e
        | .ok set => ofMembers r (name :: seen) (set s) ms

/-! ## from a list -/

def expectedLength (r : RecordShape σ) : String :=
  r.expected ++ " with " ++ toString r.members.length ++ " elements"

/-- reads the members in their order, from the one at `index` on; those missing at the end keep what the
blank record has -/
def readListed (r : RecordShape σ) : List (Member σ) → (index : Nat) → (ended : Bool) → σ → Reader σ
  | [], _, ended, s, ts =>
    if ended then .ok (s, ts)
    else match ts with
      | [] => .error .cut
      | .closing .square :: ts => .ok (s, ts)
      | _ => .error .malformed
  | m :: ms, index, ended, s, ts =>
    let absent (ts : List Token) : Except Fault (σ × List Token) :=
      if m.required then .error (.mismatch (.invalidLength index r.expectedLength))
      else readListed r ms (index + 1) true s ts
    if ended then absent ts
    else match Shape.nextItem (index == 0) ts with
      | .error f => .error f
      | .ok (.done ts) => absent ts
      | .ok (.more ts) => match m.read ts with
        | .error f => .error f
        | .ok (set, ts) => readListed r ms (index + 1) false (set s) ts

def ofListed (r : RecordShape σ) (length : Nat) :
    List (Member σ) → (index : Nat) → σ → List Value → Except Mismatch σ
  | [], _, s, [] => .ok s
  | [], _, _, _ :: _ => .error (.invalidLength length "fewer elements in array")
  | m :: ms, index, s, [] =>
    if m.required then .error (.invalidLength index r.expectedLength)
    else ofListed r length ms (index + 1) s []
  | m :: ms, index, s, v :: vs => match m.ofValue v with
    | .error e => .error e
    | .ok set => ofListed r length ms (index + 1) (set s) vs

/-! ## the shape -/

def shape (r : RecordShape σ) : Shape σ where
  read
    | [] => .error .cut
    | .opening .curly :: ts => r.readMembers ts.length true [] r.blank ts
    | .opening .square :: ts => r.readListed r.members 0 false r.blank ts
    | t :: _ => .error (unexpected r.expected t)
  ofValue
    | .object ms => r.ofMembers [] r.blank ms
    | .array vs => r.ofListed vs.length r.members 0 r.blank vs
    | v => .error (.invalidType v.found r.expected)

end RecordShape

/-- reads a whole text: nothing may follow the value -/
def Shape.parse {α : Type} (s : Shape α) (bs : Bytes) : Except Fault α :=
  match s.read (tokens bs) with
  | .error f => .error f
  | .ok (a, []) => .ok a
  | .ok (_, _ :: _) => .error .malformed

end SpanCourier.Json
