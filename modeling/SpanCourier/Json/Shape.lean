import SpanCourier.Dict
import SpanCourier.Json.Skip
import SpanCourier.Json.Value

/-!
# shapes: what a JSON text is read as

A `Shape α` reads values of type `α`, from the tokens of a text and from a value that is read already.
A text is read in one pass, and the first fault in the order of the text is the one that counts: a
value that is not expected is a fault before anything after it.

Shapes are put together from those of texts, truth values and numbers: lists, dictionaries, values
that may be null, names of variants, and records with members in any order.
-/

namespace SpanCourier.Json

/-- reads something from tokens, and leaves those after it -/
abbrev Reader (α : Type) := List Token → Except Fault (α × List Token)

structure Shape (α : Type) where
  read : Reader α
  ofValue : Value → Except Mismatch α

def unexpected (expected : String) : Token → Fault
  | .null => .mismatch (.invalidType .null expected)
  | .boolean b => .mismatch (.invalidType (.boolean b) expected)
  | .number n => match n.value with
    | .natural n => .mismatch (.invalidType (.integer n) expected)
    | .negative n => .mismatch (.invalidType (.integer n) expected)
    | .floating x => .mismatch (.invalidType (.floating x) expected)
    | .outOfRange => .malformed
  | .brokenNumber atEnd => if atEnd then .cut else .malformed
  | .text body beyond => match unescape body beyond with
    | .ok s => .mismatch (.invalidType (.text s) expected)
    | .error f => f
  | .opening .square => .mismatch (.invalidType .sequence expected)
  | .opening .curly => .mismatch (.invalidType .map expected)
  | .cutWord _ => .cut
  | _ => .malformed

def expect (t : Token) : List Token → Except Fault (List Token)
  | [] => .error .cut
  | t' :: ts => if t' = t then .ok ts else .error .malformed

namespace Shape

/-! ## single values -/

def string : Shape String where
  read
    | [] => .error .cut
    | .text body beyond :: ts => match unescape body beyond with
      | .ok s => .ok (s, ts)
      | .error f => .error f
    | t :: _ => .error (unexpected "a string" t)
  ofValue
    | .text s => .ok s
    | v => .error (.invalidType v.found "a string")

def bool : Shape Bool where
  read
    | [] => .error .cut
    | .boolean b :: ts => .ok (b, ts)
    | t :: _ => .error (unexpected "a boolean" t)
  ofValue
    | .boolean b => .ok b
    | v => .error (.invalidType v.found "a boolean")

def natOfNumber (expected : String) (max : Nat) (n : Number) : Except Fault Nat :=
  match n.value with
  | .natural n =>
    if n ≤ max then .ok n else .error (.mismatch (.invalidValue (.integer n) expected))
  | .negative n => .error (.mismatch (.invalidValue (.integer n) expected))
  | .floating x => .error (.mismatch (.invalidType (.floating x) expected))
  | .outOfRange => .error .malformed

def nat (expected : String) (max : Nat) : Shape Nat where
  read
    | [] => .error .cut
    | .number n :: ts => match natOfNumber expected max n with
      | .ok n => .ok (n, ts)
      | .error f => .error f
    | t :: _ => .error (unexpected expected t)
  ofValue
    | .number n => match natOfNumber expected max n with
      | .ok n => .ok n
      | .error (.mismatch m) => .error m
      | .error _ => .error (.invalidType (Value.number n).found expected)
    | v => .error (.invalidType v.found expected)

def map {α β : Type} (f : α → β) (s : Shape α) : Shape β where
  read ts := match s.read ts with
    | .ok (a, ts) => .ok (f a, ts)
    | .error e => .error e
  ofValue v := match s.ofValue v with
    | .ok a => .ok (f a)
    | .error e => .error e

def nullable {α : Type} (s : Shape α) : Shape (Option α) where
  read
    | .null :: ts => .ok (none, ts)
    | .cutWord true :: _ => .error .cut
    | ts => (s.map some).read ts
  ofValue
    | .null => .ok none
    | v => (s.map some).ofValue v

/-! ## the name of a variant -/

def variantOf {α : Type} (known : List (String × α)) (name : String) : Except Mismatch α :=
  match Dict.find? name known with
  | some a => .ok a
  | none => .error (.unknownVariant name (known.map (·.1)))

def variantName {α : Type} (known : List (String × α)) : Reader α
  | [] => .error .cut
  | .text body beyond :: ts => match unescape body beyond with
    | .error f => .error f
    | .ok name => match variantOf known name with
      | .ok a => .ok (a, ts)
      | .error m => .error (.mismatch m)
  | _ => .error .malformed

def readUnit : List Token → Except Fault (List Token)
  | [] => .error .cut
  | .null :: ts => .ok ts
  | t :: _ => .error (unexpected "unit" t)

def unitOfValue : Value → Except Mismatch Unit
  | .null => .ok ()
  | v => .error (.invalidType v.found "unit")

/-- a variant by its name, or by an object with the name as its one key and null under it -/
def variant {α : Type} (known : List (String × α)) : Shape α where
  read
    | [] => .error .cut
    | .text body beyond :: ts => variantName known (.text body beyond :: ts)
    | .opening .curly :: ts => match variantName known ts with
      | .error f => .error f
      | .ok (a, ts) => match expect .colon ts with
        | .error f => .error f
        | .ok ts => match readUnit ts with
          | .error f => .error f
          | .ok ts => match expect (.closing .curly) ts with
            | .error f => .error f
            | .ok ts => .ok (a, ts)
    | _ => .error .malformed
  ofValue
    | .text name => variantOf known name
    | .object [(name, v)] => match variantOf known name with
      | .error m => .error m
      | .ok a => match unitOfValue v with
        | .error m => .error m
        | .ok _ => .ok a
    | .object _ => .error (.invalidValue .map "map with a single key")
    | v => .error (.invalidType v.found "string or map")

/-! ## lists and dictionaries -/

/-- what stands before the next item or member: the end, or a comma unless it is the first -/
inductive Ahead where
  | done (rest : List Token)
  | more (rest : List Token)

def nextItem (first : Bool) : List Token → Except Fault Ahead
  | [] => .error .cut
  | .closing .square :: ts => .ok (.done ts)
  | t :: ts =>
    if first then .ok (.more (t :: ts))
    else if t = .comma then
      match ts with
      | [] => .error .cut
      | t :: ts => if t = .closing .square then .error .malformed else .ok (.more (t :: ts))
    else .error .malformed

def nextKey (first : Bool) : List Token → Except Fault Ahead
  | [] => .error .cut
  | .closing .curly :: ts => .ok (.done ts)
  | .text body beyond :: ts =>
    if first then .ok (.more (.text body beyond :: ts)) else .error .malformed
  | t :: ts =>
    if first then .error .malformed
    else if t = .comma then
      match ts with
      | [] => .error .cut
      | .text body beyond :: ts => .ok (.more (.text body beyond :: ts))
      | _ => .error .malformed
    else .error .malformed

/-- reads items up to the end of a list, after those of `acc` in reverse.  Every item takes a token, so
as many steps as there are tokens are enough. -/
def readItems {α : Type} (r : Reader α) :
    (steps : Nat) → (first : Bool) → (acc : List α) → Reader (List α)
  | steps, first, acc, ts => match nextItem first ts with
    | .error f => .error f
    | .ok (.done ts) => .ok (acc.reverse, ts)
    | .ok (.more ts) => match steps with
      | 0 => .error .cut
      | steps + 1 => match r ts with
        | .error f => .error f
        | .ok (a, ts) => readItems r steps false (a :: acc) ts

def itemsOfValues {α : Type} (f : Value → Except Mismatch α) :
    List Value → Except Mismatch (List α)
  | [] => .ok []
  | v :: vs => match f v with
    | .error m => .error m
    | .ok a => match itemsOfValues f vs with
      | .error m => .error m
      | .ok as => .ok (a :: as)

def list {α : Type} (s : Shape α) : Shape (List α) where
  read
    | [] => .error .cut
    | .opening .square :: ts => readItems s.read ts.length true [] ts
    | t :: _ => .error (unexpected "a sequence" t)
  ofValue
    | .array vs => itemsOfValues s.ofValue vs
    | v => .error (.invalidType v.found "a sequence")

/-- reads members up to the end of an object into a dictionary; the last value of a key stays -/
def readEntries {α : Type} (r : Reader α) :
    (steps : Nat) → (first : Bool) → Dict α → Reader (Dict α)
  | steps, first, d, ts => match nextKey first ts with
    | .error f => .error f
    | .ok (.done ts) => .ok (d, ts)
    | .ok (.more ts) => match steps with
      | 0 => .error .cut
      | steps + 1 => match string.read ts with
        | .error f => .error f
        | .ok (k, ts) => match expect .colon ts with
          | .error f => .error f
          | .ok ts => match r ts with
            | .error f => .error f
            | .ok (a, ts) => readEntries r steps false (d.insert k a) ts

def entriesOfMembers {α : Type} (f : Value → Except Mismatch α) (d : Dict α) :
    List (String × Value) → Except Mismatch (Dict α)
  | [] => .ok d
  | (k, v) :: ms => match f v with
    | .error m => .error m
    | .ok a => entriesOfMembers f (d.insert k a) ms

def dict {α : Type} (s : Shape α) : Shape (Dict α) where
  read
    | [] => .error .cut
    | .opening .curly :: ts => readEntries s.read ts.length true ∅ ts
    | t :: _ => .error (unexpected "a map" t)
  ofValue
    | .object ms => entriesOfMembers s.ofValue ∅ ms
    | v => .error (.invalidType v.found "a map")

end Shape

end SpanCourier.Json
