import SpanCourier.Json.Escape
import SpanCourier.Json.Token

/-!
# skipping a value

A value that nobody asks for is skipped without being built.  Only the brackets that are open and
what may come next are kept, so values may be nested without limit.
-/

namespace SpanCourier.Json

/-- what may come next within the innermost open bracket -/
inductive Next where
  | value
  | firstMember
  | comma
  | key
  | colon
  deriving DecidableEq

/-- how far a value is read: the open brackets, the innermost first, and what may come next -/
structure Progress where
  brackets : List Bracket
  next : Next

namespace Progress

def start : Progress := ⟨[], .value⟩

def afterValue : List Bracket → Option Progress
  | [] => none
  | bs => some ⟨bs, .comma⟩

def takeValue (brackets : List Bracket) : Token → Except Fault (Option Progress)
  | .null | .boolean _ | .number _ => .ok (afterValue brackets)
  | .text body beyond => match checkEscapes beyond body with
    | .ok _ => .ok (afterValue brackets)
    | .error f => .error f
  | .opening b => .ok (some ⟨b :: brackets, .firstMember⟩)
  | .cutWord _ => .error .cut
  | _ => .error .malformed

def takeKey (brackets : List Bracket) : Token → Except Fault (Option Progress)
  | .text body beyond => match checkEscapes beyond body with
    | .ok _ => .ok (some ⟨brackets, .colon⟩)
    | .error f => .error f
  | _ => .error .malformed

/-- takes in a token; nothing is left when the value ends with it -/
def take (p : Progress) (t : Token) : Except Fault (Option Progress) :=
  match p.next, p.brackets with
  | .value, bs => takeValue bs t
  | .firstMember, b :: bs =>
    if t = .closing b then .ok (afterValue bs)
    else match b with
      | .square => takeValue (b :: bs) t
      | .curly => takeKey (b :: bs) t
  | .comma, b :: bs =>
    if t = .closing b then .ok (afterValue bs)
    else if t = .comma then
      match b with
      | .square => .ok (some ⟨b :: bs, .value⟩)
      | .curly => .ok (some ⟨b :: bs, .key⟩)
    else .error .malformed
  | .key, bs => takeKey bs t
  | .colon, bs => if t = .colon then .ok (some ⟨bs, .value⟩) else .error .malformed
  | _, [] => .error .malformed

end Progress

def skipFrom (p : Progress) : List Token → Except Fault (List Token)
  | [] => .error .cut
  | t :: ts => match p.take t with
    | .error f => .error f
    | .ok none => .ok ts
    | .ok (some p) => skipFrom p ts

def skipValue (ts : List Token) : Except Fault (List Token) := skipFrom .start ts

end SpanCourier.Json
