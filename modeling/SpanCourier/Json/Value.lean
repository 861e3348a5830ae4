import SpanCourier.Json.Escape

/-!
# JSON values

A value as a tree (`Value`), its text without blanks (`Value.render`), and what it is called where
something else is expected (`Value.found`).
-/

namespace SpanCourier.Json

inductive Value where
  | null
  | boolean (b : Bool)
  | number (n : Number)
  | text (s : String)
  | array (items : List Value)
  | object (members : List (String × Value))
  deriving Inhabited

def renderText (s : String) : Bytes := 0x22 :: escape (utf8 s) ++ [0x22]

mutual

def Value.render : Value → Bytes
  | .null => utf8 "null"
  | .boolean true => utf8 "true"
  | .boolean false => utf8 "false"
  | .number n => n.render
  | .text s => renderText s
  | .array items => 0x5b :: renderItems items ++ [0x5d]
  | .object members => 0x7b :: renderMembers members ++ [0x7d]

def renderItems : List Value → Bytes
  | [] => []
  | [v] => v.render
  | v :: vs => v.render ++ 0x2c :: renderItems vs

def renderMembers : List (String × Value) → Bytes
  | [] => []
  | [(k, v)] => renderText k ++ 0x3a :: v.render
  | (k, v) :: ms => renderText k ++ 0x3a :: v.render ++ 0x2c :: renderMembers ms

end

def Value.found : Value → Found
  | .null => .null
  | .boolean b => .boolean b
  | .number n => match n.value with
    | .natural n => .integer n
    | .negative n => .integer n
    | .floating x => .floating x
    | .outOfRange => .floating (1.0 / 0.0)
  | .text s => .text s
  | .array _ => .sequence
  | .object _ => .map

def Value.ofNat (n : Nat) : Value := .number (.ofNat n)

end SpanCourier.Json
