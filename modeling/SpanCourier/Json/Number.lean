import SpanCourier.Decimal.Shortest
import SpanCourier.Text.Utf8

/-!
# numbers of JSON texts

A number is kept as it is written, in its parts.  Its value is a whole number when it has neither
fraction nor exponent and fits into 64 bits, and a floating point number otherwise.

The floating point value is found in two steps: the digits are gathered into a number of 64 bits, from
which on further digits only count as tens, and that is scaled by a power of ten.
-/

namespace SpanCourier.Json

structure Number where
  negative : Bool := false
  whole : Bytes
  fraction : Bytes := []
  /-- whether the exponent is negative, and its digits -/
  exponent : Option (Bool × Bytes) := none
  deriving DecidableEq, Inhabited

inductive NumberValue where
  | natural (n : Nat)
  | negative (n : Int)
  | floating (x : Float)
  | outOfRange

namespace Number

def isDigit (b : UInt8) : Bool := 0x30 ≤ b && b ≤ 0x39

def digitValue (b : UInt8) : Nat := b.toNat - 0x30

def natOfDigits (ds : Bytes) : Nat := ds.foldl (fun n d => 10 * n + digitValue d) 0

def digitsOfNat (n : Nat) : Bytes := utf8 (toString n)

def ofNat (n : Nat) : Number := { whole := digitsOfNat n }

/-- digits gathered into 64 bits; `tens` counts the powers of ten that stand beside them -/
structure Gathered where
  significand : Nat
  tens : Int
  full : Bool

/-- takes in a digit before the point: once one does not fit, each stands for a ten -/
def Gathered.addWhole (g : Gathered) (d : UInt8) : Gathered :=
  let n := 10 * g.significand + digitValue d
  if g.full ∨ UInt64.size ≤ n then { g with tens := g.tens + 1, full := true }
  else { g with significand := n }

/-- takes in a digit after the point: once one does not fit, all are left out -/
def Gathered.addFraction (g : Gathered) (d : UInt8) : Gathered :=
  let n := 10 * g.significand + digitValue d
  if g.full ∨ UInt64.size ≤ n then { g with full := true }
  else { g with significand := n, tens := g.tens - 1 }

def gather (n : Number) : Gathered :=
  let g := n.whole.foldl Gathered.addWhole ⟨0, 0, false⟩
  n.fraction.foldl Gathered.addFraction { g with full := false }

def saturate32 (e : Int) : Int := max (-2147483648) (min 2147483647 e)

/-- a number of 64 bits scaled by `10 ^ tens`, unless it is too large.  A power of ten below the least
floating point number is divided off in runs of 308 tens. -/
def scale : (steps : Nat) → Float → Int → Option Float
  | 0, x, _ => some x
  | steps + 1, x, tens =>
    if tens.natAbs ≤ 308 then
      let power := Float.ofScientific 1 false tens.natAbs
      if 0 ≤ tens then
        let y := x * power
        if y.isInf then none else some y
      else some (x / power)
    else if x == 0.0 then some x
    else if 0 ≤ tens then none
    else scale steps (x / 1e308) (tens + 308)

def maxExponent : Nat := 2147483647

def float? (n : Number) : Option Float :=
  let g := n.gather
  let sign (x : Float) := if n.negative then -x else x
  let base := UInt64.toFloat (UInt64.ofNat g.significand)
  match n.exponent with
  | none => (scale 4 base g.tens).map sign
  | some (down, digits) =>
    let e := natOfDigits digits
    if maxExponent < e then
      if g.significand ≠ 0 ∧ !down then none else some (sign 0.0)
    else (scale 4 base (saturate32 (if down then g.tens - e else g.tens + e))).map sign

def isWhole (n : Number) : Bool := n.fraction.isEmpty && n.exponent.isNone

/-- what a number stands for; a minus sign before zero makes it a floating point number -/
def value (n : Number) : NumberValue :=
  let v := natOfDigits n.whole
  if n.isWhole ∧ !n.negative ∧ v < UInt64.size then .natural v
  else if n.isWhole ∧ n.negative ∧ 0 < v ∧ v ≤ 9223372036854775808 then .negative (-v)
  else match n.float? with
    | some x => .floating x
    | none => .outOfRange

def render (n : Number) : Bytes :=
  (if n.negative then [0x2d] else []) ++ n.whole
    ++ (if n.fraction.isEmpty then [] else 0x2e :: n.fraction)
    ++ match n.exponent with
      | none => []
      | some (down, digits) => 0x65 :: (if down then 0x2d else 0x2b) :: digits

end Number

/-- floating point numbers are written plainly from `0.00001` up to sixteen digits before the point -/
def floatLayout : Decimal.Layout := ⟨-5, 15⟩

/-- the shortest text of a floating point number that is read back as it -/
def floatText (x : Float) : String :=
  let bits := x.toBits
  (if bits < 0x8000000000000000 then "" else "-")
    ++ floatLayout.render (Decimal.shortest (Decimal.Binary.ofBits bits))

end SpanCourier.Json
