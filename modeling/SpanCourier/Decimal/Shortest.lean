/-!
# the shortest decimal of a binary number

A binary floating point number stands for all reals that round to it.  Of the decimals in that
interval `shortest` takes one with the fewest digits, of these the nearest to the number, and of two
that are equally near the one whose last digit is even.

For a number of digits only the two neighbours of the number on the grid of such decimals have to be
tried: if any point of the grid lies in the interval, so does one of them.

* `shortest`        the digits and the exponent of the decimal;
* `Layout.render`   its text, plain or with an exponent.
-/

namespace SpanCourier.Decimal

def twoTo (n : Nat) : Nat := Nat.pow 2 n

def tenTo (n : Nat) : Nat := Nat.pow 10 n

/-- a positive binary number `m * 2 ^ (e - 1074)` of 53 bits -/
structure Binary where
  m : Nat
  e : Nat
  deriving DecidableEq, Inhabited

/-- the least `m` of a number of 53 bits, unless it is near to zero -/
def leastNormal : Nat := 0x10000000000000

def Binary.ofBits (bits : UInt64) : Binary :=
  let fraction := (bits % 0x10000000000000).toNat
  let exponent := (bits / 0x10000000000000 % 0x800).toNat
  if exponent = 0 then ⟨fraction, 0⟩ else ⟨fraction + leastNormal, exponent - 1⟩

/-- a decimal `digits * 10 ^ exponent` -/
structure Scaled where
  digits : Nat
  exponent : Int
  deriving DecidableEq, Inhabited

/-- an interval around a number, all over one denominator; the ends belong to it or not -/
structure Interval where
  low : Nat
  mid : Nat
  high : Nat
  den : Nat
  closed : Bool

/-- the reals that round to a number: half way to its neighbours, where the one below is nearer when
the number is the first with its exponent -/
def Interval.around (b : Binary) : Interval :=
  let below := if b.m = leastNormal ∧ 0 < b.e then 1 else 2
  { low := (4 * b.m - below) * twoTo b.e
    mid := 4 * b.m * twoTo b.e
    high := (4 * b.m + 2) * twoTo b.e
    den := twoTo 1076
    closed := b.m % 2 = 0 }

def Interval.holds (i : Interval) (n : Nat) : Bool :=
  if i.closed then i.low ≤ n && n ≤ i.high else i.low < n && n < i.high

/-- the interval over the denominator that makes the grid of `10 ^ k` a grid of whole numbers -/
def Interval.scale (i : Interval) (k : Int) : Interval × Nat :=
  match k with
  | .ofNat k => (i, i.den * tenTo k)
  | .negSucc k =>
    let f := tenTo (k + 1)
    ({ i with low := i.low * f, mid := i.mid * f, high := i.high * f }, i.den)

/-- whether the number is to be taken down to `below` units: it is nearer to that than to the next
unit, or in the middle and `below` is even -/
def Interval.roundsDown (i : Interval) (unit below : Nat) : Bool :=
  let twice := 2 * (i.mid - below * unit)
  twice < unit || (twice == unit && below % 2 == 0)

/-- the point of the grid of `10 ^ k` in the interval that is nearest to the number; of two that are
equally near it is the even one -/
def gridPoint? (i : Interval) (k : Int) : Option Scaled :=
  let (i, unit) := i.scale k
  let below := i.mid / unit
  let lowIn := i.holds (below * unit)
  let highIn := i.holds ((below + 1) * unit)
  if lowIn && (!highIn || i.roundsDown unit below) then some ⟨below, k⟩
  else if highIn then some ⟨below + 1, k⟩
  else none

/-- the decimal exponent of the first digit of `num / den`, where `num` is not zero -/
def leadingExponent (num den : Nat) : Int :=
  if den ≤ num then (Nat.toDigits 10 (num / den)).length - 1
  else
    let n := (Nat.toDigits 10 (den / num)).length
    if den ≤ num * tenTo (n - 1) then -(n - 1 : Int) else -(n : Int)

/-- the point with the fewest digits, from `n` digits on and with `left` more to try -/
def firstPoint (i : Interval) (lead : Int) : (left n : Nat) → Scaled
  | 0, _ => ⟨0, 0⟩
  | left + 1, n =>
    match gridPoint? i (lead - n + 1) with
    | some s => s
    | none => firstPoint i lead left (n + 1)

def Scaled.trim : (steps : Nat) → Scaled → Scaled
  | 0, s => s
  | steps + 1, s =>
    if s.digits % 10 = 0 ∧ s.digits ≠ 0 then Scaled.trim steps ⟨s.digits / 10, s.exponent + 1⟩ else s

/-- the shortest decimal of a number; seventeen digits are always enough -/
def shortest (b : Binary) : Scaled :=
  if b.m = 0 then ⟨0, 0⟩
  else
    let i := Interval.around b
    Scaled.trim 17 (firstPoint i (leadingExponent i.mid i.den) 17 1)

/-! ## text -/

/-- how decimals are laid out: those whose first digit stands for a power of ten from `plainFrom` to
`plainTo` are written plainly, others with an exponent -/
structure Layout where
  plainFrom : Int
  plainTo : Int

def zeros (n : Nat) : String := String.ofList (List.replicate n '0')

/-- digits with a point after the first `n` of them, and at least one digit after the point -/
def pointAfter (n : Nat) (digits : List Char) : String :=
  if digits.length ≤ n then String.ofList digits ++ zeros (n - digits.length) ++ ".0"
  else String.ofList (digits.take n) ++ "." ++ String.ofList (digits.drop n)

def exponentText (e : Int) : String := "e" ++ (if e < 0 then "-" else "+") ++ toString e.natAbs

def Layout.render (l : Layout) (s : Scaled) : String :=
  let digits := Nat.toDigits 10 s.digits
  let lead := s.exponent + digits.length - 1
  if lead < l.plainFrom ∨ l.plainTo < lead then
    (if digits.length = 1 then String.ofList digits else pointAfter 1 digits) ++ exponentText lead
  else if 0 ≤ lead then pointAfter (lead.toNat + 1) digits
  else "0." ++ zeros (-lead - 1).toNat ++ String.ofList digits

end SpanCourier.Decimal
