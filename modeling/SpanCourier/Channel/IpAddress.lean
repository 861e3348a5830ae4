import SpanCourier.Json.Number
import SpanCourier.Text.Hex

/-!
# IP addresses as texts

An IPv4 address is four octets between dots.  An IPv6 address is eight groups of sixteen bits
between colons; one run of groups may be left out, which leaves two colons in a row, and the last two
groups may be written as an IPv4 address.
-/

namespace SpanCourier.IpAddress

def partsBetween (separator : UInt8) : Bytes → List Bytes
  | [] => [[]]
  | b :: bs =>
    if b = separator then [] :: partsBetween separator bs
    else match partsBetween separator bs with
      | [] => [[b]]
      | part :: parts => (b :: part) :: parts

def dot : UInt8 := 0x2e
def colon : UInt8 := 0x3a

/-! ## four octets -/

def isDecimalDigit (b : UInt8) : Bool := 0x30 ≤ b && b ≤ 0x39

/-- a number up to 255 in one to three digits, without a zero before others -/
def isOctet (part : Bytes) : Bool :=
  !part.isEmpty && part.length ≤ 3 && part.all isDecimalDigit
    && (part.length == 1 || part.head? != some 0x30) && Json.Number.natOfDigits part ≤ 255

def isV4 (bs : Bytes) : Bool :=
  let parts := partsBetween dot bs
  parts.length == 4 && parts.all isOctet

/-! ## eight groups -/

def groupCount : Nat := 8

def isGroup (part : Bytes) : Bool :=
  !part.isEmpty && part.length ≤ 4 && part.all fun b => (hexValue? b).isSome

/-- how many groups some parts stand for, if they are groups; the last one may be an IPv4 address
where `dotted` says so, and then stands for two -/
def groupsOf? (dotted : Bool) : List Bytes → Option Nat
  | [] => some 0
  | [part] => if isGroup part then some 1 else if dotted && isV4 part then some 2 else none
  | part :: parts => if isGroup part then (groupsOf? dotted parts).map (· + 1) else none

/-- how many groups a text stands for; the empty text has none -/
def groupsIn? (dotted : Bool) (bs : Bytes) : Option Nat :=
  if bs.isEmpty then some 0 else groupsOf? dotted (partsBetween colon bs)

/-- what stands before and after the first two colons in a row -/
def aroundGap? : Bytes → Option (Bytes × Bytes)
  | [] => none
  | b :: bs =>
    if b = colon ∧ bs.head? = some colon then some ([], bs.tail)
    else (aroundGap? bs).map fun (before, after) => (b :: before, after)

/-- whether a text is an IPv6 address: eight groups, or fewer around a gap for at least one -/
def isV6 (bs : Bytes) : Bool :=
  match aroundGap? bs with
  | none => groupsIn? true bs == some groupCount
  | some (before, after) => match groupsIn? false before, groupsIn? true after with
    | some n, some m => n + m < groupCount
    | _, _ => false

end SpanCourier.IpAddress
