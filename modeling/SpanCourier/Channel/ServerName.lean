import SpanCourier.Channel.Address
import SpanCourier.Channel.IpAddress

/-!
# names of servers

An encrypted channel needs the name of its server: a DNS name, or an IP address.  A DNS name is made
of labels between dots; each has 1 to 63 letters, digits, underscores and hyphens and neither starts
nor ends with a hyphen, and the last label is not made of digits alone.
-/

namespace SpanCourier.ServerName

def isLabelByte (b : UInt8) : Bool :=
  Address.isLetter b || Address.isDigit b || b == 0x5f || b == 0x2d

def maxLabelLength : Nat := 63
def maxNameLength : Nat := 253

def isLabel (l : Bytes) : Bool :=
  !l.isEmpty && l.length ≤ maxLabelLength && l.all isLabelByte
    && l.head? != some 0x2d && l.getLast? != some 0x2d

/-- whether parts between dots make up a name: the last one may be empty, after a dot at the end -/
def isDnsParts : List Bytes → Bool
  | [] => false
  | [l] => isLabel l && !l.all Address.isDigit
  | [l, []] => isLabel l && !l.all Address.isDigit
  | l :: ls => isLabel l && isDnsParts ls

def isDnsName (bs : Bytes) : Bool :=
  bs.length ≤ maxNameLength && isDnsParts (IpAddress.partsBetween IpAddress.dot bs)

def isValid (bs : Bytes) : Bool := isDnsName bs || IpAddress.isV4 bs || IpAddress.isV6 bs

end SpanCourier.ServerName
