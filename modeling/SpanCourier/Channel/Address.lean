import SpanCourier.Text.Utf8

/-!
# the address of a host

An address is a URI of which only the scheme and the authority count: who is asked (the host, maybe
after user information and before a port number), and whether the channel is encrypted.

* `Address.parse`   reads an address, or tells what is wrong with it;
* `Address.host`    the host of an address.
-/

namespace SpanCourier

inductive AddressFault where
  | empty
  | tooLong
  | schemeTooLong
  | badCharacter
  | badAuthority
  | badFormat
  | missingHost
  deriving DecidableEq, Inhabited

def AddressFault.message : AddressFault → String
  | .empty => "empty string"
  | .tooLong => "uri too long"
  | .schemeTooLong => "scheme too long"
  | .badCharacter => "invalid uri character"
  | .badAuthority => "invalid authority"
  | .badFormat => "invalid format"
  | .missingHost => "missing host"

inductive Scheme where
  | http
  | https
  | other (name : Bytes)
  deriving DecidableEq, Inhabited

structure Address where
  scheme : Option Scheme
  authority : Bytes
  deriving DecidableEq, Inhabited

namespace Address

def maxLength : Nat := 65534
def maxSchemeLength : Nat := 64

def isLetter (b : UInt8) : Bool := (0x41 ≤ b && b ≤ 0x5a) || (0x61 ≤ b && b ≤ 0x7a)
def isDigit (b : UInt8) : Bool := 0x30 ≤ b && b ≤ 0x39
def lower (b : UInt8) : UInt8 := if 0x41 ≤ b ∧ b ≤ 0x5a then b + 0x20 else b

/-! ## the scheme -/

def isSchemeByte (b : UInt8) : Bool :=
  isLetter b || isDigit b || (utf8 "+-.~").contains b

/-- what follows a beginning, in letters of either case -/
def afterLower? (start bs : Bytes) : Option Bytes :=
  if (bs.take start.length).map lower = start then some (bs.drop start.length) else none

/-- the name of another scheme and what follows it; text that is not followed by `://` is none -/
def otherScheme? (bs : Bytes) : Except AddressFault (Option (Bytes × Bytes)) :=
  let name := bs.takeWhile isSchemeByte
  match bs.drop name.length with
  | 0x3a :: 0x2f :: 0x2f :: rest =>
    if maxSchemeLength < name.length then .error .schemeTooLong else .ok (some (name, rest))
  | _ => .ok none

def splitScheme (bs : Bytes) : Except AddressFault (Option Scheme × Bytes) :=
  match afterLower? (utf8 "http://") bs with
  | some rest => .ok (some .http, rest)
  | none => match afterLower? (utf8 "https://") bs with
    | some rest => .ok (some .https, rest)
    | none =>
      if bs.length ≤ 3 then .ok (none, bs)
      else match otherScheme? bs with
        | .error f => .error f
        | .ok none => .ok (none, bs)
        | .ok (some (name, rest)) => .ok (some (.other name), rest)

/-! ## the authority -/

def endsAuthority (b : UInt8) : Bool := b == 0x2f || b == 0x3f || b == 0x23

def isAuthorityByte (b : UInt8) : Bool :=
  isLetter b || isDigit b || (utf8 "!$&'()*+,-.:;=@[]_~").contains b

structure Scan where
  /-- colons since the last `@` or `]` -/
  colons : Nat := 0
  opened : Bool := false
  closed : Bool := false
  /-- whether a `%` came since the last `@` or `]` -/
  percent : Bool := false
  atSign : Bool := false

def maxColons : Nat := 8

def Scan.add (s : Scan) (b : UInt8) : Except AddressFault Scan :=
  let s := { s with atSign := false }
  if b = 0x3a then
    if maxColons ≤ s.colons then .error .badAuthority else .ok { s with colons := s.colons + 1 }
  else if b = 0x5b then
    if s.percent || s.opened then .error .badAuthority else .ok { s with opened := true }
  else if b = 0x5d then
    if !s.opened || s.closed then .error .badAuthority
    else .ok { s with closed := true, colons := 0, percent := false }
  else if b = 0x40 then .ok { s with colons := 0, percent := false, atSign := true }
  else if b = 0x25 then .ok { s with percent := true }
  else if isAuthorityByte b then .ok s
  else .error .badCharacter

def Scan.finish (s : Scan) : Except AddressFault Unit :=
  if s.opened != s.closed || 1 < s.colons || s.atSign || s.percent then .error .badAuthority
  else .ok ()

def checkAuthority (s : Scan) : Bytes → Except AddressFault Unit
  | [] => s.finish
  | b :: bs => match s.add b with
    | .error f => .error f
    | .ok s => checkAuthority s bs

/-- the authority and what follows it; there must be something to read -/
def splitAuthority (bs : Bytes) : Except AddressFault (Bytes × Bytes) :=
  if bs.isEmpty then .error .empty
  else
    let authority := bs.takeWhile fun b => !endsAuthority b
    match checkAuthority {} authority with
    | .error f => .error f
    | .ok _ => .ok (authority, bs.drop authority.length)

/-! ## path and query -/

def isPathByte (b : UInt8) : Bool :=
  b == 0x21 || b == 0x22 || (0x24 ≤ b && b ≤ 0x3b) || b == 0x3d || (0x40 ≤ b && b ≤ 0x5f)
    || (0x61 ≤ b && b ≠ 0x7f)

def isQueryByte (b : UInt8) : Bool :=
  b == 0x21 || (0x24 ≤ b && b ≤ 0x3b) || b == 0x3d || (0x3f ≤ b && b ≠ 0x7f)

/-- checks a query up to a fragment, which is not looked at -/
def checkQuery : Bytes → Except AddressFault Unit
  | [] => .ok ()
  | b :: bs =>
    if b = 0x23 then .ok ()
    else if isQueryByte b then checkQuery bs
    else .error .badCharacter

def checkPath : Bytes → Except AddressFault Unit
  | [] => .ok ()
  | b :: bs =>
    if b = 0x23 then .ok ()
    else if b = 0x3f then checkQuery bs
    else if isPathByte b then checkPath bs
    else .error .badCharacter

/-! ## the whole address -/

def afterScheme (scheme : Option Scheme) (bs : Bytes) : Except AddressFault Address :=
  match splitAuthority bs with
  | .error f => .error f
  | .ok (authority, rest) =>
    match scheme with
    | none => if rest.isEmpty then .ok ⟨none, authority⟩ else .error .badFormat
    | some scheme =>
      if authority.isEmpty then .error .badFormat
      else match checkPath rest with
        | .error f => .error f
        | .ok _ => .ok ⟨some scheme, authority⟩

def ofByte (b : UInt8) : Except AddressFault Address :=
  if b = 0x2f ∨ b = 0x2a then .error .missingHost
  else if endsAuthority b then .error .badCharacter
  else match checkAuthority {} [b] with
    | .error f => .error f
    | .ok _ => .ok ⟨none, [b]⟩

def parse (bs : Bytes) : Except AddressFault Address :=
  if maxLength < bs.length then .error .tooLong
  else match bs with
    | [] => .error .empty
    | [b] => ofByte b
    | b :: _ =>
      if b = 0x2f then match checkPath bs with
        | .error f => .error f
        | .ok _ => .error .missingHost
      else match splitScheme bs with
        | .error f => .error f
        | .ok (scheme, rest) => afterScheme scheme rest

/-- what follows the last `@` -/
def afterUser (bs : Bytes) : Bytes := (bs.reverse.takeWhile (· ≠ 0x40)).reverse

/-- the host of an authority: what stands between brackets, or before the port number -/
def host (a : Address) : Bytes :=
  let bs := afterUser a.authority
  if bs.head? = some 0x5b then bs.tail.takeWhile (· ≠ 0x5d)
  else bs.takeWhile (· ≠ 0x3a)

end Address

end SpanCourier
