import SpanCourier.Json.Fault
import SpanCourier.Text.Hex

/-!
# escapes in JSON texts

Within a text a quote, a backslash and the controls are escaped.  `unescape` reads the body of a text,
`checkEscapes` only looks whether the body of a text that is skipped is well formed, and `escape`
writes a body.

A `\u` escape needs four more bytes.  Where the whole text has fewer left, it ends too early; where
there are four that are no digits, the escape is malformed.  `beyond` counts the bytes after the body,
up to four, and is zero when the closing quote is missing.
-/

namespace SpanCourier.Json

def shortEscape? (c : UInt8) : Option UInt8 :=
  if c = 0x22 ∨ c = 0x5c ∨ c = 0x2f then some c
  else if c = 0x62 then some 0x08
  else if c = 0x66 then some 0x0c
  else if c = 0x6e then some 0x0a
  else if c = 0x72 then some 0x0d
  else if c = 0x74 then some 0x09
  else none

/-- the fault of a `\u` escape that has only `left` bytes of the body left -/
def shortOfDigits (left beyond : Nat) : Fault := if left + beyond < 4 then .cut else .malformed

def codePointBytes (n : Nat) : Bytes := String.utf8EncodeChar (Char.ofNat n)

def isHighSurrogate (n : Nat) : Bool := 0xd800 ≤ n && n ≤ 0xdbff
def isLowSurrogate (n : Nat) : Bool := 0xdc00 ≤ n && n ≤ 0xdfff

def joinSurrogates (high low : Nat) : Nat := (high - 0xd800) * 0x400 + (low - 0xdc00) + 0x10000

/-- the bytes that a body stands for, after those of `acc` in reverse -/
def unescapeBytes (beyond : Nat) (acc : Bytes) : Bytes → Except Fault Bytes
  | [] => if beyond = 0 then .error .cut else .ok acc.reverse
  | b :: bs =>
    if b < 0x20 then .error .malformed
    else if b ≠ 0x5c then unescapeBytes beyond (b :: acc) bs
    else match bs with
      | [] => .error .cut
      | c :: bs => match shortEscape? c with
        | some e => unescapeBytes beyond (e :: acc) bs
        | none =>
          if c ≠ 0x75 then .error .malformed
          else match bs with
            | d₁ :: d₂ :: d₃ :: d₄ :: bs => match hexNat? [d₁, d₂, d₃, d₄] with
              | none => .error .malformed
              | some n =>
                if isLowSurrogate n then .error .malformed
                else if !isHighSurrogate n then
                  unescapeBytes beyond ((codePointBytes n).reverse ++ acc) bs
                else match bs with
                  | [] => .error (if beyond = 0 then .cut else .malformed)
                  | [s] => .error (if s = 0x5c ∧ beyond = 0 then .cut else .malformed)
                  | s :: u :: bs =>
                    if s ≠ 0x5c ∨ u ≠ 0x75 then .error .malformed
                    else match bs with
                      | e₁ :: e₂ :: e₃ :: e₄ :: bs => match hexNat? [e₁, e₂, e₃, e₄] with
                        | none => .error .malformed
                        | some m =>
                          if isLowSurrogate m then
                            unescapeBytes beyond
                              ((codePointBytes (joinSurrogates n m)).reverse ++ acc) bs
                          else .error .malformed
                      | bs => .error (shortOfDigits bs.length beyond)
            | bs => .error (shortOfDigits bs.length beyond)

def unescape (body : Bytes) (beyond : Nat) : Except Fault String :=
  match unescapeBytes beyond [] body with
  | .error f => .error f
  | .ok bs => match ofUtf8? bs with
    | some s => .ok s
    | none => .error .malformed

/-- whether the body of a text that is skipped is well formed; surrogates and bytes that are not UTF-8
may stand alone there -/
def checkEscapes (beyond : Nat) : Bytes → Except Fault Unit
  | [] => if beyond = 0 then .error .cut else .ok ()
  | b :: bs =>
    if b < 0x20 then .error .malformed
    else if b ≠ 0x5c then checkEscapes beyond bs
    else match bs with
      | [] => .error .cut
      | c :: bs => match shortEscape? c with
        | some _ => checkEscapes beyond bs
        | none =>
          if c ≠ 0x75 then .error .malformed
          else match bs with
            | d₁ :: d₂ :: d₃ :: d₄ :: bs => match hexNat? [d₁, d₂, d₃, d₄] with
              | none => .error .malformed
              | some _ => checkEscapes beyond bs
            | bs => .error (shortOfDigits bs.length beyond)

def escapeByte (b : UInt8) : Bytes :=
  if b = 0x22 then [0x5c, 0x22]
  else if b = 0x5c then [0x5c, 0x5c]
  else if b = 0x08 then [0x5c, 0x62]
  else if b = 0x0c then [0x5c, 0x66]
  else if b = 0x0a then [0x5c, 0x6e]
  else if b = 0x0d then [0x5c, 0x72]
  else if b = 0x09 then [0x5c, 0x74]
  else if b < 0x20 then [0x5c, 0x75] ++ fixedHex 4 b.toNat
  else [b]

def escape (bs : Bytes) : Bytes := bs.flatMap escapeByte

end SpanCourier.Json
