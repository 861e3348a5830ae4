import SpanCourier.Json.Number

/-!
# tokens of JSON texts

`tokens` cuts the bytes of a text into tokens.  A token that is broken is one too, so that a reader
meets faults in the order of the text; what comes after a broken token does not matter.  The body of
a text is kept as it is written and is only looked at where it is read.
-/

namespace SpanCourier.Json

inductive Bracket where
  | square
  | curly
  deriving DecidableEq, Inhabited

inductive Token where
  | opening (b : Bracket)
  | closing (b : Bracket)
  | comma
  | colon
  | null
  | boolean (b : Bool)
  /-- the bytes between the quotes, and how many bytes follow them, counted up to four; none do when
  the closing quote is missing -/
  | text (body : Bytes) (beyond : Nat)
  | number (n : Number)
  /-- a number that lacks digits, or has one too many after a leading zero; whether it reaches the end -/
  | brokenNumber (atEnd : Bool)
  /-- a word that the end cuts short; whether it would be null -/
  | cutWord (null : Bool)
  | stray
  deriving DecidableEq, Inhabited

def isBlank (b : UInt8) : Bool := b == 0x20 || b == 0x0a || b == 0x09 || b == 0x0d

/-- the body of a text up to its closing quote, and what follows the quote if there is one; a byte
after a backslash does not close the text -/
def splitBody (acc : Bytes) : Bytes → Bytes × Option Bytes
  | [] => (acc.reverse, none)
  | b :: bs =>
    if b = 0x22 then (acc.reverse, some bs)
    else if b = 0x5c then
      match bs with
      | [] => ((b :: acc).reverse, none)
      | c :: bs => splitBody (c :: b :: acc) bs
    else splitBody (b :: acc) bs

def textToken (bs : Bytes) : Token × Bytes :=
  match splitBody [] bs with
  | (body, some rest) => (.text body (1 + (rest.take 3).length), rest)
  | (body, none) => (.text body 0, [])

/-- the token of a word of which the first letter is read -/
def wordToken (word : Bytes) (token : Token) (bs : Bytes) : Token × Bytes :=
  match word, bs with
  | [], rest => (token, rest)
  | _ :: _, [] => (.cutWord (token == .null), [])
  | w :: word, b :: bs => if w = b then wordToken word token bs else (.stray, bs)

def exponentToken (n : Number) (bs : Bytes) : Token × Bytes :=
  match bs with
  | [] => (.number n, [])
  | b :: rest =>
    if b = 0x65 ∨ b = 0x45 then
      let (down, rest) := match rest with
        | s :: rest' => if s = 0x2b then (false, rest') else if s = 0x2d then (true, rest')
          else (false, rest)
        | [] => (false, [])
      let digits := rest.takeWhile Number.isDigit
      let rest := rest.dropWhile Number.isDigit
      if digits.isEmpty then (.brokenNumber rest.isEmpty, rest)
      else (.number { n with exponent := some (down, digits) }, rest)
    else (.number n, bs)

/-- takes in the fraction of a number, if there is one, and what may follow it -/
def fractionToken (n : Number) (bs : Bytes) : Token × Bytes :=
  match bs with
  | [] => (.number n, [])
  | b :: rest =>
    if b = 0x2e then
      let digits := rest.takeWhile Number.isDigit
      let rest := rest.dropWhile Number.isDigit
      if digits.isEmpty then (.brokenNumber rest.isEmpty, rest)
      else exponentToken { n with fraction := digits } rest
    else exponentToken n bs

def numberToken (negative : Bool) (bs : Bytes) : Token × Bytes :=
  match bs with
  | [] => (.brokenNumber true, [])
  | b :: rest =>
    if b = 0x30 then
      if (rest.takeWhile Number.isDigit).isEmpty then
        fractionToken { negative, whole := [b] } rest
      else (.brokenNumber false, rest)
    else
      let digits := bs.takeWhile Number.isDigit
      if digits.isEmpty then (.brokenNumber false, rest)
      else fractionToken { negative, whole := digits } (bs.dropWhile Number.isDigit)

def token (b : UInt8) (bs : Bytes) : Token × Bytes :=
  if b = 0x22 then textToken bs
  else if b = 0x2c then (.comma, bs)
  else if b = 0x3a then (.colon, bs)
  else if b = 0x5b then (.opening .square, bs)
  else if b = 0x5d then (.closing .square, bs)
  else if b = 0x7b then (.opening .curly, bs)
  else if b = 0x7d then (.closing .curly, bs)
  else if b = 0x2d then numberToken true bs
  else if Number.isDigit b then numberToken false (b :: bs)
  else if b = 0x6e then wordToken (utf8 "ull") .null bs
  else if b = 0x74 then wordToken (utf8 "rue") (.boolean true) bs
  else if b = 0x66 then wordToken (utf8 "alse") (.boolean false) bs
  else (.stray, bs)

/-- cuts bytes into tokens, after those of `acc` in reverse.  Every step takes a byte, so as many steps
as there are bytes are enough. -/
def tokensIn : (steps : Nat) → (acc : List Token) → Bytes → List Token
  | _, acc, [] => acc.reverse
  | 0, acc, _ :: _ => acc.reverse
  | steps + 1, acc, b :: bs =>
    if isBlank b then tokensIn steps acc bs
    else
      let (t, rest) := token b bs
      tokensIn steps (t :: acc) rest

def tokens (bs : Bytes) : List Token := tokensIn bs.length [] bs

end SpanCourier.Json
