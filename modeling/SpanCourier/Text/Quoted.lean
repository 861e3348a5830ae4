import SpanCourier.Text.Printable
import SpanCourier.Text.Hex

/-!
# quoted texts

`quoted s` shows a text between double quotes so that every character can be made out: quotes and
backslashes are escaped, and what is not shown as it is stands as its code point.
-/

namespace SpanCourier

def hexText (n : Nat) : String := String.ofList (Nat.toDigits 16 n)

def codePointText (c : Char) : String := "\\u\x7b" ++ hexText c.toNat ++ "\x7d"

def quotedChar (c : Char) : String :=
  if c = '\x00' then "\\0"
  else if c = '\t' then "\\t"
  else if c = '\r' then "\\r"
  else if c = '\n' then "\\n"
  else if c = '"' then "\\\""
  else if c = '\\' then "\\\\"
  else if isPrintable c then c.toString
  else codePointText c

def quoted (s : String) : String := "\"" ++ String.join (s.toList.map quotedChar) ++ "\""

end SpanCourier
