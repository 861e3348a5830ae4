import SpanCourier.Failure

/-!
# what a call carries beside its body

Credentials and the deadline of a call travel as texts beside its body.

* `bearerValue`    the credential of a bearer token;
* `deadlineText`   a time limit in the finest unit that needs at most eight digits.
-/

namespace SpanCourier

/-- whether a byte may stand in a value: all but the controls, of which the tab may -/
def isValueByte (b : UInt8) : Bool := b == 0x09 || (0x20 ≤ b && b ≠ 0x7f)

def bearerValue (token : String) : Except ConfigError Bytes :=
  let value := utf8 ("Bearer " ++ token)
  if value.all isValueByte then .ok value else .error (.transport "invalid bearer token")

def asciiText? (value : Bytes) : Option String :=
  if value.all (· < 0x80) then ofUtf8? value else none

def maxDeadlineUnits : Nat := 99999999

/-- the units of time limits, the finest first, each with the number of nanoseconds in it -/
def deadlineUnits : List (String × Nat) := [
  ("n", 1), ("u", 1000), ("m", 1000000), ("S", 1000000000), ("M", 60000000000),
  ("H", 3600000000000)]

/-- a time limit in the first of some units that fits, or in the last -/
def deadlineIn (nanos : Nat) : List (String × Nat) → String
  | [] => ""
  | [(unit, n)] => toString (nanos / n) ++ unit
  | (unit, n) :: units =>
    if nanos / n ≤ maxDeadlineUnits then toString (nanos / n) ++ unit else deadlineIn nanos units

def deadlineText (millis : UInt64) : String := deadlineIn (millis.toNat * 1000000) deadlineUnits

inductive Interceptor where
  | bearer (value : Bytes)
  | refuse (status : Status)
  | tellDeadline
  deriving DecidableEq, Inhabited

def Interceptor.refusal? (i : Interceptor) (timeoutMillis : Option UInt64) : Option Status :=
  match i with
  | .bearer _ => none
  | .refuse status => some status
  | .tellDeadline => some ⟨.aborted, (timeoutMillis.map deadlineText).getD "none"⟩

end SpanCourier
