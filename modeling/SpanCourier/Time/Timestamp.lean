/-!
# timestamps

Spans count time in microseconds since 1970; the messages of the destination hold whole seconds and
nanoseconds apart.

* `toMicros_ofMicros`   the change of unit loses nothing.
-/

namespace SpanCourier

/-- a point in time as whole seconds since 1970 and the nanoseconds after them -/
structure Timestamp where
  seconds : Int64
  nanos : Int32
  deriving DecidableEq, Inhabited

namespace Timestamp

def ofMicros (micros : UInt64) : Timestamp :=
  ⟨(micros / 1000000).toInt64, (micros % 1000000 * 1000).toUInt32.toInt32⟩

def toMicros (t : Timestamp) : Int := t.seconds.toInt * 1000000 + t.nanos.toInt / 1000

theorem toInt_seconds_ofMicros (micros : UInt64) :
    (ofMicros micros).seconds.toInt = (micros.toNat / 1000000 : Nat) := by
  have h : micros.toNat < 2 ^ 64 := micros.toNat_lt
  simp only [ofMicros, Int64.toInt, UInt64.toBitVec_toInt64, BitVec.toInt, UInt64.toNat_toBitVec,
    UInt64.toNat_div]
  have : (1000000 : UInt64).toNat = 1000000 := rfl
  rw [this]
  split <;> omega

theorem toInt_nanos_ofMicros (micros : UInt64) :
    (ofMicros micros).nanos.toInt = (micros.toNat % 1000000 * 1000 : Nat) := by
  have h : micros.toNat < 2 ^ 64 := micros.toNat_lt
  simp only [ofMicros, Int32.toInt, UInt32.toBitVec_toInt32, BitVec.toInt, UInt32.toNat_toBitVec,
    UInt64.toNat_toUInt32, UInt64.toNat_mul, UInt64.toNat_mod]
  have h1 : (1000000 : UInt64).toNat = 1000000 := rfl
  have h2 : (1000 : UInt64).toNat = 1000 := rfl
  rw [h1, h2]
  split <;> omega

theorem toMicros_ofMicros (micros : UInt64) : (ofMicros micros).toMicros = micros.toNat := by
  rw [toMicros, toInt_seconds_ofMicros, toInt_nanos_ofMicros]
  omega

end Timestamp

/-- the sum of two counts of microseconds, or the greatest one when the sum is too large -/
def addMicros (a b : UInt64) : UInt64 :=
  if a.toNat + b.toNat < UInt64.size then a + b else UInt64.ofNat (UInt64.size - 1)

end SpanCourier
