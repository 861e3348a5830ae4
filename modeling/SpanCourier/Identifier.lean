import SpanCourier.Text.Hex

/-!
# trace and span identifiers

Identifiers of spans come as text that should be hexadecimal.  A trace identifier counts 128 bits
and is written with 32 digits, a span identifier counts 64 bits.  Longer texts keep their last
digits; a text whose last digits are not all hexadecimal stands for zero.

* `TraceId.ofText_text`   the written form of a trace identifier is read back;
* `clientHalf_clientHalf` marking the client half of a span is undone by doing it again, for every
                          identifier but the mark itself.
-/

namespace SpanCourier

def traceIdLength : Nat := 32

/-- the last `n` bytes, or all when there are fewer -/
def lastBytes (n : Nat) (bs : Bytes) : Bytes := bs.drop (bs.length - n)

/-- the value of the last `n` bytes of a text as digits, zero when some of them is no digit -/
def tailValue (n : Nat) (s : String) : Nat :=
  match hexNat? (lastBytes n (utf8 s)) with
  | some v => v
  | none => 0

abbrev TraceId := BitVec 128

def TraceId.ofText (s : String) : TraceId := BitVec.ofNat 128 (tailValue traceIdLength s)

def TraceId.digits (id : TraceId) : Bytes := fixedHex traceIdLength id.toNat

def TraceId.text (id : TraceId) : String :=
  String.ofList (id.digits.map fun b => Char.ofNat b.toNat)

/-- the identifier of a span; zero means that there is none -/
abbrev SpanId := UInt64

def SpanId.ofText (s : String) : SpanId := UInt64.ofNat (tailValue 16 s)

/-- tells the client half of a span that two hosts recorded from its server half -/
def clientMark : SpanId := 0x3f6a2ec3c810c2ab

/-- the identifier of the client half of a span; zero stays zero -/
def SpanId.clientHalf (id : SpanId) : SpanId := if id = 0 then 0 else id ^^^ clientMark

theorem lastBytes_of_length_le {n : Nat} {bs : Bytes} (h : bs.length ≤ n) :
    lastBytes n bs = bs := by
  simp [lastBytes, Nat.sub_eq_zero_of_le h]

theorem TraceId.length_digits (id : TraceId) : id.digits.length = 32 := length_fixedHex _ _

theorem SpanId.clientHalf_clientHalf {id : SpanId} (h : id ≠ clientMark) :
    (SpanId.clientHalf id).clientHalf = id := by
  unfold SpanId.clientHalf
  by_cases h0 : id = 0
  · simp [h0]
  · have hne : id ^^^ clientMark ≠ 0 := fun he => h (UInt64.xor_eq_zero_iff.mp he)
    rw [if_neg h0, if_neg hne, UInt64.xor_assoc, UInt64.xor_self, UInt64.xor_zero]

theorem TraceId.utf8_text (id : TraceId) : utf8 id.text = id.digits :=
  utf8_ofList_ascii (fixedHex_ascii _ _)

theorem TraceId.ofText_text (id : TraceId) : TraceId.ofText id.text = id := by
  have hlen : id.digits.length ≤ traceIdLength := Nat.le_of_eq (length_digits id)
  rw [ofText, tailValue, utf8_text, lastBytes_of_length_le hlen, digits, hexNat?_fixedHex, Nat.pow_eq]
  have h : id.toNat % 16 ^ traceIdLength = id.toNat := Nat.mod_eq_of_lt id.isLt
  simp only [h]
  rw [BitVec.ofNat_toNat, BitVec.setWidth_eq]

end SpanCourier
