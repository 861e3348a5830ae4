import SpanCourier.Text.Utf8

/-!
# hexadecimal digits

`hexNat?` reads a run of hexadecimal digits of either case, `fixedHex w n` writes the last `w`
digits of `n` in lower case.  `hexNat?_fixedHex`: what is written is read back, below `16 ^ w`.
-/

namespace SpanCourier

def hexValue? (b : UInt8) : Option Nat :=
  if 0x30 ≤ b ∧ b ≤ 0x39 then some (b.toNat - 0x30)
  else if 0x61 ≤ b ∧ b ≤ 0x66 then some (b.toNat - 0x61 + 10)
  else if 0x41 ≤ b ∧ b ≤ 0x46 then some (b.toNat - 0x41 + 10)
  else none

def hexDigit (n : Nat) : UInt8 :=
  if n < 10 then UInt8.ofNat (0x30 + n) else UInt8.ofNat (0x61 + (n - 10))

/-- the value of a run of digits read after the value `acc`; none when some byte is no digit -/
def hexNatFrom? (acc : Nat) : Bytes → Option Nat
  | [] => some acc
  | b :: bs => match hexValue? b with
    | some d => hexNatFrom? (16 * acc + d) bs
    | none => none

/-- the value of a run of digits, zero for the empty run; none when some byte is no digit -/
def hexNat? (bs : Bytes) : Option Nat := hexNatFrom? 0 bs

/-- the last `w` hexadecimal digits of `n`, in lower case -/
def fixedHex : Nat → Nat → Bytes
  | 0, _ => []
  | w + 1, n => fixedHex w (n / 16) ++ [hexDigit (n % 16)]

theorem length_fixedHex (w n : Nat) : (fixedHex w n).length = w := by
  induction w generalizing n with
  | zero => rfl
  | succ w ih => simp [fixedHex, ih]

theorem hexValue?_hexDigit {n : Nat} (h : n < 16) : hexValue? (hexDigit n) = some n := by
  have all : ∀ m ∈ List.range 16, hexValue? (hexDigit m) = some m := by decide
  exact all n (List.mem_range.mpr h)

theorem hexNatFrom?_append (acc : Nat) (as bs : Bytes) :
    hexNatFrom? acc (as ++ bs) = (hexNatFrom? acc as).bind (hexNatFrom? · bs) := by
  induction as generalizing acc with
  | nil => rfl
  | cons a as ih =>
    simp only [List.cons_append, hexNatFrom?]
    cases hexValue? a with
    | none => rfl
    | some d => exact ih _

theorem hexNat?_fixedHex (w n : Nat) : hexNat? (fixedHex w n) = some (n % Nat.pow 16 w) := by
  rw [Nat.pow_eq]
  induction w generalizing n with
  | zero => simp [hexNat?, fixedHex, hexNatFrom?, Nat.mod_one]
  | succ w ih =>
    have h := ih (n / 16)
    unfold hexNat? at h ⊢
    rw [fixedHex, hexNatFrom?_append, h]
    simp only [Option.bind_some, hexNatFrom?, hexValue?_hexDigit (Nat.mod_lt n (by decide))]
    rw [Nat.pow_succ, Nat.mul_comm (16 ^ w) 16, Nat.mod_mul]
    congr 1
    omega

theorem hexDigit_ascii {n : Nat} (h : n < 16) : hexDigit n < 0x80 := by
  have all : ∀ m ∈ List.range 16, hexDigit m < 0x80 := by decide
  exact all n (List.mem_range.mpr h)

theorem fixedHex_ascii (w n : Nat) : ∀ b ∈ fixedHex w n, b < 0x80 := by
  induction w generalizing n with
  | zero => simp [fixedHex]
  | succ w ih =>
    intro b hb
    rcases List.mem_append.mp hb with hb | hb
    · exact ih _ b hb
    · rw [List.mem_singleton.mp hb]
      exact hexDigit_ascii (Nat.mod_lt n (by decide))

end SpanCourier
