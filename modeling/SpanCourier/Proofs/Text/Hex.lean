import Mathlib.Data.Nat.Digits.Lemmas
import SpanCourier.Identifier
import SpanCourier.Proofs.Json.Escapes

/-!
# the value of hexadecimal digits

A digit counts by its place in the row of all digits, and a run of digits by the places of its digits
in the run.  What is read from a run is this value, and a run that holds anything else is refused.

* `hexNat?_eq`       the value that is read;
* `placeValue_lastBytes`  the last digits of a run hold the value of the run, as far as they reach;
* `Spells`           a value written in lower case with a fixed number of digits.
-/

namespace SpanCourier

open Json (IsHexDigit)

/-- all digits, in the order of what they count -/
def lowerDigits : Bytes := utf8 "0123456789abcdef"

/-- an ASCII letter in lower case; every other byte stays as it is -/
def lowercase (b : UInt8) : UInt8 := if 0x41 ≤ b ∧ b ≤ 0x5a then b + 0x20 else b

/-- what a digit counts, in either case -/
def digitCount (b : UInt8) : Nat := lowerDigits.idxOf (lowercase b)

/-- the value of a run of digits, of which each counts sixteen times what it would in the next place -/
def placeValue (bs : Bytes) : Nat := Nat.ofDigits 16 (bs.map digitCount).reverse

/-- a run of nothing but digits, in either case -/
def IsHex (bs : Bytes) : Prop := ∀ b ∈ bs, IsHexDigit b

/-- the value `v` is written with `w` digits in lower case -/
structure Spells (w v : Nat) (ds : Bytes) : Prop where
  length_eq : ds.length = w
  lower : ∀ d ∈ ds, d ∈ lowerDigits
  value : placeValue ds = v

/-! ## one digit -/

/-- what holds of the bytes with numbers below 256 holds of every byte -/
theorem forall_byte {p : UInt8 → Prop} (h : ∀ n ∈ List.range 256, p (UInt8.ofNat n)) (b : UInt8) :
    p b := by
  have hb := h b.toNat (List.mem_range.mpr b.toNat_lt)
  rwa [UInt8.ofNat_toNat] at hb

instance (b : UInt8) : Decidable (IsHexDigit b) := inferInstanceAs (Decidable (_ ∨ _ ∨ _))

theorem hexValue?_eq (b : UInt8) :
    hexValue? b = if IsHexDigit b then some (digitCount b) else none := by
  revert b
  exact forall_byte (by decide +kernel)

theorem digitCount_lt {b : UInt8} (h : IsHexDigit b) : digitCount b < 16 := by
  revert h
  exact forall_byte (p := fun b => IsHexDigit b → digitCount b < 16) (by decide +kernel) b

theorem hexDigit_mem_lowerDigits {n : Nat} (h : n < 16) : hexDigit n ∈ lowerDigits := by
  have all : ∀ m ∈ List.range 16, hexDigit m ∈ lowerDigits := by decide +kernel
  exact all n (List.mem_range.mpr h)

theorem isHexDigit_of_mem_lowerDigits {d : UInt8} (h : d ∈ lowerDigits) : IsHexDigit d := by
  have all : ∀ d ∈ lowerDigits, IsHexDigit d := by decide +kernel
  exact all d h

/-- a digit in lower case is the digit that is written for what it counts -/
theorem lowercase_eq_hexDigit {b : UInt8} (h : IsHexDigit b) :
    lowercase b = hexDigit (digitCount b) := by
  revert h
  exact forall_byte (p := fun b => IsHexDigit b → lowercase b = hexDigit (digitCount b))
    (by decide +kernel) b

/-! ## runs of digits -/

theorem placeValue_nil : placeValue [] = 0 := rfl

theorem placeValue_cons (b : UInt8) (bs : Bytes) :
    placeValue (b :: bs) = digitCount b * 16 ^ bs.length + placeValue bs := by
  rw [placeValue, placeValue, List.map_cons, List.reverse_cons, Nat.ofDigits_append,
    Nat.ofDigits_singleton, List.length_reverse, List.length_map, Nat.mul_comm, Nat.add_comm]

theorem hexNatFrom?_eq (acc : Nat) {bs : Bytes} (h : IsHex bs) :
    hexNatFrom? acc bs = some (acc * 16 ^ bs.length + placeValue bs) := by
  induction bs generalizing acc with
  | nil => simp [hexNatFrom?, placeValue_nil]
  | cons b bs ih =>
    have hb : hexValue? b = some (digitCount b) := by
      rw [hexValue?_eq, if_pos (h b List.mem_cons_self)]
    rw [hexNatFrom?, hb]
    dsimp only
    rw [ih _ fun c hc => h c (List.mem_cons_of_mem _ hc), placeValue_cons, List.length_cons]
    congr 1
    ring

theorem hexNatFrom?_eq_none (acc : Nat) {bs : Bytes} (h : ¬ IsHex bs) :
    hexNatFrom? acc bs = none := by
  induction bs generalizing acc with
  | nil => exact absurd (List.forall_mem_nil _) h
  | cons b bs ih =>
    rw [hexNatFrom?, hexValue?_eq]
    by_cases hb : IsHexDigit b
    · rw [if_pos hb]
      exact ih _ fun hbs => h (List.forall_mem_cons.mpr ⟨hb, hbs⟩)
    · rw [if_neg hb]

instance (bs : Bytes) : Decidable (IsHex bs) := inferInstanceAs (Decidable (∀ b ∈ bs, _))

/-- a run of digits is read as its value, and nothing else is read -/
theorem hexNat?_eq (bs : Bytes) : hexNat? bs = if IsHex bs then some (placeValue bs) else none := by
  by_cases h : IsHex bs
  · rw [hexNat?, hexNatFrom?_eq 0 h, if_pos h, Nat.zero_mul, Nat.zero_add]
  · rw [hexNat?, hexNatFrom?_eq_none 0 h, if_neg h]

theorem map_digitCount_lt {bs : Bytes} (h : IsHex bs) :
    ∀ d ∈ (bs.map digitCount).reverse, d < 16 := by
  intro d hd
  obtain ⟨b, hb, rfl⟩ := List.mem_map.mp (List.mem_reverse.mp hd)
  exact digitCount_lt (h b hb)

theorem placeValue_lt {bs : Bytes} (h : IsHex bs) : placeValue bs < 16 ^ bs.length := by
  have hlt := Nat.ofDigits_lt_base_pow_length (by decide) (map_digitCount_lt h)
  rwa [List.length_reverse, List.length_map] at hlt

theorem IsHex.lastBytes {bs : Bytes} (h : IsHex bs) (n : Nat) : IsHex (lastBytes n bs) :=
  fun b hb => h b (List.mem_of_mem_drop hb)

/-- the last digits hold the value, as far as they reach -/
theorem placeValue_lastBytes {bs : Bytes} (h : IsHex bs) (n : Nat) :
    placeValue (lastBytes n bs) = placeValue bs % 16 ^ n := by
  rw [placeValue, placeValue,
    Nat.ofDigits_mod_pow_eq_ofDigits_take n (by decide) _ (map_digitCount_lt h), List.take_reverse,
    List.length_map, SpanCourier.lastBytes, List.map_drop]

/-! ## values in lower case -/

theorem spells_fixedHex (w n : Nat) : Spells w (n % 16 ^ w) (fixedHex w n) := by
  have hdigits : IsHex (fixedHex w n) := Json.isHexDigit_fixedHex w n
  refine ⟨length_fixedHex w n, ?_, ?_⟩
  · induction w generalizing n with
    | zero => exact List.forall_mem_nil _
    | succ w ih =>
      rw [fixedHex, List.forall_mem_append, List.forall_mem_singleton]
      exact ⟨ih (n / 16) (Json.isHexDigit_fixedHex w (n / 16)),
        hexDigit_mem_lowerDigits (Nat.mod_lt n (by decide))⟩
  · have hread := hexNat?_fixedHex w n
    rw [hexNat?_eq, if_pos hdigits] at hread
    exact Option.some.inj hread

theorem placeValue_append_singleton (bs : Bytes) (b : UInt8) :
    placeValue (bs ++ [b]) = 16 * placeValue bs + digitCount b := by
  rw [placeValue, placeValue, List.map_append, List.map_singleton, List.reverse_append,
    List.reverse_singleton, List.singleton_append, Nat.ofDigits_cons, Nat.add_comm]

theorem fixedHex_zero (w : Nat) : fixedHex w 0 = List.replicate w 0x30 := by
  induction w with
  | zero => rfl
  | succ w ih =>
    rw [fixedHex, Nat.zero_div, ih, List.replicate_succ']
    rfl

/-- the value of a run of digits is written as the run in lower case, with zeros before it -/
theorem fixedHex_placeValue {w : Nat} {bs : Bytes} (h : IsHex bs) (hle : bs.length ≤ w) :
    fixedHex w (placeValue bs)
      = List.replicate (w - bs.length) 0x30 ++ bs.map lowercase := by
  -- from the last digit on, since that is the one that is written first
  induction bs using List.reverseRecOn generalizing w with
  | nil => rw [placeValue_nil, fixedHex_zero, List.map_nil, List.append_nil, List.length_nil, Nat.sub_zero]
  | append_singleton bs b ih =>
    obtain ⟨hbs, hb⟩ := List.forall_mem_append.mp h
    have hb : IsHexDigit b := hb b (List.mem_singleton.mpr rfl)
    have hlt := digitCount_lt hb
    rw [List.length_append, List.length_singleton] at hle ⊢
    obtain ⟨w, rfl⟩ : ∃ v, w = v + 1 := ⟨w - 1, by omega⟩
    have hdiv : (16 * placeValue bs + digitCount b) / 16 = placeValue bs := by omega
    have hmod : (16 * placeValue bs + digitCount b) % 16 = digitCount b := by omega
    rw [placeValue_append_singleton, fixedHex, hdiv, hmod, ih hbs (by omega), List.map_append,
      List.map_singleton, lowercase_eq_hexDigit hb, Nat.add_sub_add_right, List.append_assoc]

end SpanCourier
