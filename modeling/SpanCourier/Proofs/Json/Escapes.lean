import SpanCourier.Json.Skip
import SpanCourier.Proofs.Json.Grammar

/-!
# texts that are only looked at

A text that nobody asks for is not read, but its body must be well formed.  Which characters its
escapes stand for does not matter, as long as the digits of numbers are digits.

* `isHexDigit_fixedHex`  what is written in hexadecimal are digits;
* `checkEscapes_isBody`  what may stand between quotes may be skipped.
-/

namespace SpanCourier.Json

/-! ## hexadecimal digits -/

theorem isHexDigit_hexDigit {n : Nat} (h : n < 16) : IsHexDigit (hexDigit n) := by
  have all : ∀ m ∈ List.range 16, IsHexDigit (hexDigit m) := by
    unfold IsHexDigit
    decide
  exact all n (List.mem_range.mpr h)

theorem isHexDigit_fixedHex (w n : Nat) : ∀ b ∈ fixedHex w n, IsHexDigit b := by
  induction w generalizing n with
  | zero => exact List.forall_mem_nil _
  | succ w ih =>
    intro b hb
    rcases List.mem_append.mp hb with hb | hb
    · exact ih _ b hb
    · rw [List.mem_singleton.mp hb]
      exact isHexDigit_hexDigit (Nat.mod_lt n (by decide))

theorem IsHexDigit.hexValue? {b : UInt8} (h : IsHexDigit b) : ∃ d, hexValue? b = some d := by
  unfold SpanCourier.hexValue?
  split
  · exact ⟨_, rfl⟩
  · split
    · exact ⟨_, rfl⟩
    · rename_i hdecimal hlower
      exact ⟨_, if_pos ((h.resolve_left hdecimal).resolve_left hlower)⟩

theorem hexNatFrom?_of_isHexDigit {bs : Bytes} (h : ∀ b ∈ bs, IsHexDigit b) (acc : Nat) :
    ∃ n, hexNatFrom? acc bs = some n := by
  induction bs generalizing acc with
  | nil => exact ⟨acc, rfl⟩
  | cons b bs ih =>
    obtain ⟨d, hd⟩ := (h b List.mem_cons_self).hexValue?
    rw [hexNatFrom?, hd]
    exact ih (fun c hc => h c (List.mem_cons_of_mem _ hc)) _

/-! ## what is only looked at -/

theorem shortEscape?_of_mem {c : UInt8}
    (h : c ∈ [0x22, 0x5c, 0x2f, 0x62, 0x66, 0x6e, 0x72, 0x74]) :
    ∃ e, shortEscape? c = some e := by
  simp only [List.mem_cons, List.not_mem_nil, or_false] at h
  rcases h with rfl | rfl | rfl | rfl | rfl | rfl | rfl | rfl <;> exact ⟨_, rfl⟩

theorem checkEscapes_isBody {beyond : Nat} (hb : beyond ≠ 0) {body : Bytes} (h : IsBody body) :
    checkEscapes beyond body = .ok () := by
  induction h with
  | nil => exact if_neg hb
  | plain hcontrol hquote hbackslash _ ih =>
    rw [checkEscapes.eq_def]
    simpa only [hcontrol, hbackslash, if_false, ne_eq, not_false_eq_true, if_true] using ih
  | short known _ ih =>
    obtain ⟨e, he⟩ := shortEscape?_of_mem known
    rw [checkEscapes.eq_def]
    simpa [he] using ih
  | coded digits _ ih =>
    obtain ⟨n, hn⟩ := hexNatFrom?_of_isHexDigit digits 0
    have hu : shortEscape? 0x75 = none := by decide
    rw [checkEscapes.eq_def]
    simpa [hu, hexNat?, hn] using ih

end SpanCourier.Json
