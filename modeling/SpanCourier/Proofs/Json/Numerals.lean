import SpanCourier.Proofs.Json.Grammar

/-!
# numbers as tokens

A number has no end of its own: it goes on as long as digits, a point or an exponent do.  Where it
is followed by what may follow a value, it is one token, and that token has the parts it was written
in.

* `tokens_number`    the token of a number;
* `isWhole_digitsOfNat`  a natural number is written as its digits;
* `value_whole`          and digits are read as the number that they stand for.
-/

namespace SpanCourier.Json

/-! ## runs of digits -/

/-- what does not go on with a digit -/
def NoDigit (rest : Bytes) : Prop := ∀ b ∈ rest.head?, Number.isDigit b = false

theorem Ends.noDigit {rest : Bytes} (h : Ends rest) : NoDigit rest := by
  cases rest with
  | nil => exact fun _ h => nomatch h
  | cons b rest =>
    intro c hc
    rw [List.head?_cons, Option.mem_some_iff] at hc
    exact hc ▸ h.no_number.1

theorem takeWhile_digits {ds rest : Bytes} (h : ∀ b ∈ ds, Number.isDigit b = true)
    (hr : NoDigit rest) : (ds ++ rest).takeWhile Number.isDigit = ds := by
  rw [List.takeWhile_append_of_pos h]
  cases rest with
  | nil => simp
  | cons b rest => simp [hr b rfl]

theorem dropWhile_digits {ds rest : Bytes} (h : ∀ b ∈ ds, Number.isDigit b = true)
    (hr : NoDigit rest) : (ds ++ rest).dropWhile Number.isDigit = rest := by
  rw [List.dropWhile_append_of_pos h]
  cases rest with
  | nil => simp
  | cons b rest => simp [hr b rfl]

theorem IsDigits.isEmpty {ds : Bytes} (h : IsDigits ds) : ds.isEmpty = false := by
  cases ds with
  | nil => exact absurd rfl h.1
  | cons => rfl

theorem ne_of_isDigit {d : UInt8} (h : Number.isDigit d = true) (b : UInt8)
    (hb : Number.isDigit b = false) : d ≠ b := by
  rintro rfl
  rw [h] at hb
  cases hb

theorem exponentToken_spelled {e : Option (Bool × Bytes)} {exponent rest : Bytes}
    (he : IsExponent e exponent) (hr : Ends rest) (n : Number) (hn : n.exponent = none) :
    exponentToken n (exponent ++ rest) = (.number { n with exponent := e }, rest) := by
  have hkeep : { n with exponent := none } = n := by rw [← hn]
  cases he with
  | absent =>
    rw [List.nil_append, hkeep]
    cases rest with
    | nil => rfl
    | cons b rest =>
      have hb := hr.no_number
      rw [exponentToken.eq_def]
      simp only [hb.2.2.1, hb.2.2.2, or_self, if_false]
  | @unsigned e ds letter digits =>
    obtain ⟨d, ds, rfl⟩ := List.exists_cons_of_ne_nil digits.1
    have hd := ne_of_isDigit (digits.2 d List.mem_cons_self)
    rw [exponentToken.eq_def]
    simp only [List.cons_append, letter, hd 0x2b rfl, hd 0x2d rfl, if_true, if_false]
    rw [← List.cons_append, takeWhile_digits digits.2 hr.noDigit,
      dropWhile_digits digits.2 hr.noDigit, digits.isEmpty]
    rfl
  | @plus e ds letter digits =>
    rw [exponentToken.eq_def]
    simp only [List.cons_append, letter, if_true]
    rw [takeWhile_digits digits.2 hr.noDigit, dropWhile_digits digits.2 hr.noDigit, digits.isEmpty]
    rfl
  | @minus e ds letter digits =>
    rw [exponentToken.eq_def]
    simp only [List.cons_append, letter, (by decide : (0x2d : UInt8) ≠ 0x2b), if_true, if_false]
    rw [takeWhile_digits digits.2 hr.noDigit, dropWhile_digits digits.2 hr.noDigit, digits.isEmpty]
    rfl

/-- neither an exponent nor the end of a number goes on with a digit or a point -/
theorem IsExponent.head {e : Option (Bool × Bytes)} {exponent rest : Bytes}
    (he : IsExponent e exponent) (hr : Ends rest) :
    ∀ b ∈ (exponent ++ rest).head?, Number.isDigit b = false ∧ b ≠ 0x2e := by
  have hletter {e b : UInt8} {bs : Bytes} (letter : e = 0x65 ∨ e = 0x45)
      (hb : b ∈ (e :: bs).head?) : Number.isDigit b = false ∧ b ≠ 0x2e := by
    rw [List.head?_cons, Option.mem_some_iff] at hb
    rcases letter with rfl | rfl <;> subst hb <;> decide
  intro b hb
  cases he with
  | absent =>
    cases rest with
    | nil => exact nomatch hb
    | cons c rest =>
      rw [List.nil_append, List.head?_cons, Option.mem_some_iff] at hb
      exact hb ▸ ⟨hr.no_number.1, hr.no_number.2.1⟩
  | unsigned letter _ => exact hletter letter hb
  | plus letter _ => exact hletter letter hb
  | minus letter _ => exact hletter letter hb

theorem IsExponent.noDigit {e : Option (Bool × Bytes)} {exponent rest : Bytes}
    (he : IsExponent e exponent) (hr : Ends rest) : NoDigit (exponent ++ rest) :=
  fun b hb => (he.head hr b hb).1

theorem fractionToken_spelled {ds fraction exponent rest : Bytes} {e : Option (Bool × Bytes)}
    (hf : IsFraction ds fraction) (he : IsExponent e exponent) (hr : Ends rest) (n : Number)
    (hfraction : n.fraction = []) (hexponent : n.exponent = none) :
    fractionToken n (fraction ++ (exponent ++ rest))
      = (.number { n with fraction := ds, exponent := e }, rest) := by
  cases hf with
  | absent =>
    have hn : ({ n with exponent := e } : Number) = { n with fraction := [], exponent := e } := by
      rw [← hfraction]
    rw [List.nil_append, ← hn, ← exponentToken_spelled he hr n hexponent]
    have hhead := he.head hr
    revert hhead
    cases exponent ++ rest with
    | nil => exact fun _ => rfl
    | cons b bs =>
      intro hhead
      rw [fractionToken, if_neg (hhead b rfl).2]
  | present digits =>
    rw [List.cons_append, fractionToken, if_pos rfl]
    dsimp only
    rw [takeWhile_digits digits.2 (he.noDigit hr), dropWhile_digits digits.2 (he.noDigit hr),
      digits.isEmpty]
    exact exponentToken_spelled he hr { n with fraction := ds } hexponent

theorem IsFraction.noDigit {ds fraction exponent rest : Bytes} {e : Option (Bool × Bytes)}
    (hf : IsFraction ds fraction) (he : IsExponent e exponent) (hr : Ends rest) :
    NoDigit (fraction ++ (exponent ++ rest)) := by
  cases hf with
  | absent => exact he.noDigit hr
  | present =>
    intro b hb
    rw [List.cons_append, List.head?_cons, Option.mem_some_iff] at hb
    exact hb ▸ rfl

theorem numberToken_spelled {n : Number} {fraction exponent rest : Bytes}
    (h : n.IsSpelled fraction exponent) (hr : Ends rest) :
    numberToken n.negative (n.whole ++ (fraction ++ (exponent ++ rest))) = (.number n, rest) := by
  obtain ⟨negative, whole, fractionDigits, exponentPart⟩ := n
  obtain ⟨hwhole, hf, he⟩ := h
  have hnext : NoDigit (fraction ++ (exponent ++ rest)) := hf.noDigit he hr
  have hrest (whole : Bytes) : fractionToken { negative, whole } (fraction ++ (exponent ++ rest))
      = (.number ⟨negative, whole, fractionDigits, exponentPart⟩, rest) :=
    fractionToken_spelled hf he hr { negative, whole } rfl rfl
  cases hwhole with
  | zero =>
    have hempty : ((fraction ++ (exponent ++ rest)).takeWhile Number.isDigit).isEmpty = true := by
      rw [← List.nil_append (fraction ++ (exponent ++ rest)),
        takeWhile_digits (List.forall_mem_nil _) hnext]
      rfl
    rw [List.cons_append, List.nil_append, numberToken, if_pos rfl, if_pos hempty]
    exact hrest [0x30]
  | digits nonzero digits =>
    rw [List.cons_append, numberToken, if_neg nonzero]
    dsimp only
    rw [← List.cons_append, takeWhile_digits digits.2 hnext, dropWhile_digits digits.2 hnext,
      digits.isEmpty]
    exact hrest _

theorem IsWhole.head {whole : Bytes} (h : IsWhole whole) :
    ∃ d ds, whole = d :: ds ∧ Number.isDigit d = true := by
  cases h with
  | zero => exact ⟨0x30, [], rfl, rfl⟩
  | digits _ digits => exact ⟨_, _, rfl, digits.2 _ List.mem_cons_self⟩

theorem token_of_isDigit {d : UInt8} (h : Number.isDigit d = true) (bs : Bytes) :
    token d bs = numberToken false (d :: bs) := by
  have hne := ne_of_isDigit h
  simp only [token, hne 0x22 rfl, hne 0x2c rfl, hne 0x3a rfl, hne 0x5b rfl, hne 0x5d rfl,
    hne 0x7b rfl, hne 0x7d rfl, hne 0x2d rfl, h, if_false, if_true]

theorem isBlank_of_isDigit {d : UInt8} (h : Number.isDigit d = true) : isBlank d = false := by
  have hne := ne_of_isDigit h
  simp [isBlank, hne 0x20 rfl, hne 0x0a rfl, hne 0x09 rfl, hne 0x0d rfl]

theorem tokens_number {n : Number} {fraction exponent rest : Bytes}
    (h : n.IsSpelled fraction exponent) (hr : Ends rest) :
    tokens (n.sign ++ n.whole ++ fraction ++ exponent ++ rest) = .number n :: tokens rest := by
  have htoken := numberToken_spelled h hr
  simp only [List.append_assoc]
  cases hn : n.negative with
  | true =>
    rw [hn] at htoken
    rw [Number.sign, hn, if_pos rfl]
    have hminus : token 0x2d (n.whole ++ (fraction ++ (exponent ++ rest))) = (.number n, rest) :=
      htoken
    rw [List.cons_append, List.nil_append, tokens_cons rfl, hminus]
  | false =>
    rw [hn] at htoken
    obtain ⟨d, ds, hwhole, hd⟩ := h.whole.head
    rw [Number.sign, hn, if_neg (by decide), List.nil_append]
    rw [hwhole, List.cons_append] at htoken ⊢
    rw [tokens_cons (isBlank_of_isDigit hd), token_of_isDigit hd, htoken]

/-! ## natural numbers -/

namespace Number

theorem digitsOfNat_eq (n : Nat) :
    digitsOfNat n = (Nat.toDigits 10 n).flatMap String.utf8EncodeChar := by
  rw [digitsOfNat, Nat.toString_eq_repr, Nat.repr_eq_ofList_toDigits, utf8_ofList]

theorem digitsOfNat_of_lt {n : Nat} (h : n < 10) : digitsOfNat n = [UInt8.ofNat (0x30 + n)] := by
  rw [digitsOfNat_eq, Nat.toDigits_of_lt_base h]
  have all : ∀ m ∈ List.range 10,
      [Nat.digitChar m].flatMap String.utf8EncodeChar = [UInt8.ofNat (0x30 + m)] := by decide
  exact all n (List.mem_range.mpr h)

theorem digitsOfNat_of_le {n : Nat} (h : 10 ≤ n) :
    digitsOfNat n = digitsOfNat (n / 10) ++ digitsOfNat (n % 10) := by
  rw [digitsOfNat_eq, digitsOfNat_eq, digitsOfNat_eq, Nat.toDigits_of_base_le (by decide) h,
    List.flatMap_append, Nat.toDigits_of_lt_base (Nat.mod_lt n (by decide))]

theorem natOfDigits_append_digit (ds : Bytes) (d : UInt8) :
    natOfDigits (ds ++ [d]) = 10 * natOfDigits ds + digitValue d := by
  simp [natOfDigits]

theorem natOfDigits_digitsOfNat (n : Nat) : natOfDigits (digitsOfNat n) = n := by
  induction n using Nat.strongRecOn with
  | ind n ih =>
    have hvalue {m : Nat} (hm : m < 10) : digitValue (UInt8.ofNat (0x30 + m)) = m := by
      have all : ∀ m ∈ List.range 10, digitValue (UInt8.ofNat (0x30 + m)) = m := by decide
      exact all m (List.mem_range.mpr hm)
    by_cases h : n < 10
    · rw [digitsOfNat_of_lt h, natOfDigits, List.foldl_cons, List.foldl_nil, hvalue h]
      omega
    · have hmod : n % 10 < 10 := Nat.mod_lt n (by decide)
      rw [digitsOfNat_of_le (Nat.not_lt.mp h), digitsOfNat_of_lt hmod, natOfDigits_append_digit,
        ih (n / 10) (by omega), hvalue hmod]
      omega

theorem isDigit_digit {m : Nat} (h : m < 10) : isDigit (UInt8.ofNat (0x30 + m)) = true := by
  have all : ∀ m ∈ List.range 10, isDigit (UInt8.ofNat (0x30 + m)) = true := by decide
  exact all m (List.mem_range.mpr h)

theorem digit_ne_zero {m : Nat} (h : m < 10) (hm : m ≠ 0) : UInt8.ofNat (0x30 + m) ≠ 0x30 := by
  have all : ∀ m ∈ List.range 10, m ≠ 0 → UInt8.ofNat (0x30 + m) ≠ 0x30 := by decide
  exact all m (List.mem_range.mpr h) hm

/-- the digits of a number that is not zero do not begin with a zero -/
theorem digitsOfNat_of_ne_zero {n : Nat} (h : n ≠ 0) :
    ∃ d ds, digitsOfNat n = d :: ds ∧ d ≠ 0x30 ∧ IsDigits (d :: ds) := by
  induction n using Nat.strongRecOn with
  | ind n ih =>
    by_cases hlt : n < 10
    · refine ⟨_, [], digitsOfNat_of_lt hlt, digit_ne_zero hlt h, List.cons_ne_nil _ _, ?_⟩
      intro b hb
      rw [List.mem_singleton.mp hb]
      exact isDigit_digit hlt
    · obtain ⟨d, ds, hds, hd, _, hdigits⟩ := ih (n / 10) (by omega) (by omega)
      have hmod : n % 10 < 10 := Nat.mod_lt n (by decide)
      refine ⟨d, ds ++ [UInt8.ofNat (0x30 + n % 10)], ?_, hd, List.cons_ne_nil _ _, ?_⟩
      · rw [digitsOfNat_of_le (Nat.not_lt.mp hlt), hds, digitsOfNat_of_lt hmod, List.cons_append]
      · intro b hb
        rw [← List.cons_append, List.mem_append, List.mem_singleton] at hb
        rcases hb with hb | rfl
        · exact hdigits b hb
        · exact isDigit_digit hmod

theorem isWhole_digitsOfNat (n : Nat) : IsWhole (digitsOfNat n) := by
  by_cases h : n = 0
  · rw [h, digitsOfNat_of_lt (by decide)]
    exact .zero
  · obtain ⟨d, ds, hds, hd, hdigits⟩ := digitsOfNat_of_ne_zero h
    rw [hds]
    exact .digits hd hdigits

theorem isSpelled_whole {ds : Bytes} (h : IsWhole ds) : IsSpelled { whole := ds } [] [] :=
  ⟨h, .absent, .absent⟩

theorem value_whole {ds : Bytes} (h : natOfDigits ds < UInt64.size) :
    value { whole := ds } = .natural (natOfDigits ds) := by
  have hwhole : isWhole { whole := ds } = true := rfl
  rw [value]
  simp only [hwhole, h, true_and, and_true]
  rfl

end Number

end SpanCourier.Json
