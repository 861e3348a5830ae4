import Mathlib.Algebra.Order.Ring.Nat
import Mathlib.Data.String.Basic
import SpanCourier.Time.Calendar

/-!
# numerals in a text

A number is written in at least so many digits, and in just as many where they are enough for it.  Such
numerals are in the order of their values, also at the same place of two longer texts.  The numbers of a
text are read from its longest runs of digits.

* `IsNumeral`                 the digits of a number;
* `lt_iff_ofDigitChars_lt`    numerals of one length are in the order of their values;
* `numbers`                   the numbers of a text;
* `spaced`                    a text with zeros for its digits.
-/

namespace SpanCourier

/-- digits that spell a number -/
structure IsNumeral (ds : List Char) (n : Nat) : Prop where
  digits : ∀ c ∈ ds, c.isDigit = true
  ne_nil : ds ≠ []
  value : Nat.ofDigitChars 10 ds 0 = n

theorem isNumeral_toString (n : Nat) : IsNumeral (toString n).toList n := by
  rw [Nat.toString_eq_ofList_toDigits, String.toList_ofList]
  exact ⟨fun c => Nat.isDigit_of_mem_toDigits (by decide) (Nat.le_refl 10), Nat.toDigits_ne_nil,
    Nat.ofDigitChars_ten_toDigits⟩

theorem padded_toList (w n : Nat) :
    (padded w n).toList = List.replicate (w - (toString n).length) '0' ++ (toString n).toList := by
  rw [padded, String.toList_append, String.toList_ofList]

theorem isNumeral_padded (w n : Nat) : IsNumeral (padded w n).toList n := by
  have h := isNumeral_toString n
  rw [padded_toList]
  constructor
  · intro c hc
    rcases List.mem_append.mp hc with hzero | hdigit
    · rw [List.eq_of_mem_replicate hzero]
      rfl
    · exact h.digits c hdigit
  · exact List.append_ne_nil_of_right_ne_nil _ h.ne_nil
  · rw [Nat.ofDigitChars_append, Nat.ofDigitChars_replicate_zero, Nat.mul_zero, h.value]

theorem length_padded {w n : Nat} (hpos : 0 < w) (hn : n < 10 ^ w) :
    (padded w n).toList.length = w := by
  have hle : (toString n).length ≤ w := by
    rw [Nat.toString_eq_ofList_toDigits, String.length_ofList]
    exact (Nat.length_toDigits_le_iff (by decide) hpos).mpr hn
  rw [padded_toList, List.length_append, List.length_replicate, String.length_toList]
  exact Nat.sub_add_cancel hle

/-! ## the order of numerals -/

theorem isDigit_iff (c : Char) : c.isDigit = true ↔ 48 ≤ c.toNat ∧ c.toNat ≤ 57 := by
  rw [Char.isDigit, Bool.and_eq_true, decide_eq_true_iff, decide_eq_true_iff]
  rfl

/-- the first digit counts as often as what follows it has values -/
theorem ofDigitChars_cons_zero (c : Char) (cs : List Char) :
    Nat.ofDigitChars 10 (c :: cs) 0 = 10 ^ cs.length * (c.toNat - 48) + Nat.ofDigitChars 10 cs 0 := by
  rw [Nat.ofDigitChars_cons, Nat.ofDigitChars_eq_ofDigitChars_zero, Nat.mul_zero, Nat.zero_add]
  rfl

theorem ofDigitChars_lt {ds : List Char} (h : ∀ c ∈ ds, c.isDigit = true) :
    Nat.ofDigitChars 10 ds 0 < 10 ^ ds.length := by
  induction ds with
  | nil => exact Nat.one_pos
  | cons c cs ih =>
    obtain ⟨hc, hcs⟩ := List.forall_mem_cons.mp h
    have hdigit : c.toNat - 48 ≤ 9 := by
      have := (isDigit_iff c).mp hc
      omega
    have hfirst := Nat.mul_le_mul_left (10 ^ cs.length) hdigit
    have hrest := ih hcs
    rw [ofDigitChars_cons_zero, List.length_cons, Nat.pow_succ]
    omega

theorem place_lt_iff {b x y v w : Nat} (hv : v < b) (hw : w < b) :
    b * x + v < b * y + w ↔ x < y ∨ x = y ∧ v < w := by
  rcases Nat.lt_trichotomy x y with h | rfl | h
  · have hmul : b * x + b ≤ b * y := Nat.mul_le_mul_left b h
    omega
  · omega
  · have hmul : b * y + b ≤ b * x := Nat.mul_le_mul_left b h
    omega

/-- numerals of one length are in the order of their values -/
theorem lt_iff_ofDigitChars_lt {as bs : List Char} (ha : ∀ c ∈ as, c.isDigit = true)
    (hb : ∀ c ∈ bs, c.isDigit = true) (h : as.length = bs.length) :
    as < bs ↔ Nat.ofDigitChars 10 as 0 < Nat.ofDigitChars 10 bs 0 := by
  induction as generalizing bs with
  | nil =>
    obtain rfl := List.length_eq_zero_iff.mp h.symm
    simp
  | cons a as ih =>
    cases bs with
    | nil => cases h
    | cons b bs =>
      obtain ⟨ha, has⟩ := List.forall_mem_cons.mp ha
      obtain ⟨hb, hbs⟩ := List.forall_mem_cons.mp hb
      have hlength : as.length = bs.length := Nat.succ.inj h
      have hlt : a < b ↔ a.toNat - 48 < b.toNat - 48 := by
        have hle := (isDigit_iff a).mp ha
        rw [Char.lt_def]
        change a.toNat < b.toNat ↔ _
        omega
      have heq : a = b ↔ a.toNat - 48 = b.toNat - 48 := by
        have ha' := (isDigit_iff a).mp ha
        have hb' := (isDigit_iff b).mp hb
        rw [← Char.toNat_inj]
        omega
      rw [List.cons_lt_cons_iff, ih has hbs hlength, hlt, heq, ofDigitChars_cons_zero,
        ofDigitChars_cons_zero, hlength,
        place_lt_iff (hlength ▸ ofDigitChars_lt has) (ofDigitChars_lt hbs)]

theorem append_lt_append_iff {as bs cs ds : List Char} (h : as.length = bs.length) :
    as ++ cs < bs ++ ds ↔ as < bs ∨ as = bs ∧ cs < ds := by
  induction as generalizing bs with
  | nil =>
    obtain rfl := List.length_eq_zero_iff.mp h.symm
    simp
  | cons a as ih =>
    cases bs with
    | nil => cases h
    | cons b bs =>
      rw [List.cons_append, List.cons_append, List.cons_lt_cons_iff, List.cons_lt_cons_iff,
        ih (Nat.succ.inj h), List.cons.injEq]
      tauto

theorem padded_append_lt_iff {w a b : Nat} (hpos : 0 < w) (ha : a < 10 ^ w) (hb : b < 10 ^ w)
    (c : Char) (cs ds : List Char) :
    (padded w a).toList ++ c :: cs < (padded w b).toList ++ c :: ds
      ↔ a < b ∨ a = b ∧ cs < ds := by
  have hnumA := isNumeral_padded w a
  have hnumB := isNumeral_padded w b
  have hlength : (padded w a).toList.length = (padded w b).toList.length := by
    rw [length_padded hpos ha, length_padded hpos hb]
  have heq : (padded w a).toList = (padded w b).toList ↔ a = b := by
    constructor
    · intro h
      rw [← hnumA.value, h, hnumB.value]
    · rintro rfl
      rfl
  rw [append_lt_append_iff hlength, lt_iff_ofDigitChars_lt hnumA.digits hnumB.digits hlength,
    hnumA.value, hnumB.value, heq, List.cons_lt_cons_self]

/-! ## reading numerals -/

/-- the numbers of a text, each from a longest run of digits -/
def numbers (cs : List Char) : List Nat :=
  ((cs.splitOnP fun c => !c.isDigit).filter fun ds => !ds.isEmpty).map (Nat.ofDigitChars 10 · 0)

theorem numbers_nil : numbers [] = [] := rfl

theorem numbers_cons {c : Char} (hc : c.isDigit = false) (cs : List Char) :
    numbers (c :: cs) = numbers cs := by
  have hsplit : (c :: cs).splitOnP (fun c => !c.isDigit) = [] :: cs.splitOnP fun c => !c.isDigit :=
    List.splitOnP_append_cons_of_forall_mem (List.forall_mem_nil _) c (by simp [hc]) cs
  rw [numbers, hsplit]
  rfl

/-- a numeral is read up to the next character that is none of its digits -/
theorem IsNumeral.numbers {ds : List Char} {n : Nat} (h : IsNumeral ds n) {c : Char}
    (hc : c.isDigit = false) (cs : List Char) : numbers (ds ++ c :: cs) = n :: numbers cs := by
  have hsplit : (ds ++ c :: cs).splitOnP (fun c => !c.isDigit)
      = ds :: cs.splitOnP fun c => !c.isDigit :=
    List.splitOnP_append_cons_of_forall_mem (fun d hd => by simp [h.digits d hd]) c (by simp [hc]) cs
  have hne : ds.isEmpty = false := List.isEmpty_eq_false_iff.mpr h.ne_nil
  rw [SpanCourier.numbers, hsplit, List.filter_cons_of_pos (by simp [hne]), List.map_cons, h.value]
  rfl

theorem IsNumeral.numbers_self {ds : List Char} {n : Nat} (h : IsNumeral ds n) :
    SpanCourier.numbers ds = [n] := by
  have hsplit : ds.splitOnP (fun c => !c.isDigit) = [ds] :=
    List.splitOnP_eq_singleton fun d hd => by simp [h.digits d hd]
  have hne : ds.isEmpty = false := List.isEmpty_eq_false_iff.mpr h.ne_nil
  rw [SpanCourier.numbers, hsplit, List.filter_cons_of_pos (by simp [hne]), List.map_cons, h.value]
  rfl

/-- a text with zeros for its digits -/
def spaced (cs : List Char) : List Char := cs.map fun c => if c.isDigit then '0' else c

theorem length_spaced (cs : List Char) : (spaced cs).length = cs.length := List.length_map _

theorem spaced_append (cs ds : List Char) : spaced (cs ++ ds) = spaced cs ++ spaced ds :=
  List.map_append

theorem spaced_cons {c : Char} (hc : c.isDigit = false) (cs : List Char) :
    spaced (c :: cs) = c :: spaced cs := by
  rw [spaced, List.map_cons, if_neg (by simp [hc])]
  rfl

theorem IsNumeral.spaced {ds : List Char} {n : Nat} (h : IsNumeral ds n) :
    spaced ds = List.replicate ds.length '0' := by
  rw [SpanCourier.spaced, List.eq_replicate_iff]
  refine ⟨List.length_map _, fun c hc => ?_⟩
  obtain ⟨d, hd, rfl⟩ := List.mem_map.mp hc
  exact if_pos (h.digits d hd)

theorem spaced_padded {w n : Nat} (hpos : 0 < w) (hn : n < 10 ^ w) :
    spaced (padded w n).toList = List.replicate w '0' := by
  rw [(isNumeral_padded w n).spaced, length_padded hpos hn]

end SpanCourier
