import Mathlib.Data.Nat.ModEq
import Mathlib.Tactic.NormNum
import SpanCourier.Proofs.Text.Hex
import SpanCourier.Proofs.Text.Order
import SpanCourier.Proofs.Text.Truncation

/-!
# identifiers of texts

Every text has an identifier, whatever its length, the case of its digits and the characters that it
holds.  That of a trace is the value of the last 32 digits and that of a span the value of the last 16,
so the two agree on a text of nothing but digits; a text that has other bytes there stands for zero.
A cut in the middle of a character leaves bytes that are no digits.

* `tailValue_eq`                the value of the last bytes of a text;
* `isBoundary_of_ascii`         a text can be cut before bytes that are ASCII;
* `Identifies`                  the identifiers of a text;
* `identifiers_are_canonical`   every text, and when two texts name the same trace.
-/

namespace SpanCourier

/-! ## the last bytes of a text -/

theorem length_lastBytes (n : Nat) (bs : Bytes) : (lastBytes n bs).length = min n bs.length := by
  rw [lastBytes, List.length_drop]
  omega

theorem placeValue_lastBytes_lt {n : Nat} {bs : Bytes} (h : IsHex (lastBytes n bs)) :
    placeValue (lastBytes n bs) < 16 ^ n := by
  refine Nat.lt_of_lt_of_le (placeValue_lt h) (Nat.pow_le_pow_right (by decide) ?_)
  rw [length_lastBytes]
  exact Nat.min_le_left _ _

theorem tailValue_eq (n : Nat) (s : String) :
    tailValue n s
      = if IsHex (lastBytes n (utf8 s)) then placeValue (lastBytes n (utf8 s)) else 0 := by
  rw [tailValue, hexNat?_eq]
  by_cases h : IsHex (lastBytes n (utf8 s))
  · simp only [if_pos h]
  · simp only [if_neg h]

theorem tailValue_of_isHex {n : Nat} {s : String} (h : IsHex (lastBytes n (utf8 s))) :
    tailValue n s = placeValue (lastBytes n (utf8 s)) := by
  rw [tailValue_eq, if_pos h]

theorem tailValue_lt (n : Nat) (s : String) : tailValue n s < 16 ^ n := by
  rw [tailValue_eq]
  split
  · rename_i h
    exact placeValue_lastBytes_lt h
  · exact Nat.pow_pos (by decide)

/-- the last bytes of a text that is empty or that ends in anything but digits count nothing -/
theorem tailValue_eq_zero {n : Nat} {s : String}
    (h : s = "" ∨ ¬ IsHex (lastBytes n (utf8 s))) : tailValue n s = 0 := by
  rw [tailValue_eq]
  rcases h with rfl | h
  · have hnil : lastBytes n (utf8 "") = [] := List.drop_nil
    rw [hnil, placeValue_nil, ite_self]
  · rw [if_neg h]

theorem TraceId.toNat_ofText (s : String) : (ofText s).toNat = tailValue 32 s := by
  rw [ofText, BitVec.toNat_ofNat, traceIdLength]
  exact Nat.mod_eq_of_lt (Nat.lt_of_lt_of_le (tailValue_lt 32 s) (by decide))

theorem SpanId.toNat_ofText (s : String) : (ofText s).toNat = tailValue 16 s := by
  rw [ofText, UInt64.toNat_ofNat']
  exact Nat.mod_eq_of_lt (Nat.lt_of_lt_of_le (tailValue_lt 16 s) (by decide))

/-! ## cuts before ASCII -/

/-- the bytes of a character that is not ASCII are not ASCII -/
theorem charBytes_ge {v : Nat} (h : 0x7f < v) (hlt : v < 0x110000) :
    ∀ n ∈ charBytes v, 128 ≤ n ∧ n < 256 := by
  rw [charBytes, if_neg (Nat.not_le.mpr h)]
  repeat' split
  all_goals
    simp only [List.mem_cons, List.not_mem_nil, or_false, forall_eq_or_imp, forall_eq]
    omega

theorem encodeChar_ascii_or (c : Char) :
    (String.utf8EncodeChar c).length = 1 ∨ ∀ b ∈ String.utf8EncodeChar c, ¬ b < 0x80 := by
  rw [encodeChar_eq]
  by_cases h : c.val.toNat ≤ 0x7f
  · left
    rw [charBytes, if_pos h]
    rfl
  · right
    intro b hb
    obtain ⟨n, hn, rfl⟩ := List.mem_map.mp hb
    obtain ⟨hge, hlt⟩ := charBytes_ge (Nat.not_le.mp h) (val_lt c) n hn
    exact (ofNat_lt_ofNat hlt (by decide)).not.mpr (Nat.not_lt.mpr hge)

/-- the bytes of some characters can be cut into those of two runs wherever only ASCII follows -/
theorem exists_flatMap_encodeChar {cs : List Char} {n : Nat}
    (hle : n ≤ (cs.flatMap String.utf8EncodeChar).length)
    (h : ∀ b ∈ (cs.flatMap String.utf8EncodeChar).drop n, b < 0x80) :
    ∃ ds es, cs = ds ++ es ∧ (ds.flatMap String.utf8EncodeChar).length = n := by
  induction cs generalizing n with
  | nil => exact ⟨[], [], rfl, (Nat.le_zero.mp hle).symm⟩
  | cons c cs ih =>
    rw [List.flatMap_cons] at hle h
    rcases Nat.eq_zero_or_pos n with rfl | hpos
    · exact ⟨[], c :: cs, rfl, rfl⟩
    · by_cases hc : (String.utf8EncodeChar c).length ≤ n
      · rw [List.length_append] at hle
        rw [List.drop_append, List.drop_of_length_le hc, List.nil_append] at h
        obtain ⟨ds, es, rfl, hds⟩ := ih (by omega) h
        refine ⟨c :: ds, es, rfl, ?_⟩
        rw [List.flatMap_cons, List.length_append, hds]
        omega
      · -- a cut inside of the first character leaves one of its bytes, and none of them is ASCII
        have hlt : n < (String.utf8EncodeChar c).length := Nat.lt_of_not_le hc
        have hhigh := (encodeChar_ascii_or c).resolve_left (by omega)
        have hmem : (String.utf8EncodeChar c)[n] ∈ (String.utf8EncodeChar c
            ++ cs.flatMap String.utf8EncodeChar).drop n := by
          rw [List.drop_append_of_le_length hlt.le, List.drop_eq_getElem_cons hlt]
          exact List.mem_append_left _ List.mem_cons_self
        exact absurd (h _ hmem) (hhigh _ (List.getElem_mem hlt))

/-- a text can be cut before bytes that are ASCII -/
theorem isBoundary_of_ascii {s : String} {n : Nat} (hle : n ≤ s.utf8ByteSize)
    (h : ∀ b ∈ (utf8 s).drop n, b < 0x80) : IsBoundary s n := by
  have hbytes : utf8 s = s.toList.flatMap String.utf8EncodeChar := by
    rw [← utf8_ofList, String.ofList_toList]
  rw [← length_utf8, hbytes] at hle
  rw [hbytes] at h
  obtain ⟨ds, es, hs, hds⟩ := exists_flatMap_encodeChar hle h
  refine isBoundary_iff.mpr ⟨String.ofList ds, String.ofList es, ?_, ?_⟩
  · rw [← String.ofList_append, ← hs, String.ofList_toList]
  · rw [← length_utf8, utf8_ofList, hds]

theorem IsHex.ascii {bs : Bytes} (h : IsHex bs) : ∀ b ∈ bs, b < 0x80 := by
  intro b hb
  have hdigit := h b hb
  revert hdigit
  exact forall_byte (p := fun b => Json.IsHexDigit b → b < 0x80) (by decide +kernel) b

/-- what begins inside of a character has other bytes than digits -/
theorem not_isHex_lastBytes {s : String} {n : Nat} (h : ¬ IsBoundary s (s.utf8ByteSize - n)) :
    ¬ IsHex (lastBytes n (utf8 s)) :=
  fun hhex => h (isBoundary_of_ascii (Nat.sub_le _ _) hhex.ascii)

/-! ## the identifiers of a text -/

/-- the identifier of a span with all its digits -/
def SpanId.text (id : SpanId) : String :=
  String.ofList ((fixedHex 16 id.toNat).map fun b => Char.ofNat b.toNat)

theorem SpanId.utf8_text (id : SpanId) : utf8 id.text = fixedHex 16 id.toNat :=
  utf8_ofList_ascii (fixedHex_ascii _ _)

theorem SpanId.spells_text (id : SpanId) : Spells 16 id.toNat (utf8 id.text) := by
  have h := spells_fixedHex 16 id.toNat
  rwa [Nat.mod_eq_of_lt (Nat.lt_of_lt_of_le id.toNat_lt (by decide)), ← utf8_text] at h

theorem TraceId.spells_text (id : TraceId) : Spells 32 id.toNat (utf8 id.text) := by
  have h := spells_fixedHex 32 id.toNat
  have htext : utf8 id.text = fixedHex 32 id.toNat := utf8_text id
  rwa [Nat.mod_eq_of_lt (Nat.lt_of_lt_of_le id.isLt (by decide)), ← htext] at h

/-- what the identifiers of a text are -/
structure Identifies (s : String) : Prop where
  /-- the identifier of a trace is written with 32 digits in lower case -/
  traceSpelled : Spells 32 (TraceId.ofText s).toNat (utf8 (TraceId.ofText s).text)
  traceLength : (TraceId.ofText s).text.length = 32
  /-- its digits are the bytes of its text -/
  traceDigits : (TraceId.ofText s).digits = utf8 (TraceId.ofText s).text
  /-- its text has the same identifier again -/
  traceFixed : TraceId.ofText (TraceId.ofText s).text = TraceId.ofText s
  /-- it is the value of the last 32 bytes, if these are digits -/
  traceValue : IsHex (lastBytes 32 (utf8 s)) →
    (TraceId.ofText s).toNat = placeValue (lastBytes 32 (utf8 s))
  /-- which are then brought to lower case, with zeros before them -/
  tracePadded : IsHex (lastBytes 32 (utf8 s)) → (TraceId.ofText s).digits
    = List.replicate (32 - (lastBytes 32 (utf8 s)).length) 0x30
      ++ (lastBytes 32 (utf8 s)).map lowercase
  traceZero : s = "" ∨ ¬ IsHex (lastBytes 32 (utf8 s)) →
    (TraceId.ofText s).digits = List.replicate 32 0x30
  /-- the identifier of a span is the value of the last 16 bytes, if these are digits -/
  spanValue : IsHex (lastBytes 16 (utf8 s)) →
    (SpanId.ofText s).toNat = placeValue (lastBytes 16 (utf8 s))
  spanZero : s = "" ∨ ¬ IsHex (lastBytes 16 (utf8 s)) → SpanId.ofText s = 0
  /-- among others where these begin inside of a character -/
  spanInside : ¬ IsBoundary s (s.utf8ByteSize - 16) → SpanId.ofText s = 0
  /-- a text of nothing but digits names a span by the low half of what it names a trace by -/
  spanLow : IsHex (utf8 s) →
    (SpanId.ofText s).toNat = placeValue (utf8 (TraceId.ofText s).text) % 2 ^ 64

theorem TraceId.digits_eq (s : String) : (ofText s).digits = fixedHex 32 (tailValue 32 s) := by
  rw [digits, traceIdLength, toNat_ofText]

theorem TraceId.text_inj {a b : TraceId} : a.text = b.text ↔ a = b := by
  refine ⟨fun h => ?_, congrArg TraceId.text⟩
  rw [← ofText_text a, h, ofText_text]

theorem SpanId.ofText_text (id : SpanId) : ofText id.text = id := by
  have hspelled := spells_text id
  have hhex : IsHex (utf8 id.text) := fun d hd => isHexDigit_of_mem_lowerDigits (hspelled.lower d hd)
  refine UInt64.toNat_inj.mp ?_
  rw [toNat_ofText, tailValue, lastBytes_of_length_le hspelled.length_eq.le, hexNat?_eq, if_pos hhex]
  exact hspelled.value

theorem SpanId.ofText_eq_zero {s : String} (h : s = "" ∨ ¬ IsHex (lastBytes 16 (utf8 s))) :
    ofText s = 0 := by
  rw [ofText, tailValue_eq_zero h]
  rfl

theorem TraceId.toNat_ofText_of_isHex {s : String} (h : IsHex (utf8 s)) :
    (ofText s).toNat = placeValue (utf8 s) % 2 ^ 128 := by
  rw [toNat_ofText, tailValue_of_isHex (h.lastBytes 32), placeValue_lastBytes h]
  norm_num

theorem SpanId.toNat_ofText_of_isHex {s : String} (h : IsHex (utf8 s)) :
    (ofText s).toNat = placeValue (utf8 s) % 2 ^ 64 := by
  rw [toNat_ofText, tailValue_of_isHex (h.lastBytes 16), placeValue_lastBytes h]
  norm_num

theorem identifies (s : String) : Identifies s where
  traceSpelled := (TraceId.ofText s).spells_text
  traceLength := by
    rw [TraceId.text, String.length_ofList, List.length_map, TraceId.length_digits]
  traceDigits := (TraceId.utf8_text _).symm
  traceFixed := TraceId.ofText_text _
  traceValue h := by rw [TraceId.toNat_ofText, tailValue_of_isHex h]
  tracePadded h := by
    rw [TraceId.digits_eq, tailValue_of_isHex h, fixedHex_placeValue h]
    rw [length_lastBytes]
    exact Nat.min_le_left _ _
  traceZero h := by rw [TraceId.digits_eq, tailValue_eq_zero h, fixedHex_zero]
  spanValue h := by rw [SpanId.toNat_ofText, tailValue_of_isHex h]
  spanZero := SpanId.ofText_eq_zero
  spanInside h := SpanId.ofText_eq_zero (Or.inr (not_isHex_lastBytes h))
  spanLow h := by
    rw [(TraceId.ofText s).spells_text.value, TraceId.toNat_ofText_of_isHex h,
      SpanId.toNat_ofText_of_isHex h, Nat.mod_mod_of_dvd _ (by decide)]

/-- Every text has its identifiers, those of a text of nothing but digits are its value modulo 128 and 64
bits.  Two texts of digits name the same trace just if their values agree modulo 128 bits, in whatever
case and with however many zeros they are written; and every identifier of a span is read back from its
sixteen digits in lower case. -/
theorem identifiers_are_canonical :
    (∀ s, Identifies s)
    ∧ (∀ s t, IsHex (utf8 s) → IsHex (utf8 t) →
      ((TraceId.ofText s).text = (TraceId.ofText t).text
        ↔ placeValue (utf8 s) ≡ placeValue (utf8 t) [MOD 2 ^ 128]))
    ∧ ∀ id : SpanId, Spells 16 id.toNat (utf8 id.text) ∧ SpanId.ofText id.text = id := by
  refine ⟨identifies, fun s t hs ht => ?_, fun id => ⟨id.spells_text, id.ofText_text⟩⟩
  rw [TraceId.text_inj, ← BitVec.toNat_inj, TraceId.toNat_ofText_of_isHex hs,
    TraceId.toNat_ofText_of_isHex ht]
  rfl

/-- an identifier that is written in two ways, one of them with more digits than fit, and a text that is
cut inside of its only letter -/
theorem identifiers_are_canonical_two_spellings :
    let short := "00aF"
    let long := "e00000000000000000000000000000000af"
    let cut := "é000000000000001"
    (TraceId.ofText short).text = (TraceId.ofText long).text
      ∧ (TraceId.ofText long).toNat = 0xaf
      ∧ (SpanId.ofText long).toNat = placeValue (utf8 (TraceId.ofText long).text) % 2 ^ 64
      ∧ SpanId.ofText cut = 0 ∧ (TraceId.ofText cut).digits = List.replicate 32 0x30 := by
  intro short long cut
  obtain ⟨hall, hsame, -⟩ := identifiers_are_canonical
  have hshort : IsHex (utf8 short) := by decide +kernel
  have hlong : IsHex (utf8 long) := by decide +kernel
  have hinside : ¬ IsBoundary cut (cut.utf8ByteSize - 16) := by decide +kernel
  refine ⟨(hsame _ _ hshort hlong).mpr (by decide +kernel), ?_, (hall long).spanLow hlong,
    (hall cut).spanInside hinside, (hall cut).traceZero (Or.inr (by decide +kernel))⟩
  rw [(hall long).traceValue (hlong.lastBytes 32)]
  decide +kernel

end SpanCourier
