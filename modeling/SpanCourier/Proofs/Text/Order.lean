import SpanCourier.Dict
import SpanCourier.Text.Utf8

/-!
# the order of texts is the order of their bytes

Texts are ordered by their characters, one after the other, and this is the order of their UTF-8 bytes
as well: of two characters the greater one has the greater bytes, where they first differ.

* `encodeChar_lt`   two characters that differ, whatever follows them;
* `utf8_lt_iff`     two texts.
-/

namespace SpanCourier

/-- the numbers of the bytes of a character, which has a number below `0x110000` -/
def charBytes (v : Nat) : List Nat :=
  if v ≤ 0x7f then [v]
  else if v ≤ 0x7ff then [v / 64 + 192, v % 64 + 128]
  else if v ≤ 0xffff then [v / 4096 + 224, v / 64 % 64 + 128, v % 64 + 128]
  else [v / 262144 + 240, v / 4096 % 64 + 128, v / 64 % 64 + 128, v % 64 + 128]

theorem val_lt (c : Char) : c.val.toNat < 0x110000 := by
  rcases c.valid with h | h
  · exact Nat.lt_trans h (by decide)
  · exact h.2

theorem encodeChar_eq (c : Char) :
    String.utf8EncodeChar c = (charBytes c.val.toNat).map UInt8.ofNat := by
  have hlt := val_lt c
  unfold String.utf8EncodeChar charBytes
  generalize c.val.toNat = v at hlt
  dsimp only
  split
  · rfl
  · split
    · have h : v / 64 % 32 = v / 64 := by omega
      rw [h]; rfl
    · split
      · have h : v / 4096 % 16 = v / 4096 := by omega
        rw [h]; rfl
      · have h : v / 262144 % 8 = v / 262144 := by omega
        rw [h]; rfl

theorem ofNat_lt_ofNat {a b : Nat} (ha : a < 256) (hb : b < 256) :
    UInt8.ofNat a < UInt8.ofNat b ↔ a < b := by
  rw [UInt8.lt_iff_toNat_lt, UInt8.toNat_ofNat', UInt8.toNat_ofNat', Nat.mod_eq_of_lt ha,
    Nat.mod_eq_of_lt hb]

theorem ofNat_eq_ofNat {a b : Nat} (ha : a < 256) (hb : b < 256) :
    UInt8.ofNat a = UInt8.ofNat b ↔ a = b := by
  rw [← UInt8.toNat_inj, UInt8.toNat_ofNat', UInt8.toNat_ofNat', Nat.mod_eq_of_lt ha,
    Nat.mod_eq_of_lt hb]

theorem charBytes_lt {v w : Nat} (h : v < w) (hw : w < 0x110000) (as bs : Bytes) :
    (charBytes v).map UInt8.ofNat ++ as < (charBytes w).map UInt8.ofNat ++ bs := by
  -- the characters have one to four bytes each, and what differs first is a whole group of bits
  unfold charBytes
  repeat' split
  all_goals
    simp (disch := omega) only [List.map_cons, List.map_nil, List.cons_append,
      List.cons_lt_cons_iff, ofNat_lt_ofNat, ofNat_eq_ofNat]
    omega

theorem encodeChar_lt {c d : Char} (h : c < d) (as bs : Bytes) :
    String.utf8EncodeChar c ++ as < String.utf8EncodeChar d ++ bs := by
  rw [encodeChar_eq, encodeChar_eq]
  exact charBytes_lt h (val_lt d) as bs

theorem flatMap_encodeChar_lt {cs ds : List Char} (h : cs < ds) :
    cs.flatMap String.utf8EncodeChar < ds.flatMap String.utf8EncodeChar := by
  induction ds generalizing cs with
  | nil => exact absurd h (List.not_lt_nil cs)
  | cons d ds ih =>
    cases cs with
    | nil =>
      obtain ⟨b, bs, hb⟩ := List.exists_cons_of_ne_nil (String.utf8EncodeChar_ne_nil (c := d))
      rw [List.flatMap_nil, List.flatMap_cons, hb]
      exact List.nil_lt_cons b _
    | cons c cs =>
      rw [List.flatMap_cons, List.flatMap_cons]
      rcases List.cons_lt_cons_iff.mp h with hlt | ⟨rfl, hlt⟩
      · exact encodeChar_lt hlt _ _
      · exact List.append_left_lt (ih hlt)

/-- texts are in the order of their bytes -/
theorem utf8_lt_iff {s t : String} : utf8 s < utf8 t ↔ s < t := by
  have hlt : ∀ {s t : String}, s < t → utf8 s < utf8 t := by
    intro s t h
    rw [← String.ofList_toList (s := s), ← String.ofList_toList (s := t), utf8_ofList, utf8_ofList]
    exact flatMap_encodeChar_lt (String.lt_iff.mp h)
  refine ⟨fun h => ?_, hlt⟩
  by_cases hst : s < t
  · exact hst
  · by_cases heq : s = t
    · rw [heq] at h
      exact absurd h (List.lt_irrefl _)
    · exact absurd h (List.lt_asymm (hlt (Dict.lt_of_not_lt_of_ne hst heq)))

end SpanCourier
