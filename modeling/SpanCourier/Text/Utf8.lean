/-!
# the bytes of a text

`utf8 s` lists the UTF-8 bytes of `s`, and `ofUtf8? bs` reads a text from its bytes, refusing what
is not UTF-8.

* `ofUtf8?_utf8`     every text is read back from its own bytes;
* `utf8_of_ofUtf8?`  and only from these;
* `utf8_append`      the bytes of two texts put together;
* `utf8_ofList_ascii`  a text of ASCII characters has one byte for each.
-/

namespace SpanCourier

abbrev Bytes := List UInt8

def utf8 (s : String) : Bytes := s.toUTF8.data.toList

def ofUtf8? (bs : Bytes) : Option String := String.fromUTF8? ⟨bs.toArray⟩

theorem utf8_append (s t : String) : utf8 (s ++ t) = utf8 s ++ utf8 t := by
  simp [utf8]

theorem length_utf8 (s : String) : (utf8 s).length = s.utf8ByteSize := rfl

theorem ofUtf8?_utf8 (s : String) : ofUtf8? (utf8 s) = some s :=
  dif_pos s.isValidUTF8

theorem utf8_of_ofUtf8? {bs : Bytes} {s : String} (h : ofUtf8? bs = some s) : utf8 s = bs := by
  unfold ofUtf8? String.fromUTF8? at h
  split at h
  · cases h
    simp [utf8, String.fromUTF8]
  · cases h

theorem utf8_injective {s t : String} (h : utf8 s = utf8 t) : s = t := by
  have := ofUtf8?_utf8 s
  rw [h, ofUtf8?_utf8] at this
  exact (Option.some.inj this).symm

theorem utf8_ofList (cs : List Char) :
    utf8 (String.ofList cs) = cs.flatMap String.utf8EncodeChar := by
  simp [utf8, List.utf8Encode]

theorem utf8EncodeChar_of_ascii {b : UInt8} (h : b < 0x80) :
    String.utf8EncodeChar (Char.ofNat b.toNat) = [b] := by
  have hb : b.toNat < 128 := h
  have hc : b.toNat.isValidChar := Or.inl (by omega)
  have hv : (Char.ofNat b.toNat).val.toNat = b.toNat := by
    rw [Char.ofNat, dif_pos hc]
    rfl
  have hle : b.toNat ≤ 0x7f := by omega
  simp only [String.utf8EncodeChar, hv, if_pos hle, UInt8.ofNat_toNat]

theorem utf8_ofList_ascii {bs : Bytes} (h : ∀ b ∈ bs, b < 0x80) :
    utf8 (String.ofList (bs.map fun b => Char.ofNat b.toNat)) = bs := by
  rw [utf8_ofList]
  induction bs with
  | nil => rfl
  | cons b bs ih =>
    rw [List.map_cons, List.flatMap_cons, utf8EncodeChar_of_ascii (h b List.mem_cons_self),
      ih fun b' hb' => h b' (List.mem_cons_of_mem _ hb')]
    rfl

end SpanCourier
