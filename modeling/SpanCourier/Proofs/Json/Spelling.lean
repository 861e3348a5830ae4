import SpanCourier.Proofs.Text.Hex

/-!
# how texts and objects are spelled

A text has many spellings between quotes.  A byte of it stands as it is, or in short after a backslash,
and a character may stand as its number in hexadecimal digits, in two halves if it takes more than four.
The keys of an object are texts in any spelling, and blanks may stand around them.

* `IsBodyOf`                  the spellings of a run of bytes;
* `IsBodyOf.unescape`         each of them is read as the text;
* `isBodyOf_escape`           what is written is one of them;
* `IsTextOf`, `IsKeyOf`       texts between quotes, and with blanks around them;
* `IsObject`, `IsMember`      objects and their members.
-/

namespace SpanCourier.Json

/-! ## spellings -/

/-- the bytes that have a short form, and the letter of it -/
def shortForms : List (UInt8 × UInt8) := [(0x22, 0x22), (0x5c, 0x5c), (0x2f, 0x2f), (0x08, 0x62),
  (0x0c, 0x66), (0x0a, 0x6e), (0x0d, 0x72), (0x09, 0x74)]

/-- a number after a backslash, in four hexadecimal digits -/
def IsCoded (n : Nat) (t : Bytes) : Prop :=
  ∃ ds, ds.length = 4 ∧ IsHex ds ∧ placeValue ds = n ∧ t = 0x5c :: 0x75 :: ds

/-- how bytes are spelled between quotes -/
inductive IsBodyOf : Bytes → Bytes → Prop
  | nil : IsBodyOf [] []
  | plain {b : UInt8} {bs body : Bytes} (control : ¬ b < 0x20) (quote : b ≠ 0x22)
      (backslash : b ≠ 0x5c) (rest : IsBodyOf bs body) : IsBodyOf (b :: bs) (b :: body)
  | short {b e : UInt8} {bs body : Bytes} (known : (b, e) ∈ shortForms) (rest : IsBodyOf bs body) :
      IsBodyOf (b :: bs) (0x5c :: e :: body)
  | coded {c : Char} {t bs body : Bytes} (code : IsCoded c.toNat t) (rest : IsBodyOf bs body) :
      IsBodyOf (String.utf8EncodeChar c ++ bs) (t ++ body)
  /-- the halves of a number are in ranges that no character has -/
  | halved {c : Char} {high low : Nat} {t u bs body : Bytes}
      (isHigh : 0xd800 ≤ high ∧ high ≤ 0xdbff) (isLow : 0xdc00 ≤ low ∧ low ≤ 0xdfff)
      (number : c.toNat = (high - 0xd800) * 0x400 + (low - 0xdc00) + 0x10000)
      (first : IsCoded high t) (second : IsCoded low u) (rest : IsBodyOf bs body) :
      IsBodyOf (String.utf8EncodeChar c ++ bs) (t ++ (u ++ body))

/-- a spelling of a text between quotes -/
def IsTextOf (s : String) (t : Bytes) : Prop := ∃ body, IsBodyOf (utf8 s) body ∧ t = quote body

/-- a text of some kind with blanks around it -/
def Padded (p : Bytes → Prop) (t : Bytes) : Prop :=
  ∃ before bs after, AreBlank before ∧ p bs ∧ AreBlank after ∧ t = before ++ bs ++ after

/-- a key of an object that stands for a name -/
def IsKeyOf (name : String) (key : Bytes) : Prop := Padded (IsTextOf name) key

/-- how an object is written; if it has no members, blanks may stand between its brackets -/
inductive IsObject : List (Bytes × Bytes) → Bytes → Prop
  | members (written : List (Bytes × Bytes)) : IsObject written (objectText written)
  | blank {blanks : Bytes} (areBlank : AreBlank blanks) : IsObject [] (0x7b :: blanks ++ [0x7d])

/-- a member is written with a key that stands for its name -/
structure IsMember {α : Type} (p : Bytes → α → Prop) (w : Bytes × Bytes) (m : String × α) :
    Prop where
  key : IsKeyOf m.1 w.1
  value : p w.2 m.2

/-! ## every spelling is read -/

theorem IsCoded.exists_digits {n : Nat} {t : Bytes} (h : IsCoded n t) :
    ∃ d₁ d₂ d₃ d₄, (∀ d ∈ [d₁, d₂, d₃, d₄], IsHexDigit d) ∧ hexNat? [d₁, d₂, d₃, d₄] = some n
      ∧ t = [0x5c, 0x75, d₁, d₂, d₃, d₄] := by
  obtain ⟨ds, hlength, hhex, hvalue, rfl⟩ := h
  obtain ⟨d₁, d₂, d₃, d₄, rfl⟩ := List.length_eq_four.mp hlength
  refine ⟨d₁, d₂, d₃, d₄, hhex, ?_, rfl⟩
  rw [hexNat?_eq, if_pos hhex, hvalue]

theorem IsCoded.isBody {n : Nat} {t body : Bytes} (h : IsCoded n t) (hbody : IsBody body) :
    IsBody (t ++ body) := by
  obtain ⟨d₁, d₂, d₃, d₄, hdigits, -, rfl⟩ := h.exists_digits
  exact .coded hdigits hbody

theorem IsBodyOf.isBody {bs body : Bytes} (h : IsBodyOf bs body) : IsBody body := by
  induction h with
  | nil => exact .nil
  | plain hcontrol hquote hbackslash _ ih => exact .plain hcontrol hquote hbackslash ih
  | @short b e bs body known _ ih =>
    have hletters : ∀ f ∈ shortForms, f.2 ∈ [0x22, 0x5c, 0x2f, 0x62, 0x66, 0x6e, 0x72, 0x74] := by
      simp [shortForms]
    exact .short (hletters (b, e) known) ih
  | coded code _ ih => exact code.isBody ih
  | halved _ _ _ first second _ ih => exact first.isBody (second.isBody ih)

section
variable {beyond : Nat} {acc body : Bytes}

theorem unescapeBytes_plain {b : UInt8} (hcontrol : ¬ b < 0x20) (hbackslash : b ≠ 0x5c) :
    unescapeBytes beyond acc (b :: body) = unescapeBytes beyond (b :: acc) body := by
  rw [unescapeBytes.eq_def]
  simp only [hcontrol, hbackslash, if_false, ne_eq, not_false_eq_true, if_true]

theorem unescapeBytes_short {b e : UInt8} (h : (b, e) ∈ shortForms) :
    unescapeBytes beyond acc (0x5c :: e :: body) = unescapeBytes beyond (b :: acc) body := by
  have hforms : ∀ f ∈ shortForms, shortEscape? f.2 = some f.1 := by
    simp [shortForms, shortEscape?]
  rw [unescapeBytes.eq_def]
  simp [hforms (b, e) h]

theorem codePointBytes_toNat (c : Char) : codePointBytes c.toNat = String.utf8EncodeChar c := by
  rw [codePointBytes, Char.ofNat_toNat]

/-- the number of a character is in neither of the ranges of halves -/
theorem unescapeBytes_coded {c : Char} {t : Bytes} (h : IsCoded c.toNat t) :
    unescapeBytes beyond acc (t ++ body)
      = unescapeBytes beyond ((String.utf8EncodeChar c).reverse ++ acc) body := by
  obtain ⟨d₁, d₂, d₃, d₄, -, hread, rfl⟩ := h.exists_digits
  have hvalid : c.toNat < 0xd800 ∨ 0xdfff < c.toNat ∧ c.toNat < 0x110000 := c.valid
  have hlow : isLowSurrogate c.toNat = false := by
    rw [isLowSurrogate, Bool.and_eq_false_iff, decide_eq_false_iff_not, decide_eq_false_iff_not]
    omega
  have hhigh : isHighSurrogate c.toNat = false := by
    rw [isHighSurrogate, Bool.and_eq_false_iff, decide_eq_false_iff_not, decide_eq_false_iff_not]
    omega
  have hu : shortEscape? 0x75 = none := by decide
  show unescapeBytes beyond acc (0x5c :: 0x75 :: d₁ :: d₂ :: d₃ :: d₄ :: body) = _
  rw [unescapeBytes.eq_def]
  simp [hread, hlow, hhigh, hu, codePointBytes_toNat]

theorem unescapeBytes_halved {c : Char} {high low : Nat} {t u : Bytes}
    (isHigh : 0xd800 ≤ high ∧ high ≤ 0xdbff) (isLow : 0xdc00 ≤ low ∧ low ≤ 0xdfff)
    (number : c.toNat = (high - 0xd800) * 0x400 + (low - 0xdc00) + 0x10000)
    (first : IsCoded high t) (second : IsCoded low u) :
    unescapeBytes beyond acc (t ++ (u ++ body))
      = unescapeBytes beyond ((String.utf8EncodeChar c).reverse ++ acc) body := by
  obtain ⟨d₁, d₂, d₃, d₄, -, hfirst, rfl⟩ := first.exists_digits
  obtain ⟨e₁, e₂, e₃, e₄, -, hsecond, rfl⟩ := second.exists_digits
  have hnotLow : isLowSurrogate high = false := by
    rw [isLowSurrogate, Bool.and_eq_false_iff, decide_eq_false_iff_not]
    omega
  have hhigh : isHighSurrogate high = true := by
    rw [isHighSurrogate, Bool.and_eq_true, decide_eq_true_iff, decide_eq_true_iff]
    exact isHigh
  have hlow : isLowSurrogate low = true := by
    rw [isLowSurrogate, Bool.and_eq_true, decide_eq_true_iff, decide_eq_true_iff]
    exact isLow
  have hu : shortEscape? 0x75 = none := by decide
  have hjoin : codePointBytes (joinSurrogates high low) = String.utf8EncodeChar c := by
    rw [← codePointBytes_toNat, number]
    rfl
  show unescapeBytes beyond acc (0x5c :: 0x75 :: d₁ :: d₂ :: d₃ :: d₄ ::
    0x5c :: 0x75 :: e₁ :: e₂ :: e₃ :: e₄ :: body) = _
  rw [unescapeBytes.eq_def]
  simp [hfirst, hsecond, hnotLow, hhigh, hlow, hu, hjoin]

end

theorem IsBodyOf.unescapeBytes {bs body : Bytes} (h : IsBodyOf bs body) {beyond : Nat}
    (hbeyond : beyond ≠ 0) (acc : Bytes) :
    unescapeBytes beyond acc body = .ok (acc.reverse ++ bs) := by
  induction h generalizing acc with
  | nil =>
    rw [List.append_nil, Json.unescapeBytes.eq_def]
    exact if_neg hbeyond
  | plain hcontrol _ hbackslash _ ih =>
    rw [unescapeBytes_plain hcontrol hbackslash, ih]
    simp
  | short known _ ih =>
    rw [unescapeBytes_short known, ih]
    simp
  | coded code _ ih =>
    rw [unescapeBytes_coded code, ih]
    simp
  | halved isHigh isLow number first second _ ih =>
    rw [unescapeBytes_halved isHigh isLow number first second, ih]
    simp

theorem IsBodyOf.unescape {s : String} {body : Bytes} (h : IsBodyOf (utf8 s) body) {beyond : Nat}
    (hbeyond : beyond ≠ 0) : unescape body beyond = .ok s := by
  rw [Json.unescape, h.unescapeBytes hbeyond, List.reverse_nil, List.nil_append]
  simp only [ofUtf8?_utf8]

/-! ## what is written is a spelling -/

/-- a byte is written in short after a backslash, in hexadecimal as a control, or as it is -/
theorem escapeByte_cases (b : UInt8) :
    (∃ e, (b, e) ∈ shortForms ∧ escapeByte b = [0x5c, e])
      ∨ (b < 0x20 ∧ escapeByte b = 0x5c :: 0x75 :: fixedHex 4 b.toNat)
      ∨ (¬ b < 0x20 ∧ b ≠ 0x22 ∧ b ≠ 0x5c ∧ escapeByte b = [b]) := by
  fun_cases escapeByte b with
  | case1 h => exact Or.inl ⟨0x22, by rw [h]; decide, rfl⟩
  | case2 _ h => exact Or.inl ⟨0x5c, by rw [h]; decide, rfl⟩
  | case3 _ _ h => exact Or.inl ⟨0x62, by rw [h]; decide, rfl⟩
  | case4 _ _ _ h => exact Or.inl ⟨0x66, by rw [h]; decide, rfl⟩
  | case5 _ _ _ _ h => exact Or.inl ⟨0x6e, by rw [h]; decide, rfl⟩
  | case6 _ _ _ _ _ h => exact Or.inl ⟨0x72, by rw [h]; decide, rfl⟩
  | case7 _ _ _ _ _ _ h => exact Or.inl ⟨0x74, by rw [h]; decide, rfl⟩
  | case8 _ _ _ _ _ _ _ hcontrol => exact Or.inr (Or.inl ⟨hcontrol, rfl⟩)
  | case9 hquote hbackslash _ _ _ _ _ hcontrol =>
    exact Or.inr (Or.inr ⟨hcontrol, hquote, hbackslash, rfl⟩)

theorem isBodyOf_escapeByte (b : UInt8) {bs body : Bytes} (h : IsBodyOf bs body) :
    IsBodyOf (b :: bs) (escapeByte b ++ body) := by
  rcases escapeByte_cases b with ⟨e, hknown, hb⟩ | ⟨hlt, hb⟩ | ⟨hcontrol, hquote, hbackslash, hb⟩
  · rw [hb]
    exact .short hknown h
  · have hn : b.toNat < 32 := hlt
    have hvalid : b.toNat.isValidChar := Or.inl (by omega)
    have hnumber : (Char.ofNat b.toNat).toNat = b.toNat := by
      rw [Char.ofNat, dif_pos hvalid]
      rfl
    have hcode : IsCoded (Char.ofNat b.toNat).toNat (0x5c :: 0x75 :: fixedHex 4 b.toNat) := by
      refine ⟨_, length_fixedHex 4 _, isHexDigit_fixedHex 4 _, ?_, rfl⟩
      rw [(spells_fixedHex 4 b.toNat).value, hnumber]
      omega
    have hspelled := IsBodyOf.coded hcode h
    rw [utf8EncodeChar_of_ascii (UInt8.lt_trans hlt (by decide))] at hspelled
    rw [hb]
    exact hspelled
  · rw [hb]
    exact .plain hcontrol hquote hbackslash h

theorem isBodyOf_escape (bs : Bytes) : IsBodyOf bs (escape bs) := by
  induction bs with
  | nil => exact .nil
  | cons b bs ih =>
    rw [escape, List.flatMap_cons]
    exact isBodyOf_escapeByte b ih

/-! ## texts and keys -/

theorem isTextOf_renderText (s : String) : IsTextOf s (renderText s) :=
  ⟨escape (utf8 s), isBodyOf_escape _, rfl⟩

theorem IsTextOf.isJson {s : String} {t : Bytes} (h : IsTextOf s t) : IsJson t := by
  obtain ⟨body, hbody, rfl⟩ := h
  exact .text hbody.isBody

/-- a text is one token, from which it is read -/
theorem IsTextOf.tokens {s : String} {t : Bytes} (h : IsTextOf s t) (rest : Bytes) :
    ∃ body beyond, unescape body beyond = .ok s
      ∧ tokens (t ++ rest) = .text body beyond :: tokens rest := by
  obtain ⟨body, hbody, rfl⟩ := h
  exact ⟨body, beyondQuote rest, hbody.unescape (beyondQuote_ne_zero rest),
    tokens_quote hbody.isBody rest⟩

/-- nothing counts as blanks around a text -/
theorem padded_of {p : Bytes → Prop} {t : Bytes} (h : p t) : Padded p t :=
  ⟨[], t, [], List.forall_mem_nil _, h, List.forall_mem_nil _, (List.append_nil t).symm⟩

theorem Padded.imp {p q : Bytes → Prop} (himp : ∀ bs, p bs → q bs) {t : Bytes} (h : Padded p t) :
    Padded q t := by
  obtain ⟨before, bs, after, hbefore, hp, hafter, rfl⟩ := h
  exact ⟨before, bs, after, hbefore, himp bs hp, hafter, rfl⟩

theorem IsKeyOf.isKey {name : String} {key : Bytes} (h : IsKeyOf name key) : IsKey key := by
  obtain ⟨before, t, after, hbefore, ⟨body, hbody, rfl⟩, hafter, rfl⟩ := h
  exact ⟨before, body, after, hbefore, hbody.isBody, hafter, rfl⟩

theorem IsKeyOf.tokens {name : String} {key : Bytes} (h : IsKeyOf name key) (rest : Bytes) :
    ∃ body beyond, unescape body beyond = .ok name
      ∧ tokens (key ++ 0x3a :: rest) = .text body beyond :: .colon :: tokens rest := by
  obtain ⟨before, t, after, hbefore, htext, hafter, rfl⟩ := h
  obtain ⟨body, beyond, hread, htokens⟩ := htext.tokens (after ++ 0x3a :: rest)
  refine ⟨body, beyond, hread, ?_⟩
  rw [List.append_assoc, List.append_assoc, tokens_blanks hbefore, htokens, tokens_blanks hafter,
    tokens_colon]

end SpanCourier.Json
