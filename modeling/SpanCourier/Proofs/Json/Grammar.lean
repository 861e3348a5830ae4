import SpanCourier.Json.Value
import SpanCourier.Proofs.Json.Tokens

/-!
# the grammar of JSON texts

`IsJson` says which bytes are a JSON text.  It says nothing about how a text is read: words,
numbers, quoted texts, lists and objects are each put together from their parts, with blanks between
them.

* `render_array`, `render_object`  what is written is put together so, without blanks;
* `IsBody`                         what may stand between quotes;
* `Number.IsSpelled`               how a number is written;
* `Ends`                           what may follow a value;
* `tokens_quote`                   a text between quotes is one token.
-/

namespace SpanCourier.Json

/-! ## values and members put together -/

/-- texts one after the other, with a comma before each, but not before the first of all -/
def listed : (first : Bool) → List Bytes → Bytes
  | _, [] => []
  | first, t :: ts => (if first then t else 0x2c :: t) ++ listed false ts

def arrayText (items : List Bytes) : Bytes := 0x5b :: listed true items ++ [0x5d]

def memberText (m : Bytes × Bytes) : Bytes := m.1 ++ 0x3a :: m.2

/-- an object of members that are each a key, as it is written, and a text -/
def objectText (members : List (Bytes × Bytes)) : Bytes :=
  0x7b :: listed true (members.map memberText) ++ [0x7d]

def quote (body : Bytes) : Bytes := 0x22 :: body ++ [0x22]

/-- a member under a name, without blanks -/
def namedMember (m : String × Bytes) : Bytes := memberText (renderText m.1, m.2)

def namedObject (members : List (String × Bytes)) : Bytes :=
  0x7b :: listed true (members.map namedMember) ++ [0x7d]

/-! ## what is written -/

theorem renderItems_cons (v : Value) (items : List Value) :
    renderItems (v :: items) = v.render ++ listed false (items.map Value.render) := by
  induction items generalizing v with
  | nil => simp [renderItems, listed]
  | cons w items ih =>
    rw [renderItems, ih w]
    · rfl
    · exact List.cons_ne_nil w items

theorem renderMembers_cons (m : String × Value) (members : List (String × Value)) :
    renderMembers (m :: members) = namedMember (m.1, m.2.render)
      ++ listed false ((members.map fun m => (m.1, m.2.render)).map namedMember) := by
  induction members generalizing m with
  | nil => simp [renderMembers, listed, namedMember, memberText]
  | cons n members ih =>
    rw [renderMembers, ih n]
    · simp [listed, namedMember, memberText]
    · exact List.cons_ne_nil n members

theorem render_array (items : List Value) :
    (Value.array items).render = arrayText (items.map Value.render) := by
  rw [Value.render, arrayText]
  cases items with
  | nil => rfl
  | cons v items => rw [renderItems_cons, List.map_cons, listed, if_pos rfl]

theorem render_object (members : List (String × Value)) :
    (Value.object members).render = namedObject (members.map fun m => (m.1, m.2.render)) := by
  rw [Value.render, namedObject]
  cases members with
  | nil => rfl
  | cons m members =>
    rw [renderMembers_cons, List.map_cons, List.map_cons, listed, if_pos rfl]

/-! ## the grammar -/

def AreBlank (bs : Bytes) : Prop := ∀ b ∈ bs, isBlank b = true

def IsHexDigit (b : UInt8) : Prop :=
  (0x30 ≤ b ∧ b ≤ 0x39) ∨ (0x61 ≤ b ∧ b ≤ 0x66) ∨ (0x41 ≤ b ∧ b ≤ 0x46)

/-- what may stand between quotes -/
inductive IsBody : Bytes → Prop
  | nil : IsBody []
  | plain {b : UInt8} {bs : Bytes} (control : ¬ b < 0x20) (quote : b ≠ 0x22) (backslash : b ≠ 0x5c)
      (rest : IsBody bs) : IsBody (b :: bs)
  | short {c : UInt8} {bs : Bytes} (known : c ∈ [0x22, 0x5c, 0x2f, 0x62, 0x66, 0x6e, 0x72, 0x74])
      (rest : IsBody bs) : IsBody (0x5c :: c :: bs)
  | coded {d₁ d₂ d₃ d₄ : UInt8} {bs : Bytes} (digits : ∀ d ∈ [d₁, d₂, d₃, d₄], IsHexDigit d)
      (rest : IsBody bs) : IsBody (0x5c :: 0x75 :: d₁ :: d₂ :: d₃ :: d₄ :: bs)

def IsDigits (bs : Bytes) : Prop := bs ≠ [] ∧ ∀ b ∈ bs, Number.isDigit b = true

/-- the digits before the point: a zero, or digits that do not begin with one -/
inductive IsWhole : Bytes → Prop
  | zero : IsWhole [0x30]
  | digits {d : UInt8} {ds : Bytes} (nonzero : d ≠ 0x30) (digits : IsDigits (d :: ds)) :
      IsWhole (d :: ds)

/-- how the digits after the point are written, if there are any -/
inductive IsFraction : Bytes → Bytes → Prop
  | absent : IsFraction [] []
  | present {ds : Bytes} (digits : IsDigits ds) : IsFraction ds (0x2e :: ds)

/-- how an exponent is written, if there is one -/
inductive IsExponent : Option (Bool × Bytes) → Bytes → Prop
  | absent : IsExponent none []
  | unsigned {e : UInt8} {ds : Bytes} (letter : e = 0x65 ∨ e = 0x45) (digits : IsDigits ds) :
      IsExponent (some (false, ds)) (e :: ds)
  | plus {e : UInt8} {ds : Bytes} (letter : e = 0x65 ∨ e = 0x45) (digits : IsDigits ds) :
      IsExponent (some (false, ds)) (e :: 0x2b :: ds)
  | minus {e : UInt8} {ds : Bytes} (letter : e = 0x65 ∨ e = 0x45) (digits : IsDigits ds) :
      IsExponent (some (true, ds)) (e :: 0x2d :: ds)

/-- how a number without its sign is written -/
structure Number.IsSpelled (n : Number) (fraction exponent : Bytes) : Prop where
  whole : IsWhole n.whole
  fraction : IsFraction n.fraction fraction
  exponent : IsExponent n.exponent exponent

def Number.sign (n : Number) : Bytes := if n.negative then [0x2d] else []

/-- a key of an object, which may have blanks around it -/
def IsKey (bs : Bytes) : Prop :=
  ∃ before body after, AreBlank before ∧ IsBody body ∧ AreBlank after
    ∧ bs = before ++ quote body ++ after

/-- which bytes are a JSON text -/
inductive IsJson : Bytes → Prop
  | null : IsJson (utf8 "null")
  | true : IsJson (utf8 "true")
  | false : IsJson (utf8 "false")
  | number {n : Number} {fraction exponent : Bytes} (spelled : n.IsSpelled fraction exponent) :
      IsJson (n.sign ++ n.whole ++ fraction ++ exponent)
  | text {body : Bytes} (isBody : IsBody body) : IsJson (quote body)
  | array {items : List Bytes} (areJson : ∀ i ∈ items, IsJson i) : IsJson (arrayText items)
  | object {members : List (Bytes × Bytes)} (areKeys : ∀ m ∈ members, IsKey m.1)
      (areJson : ∀ m ∈ members, IsJson m.2) : IsJson (objectText members)
  | blankArray {blanks : Bytes} (areBlank : AreBlank blanks) : IsJson (0x5b :: blanks ++ [0x5d])
  | blankObject {blanks : Bytes} (areBlank : AreBlank blanks) : IsJson (0x7b :: blanks ++ [0x7d])
  | padded {before bs after : Bytes} (blankBefore : AreBlank before) (blankAfter : AreBlank after)
      (isJson : IsJson bs) : IsJson (before ++ bs ++ after)

/-! ## what follows a value -/

/-- a value is followed by a blank, a comma or a closing bracket, or by nothing -/
def Ends (rest : Bytes) : Prop :=
  ∀ b ∈ rest.head?, isBlank b = true ∨ b = 0x2c ∨ b = 0x5d ∨ b = 0x7d

theorem ends_nil : Ends [] := fun _ h => nomatch h

theorem ends_comma (bs : Bytes) : Ends (0x2c :: bs) := by simp [Ends]

theorem ends_closeSquare (bs : Bytes) : Ends (0x5d :: bs) := by simp [Ends]

theorem ends_closeCurly (bs : Bytes) : Ends (0x7d :: bs) := by simp [Ends]

theorem ends_blanks {blanks rest : Bytes} (hb : AreBlank blanks) (hr : Ends rest) :
    Ends (blanks ++ rest) := by
  cases blanks with
  | nil => exact hr
  | cons b blanks =>
    intro c hc
    rw [List.cons_append, List.head?_cons, Option.mem_some_iff] at hc
    exact Or.inl (hc ▸ hb b List.mem_cons_self)

theorem ends_listed (items : List Bytes) {rest : Bytes} (hr : Ends rest) :
    Ends (listed false items ++ rest) := by
  cases items with
  | nil => exact hr
  | cons i items => exact ends_comma _

/-- the end of a value goes on neither with a digit nor with a letter or point of a number -/
theorem Ends.no_number {b : UInt8} {rest : Bytes} (h : Ends (b :: rest)) :
    Number.isDigit b = false ∧ b ≠ 0x2e ∧ b ≠ 0x65 ∧ b ≠ 0x45 := by
  have hb := h b rfl
  simp only [isBlank, Bool.or_eq_true, beq_iff_eq] at hb
  rcases hb with (((rfl | rfl) | rfl) | rfl) | rfl | rfl | rfl <;> decide

/-! ## words -/

theorem tokens_null (rest : Bytes) : tokens (utf8 "null" ++ rest) = .null :: tokens rest :=
  tokens_cons rfl (0x75 :: 0x6c :: 0x6c :: rest)

theorem tokens_true (rest : Bytes) : tokens (utf8 "true" ++ rest) = .boolean true :: tokens rest :=
  tokens_cons rfl (0x72 :: 0x75 :: 0x65 :: rest)

theorem tokens_false (rest : Bytes) :
    tokens (utf8 "false" ++ rest) = .boolean false :: tokens rest :=
  tokens_cons rfl (0x61 :: 0x6c :: 0x73 :: 0x65 :: rest)

/-! ## texts between quotes -/

theorem splitBody_plain {b : UInt8} (hq : b ≠ 0x22) (hs : b ≠ 0x5c) (acc bs : Bytes) :
    splitBody acc (b :: bs) = splitBody (b :: acc) bs := by
  rw [splitBody.eq_def]
  simp only [hq, hs, if_false]

theorem splitBody_escape (acc : Bytes) (c : UInt8) (bs : Bytes) :
    splitBody acc (0x5c :: c :: bs) = splitBody (c :: 0x5c :: acc) bs := by
  rw [splitBody.eq_def]
  rfl

theorem splitBody_quote (acc bs : Bytes) :
    splitBody acc (0x22 :: bs) = (acc.reverse, some bs) := by
  rw [splitBody.eq_def]
  rfl

theorem IsHexDigit.plain {d : UInt8} (h : IsHexDigit d) : d ≠ 0x22 ∧ d ≠ 0x5c := by
  constructor
  · rintro rfl
    exact absurd h (by unfold IsHexDigit; decide)
  · rintro rfl
    exact absurd h (by unfold IsHexDigit; decide)

theorem IsBody.splitBody {body : Bytes} (h : IsBody body) (acc rest : Bytes) :
    splitBody acc (body ++ 0x22 :: rest) = (acc.reverse ++ body, some rest) := by
  induction h generalizing acc with
  | nil => rw [List.append_nil, List.nil_append, splitBody_quote]
  | plain _ hq hs _ ih =>
    rw [List.cons_append, splitBody_plain hq hs, ih]
    simp
  | short _ _ ih =>
    rw [List.cons_append, List.cons_append, splitBody_escape, ih]
    simp
  | @coded d₁ d₂ d₃ d₄ bs digits _ ih =>
    -- only the byte after the backslash is passed over unseen; the digits close nothing themselves
    have plain (d : UInt8) (hd : d ∈ [d₁, d₂, d₃, d₄]) (acc bs : Bytes) :
        Json.splitBody acc (d :: bs) = Json.splitBody (d :: acc) bs :=
      splitBody_plain (digits d hd).plain.1 (digits d hd).plain.2 acc bs
    simp only [List.cons_append]
    rw [splitBody_escape, plain d₁ (by simp), plain d₂ (by simp), plain d₃ (by simp),
      plain d₄ (by simp), ih]
    simp

/-- how many bytes follow a text between quotes, counting the quote and up to four -/
def beyondQuote (rest : Bytes) : Nat := 1 + (rest.take 3).length

theorem beyondQuote_ne_zero (rest : Bytes) : beyondQuote rest ≠ 0 := by
  rw [beyondQuote]
  omega

theorem tokens_quote {body : Bytes} (h : IsBody body) (rest : Bytes) :
    tokens (quote body ++ rest) = .text body (beyondQuote rest) :: tokens rest := by
  have hsplit : splitBody [] (body ++ 0x22 :: rest) = (body, some rest) := h.splitBody [] rest
  have htoken : token 0x22 (body ++ 0x22 :: rest) = (.text body (beyondQuote rest), rest) := by
    rw [token, if_pos rfl, textToken, hsplit]
    rfl
  rw [quote, List.cons_append, List.cons_append, List.append_assoc]
  show tokens (0x22 :: (body ++ 0x22 :: rest)) = _
  rw [tokens_cons rfl, htoken]

end SpanCourier.Json
