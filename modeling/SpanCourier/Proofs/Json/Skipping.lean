import SpanCourier.Proofs.Json.Escapes
import SpanCourier.Proofs.Json.Numerals

/-!
# every value can be skipped

A value that nobody asks for is skipped as a whole, whatever it holds and however deep it is, and
reading goes on right after it.  The induction is over the grammar: within open brackets, each item
and each member takes reading from one comma to the next.

* `IsJson.skips`      a value is skipped, within any open brackets;
* `skipValue_isJson`  and on its own;
* `IsJson.length_lt`  it takes at least one token.
-/

namespace SpanCourier.Json

/-! ## how reading goes on -/

/-- what comes after a value within brackets: the value was all, or the brackets go on -/
def resume (stack : List Bracket) (ts : List Token) : Except Fault (List Token) :=
  match Progress.afterValue stack with
  | none => .ok ts
  | some p => skipFrom p ts

theorem resume_nil (ts : List Token) : resume [] ts = .ok ts := rfl

/-- a text is skipped wherever a value may come -/
def Skips (bs : Bytes) : Prop :=
  ∀ stack rest, Ends rest →
    skipFrom ⟨stack, .value⟩ (tokens (bs ++ rest)) = resume stack (tokens rest)

theorem skipFrom_last {p : Progress} {t : Token} {stack : List Bracket}
    (h : p.take t = .ok (Progress.afterValue stack)) (ts : List Token) :
    skipFrom p (t :: ts) = resume stack ts := by
  rw [skipFrom, h, resume]
  cases Progress.afterValue stack <;> rfl

theorem skipFrom_next {p q : Progress} {t : Token} (h : p.take t = .ok (some q))
    (ts : List Token) : skipFrom p (t :: ts) = skipFrom q ts := by
  rw [skipFrom, h]

theorem length_lt_of_skipFrom {p : Progress} {ts rest : List Token}
    (h : skipFrom p ts = .ok rest) : rest.length < ts.length := by
  induction ts generalizing p with
  | nil => cases h
  | cons t ts ih =>
    rw [skipFrom] at h
    split at h
    · cases h
    · cases h
      exact Nat.lt_succ_self _
    · exact Nat.lt_succ_of_lt (ih h)

/-! ## words, texts and numbers -/

theorem skips_null : Skips (utf8 "null") := by
  intro stack rest _
  rw [tokens_null]
  exact skipFrom_last rfl _

theorem skips_true : Skips (utf8 "true") := by
  intro stack rest _
  rw [tokens_true]
  exact skipFrom_last rfl _

theorem skips_false : Skips (utf8 "false") := by
  intro stack rest _
  rw [tokens_false]
  exact skipFrom_last rfl _

theorem skips_number {n : Number} {fraction exponent : Bytes} (h : n.IsSpelled fraction exponent) :
    Skips (n.sign ++ n.whole ++ fraction ++ exponent) := by
  intro stack rest hr
  rw [tokens_number h hr]
  exact skipFrom_last rfl _

theorem skips_quote {body : Bytes} (h : IsBody body) : Skips (quote body) := by
  intro stack rest _
  rw [tokens_quote h]
  refine skipFrom_last ?_ _
  simp only [Progress.take, Progress.takeValue, checkEscapes_isBody (beyondQuote_ne_zero rest) h]

/-! ## lists -/

/-- what may come next within brackets, before the first item or member and after one -/
def within (first : Bool) : Next := if first then .firstMember else .comma

theorem tokens_arrayText (items : List Bytes) (rest : Bytes) :
    tokens (arrayText items ++ rest)
      = .opening .square :: tokens (listed true items ++ 0x5d :: rest) := by
  rw [arrayText, List.cons_append, List.cons_append, List.append_assoc, tokens_openSquare]
  rfl

/-- a value does not begin with a closing bracket -/
theorem Skips.not_closing {bs rest : Bytes} (h : Skips bs) (hr : Ends rest) (b : Bracket)
    (ts : List Token) : tokens (bs ++ rest) ≠ .closing b :: ts := by
  intro heq
  have hskip := h [] rest hr
  rw [heq, resume_nil] at hskip
  cases hskip

theorem skipFrom_firstItem {stack : List Bracket} {ts : List Token}
    (h : ∀ ts', ts ≠ .closing .square :: ts') :
    skipFrom ⟨.square :: stack, .firstMember⟩ ts = skipFrom ⟨.square :: stack, .value⟩ ts := by
  cases ts with
  | nil => rfl
  | cons t ts =>
    have ht : t ≠ .closing .square := fun ht => h ts (ht ▸ rfl)
    simp only [skipFrom, Progress.take, ht, if_false]

theorem skipFrom_item {i : Bytes} (h : Skips i) (first : Bool) (stack : List Bracket)
    (items : List Bytes) {rest : Bytes} (hr : Ends rest) :
    skipFrom ⟨.square :: stack, within first⟩ (tokens (listed first (i :: items) ++ rest))
      = skipFrom ⟨.square :: stack, within false⟩ (tokens (listed false items ++ rest)) := by
  have hends := ends_listed items hr
  rw [listed, List.append_assoc]
  cases first with
  | true => exact (skipFrom_firstItem (h.not_closing hends .square)).trans (h _ _ hends)
  | false =>
    rw [if_neg Bool.false_ne_true, List.cons_append, tokens_comma]
    exact (skipFrom_next (q := ⟨.square :: stack, .value⟩) rfl _).trans (h _ _ hends)

theorem skipFrom_items {items : List Bytes} (h : ∀ i ∈ items, Skips i) (first : Bool)
    (stack : List Bracket) (rest : Bytes) :
    skipFrom ⟨.square :: stack, within first⟩ (tokens (listed first items ++ 0x5d :: rest))
      = resume stack (tokens rest) := by
  induction items generalizing first with
  | nil =>
    rw [listed, List.nil_append, tokens_closeSquare]
    cases first <;> exact skipFrom_last rfl _
  | cons i items ih =>
    rw [skipFrom_item (h i List.mem_cons_self) first stack items (ends_closeSquare rest)]
    exact ih (fun j hj => h j (List.mem_cons_of_mem _ hj)) false

theorem skips_array {items : List Bytes} (h : ∀ i ∈ items, Skips i) : Skips (arrayText items) := by
  intro stack rest _
  rw [tokens_arrayText, skipFrom_next (q := ⟨.square :: stack, within true⟩) rfl]
  exact skipFrom_items h true stack rest

/-! ## objects -/

theorem tokens_objectText (members : List (Bytes × Bytes)) (rest : Bytes) :
    tokens (objectText members ++ rest)
      = .opening .curly :: tokens (listed true (members.map memberText) ++ 0x7d :: rest) := by
  rw [objectText, List.cons_append, List.cons_append, List.append_assoc, tokens_openCurly]
  rfl

theorem tokens_key {key : Bytes} (h : IsKey key) (rest : Bytes) :
    ∃ body beyond, IsBody body ∧ beyond ≠ 0
      ∧ tokens (key ++ 0x3a :: rest) = .text body beyond :: .colon :: tokens rest := by
  obtain ⟨before, body, after, hbefore, hbody, hafter, rfl⟩ := h
  refine ⟨body, beyondQuote (after ++ 0x3a :: rest), hbody, beyondQuote_ne_zero _, ?_⟩
  rw [List.append_assoc, List.append_assoc, tokens_blanks hbefore, tokens_quote hbody,
    tokens_blanks hafter, tokens_colon]

theorem skipFrom_member {m : Bytes × Bytes} (hk : IsKey m.1) (hv : Skips m.2) (first : Bool)
    (stack : List Bracket) (members : List (Bytes × Bytes)) {rest : Bytes} (hr : Ends rest) :
    skipFrom ⟨.curly :: stack, within first⟩
        (tokens (listed first ((m :: members).map memberText) ++ rest))
      = skipFrom ⟨.curly :: stack, within false⟩
        (tokens (listed false (members.map memberText) ++ rest)) := by
  have hends := ends_listed (members.map memberText) hr
  obtain ⟨body, beyond, hbody, hbeyond, htokens⟩ :=
    tokens_key hk (m.2 ++ (listed false (members.map memberText) ++ rest))
  have hkey {next : Next} (hnext : next = .key ∨ next = .firstMember) :
      Progress.take ⟨.curly :: stack, next⟩ (.text body beyond)
        = .ok (some ⟨.curly :: stack, .colon⟩) := by
    rcases hnext with rfl | rfl <;>
      simp [Progress.take, Progress.takeKey, checkEscapes_isBody hbeyond hbody]
  have hvalue : skipFrom ⟨.curly :: stack, .colon⟩
      (.colon :: tokens (m.2 ++ (listed false (members.map memberText) ++ rest)))
        = skipFrom ⟨.curly :: stack, within false⟩
          (tokens (listed false (members.map memberText) ++ rest)) := by
    rw [skipFrom_next (q := ⟨.curly :: stack, .value⟩) rfl]
    exact hv _ _ hends
  rw [List.map_cons, listed, memberText, List.append_assoc]
  cases first with
  | true =>
    rw [if_pos rfl, List.append_assoc, List.cons_append, htokens]
    exact (skipFrom_next (hkey (Or.inr rfl)) _).trans hvalue
  | false =>
    rw [if_neg Bool.false_ne_true, List.cons_append, List.append_assoc, List.cons_append,
      tokens_comma, htokens]
    refine (skipFrom_next (q := ⟨.curly :: stack, .key⟩) rfl _).trans ?_
    exact (skipFrom_next (hkey (Or.inl rfl)) _).trans hvalue

theorem skipFrom_members {members : List (Bytes × Bytes)} (hk : ∀ m ∈ members, IsKey m.1)
    (hv : ∀ m ∈ members, Skips m.2) (first : Bool) (stack : List Bracket) (rest : Bytes) :
    skipFrom ⟨.curly :: stack, within first⟩
        (tokens (listed first (members.map memberText) ++ 0x7d :: rest))
      = resume stack (tokens rest) := by
  induction members generalizing first with
  | nil =>
    rw [List.map_nil, listed, List.nil_append, tokens_closeCurly]
    cases first <;> exact skipFrom_last rfl _
  | cons m members ih =>
    rw [skipFrom_member (hk m List.mem_cons_self) (hv m List.mem_cons_self) first stack members
      (ends_closeCurly rest)]
    exact ih (fun j hj => hk j (List.mem_cons_of_mem _ hj))
      (fun j hj => hv j (List.mem_cons_of_mem _ hj)) false

theorem skips_object {members : List (Bytes × Bytes)} (hk : ∀ m ∈ members, IsKey m.1)
    (hv : ∀ m ∈ members, Skips m.2) : Skips (objectText members) := by
  intro stack rest _
  rw [tokens_objectText, skipFrom_next (q := ⟨.curly :: stack, within true⟩) rfl]
  exact skipFrom_members hk hv true stack rest

/-! ## blanks -/

theorem skips_blankArray {blanks : Bytes} (h : AreBlank blanks) :
    Skips (0x5b :: blanks ++ [0x5d]) := by
  intro stack rest _
  rw [List.append_assoc, List.cons_append, tokens_openSquare, tokens_blanks h,
    skipFrom_next (q := ⟨.square :: stack, .firstMember⟩) rfl, List.cons_append,
    tokens_closeSquare]
  exact skipFrom_last rfl _

theorem skips_blankObject {blanks : Bytes} (h : AreBlank blanks) :
    Skips (0x7b :: blanks ++ [0x7d]) := by
  intro stack rest _
  rw [List.append_assoc, List.cons_append, tokens_openCurly, tokens_blanks h,
    skipFrom_next (q := ⟨.curly :: stack, .firstMember⟩) rfl, List.cons_append, tokens_closeCurly]
  exact skipFrom_last rfl _

theorem Skips.padded {before bs after : Bytes} (hbefore : AreBlank before) (hafter : AreBlank after)
    (h : Skips bs) : Skips (before ++ bs ++ after) := by
  intro stack rest hr
  rw [List.append_assoc, List.append_assoc, tokens_blanks hbefore,
    h stack (after ++ rest) (ends_blanks hafter hr), tokens_blanks hafter]

/-! ## every value -/

theorem IsJson.skips {bs : Bytes} (h : IsJson bs) : Skips bs := by
  -- within brackets the stack grows, so each case needs its parts for every stack
  induction h with
  | null => exact skips_null
  | true => exact skips_true
  | false => exact skips_false
  | number spelled => exact skips_number spelled
  | text isBody => exact skips_quote isBody
  | array _ ih => exact skips_array ih
  | object areKeys _ ih => exact skips_object areKeys ih
  | blankArray areBlank => exact skips_blankArray areBlank
  | blankObject areBlank => exact skips_blankObject areBlank
  | padded blankBefore blankAfter _ ih => exact ih.padded blankBefore blankAfter

theorem skipValue_isJson {bs rest : Bytes} (h : IsJson bs) (hr : Ends rest) :
    skipValue (tokens (bs ++ rest)) = .ok (tokens rest) := h.skips [] rest hr

theorem IsJson.length_lt {bs rest : Bytes} (h : IsJson bs) (hr : Ends rest) :
    (tokens rest).length < (tokens (bs ++ rest)).length :=
  length_lt_of_skipFrom (skipValue_isJson h hr)

end SpanCourier.Json
