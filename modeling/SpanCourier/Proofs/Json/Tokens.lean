import SpanCourier.Json.Token

/-!
# the tokens of a text, one by one

The tokens of a text are found step by step, and the number of steps is its length, which is always
enough, as every token takes the byte that it begins with.  So the tokens of a text are its first
token and the tokens of what follows it.

* `suffix_token`   no token gives bytes back;
* `tokens_cons`    the first token, and those of the rest;
* `tokens_blanks`  blanks before a token do not count.
-/

namespace SpanCourier.Json

/-! ## what a token leaves -/

theorem suffix_splitBody {acc bs body rest : Bytes} (h : splitBody acc bs = (body, some rest)) :
    rest <:+ bs := by
  fun_induction splitBody acc bs with
  | case1 => cases h
  | case2 acc bs =>
    cases h
    exact List.suffix_cons _ _
  | case3 => cases h
  | case4 acc c bs _ ih =>
    exact ((ih h).trans (List.suffix_cons _ _)).trans (List.suffix_cons _ _)
  | case5 acc b bs _ _ ih => exact (ih h).trans (List.suffix_cons _ _)

theorem suffix_textToken (bs : Bytes) : (textToken bs).2 <:+ bs := by
  rw [textToken]
  split
  · rename_i h
    exact suffix_splitBody h
  · exact List.nil_suffix

theorem suffix_wordToken (word : Bytes) (t : Token) (bs : Bytes) :
    (wordToken word t bs).2 <:+ bs := by
  fun_induction wordToken word t bs with
  | case1 => exact List.suffix_refl _
  | case2 => exact List.nil_suffix
  | case3 _ _ _ ih => exact ih.trans (List.suffix_cons _ _)
  | case4 => exact List.suffix_cons _ _

theorem suffix_cons_of_suffix {as bs : Bytes} (b : UInt8) (h : as <:+ bs) : as <:+ b :: bs :=
  h.trans (List.suffix_cons b bs)

theorem suffix_exponentSign {bs rest : Bytes} {down : Bool}
    (h : (match bs with
      | s :: rest' => if s = 0x2b then (false, rest') else if s = 0x2d then (true, rest')
        else (false, bs)
      | [] => (false, [])) = (down, rest)) : rest <:+ bs := by
  split at h
  · split at h
    · cases h
      exact List.suffix_cons _ _
    · split at h
      · cases h
        exact List.suffix_cons _ _
      · cases h
        exact List.suffix_refl _
  · cases h
    exact List.suffix_refl _

theorem suffix_exponentToken (n : Number) (bs : Bytes) : (exponentToken n bs).2 <:+ bs := by
  fun_cases exponentToken n bs with
  | case1 => exact List.suffix_refl _
  | case2 b bs _ down rest hsign =>
    exact suffix_cons_of_suffix b ((List.dropWhile_suffix _).trans (suffix_exponentSign hsign))
  | case3 b bs _ down rest hsign =>
    exact suffix_cons_of_suffix b ((List.dropWhile_suffix _).trans (suffix_exponentSign hsign))
  | case4 => exact List.suffix_refl _

theorem suffix_fractionToken (n : Number) (bs : Bytes) : (fractionToken n bs).2 <:+ bs := by
  fun_cases fractionToken n bs with
  | case1 => exact List.suffix_refl _
  | case2 bs => exact suffix_cons_of_suffix _ (List.dropWhile_suffix _)
  | case3 bs =>
    exact suffix_cons_of_suffix _ ((suffix_exponentToken _ _).trans (List.dropWhile_suffix _))
  | case4 => exact suffix_exponentToken _ _

theorem suffix_numberToken (negative : Bool) (b : UInt8) (bs : Bytes) :
    (numberToken negative (b :: bs)).2 <:+ bs := by
  rw [numberToken]
  split
  · split
    · exact suffix_fractionToken _ _
    · exact List.suffix_refl _
  · cases hb : Number.isDigit b with
    | false =>
      simp only [List.takeWhile_cons, hb, Bool.false_eq_true, if_false, List.isEmpty_nil, if_true]
      exact List.suffix_refl _
    | true =>
      simp only [List.takeWhile_cons, List.dropWhile_cons, hb, if_true, List.isEmpty_cons,
        Bool.false_eq_true, if_false]
      exact (suffix_fractionToken _ _).trans (List.dropWhile_suffix _)

theorem suffix_token (b : UInt8) (bs : Bytes) : (token b bs).2 <:+ bs := by
  have hnegative : (numberToken true bs).2 <:+ bs := by
    cases bs with
    | nil => exact List.suffix_refl _
    | cons b bs => exact suffix_cons_of_suffix b (suffix_numberToken true b bs)
  fun_cases token b bs with
  | case1 => exact suffix_textToken bs
  | case8 => exact hnegative
  | case9 => exact suffix_numberToken false b bs
  | case10 => exact suffix_wordToken _ _ bs
  | case11 => exact suffix_wordToken _ _ bs
  | case12 => exact suffix_wordToken _ _ bs
  | _ => exact List.suffix_refl _

/-! ## one token after the other -/

theorem tokensIn_cons (steps : Nat) (acc : List Token) (b : UInt8) (bs : Bytes) :
    tokensIn (steps + 1) acc (b :: bs) = if isBlank b then tokensIn steps acc bs
      else tokensIn steps ((token b bs).1 :: acc) (token b bs).2 := rfl

theorem tokensIn_eq (steps : Nat) (acc : List Token) (bs : Bytes) :
    tokensIn steps acc bs = acc.reverse ++ tokensIn steps [] bs := by
  induction steps generalizing acc bs with
  | zero => cases bs <;> simp [tokensIn]
  | succ steps ih =>
    cases bs with
    | nil => simp [tokensIn]
    | cons b bs =>
      rw [tokensIn_cons, tokensIn_cons]
      split
      · exact ih acc bs
      · rw [ih (_ :: acc), ih [_]]
        simp

/-- once there are as many steps as bytes, further ones change nothing -/
theorem tokensIn_steps {m n : Nat} {acc : List Token} {bs : Bytes} (hm : bs.length ≤ m)
    (hn : bs.length ≤ n) : tokensIn m acc bs = tokensIn n acc bs := by
  induction m generalizing n acc bs with
  | zero =>
    rw [List.eq_nil_of_length_eq_zero (Nat.le_zero.mp hm)]
    cases n <;> rfl
  | succ m ih =>
    cases bs with
    | nil => cases n <;> rfl
    | cons b bs =>
      cases n with
      | zero => exact absurd hn (Nat.not_succ_le_zero _)
      | succ n =>
        have hrest := (suffix_token b bs).length_le
        rw [List.length_cons] at hm hn
        rw [tokensIn_cons, tokensIn_cons]
        split
        · exact ih (by omega) (by omega)
        · exact ih (by omega) (by omega)

theorem tokens_nil : tokens [] = [] := rfl

theorem tokens_blank {b : UInt8} (h : isBlank b = true) (bs : Bytes) :
    tokens (b :: bs) = tokens bs := by
  rw [tokens, List.length_cons, tokensIn_cons, if_pos h]
  rfl

theorem tokens_cons {b : UInt8} (h : isBlank b = false) (bs : Bytes) :
    tokens (b :: bs) = (token b bs).1 :: tokens (token b bs).2 := by
  rw [tokens, List.length_cons, tokensIn_cons, if_neg (by simp [h]), tokensIn_eq,
    tokensIn_steps (suffix_token b bs).length_le (Nat.le_refl _)]
  rfl

theorem tokens_blanks {blanks : Bytes} (h : ∀ b ∈ blanks, isBlank b = true) (bs : Bytes) :
    tokens (blanks ++ bs) = tokens bs := by
  induction blanks with
  | nil => rfl
  | cons b blanks ih =>
    rw [List.cons_append, tokens_blank (h b List.mem_cons_self)]
    exact ih fun c hc => h c (List.mem_cons_of_mem _ hc)

/-! ## tokens of one byte -/

theorem tokens_comma (bs : Bytes) : tokens (0x2c :: bs) = .comma :: tokens bs := tokens_cons rfl bs

theorem tokens_colon (bs : Bytes) : tokens (0x3a :: bs) = .colon :: tokens bs := tokens_cons rfl bs

theorem tokens_openSquare (bs : Bytes) : tokens (0x5b :: bs) = .opening .square :: tokens bs :=
  tokens_cons rfl bs

theorem tokens_closeSquare (bs : Bytes) : tokens (0x5d :: bs) = .closing .square :: tokens bs :=
  tokens_cons rfl bs

theorem tokens_openCurly (bs : Bytes) : tokens (0x7b :: bs) = .opening .curly :: tokens bs :=
  tokens_cons rfl bs

theorem tokens_closeCurly (bs : Bytes) : tokens (0x7d :: bs) = .closing .curly :: tokens bs :=
  tokens_cons rfl bs

end SpanCourier.Json
