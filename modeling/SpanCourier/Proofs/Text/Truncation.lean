import SpanCourier.Text.Truncation

/-!
# what a cut text is

A text is cut to the longest prefix that ends between two characters and has at most so many bytes.
It is found from the front, one character after the other; whoever goes back from the limit, one byte
after the other, to the next place between two characters finds the same, after three bytes at most.

* `IsCut`                what a cut text is of its source;
* `size_le_takeFitting`  no prefix that fits is longer;
* `isCut_truncate`       every text and every limit.
-/

namespace SpanCourier

/-- whether a text has a place between two characters, or one of its ends, after `n` bytes -/
abbrev IsBoundary (s : String) (n : Nat) : Prop := (⟨n⟩ : String.Pos.Raw).IsValid s

/-- the boundary of a text that is met first on the way back from a place -/
def boundaryBelow (s : String) : Nat → Nat
  | 0 => 0
  | n + 1 => if IsBoundary s (n + 1) then n + 1 else boundaryBelow s n

/-- `t` is `s`, cut to at most `max` bytes -/
structure IsCut (max : Nat) (s t : String) : Prop where
  /-- it has the first bytes of the text, which are those of a text by themselves -/
  take_eq : ofUtf8? ((utf8 s).take t.utf8ByteSize) = some t
  boundary : IsBoundary s t.utf8ByteSize
  size_le : t.utf8ByteSize ≤ max
  longest : ∀ n, n ≤ max → IsBoundary s n → n ≤ t.utf8ByteSize
  /-- a text that has to be cut is cut at most three bytes below the limit -/
  near : t ≠ s → max ≤ t.utf8ByteSize + 3
  size_eq : t.utf8ByteSize = boundaryBelow s max

/-! ## boundaries -/

theorem isBoundary_iff {s : String} {n : Nat} :
    IsBoundary s n ↔ ∃ t u, s = t ++ u ∧ t.utf8ByteSize = n := by
  rw [IsBoundary, String.Pos.Raw.isValid_iff_exists_append]
  constructor
  · rintro ⟨t, u, hs, hn⟩
    exact ⟨t, u, hs, (congrArg String.Pos.Raw.byteIdx hn).symm⟩
  · rintro ⟨t, u, hs, rfl⟩
    exact ⟨t, u, hs, rfl⟩

/-- going back from a place ends at the greatest boundary that is not above it -/
theorem boundaryBelow_eq {s : String} {n m : Nat} (hm : IsBoundary s m) (hle : m ≤ n)
    (hgreatest : ∀ k, k ≤ n → IsBoundary s k → k ≤ m) : boundaryBelow s n = m := by
  induction n with
  | zero => exact (Nat.le_zero.mp hle).symm
  | succ n ih =>
    rw [boundaryBelow]
    by_cases h : IsBoundary s (n + 1)
    · rw [if_pos h]
      exact Nat.le_antisymm (hgreatest (n + 1) (Nat.le_refl _) h) hle
    · rw [if_neg h]
      have hne : m ≠ n + 1 := fun heq => h (heq ▸ hm)
      exact ih (by omega) fun k hk => hgreatest k (Nat.le_succ_of_le hk)

/-! ## the characters that fit -/

/-- a run of leading characters that fits is no longer than the one that is taken -/
theorem size_le_takeFitting {max : Nat} {cs ds : List Char} (h : ds <+: cs)
    (hfits : total Char.utf8Size ds ≤ max) :
    total Char.utf8Size ds ≤ total Char.utf8Size (takeFitting max cs) := by
  induction cs generalizing max ds with
  | nil =>
    rw [List.prefix_nil.mp h]
    exact Nat.zero_le _
  | cons c cs ih =>
    cases ds with
    | nil => exact Nat.zero_le _
    | cons d ds =>
      obtain ⟨rfl, hds⟩ := List.cons_prefix_cons.mp h
      rw [total_cons] at hfits
      have hrest : total Char.utf8Size ds ≤ max - d.utf8Size := by omega
      rw [takeFitting, if_pos (by omega), total_cons, total_cons]
      exact Nat.add_le_add_left (ih hds hrest) _

/-- where the next character does not fit, at most three bytes are left -/
theorem near_takeFitting {max : Nat} {cs : List Char} (h : takeFitting max cs ≠ cs) :
    max ≤ total Char.utf8Size (takeFitting max cs) + 3 := by
  induction cs generalizing max with
  | nil => exact absurd rfl h
  | cons c cs ih =>
    rw [takeFitting] at h ⊢
    by_cases hc : c.utf8Size ≤ max
    · rw [if_pos hc] at h ⊢
      have hrest : max - c.utf8Size ≤ total Char.utf8Size (takeFitting (max - c.utf8Size) cs) + 3 :=
        ih fun heq => h (congrArg (c :: ·) heq)
      rw [total_cons]
      omega
    · have hfour := c.utf8Size_le_four
      rw [if_neg hc]
      omega

/-- cutting a text takes the leading characters that fit -/
theorem truncate_eq (max : Nat) (s : String) :
    truncate max s = String.ofList (takeFitting max s.toList) := by
  rw [truncate]
  split
  · rename_i h
    have hall : total Char.utf8Size s.toList ≤ max := by
      rw [← utf8ByteSize_ofList, String.ofList_toList]
      exact h
    have hsize := size_le_takeFitting (List.prefix_refl _) hall
    obtain ⟨rest, hrest⟩ := takeFitting_prefix max s.toList
    have hnil : rest = [] := by
      cases rest with
      | nil => rfl
      | cons c rest =>
        have hpos := c.utf8Size_pos
        rw [← hrest, total_append, total_cons, hrest] at hsize
        omega
    rw [hnil, List.append_nil] at hrest
    rw [hrest, String.ofList_toList]
  · rfl

/-- whatever the text and the limit, what is left is the longest prefix that fits -/
theorem isCut_truncate (max : Nat) (s : String) : IsCut max s (truncate max s) := by
  have hsize : (truncate max s).utf8ByteSize = total Char.utf8Size (takeFitting max s.toList) := by
    rw [truncate_eq, utf8ByteSize_ofList]
  obtain ⟨rest, hrest⟩ := takeFitting_prefix max s.toList
  have happend : s = truncate max s ++ String.ofList rest := by
    rw [truncate_eq, ← String.ofList_append, hrest, String.ofList_toList]
  have hboundary : IsBoundary s (truncate max s).utf8ByteSize :=
    isBoundary_iff.mpr ⟨_, _, happend, rfl⟩
  have hlongest : ∀ n, n ≤ max → IsBoundary s n → n ≤ (truncate max s).utf8ByteSize := by
    intro n hn hb
    obtain ⟨t, u, hs, rfl⟩ := isBoundary_iff.mp hb
    have htotal : t.utf8ByteSize = total Char.utf8Size t.toList := by
      rw [← utf8ByteSize_ofList, String.ofList_toList]
    have hprefix : t.toList <+: s.toList := by
      rw [hs, String.toList_append]
      exact List.prefix_append _ _
    rw [hsize, htotal]
    exact size_le_takeFitting hprefix (htotal ▸ hn)
  refine ⟨?_, hboundary, size_truncate_le max s, hlongest, fun hne => ?_, ?_⟩
  · have hbytes : utf8 s = utf8 (truncate max s) ++ utf8 (String.ofList rest) := by
      rw [← utf8_append, ← happend]
    rw [hbytes, List.take_left' (length_utf8 _)]
    exact ofUtf8?_utf8 _
  · rw [hsize]
    refine near_takeFitting fun heq => hne ?_
    rw [truncate_eq, heq, String.ofList_toList]
  · exact (boundaryBelow_eq hboundary (size_truncate_le max s) hlongest).symm

/-- a cut text that lacks nothing is the whole text -/
theorem IsCut.eq_of_size_eq {max : Nat} {s t : String} (h : IsCut max s t)
    (hsize : s.utf8ByteSize ≤ t.utf8ByteSize) : t = s := by
  have htake := h.take_eq
  rw [List.take_of_length_le (by rw [length_utf8]; exact hsize), ofUtf8?_utf8] at htake
  exact (Option.some.inj htake).symm

/-- a character of three bytes that straddles the limit -/
example : truncate 4 "a€€" = "a€" ∧ truncate 3 "a€€" = "a" ∧ boundaryBelow "a€€" 3 = 1 := by
  decide +kernel

end SpanCourier
