import SpanCourier.Dict

/-!
# looking things up

A dictionary holds the last value that was put under a key, and lists its entries by key, so that the
last entry of a kind is the one with the greatest key.

* `get?_insertAll`, `get?_ofEntries`  what is found after insertions;
* `get?_eq_some_iff`                  what is found is listed;
* `find?_reverse_eq_some_iff`         the last entry of a kind.
-/

namespace SpanCourier

namespace Dict
variable {α β : Type} {d : Dict α} {k : String} {v : α}

theorem find?_eq (k : String) (es : List (String × α)) :
    find? k es = (es.find? fun e => e.1 = k).map (·.2) := by
  induction es with
  | nil => rfl
  | cons e es ih =>
    obtain ⟨k', v'⟩ := e
    by_cases h : k = k'
    · simp [find?, h]
    · simp [find?, h, ih, Ne.symm h]

theorem find?_append (k : String) (es es' : List (String × α)) :
    find? k (es ++ es') = (find? k es).or (find? k es') := by
  simp only [find?_eq, List.find?_append, Option.map_or]

theorem find?_map (k : String) (key : β → String) (value : β → α) (xs : List β) :
    find? k (xs.map fun x => (key x, value x)) = (xs.find? fun x => key x = k).map value := by
  rw [find?_eq, List.find?_map, Option.map_map]
  rfl

theorem find?_mapValues (k : String) (value : β → α) (es : List (String × β)) :
    find? k (es.map fun e => (e.1, value e.2)) = (find? k es).map value := by
  rw [find?_map k (fun e : String × β => e.1) (fun e => value e.2), find?_eq, Option.map_map]
  rfl

theorem find?_toList (k name : String) (value : β → α) (x : Option β) :
    find? k (x.toList.map fun a => (name, value a)).reverse
      = if k = name then x.map value else none := by
  cases x with
  | none => simp [find?]
  | some a => simp [find?]

/-- insertions change what is under a key to the last value that they put there -/
theorem get?_insertAll (d : Dict α) (es : List (String × α)) (k : String) :
    (d.insertAll es).get? k = (find? k es.reverse).or (d.get? k) := by
  induction es generalizing d with
  | nil => rfl
  | cons e es ih =>
    have hinsert : (d.insert e.1 e.2).get? k = (find? k [e]).or (d.get? k) := by
      rw [get?_insert, find?, find?]
      split <;> rfl
    rw [List.reverse_cons, find?_append, Option.or_assoc, ← hinsert]
    exact ih (d.insert e.1 e.2)

theorem get?_ofEntries (es : List (String × α)) (k : String) :
    (ofEntries es).get? k = find? k es.reverse := by
  rw [ofEntries, get?_insertAll, get?_empty, Option.or_none]

theorem eq_of_fst_eq {es : List (String × α)} (h : KeysAscend es) {e e' : String × α} (he : e ∈ es)
    (he' : e' ∈ es) (hkey : e.1 = e'.1) : e = e' := by
  induction es with
  | nil => exact absurd he List.not_mem_nil
  | cons e₀ es ih =>
    obtain ⟨head, tail⟩ := List.pairwise_cons.mp h
    rcases List.mem_cons.mp he with rfl | hin
    · rcases List.mem_cons.mp he' with rfl | hin'
      · rfl
      · exact absurd (hkey ▸ head e' hin') (String.lt_irrefl _)
    · rcases List.mem_cons.mp he' with rfl | hin'
      · exact absurd (hkey ▸ head e hin) (String.lt_irrefl _)
      · exact ih tail hin hin'

theorem get?_eq_some_iff : d.get? k = some v ↔ (k, v) ∈ d.entries := by
  rw [get?, find?_eq, Option.map_eq_some_iff]
  constructor
  · rintro ⟨e, hfind, rfl⟩
    have hkey : e.1 = k := by simpa using List.find?_some hfind
    exact hkey ▸ List.mem_of_find?_eq_some hfind
  · intro hmem
    cases hfind : d.entries.find? fun e => e.1 = k with
    | none => exact absurd (decide_eq_true rfl) (List.find?_eq_none.mp hfind (k, v) hmem)
    | some e =>
      have hkey : e.1 = k := by simpa using List.find?_some hfind
      have heq : e = (k, v) :=
        eq_of_fst_eq d.ascending (List.mem_of_find?_eq_some hfind) hmem hkey
      exact ⟨e, rfl, heq ▸ rfl⟩

theorem isEmpty_iff : d.isEmpty = true ↔ ∀ k, d.get? k = none := by
  rw [isEmpty, List.isEmpty_iff, List.eq_nil_iff_forall_not_mem]
  constructor
  · intro h k
    exact Option.eq_none_iff_forall_ne_some.mpr fun v hv => h (k, v) (get?_eq_some_iff.mp hv)
  · intro h e he
    have hget : d.get? e.1 = some e.2 := get?_eq_some_iff.mpr he
    rw [h e.1] at hget
    cases hget

end Dict

end SpanCourier
