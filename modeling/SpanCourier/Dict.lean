/-!
# dictionaries in key order

A `Dict α` holds values under text keys and lists them by key, each key once.  The order of keys is
the order of their characters, which is also the order of their UTF-8 bytes.

* `get?_insert`   what an insertion does to every lookup;
* `ext_entries`   dictionaries with the same entries are equal;
* `ofEntries_entries`  inserting the entries of a dictionary one after the other gives it back.
-/

namespace SpanCourier

def KeysAscend {α : Type} (es : List (String × α)) : Prop := es.Pairwise fun a b => a.1 < b.1

/-- values under text keys, listed by key -/
structure Dict (α : Type) where
  entries : List (String × α)
  ascending : KeysAscend entries

namespace Dict
variable {α β : Type}

theorem ext_entries {d e : Dict α} (h : d.entries = e.entries) : d = e := by
  cases d; cases e; cases h; rfl

instance [DecidableEq α] : DecidableEq (Dict α) := fun d e =>
  if h : d.entries = e.entries then isTrue (ext_entries h)
  else isFalse fun he => h (he ▸ rfl)

def empty : Dict α := ⟨[], List.Pairwise.nil⟩

instance : Inhabited (Dict α) := ⟨empty⟩
instance : EmptyCollection (Dict α) := ⟨empty⟩

def isEmpty (d : Dict α) : Bool := d.entries.isEmpty

def find? (k : String) : List (String × α) → Option α
  | [] => none
  | (k', v) :: es => if k = k' then some v else find? k es

def get? (d : Dict α) (k : String) : Option α := find? k d.entries

/-- places a value under its key, in order, over a value already there -/
def put (k : String) (v : α) : List (String × α) → List (String × α)
  | [] => [(k, v)]
  | (k', v') :: es =>
    if k < k' then (k, v) :: (k', v') :: es
    else if k = k' then (k, v) :: es
    else (k', v') :: put k v es

theorem mem_put {k : String} {v : α} {es : List (String × α)} {e : String × α}
    (h : e ∈ put k v es) : e = (k, v) ∨ e ∈ es := by
  induction es with
  | nil => exact Or.inl (List.mem_singleton.mp h)
  | cons e' es ih =>
    obtain ⟨k', v'⟩ := e'
    simp only [put] at h
    split at h
    · simpa using h
    · split at h
      · rcases List.mem_cons.mp h with h | h
        · exact Or.inl h
        · exact Or.inr (List.mem_cons_of_mem _ h)
      · rcases List.mem_cons.mp h with h | h
        · exact Or.inr (h ▸ List.mem_cons_self)
        · exact (ih h).imp id (List.mem_cons_of_mem _)

theorem lt_of_not_lt_of_ne {a b : String} (h : ¬ a < b) (hne : a ≠ b) : b < a := by
  rcases String.le_total a b with hab | hba
  · exact absurd (String.le_antisymm hab (String.not_lt.mp h)) hne
  · exact Decidable.byContradiction fun hba' =>
      hne (String.le_antisymm (String.not_lt.mp hba') hba)

theorem keysAscend_put {k : String} {v : α} {es : List (String × α)} (h : KeysAscend es) :
    KeysAscend (put k v es) := by
  induction es with
  | nil => simp [put, KeysAscend]
  | cons e es ih =>
    obtain ⟨k', v'⟩ := e
    obtain ⟨head, tail⟩ := List.pairwise_cons.mp h
    simp only [put]
    split
    · rename_i hlt
      refine List.pairwise_cons.mpr ⟨fun e he => ?_, h⟩
      rcases List.mem_cons.mp he with rfl | he
      · exact hlt
      · exact String.lt_trans hlt (head e he)
    · split
      · rename_i heq
        subst heq
        exact List.pairwise_cons.mpr ⟨head, tail⟩
      · rename_i hlt hne
        refine List.pairwise_cons.mpr ⟨fun e he => ?_, ih tail⟩
        rcases mem_put he with rfl | he
        · exact lt_of_not_lt_of_ne hlt hne
        · exact head e he

def insert (d : Dict α) (k : String) (v : α) : Dict α :=
  ⟨put k v d.entries, keysAscend_put d.ascending⟩

/-- the entries inserted one after the other, so that the last value of a key stays -/
def insertAll (d : Dict α) (es : List (String × α)) : Dict α :=
  es.foldl (fun d e => d.insert e.1 e.2) d

def ofEntries (es : List (String × α)) : Dict α := empty.insertAll es

theorem find?_put (k k' : String) (v : α) (es : List (String × α)) :
    find? k' (put k v es) = if k' = k then some v else find? k' es := by
  induction es with
  | nil => simp [put, find?]
  | cons e es ih =>
    obtain ⟨k₁, v₁⟩ := e
    simp only [put]
    split
    · simp [find?]
    · split
      · rename_i heq
        subst heq
        by_cases h : k' = k <;> simp [find?, h]
      · rename_i hne
        simp only [find?, ih]
        by_cases h₁ : k' = k₁
        · subst h₁
          simp [Ne.symm hne]
        · simp [h₁]

theorem get?_insert (d : Dict α) (k k' : String) (v : α) :
    (d.insert k v).get? k' = if k' = k then some v else d.get? k' := find?_put k k' v d.entries

theorem get?_empty (k : String) : (empty : Dict α).get? k = none := rfl

theorem put_of_all_lt {k : String} {v : α} {es : List (String × α)} (h : ∀ e ∈ es, e.1 < k) :
    put k v es = es ++ [(k, v)] := by
  induction es with
  | nil => rfl
  | cons e es ih =>
    obtain ⟨k', v'⟩ := e
    have hk : k' < k := h (k', v') List.mem_cons_self
    simp only [put, String.lt_asymm hk, (String.ne_of_lt hk).symm, if_false, List.cons_append]
    rw [ih fun e he => h e (List.mem_cons_of_mem _ he)]

theorem entries_insertAll_of_ascend {d : Dict α} {es : List (String × α)}
    (h : KeysAscend (d.entries ++ es)) : (d.insertAll es).entries = d.entries ++ es := by
  induction es generalizing d with
  | nil => simp [insertAll]
  | cons e es ih =>
    have hput : (d.insert e.1 e.2).entries = d.entries ++ [e] := by
      refine put_of_all_lt fun e' he' => ?_
      exact (List.pairwise_append.mp h).2.2 e' he' e List.mem_cons_self
    have := ih (d := d.insert e.1 e.2) (by rw [hput]; simpa using h)
    rw [hput] at this
    simpa [insertAll] using this

theorem ofEntries_entries (d : Dict α) : ofEntries d.entries = d :=
  ext_entries <| entries_insertAll_of_ascend <|
    show KeysAscend ((empty : Dict α).entries ++ d.entries) from d.ascending

end Dict

end SpanCourier
