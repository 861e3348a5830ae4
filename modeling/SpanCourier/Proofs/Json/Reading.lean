import Mathlib.Data.List.Forall2
import SpanCourier.Json.Record
import SpanCourier.Proofs.Json.Skipping
import SpanCourier.Proofs.Json.Spelling

/-!
# what shapes read

A reader reads a value from a text (`Reads`) when it takes exactly the tokens of the text, whatever
may follow it.  The shapes of single values read what is written for these values, and each way to
put shapes together keeps this.

* `reads_text`, `reads_whole`, `reads_bool`    single values;
* `Reads.map`, `Reads.nullable`, `reads_null`  values that may be null;
* `reads_variant`, `reads_variantObject`       variants;
* `reads_list`, `reads_dict`                   lists and dictionaries;
* `Reads.padded`                               blanks around a value;
* `parse_eq`                                   whole texts.
-/

namespace SpanCourier.Json

/-- a reader reads a value from a text, and leaves what follows the text -/
structure Reads {α : Type} (r : Reader α) (bs : Bytes) (a : α) : Prop where
  isJson : IsJson bs
  read {rest : Bytes} : Ends rest → r (tokens (bs ++ rest)) = .ok (a, tokens rest)

/-- a value begins with a token that closes nothing -/
theorem IsJson.tokens_eq_cons {bs rest : Bytes} (h : IsJson bs) (hr : Ends rest) :
    ∃ t ts, tokens (bs ++ rest) = t :: ts ∧ ∀ b, t ≠ .closing b := by
  have hlt := h.length_lt hr
  cases htokens : tokens (bs ++ rest) with
  | nil =>
    rw [htokens] at hlt
    exact absurd hlt (Nat.not_lt_zero _)
  | cons t ts => exact ⟨t, ts, rfl, fun b ht => h.skips.not_closing hr b ts (ht ▸ htokens)⟩

/-! ## single values -/

theorem reads_text {s : String} {t : Bytes} (h : IsTextOf s t) : Reads Shape.string.read t s where
  isJson := h.isJson
  read {rest} _ := by
    obtain ⟨body, beyond, hread, htokens⟩ := h.tokens rest
    rw [htokens]
    simp only [Shape.string, hread]

theorem reads_string (s : String) : Reads Shape.string.read (renderText s) s :=
  reads_text (isTextOf_renderText s)

theorem reads_bool (b : Bool) : Reads Shape.bool.read (utf8 (if b then "true" else "false")) b := by
  cases b with
  | true =>
    refine ⟨.true, fun {rest} _ => ?_⟩
    rw [if_pos rfl, tokens_true]
    rfl
  | false =>
    refine ⟨.false, fun {rest} _ => ?_⟩
    rw [if_neg Bool.false_ne_true, tokens_false]
    rfl

/-- a natural number is read from its digits -/
theorem reads_whole {expected : String} {max : Nat} {ds : Bytes} (h : IsWhole ds)
    (hle : Number.natOfDigits ds ≤ max) (hmax : max < UInt64.size) :
    Reads (Shape.nat expected max).read ds (Number.natOfDigits ds) := by
  have hspelled := Number.isSpelled_whole h
  have htext : (Number.sign { whole := ds }) ++ ds ++ [] ++ [] = ds := by
    rw [List.append_nil, List.append_nil]
    rfl
  refine ⟨htext ▸ .number hspelled, fun {rest} hr => ?_⟩
  have htokens := tokens_number hspelled hr
  have hvalue := Number.value_whole (Nat.lt_of_le_of_lt hle hmax)
  rw [htext] at htokens
  rw [htokens]
  simp only [Shape.nat, Shape.natOfNumber, hvalue, hle, if_true]

theorem reads_nat {expected : String} {max n : Nat} (hn : n ≤ max) (hmax : max < UInt64.size) :
    Reads (Shape.nat expected max).read (Number.ofNat n).render n := by
  have hrender : (Number.ofNat n).render = Number.digitsOfNat n := by
    simp [Number.render, Number.ofNat]
  have hvalue := Number.natOfDigits_digitsOfNat n
  have hle : Number.natOfDigits (Number.digitsOfNat n) ≤ max := Nat.le_trans (Nat.le_of_eq hvalue) hn
  have hread : Reads (Shape.nat expected max).read (Number.digitsOfNat n) _ :=
    reads_whole (Number.isWhole_digitsOfNat n) hle hmax
  rw [hvalue] at hread
  exact hrender ▸ hread

theorem Reads.map {α β : Type} {s : Shape α} {bs : Bytes} {a : α} (h : Reads s.read bs a)
    (f : α → β) : Reads (s.map f).read bs (f a) where
  isJson := h.isJson
  read hr := by simp only [Shape.map, h.read hr]

/-! ## values that may be null -/

/-- a shape reads no value that begins with one of these tokens -/
def Refuses {α : Type} (s : Shape α) (t : Token) : Prop := ∀ ts x, s.read (t :: ts) ≠ .ok x

/-- a shape that reads something else than null -/
structure Definite {α : Type} (s : Shape α) : Prop where
  null : Refuses s .null
  cutWord : Refuses s (.cutWord true)

theorem Refuses.map {α β : Type} {s : Shape α} {t : Token} (h : Refuses s t) (f : α → β) :
    Refuses (s.map f) t := by
  intro ts x hread
  simp only [Shape.map] at hread
  split at hread
  · rename_i hs
    exact h _ _ hs
  · cases hread

theorem Definite.map {α β : Type} {s : Shape α} (h : Definite s) (f : α → β) :
    Definite (s.map f) := ⟨h.null.map f, h.cutWord.map f⟩

theorem definite_string : Definite Shape.string :=
  ⟨fun _ _ h => (nomatch h), fun _ _ h => (nomatch h)⟩

theorem definite_nat (expected : String) (max : Nat) : Definite (Shape.nat expected max) :=
  ⟨fun _ _ h => (nomatch h), fun _ _ h => (nomatch h)⟩

theorem definite_variant {α : Type} (known : List (String × α)) : Definite (Shape.variant known) :=
  ⟨fun _ _ h => (nomatch h), fun _ _ h => (nomatch h)⟩

theorem definite_record {σ : Type} (r : RecordShape σ) : Definite r.shape :=
  ⟨fun _ _ h => (nomatch h), fun _ _ h => (nomatch h)⟩

theorem reads_null {α : Type} (s : Shape α) : Reads s.nullable.read (utf8 "null") none where
  isJson := .null
  read _ := by
    rw [tokens_null]
    rfl

theorem Reads.nullable {α : Type} {s : Shape α} {bs : Bytes} {a : α} (h : Reads s.read bs a)
    (hs : Definite s) : Reads s.nullable.read bs (some a) where
  isJson := h.isJson
  read {rest} hr := by
    have hsome := (h.map some).read hr
    obtain ⟨t, ts, htokens, -⟩ := h.isJson.tokens_eq_cons hr
    rw [htokens] at hsome ⊢
    rw [Shape.nullable]
    dsimp only
    split
    · rename_i heq
      cases heq
      exact absurd hsome ((hs.map some).null _ _)
    · rename_i heq
      cases heq
      exact absurd hsome ((hs.map some).cutWord _ _)
    · exact hsome

/-! ## variants -/

section
variable {α : Type} {known : List (String × α)} {name : String} {a : α}

theorem variantName_text (h : Dict.find? name known = some a) {body : Bytes} {beyond : Nat}
    (hread : unescape body beyond = .ok name) (ts : List Token) :
    Shape.variantName known (.text body beyond :: ts) = .ok (a, ts) := by
  simp only [Shape.variantName, hread, Shape.variantOf, h]

theorem reads_variant (h : Dict.find? name known = some a) {t : Bytes} (ht : IsTextOf name t) :
    Reads (Shape.variant known).read t a where
  isJson := ht.isJson
  read {rest} _ := by
    obtain ⟨body, beyond, hread, htokens⟩ := ht.tokens rest
    rw [htokens]
    exact variantName_text h hread _

/-- a variant may also be the one key of an object, with null under it -/
theorem reads_variantObject (h : Dict.find? name known = some a) {key t : Bytes}
    (hkey : IsKeyOf name key) (ht : Padded (· = utf8 "null") t) :
    Reads (Shape.variant known).read (objectText [(key, t)]) a := by
  obtain ⟨before, _, after, hbefore, rfl, hafter, rfl⟩ := ht
  refine ⟨.object ?_ ?_, fun {rest} _ => ?_⟩
  · exact List.forall_mem_singleton.mpr hkey.isKey
  · exact List.forall_mem_singleton.mpr (.padded hbefore hafter .null)
  · obtain ⟨body, beyond, hread, htokens⟩ :=
      hkey.tokens (before ++ (utf8 "null" ++ (after ++ 0x7d :: rest)))
    have hobject : tokens (objectText [(key, before ++ utf8 "null" ++ after)] ++ rest)
        = .opening .curly :: .text body beyond :: .colon :: .null :: .closing .curly
          :: tokens rest := by
      rw [tokens_objectText]
      simp only [List.map_cons, List.map_nil, listed, memberText, if_true, List.append_assoc,
        List.cons_append, List.nil_append]
      rw [htokens, tokens_blanks hbefore, tokens_null, tokens_blanks hafter, tokens_closeCurly]
    rw [hobject]
    simp only [Shape.variant, variantName_text h hread, expect, if_true, Shape.readUnit]

end

/-! ## lists -/

section
variable {α : Type} {r : Reader α} {steps : Nat} {first : Bool} {acc : List α}
  {ts ts' ts'' : List Token} {a : α}

theorem readItems_done (h : Shape.nextItem first ts = .ok (.done ts')) :
    Shape.readItems r steps first acc ts = .ok (acc.reverse, ts') := by
  rw [Shape.readItems.eq_def]
  simp only [h]

theorem readItems_more (h : Shape.nextItem first ts = .ok (.more ts'))
    (ha : r ts' = .ok (a, ts'')) :
    Shape.readItems r (steps + 1) first acc ts = Shape.readItems r steps false (a :: acc) ts'' := by
  rw [Shape.readItems.eq_def]
  simp only [h, ha]

end

/-- the next item of a list is found, and what is left before it is no more than there was -/
theorem nextItem_listed {i : Bytes} (h : IsJson i) (first : Bool) (items : List Bytes)
    {rest : Bytes} (hr : Ends rest) :
    Shape.nextItem first (tokens (listed first (i :: items) ++ rest))
        = .ok (.more (tokens (i ++ (listed false items ++ rest))))
      ∧ (tokens (listed false items ++ rest)).length
        < (tokens (listed first (i :: items) ++ rest)).length := by
  have hends := ends_listed items hr
  have hlt := h.length_lt hends
  obtain ⟨t, ts, htokens, ht⟩ := h.tokens_eq_cons hends
  have hclosing : t ≠ .closing .square := ht .square
  rw [listed, List.append_assoc]
  cases first with
  | true =>
    refine ⟨?_, hlt⟩
    rw [if_pos rfl, htokens, Shape.nextItem.eq_def]
    split
    · rename_i heq
      cases heq
    · rename_i heq
      cases heq
      exact absurd rfl hclosing
    · rename_i heq
      cases heq
      rfl
  | false =>
    rw [if_neg Bool.false_ne_true, List.cons_append, tokens_comma, List.length_cons]
    refine ⟨?_, Nat.lt_succ_of_lt hlt⟩
    rw [htokens]
    simp only [Shape.nextItem, hclosing, if_false, if_true, Bool.false_eq_true]

/-- every item takes reading to the next; steps do not run out, as each item takes a token -/
theorem readItems_eq {α : Type} {r : Reader α} {items : List Bytes} {as : List α}
    (h : List.Forall₂ (Reads r) items as) (rest : Bytes) (steps : Nat) (first : Bool) (acc : List α)
    (hsteps : (tokens (listed first items ++ 0x5d :: rest)).length ≤ steps) :
    Shape.readItems r steps first acc (tokens (listed first items ++ 0x5d :: rest))
      = .ok (acc.reverse ++ as, tokens rest) := by
  induction h generalizing steps first acc with
  | nil =>
    rw [listed, List.nil_append, tokens_closeSquare, List.append_nil]
    exact readItems_done rfl
  | @cons i a items as hi _ ih =>
    have hends := ends_listed items (ends_closeSquare rest)
    obtain ⟨hnext, hlt⟩ := nextItem_listed hi.isJson first items (ends_closeSquare rest)
    obtain ⟨steps, rfl⟩ : ∃ n, steps = n + 1 := ⟨steps - 1, by omega⟩
    rw [readItems_more hnext (hi.read hends), ih steps false (a :: acc) (by omega),
      List.reverse_cons, List.append_assoc]
    rfl

theorem exists_of_forall₂ {α β : Type} {R : α → β → Prop} {as : List α} {bs : List β}
    (h : List.Forall₂ R as bs) : (∀ a ∈ as, ∃ b ∈ bs, R a b) ∧ ∀ b ∈ bs, ∃ a ∈ as, R a b := by
  induction h with
  | nil => exact ⟨List.forall_mem_nil _, List.forall_mem_nil _⟩
  | @cons a b as bs hab _ ih =>
    constructor
    · refine List.forall_mem_cons.mpr ⟨⟨b, List.mem_cons_self, hab⟩, fun a' ha' => ?_⟩
      obtain ⟨b', hb', h⟩ := ih.1 a' ha'
      exact ⟨b', List.mem_cons_of_mem _ hb', h⟩
    · refine List.forall_mem_cons.mpr ⟨⟨a, List.mem_cons_self, hab⟩, fun b' hb' => ?_⟩
      obtain ⟨a', ha', h⟩ := ih.2 b' hb'
      exact ⟨a', List.mem_cons_of_mem _ ha', h⟩

theorem forall₂_trans {α β γ : Type} {R : α → β → Prop} {S : β → γ → Prop} {T : α → γ → Prop}
    (hRS : ∀ {a b c}, R a b → S b c → T a c) {as : List α} {bs : List β} {cs : List γ}
    (h : List.Forall₂ R as bs) (h' : List.Forall₂ S bs cs) : List.Forall₂ T as cs := by
  induction h generalizing cs with
  | nil =>
    cases h'
    exact .nil
  | cons hab _ ih =>
    cases h' with
    | cons hbc h' => exact .cons (hRS hab hbc) (ih h')

theorem reads_list {α : Type} {s : Shape α} {items : List Bytes} {as : List α}
    (h : List.Forall₂ (Reads s.read) items as) : Reads s.list.read (arrayText items) as where
  isJson := .array fun i hi => by
    obtain ⟨_, -, hreads⟩ := (exists_of_forall₂ h).1 i hi
    exact hreads.isJson
  read {rest} _ := by
    rw [tokens_arrayText]
    exact readItems_eq h rest _ true [] (Nat.le_refl _)

/-! ## objects -/

theorem tokens_object {written : List (Bytes × Bytes)} {t : Bytes} (h : IsObject written t)
    (rest : Bytes) : tokens (t ++ rest)
      = .opening .curly :: tokens (listed true (written.map memberText) ++ 0x7d :: rest) := by
  cases h with
  | members => exact tokens_objectText written rest
  | blank areBlank =>
    rw [List.append_assoc, List.cons_append, tokens_openCurly, tokens_blanks areBlank]
    rfl

section
variable {α : Type} {p : Bytes → α → Prop} {written : List (Bytes × Bytes)}
  {members : List (String × α)}

theorem isJson_object {t : Bytes} (h : IsObject written t)
    (hmembers : List.Forall₂ (IsMember p) written members)
    (hjson : ∀ t, ∀ m ∈ members, p t m.2 → IsJson t) : IsJson t := by
  cases h with
  | blank areBlank => exact .blankObject areBlank
  | members =>
    refine .object ?_ ?_
    · intro w hw
      obtain ⟨m, -, hmember⟩ := (exists_of_forall₂ hmembers).1 w hw
      exact hmember.key.isKey
    · intro w hw
      obtain ⟨m, hm, hmember⟩ := (exists_of_forall₂ hmembers).1 w hw
      exact hjson w.2 m hm hmember.value

/-- members that are written without blanks and with the keys that are written for their names -/
theorem isMember_render {text : α → Bytes} (h : ∀ a, p (text a) a) (members : List (String × α)) :
    List.Forall₂ (IsMember p) (members.map fun m => (renderText m.1, text m.2)) members := by
  apply List.forall₂_map_left_iff.mpr
  apply List.forall₂_same.mpr
  intro m _
  exact ⟨padded_of (isTextOf_renderText m.1), h m.2⟩

end

theorem namedObject_eq (members : List (String × Bytes)) :
    namedObject members = objectText (members.map fun m => (renderText m.1, m.2)) := by
  rw [namedObject, objectText, List.map_map]
  rfl

theorem isObject_named (members : List (String × Bytes)) :
    IsObject (members.map fun m => (renderText m.1, m.2)) (namedObject members) :=
  namedObject_eq members ▸ .members _

section
variable {name : String} {w : Bytes × Bytes} (hkey : IsKeyOf name w.1)
include hkey

theorem tokens_member (rest : Bytes) :
    ∃ body beyond, unescape body beyond = .ok name
      ∧ tokens (memberText w ++ rest) = .text body beyond :: .colon :: tokens (w.2 ++ rest) := by
  rw [memberText, List.append_assoc, List.cons_append]
  exact hkey.tokens (w.2 ++ rest)

/-- the next key of an object is found, and what is left before it is no more than there was -/
theorem nextKey_listed (hjson : IsJson w.2) (first : Bool) (written : List (Bytes × Bytes))
    {rest : Bytes} (hr : Ends rest) :
    Shape.nextKey first (tokens (listed first ((w :: written).map memberText) ++ rest))
        = .ok (.more (tokens (memberText w ++ (listed false (written.map memberText) ++ rest))))
      ∧ (tokens (listed false (written.map memberText) ++ rest)).length
        < (tokens (listed first ((w :: written).map memberText) ++ rest)).length := by
  have hlt := hjson.length_lt (ends_listed (written.map memberText) hr)
  obtain ⟨body, beyond, -, htokens⟩ :=
    tokens_member hkey (listed false (written.map memberText) ++ rest)
  rw [List.map_cons, listed, List.append_assoc]
  cases first with
  | true =>
    rw [if_pos rfl, htokens, List.length_cons, List.length_cons]
    exact ⟨rfl, by omega⟩
  | false =>
    rw [if_neg Bool.false_ne_true, List.cons_append, tokens_comma, htokens, List.length_cons,
      List.length_cons, List.length_cons]
    exact ⟨rfl, by omega⟩

theorem read_key (rest : Bytes) :
    Shape.string.read (tokens (memberText w ++ rest)) = .ok (name, .colon :: tokens (w.2 ++ rest)) := by
  obtain ⟨body, beyond, hread, htokens⟩ := tokens_member hkey rest
  rw [htokens]
  simp only [Shape.string, hread]

end

/-! ## dictionaries -/

section
variable {α : Type} {r : Reader α} {written : List (Bytes × Bytes)} {es : List (String × α)}

theorem readEntries_done {steps : Nat} {first : Bool} {d : Dict α} {ts ts' : List Token}
    (h : Shape.nextKey first ts = .ok (.done ts')) :
    Shape.readEntries r steps first d ts = .ok (d, ts') := by
  rw [Shape.readEntries.eq_def]
  simp only [h]

theorem readEntries_more {steps : Nat} {first : Bool} {d : Dict α} {ts : List Token}
    {w : Bytes × Bytes} {e : String × α} {rest : Bytes}
    (h : Shape.nextKey first ts = .ok (.more (tokens (memberText w ++ rest))))
    (hmember : IsMember (Reads r) w e) (hr : Ends rest) :
    Shape.readEntries r (steps + 1) first d ts
      = Shape.readEntries r steps false (d.insert e.1 e.2) (tokens rest) := by
  rw [Shape.readEntries.eq_def]
  simp only [h, read_key hmember.key, expect, if_true, hmember.value.read hr]

theorem readEntries_eq (h : List.Forall₂ (IsMember (Reads r)) written es) (rest : Bytes)
    (steps : Nat) (first : Bool) (d : Dict α)
    (hsteps : (tokens (listed first (written.map memberText) ++ 0x7d :: rest)).length ≤ steps) :
    Shape.readEntries r steps first d
        (tokens (listed first (written.map memberText) ++ 0x7d :: rest))
      = .ok (d.insertAll es, tokens rest) := by
  induction h generalizing steps first d with
  | nil =>
    rw [List.map_nil, listed, List.nil_append, tokens_closeCurly]
    cases first <;> exact readEntries_done rfl
  | @cons w e written es hmember _ ih =>
    have hends := ends_listed (written.map memberText) (ends_closeCurly rest)
    obtain ⟨hnext, hlt⟩ := nextKey_listed hmember.key hmember.value.isJson first written
      (ends_closeCurly rest)
    obtain ⟨steps, rfl⟩ : ∃ n, steps = n + 1 := ⟨steps - 1, by omega⟩
    rw [readEntries_more hnext hmember hends]
    exact ih steps false _ (by omega)

theorem reads_dict {s : Shape α} {t : Bytes} (hobject : IsObject written t)
    (h : List.Forall₂ (IsMember (Reads s.read)) written es) :
    Reads s.dict.read t (Dict.ofEntries es) where
  isJson := isJson_object hobject h fun _ _ _ hreads => hreads.isJson
  read {rest} _ := by
    rw [tokens_object hobject]
    exact readEntries_eq h rest _ true ∅ (Nat.le_refl _)

end

/-! ## blanks -/

theorem Reads.padded {α : Type} {r : Reader α} {a : α} {t : Bytes}
    (h : Padded (fun bs => Reads r bs a) t) : Reads r t a := by
  obtain ⟨before, bs, after, hbefore, hreads, hafter, rfl⟩ := h
  refine ⟨.padded hbefore hafter hreads.isJson, fun {rest} hr => ?_⟩
  rw [List.append_assoc, List.append_assoc, tokens_blanks hbefore,
    hreads.read (ends_blanks hafter hr), tokens_blanks hafter]

/-! ## whole texts -/

/-- a whole text that a shape reads is read as what the shape reads -/
theorem parse_eq {α : Type} {shape : Shape α} {text : Bytes} {a : α}
    (h : Reads shape.read text a) : shape.parse text = .ok a := by
  have hread := h.read ends_nil
  rw [List.append_nil] at hread
  rw [Shape.parse, hread, tokens_nil]

end SpanCourier.Json
