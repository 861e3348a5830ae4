import Mathlib.Data.List.Nodup
import SpanCourier.Proofs.Json.Reading

/-!
# records are read in any form

A record can be written with its members in any order, with members that it does not know among
them, and with null for members that may be null and are not there (`IsForm`).  Each of these forms
is read as the same value.

Reading a member sets its part of the value and nothing else, so what is read so far depends only on
the names of the members that came: `patch names` is the value so far.  One member takes reading from
`patch names` to `patch (name :: names)`, and when all members that are there came, it is the value.

* `RecordShape.Accepts.step`     one member, of the record or not;
* `RecordShape.readMembers_eq`   all members, up to the end of the object;
* `RecordShape.Describes`        what a record has to be for a value;
* `RecordShape.Describes.reads_object`  then every form of the value is read as it.
-/

namespace SpanCourier.Json

/-! ## forms -/

/-- the members that are there -/
def present (fields : List (String × Option Bytes)) : List (String × Bytes) :=
  fields.filterMap fun f => f.2.map fun t => (f.1, t)

/-- members in any order: those that are there, some of the absent ones that may be null as null,
and members under other names -/
def IsForm (fields : List (String × Option Bytes)) (optional : List String)
    (members : List (String × Bytes)) : Prop :=
  ∃ (nulls : List String) (others : List (String × Bytes)),
    nulls.Nodup ∧ (∀ k ∈ nulls, k ∈ optional ∧ (k, none) ∈ fields)
      ∧ (∀ m ∈ others, m.1 ∉ fields.map (·.1) ∧ IsJson m.2)
      ∧ members.Perm (present fields ++ nulls.map (fun k => (k, utf8 "null")) ++ others)

theorem isForm_present (fields : List (String × Option Bytes)) (optional : List String) :
    IsForm fields optional (present fields) := by
  refine ⟨[], [], List.nodup_nil, List.forall_mem_nil _, List.forall_mem_nil _, ?_⟩
  rw [List.map_nil, List.append_nil, List.append_nil]

theorem mem_present {fields : List (String × Option Bytes)} {m : String × Bytes} :
    m ∈ present fields ↔ (m.1, some m.2) ∈ fields := by
  rw [present, List.mem_filterMap]
  constructor
  · rintro ⟨⟨name, text⟩, hf, hm⟩
    obtain ⟨t, rfl, rfl⟩ := Option.map_eq_some_iff.mp hm
    exact hf
  · intro hf
    exact ⟨_, hf, rfl⟩

/-! ## what is read so far -/

/-- a part of a value once its member came, and what it is before -/
def taken {α : Type} (names : List String) (name : String) (a blank : α) : α :=
  if name ∈ names then a else blank

theorem taken_eq {α β : Type} {names : List String} {name : String} {t : Option β} {a blank : α}
    (hin : t.isSome = true → name ∈ names) (habsent : t = none → a = blank) :
    taken names name a blank = a := by
  rw [taken]
  split
  · rfl
  · rename_i hnot
    exact (habsent (Option.not_isSome_iff_eq_none.mp fun hsome => hnot (hin hsome))).symm

/-! ## members -/

section
variable {σ : Type} {r : RecordShape σ} {patch : List String → σ}

/-- a member of a record reads its part of the value from a text -/
def Member.Fills (m : Member σ) (patch : List String → σ) (text : Bytes) : Prop :=
  ∃ set, Reads m.read text set ∧ ∀ names, set (patch names) = patch (m.name :: names)

/-- a member of an object gives the record its part of the value, or is none of the record's -/
def RecordShape.Accepts (r : RecordShape σ) (patch : List String → σ) (n : String × Bytes) : Prop :=
  (∃ m, r.member? n.1 = some m ∧ m.name = n.1 ∧ m.Fills patch n.2)
    ∨ (r.member? n.1 = none ∧ IsJson n.2)

theorem RecordShape.Accepts.isJson {n : String × Bytes} (h : r.Accepts patch n) : IsJson n.2 := by
  rcases h with ⟨_, -, -, _, hreads, -⟩ | ⟨-, hjson⟩
  · exact hreads.isJson
  · exact hjson

theorem readMembers_done {steps : Nat} {first : Bool} {seen : List String} {s v : σ}
    {ts ts' : List Token} (h : Shape.nextKey first ts = .ok (.done ts'))
    (hfinish : r.finish seen s = .ok v) : r.readMembers steps first seen s ts = .ok (v, ts') := by
  rw [RecordShape.readMembers.eq_def]
  simp only [h, hfinish]

theorem readMembers_known {steps : Nat} {first : Bool} {seen : List String} {s : σ}
    {ts : List Token} {name : String} {w : Bytes × Bytes} {m : Member σ} {set : σ → σ} {rest : Bytes}
    (h : Shape.nextKey first ts = .ok (.more (tokens (memberText w ++ rest))))
    (hkey : IsKeyOf name w.1) (hm : r.member? name = some m) (hseen : name ∉ seen)
    (hset : Reads m.read w.2 set) (hr : Ends rest) :
    r.readMembers (steps + 1) first seen s ts
      = r.readMembers steps false (name :: seen) (set s) (tokens rest) := by
  have hcontains : seen.contains name = false := by simpa using hseen
  rw [RecordShape.readMembers.eq_def]
  simp only [h, read_key hkey, hm, hcontains, Bool.false_eq_true, if_false, expect, if_true,
    hset.read hr]

theorem readMembers_other {steps : Nat} {first : Bool} {seen : List String} {s : σ}
    {ts : List Token} {name : String} {w : Bytes × Bytes} {rest : Bytes}
    (h : Shape.nextKey first ts = .ok (.more (tokens (memberText w ++ rest))))
    (hkey : IsKeyOf name w.1) (hm : r.member? name = none) (hjson : IsJson w.2) (hr : Ends rest) :
    r.readMembers (steps + 1) first seen s ts
      = r.readMembers steps false seen s (tokens rest) := by
  rw [RecordShape.readMembers.eq_def]
  simp only [h, read_key hkey, hm, expect, if_true, skipValue_isJson hjson hr]

/-- one member takes reading from the names seen so far to these and its own, if it is the record's -/
theorem RecordShape.Accepts.step {n : String × Bytes} (h : r.Accepts patch n) {w : Bytes × Bytes}
    (hwritten : IsMember Eq w n) {seen : List String} (hnew : n.1 ∈ seen → r.member? n.1 = none)
    (steps : Nat) {first : Bool} {ts : List Token} {rest : Bytes}
    (hnext : Shape.nextKey first ts = .ok (.more (tokens (memberText w ++ rest)))) (hr : Ends rest) :
    ∃ names, r.readMembers (steps + 1) first seen (patch seen) ts
        = r.readMembers steps false names (patch names) (tokens rest)
      ∧ ∀ k, k ∈ names ↔ k ∈ seen ∨ (k = n.1 ∧ r.member? n.1 ≠ none) := by
  obtain ⟨hkey, htext⟩ := hwritten
  rcases h with ⟨m, hm, hname, set, hreads, hset⟩ | ⟨hm, hjson⟩
  · rw [← htext] at hreads
    have hknown : r.member? n.1 ≠ none := by
      rw [hm]
      exact Option.some_ne_none m
    refine ⟨n.1 :: seen, ?_, fun k => ?_⟩
    · rw [readMembers_known hnext hkey hm (fun hin => hknown (hnew hin)) hreads hr, hset, hname]
    · rw [List.mem_cons, or_comm, and_iff_left hknown]
  · rw [← htext] at hjson
    refine ⟨seen, readMembers_other hnext hkey hm hjson hr, fun k => ?_⟩
    rw [or_iff_left fun hk => hk.2 hm]

/-- members up to the end of an object: no member of the record comes twice, and the value so far is
the value once all that are there came -/
theorem RecordShape.readMembers_eq {written : List (Bytes × Bytes)}
    {members : List (String × Bytes)} (hwritten : List.Forall₂ (IsMember Eq) written members)
    {seen : List String} {v : σ} (haccepts : ∀ n ∈ members, r.Accepts patch n)
    (hdistinct : members.Pairwise fun n n' => n.1 = n'.1 → r.member? n.1 = none)
    (hseen : ∀ n ∈ members, n.1 ∈ seen → r.member? n.1 = none)
    (hfinish : ∀ names, (∀ n ∈ members, r.member? n.1 ≠ none → n.1 ∈ names) →
      (∀ k ∈ seen, k ∈ names) → r.finish names (patch names) = .ok v)
    (rest : Bytes) (steps : Nat) (first : Bool)
    (hsteps : (tokens (listed first (written.map memberText) ++ 0x7d :: rest)).length ≤ steps) :
    r.readMembers steps first seen (patch seen)
        (tokens (listed first (written.map memberText) ++ 0x7d :: rest))
      = .ok (v, tokens rest) := by
  induction hwritten generalizing seen steps first with
  | nil =>
    rw [List.map_nil, listed, List.nil_append, tokens_closeCurly]
    have hdone := hfinish seen (List.forall_mem_nil _) fun k hk => hk
    cases first <;> exact readMembers_done rfl hdone
  | @cons w n written members hmember _ ih =>
    obtain ⟨haccept, haccepts⟩ := List.forall_mem_cons.mp haccepts
    obtain ⟨hhead, hdistinct⟩ := List.pairwise_cons.mp hdistinct
    obtain ⟨hnew, hseen⟩ := List.forall_mem_cons.mp hseen
    have hends := ends_listed (written.map memberText) (ends_closeCurly rest)
    have hjson : IsJson w.2 := hmember.value ▸ haccept.isJson
    obtain ⟨hnext, hlt⟩ := nextKey_listed hmember.key hjson first written (ends_closeCurly rest)
    obtain ⟨steps, rfl⟩ : ∃ k, steps = k + 1 := ⟨steps - 1, by omega⟩
    obtain ⟨names, hstep, hnames⟩ := haccept.step hmember hnew steps hnext hends
    rw [hstep]
    refine ih haccepts hdistinct ?_ ?_ steps false (by omega)
    · intro n' hn' hmem
      rcases (hnames n'.1).mp hmem with hmem | ⟨heq, -⟩
      · exact hseen n' hn' hmem
      · exact heq ▸ hhead n' hn' heq.symm
    · intro names' hrest hin
      have hown (hknown : r.member? n.1 ≠ none) : n.1 ∈ names' :=
        hin n.1 ((hnames n.1).mpr (Or.inr ⟨rfl, hknown⟩))
      refine hfinish names' (List.forall_mem_cons.mpr ⟨hown, hrest⟩) fun k hk => ?_
      exact hin k ((hnames k).mpr (Or.inl hk))

/-! ## forms of a value -/

/-- what a member of a record reads is what a field of a value holds, or null where it is absent -/
structure Member.Reflects (patch : List String → σ) (optional : List String) (m : Member σ)
    (f : String × Option Bytes) : Prop where
  name : m.name = f.1
  present : ∀ t, f.2 = some t → m.Fills patch t
  null : f.2 = none → f.1 ∈ optional → m.Fills patch (utf8 "null")
  required : m.required = true → f.2 ≠ none

section
variable {α : Type} {shape : Shape α} {set : α → σ → σ} {optional : List String} {name : String}
  {text : Bytes}

theorem fills_of {required : Bool} {a : α} (h : Reads shape.read text a)
    (hset : ∀ names, set a (patch names) = patch (name :: names)) :
    (Member.of name required shape set).Fills patch text := ⟨set a, h.map set, hset⟩

theorem reflects_required {a : α} (h : Reads shape.read text a)
    (hset : ∀ names, set a (patch names) = patch (name :: names)) :
    (Member.of name true shape set).Reflects patch optional (name, some text) where
  name := rfl
  present _ ht := Option.some.inj ht ▸ fills_of h hset
  null ht := nomatch ht
  required _ := Option.some_ne_none text

/-- a member that may be null stands for a part that may be absent -/
theorem reflects_nullable {t : Option Bytes} {set : Option α → σ → σ} {a : Option α}
    (hdefinite : Definite shape) (h : Option.Rel (Reads shape.read) t a)
    (hset : ∀ names, set a (patch names) = patch (name :: names)) :
    (Member.of name false shape.nullable set).Reflects patch optional (name, t) where
  name := rfl
  present text ht := by
    cases h with
    | none => cases ht
    | some h =>
      cases ht
      exact fills_of (h.nullable hdefinite) hset
  null ht _ := by
    cases h with
    | none => exact fills_of (reads_null shape) hset
    | some => cases ht
  required h := nomatch h

/-- a member that may not be null is left out where its part is blank -/
theorem reflects_optional {t : Option Bytes} {a : α} (hname : name ∉ optional)
    (h : ∀ text, t = some text → Reads shape.read text a)
    (hset : ∀ names, set a (patch names) = patch (name :: names)) :
    (Member.of name false shape set).Reflects patch optional (name, t) where
  name := rfl
  present text ht := fills_of (h text ht) hset
  null _ hin := absurd hin hname
  required h := nomatch h

theorem rel_map {r : Reader α} {text : α → Bytes} (h : ∀ a, Reads r (text a) a) (a : Option α) :
    Option.Rel (Reads r) (a.map text) a := by
  cases a with
  | none => exact .none
  | some a => exact .some (h a)

end

/-- a record whose members reflect the fields of a value, one by one -/
structure RecordShape.Describes (r : RecordShape σ) (patch : List String → σ)
    (optional : List String) (fields : List (String × Option Bytes)) (v : σ) : Prop where
  distinct : (r.members.map (·.name)).Nodup
  blank : patch [] = r.blank
  reflects : List.Forall₂ (Member.Reflects patch optional) r.members fields
  value : ∀ names, (∀ f ∈ fields, f.2.isSome = true → f.1 ∈ names) → patch names = v

theorem member?_eq_some {m : Member σ} (hnames : (r.members.map (·.name)).Nodup)
    (hm : m ∈ r.members) : r.member? m.name = some m := by
  rw [RecordShape.member?]
  cases hfind : r.members.find? (·.name == m.name) with
  | none => exact absurd (beq_self_eq_true m.name) (List.find?_eq_none.mp hfind m hm)
  | some m' =>
    have hname : m'.name = m.name := by simpa using List.find?_some hfind
    rw [List.inj_on_of_nodup_map hnames (List.mem_of_find?_eq_some hfind) hm hname]

namespace RecordShape.Describes
variable {optional : List String} {fields : List (String × Option Bytes)} {v : σ}
  (h : r.Describes patch optional fields v)
include h

theorem names_eq : fields.map (·.1) = r.members.map (·.name) := by
  have hnames : List.Forall₂ (fun a b => a = b) (r.members.map (·.name)) (fields.map (·.1)) :=
    List.forall₂_map_left_iff.mpr <| List.forall₂_map_right_iff.mpr <|
      h.reflects.imp fun _ _ hreflects => hreflects.name
  rw [List.forall₂_eq_eq_eq] at hnames
  exact hnames.symm

theorem exists_member {f : String × Option Bytes} (hf : f ∈ fields) :
    ∃ m, r.member? f.1 = some m ∧ m.name = f.1 ∧ m.Reflects patch optional f := by
  obtain ⟨m, hm, hreflects⟩ := (exists_of_forall₂ h.reflects).2 f hf
  exact ⟨m, hreflects.name ▸ member?_eq_some h.distinct hm, hreflects.name, hreflects⟩

theorem member?_eq_none {k : String} (hk : k ∉ fields.map (·.1)) : r.member? k = none := by
  rw [h.names_eq] at hk
  refine List.find?_eq_none.mpr fun m hm hname => hk ?_
  exact List.mem_map.mpr ⟨m, hm, by simpa using hname⟩

theorem eq_of_name {k : String} {t t' : Option Bytes} (ht : (k, t) ∈ fields)
    (ht' : (k, t') ∈ fields) : t = t' := by
  have hnames : (fields.map (·.1)).Nodup := h.names_eq ▸ h.distinct
  have := List.inj_on_of_nodup_map hnames ht ht' rfl
  exact (Prod.mk.inj this).2

/-- no member of a form of a value comes twice, apart from those that are none of the record's -/
theorem pairwise {nulls : List String} {others : List (String × Bytes)} (hnodup : nulls.Nodup)
    (hnulls : ∀ k ∈ nulls, (k, none) ∈ fields) (hothers : ∀ n ∈ others, r.member? n.1 = none) :
    (present fields ++ nulls.map (fun k => (k, utf8 "null")) ++ others).Pairwise
      fun n n' => n.1 = n'.1 → r.member? n.1 = none := by
  have hpresent : (present fields).Pairwise fun n n' => n.1 ≠ n'.1 := by
    have hnames : fields.Pairwise fun f f' => f.1 ≠ f'.1 :=
      List.pairwise_map.mp (h.names_eq ▸ h.distinct)
    refine hnames.filterMap _ fun f f' hne n hn n' hn' => ?_
    obtain ⟨_, -, rfl⟩ := Option.map_eq_some_iff.mp hn
    obtain ⟨_, -, rfl⟩ := Option.map_eq_some_iff.mp hn'
    exact hne
  have hnull : (nulls.map fun k => (k, utf8 "null")).Pairwise fun n n' => n.1 ≠ n'.1 :=
    List.pairwise_map.mpr hnodup
  have hown : (present fields ++ nulls.map fun k => (k, utf8 "null")).Pairwise
      fun n n' => n.1 ≠ n'.1 := by
    refine List.pairwise_append.mpr ⟨hpresent, hnull, fun n hn n' hn' heq => ?_⟩
    obtain ⟨k, hk, rfl⟩ := List.mem_map.mp hn'
    have hn := mem_present.mp hn
    rw [heq] at hn
    cases h.eq_of_name hn (hnulls k hk)
  refine List.pairwise_append.mpr ⟨hown.imp fun hne heq => absurd heq hne, ?_, ?_⟩
  · exact List.pairwise_of_forall_mem_list fun n hn _ _ _ => hothers n hn
  · exact fun n _ n' hn' heq => heq ▸ hothers n' hn'

theorem accepts {members : List (String × Bytes)} (hform : IsForm fields optional members) :
    ∀ n ∈ members, r.Accepts patch n := by
  obtain ⟨nulls, others, -, hnulls, hothers, hperm⟩ := hform
  intro n hn
  rcases List.mem_append.mp (hperm.mem_iff.mp hn) with hn | hn
  · rcases List.mem_append.mp hn with hn | hn
    · obtain ⟨m, hm, hname, hreflects⟩ := h.exists_member (mem_present.mp hn)
      exact Or.inl ⟨m, hm, hname, hreflects.present _ rfl⟩
    · obtain ⟨k, hk, rfl⟩ := List.mem_map.mp hn
      obtain ⟨m, hm, hname, hreflects⟩ := h.exists_member (hnulls k hk).2
      exact Or.inl ⟨m, hm, hname, hreflects.null rfl (hnulls k hk).1⟩
  · exact Or.inr ⟨h.member?_eq_none (hothers n hn).1, (hothers n hn).2⟩

theorem finish_eq {names : List String} (hnames : ∀ f ∈ fields, f.2.isSome = true → f.1 ∈ names) :
    r.finish names (patch names) = .ok v := by
  have hmissing : r.missing? names = none := by
    rw [RecordShape.missing?, Option.map_eq_none_iff, List.find?_eq_none]
    intro m hm hlacks
    obtain ⟨f, hf, hreflects⟩ := (exists_of_forall₂ h.reflects).1 m hm
    simp only [Bool.and_eq_true, Bool.not_eq_true', List.contains_eq_mem,
      decide_eq_false_iff_not] at hlacks
    have hin := hnames f hf (Option.isSome_iff_ne_none.mpr (hreflects.required hlacks.1))
    exact hlacks.2 (hreflects.name ▸ hin)
  rw [RecordShape.finish, hmissing, h.value names hnames]

/-- every form of a value is read as the value, however its members are written -/
theorem reads_object {members : List (String × Bytes)} (hform : IsForm fields optional members)
    {written : List (Bytes × Bytes)} (hwritten : List.Forall₂ (IsMember Eq) written members)
    {t : Bytes} (hobject : IsObject written t) : Reads r.shape.read t v := by
  have haccepts := h.accepts hform
  obtain ⟨nulls, others, hnodup, hnulls, hothers, hperm⟩ := hform
  have hdistinct : members.Pairwise fun n n' => n.1 = n'.1 → r.member? n.1 = none := by
    refine (hperm.pairwise_iff fun hsymm heq => heq ▸ hsymm heq.symm).mpr ?_
    exact h.pairwise hnodup (fun k hk => (hnulls k hk).2)
      fun n hn => h.member?_eq_none (hothers n hn).1
  refine ⟨isJson_object hobject hwritten ?_, fun {rest} _ => ?_⟩
  · rintro _ n hn rfl
    exact (haccepts n hn).isJson
  · rw [tokens_object hobject]
    show r.readMembers _ true [] r.blank _ = _
    rw [← h.blank]
    refine RecordShape.readMembers_eq hwritten haccepts hdistinct
      (fun _ _ hin => absurd hin List.not_mem_nil) (fun names hcame _ => h.finish_eq ?_) rest _ true
      (Nat.le_refl _)
    rintro ⟨k, t⟩ hf hsome
    obtain ⟨t, rfl⟩ := Option.isSome_iff_exists.mp hsome
    have hin : (k, t) ∈ members := hperm.mem_iff.mpr
      (List.mem_append_left _ (List.mem_append_left _ (mem_present.mpr hf)))
    obtain ⟨m, hm, -⟩ := h.exists_member hf
    exact hcame (k, t) hin (by rw [hm]; exact Option.some_ne_none m)

theorem reads {members : List (String × Bytes)} (hform : IsForm fields optional members) :
    Reads r.shape.read (namedObject members) v :=
  h.reads_object hform (isMember_render (fun _ => rfl) members) (isObject_named members)

end RecordShape.Describes

end

end SpanCourier.Json
