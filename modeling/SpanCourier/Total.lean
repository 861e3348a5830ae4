/-!
# totals

`total f xs` adds up the numbers `f x` of the members of a list.

* `total_append`     the parts of a list count apart;
* `total_map`        members that are changed first;
* `total_congr`      numbers that agree on the members;
* `total_perm`       the order of the members has no bearing;
* `length_flatMap`   lists put one behind the other.
-/

namespace SpanCourier

variable {α β : Type}

def total (f : α → Nat) : List α → Nat
  | [] => 0
  | a :: as => f a + total f as

theorem total_nil (f : α → Nat) : total f [] = 0 := rfl

theorem total_cons (f : α → Nat) (a : α) (as : List α) : total f (a :: as) = f a + total f as := rfl

theorem total_append (f : α → Nat) (as bs : List α) :
    total f (as ++ bs) = total f as + total f bs := by
  induction as with
  | nil => rw [List.nil_append, total_nil, Nat.zero_add]
  | cons a as ih => rw [List.cons_append, total_cons, total_cons, ih, Nat.add_assoc]

theorem total_map (f : β → Nat) (g : α → β) (as : List α) :
    total f (as.map g) = total (fun a => f (g a)) as := by
  induction as with
  | nil => rfl
  | cons a as ih => rw [List.map_cons, total_cons, total_cons, ih]

theorem total_congr {f g : α → Nat} {as : List α} (h : ∀ a ∈ as, f a = g a) :
    total f as = total g as := by
  induction as with
  | nil => rfl
  | cons a as ih =>
    rw [total_cons, total_cons, h a List.mem_cons_self,
      ih fun b hb => h b (List.mem_cons_of_mem a hb)]

theorem total_perm (f : α → Nat) {as bs : List α} (h : as.Perm bs) : total f as = total f bs := by
  induction h with
  | nil => rfl
  | cons a _ ih => rw [total_cons, total_cons, ih]
  | swap a b as => simp only [total_cons, Nat.add_left_comm]
  | trans _ _ ih ih' => exact ih.trans ih'

theorem length_flatMap (f : α → List β) (as : List α) :
    (as.flatMap f).length = total (fun a => (f a).length) as := by
  induction as with
  | nil => rfl
  | cons a as ih => rw [List.flatMap_cons, List.length_append, total_cons, ih]

end SpanCourier
