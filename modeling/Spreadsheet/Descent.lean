/-!
# Descent

Searches over the cells of a grid end because in each step either the cells still to be visited
become fewer, or they stay the same and the work left on them becomes less. These are the facts
about counting, adding up and pairs of numbers that such arguments use.
-/

namespace Spreadsheet

/-- A stronger condition leaves no more of a list. -/
theorem length_filter_le_of_imp {α : Type} {p q : α → Bool} {l : List α}
    (h : ∀ x ∈ l, q x → p x) : (l.filter q).length ≤ (l.filter p).length := by
  simp only [← List.countP_eq_length_filter]
  exact List.countP_mono_left h

/-- A stronger condition that one more member fails leaves less of a list. -/
theorem length_filter_lt_of_imp {α : Type} {p q : α → Bool} {l : List α} {a : α} (ha : a ∈ l)
    (hp : p a) (hq : ¬ q a) (h : ∀ x ∈ l, q x → p x) :
    (l.filter q).length < (l.filter p).length := by
  induction l with
  | nil => simp at ha
  | cons b l ih =>
    have hl : ∀ x ∈ l, q x → p x := fun x hx => h x (List.mem_cons_of_mem _ hx)
    rcases List.mem_cons.1 ha with rfl | ha
    · rw [List.filter_cons_of_pos hp, List.filter_cons_of_neg hq, List.length_cons]
      exact Nat.lt_succ_of_le (length_filter_le_of_imp hl)
    · have := ih ha hl
      by_cases hqb : q b
      · rw [List.filter_cons_of_pos hqb, List.filter_cons_of_pos (h b List.mem_cons_self hqb)]
        simpa using this
      · rw [List.filter_cons_of_neg hqb]
        by_cases hpb : p b
        · rw [List.filter_cons_of_pos hpb, List.length_cons]
          omega
        · rwa [List.filter_cons_of_neg hpb]

/-- The numbers that the members of a list count for, added up. -/
def total {α : Type} (f : α → Nat) : List α → Nat
  | [] => 0
  | x :: l => f x + total f l

@[simp] theorem total_nil {α : Type} (f : α → Nat) : total f [] = 0 := rfl

@[simp] theorem total_cons {α : Type} (f : α → Nat) (x : α) (l : List α) :
    total f (x :: l) = f x + total f l := rfl

@[simp] theorem total_append {α : Type} (f : α → Nat) (l l' : List α) :
    total f (l ++ l') = total f l + total f l' := by
  induction l with
  | nil => simp
  | cons x l ih => simp [ih, Nat.add_assoc]

/-- Replacing a member replaces what it counts for. -/
theorem total_set_add {α : Type} {f : α → Nat} {l : List α} {i : Nat} {x y : α}
    (h : l[i]? = some x) : total f (l.set i y) + f x = total f l + f y := by
  induction l generalizing i with
  | nil => simp at h
  | cons z l ih =>
    cases i with
    | zero =>
      simp only [List.getElem?_cons_zero, Option.some.injEq] at h
      simp only [List.set_cons_zero, total_cons, h]
      omega
    | succ i =>
      simp only [List.getElem?_cons_succ] at h
      have := ih h
      simp only [List.set_cons_succ, total_cons]
      omega

/-- A pair descends if its first number does not grow and its second one gets smaller. -/
theorem lex_of_le {a b c d : Nat} (h : a ≤ c) (h' : b < d) :
    Prod.Lex (· < ·) (· < ·) (a, b) (c, d) := by
  rcases Nat.lt_or_eq_of_le h with h | rfl
  · exact Prod.Lex.left _ _ h
  · exact Prod.Lex.right _ h'

end Spreadsheet
