import Mathlib.Data.List.Sort

/-!
# Stable sorting

Facts about insertion sort by a total and transitive relation, which need not tell all elements apart. Sorting
commutes with leaving elements out, as the sort is stable. And two orders of a list are sorted alike if the relation
tells the elements of that list apart.
-/

namespace Sorting

variable {α : Type} {r : α → α → Prop} [DecidableRel r]

/-- An element below all of a list goes in front. -/
theorem orderedInsert_of_forall {a : α} {l : List α} (h : ∀ b ∈ l, r a b) : l.orderedInsert r a = a :: l := by
  cases l with
  | nil => rfl
  | cons b l => exact List.orderedInsert_cons_of_le r l (h b List.mem_cons_self)

theorem filter_orderedInsert_of_neg {p : α → Bool} {a : α} (ha : ¬ p a = true) (l : List α) :
    (l.orderedInsert r a).filter p = l.filter p := by
  induction l with
  | nil => simp [ha]
  | cons b l ih =>
    rw [List.orderedInsert_cons]
    by_cases hab : r a b
    · rw [if_pos hab, List.filter_cons_of_neg ha]
    · rw [if_neg hab, List.filter_cons, List.filter_cons, ih]

theorem filter_orderedInsert_of_pos [IsTrans α r] {p : α → Bool} {a : α} (ha : p a = true)
    {l : List α} (hsorted : l.Pairwise r) :
    (l.orderedInsert r a).filter p = (l.filter p).orderedInsert r a := by
  induction l with
  | nil => simp [ha]
  | cons b l ih =>
    have htail := List.pairwise_cons.mp hsorted
    rw [List.orderedInsert_cons]
    by_cases hab : r a b
    · -- Whatever is left of the list lies above `a` too.
      have habove : ∀ c ∈ (b :: l).filter p, r a c := by
        intro c hc
        rcases List.mem_cons.mp (List.mem_filter.mp hc).1 with rfl | hmem
        · exact hab
        · exact IsTrans.trans a b c hab (htail.1 c hmem)
      rw [if_pos hab, List.filter_cons_of_pos ha, orderedInsert_of_forall habove]
    · rw [if_neg hab, List.filter_cons, List.filter_cons, ih htail.2]
      by_cases hb : p b = true
      · rw [if_pos hb, if_pos hb, List.orderedInsert_of_not_le r _ hab]
      · rw [if_neg hb, if_neg hb]

/-- Leaving elements out before sorting is leaving them out afterwards. -/
theorem filter_insertionSort [Std.Total r] [IsTrans α r] (p : α → Bool) (l : List α) :
    (l.insertionSort r).filter p = (l.filter p).insertionSort r := by
  induction l with
  | nil => rfl
  | cons a l ih =>
    rw [List.insertionSort_cons, List.filter_cons]
    by_cases ha : p a = true
    · rw [if_pos ha, List.insertionSort_cons, ← ih]
      exact filter_orderedInsert_of_pos ha (List.pairwise_insertionSort r l)
    · rw [if_neg ha, ← ih]
      exact filter_orderedInsert_of_neg ha _

theorem insertionSort_eq_of_perm [Std.Total r] [IsTrans α r] {l l' : List α} (h : l.Perm l')
    (hapart : ∀ a ∈ l, ∀ b ∈ l, r a b → r b a → a = b) : l.insertionSort r = l'.insertionSort r := by
  have hsorts : (l.insertionSort r).Perm (l'.insertionSort r) :=
    (List.perm_insertionSort r l).trans (h.trans (List.perm_insertionSort r l').symm)
  refine hsorts.eq_of_pairwise ?_ (List.pairwise_insertionSort r l) (List.pairwise_insertionSort r l')
  intro a b ha hb hab hba
  have hmem := (List.perm_insertionSort r l').mem_iff.mp hb
  exact hapart a ((List.perm_insertionSort r l).mem_iff.mp ha) b (h.mem_iff.mpr hmem) hab hba

end Sorting
