import Mathlib.Data.List.Basic
import Mathlib.Data.Prod.Lex

/-!
# Selecting one element by its key

`maxByKey key l` is an element of the list with the greatest key, the last one if several have it. Where no two
elements have one key it does not depend on their order, and leaving out elements keeps it unless it is left
out itself.
-/

namespace Selection

variable {α κ : Type}

/-- No two elements of the list have one key. -/
def Apart (key : α → κ) (l : List α) : Prop :=
  ∀ a ∈ l, ∀ b ∈ l, key a = key b → a = b

theorem Apart.filter {key : α → κ} {l : List α} {p : α → Bool} (h : Apart key l) : Apart key (l.filter p) :=
  fun a ha b hb => h a (List.mem_filter.mp ha).1 b (List.mem_filter.mp hb).1

variable [LinearOrder κ]

/-- The better one of two elements: the later one, if its key is not smaller. -/
def better (key : α → κ) (best : Option α) (a : α) : Option α :=
  match best with
  | none => some a
  | some b => if key a < key b then some b else some a

/-- The last element with the greatest key. -/
def maxByKey (key : α → κ) (l : List α) : Option α :=
  l.foldl (better key) none

variable {key : α → κ} {l l' : List α} {a b : α}

theorem foldl_better (best : Option α) (h : l.foldl (better key) best = some a) :
    (a ∈ l ∨ best = some a) ∧ (∀ b ∈ l, key b ≤ key a) ∧ ∀ b ∈ best, key b ≤ key a := by
  induction l generalizing best with
  | nil =>
    refine ⟨.inr h, by simp, fun b hb => ?_⟩
    rw [List.foldl_nil, hb] at h
    rw [Option.some.inj h]
  | cons c rest ih =>
    obtain ⟨hmem, hrest, hbest⟩ := ih _ h
    cases best with
    | none =>
      refine ⟨.inl ?_, List.forall_mem_cons.mpr ⟨hbest c rfl, hrest⟩, by simp⟩
      rcases hmem with hmem | hmem
      · exact List.mem_cons_of_mem _ hmem
      · rw [← Option.some.inj hmem]
        exact List.mem_cons_self
    | some d =>
      rw [better] at hmem hbest
      by_cases hlt : key c < key d
      · rw [if_pos hlt] at hmem hbest
        refine ⟨?_, List.forall_mem_cons.mpr ⟨hlt.le.trans (hbest d rfl), hrest⟩, hbest⟩
        exact hmem.imp_left (List.mem_cons_of_mem _)
      · rw [if_neg hlt] at hmem hbest
        have hc : key c ≤ key a := hbest c rfl
        refine ⟨.inl ?_, List.forall_mem_cons.mpr ⟨hc, hrest⟩, fun b hb => ?_⟩
        · rcases hmem with hmem | hmem
          · exact List.mem_cons_of_mem _ hmem
          · rw [← Option.some.inj hmem]
            exact List.mem_cons_self
        · rw [← Option.some.inj hb]
          exact (not_lt.mp hlt).trans hc

theorem foldl_better_isSome (best : Option α) (h : best.isSome ∨ l ≠ []) : (l.foldl (better key) best).isSome := by
  induction l generalizing best with
  | nil => simpa using h
  | cons c rest ih =>
    refine ih _ (.inl ?_)
    cases best with
    | none => rfl
    | some d =>
      rw [better]
      split <;> rfl

theorem maxByKey_eq_none : maxByKey key l = none ↔ l = [] := by
  constructor
  · intro h
    by_contra hne
    have hsome := @foldl_better_isSome _ _ _ key l none (.inr hne)
    rw [show l.foldl (better key) none = none from h] at hsome
    cases hsome
  · rintro rfl
    rfl

theorem maxByKey_mem (h : maxByKey key l = some a) : a ∈ l :=
  (foldl_better none h).1.elim id fun hnone => by cases hnone

theorem le_of_maxByKey (h : maxByKey key l = some a) (hb : b ∈ l) : key b ≤ key a :=
  (foldl_better none h).2.1 b hb

/-- Where keys tell elements apart, the selected element is the one above all others. -/
theorem maxByKey_iff (hapart : Apart key l) : maxByKey key l = some a ↔ a ∈ l ∧ ∀ b ∈ l, key b ≤ key a := by
  constructor
  · exact fun h => ⟨maxByKey_mem h, fun b hb => le_of_maxByKey h hb⟩
  · rintro ⟨hmem, hgreatest⟩
    cases hmax : maxByKey key l with
    | none =>
      rw [maxByKey_eq_none.mp hmax] at hmem
      cases hmem
    | some b =>
      have hb := maxByKey_mem hmax
      have hkey : key b = key a := le_antisymm (hgreatest b hb) (le_of_maxByKey hmax hmem)
      rw [hapart b hb a hmem hkey]

/-- The selection does not depend on the order of the elements. -/
theorem maxByKey_congr (hapart : Apart key l) (h : ∀ a, a ∈ l ↔ a ∈ l') : maxByKey key l = maxByKey key l' := by
  have hapart' : Apart key l' := fun a ha b hb => hapart a ((h a).mpr ha) b ((h b).mpr hb)
  cases hmax : maxByKey key l' with
  | none =>
    rw [maxByKey_eq_none] at hmax ⊢
    subst hmax
    exact List.eq_nil_iff_forall_not_mem.mpr fun a ha => List.not_mem_nil ((h a).mp ha)
  | some a =>
    obtain ⟨hmem, hgreatest⟩ := (maxByKey_iff hapart').mp hmax
    exact (maxByKey_iff hapart).mpr ⟨(h a).mpr hmem, fun b hb => hgreatest b ((h b).mp hb)⟩

/-- Leaving out elements keeps the selected one unless it is left out itself. -/
theorem maxByKey_filter {p q : α → Bool} (hapart : Apart key l) (hsub : ∀ a ∈ l, p a = true → q a = true)
    (hmax : maxByKey key (l.filter q) = some a) (ha : p a = true) : maxByKey key (l.filter p) = some a := by
  have hmem := List.mem_filter.mp (maxByKey_mem hmax)
  refine (maxByKey_iff hapart.filter).mpr ⟨List.mem_filter.mpr ⟨hmem.1, ha⟩, fun b hb => ?_⟩
  obtain ⟨hbl, hbp⟩ := List.mem_filter.mp hb
  exact le_of_maxByKey hmax (List.mem_filter.mpr ⟨hbl, hsub b hbl hbp⟩)

/-! ### One selection for each group -/

/-- The better one of two elements: the later one, if its key is greater. -/
def newer (key : α → κ) (best : Option α) (a : α) : Option α :=
  match best with
  | none => some a
  | some b => if key b < key a then some a else some b

/-- Where keys tell elements apart, it does not matter which of two equal ones is kept. -/
theorem foldl_newer {best : Option α} (hapart : ∀ a ∈ l, ∀ b, b ∈ l ∨ best = some b → key a = key b → a = b) :
    l.foldl (newer key) best = l.foldl (better key) best := by
  induction l generalizing best with
  | nil => rfl
  | cons c rest ih =>
    have hstep : newer key best c = better key best c := by
      cases best with
      | none => rfl
      | some b =>
        rw [newer, better]
        rcases lt_trichotomy (key b) (key c) with hlt | heq | hlt
        · rw [if_pos hlt, if_neg hlt.not_gt]
        · obtain rfl := hapart c List.mem_cons_self b (.inr rfl) heq.symm
          rw [ite_self]
        · rw [if_neg hlt.not_gt, if_pos hlt]
    rw [List.foldl_cons, List.foldl_cons, hstep]
    refine ih fun a ha b hb => ?_
    refine hapart a (List.mem_cons_of_mem _ ha) b ?_
    rcases hb with hb | hb
    · exact .inl (List.mem_cons_of_mem _ hb)
    · cases best with
      | none =>
        rw [← Option.some.inj hb]
        exact .inl List.mem_cons_self
      | some d =>
        rw [better] at hb
        split at hb
        · exact .inr hb
        · rw [← Option.some.inj hb]
          exact .inl List.mem_cons_self

end Selection
