import Mathlib.Data.List.Range

/-!
# Things numbered from one

A store hands out consecutive numbers and never takes a number back. Two forms of that fact: things
that sit under keys carry the numbers `1` to `n`, each number once, and the things of a list carry
their positions. Both survive adding one thing under the next number.
-/

/-- The keys of some things carry the numbers `1` to `n`, every number exactly once. -/
structure Numbered {κ : Type} (carries : κ → Nat → Prop) (n : Nat) : Prop where
  bounds : ∀ k i, carries k i → 1 ≤ i ∧ i ≤ n
  unique : ∀ i, 1 ≤ i → i ≤ n → ∃! k, carries k i

namespace Numbered

variable {κ : Type} {carries carries' : κ → Nat → Prop} {n : Nat}

theorem zero (h : ∀ k i, ¬ carries k i) : Numbered carries 0 where
  bounds k i hk := absurd hk (h k i)
  unique i h₁ h₂ := by omega

theorem congr (h : Numbered carries n) (hsame : ∀ k i, carries' k i ↔ carries k i) : Numbered carries' n where
  bounds k i hk := h.bounds k i ((hsame k i).mp hk)
  unique i h₁ h₂ := by simpa only [hsame] using h.unique i h₁ h₂

/-- One thing more, under a new key and the next number. -/
theorem add (h : Numbered carries n) {k₀ : κ} (hnext : ∀ k i, carries' k i ↔ (k = k₀ ∧ i = n + 1) ∨ carries k i) :
    Numbered carries' (n + 1) where
  bounds k i hk := by
    rcases (hnext k i).mp hk with ⟨-, rfl⟩ | hold
    · omega
    · have := h.bounds k i hold
      omega
  unique i h₁ h₂ := by
    by_cases hi : i = n + 1
    · subst hi
      refine ⟨k₀, (hnext _ _).mpr (.inl ⟨rfl, rfl⟩), fun k hk => ?_⟩
      rcases (hnext k _).mp hk with ⟨rfl, -⟩ | hold
      · rfl
      · have := (h.bounds k _ hold).2
        omega
    · obtain ⟨k, hk, huniq⟩ := h.unique i h₁ (by omega)
      refine ⟨k, (hnext _ _).mpr (.inr hk), fun k' hk' => ?_⟩
      rcases (hnext k' i).mp hk' with ⟨-, hi'⟩ | hold
      · exact absurd hi' hi
      · exact huniq k' hold

end Numbered

/-- The elements of a list carry their positions, counted from one. -/
def NumberedList {α : Type} (number : α → Nat) (l : List α) : Prop :=
  l.map number = List.range' 1 l.length

namespace NumberedList

variable {α : Type} {number : α → Nat} {l : List α}

theorem nil : NumberedList number [] :=
  rfl

/-- One element more, under the next number. -/
theorem concat (h : NumberedList number l) {a : α} (ha : number a = l.length + 1) : NumberedList number (l ++ [a]) := by
  rw [NumberedList, List.map_append, h, List.length_append, List.map_singleton, ha,
    List.length_singleton, List.range'_concat, Nat.one_mul, Nat.add_comm]

end NumberedList
