import Mathlib.Data.List.Nodup

/-!
# Thinned lists

`Thins drop keep xs ys` says that `ys` is `xs` after some entries were dropped and the others changed, in their order:
every entry that is gone may be dropped, and every entry that stays is related to what it became. Matching every new
entry with the first old one that it can come from decides the relation, when anything may be dropped.
-/

variable {α β γ : Type}

inductive Thins (drop : α → Prop) (keep : α → β → Prop) : List α → List β → Prop where
  | nil : Thins drop keep [] []
  /-- An entry is gone. -/
  | drop {x : α} {xs : List α} {ys : List β} : drop x → Thins drop keep xs ys → Thins drop keep (x :: xs) ys
  /-- An entry became another one. -/
  | keep {x : α} {xs : List α} {y : β} {ys : List β} :
      keep x y → Thins drop keep xs ys → Thins drop keep (x :: xs) (y :: ys)

namespace List

end List

namespace Thins

variable {drop : α → Prop} {keep : α → β → Prop} {xs pre : List α} {ys : List β} {x : α} {y : β}

/-- Entries that may be dropped can be put in front. -/
theorem append_left (hpre : ∀ x ∈ pre, drop x) (h : Thins drop keep xs ys) : Thins drop keep (pre ++ xs) ys := by
  induction pre with
  | nil => exact h
  | cons x pre ih =>
    rw [List.forall_mem_cons] at hpre
    exact .drop hpre.1 (ih hpre.2)

@[simp]
theorem nil_right : Thins drop keep xs [] ↔ ∀ x ∈ xs, drop x := by
  constructor
  · intro h
    generalize hys : ([] : List β) = ys at h
    induction h with
    | nil => exact fun _ h => absurd h List.not_mem_nil
    | drop hx _ ih => exact List.forall_mem_cons.mpr ⟨hx, ih hys⟩
    | keep => cases hys
  · intro h
    have hfront : Thins drop keep (xs ++ []) [] := append_left h .nil
    simpa using hfront

/-- The first new entry comes from some old one, and the ones before that are gone. -/
theorem cons_right :
    Thins drop keep xs (y :: ys)
      ↔ ∃ pre x post, xs = pre ++ x :: post ∧ (∀ x ∈ pre, drop x) ∧ keep x y ∧ Thins drop keep post ys := by
  constructor
  · intro h
    generalize hys : y :: ys = ys' at h
    induction h with
    | nil => cases hys
    | @drop x xs _ hx _ ih =>
      obtain ⟨pre, z, post, rfl, hpre, hz, hpost⟩ := ih hys
      exact ⟨x :: pre, z, post, rfl, List.forall_mem_cons.mpr ⟨hx, hpre⟩, hz, hpost⟩
    | @keep x xs _ _ hx hxs _ =>
      cases hys
      exact ⟨[], x, xs, rfl, fun _ h => absurd h List.not_mem_nil, hx, hxs⟩
  · rintro ⟨pre, x, post, rfl, hpre, hx, hpost⟩
    exact append_left hpre (.keep hx hpost)

/-- With anything dropped before it, the first old entry that can become the new one may be taken for it. -/
theorem of_cons (h : Thins (fun _ => True) keep (x :: xs) (y :: ys)) : Thins (fun _ => True) keep xs ys := by
  obtain ⟨pre, z, post, hxs, -, -, hpost⟩ := cons_right.mp h
  cases pre with
  | nil =>
    cases hxs
    exact hpost
  | cons w pre =>
    cases hxs
    have hdropped : Thins (fun _ => True) keep (z :: post) ys := .drop trivial hpost
    exact append_left (fun _ _ => trivial) hdropped

theorem cons_iff_of_keep (hkeep : keep x y) :
    Thins (fun _ => True) keep (x :: xs) (y :: ys) ↔ Thins (fun _ => True) keep xs ys :=
  ⟨of_cons, .keep hkeep⟩

theorem cons_iff_of_not_keep (hkeep : ¬ keep x y) :
    Thins (fun _ => True) keep (x :: xs) (y :: ys) ↔ Thins (fun _ => True) keep xs (y :: ys) := by
  constructor
  · intro h
    cases h with
    | drop _ h => exact h
    | keep hxy _ => exact absurd hxy hkeep
  · exact .drop trivial

/-- A list in which nothing changes. -/
theorem refl {keep : α → α → Prop} (h : ∀ x ∈ xs, keep x x) : Thins drop keep xs xs := by
  induction xs with
  | nil => exact .nil
  | cons x xs ih =>
    rw [List.forall_mem_cons] at h
    exact .keep h.1 (ih h.2)

theorem append {xs' : List α} {ys' : List β} (h : Thins drop keep xs ys) (h' : Thins drop keep xs' ys') :
    Thins drop keep (xs ++ xs') (ys ++ ys') := by
  induction h with
  | nil => exact h'
  | drop hx _ ih => exact .drop hx ih
  | keep hkeep _ ih => exact .keep hkeep ih

/-- Two thinnings after each other. -/
theorem trans {keep' : β → γ → Prop} {keep'' : α → γ → Prop} {zs : List γ} (h : Thins (fun _ => True) keep xs ys)
    (h' : Thins (fun _ => True) keep' ys zs) (hkeep : ∀ x ∈ xs, ∀ y z, keep x y → keep' y z → keep'' x z) :
    Thins (fun _ => True) keep'' xs zs := by
  induction h generalizing zs with
  | nil =>
    cases h'
    exact .nil
  | drop _ _ ih => exact .drop trivial (ih h' (List.forall_mem_cons.mp hkeep).2)
  | keep hxy _ ih =>
    obtain ⟨hfirst, hrest⟩ := List.forall_mem_cons.mp hkeep
    cases h' with
    | drop _ h' => exact .drop trivial (ih h' hrest)
    | keep hyz h' => exact .keep (hfirst _ _ hxy hyz) (ih h' hrest)

end Thins
