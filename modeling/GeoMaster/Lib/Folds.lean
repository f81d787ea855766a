import GeoMaster.Lib.Op

/-!
# Folds that may fail

Rules for `List.foldlM` in `Except`. `foldlM_invariant` is the induction on what was read so far. `Agree` relates
two computations that fail with the same error or return related values, and passes through binds and folds.
`foldlM_map_congr` replaces the elements of a list one by one under an invariant of the state.
-/

namespace Except

variable {ε α β γ σ τ : Type}

variable {f : σ → α → Except ε σ} {l : List α}

/-- What holds before the first element, and what each step carries from the elements read so far to one more,
holds of the whole list. -/
theorem foldlM_invariant (I : List α → σ → Prop) {s s' : σ} (start : I [] s)
    (step : ∀ read a s s', I read s → f s a = .ok s' → I (read ++ [a]) s') (h : l.foldlM f s = .ok s') : I l s' := by
  -- Generalised over the elements read, as the step appends to them.
  have key : ∀ rest read s, I read s → rest.foldlM f s = .ok s' → I (read ++ rest) s' := by
    intro rest
    induction rest with
    | nil =>
      intro read s hs hrest
      rw [List.foldlM_nil, pure_eq_ok] at hrest
      rw [List.append_nil, ← hrest]
      exact hs
    | cons a rest ih =>
      intro read s hs hrest
      rw [List.foldlM_cons, bind_eq_ok] at hrest
      obtain ⟨s₁, hstep, hrest⟩ := hrest
      have hlist : read ++ a :: rest = (read ++ [a]) ++ rest := by simp
      rw [hlist]
      exact ih (read ++ [a]) s₁ (step read a s s₁ hs hstep) hrest
  exact key l [] s start h

theorem foldlM_preserves (I : σ → Prop) {s s' : σ} (hs : I s)
    (step : ∀ a ∈ l, ∀ s s', I s → f s a = .ok s' → I s') (h : l.foldlM f s = .ok s') : I s' := by
  induction l generalizing s with
  | nil =>
    rw [List.foldlM_nil, pure_eq_ok] at h
    exact h ▸ hs
  | cons a l ih =>
    rw [List.foldlM_cons, bind_eq_ok] at h
    obtain ⟨s₁, hstep, hrest⟩ := h
    have hs₁ := step a List.mem_cons_self s s₁ hs hstep
    exact ih hs₁ (fun b hb => step b (List.mem_cons_of_mem a hb)) hrest

/-- Two ways to go on from a result that do the same with it. -/
theorem bind_congr_ok {x : Except ε α} {f g : α → Except ε β} (h : ∀ a, x = .ok a → f a = g a) :
    (x >>= f) = x >>= g := by
  cases hx : x with
  | ok a => exact h a hx
  | error e => rfl

theorem map_bind (f : β → γ) (x : Except ε α) (g : α → Except ε β) :
    Except.map f (x >>= g) = x >>= fun a => Except.map f (g a) := by
  cases x <;> rfl

/-- Replace the elements of a list by others that do the same from every state the fold can be in. -/
theorem foldlM_map_congr {change : α → α} (I : σ → Prop) (same : ∀ a ∈ l, ∀ s, I s → f s (change a) = f s a)
    (keeps : ∀ a ∈ l, ∀ s s', I s → f s a = .ok s' → I s') {s : σ} (hs : I s) :
    (l.map change).foldlM f s = l.foldlM f s := by
  induction l generalizing s with
  | nil => rfl
  | cons a l ih =>
    rw [List.map_cons, List.foldlM_cons, List.foldlM_cons, same a List.mem_cons_self s hs]
    cases hstep : f s a with
    | error e => rfl
    | ok s' =>
      have hs' := keeps a List.mem_cons_self s s' hs hstep
      exact ih (fun b hb => same b (List.mem_cons_of_mem a hb)) (fun b hb => keeps b (List.mem_cons_of_mem a hb)) hs'

/-! ### Computations that agree -/

/-- Both return, with related values, or both fail with one error. -/
inductive Agree (R : α → β → Prop) : Except ε α → Except ε β → Prop where
  | ok {a : α} {b : β} (h : R a b) : Agree R (.ok a) (.ok b)
  | error (e : ε) : Agree R (.error e) (.error e)

namespace Agree

variable {R : α → β → Prop} {S : σ → τ → Prop}

theorem refl (x : Except ε α) : Agree (fun a b => a = b) x x := by
  cases x with
  | ok a => exact .ok rfl
  | error e => exact .error e

variable {x : Except ε α} {y : Except ε β}

theorem bind {f : α → Except ε σ} {g : β → Except ε τ} (h : Agree R x y) (hnext : ∀ a b, R a b → Agree S (f a) (g b)) :
    Agree S (x >>= f) (y >>= g) := by
  cases h with
  | ok hab => exact hnext _ _ hab
  | error e => exact .error e

theorem bindSame {x : Except ε γ} {f : γ → Except ε σ} {g : γ → Except ε τ}
    (hnext : ∀ a, Agree S (f a) (g a)) : Agree S (x >>= f) (x >>= g) := by
  apply bind (refl x)
  rintro a _ rfl
  exact hnext a

theorem foldlM {f : σ → γ → Except ε σ} {g : τ → γ → Except ε τ} (step : ∀ s t a, S s t → Agree S (f s a) (g t a))
    {s : σ} {t : τ} (h : S s t) (l : List γ) : Agree S (l.foldlM f s) (l.foldlM g t) := by
  induction l generalizing s t with
  | nil => exact .ok h
  | cons a l ih =>
    rw [List.foldlM_cons, List.foldlM_cons]
    exact bind (step s t a h) fun s' t' h' => ih h'

theorem returns (h : Agree R x y) {a : α} (ha : x = .ok a) : ∃ b, y = .ok b ∧ R a b := by
  cases h with
  | ok hab => exact ⟨_, rfl, Except.ok.inj ha ▸ hab⟩
  | error e => cases ha

end Agree

end Except
