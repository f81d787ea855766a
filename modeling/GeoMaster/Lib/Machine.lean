import Mathlib.Data.List.Induction

/-!
# Labelled transition systems

A machine steps from state to state, and every step carries a label. A run collects its labels in
order, so a statement about a run can speak of what happened before. The rules below turn facts
about one step into facts about every run: an invariant that holds at the start and is preserved by
every step, a relation between the two ends of a run that every step extends, and a fact about the
labels seen so far together with the state reached.
-/

/-- A transition system with labelled steps. -/
structure Machine (σ ε : Type) where
  /-- One step. -/
  step : σ → ε → σ → Prop

namespace Machine

variable {σ ε : Type}

/-- A run from one state to another, with the labels of its steps in order. -/
inductive Run (M : Machine σ ε) (s : σ) : List ε → σ → Prop where
  /-- The run of no step. -/
  | refl : Run M s [] s
  /-- A run, and one step more. -/
  | tail {h : List ε} {s' s'' : σ} {e : ε} : Run M s h s' → M.step s' e s'' → Run M s (h ++ [e]) s''

/-- The states some run reaches. -/
def Reachable (M : Machine σ ε) (s s' : σ) : Prop :=
  ∃ h, Run M s h s'

/-- Only the steps whose start state and label satisfy a condition. -/
def restrict (M : Machine σ ε) (ok : σ → ε → Prop) : Machine σ ε where
  step s e s' := ok s e ∧ M.step s e s'

variable {M : Machine σ ε}

variable {s s' : σ} {h : List ε} {ok : σ → ε → Prop}

theorem Run.single {e : ε} (h : M.step s e s') : Run M s [e] s' :=
  Run.tail (h := []) .refl h

theorem Run.append {s'' : σ} {h' : List ε} (hr : Run M s h s') (hr' : Run M s' h' s'') : Run M s (h ++ h') s'' := by
  induction hr' with
  | refl => simpa using hr
  | tail _ hstep ih => simpa using Run.tail ih hstep

theorem Run.invariant {I : σ → Prop} (hstep : ∀ s e s', I s → M.step s e s' → I s') (hr : Run M s h s') (hs : I s) : I s' := by
  induction hr with
  | refl => exact hs
  | tail _ hst ih => exact hstep _ _ _ ih hst

/-- An invariant that may mention the labels seen so far. -/
theorem Run.history {I : List ε → σ → Prop} (hstep : ∀ h s e s', I h s → M.step s e s' → I (h ++ [e]) s') (hr : Run M s h s') (hs : I [] s) : I h s' := by
  induction hr with
  | refl => exact hs
  | tail _ hst ih => exact hstep _ _ _ _ ih hst

/-- A reflexive and transitive relation that every step from a state of the invariant respects
holds between the two ends of a run. -/
theorem Run.relates {I : σ → Prop} {R : σ → σ → Prop} (hinv : ∀ s e s', I s → M.step s e s' → I s')
    (hrefl : ∀ s, R s s) (htrans : ∀ s s' s'', R s s' → R s' s'' → R s s'')
    (hstep : ∀ s e s', I s → M.step s e s' → R s s') (hr : Run M s h s') (hs : I s) : R s s' := by
  induction hr with
  | refl => exact hrefl _
  | tail hr' hst ih => exact htrans _ _ _ ih (hstep _ _ _ (Run.invariant hinv hr' hs) hst)

/-- A run whose steps meet a condition meets every weaker one. -/
theorem Run.restrict_imp {ok' : σ → ε → Prop} (himp : ∀ s e, ok s e → ok' s e) (hr : Run (M.restrict ok) s h s') : Run (M.restrict ok') s h s' := by
  induction hr with
  | refl => exact .refl
  | tail _ hst ih => exact ih.tail ⟨himp _ _ hst.1, hst.2⟩

theorem Run.of_restrict (hr : Run (M.restrict ok) s h s') : Run M s h s' := by
  induction hr with
  | refl => exact .refl
  | tail _ hst ih => exact ih.tail hst.2

end Machine
