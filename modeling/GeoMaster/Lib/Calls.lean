import GeoMaster.Lib.Machine
import GeoMaster.Lib.Op

/-!
# Stores driven by calls

A store is used through calls: each names an operation with its arguments and is answered by a reply
or an error. The machine of a store takes any call in any order and puts between two calls whatever the
store may do on its own, such as listing a hash table in another order. `after` and `trace` run given
calls one after the other, so a closed run can be computed.
-/

variable {σ κ ε ρ : Type}

/-- A step of a run: a call with its reply or error, or a step of the store on its own. -/
inductive CallEvent (κ ε ρ : Type) where
  | call (call : κ) (reply : Except ε ρ)
  | reorder

/-- A store as a machine. -/
def callMachine (run : κ → Op σ ε ρ) (reordered : σ → σ → Prop) : Machine σ (CallEvent κ ε ρ) where
  step s e s' :=
    match e with
    | .call call reply => (run call).run s = (reply, s')
    | .reorder => reordered s s'

namespace callMachine

variable {run : κ → Op σ ε ρ} {reordered : σ → σ → Prop} {I : σ → Prop} {s s' : σ} {e : CallEvent κ ε ρ}

/-- What every call keeps, and the store keeps on its own, every step keeps. -/
theorem step_preserves (hrun : ∀ call, (run call).Preserves I) (hreordered : ∀ s s', I s → reordered s s' → I s')
    (hs : I s) (h : (callMachine run reordered).step s e s') : I s' := by
  cases e with
  | reorder => exact hreordered s s' hs h
  | call call reply =>
    have hpreserved := (hrun call).preserved s hs
    rwa [show (run call).run s = (reply, s') from h] at hpreserved

theorem step_failed {call : κ} {err : ε} (hatomic : (run call).Atomic)
    (h : (callMachine run reordered).step s (.call call (.error err)) s') : s' = s :=
  hatomic.failed s err s' h

end callMachine

namespace Calls

variable (run : κ → Op σ ε ρ)

/-- The store after some calls, one after the other. -/
def after (s : σ) : List κ → σ
  | [] => s
  | call :: rest => after ((run call).run s).2 rest

/-- The calls with their replies. -/
def trace (s : σ) : List κ → List (CallEvent κ ε ρ)
  | [] => []
  | call :: rest => .call call ((run call).run s).1 :: trace ((run call).run s).2 rest

/-- Each call meets the condition in the state it finds. -/
def Allowed (ok : σ → CallEvent κ ε ρ → Prop) (s : σ) : List κ → Prop
  | [] => True
  | call :: rest => ok s (.call call ((run call).run s).1) ∧ Allowed ok ((run call).run s).2 rest

/-- Whether given calls are allowed can be computed. -/
instance decidableAllowed (ok : σ → CallEvent κ ε ρ → Prop) [∀ s e, Decidable (ok s e)] :
    (calls : List κ) → (s : σ) → Decidable (Allowed run ok s calls)
  | [], _ => .isTrue trivial
  | call :: rest, s =>
    haveI := decidableAllowed ok rest ((run call).run s).2
    inferInstanceAs (Decidable (_ ∧ _))

variable {run}

theorem Allowed.append {ok : σ → CallEvent κ ε ρ → Prop} {s : σ} {calls more : List κ} (h : Allowed run ok s calls)
    (h' : Allowed run ok (after run s calls) more) : Allowed run ok s (calls ++ more) := by
  induction calls generalizing s with
  | nil => exact h'
  | cons call rest ih => exact ⟨h.1, ih h.2 h'⟩

theorem run_trace {ok : σ → CallEvent κ ε ρ → Prop} {reordered : σ → σ → Prop} (calls : List κ)
    (s : σ) (hok : Allowed run ok s calls) :
    ((callMachine run reordered).restrict ok).Run s (trace run s calls) (after run s calls) := by
  induction calls generalizing s with
  | nil => exact .refl
  | cons call rest ih =>
    have hfirst : ((callMachine run reordered).restrict ok).Run s
        [.call call ((run call).run s).1] ((run call).run s).2 := by
      refine .single ⟨hok.1, ?_⟩
      rfl
    exact hfirst.append (ih _ hok.2)

/-- No call is refused where there is no condition. -/
theorem run_trace_all (run : κ → Op σ ε ρ) (reordered : σ → σ → Prop) (calls : List κ) (s : σ) :
    (callMachine run reordered).Run s (trace run s calls) (after run s calls) := by
  have hall (calls : List κ) (s : σ) : Allowed run (fun _ _ => True) s calls := by
    induction calls generalizing s with
    | nil => trivial
    | cons call rest ih => exact ⟨trivial, ih _⟩
  exact (run_trace calls s (hall calls s)).of_restrict

end Calls
