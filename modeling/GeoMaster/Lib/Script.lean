import Mathlib.Tactic.Common

/-!
# Scripts that call a host

A script makes calls one after the other and goes on with what each of them replies; it returns a value,
raises an error, or is cut off by a bound on its loops. A run is one choice of replies, listed as the
exchanges made. `Sat` says that all runs of a script, after the exchanges made so far, end in a given way;
it is computed along the script, call by call, and a loop has an invariant that may count its passes.
-/

/-- How a script ends. -/
inductive Outcome (ε α : Type) where
  | returned (a : α)
  | raised (e : ε)
  | cutOff

/-- A script over calls `κ` with replies `ρ`. -/
inductive Script (κ : Type) (ρ : κ → Type) (ε α : Type) where
  | done (outcome : Outcome ε α)
  | await (call : κ) (resume : ρ call → Script κ ρ ε α)

/-- A call and its reply. -/
structure Exchange (κ : Type) (ρ : κ → Type) where
  call : κ
  reply : ρ call

namespace Script

variable {κ : Type} {ρ : κ → Type} {ε α β σ : Type}

/-- Go on with the value a script returns. -/
def andThen (x : Script κ ρ ε α) (f : α → Script κ ρ ε β) : Script κ ρ ε β :=
  match x with
  | .done (.returned a) => f a
  | .done (.raised e) => .done (.raised e)
  | .done .cutOff => .done .cutOff
  | .await call resume => .await call fun reply => andThen (resume reply) f

instance : Monad (Script κ ρ ε) where
  pure a := .done (.returned a)
  bind := andThen

/-- Raise an error. -/
def throw (e : ε) : Script κ ρ ε α :=
  .done (.raised e)

/-- Raise an error when a condition holds. -/
def failIf (c : Prop) [Decidable c] (e : ε) : Script κ ρ ε Unit :=
  if c then throw e else pure ()

/-- A computation without calls. -/
def lift : Except ε α → Script κ ρ ε α
  | .ok a => pure a
  | .error e => throw e

/-- Make a call. -/
def ask (call : κ) : Script κ ρ ε (ρ call) :=
  .await call fun reply => pure reply

/-- Handle an error. -/
def recover (x : Script κ ρ ε α) (handler : ε → Script κ ρ ε α) : Script κ ρ ε α :=
  match x with
  | .done (.raised e) => handler e
  | .done outcome => .done outcome
  | .await call resume => .await call fun reply => recover (resume reply) handler

/-- At most so many passes of a loop: each goes on with a new state or leaves with a value. -/
def loop (body : σ → Script κ ρ ε (σ ⊕ α)) : Nat → σ → Script κ ρ ε α
  | 0, _ => .done .cutOff
  | fuel + 1, s => do
    match ← body s with
    | .inl s' => loop body fuel s'
    | .inr a => pure a

/-! ### Runs -/

/-- A run of a script, with its exchanges in order. -/
inductive Runs : Script κ ρ ε α → List (Exchange κ ρ) → Outcome ε α → Prop where
  | done {outcome : Outcome ε α} : Runs (.done outcome) [] outcome
  | await {call : κ} {resume : ρ call → Script κ ρ ε α} {reply : ρ call}
      {rest : List (Exchange κ ρ)} {outcome : Outcome ε α} :
      Runs (resume reply) rest outcome → Runs (.await call resume) (⟨call, reply⟩ :: rest) outcome

variable {x : Script κ ρ ε β} {f : β → Script κ ρ ε α} {t : List (Exchange κ ρ)}

/-- A run of a sequence, from a run of its first script that returns. -/
theorem Runs.bind {t' : List (Exchange κ ρ)} {b : β}
    {outcome : Outcome ε α} (hx : Runs x t (.returned b)) (hf : Runs (f b) t' outcome) :
    Runs (x >>= f) (t ++ t') outcome := by
  show Runs (andThen x f) (t ++ t') outcome
  generalize hreturned : Outcome.returned b = first at hx
  induction hx with
  | done =>
    subst hreturned
    exact hf
  | await hrest ih => exact .await (ih hreturned)

theorem Runs.bind_cutOff (hx : Runs x t .cutOff) : Runs (x >>= f) t .cutOff := by
  show Runs (andThen x f) t .cutOff
  generalize hcut : Outcome.cutOff = first at hx
  induction hx with
  | done =>
    subst hcut
    exact .done
  | await hrest ih => exact .await (ih hcut)

/-- Every run of a script, with the exchanges before it, ends in this way. -/
def Sat (P : List (Exchange κ ρ) → Outcome ε α → Prop) (x : Script κ ρ ε α) (t : List (Exchange κ ρ)) : Prop :=
  ∀ t' outcome, Runs x t' outcome → P (t ++ t') outcome

section Sat

variable {P : List (Exchange κ ρ) → Outcome ε α → Prop} {t : List (Exchange κ ρ)}

theorem sat_done {outcome : Outcome ε α} : Sat P (.done outcome) t ↔ P t outcome := by
  constructor
  · intro h
    simpa using h [] outcome .done
  · rintro h t' outcome' ⟨⟩
    simpa using h

theorem sat_await {call : κ} {resume : ρ call → Script κ ρ ε α} :
    Sat P (.await call resume) t ↔ ∀ reply, Sat P (resume reply) (t ++ [⟨call, reply⟩]) := by
  constructor
  · intro h reply t' outcome hr
    simpa using h _ _ (.await hr)
  · rintro h t' outcome ⟨⟩
    next rest reply hr => simpa using h reply rest outcome hr

@[simp]
theorem sat_pure {a : α} : Sat P (pure a) t ↔ P t (.returned a) :=
  sat_done

variable {e : ε} {f : α → List (Exchange κ ρ) → Prop} {Q : List (Exchange κ ρ) → Outcome ε β → Prop}
  {x : Script κ ρ ε α}

@[simp]
theorem sat_throw : Sat P (throw e) t ↔ P t (.raised e) :=
  sat_done

@[simp]
theorem sat_ask {call : κ} {Q : List (Exchange κ ρ) → Outcome ε (ρ call) → Prop} :
    Sat Q (ask call) t ↔ ∀ reply, Q (t ++ [⟨call, reply⟩]) (.returned reply) := by
  rw [ask, sat_await]
  exact forall_congr' fun reply => sat_pure

/-- What is to come after a script that returns; an error or a cut ends the sequence. -/
def Then (f : α → List (Exchange κ ρ) → Prop) (P : List (Exchange κ ρ) → Outcome ε β → Prop)
    (t : List (Exchange κ ρ)) : Outcome ε α → Prop
  | .returned a => f a t
  | .raised e => P t (.raised e)
  | .cutOff => P t .cutOff

@[simp]
theorem then_returned {a : α} : Then f Q t (.returned a) ↔ f a t :=
  Iff.rfl

@[simp]
theorem then_raised : Then f Q t (.raised e) ↔ Q t (.raised e) :=
  Iff.rfl

/-- A sequence: the second script runs after what the first has exchanged. -/
@[simp]
theorem sat_bind {x : Script κ ρ ε β} {f : β → Script κ ρ ε α} :
    Sat P (x >>= f) t ↔ Sat (Then (fun b t => Sat P (f b) t) P) x t := by
  show Sat P (andThen x f) t ↔ _
  induction x generalizing t with
  | done outcome =>
    rw [sat_done]
    cases outcome with
    | returned b => rfl
    | raised e => exact sat_done
    | cutOff => exact sat_done
  | await call resume ih =>
    rw [andThen, sat_await, sat_await]
    exact forall_congr' fun reply => ih reply

/-- What is to come after a script that raises; otherwise it ends as it is. -/
def OrElse (f : ε → List (Exchange κ ρ) → Prop) (P : List (Exchange κ ρ) → Outcome ε α → Prop)
    (t : List (Exchange κ ρ)) : Outcome ε α → Prop
  | .returned a => P t (.returned a)
  | .raised e => f e t
  | .cutOff => P t .cutOff

@[simp]
theorem orElse_returned {f : ε → List (Exchange κ ρ) → Prop} {a : α} : OrElse f P t (.returned a) ↔ P t (.returned a) :=
  Iff.rfl

@[simp]
theorem orElse_raised {f : ε → List (Exchange κ ρ) → Prop} : OrElse f P t (.raised e) ↔ f e t :=
  Iff.rfl

/-- A handler runs after what the script has exchanged before it raised. -/
@[simp]
theorem sat_recover {handler : ε → Script κ ρ ε α} :
    Sat P (recover x handler) t ↔ Sat (OrElse (fun e t => Sat P (handler e) t) P) x t := by
  induction x generalizing t with
  | done outcome =>
    rw [sat_done]
    cases outcome with
    | returned a => exact sat_done
    | raised e => rfl
    | cutOff => exact sat_done
  | await call resume ih =>
    rw [recover, sat_await, sat_await]
    exact forall_congr' fun reply => ih reply

@[simp]
theorem sat_failIf {c : Prop} [Decidable c] {Q : List (Exchange κ ρ) → Outcome ε Unit → Prop} :
    Sat Q (failIf c e) t ↔ (c → Q t (.raised e)) ∧ (¬ c → Q t (.returned ())) := by
  unfold failIf
  by_cases hc : c <;> simp [hc]

@[simp]
theorem sat_lift {r : Except ε α} :
    Sat P (lift r) t ↔ (∀ a, r = .ok a → P t (.returned a)) ∧ ∀ e, r = .error e → P t (.raised e) := by
  cases r <;> simp [lift]

/-- What is true of every run may be weakened. -/
theorem Sat.mono {Q : List (Exchange κ ρ) → Outcome ε α → Prop}
    (h : Sat Q x t) (himp : ∀ t outcome, Q t outcome → P t outcome) : Sat P x t :=
  fun t' outcome hr => himp _ _ (h t' outcome hr)

/-- An invariant of a loop, which may depend on the passes left. -/
theorem sat_loop {body : σ → Script κ ρ ε (σ ⊕ α)} {J : Nat → List (Exchange κ ρ) → σ → Prop}
    (hbody : ∀ n t s, J (n + 1) t s →
      Sat (Then (fun next t => next.elim (J n t) fun a => P t (.returned a)) P) (body s) t)
    (hcut : ∀ t s, J 0 t s → P t .cutOff) {fuel : Nat} {s : σ} (hs : J fuel t s) :
    Sat P (loop body fuel s) t := by
  induction fuel generalizing s t with
  | zero =>
    rw [loop, sat_done]
    exact hcut t s hs
  | succ fuel ih =>
    rw [loop, sat_bind]
    refine (hbody fuel t s hs).mono fun t' outcome h => ?_
    cases outcome with
    | returned next =>
      cases next with
      | inl s' => exact ih h
      | inr a => exact sat_pure.mpr h
    | raised e => exact h
    | cutOff => exact h

end Sat

/-- A script whose result does not matter to what comes after it. -/
theorem sat_bind_of_all {P : List (Exchange κ ρ) → Outcome ε α → Prop} (hf : ∀ b t, Sat P (f b) t)
    (hraised : ∀ t e, P t (.raised e)) (hcut : ∀ t, P t .cutOff) : Sat P (x >>= f) t := by
  rw [sat_bind]
  intro t' outcome _
  cases outcome with
  | returned b => exact hf b _
  | raised e => exact hraised _ e
  | cutOff => exact hcut _

/-! ### The calls of a script -/

/-- The calls so far meet a condition, and a script is cut off only if another one holds. -/
def Kept (p : κ → Prop) (cut : Prop) (t : List (Exchange κ ρ)) (outcome : Outcome ε α) : Prop :=
  (∀ e ∈ t, p e.call) ∧ (outcome = .cutOff → cut)

/-- Every call of a script meets a condition, and it is cut off only if another one holds. -/
def Within (p : κ → Prop) (cut : Prop) (x : Script κ ρ ε α) : Prop :=
  Sat (Kept p cut) x []

section Within

variable {p : κ → Prop} {cut : Prop} {t : List (Exchange κ ρ)}

variable {x : Script κ ρ ε α}

/-- What a script keeps, it keeps after calls that meet the condition. -/
theorem Within.sat (hx : Within p cut x) (ht : ∀ e ∈ t, p e.call) : Sat (Kept p cut) x t := by
  intro t' outcome hr
  obtain ⟨hcalls, hcut⟩ := hx t' outcome hr
  refine ⟨fun e he => ?_, hcut⟩
  rcases List.mem_append.mp he with hfirst | hsecond
  · exact ht e hfirst
  · exact hcalls e hsecond

/-- A script goes on from the exchanges before it, and what it adds is kept. -/
theorem Within.extends (hx : Within p cut x) : Sat (fun t' outcome => ∃ u, t' = t ++ u ∧ Kept p cut u outcome) x t :=
  fun u outcome hr => ⟨u, rfl, hx u outcome hr⟩

theorem within_pure {a : α} : Within p cut (pure a : Script κ ρ ε α) :=
  sat_pure.mpr ⟨by simp, by simp⟩

theorem within_throw {e : ε} : Within p cut (throw e : Script κ ρ ε α) :=
  sat_throw.mpr ⟨by simp, by simp⟩

theorem within_failIf {c : Prop} [Decidable c] {e : ε} : Within p cut (failIf c e : Script κ ρ ε Unit) := by
  unfold failIf
  split
  · exact within_throw
  · exact within_pure

theorem within_lift {r : Except ε α} : Within p cut (lift r : Script κ ρ ε α) := by
  cases r with
  | error e => exact within_throw
  | ok a => exact within_pure

theorem within_ask {call : κ} (h : p call) : Within p cut (ask call : Script κ ρ ε (ρ call)) :=
  sat_ask.mpr fun reply => ⟨by simpa using h, by simp⟩

theorem Within.bind {x : Script κ ρ ε β} {f : β → Script κ ρ ε α} (hx : Within p cut x)
    (hf : ∀ b, Within p cut (f b)) : Within p cut (x >>= f) := by
  rw [Within, sat_bind]
  refine Sat.mono hx fun t outcome h => ?_
  cases outcome with
  | returned b => exact (hf b).sat h.1
  | raised e => exact ⟨h.1, by simp⟩
  | cutOff => exact ⟨h.1, fun _ => h.2 rfl⟩

theorem Within.recover {handler : ε → Script κ ρ ε α} (hx : Within p cut x)
    (hh : ∀ e, Within p cut (handler e)) : Within p cut (recover x handler) := by
  rw [Within, sat_recover]
  refine Sat.mono hx fun t outcome h => ?_
  cases outcome with
  | returned a => exact ⟨h.1, by simp⟩
  | raised e => exact (hh e).sat h.1
  | cutOff => exact ⟨h.1, fun _ => h.2 rfl⟩

/-- A loop in which a measure decreases is cut off only when the fuel does not exceed the measure. -/
theorem Within.loop {body : σ → Script κ ρ ε (σ ⊕ α)} {I : σ → Prop} {measure : σ → Nat}
    (hbody : ∀ s, I s → Within p cut (body s))
    (hstep : ∀ s t s', I s → Runs (body s) t (.returned (.inl s')) → I s' ∧ measure s' < measure s)
    {fuel : Nat} {s : σ} (hs : I s) (hcut : fuel ≤ measure s → cut) :
    Within p cut (loop body fuel s) := by
  induction fuel generalizing s with
  | zero => exact sat_done.mpr ⟨by simp, fun _ => hcut (Nat.zero_le _)⟩
  | succ fuel ih =>
    rw [Within, Script.loop, sat_bind]
    intro t outcome hr
    have h := hbody s hs t outcome hr
    cases outcome with
    | returned next =>
      cases next with
      | inl s' =>
        obtain ⟨hs', hlt⟩ := hstep s t s' hs hr
        exact (ih hs' fun hle => hcut (by omega)).sat h.1
      | inr a => exact sat_pure.mpr ⟨h.1, by simp⟩
    | raised e => exact ⟨h.1, by simp⟩
    | cutOff => exact ⟨h.1, fun _ => h.2 rfl⟩

end Within

/-! ### Calls that need what came before -/

/-- Each call is justified by the exchanges before it. -/
def Guarded (G : List (Exchange κ ρ) → κ → Prop) (t : List (Exchange κ ρ)) : Prop :=
  ∀ pre e post, t = pre ++ e :: post → G pre e.call

section Guarded

variable {G : List (Exchange κ ρ) → κ → Prop} {t : List (Exchange κ ρ)}

theorem guarded_nil : Guarded G ([] : List (Exchange κ ρ)) := by
  intro pre e post h
  simp at h

theorem Guarded.concat {e : Exchange κ ρ} (h : Guarded G t) (he : G t e.call) : Guarded G (t ++ [e]) := by
  intro pre x post heq
  rcases List.eq_nil_or_concat post with rfl | ⟨rest, last, rfl⟩
  · obtain ⟨rfl, hx⟩ := List.append_inj' heq rfl
    obtain rfl : e = x := by simpa using hx
    exact he
  · rw [List.concat_eq_append, ← List.cons_append, ← List.append_assoc] at heq
    exact h pre x rest (List.append_inj' heq rfl).1

end Guarded

/-! ### Playing a script -/

/-- The run in which the `n`th call and those after it are answered by a given rule. -/
def play (answers : Nat → (call : κ) → ρ call) : Nat → Script κ ρ ε α → List (Exchange κ ρ) × Outcome ε α
  | _, .done outcome => ([], outcome)
  | n, .await call resume =>
    let rest := play answers (n + 1) (resume (answers n call))
    (⟨call, answers n call⟩ :: rest.1, rest.2)

theorem runs_play (answers : Nat → (call : κ) → ρ call) (n : Nat) (x : Script κ ρ ε α) :
    Runs x (play answers n x).1 (play answers n x).2 := by
  induction x generalizing n with
  | done outcome => exact .done
  | await call resume ih => exact .await (ih (answers n call) (n + 1))

end Script
