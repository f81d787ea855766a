import Mathlib.Tactic.Common

/-!
# Operations on a store that may fail

An operation reads a store, may change it, and either returns a value or fails with an error.
A failure does not undo what the operation has already written: the store left behind is part of
the result in both cases. That a particular operation writes nothing when it fails is therefore a
property to prove of it, `Atomic`, and this file has its rules: reads are atomic, what always
returns is atomic, and reads may be put before an atomic operation.

`Returns x s a s'` says that `x`, run on `s`, returns `a` and leaves `s'`. Its simp rules turn a
successful run of a long operation into the list of the checks it passed and the store it wrote,
so a proof about an operation never unfolds the monad. `zoom` runs an operation on one component of
a larger store.
-/

namespace Except

variable {ε α β : Type}

/-- Fail when a condition holds. -/
def failIf (c : Prop) [Decidable c] (e : ε) : Except ε Unit :=
  if c then .error e else .ok ()

/-- The value of an option, or a failure. -/
def okOr (o : Option α) (e : ε) : Except ε α :=
  match o with
  | some a => .ok a
  | none => .error e

@[simp]
theorem bind_eq_ok {x : Except ε α} {f : α → Except ε β} {b : β} :
    (x >>= f) = .ok b ↔ ∃ a, x = .ok a ∧ f a = .ok b := by
  cases x <;> simp [bind, Except.bind]

@[simp]
theorem pure_eq_ok {a b : α} : (pure a : Except ε α) = .ok b ↔ a = b := by
  simp [pure, Except.pure]

@[simp]
theorem failIf_eq_ok {c : Prop} [Decidable c] {e : ε} {u : Unit} : failIf c e = .ok u ↔ ¬ c := by
  unfold failIf
  by_cases h : c <;> simp [h]

@[simp]
theorem okOr_eq_ok {o : Option α} {e : ε} {a : α} : okOr o e = .ok a ↔ o = some a := by
  cases o <;> simp [okOr]

/-- When the parts of a fallible program succeed, as one set of rewriting rules. -/
theorem eq_ok_iff :
    (∀ {α β : Type} {x : Except ε α} {f : α → Except ε β} {b}, (x >>= f) = .ok b ↔ ∃ a, x = .ok a ∧ f a = .ok b) ∧
    (∀ {α : Type} {a b : α}, (pure a : Except ε α) = .ok b ↔ a = b) ∧
    (∀ {c : Prop} [Decidable c] {e : ε} {u}, failIf c e = .ok u ↔ ¬ c) ∧
    ∀ {α : Type} {o : Option α} {e : ε} {a}, okOr o e = .ok a ↔ o = some a :=
  ⟨bind_eq_ok, pure_eq_ok, failIf_eq_ok, okOr_eq_ok⟩

end Except

/-- An operation on a store of type `σ` with errors `ε` and results `α`. -/
def Op (σ ε α : Type) : Type :=
  σ → Except ε α × σ

namespace Op

variable {σ τ ε α β : Type}

instance : Monad (Op σ ε) where
  pure a := fun s => (.ok a, s)
  bind x f := fun s =>
    match x s with
    | (.ok a, s') => f a s'
    | (.error e, s') => (.error e, s')

/-- Run an operation: its outcome, and the store it leaves. -/
def run (x : Op σ ε α) (s : σ) : Except ε α × σ :=
  x s

/-- Read a function of the store. -/
def read (f : σ → α) : Op σ ε α :=
  fun s => (.ok (f s), s)

/-- Change the store. -/
def modify (f : σ → σ) : Op σ ε Unit :=
  fun s => (.ok (), f s)

/-- Fail. -/
def throw (e : ε) : Op σ ε α :=
  fun s => (.error e, s)

/-- Fail when a condition holds. -/
def failIf (c : Prop) [Decidable c] (e : ε) : Op σ ε Unit :=
  if c then throw e else pure ()

/-- The value of an option, or a failure. -/
def okOr (o : Option α) (e : ε) : Op σ ε α :=
  match o with
  | some a => pure a
  | none => throw e

/-- The outcome of a computation that does not touch the store. -/
def lift (r : Except ε α) : Op σ ε α :=
  fun s => (r, s)

/-- Answer a failure in some way. What was written before it stays written. -/
def recover (x : Op σ ε α) (answer : ε → α) : Op σ ε α :=
  fun s =>
    match x s with
    | (.ok a, s') => (.ok a, s')
    | (.error e, s') => (.ok (answer e), s')

/-- Run an operation on one component of a larger store. -/
def zoom (get : σ → τ) (set : τ → σ → σ) (x : Op τ ε α) : Op σ ε α :=
  fun s => ((x.run (get s)).1, set (x.run (get s)).2 s)

/-- Running on a component runs the operation there and puts the result back. -/
theorem run_zoom (get : σ → τ) (set : τ → σ → σ) (x : Op τ ε α) (s : σ) :
    (zoom get set x).run s = ((x.run (get s)).1, set (x.run (get s)).2 s) :=
  rfl

/-! ### Successful runs -/

/-- `x`, run on `s`, returns `a` and leaves `s'`. -/
def Returns (x : Op σ ε α) (s : σ) (a : α) (s' : σ) : Prop :=
  x.run s = (.ok a, s')

section Returns

variable {s s' : σ} {a b : α}

@[simp]
theorem returns_pure : Returns (pure a : Op σ ε α) s b s' ↔ a = b ∧ s = s' := by
  simp [Returns, run, pure]

@[simp]
theorem returns_bind {x : Op σ ε β} {f : β → Op σ ε α} :
    Returns (x >>= f) s a s' ↔ ∃ b s₁, Returns x s b s₁ ∧ Returns (f b) s₁ a s' := by
  constructor
  · intro h
    simp only [Returns, run, bind] at h
    split at h
    · rename_i c s₁ heq
      exact ⟨c, s₁, heq, h⟩
    · simp at h
  · rintro ⟨c, s₁, hx, hf⟩
    simp only [Returns, run] at hx hf ⊢
    simp only [bind, hx, hf]

@[simp]
theorem returns_read {f : σ → α} : Returns (read f : Op σ ε α) s b s' ↔ f s = b ∧ s = s' := by
  simp [Returns, run, read]

@[simp]
theorem returns_modify {f : σ → σ} {u : Unit} : Returns (modify f : Op σ ε Unit) s u s' ↔ f s = s' := by
  simp [Returns, run, modify]

@[simp]
theorem not_returns_throw {e : ε} : ¬ Returns (throw e : Op σ ε α) s a s' := by
  simp [Returns, run, throw]

@[simp]
theorem returns_failIf {c : Prop} [Decidable c] {e : ε} {u : Unit} :
    Returns (failIf c e : Op σ ε Unit) s u s' ↔ ¬ c ∧ s = s' := by
  unfold failIf
  by_cases h : c <;> simp [h]

@[simp]
theorem returns_okOr {o : Option α} {e : ε} : Returns (okOr o e : Op σ ε α) s a s' ↔ o = some a ∧ s = s' := by
  cases o <;> simp [okOr]

@[simp]
theorem returns_lift {r : Except ε α} : Returns (lift r : Op σ ε α) s a s' ↔ r = .ok a ∧ s = s' := by
  simp [Returns, run, lift]

/-- When the parts of an operation return, as one set of rewriting rules. -/
theorem returns_iff :
    (∀ {α β : Type} {x : Op σ ε β} {f : β → Op σ ε α} {s s' a},
      Returns (x >>= f) s a s' ↔ ∃ b s₁, Returns x s b s₁ ∧ Returns (f b) s₁ a s') ∧
    (∀ {α : Type} {a b : α} {s s'}, Returns (pure a : Op σ ε α) s b s' ↔ a = b ∧ s = s') ∧
    (∀ {α : Type} {f : σ → α} {s s' b}, Returns (read f : Op σ ε α) s b s' ↔ f s = b ∧ s = s') ∧
    (∀ {f : σ → σ} {u s s'}, Returns (modify f : Op σ ε Unit) s u s' ↔ f s = s') ∧
    (∀ {α : Type} {e : ε} {s s'} {a : α}, ¬ Returns (throw e : Op σ ε α) s a s') ∧
    (∀ {c : Prop} [Decidable c] {e : ε} {u s s'}, Returns (failIf c e : Op σ ε Unit) s u s' ↔ ¬ c ∧ s = s') ∧
    (∀ {α : Type} {o : Option α} {e : ε} {s s' a}, Returns (okOr o e : Op σ ε α) s a s' ↔ o = some a ∧ s = s') ∧
    ∀ {α : Type} {r : Except ε α} {s s' a}, Returns (lift r : Op σ ε α) s a s' ↔ r = .ok a ∧ s = s' :=
  ⟨returns_bind, returns_pure, returns_read, returns_modify, not_returns_throw, returns_failIf, returns_okOr,
    returns_lift⟩

theorem returns_zoom {get : σ → τ} {set : τ → σ → σ} {x : Op τ ε α} :
    Returns (zoom get set x) s a s' ↔ ∃ t', Returns x (get s) a t' ∧ set t' s = s' := by
  unfold Returns
  rw [run_zoom, Prod.mk.injEq]
  constructor
  · rintro ⟨hr, hs⟩
    exact ⟨_, Prod.ext hr rfl, hs⟩
  · rintro ⟨t', h, rfl⟩
    rw [h]
    exact ⟨rfl, rfl⟩

end Returns

/-! ### Failing runs -/

/-- `x`, run on `s`, fails with `e` and leaves `s'`. -/
def Fails (x : Op σ ε α) (s : σ) (e : ε) (s' : σ) : Prop :=
  x.run s = (.error e, s')

section Fails

variable {s s' : σ} {e e' : ε}

@[simp]
theorem not_fails_pure {a : α} : ¬ Fails (pure a : Op σ ε α) s e s' := by
  simp [Fails, run, pure]

@[simp]
theorem fails_bind {x : Op σ ε β} {f : β → Op σ ε α} :
    Fails (x >>= f) s e s' ↔ Fails x s e s' ∨ ∃ b s₁, Returns x s b s₁ ∧ Fails (f b) s₁ e s' := by
  simp only [Fails, Returns, run, bind]
  rcases hx : x s with ⟨r, s₁⟩
  cases r with
  | ok b => simp
  | error e₁ => simp

@[simp]
theorem not_fails_read {f : σ → α} : ¬ Fails (read f : Op σ ε α) s e s' := by
  simp [Fails, run, read]

@[simp]
theorem not_fails_modify {f : σ → σ} : ¬ Fails (modify f : Op σ ε Unit) s e s' := by
  simp [Fails, run, modify]

@[simp]
theorem fails_throw : Fails (throw e' : Op σ ε α) s e s' ↔ e' = e ∧ s = s' := by
  simp [Fails, run, throw]

@[simp]
theorem fails_failIf {c : Prop} [Decidable c] : Fails (failIf c e' : Op σ ε Unit) s e s' ↔ c ∧ e' = e ∧ s = s' := by
  unfold failIf
  by_cases h : c <;> simp [h]

@[simp]
theorem fails_okOr {o : Option α} : Fails (okOr o e' : Op σ ε α) s e s' ↔ o = none ∧ e' = e ∧ s = s' := by
  cases o <;> simp [okOr]

@[simp]
theorem fails_lift {r : Except ε α} : Fails (lift r : Op σ ε α) s e s' ↔ r = .error e ∧ s = s' := by
  simp [Fails, run, lift]

/-- When the parts of an operation fail, as one set of rewriting rules. -/
theorem fails_iff :
    (∀ {α β : Type} {x : Op σ ε β} {f : β → Op σ ε α} {s s' e},
      Fails (x >>= f) s e s' ↔ Fails x s e s' ∨ ∃ b s₁, Returns x s b s₁ ∧ Fails (f b) s₁ e s') ∧
    (∀ {α : Type} {a : α} {s s' e}, ¬ Fails (pure a : Op σ ε α) s e s') ∧
    (∀ {α : Type} {f : σ → α} {s s' e}, ¬ Fails (read f : Op σ ε α) s e s') ∧
    (∀ {f : σ → σ} {s s' e}, ¬ Fails (modify f : Op σ ε Unit) s e s') ∧
    (∀ {α : Type} {e e' : ε} {s s'}, Fails (throw e' : Op σ ε α) s e s' ↔ e' = e ∧ s = s') ∧
    (∀ {c : Prop} [Decidable c] {e e' : ε} {s s'}, Fails (failIf c e' : Op σ ε Unit) s e s' ↔ c ∧ e' = e ∧ s = s') ∧
    (∀ {α : Type} {o : Option α} {e e' : ε} {s s'}, Fails (okOr o e' : Op σ ε α) s e s' ↔ o = none ∧ e' = e ∧ s = s') ∧
    ∀ {α : Type} {r : Except ε α} {s s' e}, Fails (lift r : Op σ ε α) s e s' ↔ r = .error e ∧ s = s' :=
  ⟨fails_bind, not_fails_pure, not_fails_read, not_fails_modify, fails_throw, fails_failIf, fails_okOr, fails_lift⟩

variable {answer : ε → α}

@[simp]
theorem not_fails_recover {x : Op σ ε α} : ¬ Fails (recover x answer) s e s' := by
  simp only [Fails, run, recover]
  rcases x s with ⟨_ | _, _⟩ <;> simp

@[simp]
theorem returns_recover {x : Op σ ε α} {a : α} :
    Returns (recover x answer) s a s' ↔ Returns x s a s' ∨ ∃ e, Fails x s e s' ∧ answer e = a := by
  simp only [Returns, Fails, run, recover]
  rcases x s with ⟨_ | _, _⟩ <;> simp [and_comm]

theorem fails_zoom {get : σ → τ} {set : τ → σ → σ} {x : Op τ ε α} :
    Fails (zoom get set x) s e s' ↔ ∃ t', Fails x (get s) e t' ∧ set t' s = s' := by
  unfold Fails
  rw [run_zoom, Prod.mk.injEq]
  constructor
  · rintro ⟨hr, hs⟩
    exact ⟨_, Prod.ext hr rfl, hs⟩
  · rintro ⟨t', h, rfl⟩
    rw [h]
    exact ⟨rfl, rfl⟩

end Fails

/-! ### What a run leaves behind -/

/-- No run changes the store. -/
structure ReadOnly (x : Op σ ε α) : Prop where
  keeps : ∀ s, (x.run s).2 = s

/-- Every run returns. -/
structure Total (x : Op σ ε α) : Prop where
  runs : ∀ s, ∃ a s', x.run s = (.ok a, s')

/-- A failing run leaves the store as it was. -/
structure Atomic (x : Op σ ε α) : Prop where
  failed : ∀ s e s', Fails x s e s' → s' = s

namespace ReadOnly

@[simp]
protected theorem pure {a : α} : ReadOnly (pure a : Op σ ε α) :=
  ⟨fun _ => rfl⟩

@[simp]
protected theorem read {f : σ → α} : ReadOnly (read f : Op σ ε α) :=
  ⟨fun _ => rfl⟩

@[simp]
protected theorem throw {e : ε} : ReadOnly (throw e : Op σ ε α) :=
  ⟨fun _ => rfl⟩

@[simp]
protected theorem lift {r : Except ε α} : ReadOnly (lift r : Op σ ε α) :=
  ⟨fun _ => rfl⟩

@[simp]
protected theorem failIf {c : Prop} [Decidable c] {e : ε} : ReadOnly (failIf c e : Op σ ε Unit) := by
  unfold failIf
  split <;> simp

@[simp]
protected theorem okOr {o : Option α} {e : ε} : ReadOnly (okOr o e : Op σ ε α) := by
  cases o <;> simp [okOr]

protected theorem bind {x : Op σ ε β} {f : β → Op σ ε α} (hx : ReadOnly x)
    (hf : ∀ b, ReadOnly (f b)) : ReadOnly (x >>= f) := by
  constructor
  intro s
  have h := hx.keeps s
  simp only [run, Bind.bind] at h ⊢
  split
  · rename_i c s₁ heq
    rw [heq] at h
    exact ((hf c).keeps s₁).trans h
  · rename_i c s₁ heq
    rw [heq] at h
    exact h

protected theorem zoom {get : σ → τ} {set : τ → σ → σ} {x : Op τ ε α}
    (hset : ∀ s, set (get s) s = s) (hx : ReadOnly x) : ReadOnly (zoom get set x) := by
  constructor
  intro s
  rw [run_zoom, hx.keeps (get s), hset]

/-- A returning run of a read-only operation leaves the store as it was. -/
theorem returns {x : Op σ ε α} (hx : ReadOnly x) {s s' : σ} {a : α} (h : Returns x s a s') : s' = s := by
  have := hx.keeps s
  rw [Returns] at h
  rwa [h] at this

theorem atomic {x : Op σ ε α} (hx : ReadOnly x) : Atomic x := by
  constructor
  intro s e s' h
  have := hx.keeps s
  rw [Fails] at h
  rwa [h] at this

end ReadOnly

namespace Total

protected theorem read {f : σ → α} : Total (read f : Op σ ε α) :=
  ⟨fun s => ⟨f s, s, rfl⟩⟩

protected theorem pure {a : α} : Total (pure a : Op σ ε α) :=
  ⟨fun s => ⟨a, s, rfl⟩⟩

protected theorem modify {g : σ → σ} : Total (modify g : Op σ ε Unit) :=
  ⟨fun s => ⟨(), g s, rfl⟩⟩

protected theorem bind {x : Op σ ε β} {k : β → Op σ ε α} (hx : Total x) (hk : ∀ b, Total (k b)) : Total (x >>= k) := by
  constructor
  intro s
  obtain ⟨b, s₁, h₁⟩ := hx.runs s
  obtain ⟨a, s₂, h₂⟩ := (hk b).runs s₁
  have hrun : Returns (x >>= k) s a s₂ := returns_bind.mpr ⟨b, s₁, h₁, h₂⟩
  exact ⟨a, s₂, hrun⟩

theorem atomic {x : Op σ ε α} (hx : Total x) : Atomic x := by
  constructor
  intro s e s' h
  obtain ⟨a, s₁, h₁⟩ := hx.runs s
  rw [Fails, h₁] at h
  simp at h

end Total

namespace Atomic

variable {f : β → Op σ ε α}

/-- Reads may come before an atomic operation. -/
protected theorem bind {x : Op σ ε β} (hx : ReadOnly x) (hf : ∀ b, Atomic (f b)) : Atomic (x >>= f) := by
  constructor
  intro s e s' h
  rcases fails_bind.mp h with h | ⟨b, s₁, hret, h⟩
  · exact hx.atomic.failed s e s' h
  · rw [(hf b).failed s₁ e s' h]
    exact hx.returns hret

/-- An operation that always returns may come after an atomic one. -/
protected theorem bind_total {x : Op σ ε β} (hx : Atomic x) (hf : ∀ b, Total (f b)) : Atomic (x >>= f) := by
  constructor
  intro s e s' h
  rcases fails_bind.mp h with h | ⟨b, s₁, -, h⟩
  · exact hx.failed s e s' h
  · obtain ⟨a, s₂, hret⟩ := (hf b).runs s₁
    rw [Fails, hret] at h
    simp at h

/-- An atomic operation on a component is atomic on the whole store, when writing a component
back unchanged changes nothing. -/
protected theorem zoom {get : σ → τ} {set : τ → σ → σ} {x : Op τ ε α}
    (hset : ∀ s, set (get s) s = s) (hx : Atomic x) : Atomic (zoom get set x) := by
  constructor
  intro s e s' h
  obtain ⟨t', hfail, rfl⟩ := fails_zoom.mp h
  rw [hx.failed (get s) e t' hfail, hset]

end Atomic

/-- Every run leaves what `f` reads of the store as it was. -/
structure Keeps (f : σ → τ) (x : Op σ ε α) : Prop where
  kept : ∀ s, f (x.run s).2 = f s

namespace Keeps

variable {f : σ → τ}

theorem of_readOnly {x : Op σ ε α} (hx : ReadOnly x) : Keeps f x :=
  ⟨fun s => by rw [hx.keeps s]⟩

protected theorem modify {g : σ → σ} (hg : ∀ s, f (g s) = f s) : Keeps f (modify g : Op σ ε Unit) :=
  ⟨hg⟩

protected theorem bind {x : Op σ ε β} {k : β → Op σ ε α} (hx : Keeps f x)
    (hk : ∀ b, Keeps f (k b)) : Keeps f (x >>= k) := by
  constructor
  intro s
  have h := hx.kept s
  simp only [run, Bind.bind] at h ⊢
  split
  · rename_i c s₁ heq
    rw [heq] at h
    exact ((hk c).kept s₁).trans h
  · rename_i c s₁ heq
    rw [heq] at h
    exact h

/-- An operation on a component keeps what is read elsewhere. -/
protected theorem zoom {ρ : Type} {get : σ → ρ} {set : ρ → σ → σ} {x : Op ρ ε α}
    (hset : ∀ t s, f (set t s) = f s) : Keeps f (zoom get set x) :=
  ⟨fun s => hset _ s⟩

theorem returns {x : Op σ ε α} (hx : Keeps f x) {s s' : σ} {a : α} (h : Returns x s a s') : f s' = f s := by
  have := hx.kept s
  rw [Returns] at h
  rwa [h] at this

end Keeps

/-- Every run that starts in the invariant, returning or failing, ends in it. -/
structure Preserves (I : σ → Prop) (x : Op σ ε α) : Prop where
  preserved : ∀ s, I s → I (x.run s).2

namespace Preserves

variable {I : σ → Prop}

theorem of_readOnly {x : Op σ ε α} (hx : ReadOnly x) : Preserves I x :=
  ⟨fun s hs => by rwa [hx.keeps s]⟩

protected theorem modify {g : σ → σ} (hg : ∀ s, I s → I (g s)) : Preserves I (modify g : Op σ ε Unit) :=
  ⟨hg⟩

protected theorem bind {x : Op σ ε β} {k : β → Op σ ε α} (hx : Preserves I x)
    (hk : ∀ b, Preserves I (k b)) : Preserves I (x >>= k) := by
  constructor
  intro s hs
  have h := hx.preserved s hs
  simp only [run, Bind.bind] at h ⊢
  split
  · rename_i c s₁ heq
    rw [heq] at h
    exact (hk c).preserved s₁ h
  · rename_i c s₁ heq
    rw [heq] at h
    exact h

theorem returns {x : Op σ ε α} (hx : Preserves I x) {s s' : σ} {a : α} (hs : I s) (h : Returns x s a s') : I s' := by
  have hkept := hx.preserved s hs
  rw [Returns] at h
  rwa [h] at hkept

end Preserves

/-- What is read of the store is kept when every value of it is an invariant. -/
theorem Keeps.of_preserves {f : σ → τ} {x : Op σ ε α} (h : ∀ v, Preserves (fun s => f s = v) x) : Keeps f x :=
  ⟨fun s => (h (f s)).preserved s rfl⟩

/-- An operation whose result is renamed. -/
theorem returns_map {x : Op σ ε β} {f : β → α} {s s' : σ} {a : α} :
    Returns (x >>= fun b => pure (f b)) s a s' ↔ ∃ b, Returns x s b s' ∧ f b = a := by
  simp only [returns_bind, returns_pure]
  constructor
  · rintro ⟨b, _, h, ha, rfl⟩
    exact ⟨b, h, ha⟩
  · rintro ⟨b, h, ha⟩
    exact ⟨b, s', h, ha, rfl⟩

theorem returns_or_fails (x : Op σ ε α) (s : σ) : (∃ a s', Returns x s a s') ∨ ∃ e s', Fails x s e s' := by
  rcases h : x.run s with ⟨r, s'⟩
  cases r with
  | ok a => exact .inl ⟨a, s', h⟩
  | error e => exact .inr ⟨e, s', h⟩

end Op
