import GeoMaster.Lib.Op

/-!
# Operations that keep a log

`Emits log name x Q` says that a returning run of `x` only adds to a log of the store, and that its result
and the entries it adds, which are the names of some keys, satisfy `Q`. Entries compose along `++`, so what
an operation emits is read off its parts. An operation below a place emits longer keys: `descend` takes
the place into the keys.
-/

namespace Op

variable {σ ε α β κ κ' τ : Type}

/-- Every returning run adds the names of some keys to the log. -/
structure Emits (log : σ → List τ) (name : κ → τ) (x : Op σ ε α) (Q : α → List κ → Prop) : Prop where
  emitted : ∀ s a s', Returns x s a s' → ∃ keys, log s' = log s ++ keys.map name ∧ Q a keys

namespace Emits

variable {log : σ → List τ} {name : κ → τ}

variable {Q R : α → List κ → Prop} {f : β → Op σ ε α}

protected theorem pure {a : α} (h : Q a []) : Emits log name (pure a : Op σ ε α) Q := by
  constructor
  intro s b s' hrun
  obtain ⟨rfl, rfl⟩ := returns_pure.mp hrun
  exact ⟨[], by simp, h⟩

protected theorem throw {e : ε} : Emits log name (throw e : Op σ ε α) Q :=
  ⟨fun _ _ _ hrun => absurd hrun not_returns_throw⟩

theorem note {g : σ → σ} {key : κ} {Q : Unit → List κ → Prop} (hlog : ∀ s, log (g s) = log s ++ [name key])
    (h : Q () [key]) : Emits log name (modify g : Op σ ε Unit) Q := by
  constructor
  intro s u s' hrun
  obtain rfl := returns_modify.mp hrun
  exact ⟨[key], hlog s, h⟩

protected theorem bind {x : Op σ ε β} {Q : β → List κ → Prop} (hx : Emits log name x Q)
    (hf : ∀ b keys, Q b keys → Emits log name (f b) fun a more => R a (keys ++ more)) : Emits log name (x >>= f) R := by
  constructor
  intro s a s' hrun
  obtain ⟨b, s₁, hfirst, hrest⟩ := returns_bind.mp hrun
  obtain ⟨keys, hlog, hQ⟩ := hx.emitted s b s₁ hfirst
  obtain ⟨more, hmore, hR⟩ := (hf b keys hQ).emitted s₁ a s' hrest
  refine ⟨keys ++ more, ?_, hR⟩
  rw [hmore, hlog, List.map_append, List.append_assoc]

/-- What adds nothing to the log may come first. -/
theorem bind_keeps {x : Op σ ε β} (hx : Keeps log x)
    (hf : ∀ b, Emits log name (f b) R) : Emits log name (x >>= f) R := by
  constructor
  intro s a s' hrun
  obtain ⟨b, s₁, hfirst, hrest⟩ := returns_bind.mp hrun
  obtain ⟨keys, hlog, hR⟩ := (hf b).emitted s₁ a s' hrest
  exact ⟨keys, by rw [hlog, hx.returns hfirst], hR⟩

theorem bind_failIf {c : Prop} [Decidable c] {e : ε} {f : Unit → Op σ ε α}
    (hf : ¬ c → Emits log name (f ()) R) : Emits log name (failIf c e >>= f) R := by
  constructor
  intro s a s' hrun
  obtain ⟨_, _, hfirst, hrest⟩ := returns_bind.mp hrun
  obtain ⟨hc, rfl⟩ := returns_failIf.mp hfirst
  exact (hf hc).emitted _ a s' hrest

theorem bind_okOr {o : Option β} {e : ε}
    (hf : ∀ b, o = some b → Emits log name (f b) R) : Emits log name (okOr o e >>= f) R := by
  constructor
  intro s a s' hrun
  obtain ⟨b, _, hfirst, hrest⟩ := returns_bind.mp hrun
  obtain ⟨ho, rfl⟩ := returns_okOr.mp hfirst
  exact (hf b ho).emitted _ a s' hrest

theorem mono {x : Op σ ε α} (hx : Emits log name x Q) (h : ∀ a keys, Q a keys → R a keys) : Emits log name x R := by
  constructor
  intro s a s' hrun
  obtain ⟨keys, hlog, hQ⟩ := hx.emitted s a s' hrun
  exact ⟨keys, hlog, h a keys hQ⟩

/-- The names of other keys are the names of their images. -/
theorem descend {x : Op σ ε α} {g : κ' → κ} {name' : κ' → τ} {Q : α → List κ' → Prop}
    (hname : ∀ key, name' key = name (g key)) (hx : Emits log name' x Q) :
    Emits log name x fun a keys => ∃ inner, keys = inner.map g ∧ Q a inner := by
  constructor
  intro s a s' hrun
  obtain ⟨inner, hlog, hQ⟩ := hx.emitted s a s' hrun
  refine ⟨inner.map g, ?_, inner, rfl, hQ⟩
  rw [hlog, List.map_map]
  exact congrArg _ (List.map_congr_left fun key _ => hname key)

end Emits

end Op
