import GeoMaster.Lib.AssocMap

/-!
# Maps whose entries have owners

Every value of a map belongs to an owner. `ChangedFor owner o m m'` says that between `m` and `m'` entries
of the owner `o` were written and no others, and `Refers` that each value of one map names an entry of
another map that has the same owner. Both are kept by the insertion of an entry whose owner is the right
one, so a sequence of insertions is followed step by step. `Extends` says that no entry was lost or changed,
`Keyed` that every value sits under its own key.
-/

namespace AssocMap

variable {K V τ : Type} [DecidableEq K]

/-- The entries that differ belong to `o`, before and after. -/
def ChangedFor (owner : V → τ) (o : τ) (m m' : AssocMap K V) : Prop :=
  ∀ k, m'.lookup k = m.lookup k ∨ (∃ v', m'.lookup k = some v' ∧ owner v' = o) ∧ ∀ v, m.lookup k = some v → owner v = o

namespace ChangedFor

variable {owner : V → τ} {o : τ} {m m' : AssocMap K V}

theorem refl (m : AssocMap K V) : ChangedFor owner o m m :=
  fun _ => .inl rfl

/-- One entry is written that belonged to the owner if it was there. -/
theorem insert (h : ChangedFor owner o m m') {k : K} {v : V} (hv : owner v = o)
    (hold : ∀ w, m.lookup k = some w → owner w = o) : ChangedFor owner o m (m'.insert k v) := by
  intro k'
  by_cases hk : k' = k
  · subst hk
    exact .inr ⟨⟨v, AList.lookup_insert _, hv⟩, hold⟩
  · rw [AList.lookup_insert_ne hk]
    exact h k'

theorem trans {m'' : AssocMap K V} (h : ChangedFor owner o m m') (h' : ChangedFor owner o m' m'') :
    ChangedFor owner o m m'' := by
  intro k
  rcases h' k with hsame' | ⟨hnew', hold'⟩
  · rw [hsame']
    exact h k
  · rcases h k with hsame | ⟨hnew, hold⟩
    · rw [hsame] at hold'
      exact .inr ⟨hnew', hold'⟩
    · exact .inr ⟨hnew', hold⟩

theorem others (h : ChangedFor owner o m m') {k : K} {v : V} (hv : owner v ≠ o) :
    m'.lookup k = some v ↔ m.lookup k = some v := by
  rcases h k with hsame | ⟨⟨v', hk, howner⟩, hold⟩
  · rw [hsame]
  · constructor
    · intro hk'
      rw [hk] at hk'
      exact absurd (Option.some.inj hk' ▸ howner) hv
    · intro hk'
      exact absurd (hold v hk') hv

theorem stays (h : ChangedFor owner o m m') {k : K} {v : V} (hk : m.lookup k = some v) :
    ∃ v', m'.lookup k = some v' ∧ owner v' = owner v := by
  rcases h k with hsame | ⟨⟨v', hk', howner⟩, hold⟩
  · exact ⟨v, by rw [hsame, hk], rfl⟩
  · exact ⟨v', hk', by rw [howner, hold v hk]⟩

end ChangedFor

section Refers

variable {J W : Type} [DecidableEq J]

/-- Each value of `m` names an entry of `n` with the same owner. -/
def Refers (owner : V → τ) (owner' : W → τ) (ref : V → Option J) (m : AssocMap K V) (n : AssocMap J W) : Prop :=
  ∀ k v j, m.lookup k = some v → ref v = some j → ∃ w, n.lookup j = some w ∧ owner' w = owner v

namespace Refers

variable {owner : V → τ} {owner' : W → τ} {ref : V → Option J} {m : AssocMap K V} {n n' : AssocMap J W}

/-- What is named may be written for one owner. -/
theorem target (h : Refers owner owner' ref m n) {o : τ} (hn : ChangedFor owner' o n n') :
    Refers owner owner' ref m n' := by
  intro k v j hk hj
  obtain ⟨w, hw, howner⟩ := h k v j hk hj
  obtain ⟨w', hw', howner'⟩ := hn.stays hw
  exact ⟨w', hw', by rw [howner', howner]⟩

/-- A value is written that names an entry of its owner. -/
theorem insert (h : Refers owner owner' ref m n) {k : K} {v : V}
    (hv : ∀ j, ref v = some j → ∃ w, n.lookup j = some w ∧ owner' w = owner v) :
    Refers owner owner' ref (m.insert k v) n := by
  intro k' v' j hk' hj
  by_cases hk : k' = k
  · subst hk
    rw [AList.lookup_insert] at hk'
    obtain rfl := Option.some.inj hk'
    exact hv j hj
  · rw [AList.lookup_insert_ne hk] at hk'
    exact h k' v' j hk' hj

theorem empty : Refers owner owner' ref (∅ : AssocMap K V) n := by
  intro k v j hk
  simp at hk

end Refers

end Refers

/-- Every entry of `m` is still there. -/
def Extends (m m' : AssocMap K V) : Prop :=
  ∀ k v, m.lookup k = some v → m'.lookup k = some v

namespace Extends

variable {m m' m'' : AssocMap K V}

theorem refl (m : AssocMap K V) : Extends m m :=
  fun _ _ h => h

theorem trans (h : Extends m m') (h' : Extends m' m'') : Extends m m'' :=
  fun k v hk => h' k v (h k v hk)

/-- An entry is added under a key that was free. -/
theorem insert {k : K} (h : Extends m m') (hnew : m.lookup k = none) (v : V) : Extends m (m'.insert k v) := by
  intro k' v' hk'
  have hne : k' ≠ k := by
    rintro rfl
    rw [hnew] at hk'
    simp at hk'
  rw [AList.lookup_insert_ne hne]
  exact h k' v' hk'

theorem again {k : K} {v : V} (h : Extends m m') (hsame : m.lookup k = some v) : Extends m (m'.insert k v) := by
  intro k' v' hk'
  by_cases hk : k' = k
  · subst hk
    rw [hsame] at hk'
    rw [AList.lookup_insert, hk']
  · rw [AList.lookup_insert_ne hk]
    exact h k' v' hk'

end Extends

/-- Every value sits under its own key. -/
def Keyed (key : V → K) (m : AssocMap K V) : Prop :=
  ∀ k v, m.lookup k = some v → key v = k

namespace Keyed

variable {key : V → K} {m : AssocMap K V}

theorem empty : Keyed key (∅ : AssocMap K V) := by
  intro k v hk
  simp at hk

theorem insert (h : Keyed key m) {k : K} {v : V} (hv : key v = k) : Keyed key (m.insert k v) := by
  intro k' v' hk'
  by_cases hk : k' = k
  · subst hk
    rw [AList.lookup_insert] at hk'
    rw [← Option.some.inj hk', hv]
  · rw [AList.lookup_insert_ne hk] at hk'
    exact h k' v' hk'

theorem sameEntries (h : Keyed key m) {m' : AssocMap K V} (hsame : SameEntries m m') : Keyed key m' :=
  fun k v hk => h k v (by rw [hsame.lookup_eq, hk])

end Keyed

end AssocMap
