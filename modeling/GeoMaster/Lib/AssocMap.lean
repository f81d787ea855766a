import Mathlib.Data.List.AList

/-!
# Keyed maps

A finite map is a list of key and value pairs in which no key occurs twice. The list carries
that fact as a field, so a map with two entries for a key cannot be built. Lookup, insertion and
removal are the ones of `AList`; this file adds the in-place update of one entry, the update of
every entry, and the list of the values in the order in which they are stored.

The order of the entries is whatever the last updates left. `SameEntries` relates two maps that
hold the same entries in some order, which is all a client may rely on when the map it models
is a hash table.
-/

/-- A finite map from `K` to `V`, as a list of entries with distinct keys. -/
abbrev AssocMap (K V : Type) : Type :=
  AList (fun _ : K => V)

namespace AssocMap

variable {K V W : Type}

/-- The stored values, in the order of the entries. -/
def values (m : AssocMap K V) : List V :=
  m.entries.map Sigma.snd

/-- Replace every stored value, key by key. -/
def mapValues (f : K → V → W) (m : AssocMap K V) : AssocMap K W where
  entries := m.entries.map fun e => ⟨e.1, f e.1 e.2⟩
  nodupKeys := by
    have hkeys : (m.entries.map fun e => (⟨e.1, f e.1 e.2⟩ : Sigma fun _ : K => W)).keys = m.entries.keys := by
      simp [List.keys, Function.comp_def]
    rw [List.NodupKeys, hkeys]
    exact m.nodupKeys

/-- Keep the entries whose value passes a test. -/
def retain (keep : V → Bool) (m : AssocMap K V) : AssocMap K V where
  entries := m.entries.filter fun e => keep e.2
  nodupKeys := m.nodupKeys.sublist List.filter_sublist

/-- Two maps with the same entries, in whatever order. -/
def SameEntries (m m' : AssocMap K V) : Prop :=
  m.entries.Perm m'.entries

theorem SameEntries.refl (m : AssocMap K V) : SameEntries m m :=
  List.Perm.refl _

section Lookup

variable [DecidableEq K]

/-- Change the value stored under `k`, if there is one. -/
def modify (k : K) (f : V → V) (m : AssocMap K V) : AssocMap K V :=
  match m.lookup k with
  | none => m
  | some v => m.insert k (f v)

variable {m : AssocMap K V} {p : V → Bool}

/-- A value is stored exactly when some key finds it. -/
theorem mem_values {v : V} : v ∈ values m ↔ ∃ k, m.lookup k = some v := by
  simp only [values, List.mem_map]
  constructor
  · rintro ⟨⟨k, w⟩, hmem, rfl⟩
    exact ⟨k, AList.mem_lookup_iff.mpr hmem⟩
  · rintro ⟨k, hk⟩
    exact ⟨⟨k, v⟩, AList.mem_lookup_iff.mp hk, rfl⟩

theorem lookup_insert (m : AssocMap K V) (k k' : K) (v : V) :
    (m.insert k v).lookup k' = if k' = k then some v else m.lookup k' := by
  by_cases h : k' = k
  · subst h; simp
  · rw [if_neg h, AList.lookup_insert_ne h]

theorem lookup_erase (m : AssocMap K V) (k k' : K) : (m.erase k).lookup k' = if k' = k then none else m.lookup k' := by
  by_cases h : k' = k
  · subst h; simp
  · rw [if_neg h, AList.lookup_erase_ne h]

theorem lookup_modify (m : AssocMap K V) (k k' : K) (f : V → V) :
    (modify k f m).lookup k' = if k' = k then (m.lookup k').map f else m.lookup k' := by
  unfold modify
  cases hk : m.lookup k with
  | none =>
    by_cases h : k' = k
    · subst h; simp [hk]
    · simp [h]
  | some v =>
    rw [lookup_insert]
    by_cases h : k' = k
    · subst h; simp [hk]
    · simp [h]

@[simp]
theorem lookup_mapValues (f : K → V → W) (m : AssocMap K V) (k : K) :
    (mapValues f m).lookup k = (m.lookup k).map (f k) := by
  have hstep (l : List (Sigma fun _ : K => V)) :
      (l.map fun e => (⟨e.1, f e.1 e.2⟩ : Sigma fun _ : K => W)).dlookup k = (l.dlookup k).map (f k) := by
    induction l with
    | nil => rfl
    | cons e l ih =>
      obtain ⟨k', v⟩ := e
      by_cases h : k' = k
      · subst h; simp
      · simpa [List.dlookup_cons_ne, Ne.symm h] using ih
  exact hstep m.entries

theorem lookup_retain (keep : V → Bool) (m : AssocMap K V) (k : K) :
    (retain keep m).lookup k = (m.lookup k).filter keep := by
  apply Option.ext
  intro v
  rw [Option.filter_eq_some_iff]
  show v ∈ (retain keep m).lookup k ↔ v ∈ m.lookup k ∧ keep v = true
  rw [AList.mem_lookup_iff, AList.mem_lookup_iff]
  exact List.mem_filter

/-- Store a value unless the key has one. -/
def insertNew (k : K) (v : V) (m : AssocMap K V) : AssocMap K V :=
  if k ∈ m then m else m.insert k v

/-- Lookup after a value was stored unless there was one, at any key. -/
theorem lookup_insertNew (m : AssocMap K V) (k k' : K) (v : V) :
    (insertNew k v m).lookup k' = if k' = k then some ((m.lookup k).getD v) else m.lookup k' := by
  unfold insertNew
  split
  · rename_i hmem
    obtain ⟨old, hold⟩ := Option.isSome_iff_exists.mp (AList.lookup_isSome.mpr hmem)
    split
    · rename_i hkey
      rw [hkey, hold]
      rfl
    · rfl
  · rename_i hnew
    rw [lookup_insert, AList.lookup_eq_none.mpr hnew]
    rfl

/-- What was stored is still stored. -/
theorem lookup_insertNew_of_some {k' : K} {w : V} (k : K) (v : V)
    (h : m.lookup k' = some w) : (insertNew k v m).lookup k' = some w := by
  rw [lookup_insertNew]
  split
  · rename_i hkey
    rw [← hkey, h]
    rfl
  · exact h

theorem SameEntries.lookup_eq {m' : AssocMap K V} (h : SameEntries m m') (k : K) : m.lookup k = m'.lookup k :=
  AList.perm_lookup h

/-- A value found by a search over the stored values sits under some key. -/
theorem lookup_of_find? {v : V} (h : (values m).find? p = some v) : ∃ k, m.lookup k = some v :=
  mem_values.mp (List.mem_of_find?_eq_some h)

/-- A search over the stored values that finds nothing rules out every stored value. -/
theorem not_of_find?_none {k : K} {v : V} (h : (values m).find? p = none) (hk : m.lookup k = some v) : p v = false := by
  have := List.find?_eq_none.mp h v (mem_values.mpr ⟨k, hk⟩)
  simpa using this

/-- No stored value passes the test exactly when every lookup fails it. -/
theorem any_values_eq_false : (values m).any p = false ↔ ∀ k v, m.lookup k = some v → p v = false := by
  simp only [List.any_eq_false, mem_values, Bool.not_eq_true]
  exact ⟨fun h k v hk => h v ⟨k, hk⟩, fun h v ⟨k, hk⟩ => h k v hk⟩

theorem map_values_of_keyed {key : V → K}
    (h : ∀ k v, m.lookup k = some v → key v = k) : (AssocMap.values m).map key = m.keys := by
  have hkey : ∀ e ∈ m.entries, key e.2 = e.1 := fun e he => h e.1 e.2 (AList.mem_lookup_iff.mpr he)
  simp only [AssocMap.values, AList.keys, List.keys, List.map_map]
  exact List.map_congr_left hkey

end Lookup

end AssocMap
