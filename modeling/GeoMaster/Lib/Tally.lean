import Mathlib.Algebra.Order.Ring.Int
import Mathlib.Algebra.BigOperators.Group.List.Lemmas
import GeoMaster.Lib.AssocMap

/-!
# Tallies

A list is counted while it is read: one map holds how often each key came up, another holds one account for
each part the list falls into. `Counts` and `Grouped` say what such maps hold after a prefix of the list, each
with the lemma for one more element. At the end the counts add up to the length of the list, and whatever is
counted within the parts adds up to what is counted in the whole.
-/

namespace Tally

variable {K V W α : Type}

section Counts

variable [DecidableEq K]

/-- A map holds how often each key of a list occurs, and nothing else. -/
def Counts (m : AssocMap K Nat) (l : List K) : Prop :=
  ∀ k, m.lookup k = if k ∈ l then some (l.count k) else none

theorem Counts.nil : Counts (∅ : AssocMap K Nat) [] := by
  intro k
  simp

variable {m : AssocMap K Nat} {l : List K}

/-- A key that is absent was never read. -/
theorem Counts.getD (h : Counts m l) (k : K) : (m.lookup k).getD 0 = l.count k := by
  rw [h k]
  by_cases hk : k ∈ l
  · rw [if_pos hk]
    rfl
  · rw [if_neg hk, List.count_eq_zero_of_not_mem hk]
    rfl

theorem Counts.mem_iff (h : Counts m l) (k : K) : k ∈ m ↔ k ∈ l := by
  rw [← AList.lookup_isSome, h k]
  by_cases hk : k ∈ l
  · simp [hk]
  · simp [hk]

theorem Counts.add {m : AssocMap K Nat} {l : List K} (h : Counts m l) (k : K) :
    Counts (m.insert k ((m.lookup k).getD 0 + 1)) (l ++ [k]) := by
  intro k'
  rw [AssocMap.lookup_insert, h.getD k]
  by_cases hk : k' = k
  · rw [if_pos hk, hk, if_pos (by simp), List.count_append, List.count_singleton_self]
  · rw [if_neg hk, h k', List.count_append]
    have hmem : k' ∈ l ++ [k] ↔ k' ∈ l := by simp [hk]
    have hzero : List.count k' [k] = 0 := List.count_eq_zero_of_not_mem (by simpa using hk)
    simp only [hmem, hzero, Nat.add_zero]

/-- The stored numbers, read off the keys. -/
theorem Counts.values_eq (h : Counts m l) : AssocMap.values m = m.keys.map fun k => l.count k := by
  have hentry : ∀ e ∈ m.entries, e.2 = l.count e.1 := by
    intro e he
    have hlook : m.lookup e.1 = some e.2 := AList.mem_lookup_iff.mpr he
    have hget := h.getD e.1
    rw [hlook] at hget
    exact hget
  show m.entries.map Sigma.snd = (m.entries.map Sigma.fst).map _
  rw [List.map_map]
  exact List.map_congr_left hentry

theorem Counts.sum (h : Counts m l) : (AssocMap.values m).sum = l.length := by
  have hperm : m.keys.Perm l.dedup := by
    rw [List.perm_ext_iff_of_nodup m.keys_nodup l.nodup_dedup]
    intro k
    rw [List.mem_dedup, ← h.mem_iff k]
    exact AList.mem_keys.symm
  rw [h.values_eq, (hperm.map _).sum_eq]
  exact List.sum_map_count_dedup_eq_length l

end Counts

/-! ### Parts -/

section Parts

variable [DecidableEq K]

/-- The elements of a list that fall under a key. -/
def part (key : α → K) (l : List α) (k : K) : List α :=
  l.filter fun x => key x = k

theorem part_append (key : α → K) (l : List α) (x : α) (k : K) :
    part key (l ++ [x]) k = part key l k ++ if key x = k then [x] else [] := by
  unfold part
  rw [List.filter_append]
  by_cases hk : key x = k
  · simp [hk]
  · simp [hk]

/-- A map holds an account for each part of a list, and for nothing else. -/
structure Grouped (key : α → K) (Account : List α → V → Prop) (m : AssocMap K V) (l : List α) : Prop where
  mem_iff : ∀ k, k ∈ m ↔ ∃ x ∈ l, key x = k
  account : ∀ k v, m.lookup k = some v → Account (part key l k) v

variable {key : α → K} {Account : List α → V → Prop} {m : AssocMap K V} {l : List α}

theorem Grouped.nil : Grouped key Account (∅ : AssocMap K V) [] where
  mem_iff k := by simp
  account k v hlook := by simp at hlook

/-- The account of a part, where the account of an empty part is a fresh one. -/
theorem Grouped.getD (h : Grouped key Account m l) {fresh : V} (hfresh : Account [] fresh) (k : K) :
    Account (part key l k) ((m.lookup k).getD fresh) := by
  cases hlook : m.lookup k with
  | some v => exact h.account k v hlook
  | none =>
    have habsent : ∀ x ∈ l, ¬ key x = k := by
      intro x hx hkey
      exact AList.lookup_eq_none.mp hlook ((h.mem_iff k).mpr ⟨x, hx, hkey⟩)
    have hempty : part key l k = [] := by
      apply List.filter_eq_nil_iff.mpr
      intro x hx
      simpa using habsent x hx
    rw [hempty]
    exact hfresh

/-- One more element, on the account of its part. -/
theorem Grouped.add (h : Grouped key Account m l) {x : α} {v : V} (hv : Account (part key l (key x) ++ [x]) v) :
    Grouped key Account (m.insert (key x) v) (l ++ [x]) where
  mem_iff k := by
    rw [AList.mem_insert, h.mem_iff k]
    simp only [List.mem_append, List.mem_singleton]
    constructor
    · rintro (rfl | ⟨y, hy, hkey⟩)
      · exact ⟨x, Or.inr rfl, rfl⟩
      · exact ⟨y, Or.inl hy, hkey⟩
    · rintro ⟨y, hy | rfl, hkey⟩
      · exact Or.inr ⟨y, hy, hkey⟩
      · exact Or.inl hkey.symm
  account k w hlook := by
    rw [part_append]
    rw [AssocMap.lookup_insert] at hlook
    by_cases hk : k = key x
    · rw [if_pos hk] at hlook
      have hvw : v = w := Option.some.inj hlook
      rw [if_pos hk.symm, hk, ← hvw]
      exact hv
    · rw [if_neg hk] at hlook
      rw [if_neg (fun hkey => hk hkey.symm), List.append_nil]
      exact h.account k w hlook

/-- The accounts may be rewritten, each on its own. -/
theorem Grouped.mapValues {Account' : List α → W → Prop} (h : Grouped key Account m l) (f : V → W)
    (hf : ∀ part v, Account part v → Account' part (f v)) :
    Grouped key Account' (AssocMap.mapValues (fun _ => f) m) l where
  mem_iff k := by
    rw [← h.mem_iff k, ← AList.lookup_isSome, ← AList.lookup_isSome, AssocMap.lookup_mapValues, Option.isSome_map]
  account k w hlook := by
    rw [AssocMap.lookup_mapValues, Option.map_eq_some_iff] at hlook
    obtain ⟨v, hv, rfl⟩ := hlook
    exact hf _ v (h.account k v hv)

theorem sum_at_key {keys : List K} (hkeys : keys.Nodup) {k₀ : K} (hmem : k₀ ∈ keys) (n : Nat) :
    (keys.map fun k => if k₀ = k then n else 0).sum = n := by
  have hcount : ∀ l : List K, (l.map fun k => if k₀ = k then n else 0).sum = l.count k₀ * n := by
    intro l
    induction l with
    | nil => simp
    | cons k l ih =>
      rw [List.map_cons, List.sum_cons, ih, List.count_cons]
      by_cases hk : k₀ = k
      · simp [hk, Nat.add_mul, Nat.add_comm]
      · simp [hk, Ne.symm hk]
  rw [hcount keys, List.count_eq_one_of_mem hkeys hmem, Nat.one_mul]

theorem sum_countP_parts (key : α → K) (p : α → Bool) {keys : List K} (hkeys : keys.Nodup) (l : List α)
    (hcover : ∀ x ∈ l, key x ∈ keys) : (keys.map fun k => (part key l k).countP p).sum = l.countP p := by
  induction l with
  | nil => simp [part]
  | cons x l ih =>
    have hrest := ih fun y hy => hcover y (List.mem_cons_of_mem x hy)
    have hhead : ∀ k, (part key (x :: l) k).countP p
        = (part key l k).countP p + if key x = k then (if p x then 1 else 0) else 0 := by
      intro k
      unfold part
      by_cases hk : key x = k
      · simp [hk, List.countP_cons]
      · simp [hk]
    -- The head is in exactly one part.
    have hone : (keys.map fun k => if key x = k then (if p x then 1 else 0) else 0).sum = if p x then 1 else 0 :=
      sum_at_key hkeys (hcover x List.mem_cons_self) _
    simp only [hhead, List.sum_map_add, hrest, hone, List.countP_cons]

theorem Grouped.sum (h : Grouped key Account m l) (f : V → Nat) (p : α → Bool)
    (hf : ∀ part v, Account part v → f v = part.countP p) : ((AssocMap.values m).map f).sum = l.countP p := by
  have hvalues : (AssocMap.values m).map f = m.keys.map fun k => (part key l k).countP p := by
    show (m.entries.map Sigma.snd).map f = (m.entries.map Sigma.fst).map _
    rw [List.map_map, List.map_map]
    refine List.map_congr_left fun e he => ?_
    exact hf _ e.2 (h.account e.1 e.2 (AList.mem_lookup_iff.mpr he))
  rw [hvalues]
  apply sum_countP_parts key p m.keys_nodup l
  intro x hx
  exact AList.mem_keys.mp ((h.mem_iff (key x)).mpr ⟨x, hx, rfl⟩)

end Parts

end Tally
