import GeoMaster.Domain.Knowledge
import GeoMaster.Domain.Publication

/-!
# The texts of identifiers

A UUID is known by its text, and a project scope by its storage key. An identity drawn from a digest is
never nil, because its version bits are set.
-/

namespace GeoMaster

open List Nat String Uuid

theorem hexDigit_injective : ∀ a < 16, ∀ b < 16, hexDigit a = hexDigit b → a = b := by
  decide

theorem hexDigit_ne_hyphen : ∀ a < 16, hexDigit a ≠ '-' := by
  decide

theorem eq_of_digits {n m : Nat} (k : Nat)
    (h : ∀ j < k, n / 16 ^ j % 16 = m / 16 ^ j % 16) : n % 16 ^ k = m % 16 ^ k := by
  induction k with
  | zero => simp [mod_one]
  | succ k ih =>
    have hlow := ih fun j hj => h j (by omega)
    rw [mod_pow_succ, mod_pow_succ, hlow, h k (by omega)]

theorem Uuid.hexDigits_injective {u v : Uuid} (h : u.hexDigits = v.hexDigits) : u = v := by
  have hdigit : ∀ j < 32, u.bits.toNat / 16 ^ j % 16 = v.bits.toNat / 16 ^ j % 16 := by
    intro j hj
    have hmem := map_inj_left.mp h (31 - j) (mem_range.mpr (by omega))
    have hindex : 31 - (31 - j) = j := by omega
    rw [hindex] at hmem
    exact hexDigit_injective _ (mod_lt _ (by omega)) _ (mod_lt _ (by omega)) hmem
  have hnat := eq_of_digits 32 hdigit
  have hpow : (16 : Nat) ^ 32 = 2 ^ 128 := by decide
  rw [hpow, mod_eq_of_lt u.bits.isLt, mod_eq_of_lt v.bits.isLt] at hnat
  cases u
  cases v
  exact congrArg mk (BitVec.eq_of_toNat_eq hnat)

theorem Uuid.filter_toString (u : Uuid) : u.toString.toList.filter (· ≠ '-') = u.hexDigits := by
  have hkeep (l : List Char) (hl : ∀ c ∈ l, c ∈ u.hexDigits) : l.filter (· ≠ '-') = l := by
    refine filter_eq_self.mpr fun c hc => ?_
    obtain ⟨_, -, rfl⟩ := mem_map.mp (hl c hc)
    simpa using hexDigit_ne_hyphen _ (mod_lt _ (by omega))
  have htake (n : Nat) (l : List Char) (hl : ∀ c ∈ l, c ∈ u.hexDigits) :
      ∀ c ∈ l.take n, c ∈ u.hexDigits := fun c hc => hl c (mem_of_mem_take hc)
  have hdrop (n : Nat) : ∀ c ∈ u.hexDigits.drop n, c ∈ u.hexDigits := fun c hc => mem_of_mem_drop hc
  have hhyphen : ['-'].filter (· ≠ '-') = [] := by decide
  simp only [toString, toList_ofList, filter_append, hhyphen, append_nil]
  rw [hkeep _ (htake 8 _ fun _ => id), hkeep _ (htake 4 _ (hdrop 8)),
    hkeep _ (htake 4 _ (hdrop 12)), hkeep _ (htake 4 _ (hdrop 16)), hkeep _ (hdrop 20)]
  have hstep (n : Nat) : (u.hexDigits.drop n).take 4 ++ u.hexDigits.drop (n + 4) = u.hexDigits.drop n := by
    rw [← drop_drop]
    exact take_append_drop 4 _
  simp only [List.append_assoc]
  rw [hstep 16, hstep 12, hstep 8, take_append_drop]

theorem Uuid.toString_injective {u v : Uuid} (h : u.toString = v.toString) : u = v := by
  apply hexDigits_injective
  rw [← u.filter_toString, ← v.filter_toString, h]

/-- A character takes four bytes at most. -/
theorem Text.len_le (text : String) : Text.len text ≤ 4 * text.toList.length := by
  have hchars (chars : List Char) : (String.ofList chars).utf8ByteSize ≤ 4 * chars.length := by
    induction chars with
    | nil => simp
    | cons c =>
      have hc := Char.utf8Size_le_four c
      rw [ofList_cons, utf8ByteSize_append, utf8ByteSize_singleton, length_cons]
      omega
  have h := hchars text.toList
  rwa [ofList_toList] at h

theorem Text.bytes_injective : Function.Injective Text.bytes := by
  intro s t h
  exact toByteArray_inj.mp (ByteArray.ext (Array.toList_inj.mp h))

theorem Uuid.length_toString (u : Uuid) : u.toString.toList.length = 36 := by
  simp [toString, hexDigits]

theorem TenantScope.length_storageKey (scope : TenantScope) :
    scope.storageKey.toList.length = if scope.projectId.isSome then 110 else 73 := by
  cases h : scope.projectId <;> simp [TenantScope.storageKey, h, String.toList_append, length_toString]

theorem TenantScope.storageKey_injective {scope scope' : TenantScope}
    (h : scope.storageKey = scope'.storageKey) : scope = scope' := by
  have hlength : (if scope.projectId.isSome then 110 else 73) = if scope'.projectId.isSome then 110 else 73 := by
    rw [← scope.length_storageKey, ← scope'.length_storageKey, h]
  obtain ⟨⟨_⟩, ⟨_⟩, project⟩ := scope
  obtain ⟨⟨_⟩, ⟨_⟩, project'⟩ := scope'
  have hlist := congrArg String.toList h
  cases project with
  | none =>
    cases project' with
    | some project' => simp at hlength
    | none =>
      simp only [TenantScope.storageKey, String.toList_append, List.append_assoc] at hlist
      obtain ⟨ho, hrest⟩ := List.append_inj hlist (by rw [length_toString, length_toString])
      obtain ⟨-, ht⟩ := List.append_inj hrest rfl
      rw [toString_injective (String.toList_inj.mp ho), toString_injective (String.toList_inj.mp ht)]
  | some project =>
    cases project' with
    | none => simp at hlength
    | some project' =>
      obtain ⟨project⟩ := project
      obtain ⟨project'⟩ := project'
      simp only [TenantScope.storageKey, String.toList_append, List.append_assoc] at hlist
      obtain ⟨ho, hrest⟩ := List.append_inj hlist (by rw [length_toString, length_toString])
      obtain ⟨-, hrest⟩ := List.append_inj hrest rfl
      obtain ⟨ht, hrest⟩ := List.append_inj hrest (by rw [length_toString, length_toString])
      obtain ⟨-, hp⟩ := List.append_inj hrest rfl
      rw [toString_injective (String.toList_inj.mp ho), toString_injective (String.toList_inj.mp ht),
        toString_injective (String.toList_inj.mp hp)]

theorem identity_isNil [Sha256] (parts : List String) : (identity parts).isNil = false := by
  have hbit : (identity parts).bits.getLsbD 63 = true := by
    unfold identity
    simp
  have hne : identity parts ≠ Uuid.nil := by
    intro h
    rw [h] at hbit
    simp [Uuid.nil] at hbit
  simpa [isNil] using hne

end GeoMaster
