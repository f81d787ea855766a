import GeoMaster.Domain.SourceRedaction

/-!
# Pointers into JSON values

A pointer into an object goes on below the member of its first key, and a pointer into an array below the
item whose index the key writes. Objects that come from JavaScript have distinct member names, so a member
is what is read under its name.
-/

namespace GeoMaster

open List Option Nat

/-! ### Indices as keys -/

theorem toDigits_head {n : Nat} (h : n ≠ 0) : (Nat.toDigits 10 n).head? ≠ some '0' := by
  induction n using Nat.strongRecOn with
  | ind n ih =>
    by_cases hlt : n < 10
    · rw [toDigits_of_lt_base hlt]
      have hdigit : ∀ m : Fin 10, m.val ≠ 0 → [Nat.digitChar m.val].head? ≠ some '0' := by decide
      exact hdigit ⟨n, hlt⟩ h
    · rw [toDigits_of_base_le (by decide) (by omega)]
      have hhead := ih (n / 10) (by omega) (by omega)
      cases hdigits : Nat.toDigits 10 (n / 10) with
      | nil => exact absurd hdigits toDigits_ne_nil
      | cons c rest =>
        rw [hdigits] at hhead
        simpa using hhead

theorem isCanonicalIndex_toString (n : Nat) : isCanonicalIndex (toString n).toList = true := by
  have hdigits : (toString n).toList = Nat.toDigits 10 n := toList_repr
  have hall : (Nat.toDigits 10 n).all Text.isAsciiDigit = true := by
    rw [List.all_eq_true]
    intro c hc
    have hdigit := isDigit_of_mem_toDigits (by decide) (by decide) hc
    have hrange : '0'.val ≤ c.val ∧ c.val ≤ '9'.val := by simpa [Char.isDigit] using hdigit
    simpa [Text.isAsciiDigit, Char.le_def] using hrange
  have hshort : (Nat.toDigits 10 n).length = 1 ∨ (Nat.toDigits 10 n).head? ≠ some '0' := by
    by_cases hzero : n = 0
    · exact .inl (by simp [hzero])
    · exact .inr (toDigits_head hzero)
  rw [hdigits, isCanonicalIndex, hall]
  simpa [toDigits_ne_nil] using hshort

theorem digitsValue_toString (n : Nat) : digitsValue (toString n).toList = n := by
  have hdigits : (toString n).toList = Nat.toDigits 10 n := toList_repr
  rw [hdigits]
  exact ofDigitChars_ten_toDigits

theorem arrayIndex_toString (n : Nat) : arrayIndex (toString n) = some n := by
  rw [arrayIndex, if_pos (isCanonicalIndex_toString n), digitsValue_toString]

/-! ### Pointers into values -/

namespace Json

variable {fields : List (String × Json)} {key : String} {value : Json}

theorem get_object : (Json.object fields).get key = (fields.find? fun f => f.1 = key).map Prod.snd :=
  rfl

@[simp]
theorem get_nil : (Json.object []).get key = none :=
  rfl

theorem get_cons {field : String × Json} {rest : List (String × Json)} :
    (Json.object (field :: rest)).get key = if field.1 = key then some field.2 else (Json.object rest).get key := by
  by_cases h : field.1 = key <;> simp [get_object, h]

theorem get_eq_none : (Json.object fields).get key = none ↔ key ∉ fields.map Prod.fst := by
  induction fields with
  | nil => simp
  | cons field _ ih =>
    rw [get_cons, map_cons, mem_cons, not_or]
    by_cases h : field.1 = key
    · simp [h]
    · rw [if_neg h, ih]
      exact ⟨fun hrest => ⟨fun heq => h heq.symm, hrest⟩, fun hboth => hboth.2⟩

theorem get_append {others : List (String × Json)} :
    (Json.object (fields ++ others)).get key = ((Json.object fields).get key).or ((Json.object others).get key) := by
  simp [get_object, List.find?_append, map_or]

/-- With distinct names a member is what is read under its name. -/
theorem get_of_mem (hnodup : (fields.map Prod.fst).Nodup) (h : (key, value) ∈ fields) :
    (Json.object fields).get key = some value := by
  induction fields with
  | nil => simp at h
  | cons field _ ih =>
    rw [map_cons, nodup_cons] at hnodup
    rw [get_cons]
    rcases mem_cons.mp h with rfl | hrest
    · simp
    · have hne : field.1 ≠ key := by
        rintro rfl
        exact hnodup.1 (mem_map.mpr ⟨_, hrest, rfl⟩)
      rw [if_neg hne]
      exact ih hnodup.2 hrest

theorem mem_of_get (h : (Json.object fields).get key = some value) : (key, value) ∈ fields := by
  rw [get_object, map_eq_some_iff] at h
  obtain ⟨field, hfind, rfl⟩ := h
  have hname : field.1 = key := by simpa using List.find?_some hfind
  rw [← hname]
  exact mem_of_find?_eq_some hfind

@[simp]
theorem pointer_nil : value.pointer [] = some value := by
  cases value <;> rfl

variable {rest : List String}

theorem pointer_object :
    (Json.object fields).pointer (key :: rest)
      = ((Json.object fields).get key).bind fun child => child.pointer rest := by
  rw [Json.pointer]
  cases (Json.object fields).get key <;> rfl

theorem pointer_items {items : List Json} :
    (Json.array items).pointer (key :: rest)
      = ((arrayIndex key).bind fun index => items[index]?).bind fun child => child.pointer rest := by
  rw [Json.pointer]
  cases (arrayIndex key).bind fun index => items[index]? <;> rfl

theorem pointer_array {items : List Json} {index : Nat} :
    (Json.array items).pointer (toString index :: rest) = (items[index]?).bind fun child => child.pointer rest := by
  rw [pointer_items, arrayIndex_toString, bind_some]

mutual

/-- All objects have distinct member names. -/
def Proper (value : Json) : Prop :=
  match value with
  | .array items => ProperItems items
  | .object fields => (fields.map Prod.fst).Nodup ∧ ProperFields fields
  | _ => True
termination_by structural value

def ProperItems (items : List Json) : Prop :=
  match items with
  | [] => True
  | item :: rest => Proper item ∧ ProperItems rest
termination_by structural items

def ProperFields (fields : List (String × Json)) : Prop :=
  match fields with
  | [] => True
  | field :: rest => ProperField field ∧ ProperFields rest
termination_by structural fields

def ProperField (field : String × Json) : Prop :=
  match field with
  | (_, child) => Proper child
termination_by structural field

end

theorem properItems_iff {items : List Json} : ProperItems items ↔ ∀ item ∈ items, item.Proper := by
  induction items with
  | nil => simp [ProperItems]
  | cons _ _ ih => simp [ProperItems, ih]

theorem properFields_iff : ProperFields fields ↔ ∀ field ∈ fields, field.2.Proper := by
  induction fields with
  | nil => simp [ProperFields]
  | cons field _ ih =>
    obtain ⟨_, _⟩ := field
    simp [ProperFields, ProperField, ih]

theorem proper_object :
    (Json.object fields).Proper ↔ (fields.map Prod.fst).Nodup ∧ ∀ field ∈ fields, field.2.Proper :=
  and_congr_right' properFields_iff

theorem proper_array {items : List Json} : (Json.array items).Proper ↔ ∀ item ∈ items, item.Proper :=
  properItems_iff

theorem Proper.get {child : Json} (h : value.Proper) (hget : value.get key = some child) : child.Proper := by
  cases value with
  | object fields => exact (proper_object.mp h).2 _ (mem_of_get hget)
  | _ => simp [Json.get] at hget

theorem Proper.items {items : List Json} (h : value.Proper) (hitems : value.asArray = some items) :
    ∀ item ∈ items, item.Proper := by
  cases value with
  | array own =>
    obtain rfl := some.inj hitems
    exact proper_array.mp h
  | _ => simp [Json.asArray] at hitems

theorem Proper.filter {p : String × Json → Bool} (h : (Json.object fields).Proper) :
    (Json.object (fields.filter p)).Proper := by
  obtain ⟨hnodup, hchildren⟩ := proper_object.mp h
  exact proper_object.mpr
    ⟨hnodup.sublist (filter_sublist.map Prod.fst), fun field hfield => hchildren field (mem_of_mem_filter hfield)⟩

/-- What holds of a value when it holds of the values in it holds of every value. -/
@[elab_as_elim]
theorem induct {P : Json → Prop} (value : Json)
    (leaf : ∀ value : Json, value.asArray = none → value.members = none → P value)
    (array : ∀ items, (∀ item ∈ items, P item) → P (.array items))
    (object : ∀ fields, (∀ field ∈ fields, P field.2) → P (.object fields)) : P value :=
  @Json.rec P (fun items => ∀ item ∈ items, P item) (fun fields => ∀ field ∈ fields, P field.2) (fun field => P field.2)
    (leaf _ rfl rfl) (fun _ => leaf _ rfl rfl) (fun _ => leaf _ rfl rfl) (fun _ => leaf _ rfl rfl)
    (fun items ih => array items ih) (fun fields ih => object fields ih) (fun _ h => absurd h not_mem_nil)
    (fun _ _ hfirst hrest => forall_mem_cons.mpr ⟨hfirst, hrest⟩) (fun _ h => absurd h not_mem_nil)
    (fun _ _ hfirst hrest => forall_mem_cons.mpr ⟨hfirst, hrest⟩) (fun _ _ h => h) value

end Json

end GeoMaster
