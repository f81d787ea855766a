import GeoMaster.Domain.DeepseekProjection
import GeoMaster.Domain.DeepseekEvidence
import GeoMaster.Lib.Emits
import GeoMaster.Proofs.JsonEdits

/-!
# What the projection leaves out

Every path the projection declares is the pointer of a member that was there and is gone, no path is
declared twice, and what is left is the captured value without these members: it has no private member, and
of a reasoning object only the type. The facts are proved along the functions of the projection: an object
is gone through member by member, and a path left out below a member leads nowhere below the member that is
kept.
-/

namespace GeoMaster

open List Option Json

namespace SourceProjection

open Op

/-- An object without private members that shows of a reasoning object only the type. -/
def Public (fields : List (String × Json)) : Prop :=
  (∀ field ∈ fields, SourceNames.isPrivate field.1 = false)
    ∧ (isThink (.object fields) = true → ∀ field ∈ fields, field.1 = "type")

/-- All objects in a value are public. -/
def AllPublic (value : Json) : Prop :=
  ∀ fields ∈ value.objects, Public fields

/-- What is kept of a value, and the places left out of it. -/
structure Sound (value kept : Json) (places : Places) : Prop where
  nowhere : ∀ keys ∈ places, kept.pointer keys = none
  somewhere : ∀ keys ∈ places, (value.pointer keys).isSome = true
  distinct : places.Nodup
  rest : (value.without places).SameAs kept
  shown : AllPublic kept

/-- What is kept of the members of an object, and the places left out below it. -/
structure FieldsSound (fields kept : List (String × Json)) (places : Places) : Prop where
  headed : ∀ keys ∈ places, ∃ key ∈ fields.map Prod.fst, ∃ rest, keys = key :: rest
  nowhere : ∀ keys ∈ places, (Json.object kept).pointer keys = none
  somewhere : ∀ keys ∈ places, ((Json.object fields).pointer keys).isSome = true
  distinct : places.Nodup
  rest : ∃ middle, middle.Perm kept ∧ Json.SameFields (withoutFields fields places) middle
  shown : ∀ field ∈ kept, SourceNames.isPrivate field.1 = false ∧ AllPublic field.2

/-- What is kept of the items from an index on, and the places left out below the array. -/
structure ItemsSound (index : Nat) (items kept : List Json) (places : Places) : Prop where
  nowhere : ∀ keys ∈ places, ∃ i rest item,
    keys = toString (index + i) :: rest ∧ kept[i]? = some item ∧ item.pointer rest = none
  somewhere : ∀ keys ∈ places, ∃ i rest item,
    keys = toString (index + i) :: rest ∧ items[i]? = some item ∧ (item.pointer rest).isSome = true
  distinct : places.Nodup
  rest : Json.SameItems (withoutItems items places index) kept
  shown : ∀ item ∈ kept, AllPublic item

/-! ### Composing places -/

variable {value : Json} {places : Places} {keys : List String} {key : String} {fields : List (String × Json)}

theorem Sound.nil (h : AllPublic value) : Sound value value [] :=
  ⟨by simp, by simp, nodup_nil, by rw [Json.without_nil]; exact .refl value, h⟩

/-- A place left out is not the value itself. -/
theorem Sound.ne_nil {kept : Json} (h : Sound value kept places) (hmem : keys ∈ places) : keys ≠ [] := by
  rintro rfl
  simpa using h.nowhere [] hmem

theorem nodup_map_cons (h : places.Nodup) (key : String) : (places.map (key :: ·)).Nodup :=
  h.map fun _ _ heq => (List.cons.inj heq).2

theorem nodup_singletons (h : keys.Nodup) : (keys.map fun key => [key]).Nodup :=
  h.map fun _ _ heq => singleton_inj.mp heq

namespace FieldsSound

variable {fields kept fields' kept' : List (String × Json)} {places places' : Places}

variable {key : String}

/-- Places do not go below a name that is not gone through. -/
theorem not_headed (h : FieldsSound fields kept places)
    (hkey : key ∉ fields.map Prod.fst) : ∀ rest, key :: rest ∉ places := by
  intro rest hmem
  obtain ⟨_, hother, _, heq⟩ := h.headed _ hmem
  exact hkey ((List.cons.inj heq).1 ▸ hother)

theorem names (h : FieldsSound fields kept places) : kept.map Prod.fst ⊆ fields.map Prod.fst := by
  obtain ⟨_, hperm, hsame⟩ := h.rest
  intro key hkey
  rw [← (hperm.map Prod.fst).mem_iff, Json.sameFields_names hsame] at hkey
  exact Json.withoutFields_names.subset hkey

theorem nodup (h : FieldsSound fields kept places) (hnodup : (fields.map Prod.fst).Nodup) :
    (kept.map Prod.fst).Nodup := by
  obtain ⟨_, hperm, hsame⟩ := h.rest
  rw [← (hperm.map Prod.fst).nodup_iff, Json.sameFields_names hsame]
  exact hnodup.sublist Json.withoutFields_names

/-- The member of a name that is not gone through is not kept. -/
theorem get_eq_none (h : FieldsSound fields kept places)
    (hkey : key ∉ fields.map Prod.fst) : (Json.object kept).get key = none :=
  Json.get_eq_none.mpr fun hmem => hkey (h.names hmem)

theorem mem_of_text (h : FieldsSound fields kept places) {text : String}
    (hmem : (key, string text) ∈ kept) : (key, string text) ∈ fields := by
  obtain ⟨_, hperm, hsame⟩ := h.rest
  obtain ⟨_, hchild, _⟩ := hsame.counterpart (hperm.mem_iff.mpr hmem)
  rw [Json.withoutFields_eq_flatMap] at hchild
  obtain ⟨⟨_, own⟩, _, hin⟩ := mem_flatMap.mp hchild
  rw [withoutField] at hin
  split at hin
  · exact absurd hin not_mem_nil
  · obtain ⟨rfl, rfl⟩ := Prod.mk.inj (mem_singleton.mp hin)
    cases own <;> simp_all [without, Json.SameAs]

/-- Members that are kept as they are. -/
theorem refl (h : ∀ field ∈ fields, SourceNames.isPrivate field.1 = false ∧ AllPublic field.2) :
    FieldsSound fields fields [] where
  headed := by simp
  nowhere := by simp
  somewhere := by simp
  distinct := nodup_nil
  rest := ⟨fields, List.Perm.refl _, by rw [Json.withoutFields_nil]; exact .refl fields⟩
  shown := h

/-- A member that is left out. -/
theorem dropped {child : Json} : FieldsSound [(key, child)] [] [[key]] where
  headed := by simp
  nowhere := by simp [pointer_object]
  somewhere := by simp [pointer_object, get_cons]
  distinct := nodup_singleton _
  rest := ⟨[], List.Perm.refl _, by simp [withoutFields, withoutField, Json.SameFields]⟩
  shown := by simp

theorem keep {key : String} {child value : Json} {inner : Places} (hprivate : SourceNames.isPrivate key = false)
    (hvalue : Sound child value inner) : FieldsSound [(key, child)] [(key, value)] (inner.map (key :: ·)) where
  headed := by simp
  nowhere := by
    intro keys hmem
    obtain ⟨rest, hrest, rfl⟩ := mem_map.mp hmem
    simpa [pointer_object, get_cons] using hvalue.nowhere rest hrest
  somewhere := by
    intro keys hmem
    obtain ⟨rest, hrest, rfl⟩ := mem_map.mp hmem
    simpa [pointer_object, get_cons] using hvalue.somewhere rest hrest
  distinct := nodup_map_cons hvalue.distinct key
  rest := by
    have hstays : [key] ∉ inner.map (key :: ·) := by
      intro hmem
      obtain ⟨_, hrest, heq⟩ := mem_map.mp hmem
      exact hvalue.ne_nil hrest (List.cons.inj heq).2
    refine ⟨[(key, value)], List.Perm.refl _, ?_⟩
    rw [withoutFields, withoutField, if_neg hstays, Json.below_map_self]
    exact ⟨(key, value), [], rfl, ⟨value, rfl, hvalue.rest⟩, rfl⟩
  shown := by
    intro field hfield
    obtain rfl := mem_singleton.mp hfield
    exact ⟨hprivate, hvalue.shown⟩

theorem object (h : FieldsSound fields kept places) (hpublic : Public kept) :
    Sound (.object fields) (.object kept) places where
  nowhere := h.nowhere
  somewhere := h.somewhere
  distinct := h.distinct
  rest := by
    obtain ⟨middle, hperm, hsame⟩ := h.rest
    exact ⟨kept, middle, rfl, hperm, hsame⟩
  shown := by
    intro own hown
    rcases Json.mem_objects_object.mp hown with rfl | ⟨field, hfield, hown⟩
    · exact hpublic
    · exact (h.shown field hfield).2 own hown

theorem «public» (h : FieldsSound fields kept places) (htype : "type" ∉ kept.map Prod.fst) : Public kept := by
  refine ⟨fun field hfield => (h.shown field hfield).1, fun hthink => absurd ?_ htype⟩
  have hget : (Json.object kept).get "type" = some (.string "THINK") := by simpa [isThink] using hthink
  exact mem_map.mpr ⟨_, mem_of_get hget, rfl⟩

/-- Members with other names, one after the other. -/
theorem append (h : FieldsSound fields kept places) (h' : FieldsSound fields' kept' places')
    (hdisjoint : List.Disjoint (fields.map Prod.fst) (fields'.map Prod.fst)) :
    FieldsSound (fields ++ fields') (kept ++ kept') (places ++ places') where
  headed := by
    intro keys hmem
    rw [map_append]
    rcases mem_append.mp hmem with hmem | hmem
    · obtain ⟨key, hkey, rest, rfl⟩ := h.headed keys hmem
      exact ⟨key, mem_append_left _ hkey, rest, rfl⟩
    · obtain ⟨key, hkey, rest, rfl⟩ := h'.headed keys hmem
      exact ⟨key, mem_append_right _ hkey, rest, rfl⟩
  nowhere := by
    intro keys hmem
    rcases mem_append.mp hmem with hmem | hmem
    · obtain ⟨key, hkey, rest, rfl⟩ := h.headed keys hmem
      have hnone := h.nowhere _ hmem
      rw [pointer_object] at hnone ⊢
      rwa [get_append, h'.get_eq_none fun hother => hdisjoint hkey hother, or_none]
    · obtain ⟨_, hkey, _, rfl⟩ := h'.headed keys hmem
      have hnone := h'.nowhere _ hmem
      rw [pointer_object] at hnone ⊢
      rwa [get_append, h.get_eq_none fun hother => hdisjoint hother hkey, none_or]
  somewhere := by
    intro keys hmem
    rcases mem_append.mp hmem with hmem | hmem
    · obtain ⟨key, hkey, rest, rfl⟩ := h.headed keys hmem
      have hsome := h.somewhere _ hmem
      have hnone := Json.get_eq_none.mpr fun hother => hdisjoint hkey hother
      rw [pointer_object] at hsome ⊢
      rwa [get_append, hnone, or_none]
    · obtain ⟨_, hkey, _, rfl⟩ := h'.headed keys hmem
      have hsome := h'.somewhere _ hmem
      have hnone := Json.get_eq_none.mpr fun hother => hdisjoint hother hkey
      rw [pointer_object] at hsome ⊢
      rwa [get_append, hnone, none_or]
  distinct := by
    refine nodup_append'.mpr ⟨h.distinct, h'.distinct, fun keys hmem hmem' => ?_⟩
    obtain ⟨_, hkey, rest, rfl⟩ := h.headed keys hmem
    exact h'.not_headed (fun hother => hdisjoint hkey hother) rest hmem'
  rest := by
    obtain ⟨middle, hperm, hsame⟩ := h.rest
    obtain ⟨middle', hperm', hsame'⟩ := h'.rest
    have hleft : withoutFields fields (places ++ places') = withoutFields fields places := by
      refine Json.withoutFields_congr fun key hkey => ?_
      have hout := h'.not_headed fun hother => hdisjoint hkey hother
      exact ⟨by simp [hout []], by rw [Json.below_append, Json.below_eq_nil hout, append_nil]⟩
    have hright : withoutFields fields' (places ++ places') = withoutFields fields' places' := by
      refine Json.withoutFields_congr fun key hkey => ?_
      have hout := h.not_headed fun hother => hdisjoint hother hkey
      exact ⟨by simp [hout []], by rw [Json.below_append, Json.below_eq_nil hout, nil_append]⟩
    refine ⟨middle ++ middle', hperm.append hperm', ?_⟩
    rw [Json.withoutFields_append, hleft, hright]
    exact hsame.append hsame'
  shown field hfield := (mem_append.mp hfield).elim (h.shown field) (h'.shown field)

/-- The members may be told in another order, before and after. -/
theorem perm (h : FieldsSound fields kept places) (hnodup : (fields.map Prod.fst).Nodup)
    (hfields : fields.Perm fields') (hkept : kept.Perm kept') : FieldsSound fields' kept' places where
  headed keys hmem :=
    let ⟨key, hkey, hrest⟩ := h.headed keys hmem
    ⟨key, (hfields.map Prod.fst).mem_iff.mp hkey, hrest⟩
  nowhere := by
    intro keys hmem
    obtain ⟨_, -, _, rfl⟩ := h.headed keys hmem
    have hnone := h.nowhere _ hmem
    rwa [pointer_object, Json.get_perm (h.nodup hnodup) hkept, ← pointer_object] at hnone
  somewhere := by
    intro keys hmem
    obtain ⟨_, -, _, rfl⟩ := h.headed keys hmem
    have hsome := h.somewhere _ hmem
    rwa [pointer_object, Json.get_perm hnodup hfields, ← pointer_object] at hsome
  distinct := h.distinct
  rest := by
    obtain ⟨_, hperm, hsame⟩ := h.rest
    obtain ⟨last, hlast, hsame'⟩ := hsame.perm (Json.withoutFields_perm hfields)
    exact ⟨last, (hlast.trans hperm).trans hkept, hsame'⟩
  shown field hfield := h.shown field (hkept.mem_iff.mpr hfield)

end FieldsSound

theorem ItemsSound.nil {index : Nat} : ItemsSound index [] [] [] :=
  ⟨by simp, by simp, nodup_nil, rfl, by simp⟩

theorem toString_injective {a b : Nat} (h : toString a = toString b) : a = b := by
  have hindex := congrArg arrayIndex h
  rw [arrayIndex_toString, arrayIndex_toString] at hindex
  exact some.inj hindex

theorem ItemsSound.cons {index : Nat} {item value : Json} {items kept : List Json} {inner places : Places}
    (hitem : Sound item value inner) (h : ItemsSound (index + 1) items kept places) :
    ItemsSound index (item :: items) (value :: kept) (inner.map (toString index :: ·) ++ places) where
  nowhere := by
    intro keys hmem
    rcases mem_append.mp hmem with hmem | hmem
    · obtain ⟨rest, hrest, rfl⟩ := mem_map.mp hmem
      exact ⟨0, rest, value, rfl, rfl, hitem.nowhere rest hrest⟩
    · obtain ⟨i, rest, other, rfl, hget, hnone⟩ := h.nowhere keys hmem
      exact ⟨i + 1, rest, other, by rw [Nat.add_assoc, Nat.add_comm 1 i], hget, hnone⟩
  somewhere := by
    intro keys hmem
    rcases mem_append.mp hmem with hmem | hmem
    · obtain ⟨rest, hrest, rfl⟩ := mem_map.mp hmem
      exact ⟨0, rest, item, rfl, rfl, hitem.somewhere rest hrest⟩
    · obtain ⟨i, rest, other, rfl, hget, hsome⟩ := h.somewhere keys hmem
      exact ⟨i + 1, rest, other, by rw [Nat.add_assoc, Nat.add_comm 1 i], hget, hsome⟩
  distinct := by
    refine nodup_append'.mpr ⟨nodup_map_cons hitem.distinct _, h.distinct, ?_⟩
    intro keys hmem hplaces
    obtain ⟨_, -, rfl⟩ := mem_map.mp hmem
    obtain ⟨_, _, _, heq, -⟩ := h.nowhere _ hplaces
    have hindex := toString_injective (List.cons.inj heq).1
    omega
  rest := by
    have hothers : ∀ rest, toString index :: rest ∉ places := by
      intro rest hmem
      obtain ⟨_, _, _, heq, -⟩ := h.nowhere _ hmem
      have hindex := toString_injective (List.cons.inj heq).1
      omega
    have hfirst : Places.below (inner.map (toString index :: ·) ++ places) (toString index) = inner := by
      rw [Json.below_append, Json.below_map_self, Json.below_eq_nil hothers, append_nil]
    have hrest : withoutItems items (inner.map (toString index :: ·) ++ places) (index + 1)
        = withoutItems items places (index + 1) := by
      refine Json.withoutItems_congr fun i => ?_
      rw [Json.below_append, Json.below_eq_nil, nil_append]
      intro rest hmem
      obtain ⟨_, -, heq⟩ := mem_map.mp hmem
      have hindex := toString_injective (List.cons.inj heq).1
      omega
    rw [withoutItems, hfirst, hrest]
    exact ⟨value, kept, rfl, hitem.rest, h.rest⟩
  shown := forall_mem_cons.mpr ⟨hitem.shown, h.shown⟩

theorem ItemsSound.array {items kept : List Json} {places : Places} (h : ItemsSound 0 items kept places) :
    Sound (.array items) (.array kept) places where
  nowhere := by
    intro keys hmem
    obtain ⟨_, _, _, rfl, hget, hnone⟩ := h.nowhere keys hmem
    rw [pointer_array, Nat.zero_add, hget, Option.bind_some, hnone]
  somewhere := by
    intro keys hmem
    obtain ⟨_, _, _, rfl, hget, _⟩ := h.somewhere keys hmem
    rwa [pointer_array, Nat.zero_add, hget, Option.bind_some]
  distinct := h.distinct
  rest := ⟨kept, rfl, h.rest⟩
  shown := by
    intro own hown
    obtain ⟨item, hitem, hown⟩ := Json.mem_objects_array.mp hown
    exact h.shown item hitem own hown

/-! ### Members that are left out as a whole -/

/-- Members that are left out as a whole, before the others are gone through. -/
structure Dropped (fields retained : List (String × Json)) (places : Places) : Prop where
  kept : retained.Sublist fields
  missing : ∀ keys ∈ places, ∃ key, keys = [key] ∧ key ∈ fields.map Prod.fst ∧ key ∉ retained.map Prod.fst
  declared : ∀ key ∈ fields.map Prod.fst, key ∈ retained.map Prod.fst ∨ [key] ∈ places
  distinct : places.Nodup

namespace Dropped

variable {fields middle retained kept : List (String × Json)} {places more : Places}

theorem refl : Dropped fields fields [] :=
  ⟨List.Sublist.refl fields, by simp, fun _ => .inl, nodup_nil⟩

theorem names (h : Dropped fields retained places) : (retained.map Prod.fst).Sublist (fields.map Prod.fst) :=
  h.kept.map Prod.fst

variable {field : String × Json}

theorem stay (h : Dropped fields retained places)
    (hkey : field.1 ∉ fields.map Prod.fst) : Dropped (field :: fields) (field :: retained) places where
  kept := h.kept.cons_cons field
  missing := by
    intro keys hmem
    obtain ⟨key, rfl, hin, hout⟩ := h.missing keys hmem
    refine ⟨key, rfl, mem_cons_of_mem _ hin, fun hretained => ?_⟩
    rcases mem_cons.mp hretained with rfl | hretained
    · exact hkey hin
    · exact hout hretained
  declared := by
    intro key hmem
    rcases mem_cons.mp hmem with rfl | hmem
    · exact .inl mem_cons_self
    · exact (h.declared key hmem).imp_left (mem_cons_of_mem _)
  distinct := h.distinct

/-- One more member that is left out. -/
theorem leave (h : Dropped fields retained places) (hkey : field.1 ∉ fields.map Prod.fst) :
    Dropped (field :: fields) retained ([field.1] :: places) where
  kept := h.kept.cons field
  missing := by
    intro keys hmem
    rcases mem_cons.mp hmem with rfl | hmem
    · exact ⟨field.1, rfl, mem_cons_self, fun hin => hkey (h.names.subset hin)⟩
    · obtain ⟨key, rfl, hin, hout⟩ := h.missing keys hmem
      exact ⟨key, rfl, mem_cons_of_mem _ hin, hout⟩
  declared := by
    intro key hmem
    rcases mem_cons.mp hmem with rfl | hmem
    · exact .inr mem_cons_self
    · exact (h.declared key hmem).imp_right (mem_cons_of_mem _)
  distinct := by
    refine nodup_cons.mpr ⟨fun hmem => ?_, h.distinct⟩
    obtain ⟨_, heq, hin, -⟩ := h.missing _ hmem
    exact hkey (singleton_inj.mp heq ▸ hin)

/-- The places are not below what is retained. -/
theorem not_headed (h : Dropped fields retained places) {key : String}
    (hkey : key ∈ retained.map Prod.fst) : ∀ rest, key :: rest ∉ places := by
  intro rest hmem
  obtain ⟨_, heq, -, hout⟩ := h.missing _ hmem
  exact hout ((List.cons.inj heq).1 ▸ hkey)

/-- The members that stay are gone through afterwards. -/
theorem andThen (h : Dropped fields retained places) (hnodup : (fields.map Prod.fst).Nodup)
    (h' : FieldsSound retained kept more) : FieldsSound fields kept (places ++ more) where
  headed := by
    intro keys hmem
    rcases mem_append.mp hmem with hmem | hmem
    · obtain ⟨key, rfl, hin, -⟩ := h.missing keys hmem
      exact ⟨key, hin, [], rfl⟩
    · obtain ⟨key, hkey, rest, rfl⟩ := h'.headed keys hmem
      exact ⟨key, h.names.subset hkey, rest, rfl⟩
  nowhere := by
    intro keys hmem
    rcases mem_append.mp hmem with hmem | hmem
    · obtain ⟨_, rfl, -, hout⟩ := h.missing keys hmem
      rw [pointer_object, h'.get_eq_none hout, bind_none]
    · exact h'.nowhere keys hmem
  somewhere := by
    intro keys hmem
    rcases mem_append.mp hmem with hmem | hmem
    · obtain ⟨key, rfl, hin, -⟩ := h.missing keys hmem
      cases hget : (Json.object fields).get key with
      | none => exact absurd hin (Json.get_eq_none.mp hget)
      | some value => rw [pointer_object, hget, Option.bind_some, pointer_nil]; rfl
    · obtain ⟨key, -, _, rfl⟩ := h'.headed keys hmem
      have hsome := h'.somewhere _ hmem
      rw [pointer_object] at hsome ⊢
      cases hget : (Json.object retained).get key with
      | none => simp [hget] at hsome
      | some value => rwa [Json.get_sublist hnodup h.kept hget, ← hget]
  distinct := by
    refine nodup_append'.mpr ⟨h.distinct, h'.distinct, fun keys hmem hmem' => ?_⟩
    obtain ⟨_, rfl, -, hout⟩ := h.missing keys hmem
    exact h'.not_headed hout [] hmem'
  rest := by
    have hgone : ∀ key ∈ fields.map Prod.fst, key ∉ retained.map Prod.fst → [key] ∈ places ++ more :=
      fun key hkey hout => mem_append_left more ((h.declared key hkey).resolve_left hout)
    have hrest : withoutFields retained (places ++ more) = withoutFields retained more := by
      refine Json.withoutFields_congr fun key hkey => ?_
      have hout := h.not_headed hkey
      exact ⟨by simp [hout []], by rw [Json.below_append, Json.below_eq_nil hout, nil_append]⟩
    rw [Json.withoutFields_sublist h.kept hnodup hgone, hrest]
    exact h'.rest
  shown := h'.shown

theorem proper (h : Dropped fields retained places) (hproper : (Json.object fields).Proper) :
    (Json.object retained).Proper := by
  obtain ⟨hnodup, hchildren⟩ := Json.proper_object.mp hproper
  exact Json.proper_object.mpr ⟨hnodup.sublist h.names, fun field hfield => hchildren field (h.kept.subset hfield)⟩

end Dropped

/-! ### Members that are replaced -/

theorem replaceMember_of_not_mem {value : Option Json}
    (h : key ∉ fields.map Prod.fst) : replaceMember fields key value = fields := by
  induction fields with
  | nil => rfl
  | cons _ _ ih =>
    rw [map_cons, mem_cons, not_or] at h
    rw [replaceMember, flatMap_cons, if_neg (Ne.symm h.1), ← replaceMember, ih h.2]
    rfl

theorem replaceMember_none (hnodup : (fields.map Prod.fst).Nodup) (h : key ∈ fields.map Prod.fst) :
    Dropped fields (replaceMember fields key none) [[key]] := by
  induction fields with
  | nil => simp at h
  | cons field rest ih =>
    obtain ⟨hfield, hrest⟩ := nodup_cons.mp hnodup
    rw [replaceMember, flatMap_cons, ← replaceMember]
    by_cases heq : field.1 = key
    · subst heq
      rw [if_pos rfl, replaceMember_of_not_mem hfield]
      exact Dropped.refl.leave hfield
    · rw [if_neg heq]
      have hmem : key ∈ rest.map Prod.fst := by
        rcases mem_cons.mp h with rfl | hmem
        · exact absurd rfl heq
        · exact hmem
      exact (ih hrest hmem).stay hfield

/-- Members that are kept as they are, beside one that is gone through. -/
def PlainBeside (key : String) (fields : List (String × Json)) : Prop :=
  ∀ field ∈ fields, field.1 ≠ key → SourceNames.isPrivate field.1 = false ∧ AllPublic field.2

theorem replaceMember_some {child : Json}
    {inner : Places} (hnodup : (fields.map Prod.fst).Nodup) (hothers : PlainBeside key fields)
    (hkey : SourceNames.isPrivate key = false) (hget : (Json.object fields).get key = some child)
    (hvalue : Sound child value inner) :
    FieldsSound fields (replaceMember fields key (some value)) (inner.map (key :: ·)) := by
  induction fields with
  | nil => simp at hget
  | cons field rest ih =>
    obtain ⟨hfield, hrest⟩ := nodup_cons.mp hnodup
    have hplainRest : PlainBeside key rest := fun other hother => hothers other (mem_cons_of_mem _ hother)
    obtain ⟨name, own⟩ := field
    rw [replaceMember, flatMap_cons, ← replaceMember]
    rw [get_cons] at hget
    by_cases heq : name = key
    · subst heq
      rw [if_pos rfl] at hget
      obtain rfl := some.inj hget
      rw [if_pos rfl, replaceMember_of_not_mem hfield]
      have hplain : FieldsSound rest rest [] :=
        .refl fun other hother => hplainRest other hother fun heq => hfield (mem_map.mpr ⟨other, hother, heq⟩)
      simpa using (FieldsSound.keep hkey hvalue).append hplain (by simpa using hfield)
    · rw [if_neg heq] at hget ⊢
      have hhead : FieldsSound [(name, own)] [(name, own)] [] :=
        .refl fun other hother => mem_singleton.mp hother ▸ hothers _ mem_cons_self heq
      simpa using hhead.append (ih hrest hplainRest hget) (by simpa using hfield)

end SourceProjection

end GeoMaster
