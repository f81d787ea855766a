import GeoMaster.Proofs.JsonPointers

/-!
# Deleting members

`value.without places` is a value without the members that some pointers lead to. Two values are the same
when they differ at most in the order of members. Deleting is told member by member: what is deleted below
a member does not depend on the pointers that go elsewhere.
-/

namespace GeoMaster

open List Option Json

/-- Places below a value, by the keys that lead to them. -/
abbrev Places : Type :=
  List (List String)

/-- The places below a member or an item. -/
def Places.below (places : Places) (key : String) : Places :=
  places.filterMap fun keys =>
    match keys with
    | [] => none
    | first :: rest => if first = key then some rest else none

namespace Json

mutual

/-- A value without the members at some places. -/
def without (value : Json) (places : Places) : Json :=
  match value with
  | .array items => .array (withoutItems items places 0)
  | .object fields => .object (withoutFields fields places)
  | value => value
termination_by structural value

def withoutItems (items : List Json) (places : Places) (index : Nat) : List Json :=
  match items with
  | [] => []
  | item :: rest => without item (places.below (toString index)) :: withoutItems rest places (index + 1)
termination_by structural items

def withoutFields (fields : List (String × Json)) (places : Places) : List (String × Json) :=
  match fields with
  | [] => []
  | field :: rest => withoutField field places ++ withoutFields rest places
termination_by structural fields

def withoutField (field : String × Json) (places : Places) : List (String × Json) :=
  match field with
  | (key, child) => if [key] ∈ places then [] else [(key, without child (places.below key))]
termination_by structural field

end

mutual

/-- The same value, whatever the order of its members. -/
def SameAs (value other : Json) : Prop :=
  match value with
  | .array items => ∃ others, other = .array others ∧ SameItems items others
  | .object fields => ∃ others middle, other = .object others ∧ middle.Perm others ∧ SameFields fields middle
  | value => other = value
termination_by structural value

def SameItems (items others : List Json) : Prop :=
  match items with
  | [] => others = []
  | item :: rest => ∃ first more, others = first :: more ∧ SameAs item first ∧ SameItems rest more
termination_by structural items

def SameFields (fields others : List (String × Json)) : Prop :=
  match fields with
  | [] => others = []
  | field :: rest => ∃ first more, others = first :: more ∧ SameField field first ∧ SameFields rest more
termination_by structural fields

def SameField (field other : String × Json) : Prop :=
  match field with
  | (key, child) => ∃ value, other = (key, value) ∧ SameAs child value
termination_by structural field

end

mutual

/-- The objects in a value. -/
def objects (value : Json) : List (List (String × Json)) :=
  match value with
  | .array items => objectsOfItems items
  | .object fields => fields :: objectsOfFields fields
  | _ => []
termination_by structural value

def objectsOfItems (items : List Json) : List (List (String × Json)) :=
  match items with
  | [] => []
  | item :: rest => objects item ++ objectsOfItems rest
termination_by structural items

def objectsOfFields (fields : List (String × Json)) : List (List (String × Json)) :=
  match fields with
  | [] => []
  | field :: rest => objectsOfField field ++ objectsOfFields rest
termination_by structural fields

def objectsOfField (field : String × Json) : List (List (String × Json)) :=
  match field with
  | (_, child) => objects child
termination_by structural field

end

/-! ### Objects in a value -/

variable {fields others own : List (String × Json)} {items : List Json} {key : String} {left value : Json}
  {more places : Places}

theorem mem_objectsOfItems : own ∈ objectsOfItems items ↔ ∃ item ∈ items, own ∈ item.objects := by
  induction items with
  | nil => simp [objectsOfItems]
  | cons _ _ ih => simp [objectsOfItems, ih]

theorem mem_objectsOfFields : own ∈ objectsOfFields fields ↔ ∃ field ∈ fields, own ∈ field.2.objects := by
  induction fields with
  | nil => simp [objectsOfFields]
  | cons field _ ih =>
    obtain ⟨_, _⟩ := field
    rw [objectsOfFields, objectsOfField, mem_append, ih, exists_mem_cons_iff]

theorem mem_objects_array : own ∈ (Json.array items).objects ↔ ∃ item ∈ items, own ∈ item.objects := by
  rw [objects, mem_objectsOfItems]

theorem mem_objects_object :
    own ∈ (Json.object fields).objects ↔ own = fields ∨ ∃ field ∈ fields, own ∈ field.2.objects := by
  rw [objects, mem_cons, mem_objectsOfFields]

/-! ### The same value -/

theorem sameField_iff {field other : String × Json} :
    SameField field other ↔ ∃ value, other = (field.1, value) ∧ field.2.SameAs value := by
  obtain ⟨_, _⟩ := field
  rfl

theorem SameAs.refl (value : Json) : value.SameAs value := by
  induction value using Json.induct with
  | leaf value => cases value <;> simp_all [SameAs, Json.asArray, members]
  | array items ih =>
    have hitems : SameItems items items := by
      induction items with
      | nil => rfl
      | cons item rest ihrest =>
        obtain ⟨hitem, hrest⟩ := forall_mem_cons.mp ih
        exact ⟨item, rest, rfl, hitem, ihrest hrest⟩
    exact ⟨items, rfl, hitems⟩
  | object fields ih =>
    have hfields : SameFields fields fields := by
      induction fields with
      | nil => rfl
      | cons field rest ihrest =>
        obtain ⟨hfield, hrest⟩ := forall_mem_cons.mp ih
        exact ⟨field, rest, rfl, sameField_iff.mpr ⟨field.2, rfl, hfield⟩, ihrest hrest⟩
    exact ⟨fields, fields, rfl, List.Perm.refl _, hfields⟩

theorem SameFields.refl (fields : List (String × Json)) : SameFields fields fields := by
  induction fields with
  | nil => rfl
  | cons field rest ih => exact ⟨field, rest, rfl, sameField_iff.mpr ⟨field.2, rfl, .refl field.2⟩, ih⟩

variable {fields' retained : List (String × Json)} {index : Nat} {keys : List String} {other : Json}

theorem SameFields.append {others' : List (String × Json)} (h : SameFields fields others)
    (h' : SameFields fields' others') : SameFields (fields ++ fields') (others ++ others') := by
  induction fields generalizing others with
  | nil =>
    obtain rfl : others = [] := h
    exact h'
  | cons _ _ ih =>
    obtain ⟨first, more, rfl, hfield, hrest⟩ := h
    exact ⟨first, more ++ others', rfl, hfield, ih hrest⟩

/-- Members in another order are the same as their counterparts in that order. -/
theorem SameFields.perm (h : SameFields fields others) (hperm : fields.Perm fields') :
    ∃ middle, middle.Perm others ∧ SameFields fields' middle := by
  induction hperm generalizing others with
  | nil => exact ⟨others, List.Perm.refl _, h⟩
  | cons _ _ ih =>
    obtain ⟨first, _, rfl, hfield, hrest⟩ := h
    obtain ⟨middle, hmiddle, hsame⟩ := ih hrest
    exact ⟨first :: middle, hmiddle.cons first, first, middle, rfl, hfield, hsame⟩
  | swap =>
    obtain ⟨first, _, rfl, hfirst, second, more, rfl, hsecond, hrest⟩ := h
    exact ⟨second :: first :: more, .swap first second more, second, first :: more, rfl, hsecond, first,
      more, rfl, hfirst, hrest⟩
  | trans _ _ ih ih' =>
    obtain ⟨_, hmiddle, hsame⟩ := ih h
    obtain ⟨last, hlast, hsame'⟩ := ih' hsame
    exact ⟨last, hlast.trans hmiddle, hsame'⟩

theorem SameFields.counterpart (h : SameFields fields others) (hmem : (key, value) ∈ others) :
    ∃ child, (key, child) ∈ fields ∧ child.SameAs value := by
  induction fields generalizing others with
  | nil =>
    obtain rfl : others = [] := h
    exact absurd hmem not_mem_nil
  | cons field _ ih =>
    obtain ⟨_, _, rfl, hfield, hrest⟩ := h
    obtain ⟨_, rfl, hown⟩ := sameField_iff.mp hfield
    rcases mem_cons.mp hmem with heq | hmem
    · obtain ⟨hkey, rfl⟩ := Prod.mk.inj heq
      exact ⟨field.2, by simp [hkey], hown⟩
    · obtain ⟨child, hchild, hsame⟩ := ih hrest hmem
      exact ⟨child, mem_cons_of_mem _ hchild, hsame⟩

/-! ### Places below a member -/

@[simp]
theorem below_nil : Places.below [] key = [] :=
  rfl

theorem below_append : Places.below (places ++ more) key = places.below key ++ more.below key :=
  filterMap_append

@[simp]
theorem below_map_self {inner : Places} : Places.below (inner.map (key :: ·)) key = inner := by
  induction inner with
  | nil => rfl
  | cons => simp [Places.below]

theorem below_eq_nil (h : ∀ rest, key :: rest ∉ places) : places.below key = [] := by
  rw [Places.below, filterMap_eq_nil_iff]
  intro keys hmem
  cases keys with
  | nil => rfl
  | cons first rest =>
    have hne : first ≠ key := by
      rintro rfl
      exact h rest hmem
    simp [hne]

/-! ### What is left without some members -/

/-- Nothing is deleted where no place is. -/
theorem without_nil (value : Json) : value.without [] = value := by
  induction value using Json.induct with
  | leaf value => cases value <;> simp_all [without, Json.asArray, members]
  | array items ih =>
    have hitems : ∀ index, withoutItems items [] index = items := by
      induction items with
      | nil => exact fun _ => rfl
      | cons _ _ ihrest =>
        obtain ⟨hitem, hrest⟩ := forall_mem_cons.mp ih
        intro index
        rw [withoutItems, below_nil, hitem, ihrest hrest]
    rw [without, hitems]
  | object fields ih =>
    have hfields : withoutFields fields [] = fields := by
      induction fields with
      | nil => rfl
      | cons field _ ihrest =>
        obtain ⟨_, child⟩ := field
        obtain ⟨hchild, hrest⟩ := forall_mem_cons.mp ih
        have hown : child.without [] = child := hchild
        rw [withoutFields, withoutField, below_nil, hown, ihrest hrest]
        rfl
    rw [without, hfields]

theorem withoutFields_nil (fields : List (String × Json)) : withoutFields fields [] = fields := by
  have h := without_nil (.object fields)
  rw [without] at h
  exact Json.object.inj h

theorem withoutFields_append :
    withoutFields (fields ++ others) places = withoutFields fields places ++ withoutFields others places := by
  induction fields with
  | nil => rfl
  | cons _ _ ih =>
    rw [cons_append, withoutFields, withoutFields, ih, append_assoc]

theorem withoutFields_eq_flatMap :
    withoutFields fields places = fields.flatMap fun field => withoutField field places := by
  induction fields with
  | nil => rfl
  | cons _ _ ih => rw [withoutFields, ih, flatMap_cons]

theorem withoutFields_perm (h : fields.Perm others) :
    (withoutFields fields places).Perm (withoutFields others places) := by
  rw [withoutFields_eq_flatMap, withoutFields_eq_flatMap]
  exact h.flatMap_right _

/-- What is deleted of a member depends on the places below it only. -/
theorem withoutField_congr {child : Json} (hself : [key] ∈ places ↔ [key] ∈ more)
    (hbelow : places.below key = more.below key) :
    withoutField (key, child) places = withoutField (key, child) more := by
  rw [withoutField, withoutField, hbelow]
  by_cases h : [key] ∈ more
  · rw [if_pos h, if_pos (hself.mpr h)]
  · rw [if_neg h, if_neg fun hplaces => h (hself.mp hplaces)]

theorem withoutFields_congr
    (h : ∀ key ∈ fields.map Prod.fst, ([key] ∈ places ↔ [key] ∈ more) ∧ places.below key = more.below key) :
    withoutFields fields places = withoutFields fields more := by
  induction fields with
  | nil => rfl
  | cons field _ ih =>
    obtain ⟨_, _⟩ := field
    obtain ⟨hkey, hrest⟩ := forall_mem_cons.mp h
    rw [withoutFields, withoutFields, withoutField_congr hkey.1 hkey.2, ih hrest]

theorem withoutItems_congr (h : ∀ i, places.below (toString (index + i)) = more.below (toString (index + i))) :
    withoutItems items places index = withoutItems items more index := by
  induction items generalizing index with
  | nil => rfl
  | cons _ _ ih =>
    have hrest : ∀ i, places.below (toString (index + 1 + i)) = more.below (toString (index + 1 + i)) := by
      intro i
      rw [Nat.add_assoc, Nat.add_comm 1 i]
      exact h (i + 1)
    rw [withoutItems, withoutItems, ih hrest]
    congr 2
    exact h 0

/-- Members that all stand at places that are deleted are not seen in what is left. -/
theorem withoutFields_sublist (hsublist : retained.Sublist fields) (hnodup : (fields.map Prod.fst).Nodup)
    (hgone : ∀ key ∈ fields.map Prod.fst, key ∉ retained.map Prod.fst → [key] ∈ places) :
    withoutFields fields places = withoutFields retained places := by
  induction hsublist with
  | slnil => rfl
  | @cons retained _ field hsublist ih =>
    obtain ⟨key, _⟩ := field
    obtain ⟨hkey, hrest⟩ := nodup_cons.mp hnodup
    have hout : key ∉ retained.map Prod.fst := fun hmem => hkey ((hsublist.map Prod.fst).subset hmem)
    have hplace : [key] ∈ places := hgone key mem_cons_self hout
    rw [withoutFields, withoutField, if_pos hplace, nil_append]
    exact ih hrest fun other hother => hgone other (mem_cons_of_mem _ hother)
  | @cons_cons _ _ _ _ ih =>
    obtain ⟨hkey, hrest⟩ := nodup_cons.mp hnodup
    rw [withoutFields, withoutFields, ih hrest]
    intro key hmem hout
    refine hgone key (mem_cons_of_mem _ hmem) fun hin => ?_
    rcases mem_cons.mp hin with rfl | hin
    · exact hkey hmem
    · exact hout hin

/-- With distinct names, what is read under a name does not depend on the order of members. -/
theorem get_perm (hnodup : (fields.map Prod.fst).Nodup) (hperm : fields.Perm others) (key : String) :
    (Json.object fields).get key = (Json.object others).get key := by
  have hnodup' : (others.map Prod.fst).Nodup := (hperm.map Prod.fst).nodup_iff.mp hnodup
  cases hget : (Json.object fields).get key with
  | none =>
    rw [get_eq_none, (hperm.map Prod.fst).mem_iff] at hget
    exact (get_eq_none.mpr hget).symm
  | some value => exact (get_of_mem hnodup' (hperm.mem_iff.mp (mem_of_get hget))).symm

/-- Members that stay are read as before. -/
theorem get_sublist (hnodup : (fields.map Prod.fst).Nodup) (hsublist : retained.Sublist fields)
    (hget : (Json.object retained).get key = some value) : (Json.object fields).get key = some value :=
  get_of_mem hnodup (hsublist.subset (mem_of_get hget))

theorem withoutFields_names : ((withoutFields fields places).map Prod.fst).Sublist (fields.map Prod.fst) := by
  induction fields with
  | nil => exact List.Sublist.refl _
  | cons field _ ih =>
    obtain ⟨key, _⟩ := field
    rw [withoutFields, withoutField]
    split
    · exact ih.cons key
    · exact ih.cons_cons key

theorem sameFields_names (h : SameFields fields others) : others.map Prod.fst = fields.map Prod.fst := by
  induction fields generalizing others with
  | nil =>
    obtain rfl : others = [] := h
    rfl
  | cons _ _ ih =>
    obtain ⟨_, _, rfl, hfield, hrest⟩ := h
    obtain ⟨_, rfl, -⟩ := sameField_iff.mp hfield
    rw [map_cons, map_cons, ih hrest]

/-! ### Arrays -/

theorem Proper.without (h : value.Proper) (places : Places) : (value.without places).Proper := by
  induction value using Json.induct generalizing places with
  | leaf value => cases value <;> simp_all [Json.without, Json.asArray, members]
  | array items ih =>
    have hitems : ∀ index, ∀ item ∈ withoutItems items places index, item.Proper := by
      have hproper := proper_array.mp h
      clear h
      induction items with
      | nil => intro index item hmem; exact absurd hmem not_mem_nil
      | cons _ _ ihrest =>
        obtain ⟨hitem, hothers⟩ := forall_mem_cons.mp ih
        obtain ⟨hown, hrest⟩ := forall_mem_cons.mp hproper
        intro index
        exact forall_mem_cons.mpr ⟨hitem hown _, ihrest hothers hrest (index + 1)⟩
    exact proper_array.mpr (hitems 0)
  | object fields ih =>
    obtain ⟨hnodup, hchildren⟩ := proper_object.mp h
    refine proper_object.mpr ⟨hnodup.sublist withoutFields_names, fun field hfield => ?_⟩
    rw [withoutFields_eq_flatMap] at hfield
    obtain ⟨⟨_, _⟩, hown, hin⟩ := mem_flatMap.mp hfield
    rw [withoutField] at hin
    split at hin
    · exact absurd hin not_mem_nil
    · obtain rfl := mem_singleton.mp hin
      exact ih _ hown (hchildren _ hown) _

theorem get_withoutFields (h : (Json.object (withoutFields fields places)).get key = some left) :
    ∃ child, (Json.object fields).get key = some child ∧ left = child.without (places.below key) := by
  induction fields with
  | nil => simp [withoutFields] at h
  | cons field rest ih =>
    obtain ⟨name, child⟩ := field
    rw [withoutFields, withoutField] at h
    by_cases hname : name = key
    · subst hname
      split at h
      · next hplace =>
        -- no member under this name is left
        have hgone := mem_of_get h
        rw [nil_append, withoutFields_eq_flatMap] at hgone
        obtain ⟨⟨_, _⟩, -, hin⟩ := mem_flatMap.mp hgone
        rw [withoutField] at hin
        split at hin
        · exact absurd hin not_mem_nil
        · next hstays =>
          obtain ⟨rfl, -⟩ := Prod.mk.inj (mem_singleton.mp hin)
          exact absurd hplace hstays
      · rw [singleton_append, get_cons, if_pos rfl] at h
        exact ⟨child, by rw [get_cons, if_pos rfl], (some.inj h).symm⟩
    · have hrest : (Json.object (withoutFields rest places)).get key = some left := by
        split at h
        · exact h
        · rwa [singleton_append, get_cons, if_neg hname] at h
      obtain ⟨own, hown, hleft⟩ := ih hrest
      exact ⟨own, by rw [get_cons, if_neg hname, hown], hleft⟩

theorem getElem_withoutItems {i : Nat} (h : (withoutItems items places index)[i]? = some left) :
    ∃ item, items[i]? = some item ∧ left = item.without (places.below (toString (index + i))) := by
  induction items generalizing index i with
  | nil => simp [withoutItems] at h
  | cons item _ ih =>
    rw [withoutItems] at h
    cases i with
    | zero => exact ⟨item, rfl, (some.inj h).symm⟩
    | succ i =>
      obtain ⟨own, hown, hleft⟩ := ih h
      exact ⟨own, hown, by rw [hleft, Nat.add_assoc, Nat.add_comm 1 i]⟩

/-- What is left at a place is what was there, without the members below it. -/
theorem pointer_without (h : (value.without places).pointer keys = some left) :
    ∃ own more, value.pointer keys = some own ∧ left = own.without more := by
  induction keys generalizing value places with
  | nil =>
    rw [pointer_nil] at h
    exact ⟨value, places, pointer_nil, (some.inj h).symm⟩
  | cons _ _ ih =>
    cases value with
    | object fields =>
      rw [Json.without, pointer_object, bind_eq_some_iff] at h
      obtain ⟨_, hget, hpointer⟩ := h
      obtain ⟨_, hown, rfl⟩ := get_withoutFields hget
      obtain ⟨last, more, hlast, hleft⟩ := ih hpointer
      exact ⟨last, more, by rw [pointer_object, hown, bind_some, hlast], hleft⟩
    | array items =>
      rw [Json.without, pointer_items, bind_eq_some_iff] at h
      obtain ⟨_, hget, hpointer⟩ := h
      obtain ⟨_, hi, hitem⟩ := bind_eq_some_iff.mp hget
      obtain ⟨_, hown, rfl⟩ := getElem_withoutItems hitem
      obtain ⟨last, more, hlast, hleft⟩ := ih hpointer
      exact ⟨last, more, by rw [pointer_items, hi, bind_some, hown, bind_some, hlast], hleft⟩
    | _ => simp [Json.without, pointer] at h

theorem sameItems_getElem {others : List Json} (h : SameItems items others) {i : Nat}
    (hget : others[i]? = some other) : ∃ item, items[i]? = some item ∧ item.SameAs other := by
  induction items generalizing others i with
  | nil =>
    obtain rfl : others = [] := h
    simp at hget
  | cons item _ ih =>
    obtain ⟨_, _, rfl, hfirst, hrest⟩ := h
    cases i with
    | zero => exact ⟨item, rfl, some.inj hget ▸ hfirst⟩
    | succ i => exact ih hrest hget

theorem SameItems.length_eq {others : List Json} (h : SameItems items others) : others.length = items.length := by
  induction items generalizing others with
  | nil =>
    obtain rfl : others = [] := h
    rfl
  | cons _ _ ih =>
    obtain ⟨_, _, rfl, -, hrest⟩ := h
    rw [length_cons, length_cons, ih hrest]

theorem SameAs.pointer (h : value.SameAs other) (hproper : value.Proper)
    (hleft : other.pointer keys = some left) : ∃ own, value.pointer keys = some own ∧ own.SameAs left := by
  induction keys generalizing value other with
  | nil =>
    rw [pointer_nil] at hleft
    exact ⟨value, pointer_nil, some.inj hleft ▸ h⟩
  | cons _ _ ih =>
    cases value with
    | object fields =>
      obtain ⟨_, _, rfl, hperm, hsame⟩ := h
      rw [pointer_object, bind_eq_some_iff] at hleft
      obtain ⟨_, hget, hpointer⟩ := hleft
      obtain ⟨_, hown, hchild⟩ := hsame.counterpart (hperm.mem_iff.mpr (mem_of_get hget))
      obtain ⟨hnodup, hchildren⟩ := proper_object.mp hproper
      obtain ⟨last, hlast, hsame⟩ := ih hchild (hchildren _ hown) hpointer
      exact ⟨last, by rw [pointer_object, get_of_mem hnodup hown, bind_some, hlast], hsame⟩
    | array items =>
      obtain ⟨_, rfl, hsame⟩ := h
      rw [pointer_items, bind_eq_some_iff] at hleft
      obtain ⟨_, hget, hpointer⟩ := hleft
      obtain ⟨_, hi, hitem⟩ := bind_eq_some_iff.mp hget
      obtain ⟨own, hown, hchild⟩ := sameItems_getElem hsame hitem
      have hin := proper_array.mp hproper own (mem_of_getElem? hown)
      obtain ⟨last, hlast, hsame⟩ := ih hchild hin hpointer
      exact ⟨last, by rw [pointer_items, hi, bind_some, hown, bind_some, hlast], hsame⟩
    | _ =>
      obtain rfl : other = _ := h
      simp [pointer] at hleft

theorem withoutItems_length : (withoutItems items places index).length = items.length := by
  induction items generalizing index with
  | nil => rfl
  | cons _ _ ih => rw [withoutItems, length_cons, length_cons, ih]

theorem array_length (h : (value.without places).SameAs other) (hproper : value.Proper) {others : List Json} (hleft : other.pointer keys = some (.array others)) :
    ∃ items, value.pointer keys = some (.array items) ∧ items.length = others.length := by
  obtain ⟨_, hpointer, hsame⟩ := h.pointer (hproper.without places) hleft
  obtain ⟨own, _, hown, rfl⟩ := pointer_without hpointer
  cases own with
  | array items =>
    obtain ⟨_, heq, hitems⟩ := hsame
    obtain rfl := Json.array.inj heq
    exact ⟨items, hown, by rw [hitems.length_eq, withoutItems_length]⟩
  | object fields =>
    obtain ⟨_, _, heq, -⟩ := hsame
    simp at heq
  | _ => simp [Json.without, SameAs] at hsame

end Json

end GeoMaster
