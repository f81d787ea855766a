import GeoMaster.Proofs.SourceOmissions

/-!
# The projection, function by function

What each function of the projection keeps of its value and which places it declares. The specification of
a function is proved from those of the functions it calls, and the one of a delta by induction on the
levels of batches.
-/

namespace GeoMaster

open Except List Option Pointer

namespace SourceProjection

open Op

/-! ### Values -/

/-- What an operation leaves out below a place. -/
abbrev Leaves {α : Type} (base : List String) (x : Projecting α) (Q : α → Places → Prop) : Prop :=
  Emits ProjectionState.omitted (fun keys => Pointer.render (base ++ keys)) x Q

/-- What is kept of a value, and of the members if it is an object. -/
def Trimmed (value kept : Json) (places : Places) : Prop :=
  Sound value kept places ∧ ∀ fields, value = .object fields →
    ∃ members, kept = .object members ∧ FieldsSound fields members places

variable {base : List String} {depth : Nat} {scope : Scope} {event operation : String} {fields : List (String × Json)} {items : List Json} {key : String} {value : Json}

theorem Leaves.descend {α : Type} {x : Projecting α} {Q : α → Places → Prop} (h : Leaves (base ++ [key]) x Q) :
    Leaves base x fun a places => ∃ inner, places = inner.map (key :: ·) ∧ Q a inner :=
  Emits.descend (fun keys => by rw [append_assoc, singleton_append]) h

theorem bound_keeps : Keeps ProjectionState.omitted (bound depth) := by
  refine .bind (.of_readOnly .failIf) fun _ => ?_
  refine .bind (.modify fun _ => rfl) fun _ => ?_
  exact .bind (.of_readOnly .read) fun _ => .of_readOnly .failIf

theorem leaveOut_leaves {Q : Unit → Places → Prop} (h : Q () [[key]]) :
    Leaves base (leaveOut (push (Pointer.render base) key)) Q :=
  Emits.note (fun s => by rw [push_render]; rfl) h

theorem leaveOutKeys_leaves {keys : List String} :
    Leaves base (leaveOutKeys (Pointer.render base) keys) fun _ places => places = keys.map ([·]) := by
  induction keys with
  | nil => exact .pure rfl
  | cons key _ ih =>
    refine .bind (leaveOut_leaves (Q := fun _ places => places = [[key]]) rfl) fun _ places hplaces => ?_
    refine ih.mono fun _ more hmore => ?_
    rw [hplaces, hmore]
    rfl

/-- Of a reasoning object only the type is kept. -/
theorem think_sound (hnodup : (fields.map Prod.fst).Nodup) (hthink : isThink (.object fields) = true) :
    FieldsSound fields [("type", .string "THINK")] (((fields.map Prod.fst).filter (· ≠ "type")).map ([·])) := by
  have hget : (Json.object fields).get "type" = some (.string "THINK") := by simpa [isThink] using hthink
  have hdropped : Dropped fields [("type", .string "THINK")] (((fields.map Prod.fst).filter (· ≠ "type")).map ([·])) :=
    { kept := singleton_sublist.mpr (Json.mem_of_get hget)
      missing := by
        intro keys hmem
        obtain ⟨key, hkey, rfl⟩ := mem_map.mp hmem
        obtain ⟨hin, hne⟩ := mem_filter.mp hkey
        exact ⟨key, rfl, hin, by simpa using hne⟩
      declared := by
        intro key hkey
        by_cases heq : key = "type"
        · exact .inl (by simp [heq])
        · exact .inr (mem_map.mpr ⟨key, mem_filter.mpr ⟨hkey, by simpa using heq⟩, rfl⟩)
      distinct := nodup_singletons (hnodup.filter _) }
  have hplain : FieldsSound [("type", .string "THINK")] [("type", .string "THINK")] [] := by
    refine .refl fun field hfield => ?_
    obtain rfl := mem_singleton.mp hfield
    exact ⟨by decide, by simp [AllPublic, Json.objects]⟩
  simpa using hdropped.andThen hnodup hplain

variable {places : Places}

/-- An object whose type is another one stays such an object. -/
theorem public_of_not_think {kept : List (String × Json)} (h : FieldsSound fields kept places)
    (hnodup : (fields.map Prod.fst).Nodup) (hthink : isThink (.object fields) = false) : Public kept := by
  refine ⟨fun field hfield => (h.shown field hfield).1, fun hkept => ?_⟩
  have hget : (Json.object kept).get "type" = some (.string "THINK") := by simpa [isThink] using hkept
  have hown := Json.get_of_mem hnodup (h.mem_of_text (Json.mem_of_get hget))
  simp [isThink, hown] at hthink

theorem cleanItems_leaves
    (h : ∀ item ∈ items, item.Proper → ∀ base depth,
      Leaves base (clean item (Pointer.render base) depth) (Trimmed item)) (hproper : ∀ item ∈ items, item.Proper) (index : Nat) :
    Leaves base (cleanItems items (Pointer.render base) index depth) (ItemsSound index items) := by
  induction items generalizing index with
  | nil => exact .pure .nil
  | cons _ _ ih =>
    rw [cleanItems, push_render]
    obtain ⟨hfirst, hothers⟩ := forall_mem_cons.mp h
    obtain ⟨hitem, hrest⟩ := forall_mem_cons.mp hproper
    refine .bind (Leaves.descend (hfirst hitem _ depth)) fun kept places hplaces => ?_
    obtain ⟨_, rfl, hkept, -⟩ := hplaces
    refine .bind (ih hothers hrest (index + 1)) fun others more hmore => ?_
    exact .pure (by simpa using ItemsSound.cons hkept hmore)

theorem cleanFields_leaves
    (h : ∀ field ∈ fields, field.2.Proper → ∀ base depth,
      Leaves base (clean field.2 (Pointer.render base) depth) (Trimmed field.2))
    (hnodup : (fields.map Prod.fst).Nodup) (hproper : ∀ field ∈ fields, field.2.Proper) :
    Leaves base (cleanFields fields (Pointer.render base) depth) (FieldsSound fields) := by
  induction fields with
  | nil => exact .pure (.refl (by simp))
  | cons field _ ih =>
    obtain ⟨key, child⟩ := field
    obtain ⟨hfirst, hothers⟩ := forall_mem_cons.mp h
    obtain ⟨hkey, hdistinct⟩ := nodup_cons.mp hnodup
    obtain ⟨hchild, hrest⟩ := forall_mem_cons.mp hproper
    rw [cleanFields, cleanField]
    cases hprivate : SourceNames.isPrivate key with
    | true =>
      have hfield : Leaves base (do leaveOut (push (Pointer.render base) key); pure ([] : List (String × Json)))
          fun kept places => kept = [] ∧ places = [[key]] :=
        .bind (leaveOut_leaves (Q := fun _ places => places = [[key]]) rfl) fun _ places hplaces =>
          .pure ⟨rfl, by simp [hplaces]⟩
      refine .bind hfield fun kept places hkept => ?_
      obtain ⟨rfl, rfl⟩ := hkept
      refine .bind (ih hothers hdistinct hrest) fun others more hmore => ?_
      have hdropped : FieldsSound [(key, child)] [] [[key]] := .dropped
      exact .pure (by simpa using hdropped.append hmore (by simpa using hkey))
    | false =>
      have hfield : Leaves base
          (do
            failIf (key ∈ prototypeNames) "shape_rejected"
            let kept ← clean child (push (Pointer.render base) key) depth
            pure [(key, kept)])
          fun kept places => ∃ value inner, kept = [(key, value)] ∧ places = inner.map (key :: ·)
            ∧ Sound child value inner := by
        refine .bind_failIf fun _ => ?_
        rw [push_render]
        refine .bind (Leaves.descend (hfirst hchild _ depth)) fun value places hplaces => ?_
        obtain ⟨inner, rfl, hvalue, -⟩ := hplaces
        exact .pure ⟨value, inner, rfl, by simp, hvalue⟩
      refine .bind hfield fun kept places hkept => ?_
      obtain ⟨_, _, rfl, rfl, hvalue⟩ := hkept
      refine .bind (ih hothers hdistinct hrest) fun others more hmore => ?_
      exact .pure (by simpa using (FieldsSound.keep hprivate hvalue).append hmore (by simpa using hkey))

theorem clean_leaves (hproper : value.Proper) (base : List String) (depth : Nat) :
    Leaves base (clean value (Pointer.render base) depth) (Trimmed value) := by
  induction value using Json.induct generalizing base depth with
  | leaf value _ hobject =>
    have hclean : clean value (Pointer.render base) depth = (do bound depth; pure value) := by
      cases value <;> simp_all [Json.asArray, Json.members, clean]
    have hshown : AllPublic value := by cases value <;> simp_all [Json.asArray, Json.members, AllPublic, Json.objects]
    rw [hclean]
    refine .bind_keeps bound_keeps fun _ => .pure ⟨.nil hshown, ?_⟩
    rintro fields rfl
    simp [Json.members] at hobject
  | array items ih =>
    rw [clean]
    refine .bind_keeps bound_keeps fun _ => ?_
    refine .bind (cleanItems_leaves ih (Json.proper_array.mp hproper) 0) fun kept places h => ?_
    exact .pure ⟨by simpa using h.array, by simp⟩
  | object fields ih =>
    obtain ⟨hnodup, hchildren⟩ := Json.proper_object.mp hproper
    rw [clean]
    refine .bind_keeps bound_keeps fun _ => ?_
    have hobject : ∀ {members : List (String × Json)} {places : Places}, FieldsSound fields members places → Public
        members → Trimmed (.object fields) (.object members) places := by
      intro members places h hpublic
      refine ⟨h.object hpublic, fun own heq => ⟨members, rfl, ?_⟩⟩
      rwa [← Json.object.inj heq]
    split
    · next hthink =>
      refine .bind leaveOutKeys_leaves fun _ places hplaces => .pure ?_
      rw [hplaces, append_nil]
      refine hobject (think_sound hnodup hthink) ⟨?_, ?_⟩
      · exact fun field hfield => mem_singleton.mp hfield ▸ (by decide)
      · exact fun _ field hfield => mem_singleton.mp hfield ▸ rfl
    · next hthink =>
      refine .bind (cleanFields_leaves ih hnodup hchildren) fun kept places h => ?_
      have hpublic := public_of_not_think h hnodup (by simpa using hthink)
      exact .pure (by simpa using hobject h hpublic)

/-! ### Fragments and responses -/

theorem retainFields_leaves (hnodup : (fields.map Prod.fst).Nodup) :
    Leaves base (retainFields (Pointer.render base) fields) fun result places => Dropped fields result.1 places := by
  induction fields with
  | nil => exact .pure .refl
  | cons field rest ih =>
    obtain ⟨key, child⟩ := field
    obtain ⟨hkey, hrest⟩ := nodup_cons.mp hnodup
    rw [retainFields]
    split
    · refine .bind (leaveOut_leaves (Q := fun _ places => places = [[key]]) rfl) fun _ places hplaces => ?_
      refine .bind (ih hrest) fun others more hmore => .pure ?_
      have hleft : Dropped ((key, child) :: rest) others.1 ([key] :: more) := hmore.leave hkey
      simpa [hplaces] using hleft
    · refine .bind (ih hrest) fun others more hmore => .pure ?_
      rw [append_nil]
      exact hmore.stay hkey

theorem retainKnown_leaves {known : List String} (hnodup : (fields.map Prod.fst).Nodup) :
    Leaves base (retainKnown known (Pointer.render base) fields) fun retained places =>
      Dropped fields retained places
        ∧ ∀ key ∈ retained.map Prod.fst, key ∈ known ∨ SourceNames.isPrivate key = true := by
  induction fields with
  | nil => exact .pure ⟨.refl, by simp⟩
  | cons field rest ih =>
    obtain ⟨key, child⟩ := field
    obtain ⟨hkey, hrest⟩ := nodup_cons.mp hnodup
    rw [retainKnown]
    split
    · next hknown =>
      refine .bind (ih hrest) fun others more hmore => .pure ?_
      rw [append_nil]
      exact ⟨hmore.1.stay hkey, forall_mem_cons.mpr ⟨hknown, hmore.2⟩⟩
    · refine .bind (leaveOut_leaves (Q := fun _ places => places = [[key]]) rfl) fun _ places hplaces => ?_
      refine (ih hrest).mono fun others more hmore => ?_
      have hleft : Dropped ((key, child) :: rest) others ([key] :: more) := hmore.1.leave hkey
      exact ⟨by simpa [hplaces] using hleft, hmore.2⟩

/-- The members of an object that are left after some were left out. -/
theorem clean_dropped {retained : List (String × Json)} (hproper : (Json.object fields).Proper)
    (hdropped : Dropped fields retained places) :
    Leaves base (clean (.object retained) (Pointer.render base) depth) fun kept more =>
      ∃ members, kept = .object members ∧ FieldsSound fields members (places ++ more) ∧ Public members := by
  refine (clean_leaves (hdropped.proper hproper) base depth).mono fun kept more htrimmed => ?_
  obtain ⟨members, rfl, hmembers⟩ := htrimmed.2 retained rfl
  have hpublic := htrimmed.1.shown members (Json.mem_objects_object.mpr (.inl rfl))
  exact ⟨members, rfl, hdropped.andThen (Json.proper_object.mp hproper).1 hmembers, hpublic⟩

theorem members_eq_some (h : value.members = some fields) : value = .object fields := by
  cases value <;> simp_all [Json.members]

theorem asArray_eq_some (h : value.asArray = some items) : value = .array items := by
  cases value <;> simp_all [Json.asArray]

theorem fragment_leaves (hproper : value.Proper) :
    Leaves base (fragment value (Pointer.render base) depth) fun result places => Sound value result.1 places := by
  rw [fragment]
  refine .bind_keeps bound_keeps fun _ => .bind_okOr fun fields hfields => ?_
  obtain rfl := members_eq_some hfields
  obtain ⟨hnodup, -⟩ := Json.proper_object.mp hproper
  cases fragmentType fields with
  | none =>
    refine .bind leaveOutKeys_leaves fun _ places hplaces => .pure ?_
    have hdropped : Dropped fields [] (fields.map fun field => [field.1]) :=
      { kept := nil_sublist _
        missing := by
          intro keys hmem
          obtain ⟨field, hfield, rfl⟩ := mem_map.mp hmem
          exact ⟨field.1, rfl, mem_map.mpr ⟨field, hfield, rfl⟩, not_mem_nil⟩
        declared := by
          intro key hkey
          obtain ⟨field, hfield, rfl⟩ := mem_map.mp hkey
          exact .inr (mem_map.mpr ⟨field, hfield, rfl⟩)
        distinct := by simpa [Function.comp_def] using nodup_singletons hnodup }
    have hsound := (hdropped.andThen hnodup (.refl (by simp))).object
      ⟨by simp, fun hthink => by simp [isThink] at hthink⟩
    rw [hplaces, List.map_map]
    simpa [Function.comp_def] using hsound
  | some type =>
    have hretained : Leaves base
        (if type = "THINK" then pure (fields, []) else retainFields (Pointer.render base) fields)
        fun result places => Dropped fields result.1 places := by
      split
      · exact .pure .refl
      · exact retainFields_leaves hnodup
    refine .bind hretained fun retained places hdropped => ?_
    refine .bind (clean_dropped hproper hdropped) fun kept more hkept => .pure ?_
    obtain ⟨_, rfl, hmembers, hpublic⟩ := hkept
    simpa using hmembers.object hpublic

theorem fragmentItems_leaves (hproper : ∀ item ∈ items, item.Proper) (index : Nat) :
    Leaves base (fragmentItems (Pointer.render base) depth items index)
      fun result places => ItemsSound index items (result.map Prod.fst) places := by
  induction items generalizing index with
  | nil => exact .pure .nil
  | cons _ _ ih =>
    obtain ⟨hitem, hrest⟩ := forall_mem_cons.mp hproper
    rw [fragmentItems, push_render]
    refine .bind (Leaves.descend (fragment_leaves hitem)) fun first places hplaces => ?_
    obtain ⟨_, rfl, hfirst⟩ := hplaces
    refine .bind (ih hrest (index + 1)) fun others more hmore => .pure ?_
    simpa using ItemsSound.cons hfirst hmore

theorem fragments_leaves (hproper : value.Proper) :
    Leaves base (fragments value (Pointer.render base) depth) fun result places => Sound value result.1 places := by
  rw [fragments]
  refine .bind_okOr fun items hitems => ?_
  obtain rfl := asArray_eq_some (filter_eq_some_iff.mp hitems).1
  have hchildren : ∀ item ∈ items, item.Proper := Json.proper_array.mp hproper
  refine .bind (fragmentItems_leaves hchildren 0) fun projected places h => .pure ?_
  simpa using h.array

theorem setTypes_keeps {types : Option (List FragmentState)} :
    Keeps ProjectionState.omitted (modify (ProjectionState.setTypes types) : Projecting Unit) :=
  .modify fun _ => rfl

/-- A member before the other ones. -/
theorem perm_filter_ne (hnodup : (fields.map Prod.fst).Nodup) (hget : (Json.object fields).get key = some value) :
    ([(key, value)] ++ fields.filter fun field => field.1 ≠ key).Perm fields := by
  induction fields with
  | nil => simp at hget
  | cons field rest ih =>
    obtain ⟨hfield, hrest⟩ := nodup_cons.mp hnodup
    rw [Json.get_cons] at hget
    by_cases heq : field.1 = key
    · rw [if_pos heq] at hget
      have hhead : (key, value) = field := Prod.ext heq.symm (some.inj hget).symm
      have hkeep : rest.filter (fun field => field.1 ≠ key) = rest := by
        refine filter_eq_self.mpr fun other hother => ?_
        have hne : other.1 ≠ key := fun h => hfield (heq ▸ h ▸ mem_map.mpr ⟨other, hother, rfl⟩)
        simpa using hne
      rw [filter_cons_of_neg (by simpa using heq), hkeep, hhead]
      exact List.Perm.refl _
    · rw [if_neg heq] at hget
      rw [filter_cons_of_pos (by simpa using heq)]
      exact (perm_middle).trans ((ih hrest hget).cons field)

theorem response_leaves (hproper : value.Proper) :
    Leaves base (response value (Pointer.render base) depth) (Sound value) := by
  rw [response]
  refine .bind_okOr fun fields hfields => ?_
  obtain rfl := members_eq_some hfields
  obtain ⟨hnodup, -⟩ := Json.proper_object.mp hproper
  refine .bind (retainKnown_leaves hnodup) fun retained places h => ?_
  obtain ⟨hdropped, hknown⟩ := h
  refine .bind_keeps setTypes_keeps fun _ => ?_
  split
  · refine (clean_dropped hproper hdropped).mono fun kept more hkept => ?_
    obtain ⟨_, rfl, hmembers, hpublic⟩ := hkept
    exact hmembers.object hpublic
  · next listed hlisted =>
    have hretained := hdropped.proper hproper
    have hdistinct := (Json.proper_object.mp hretained).1
    rw [push_render]
    refine .bind (Leaves.descend (fragments_leaves (hretained.get hlisted))) fun result more hmore => ?_
    obtain ⟨inner, rfl, hresult⟩ := hmore
    refine .bind_keeps setTypes_keeps fun _ => ?_
    refine .bind (clean_leaves hretained.filter base depth) fun kept others htrimmed => .pure ?_
    obtain ⟨members, rfl, hmembers⟩ := htrimmed.2 _ rfl
    -- the fragments are gone through first, and put behind the other members
    have hperm := perm_filter_ne hdistinct hlisted
    have hfragments : FieldsSound [("fragments", listed)] [("fragments", result.1)]
        (inner.map ("fragments" :: ·)) := .keep (by decide) hresult
    have happended := hfragments.append hmembers (by simp)
    have hall := happended.perm ((hperm.map Prod.fst).nodup_iff.mpr hdistinct) hperm perm_append_comm
    have htype : "type" ∉ (members ++ [("fragments", result.1)]).map Prod.fst := by
      intro hmem
      have hin := hall.names hmem
      rcases hknown _ hin with hin | hin
      · exact absurd hin (by decide)
      · exact absurd hin (by decide)
    simpa [withFragments] using (hdropped.andThen hnodup hall).object (hall.public htype)

/-! ### Deltas -/

/-- What is left of the value of a delta: something below the place, or nothing there. -/
def LeafSound (key : String) (value : Json) (kept : Option Json) (places : Places) : Prop :=
  match kept with
  | some left => ∃ inner, places = inner.map (key :: ·) ∧ Sound value left inner
  | none => places = [[key]]

theorem fragmentsLeaf_leaves (hproper : value.Proper) :
    Leaves base (fragmentsLeaf value operation (Pointer.render base) depth) (Sound value) := by
  rw [fragmentsLeaf]
  refine .bind (fragments_leaves hproper) fun result places hresult => ?_
  refine .bind_keeps (.of_readOnly .read) fun types => ?_
  have hnext : Keeps ProjectionState.omitted
      (if operation = "SET" then pure result.2
        else do
          let types ← okOr types "shape_rejected"
          pure (types ++ result.2) : Projecting (List FragmentState)) := by
    split
    · exact .of_readOnly .pure
    · exact .bind (.of_readOnly .okOr) fun _ => .of_readOnly .pure
  refine .bind_keeps hnext fun next => .bind_keeps setTypes_keeps fun _ => .bind_failIf fun _ => .pure ?_
  simpa using hresult

theorem fragmentLeaf_leaves (hproper : value.Proper) :
    Leaves base (fragmentLeaf types number value operation (Pointer.render base) depth) (Sound value) := by
  rw [fragmentLeaf]
  split
  · refine .bind (fragments_leaves hproper) fun result places hresult => ?_
    refine .bind_keeps setTypes_keeps fun _ => .bind_failIf fun _ => .pure ?_
    simpa using hresult
  · refine .bind_okOr fun index _ => ?_
    refine .bind (fragment_leaves hproper) fun result places hresult => ?_
    refine .bind_keeps setTypes_keeps fun _ => .pure ?_
    simpa using hresult

theorem fieldLeaf_leaves (hproper : value.Proper) :
    Leaves base (fieldLeaf types index state field value operation (Pointer.render base) depth) (Sound value) := by
  rw [fieldLeaf]
  refine .bind_okOr fun shape _ => .bind_failIf fun _ => ?_
  refine .bind (clean_leaves hproper base depth) fun kept places hkept => ?_
  refine .bind_keeps setTypes_keeps fun _ => .pure ?_
  simpa using hkept.1

theorem kept_leaves {x : Projecting Json} (h : Leaves (base ++ [key]) x (Sound value)) :
    Leaves base (do let kept ← x; pure (some kept)) (LeafSound key value) := by
  refine .bind h.descend fun kept places hplaces => .pure ?_
  obtain ⟨inner, rfl, hkept⟩ := hplaces
  exact ⟨inner, by simp, hkept⟩

/-- Nothing is kept at a place. -/
theorem gone_leaves :
    Leaves base (do leaveOut (push (Pointer.render base) key); pure (none : Option Json)) (LeafSound key value) := by
  refine .bind (leaveOut_leaves (Q := fun _ places => places = [[key]]) rfl) fun _ places hplaces => .pure ?_
  rw [hplaces, append_nil]
  rfl

theorem clean_sound (hproper : value.Proper) : Leaves base (clean value (Pointer.render base) depth) (Sound value) :=
  (clean_leaves hproper base depth).mono fun _ _ h => h.1

theorem fields_eq_singleton (hnodup : (fields.map Prod.fst).Nodup) (hget : (Json.object fields).get key = some value)
    (hnames : ∀ field ∈ fields, field.1 = key) : fields = [(key, value)] := by
  cases fields with
  | nil => simp at hget
  | cons field rest =>
    have hrest : rest = [] := by
      refine eq_nil_iff_forall_not_mem.mpr fun other hother => (nodup_cons.mp hnodup).1 ?_
      have hsame := (hnames other (mem_cons_of_mem _ hother)).trans (hnames field mem_cons_self).symm
      exact mem_map.mpr ⟨other, hother, hsame⟩
    subst hrest
    rw [Json.get_cons, if_pos (hnames field mem_cons_self)] at hget
    exact congrArg (fun f => [f]) (Prod.ext (hnames field mem_cons_self) (some.inj hget))

theorem leaf_leaves (hproper : value.Proper) :
    Leaves base (leaf value path operation (Pointer.push (Pointer.render base) key) depth) (LeafSound key value) := by
  rw [leaf]
  refine .bind_keeps (.of_readOnly .read) fun types => .bind_failIf fun _ => ?_
  split
  · exact gone_leaves
  · rw [Pointer.push_render]
    split
    · refine .bind_failIf fun _ => .bind_okOr fun fields hfields => .bind_okOr fun child hchild => ?_
      obtain ⟨hmembers, hnames⟩ := filter_eq_some_iff.mp hfields
      obtain rfl := members_eq_some hmembers
      obtain rfl := fields_eq_singleton (Json.proper_object.mp hproper).1 hchild
        fun field hfield => by simpa using all_eq_true.mp hnames field hfield
      rw [Pointer.push_render]
      refine .bind (response_leaves (hproper.get hchild)).descend.descend fun kept places hplaces => .pure ?_
      obtain ⟨_, rfl, inner, rfl, hkept⟩ := hplaces
      have hfield : FieldsSound [("response", child)] [("response", kept)]
          (inner.map ("response" :: ·)) := .keep (by decide) hkept
      exact ⟨inner.map ("response" :: ·), by simp, hfield.object (hfield.public (by simp))⟩
    · refine .bind_failIf fun _ => ?_
      split
      · refine .bind_failIf fun _ => ?_
        exact kept_leaves (response_leaves hproper)
      · refine .bind_failIf fun _ => ?_
        split
        · refine .bind_failIf fun _ => .bind_failIf fun _ => ?_
          exact kept_leaves (clean_sound hproper)
        · split
          · exact kept_leaves (fragmentsLeaf_leaves hproper)
          · refine .bind_okOr fun types _ => .bind_okOr fun number _ => ?_
            split
            · exact kept_leaves (fragmentLeaf_leaves hproper)
            · refine .bind_okOr fun index _ => .bind_okOr fun state _ => .bind_failIf fun _ => ?_
              split
              · rw [← Pointer.push_render]
                exact gone_leaves
              · exact kept_leaves (fieldLeaf_leaves hproper)
            · exact .throw

theorem inherited_public {value : Option Json} {fallback text : String} (h : inherited value fallback = some text)
    {own : Json} (hvalue : value = some own) : AllPublic own := by
  subst hvalue
  cases own <;> simp_all [inherited, AllPublic, Json.objects]

/-- What is read of a delta: beside its value it has only a path and an operation, which are texts. -/
theorem readDelta_leaves (hnodup : (fields.map Prod.fst).Nodup) :
    Leaves base (readDelta fields scope) fun said places => places = [] ∧ (Json.object fields).get "v" = some said.2
      ∧ PlainBeside "v" fields ∧ "type" ∉ fields.map Prod.fst := by
  rw [readDelta]
  refine .bind_failIf fun hnames => .bind_okOr fun value hvalue => .bind_okOr fun path hpath => ?_
  have hin : ∀ field ∈ fields, field.1 ∈ ["p", "o", "v"] := by
    intro field hfield
    by_contra hout
    exact hnames (any_eq_true.mpr ⟨field, hfield, by simpa using hout⟩)
  have htype : "type" ∉ fields.map Prod.fst := by
    intro hmem
    obtain ⟨field, hfield, heq⟩ := mem_map.mp hmem
    exact absurd (heq ▸ hin field hfield) (by decide)
  refine .bind_okOr fun operation hoperation => .pure ⟨rfl, hvalue, fun field hfield hne => ?_, htype⟩
  have hname := hin field hfield
  have hget : (Json.object fields).get field.1 = some field.2 := Json.get_of_mem hnodup hfield
  rcases mem_cons.mp hname with hp | hname
  · exact ⟨by rw [hp]; decide, inherited_public (filter_eq_some_iff.mp hpath).1 (hp ▸ hget)⟩
  · rcases mem_cons.mp hname with ho | hv
    · exact ⟨by rw [ho]; decide, inherited_public (filter_eq_some_iff.mp hoperation).1 (ho ▸ hget)⟩
    · exact absurd (mem_singleton.mp hv) hne

/-- The members of a delta after its value was gone through. -/
theorem replaceMember_leaf {kept : Option Json} (hnodup : (fields.map Prod.fst).Nodup)
    (hothers : PlainBeside key fields) (hkey : SourceNames.isPrivate key = false)
    (hget : (Json.object fields).get key = some value) (h : LeafSound key value kept places) :
    FieldsSound fields (replaceMember fields key kept) places := by
  cases kept with
  | none =>
    obtain rfl : places = [[key]] := h
    have hdropped := replaceMember_none hnodup (mem_map.mpr ⟨_, Json.mem_of_get hget, rfl⟩)
    have hrest : FieldsSound (replaceMember fields key none) (replaceMember fields key none) [] := by
      refine .refl fun field hfield => hothers field (hdropped.kept.subset hfield) ?_
      rintro rfl
      obtain ⟨_, heq, -, hout⟩ := hdropped.missing [field.1] mem_cons_self
      exact hout (singleton_inj.mp heq ▸ mem_map.mpr ⟨field, hfield, rfl⟩)
    simpa using hdropped.andThen hnodup hrest
  | some left =>
    obtain ⟨_, rfl, hvalue⟩ := h
    exact replaceMember_some hnodup hothers hkey hget hvalue

theorem deltaItems_leaves {one : Json → Scope → String → Projecting (Json × Scope)}
    (h : ∀ (item : Json) (scope : Scope) (base : List String), item.Proper →
      Leaves base (one item scope (Pointer.render base)) fun result places => Sound item result.1 places)
    (hproper : ∀ item ∈ items, item.Proper) (index : Nat) (scope : Scope) (base : List String) :
    Leaves base (deltaItems one (Pointer.render base) items index scope) (ItemsSound index items) := by
  induction items generalizing index scope with
  | nil => exact .pure .nil
  | cons item _ ih =>
    obtain ⟨hitem, hrest⟩ := forall_mem_cons.mp hproper
    rw [deltaItems, push_render]
    refine .bind (Leaves.descend (h item scope _ hitem)) fun first places hplaces => ?_
    obtain ⟨_, rfl, hfirst⟩ := hplaces
    refine .bind (ih hrest (index + 1) first.2) fun others more hmore => .pure ?_
    simpa using ItemsSound.cons hfirst hmore

/-- What is left of a delta: the induction is on the levels of batches. -/
theorem delta_leaves (levels : Nat) {data : Json} (hproper : data.Proper) (scope : Scope)
    (above : String) (base : List String) :
    Leaves base (delta levels (some data) scope above (Pointer.render base))
      fun result places => Sound data result.1 places := by
  induction levels generalizing data scope above base with
  | zero =>
    rw [delta]
    exact .throw
  | succ levels ih =>
    rw [delta]
    refine .bind_keeps bound_keeps fun _ => .bind_okOr fun fields hfields => ?_
    rw [bind_some] at hfields
    obtain rfl := members_eq_some hfields
    obtain ⟨hnodup, -⟩ := Json.proper_object.mp hproper
    refine .bind (readDelta_leaves hnodup) fun said places hsaid => ?_
    obtain ⟨rfl, hv, hothers, htype⟩ := hsaid
    have hkept : ∀ {kept places}, LeafSound "v" said.2 kept places →
        Sound (.object fields) (.object (replaceMember fields "v" kept)) places := by
      intro kept places h
      have hfields := replaceMember_leaf hnodup hothers (by decide) hv h
      exact hfields.object (hfields.public fun hmem => htype (hfields.names hmem))
    split
    · refine .bind_okOr fun items hitems => ?_
      rw [push_render]
      have hbatch := deltaItems_leaves (fun item scope base hitem =>
          ih hitem scope (absolutePath above said.1.path) base)
        ((hproper.get hv).items hitems) 0 Scope.initial
      refine .bind (hbatch _).descend fun kept places hplaces => .pure ?_
      obtain ⟨inner, rfl, hitemsSound⟩ := hplaces
      have hleaf : LeafSound "v" said.2 (some (.array kept)) (inner.map ("v" :: ·)) :=
        ⟨inner, rfl, asArray_eq_some hitems ▸ hitemsSound.array⟩
      simpa using hkept hleaf
    · refine .bind (leaf_leaves (hproper.get hv)) fun kept places hplaces => .pure ?_
      simpa using hkept hplaces

/-! ### Messages -/

/-- The members of a message: of the event only the name is kept beside the data. -/
structure Envelope (fields : List (String × Json)) : Prop where
  proper : (Json.object fields).Proper
  named : ∀ field ∈ fields, field.1 ∈ ["event", "data", "raw_data", "id"]
  event : ∀ field ∈ fields, field.1 = "event" → AllPublic field.2

namespace Envelope

variable {fields retained : List (String × Json)}

theorem nodup (h : Envelope fields) : (fields.map Prod.fst).Nodup :=
  (Json.proper_object.mp h.proper).1

theorem dropped {places : Places} (h : Envelope fields) (hdropped : Dropped fields retained places) :
    Envelope retained where
  proper := hdropped.proper h.proper
  named field hfield := h.named field (hdropped.kept.subset hfield)
  event field hfield := h.event field (hdropped.kept.subset hfield)

/-- Without an identifier and raw data, all members but the data are kept as they are. -/
theorem others (h : Envelope fields) (hid : "id" ∉ fields.map Prod.fst)
    (hraw : "raw_data" ∉ fields.map Prod.fst) : PlainBeside "data" fields := by
  intro field hfield hne
  have hname := h.named field hfield
  have hin : field.1 ∈ fields.map Prod.fst := mem_map.mpr ⟨field, hfield, rfl⟩
  have hevent : field.1 = "event" := by
    simp only [mem_cons, not_mem_nil, or_false] at hname
    rcases hname with hname | hname | hname | hname
    · exact hname
    · exact absurd hname hne
    · exact absurd (hname ▸ hin) hraw
    · exact absurd (hname ▸ hin) hid
  exact ⟨by rw [hevent]; decide, h.event field hfield hevent⟩

theorem no_type (h : Envelope fields) : "type" ∉ fields.map Prod.fst := by
  intro hmem
  obtain ⟨field, hfield, heq⟩ := mem_map.mp hmem
  exact absurd (heq ▸ h.named field hfield) (by decide)

end Envelope

theorem dropMember_leaves (hnodup : (fields.map Prod.fst).Nodup) (hget : (Json.object fields).get key = some value) :
    Leaves base (do leaveOut (push (Pointer.render base) key); pure (replaceMember fields key none))
      fun result places => Dropped fields result places ∧ key ∉ result.map Prod.fst ∧ places = [[key]] := by
  refine .bind (leaveOut_leaves (Q := fun _ places => places = [[key]]) rfl) fun _ places hplaces => .pure ?_
  have hdropped := replaceMember_none hnodup (mem_map.mpr ⟨_, Json.mem_of_get hget, rfl⟩)
  rw [hplaces, append_nil]
  refine ⟨hdropped, fun hmem => ?_, rfl⟩
  obtain ⟨_, heq, -, hout⟩ := hdropped.missing [key] mem_cons_self
  exact hout (singleton_inj.mp heq ▸ hmem)

theorem dropId_leaves (hnodup : (fields.map Prod.fst).Nodup) :
    Leaves base (dropId fields (Pointer.render base)) fun result places => Dropped fields result places
      ∧ "id" ∉ result.map Prod.fst ∧ ∀ keys ∈ places, keys = ["id"] := by
  rw [dropId]
  split
  · next hid => exact .pure ⟨.refl, Json.get_eq_none.mp hid, by simp⟩
  · next id hid =>
    refine .bind_failIf fun _ => (dropMember_leaves hnodup hid).mono fun result places h => ?_
    exact ⟨h.1, h.2.1, by simp [h.2.2]⟩

theorem dropRawData_leaves (hnodup : (fields.map Prod.fst).Nodup) :
    Leaves base (dropRawData fields event (Pointer.render base))
      fun result places => Dropped fields result places ∧ "raw_data" ∉ result.map Prod.fst
        ∧ ("raw_data" ∈ fields.map Prod.fst → ["raw_data"] ∈ places) := by
  rw [dropRawData]
  split
  · next hraw =>
    have hout := Json.get_eq_none.mp hraw
    exact .pure ⟨.refl, hout, fun hin => absurd hin hout⟩
  · next raw hraw =>
    refine .bind_failIf fun _ => (dropMember_leaves hnodup hraw).mono fun result places h => ?_
    exact ⟨h.1, h.2.1, fun _ => by simp [h.2.2]⟩

theorem delta_none_leaves {levels : Nat} {above place : String} {Q : Json × Scope → Places → Prop} :
    Leaves base (delta levels none scope above place) Q := by
  cases levels with
  | zero =>
    rw [delta]
    exact .throw
  | succ levels =>
    rw [delta]
    exact .bind_keeps bound_keeps fun _ => .bind_okOr fun fields hfields => by simp at hfields

theorem auxiliaryMessage_leaves (henvelope : Envelope fields) (hid : "id" ∉ fields.map Prod.fst) :
    Leaves base (auxiliaryMessage fields (Pointer.render base)) fun result places =>
      FieldsSound fields result places ∧ "raw_data" ∉ fields.map Prod.fst := by
  rw [auxiliaryMessage]
  refine .bind_failIf fun hshape => ?_
  obtain ⟨data, hdata⟩ : ∃ data, (Json.object fields).get "data" = some data := by
    cases hget : (Json.object fields).get "data" with
    | none => exact absurd (.inl (by rw [hget]; rfl)) hshape
    | some data => exact ⟨data, rfl⟩
  have hraw : "raw_data" ∉ fields.map Prod.fst := by
    rw [← Json.get_eq_none]
    cases hget : (Json.object fields).get "raw_data" with
    | none => rfl
    | some raw => exact absurd (.inr (by rw [hget]; rfl)) hshape
  refine (dropMember_leaves henvelope.nodup hdata).mono fun result places h => ?_
  obtain ⟨hdropped, hgone, -⟩ := h
  have hrest : FieldsSound result result [] := by
    refine .refl fun field hfield => ?_
    refine henvelope.others hid hraw field (hdropped.kept.subset hfield) fun heq => hgone ?_
    exact mem_map.mpr ⟨field, hfield, heq⟩
  exact ⟨by simpa using hdropped.andThen henvelope.nodup hrest, hraw⟩

theorem deltaMessage_leaves (henvelope : Envelope fields) (hid : "id" ∉ fields.map Prod.fst) :
    Leaves base (deltaMessage fields scope (Pointer.render base)) fun result places =>
      FieldsSound fields result.1 places ∧ "raw_data" ∉ fields.map Prod.fst := by
  rw [deltaMessage, push_render]
  refine .bind_failIf fun hshape => ?_
  have hraw : "raw_data" ∉ fields.map Prod.fst := by
    rw [← Json.get_eq_none]
    cases hget : (Json.object fields).get "raw_data" with
    | none => rfl
    | some raw => exact absurd (by rw [hget]; rfl) hshape
  cases hdata : (Json.object fields).get "data" with
  | none => exact .bind delta_none_leaves (Q := fun _ _ => False) fun _ _ h => h.elim
  | some data =>
    have hdelta := delta_leaves 33 (henvelope.proper.get hdata) scope "" (base ++ ["data"])
    refine .bind hdelta.descend fun projected places hplaces => .pure ?_
    obtain ⟨_, rfl, hprojected⟩ := hplaces
    have hsound := replaceMember_some henvelope.nodup (henvelope.others hid hraw) (by decide) hdata hprojected
    exact ⟨by simpa using hsound, hraw⟩

theorem namedMessage_leaves (henvelope : Envelope fields) (hid : "id" ∉ fields.map Prod.fst) :
    Leaves base (namedMessage fields event (Pointer.render base)) fun result places =>
      FieldsSound fields result places ∧ ("raw_data" ∈ fields.map Prod.fst → ["raw_data"] ∈ places) := by
  rw [namedMessage]
  refine .bind_okOr fun known _ => ?_
  refine .bind (dropRawData_leaves henvelope.nodup) fun retained places h => ?_
  obtain ⟨hdropped, hraw, hdeclared⟩ := h
  have hrest := henvelope.dropped hdropped
  have hothers := hrest.others (fun hmem => hid (hdropped.names.subset hmem)) hraw
  have hkeep : ∀ {kept more}, FieldsSound retained kept more →
      FieldsSound fields kept (places ++ more)
        ∧ ("raw_data" ∈ fields.map Prod.fst → ["raw_data"] ∈ places ++ more) := fun hkept =>
    ⟨hdropped.andThen henvelope.nodup hkept, fun hmem => mem_append_left _ (hdeclared hmem)⟩
  split
  · next hdata =>
    refine .bind_failIf fun _ => .pure (hkeep (.refl fun field hfield => hothers field hfield ?_))
    exact fun heq => Json.get_eq_none.mp hdata (mem_map.mpr ⟨field, hfield, heq⟩)
  · next data hdata =>
    refine .bind_okOr fun members hmembers => ?_
    obtain rfl := members_eq_some hmembers
    have hobject := hrest.proper.get hdata
    have hnodup := (Json.proper_object.mp hobject).1
    rw [push_render]
    refine .bind (retainKnown_leaves hnodup).descend fun known places hknown => ?_
    obtain ⟨_, rfl, hknown, -⟩ := hknown
    refine .bind (clean_dropped hobject hknown).descend fun kept more hkept => .pure ?_
    obtain ⟨_, rfl, _, rfl, hsound, hpublic⟩ := hkept
    have hresult := replaceMember_some hrest.nodup hothers (by decide) hdata (hsound.object hpublic)
    simpa using hkeep hresult

/-- What is left of a message, and whether raw data was left out of it. -/
def MessageSound (message kept : Json) (places : Places) : Prop :=
  Sound message kept places ∧ (["raw_data"] ∈ places ↔ (message.get "raw_data").isSome = true)

theorem isSome_get : ((Json.object fields).get key).isSome = true ↔ key ∈ fields.map Prod.fst := by
  rw [← not_iff_not, ← Json.get_eq_none, not_isSome_iff_eq_none]

theorem projectMessage_leaves {message : Json} (hproper : message.Proper) :
    Leaves base (projectMessage message scope (Pointer.render base))
      fun result places => MessageSound message result.1 places := by
  rw [projectMessage]
  refine .bind_okOr fun fields hfields => .bind_okOr fun event hevent => ?_
  obtain ⟨hmembers, hnames⟩ := filter_eq_some_iff.mp hfields
  obtain rfl := members_eq_some hmembers
  have henvelope : Envelope fields :=
    { proper := hproper
      named := fun field hfield => by simpa using all_eq_true.mp hnames field hfield
      event := fun field hfield heq => inherited_public hevent
        (heq ▸ Json.get_of_mem (Json.proper_object.mp hproper).1 hfield) }
  refine .bind (dropId_leaves henvelope.nodup) fun retained places h => ?_
  obtain ⟨hdropped, hid, hplaces⟩ := h
  have hretained := henvelope.dropped hdropped
  have hraw : "raw_data" ∈ fields.map Prod.fst ↔ "raw_data" ∈ retained.map Prod.fst := by
    refine ⟨fun hmem => (hdropped.declared _ hmem).resolve_right fun hplace => ?_,
      fun hmem => hdropped.names.subset hmem⟩
    exact absurd (hplaces _ hplace) (by decide)
  have hsound : ∀ {kept more}, FieldsSound retained kept more →
      ("raw_data" ∈ retained.map Prod.fst → ["raw_data"] ∈ more) →
      MessageSound (.object fields) (.object kept) (places ++ more) := by
    intro kept more hkept hdeclared
    have hfields := hdropped.andThen henvelope.nodup hkept
    refine ⟨hfields.object (hfields.public fun hmem => henvelope.no_type (hfields.names hmem)), ?_⟩
    rw [isSome_get, hraw]
    constructor
    · intro hmem
      rcases mem_append.mp hmem with hmem | hmem
      · exact absurd (hplaces _ hmem) (by decide)
      · obtain ⟨_, hkey, _, heq⟩ := hkept.headed _ hmem
        exact (List.cons.inj heq).1 ▸ hkey
    · exact fun hmem => mem_append_right places (hdeclared hmem)
  split
  · refine .bind (auxiliaryMessage_leaves hretained hid) fun kept more hkept => .pure ?_
    simpa using hsound hkept.1 fun hmem => absurd hmem hkept.2
  · split
    · refine .bind (deltaMessage_leaves hretained hid) fun kept more hkept => .pure ?_
      simpa using hsound hkept.1 fun hmem => absurd hmem hkept.2
    · refine .bind (namedMessage_leaves hretained hid) fun kept more hkept => .pure ?_
      simpa using hsound hkept.1 hkept.2

/-- What is left of the messages from an index on. -/
structure MessagesSound (index : Nat) (messages kept : List Json) (places : Places) : Prop where
  items : ItemsSound index messages kept places
  raw : ∀ i, [toString (index + i), "raw_data"] ∈ places
    ↔ (messages[i]?.bind fun message => message.get "raw_data").isSome = true

theorem MessagesSound.cons {index : Nat} {message item : Json} {messages kept : List Json} {inner places : Places}
    (hitem : MessageSound message item inner) (h : MessagesSound (index + 1) messages kept places) :
    MessagesSound index (message :: messages) (item :: kept) (inner.map (toString index :: ·) ++ places) where
  items := .cons hitem.1 h.items
  raw := by
    intro i
    rw [mem_append]
    cases i with
    | zero =>
      have hothers : [toString (index + 0), "raw_data"] ∉ places := by
        intro hmem
        obtain ⟨_, _, _, heq, -⟩ := h.items.nowhere _ hmem
        have hindex := toString_injective (List.cons.inj heq).1
        omega
      have hinner : [toString (index + 0), "raw_data"] ∈ inner.map (toString index :: ·) ↔ ["raw_data"] ∈ inner := by
        simp
      rw [hinner, hitem.2]
      exact or_iff_left hothers
    | succ i =>
      have hinner : [toString (index + (i + 1)), "raw_data"] ∉ inner.map (toString index :: ·) := by
        intro hmem
        obtain ⟨_, -, heq⟩ := mem_map.mp hmem
        have hindex := toString_injective (List.cons.inj heq).1
        omega
      have hrest := h.raw i
      rw [Nat.add_assoc, Nat.add_comm 1 i] at hrest
      rw [or_iff_right hinner, hrest]
      rfl

theorem projectMessages_leaves {messages : List Json} (hproper : ∀ message ∈ messages, message.Proper) (index : Nat)
    (scope : Scope) : Leaves ["messages"] (projectMessages messages index scope) (MessagesSound index messages) := by
  induction messages generalizing index scope with
  | nil => exact .pure ⟨.nil, by simp⟩
  | cons _ _ ih =>
    obtain ⟨hmessage, hrest⟩ := forall_mem_cons.mp hproper
    have hbase : "/messages" = Pointer.render ["messages"] := by decide
    rw [projectMessages, hbase, push_render]
    refine .bind (Leaves.descend (projectMessage_leaves hmessage)) fun first places hplaces => ?_
    obtain ⟨_, rfl, hfirst⟩ := hplaces
    refine .bind (ih hrest (index + 1) first.2) fun others more hmore => .pure ?_
    simpa using MessagesSound.cons hfirst hmore

/-- The messages of a projection are what is left of the captured ones, and its paths are the pointers of
the places left out. -/
theorem projectDeepseekSource_sound [JsonSize] {exchange : Json} {p : Projection}
    (h : projectDeepseekSource exchange = .ok p) (hproper : exchange.Proper) :
    ∃ messages kept places, exchange.get "messages" = some (.array messages) ∧ messages.length ≤ 10000 ∧ p.exchange.get
      "messages" = some (.array kept) ∧ MessagesSound 0 messages kept places ∧ p.omittedPaths = places.map fun keys =>
      Pointer.render ("messages" :: keys) := by
  simp only [projectDeepseekSource, eq_ok_iff] at h
  obtain ⟨_, hmessages, kept, hkept, rfl⟩ := h
  simp only [admittedMessages, bind_eq_bind, bind_eq_some_iff] at hmessages
  obtain ⟨items, ⟨_, hget, harray⟩, hlimits⟩ := hmessages
  split at hlimits
  · next hlimit =>
    obtain rfl := some.inj hlimits
    obtain rfl := asArray_eq_some harray
    have hrun := (projectMessages_leaves (Json.proper_array.mp (hproper.get hget)) 0
      Scope.initial).emitted _ kept _ (Prod.ext hkept rfl)
    obtain ⟨places, homitted, hsound⟩ := hrun
    exact ⟨items, kept, places, hget, hlimit.1, rfl, hsound, by simpa using homitted⟩
  · exact absurd hlimits (by simp)

end SourceProjection

end GeoMaster
