import GeoMaster.Proofs.ExactProjection

/-!
# Storing a projected exchange

The runner builds the document of a projected exchange, and the server checks it. What the projection
declares always passes both checks of a path, apart from the limits on its length, its characters and the
number of paths. The server's own rules on member names and on depth are not those of the runner, so what
it takes is what has no name that it forbids and is not nested deeper than it allows.
-/

namespace GeoMaster

open Except List Option Nat String Pointer Json Text

/-! ### Names and depth -/

namespace Json

mutual

/-- How deep the values in a value are nested. -/
def height (value : Json) : Nat :=
  match value with
  | .array items => heightOfItems items
  | .object fields => heightOfFields fields
  | _ => 0
termination_by structural value

def heightOfItems (items : List Json) : Nat :=
  match items with
  | [] => 0
  | item :: rest => max (height item + 1) (heightOfItems rest)
termination_by structural items

def heightOfFields (fields : List (String × Json)) : Nat :=
  match fields with
  | [] => 0
  | field :: rest => max (heightOfField field) (heightOfFields rest)
termination_by structural fields

def heightOfField (field : String × Json) : Nat :=
  match field with
  | (_, child) => height child + 1
termination_by structural field

end

end Json

namespace SourceRedaction

open SourceNames

/-- No member of an object in the value has a forbidden name. -/
def NoForbidden (value : Json) : Prop :=
  ∀ fields ∈ value.objects, ∀ field ∈ fields, isForbidden field.1 = false

variable {items messages : List Json} {fields : List (String × Json)} {document : Json}

theorem safeItems_iff {depth : Nat}
    (h : ∀ item ∈ items, ∀ depth, safeJson item depth = true ↔ depth + item.height ≤ 32 ∧ NoForbidden item)
    (hdepth : depth ≤ 33) :
    safeItems items depth = true ↔ depth + Json.heightOfItems items ≤ 33 ∧ ∀ item ∈ items, NoForbidden item := by
  induction items with
  | nil => simp [safeItems, Json.heightOfItems, hdepth]
  | cons _ _ ih =>
    obtain ⟨hitem, hrest⟩ := forall_mem_cons.mp h
    rw [safeItems, Bool.and_eq_true, hitem, ih hrest, Json.heightOfItems, List.forall_mem_cons]
    constructor
    · rintro ⟨⟨hheight, hnames⟩, _, hothers⟩
      exact ⟨by omega, hnames, hothers⟩
    · rintro ⟨_, hnames, hothers⟩
      exact ⟨⟨by omega, hnames⟩, by omega, hothers⟩

theorem safeFields_iff {depth : Nat}
    (h : ∀ field ∈ fields, ∀ depth, safeJson field.2 depth = true ↔ depth + field.2.height ≤ 32 ∧ NoForbidden field.2)
    (hdepth : depth ≤ 33) :
    safeFields fields depth = true
      ↔ depth + Json.heightOfFields fields ≤ 33
        ∧ ∀ field ∈ fields, isForbidden field.1 = false ∧ NoForbidden field.2 := by
  induction fields with
  | nil => simp [safeFields, Json.heightOfFields, hdepth]
  | cons field _ ih =>
    obtain ⟨_, child⟩ := field
    obtain ⟨hfirst, hrest⟩ := forall_mem_cons.mp h
    have hchild : ∀ depth, safeJson child depth = true ↔ depth + child.height ≤ 32 ∧ NoForbidden child := hfirst
    rw [safeFields, Bool.and_eq_true, safeField, Bool.and_eq_true, hchild, ih hrest,
      Json.heightOfFields, Json.heightOfField, List.forall_mem_cons, Bool.not_eq_true']
    constructor
    · rintro ⟨⟨hkey, hheight, hnames⟩, _, hothers⟩
      exact ⟨by omega, ⟨hkey, hnames⟩, hothers⟩
    · rintro ⟨_, ⟨hkey, hnames⟩, hothers⟩
      exact ⟨⟨hkey, by omega, hnames⟩, by omega, hothers⟩

theorem noForbidden_array : NoForbidden (.array items) ↔ ∀ item ∈ items, NoForbidden item := by
  constructor
  · intro h item hitem own hown
    exact h own (Json.mem_objects_array.mpr ⟨item, hitem, hown⟩)
  · intro h own hown
    obtain ⟨item, hitem, hown⟩ := Json.mem_objects_array.mp hown
    exact h item hitem own hown

theorem noForbidden_object :
    NoForbidden (.object fields) ↔ ∀ field ∈ fields, isForbidden field.1 = false ∧ NoForbidden field.2 := by
  constructor
  · intro h field hfield
    refine ⟨h fields (Json.mem_objects_object.mpr (.inl rfl)) field hfield, fun own hown => ?_⟩
    exact h own (Json.mem_objects_object.mpr (.inr ⟨field, hfield, hown⟩))
  · intro h own hown
    rcases Json.mem_objects_object.mp hown with rfl | ⟨field, hfield, hown⟩
    · exact fun field hfield => (h field hfield).1
    · exact (h field hfield).2 own hown

/-- A value is safe if its depth and its member names are allowed. -/
theorem safeJson_iff (value : Json) (depth : Nat) :
    safeJson value depth = true ↔ depth + value.height ≤ 32 ∧ NoForbidden value := by
  induction value using Json.induct generalizing depth with
  | leaf value =>
    cases value <;> simp_all [safeJson, NoForbidden, Json.height, Json.objects, Json.asArray, Json.members]
  | array items ih =>
    rw [safeJson, Bool.and_eq_true, decide_eq_true_iff, Json.height, noForbidden_array]
    by_cases hdepth : depth ≤ 32
    · have hlimit : depth + 1 + Json.heightOfItems items ≤ 33 ↔ depth + Json.heightOfItems items ≤ 32 := by omega
      rw [safeItems_iff ih (by omega), hlimit, and_iff_right hdepth]
    · exact ⟨fun h => absurd h.1 hdepth, fun h => absurd (by omega) hdepth⟩
  | object fields ih =>
    rw [safeJson, Bool.and_eq_true, decide_eq_true_iff, Json.height, noForbidden_object]
    by_cases hdepth : depth ≤ 32
    · have hlimit : depth + 1 + Json.heightOfFields fields ≤ 33 ↔ depth + Json.heightOfFields fields ≤ 32 := by omega
      rw [safeFields_iff ih (by omega), hlimit, and_iff_right hdepth]
    · exact ⟨fun h => absurd h.1 hdepth, fun h => absurd (by omega) hdepth⟩

/-! ### Pointers into the messages -/

/-- A path that is short and has no control characters. -/
def IsShort (path : String) : Prop :=
  len path ≤ 2048 ∧ ∀ c ∈ path.toList, isControl c = false

theorem short_iff {path : String} : (decide (len path ≤ 2048) && !path.toList.any isControl) = true ↔ IsShort path := by
  simp [IsShort]

theorem index_digits (n : Nat) : ∀ c ∈ (toString n).toList, isAsciiDigit c = true := by
  have hcanonical := isCanonicalIndex_toString n
  rw [isCanonicalIndex, Bool.and_eq_true, Bool.and_eq_true] at hcanonical
  exact all_eq_true.mp hcanonical.1.1

theorem escape_index (n : Nat) : escape (toString n).toList = (toString n).toList := by
  have hplain : ∀ chars : List Char, (∀ c ∈ chars, isAsciiDigit c = true) → escape chars = chars := by
    intro chars h
    induction chars with
    | nil => rfl
    | cons c _ ih =>
      obtain ⟨hc, hrest⟩ := forall_mem_cons.mp h
      have htilde : c ≠ '~' := by rintro rfl; exact absurd hc (by decide)
      have hslash : c ≠ '/' := by rintro rfl; exact absurd hc (by decide)
      rw [escape, flatMap_cons, if_neg htilde, if_neg hslash, ← escape, ih hrest]
      rfl
  exact hplain _ (index_digits n)

theorem render_message (n : Nat) (keys : List String) :
    (Pointer.render ("messages" :: toString n :: keys)).toList
      = "/messages/".toList ++ ((toString n).toList ++ (Pointer.render keys).toList) := by
  have hmessages : escape "messages".toList = "messages".toList := by decide
  have hkeys : (Pointer.render keys).toList = keys.flatMap fun key => '/' :: escape key.toList := toList_ofList
  rw [hkeys, Pointer.render, toList_ofList, flatMap_cons, flatMap_cons, escape_index, hmessages]
  rfl

theorem stripPrefix_message (n : Nat) (keys : List String) :
    Text.stripPrefix (Pointer.render ("messages" :: toString n :: keys)) "/messages/"
      = some (String.ofList ((toString n).toList ++ (Pointer.render keys).toList)) := by
  have hstarts : Text.startsWith (Pointer.render ("messages" :: toString n :: keys)) "/messages/" = true := by
    rw [Text.startsWith, render_message]
    simp
  rw [Text.stripPrefix, if_pos hstarts, render_message, drop_left]

variable {keys : List String}

theorem render_front (h : keys ≠ []) : ∃ rest, (Pointer.render keys).toList = '/' :: rest := by
  obtain ⟨_, _, rfl⟩ := exists_cons_of_ne_nil h
  exact ⟨_, by rw [Pointer.render, toList_ofList, flatMap_cons, List.cons_append]⟩

theorem takeWhile_index (n : Nat) (h : keys ≠ []) :
    ((toString n).toList ++ (Pointer.render keys).toList).takeWhile (· ≠ '/') = (toString n).toList := by
  obtain ⟨_, hrest⟩ := render_front h
  rw [hrest, takeWhile_append_of_pos]
  · simp
  · intro c hc
    have hdigit := index_digits n c hc
    simp only [ne_eq, decide_eq_true_eq]
    rintro rfl
    exact absurd hdigit (by decide)

theorem dropWhile_index (n : Nat) (h : keys ≠ []) :
    ((toString n).toList ++ (Pointer.render keys).toList).dropWhile (· ≠ '/') = (Pointer.render keys).toList := by
  obtain ⟨_, hrest⟩ := render_front h
  rw [hrest, dropWhile_append_of_pos]
  · simp
  · intro c hc
    have hdigit := index_digits n c hc
    simp only [ne_eq, decide_eq_true_eq]
    rintro rfl
    exact absurd hdigit (by decide)

theorem messageIndex_render (n : Nat) (h : keys ≠ []) :
    messageIndex (Pointer.render ("messages" :: toString n :: keys)) = some n := by
  obtain ⟨_, hrest⟩ := render_front h
  have hescaped := Pointer.wellEscaped_render keys
  rw [messageIndex, stripPrefix_message]
  simp only [bind_eq_bind, bind_some, toList_ofList, takeWhile_index n h,
    dropWhile_index n h, isCanonicalIndex_toString, digitsValue_toString, hescaped]
  simp [hrest]

/-- The runner takes a pointer that leads nowhere below a message, if it is short. -/
theorem isDeclared_iff {n : Nat} (hkeys : keys ≠ []) (hn : n < messages.length) (hlength : messages.length ≤ 10000)
    (hnone : document.pointer ("messages" :: toString n :: keys) = none) :
    isDeclared document messages (.string (Pointer.render ("messages" :: toString n :: keys))) = true
      ↔ IsShort (Pointer.render ("messages" :: toString n :: keys)) := by
  have hsafe : n ≤ Js.maxSafeInteger := by
    have : 10000 ≤ Js.maxSafeInteger := by decide
    omega
  rw [isDeclared, messageIndex_render n hkeys, Pointer.parse_render (by simp), hnone, ← short_iff]
  simp [hsafe, hn]

/-- The server takes it, too. -/
theorem isStored_iff {n : Nat} (hkeys : keys ≠ []) (hn : n < messages.length)
    (hlength : messages.length ≤ 10000) (hnone : document.pointer ("messages" :: toString n :: keys) = none) :
    isStored document messages (.string (Pointer.render ("messages" :: toString n :: keys))) = true
      ↔ IsShort (Pointer.render ("messages" :: toString n :: keys)) := by
  have hword : n < 2 ^ 64 := by omega
  obtain ⟨_, hrest⟩ := render_front hkeys
  rw [isStored, stripPrefix_message, Pointer.parse_render (by simp), hnone, ← short_iff, Pointer.wellEscaped_render]
  simp only [toList_ofList, takeWhile_index n hkeys, isCanonicalIndex_toString, digitsValue_toString, hword, hn]
  simp [hrest]

end SourceRedaction

/-! ### The projected exchange -/

namespace SourceProjection

open DeepseekEvidence

variable {exchange : Json} {fields : List (String × Json)} {key : String} {messages : List Json} {p : Projection}

variable {keys : List String} {value document : Json} {status : Option Json} {renderedText : Option String}

theorem get_filterMap :
    (Json.object (keys.filterMap fun k => (exchange.get k).map fun value => (k, value))).get key
      = if key ∈ keys then exchange.get key else none := by
  induction keys with
  | nil => rfl
  | cons k _ ih =>
    cases hget : exchange.get k with
    | none =>
      rw [filterMap_cons_none (by rw [hget]; rfl), ih]
      by_cases heq : key = k
      · simp [heq, hget]
      · simp [heq]
    | some value =>
      rw [filterMap_cons_some (by rw [hget]; rfl), get_cons, ih]
      by_cases heq : k = key
      · subst heq
        simp [hget]
      · simp [heq, Ne.symm heq]

/-- Beside its messages a projection has the transport members of the exchange. -/
theorem projectDeepseekSource_get [JsonSize] (h : projectDeepseekSource exchange = .ok p) (hkey : key ≠ "messages") :
    p.exchange.get key = if key ∈ transportKeys then exchange.get key else none := by
  simp only [projectDeepseekSource, eq_ok_iff] at h
  obtain ⟨_, -, _, -, rfl⟩ := h
  rw [get_cons, if_neg (Ne.symm hkey)]
  exact get_filterMap

theorem projectDeepseekSource_object [JsonSize] (h : projectDeepseekSource exchange = .ok p) :
    ∃ fields, p.exchange = .object fields := by
  simp only [projectDeepseekSource, eq_ok_iff] at h
  obtain ⟨_, -, _, -, rfl⟩ := h
  exact ⟨_, rfl⟩

theorem get_withMember_self : (withMember (.object fields) key value).get key = some value := by
  have hnone : (Json.object (fields.filter fun field => field.1 ≠ key)).get key = none := by
    rw [get_eq_none]
    intro hmem
    obtain ⟨_, hfield, hname⟩ := mem_map.mp hmem
    simpa [hname] using (mem_filter.mp hfield).2
  rw [withMember, get_append, hnone, none_or, get_cons, if_pos rfl]

theorem get_withMember_of_ne {other : String} (hne : other ≠ key) :
    (withMember exchange key value).get other = exchange.get other := by
  cases exchange with
  | object fields =>
    have hfilter : (Json.object (fields.filter fun field => field.1 ≠ key)).get other
        = (Json.object fields).get other := by
      induction fields with
      | nil => rfl
      | cons field _ ih =>
        by_cases hkey : field.1 = key
        · have hskip : field.1 ≠ other := fun heq => hne (heq.symm.trans hkey)
          rw [filter_cons_of_neg (by simpa using hkey), ih, get_cons, if_neg hskip]
        · rw [filter_cons_of_pos (by simpa using hkey), get_cons, get_cons, ih]
    rw [withMember, get_append, hfilter, get_cons, if_neg (Ne.symm hne)]
    simp
  | _ => rfl

/-! ### The document of a projection -/

open SourceRedaction

/-- The members of a document before the declaration. -/
def documentMembers (messages : List Json) (renderedText : Option String) (status : Option Json) :
    List (String × Json) :=
  ("messages", .array messages)
    :: (renderedText.toList.map (fun text => ("rendered_text", string text))
      ++ status.toList.map fun status => ("capture_status", status))

theorem sourceRedaction_redaction (hmessages : document.get "messages" = some (.array messages)) {result : Json} :
    sourceRedaction p.redaction document = .ok result
      ↔ p.omittedPaths.length ≤ 32768 ∧ (∀ path ∈ p.omittedPaths, isDeclared document messages (.string path) = true)
        ∧ result = p.redaction := by
  have hschema : p.redaction.get "schema_version" = some (.string "geo.observation.source-redaction.v1") := rfl
  have hpolicy : p.redaction.get "policy" = some (.string "reasoning-and-private-fields") := rfl
  have hpaths : p.redaction.get "omitted_paths" = some (.array (p.omittedPaths.map .string)) := rfl
  have hmembers : ∃ fields, p.redaction.members = some fields ∧ fields.length = 3 := ⟨_, rfl, rfl⟩
  obtain ⟨fields, hfields, hlength⟩ := hmembers
  simp only [sourceRedaction, eq_ok_iff, hfields, hschema, hpolicy, hpaths, hmessages, bind_some,
    Json.asArray, filter_some]
  constructor
  · rintro ⟨_, -, _, -, _, -, _, -, _, hpaths, _, hitems, _, hall, rfl⟩
    split at hpaths
    · next hcount =>
      obtain rfl := some.inj hpaths
      obtain rfl := some.inj hitems
      refine ⟨by simpa using hcount, fun path hpath => ?_, rfl⟩
      simp only [Bool.not_eq_false, List.all_eq_true, List.mem_map] at hall
      exact hall (.string path) ⟨path, hpath, rfl⟩
    · simp at hpaths
  · rintro ⟨hcount, hall, rfl⟩
    refine ⟨fields, rfl, (), by simp [hlength], (), by simp, (), by simp,
      p.omittedPaths.map .string, by simp [hcount], messages, rfl, (), ?_, rfl⟩
    simp only [Bool.not_eq_false, List.all_eq_true, List.mem_map]
    rintro _ ⟨path, hpath, rfl⟩
    exact hall path hpath

/-- A value without private members stays as it is. -/
theorem cleanDocument_public (h : AllPublic value) : cleanDocument value = value := by
  induction value using Json.induct with
  | leaf value => cases value <;> simp_all [cleanDocument, Json.asArray, Json.members]
  | array items ih =>
    have hitems : DeepseekEvidence.cleanItems items = items := by
      have hshown : ∀ item ∈ items, AllPublic item := fun item hitem own hown =>
        h own (Json.mem_objects_array.mpr ⟨item, hitem, hown⟩)
      clear h
      induction items with
      | nil => rfl
      | cons _ _ ihrest =>
        obtain ⟨hitem, hothers⟩ := forall_mem_cons.mp ih
        obtain ⟨hown, hrest⟩ := forall_mem_cons.mp hshown
        rw [DeepseekEvidence.cleanItems, hitem hown, ihrest hothers hrest]
    rw [cleanDocument, hitems]
  | object fields ih =>
    have hfields : DeepseekEvidence.cleanFields fields = fields := by
      have hnames := (h fields (Json.mem_objects_object.mpr (.inl rfl))).1
      have hshown : ∀ field ∈ fields, AllPublic field.2 := fun field hfield own hown =>
        h own (Json.mem_objects_object.mpr (.inr ⟨field, hfield, hown⟩))
      clear h
      induction fields with
      | nil => rfl
      | cons field _ ihrest =>
        obtain ⟨key, child⟩ := field
        obtain ⟨hfirst, hothers⟩ := forall_mem_cons.mp ih
        obtain ⟨hname, hnames⟩ := forall_mem_cons.mp hnames
        obtain ⟨hown, hrest⟩ := forall_mem_cons.mp hshown
        have hchild : cleanDocument child = child := hfirst hown
        have hkey : SourceNames.isPrivate key = false := hname
        rw [DeepseekEvidence.cleanFields, DeepseekEvidence.cleanField, hkey, hchild, ihrest hothers hnames hrest]
        rfl
    rw [cleanDocument, hfields]

/-- An exchange with the declaration of what was left out of it. -/
def Projection.declared (p : Projection) : Json :=
  withMember p.exchange "source_redaction" p.redaction

/-- The document of a projection without evidence is built when its status and its declaration are
well formed. -/
theorem observationDocument_iff
    (hobject : p.exchange = .object fields) (hmessages : p.exchange.get "messages" = some (.array messages))
    (hshown : AllPublic (.array messages)) (hstatus : p.exchange.get "capture_status" = status)
    (hownership : p.exchange.get "ownership" = none) (hlifecycle : p.exchange.get "lifecycle" = none) :
    observationDocument p.declared renderedText = .ok document
      ↔ (∀ value, status = some value → isCaptureStatus value = true) ∧ p.omittedPaths.length ≤ 32768
        ∧ (∀ path ∈ p.omittedPaths,
            isDeclared (.object (documentMembers messages renderedText status)) messages (.string path) = true)
        ∧ document = .object (documentMembers messages renderedText status ++ [("source_redaction", p.redaction)]) := by
  have hother : ∀ key, key ≠ "source_redaction" → p.declared.get key = p.exchange.get key :=
    fun key hne => get_withMember_of_ne hne
  have hredaction : p.declared.get "source_redaction" = some p.redaction := by
    rw [Projection.declared, hobject]
    exact get_withMember_self
  have hbase : (Json.object (documentMembers messages renderedText status)).get "messages"
      = some (.array messages) := by
    rw [documentMembers, get_cons, if_pos rfl]
  have hown : p.declared.get "messages" = some (.array messages) := (hother _ (by decide)).trans hmessages
  have hownStatus : p.declared.get "capture_status" = status := (hother _ (by decide)).trans hstatus
  have hnoOwner : p.declared.get "ownership" = none := (hother _ (by decide)).trans hownership
  have hnoLifecycle : p.declared.get "lifecycle" = none := (hother _ (by decide)).trans hlifecycle
  have hmembers : [("messages", Json.array messages)] ++ renderedText.toList.map
        (fun text => ("rendered_text", string text)) ++ status.toList.map (fun status => ("capture_status", status))
      = documentMembers messages renderedText status := by
    rw [documentMembers, List.append_assoc]
    rfl
  have hchecked : status.any (fun status => !isCaptureStatus status) = true
      ↔ ¬ ∀ value, status = some value → isCaptureStatus value = true := by
    cases status <;> simp
  have hsome : ∀ {x : Except String Json} {r : Option Json}, (some <$> x) = .ok r ↔ ∃ a, x = .ok a ∧ some a = r := by
    intro x r
    cases x <;> simp
  rw [observationDocument, hown, hownStatus, hnoOwner, hnoLifecycle, hredaction]
  simp only [map_some, cleanDocument_public hshown, toList_some, map_cons, map_nil,
    eq_ok_iff, mapM_some, hsome, hmembers, hchecked, sourceRedaction_redaction hbase, isSome_none,
    toList_none, append_nil]
  constructor
  · rintro ⟨_, hstatus, _, ⟨redaction, ⟨hcount, hpaths, rfl⟩, rfl⟩, _, -, rfl⟩
    exact ⟨not_not.mp hstatus, hcount, hpaths, rfl⟩
  · rintro ⟨hstatus, hcount, hpaths, rfl⟩
    exact ⟨(), not_not.mpr hstatus, _, ⟨p.redaction, ⟨hcount, hpaths, rfl⟩, rfl⟩, (), by simp, rfl⟩

/-! ### What the server takes -/

theorem heightOfItems_le {items : List Json} {n : Nat} :
    Json.heightOfItems items ≤ n ↔ ∀ item ∈ items, item.height + 1 ≤ n := by
  induction items with
  | nil => simp [Json.heightOfItems]
  | cons _ _ ih => rw [Json.heightOfItems, Nat.max_le, ih, List.forall_mem_cons]

theorem heightOfFields_le {n : Nat} : Json.heightOfFields fields ≤ n ↔ ∀ field ∈ fields, field.2.height + 1 ≤ n := by
  induction fields with
  | nil => simp [Json.heightOfFields]
  | cons field _ ih =>
    obtain ⟨_, _⟩ := field
    rw [Json.heightOfFields, Json.heightOfField, Nat.max_le, ih, List.forall_mem_cons]

@[simp]
theorem height_string {text : String} : (string text).height = 0 :=
  rfl

theorem height_object : (Json.object fields).height = Json.heightOfFields fields :=
  rfl

@[simp]
theorem noForbidden_string {text : String} : NoForbidden (.string text) := by
  simp [NoForbidden, Json.objects]

theorem validCaptureStatus_eq (status : Json) : validCaptureStatus status = isCaptureStatus status := by
  have htext : ∀ value : Option Json, value.bind Json.asStr = JsValue.asString value := by
    intro value
    cases value with
    | none => rfl
    | some own => cases own <;> rfl
  have hschema : ∀ (value : Option Json) (text : String),
      JsValue.isText value text = decide (value = some (.string text)) := by
    intro value text
    cases value with
    | none => rfl
    | some own => cases own <;> simp [JsValue.isText, JsValue.asString]
  cases status with
  | object fields => simp only [validCaptureStatus, isCaptureStatus, htext, hschema]
  | _ => rfl

theorem mem_of_names {names : List String} (hnames : names.Nodup) (hlength : fields.length = names.length)
    (hin : names ⊆ fields.map Prod.fst) : ∀ field ∈ fields, field.1 ∈ names := by
  have hperm : names.Perm (fields.map Prod.fst) := by
    refine (subperm_of_subset hnames hin).perm_of_length_le ?_
    rw [List.length_map, hlength]
  exact fun field hfield => hperm.mem_iff.mpr (mem_map.mpr ⟨field, hfield, rfl⟩)

theorem captureStatus_flat {status : Json} (h : isCaptureStatus status = true) (hproper : status.Proper) :
    status.height ≤ 1 ∧ NoForbidden status := by
  cases status with
  | object fields =>
    obtain ⟨hnodup, -⟩ := Json.proper_object.mp hproper
    simp only [isCaptureStatus, Bool.and_eq_true, Bool.or_eq_true, decide_eq_true_iff, Option.any_eq_true,
      JsValue.isText] at h
    obtain ⟨⟨hlength, hschema⟩, hstate⟩ := h
    have htext : ∀ {key text : String}, JsValue.asString ((Json.object fields).get key) = some text →
        (Json.object fields).get key = some (.string text) := by
      intro key text hkey
      cases hget : (Json.object fields).get key with
      | none => simp [hget, JsValue.asString] at hkey
      | some value => cases value <;> simp_all [JsValue.asString]
    obtain ⟨transport, htransport⟩ : ∃ text, (Json.object fields).get "transport" = some (.string text) := by
      rcases hstate with ⟨htransport, -⟩ | ⟨htransport, -⟩ <;> exact ⟨_, htext htransport⟩
    obtain ⟨termination, htermination⟩ : ∃ text, (Json.object fields).get "termination" = some (.string text) := by
      rcases hstate with ⟨-, htermination⟩ | ⟨-, text, htermination, -⟩ <;> exact ⟨_, htext htermination⟩
    have hkeys : ∀ key ∈ ["schema_version", "transport", "termination"],
        ∃ text, (Json.object fields).get key = some (.string text) := by
      intro key hkey
      simp only [List.mem_cons, List.not_mem_nil, or_false] at hkey
      rcases hkey with rfl | rfl | rfl
      · exact ⟨_, htext hschema⟩
      · exact ⟨transport, htransport⟩
      · exact ⟨termination, htermination⟩
    have hnames : ∀ field ∈ fields, field.1 ∈ ["schema_version", "transport", "termination"] := by
      refine mem_of_names (by decide) hlength fun key hkey => ?_
      obtain ⟨_, hget⟩ := hkeys key hkey
      exact mem_map.mpr ⟨_, mem_of_get hget, rfl⟩
    have hvalue : ∀ field ∈ fields, SourceNames.isForbidden field.1 = false ∧ ∃ text, field.2 = .string text := by
      intro field hfield
      have hname := hnames field hfield
      obtain ⟨text, hget⟩ := hkeys field.1 hname
      rw [get_of_mem hnodup hfield] at hget
      have hallowed : ∀ key ∈ ["schema_version", "transport", "termination"],
          SourceNames.isForbidden key = false := by decide
      exact ⟨hallowed _ hname, text, some.inj hget⟩
    refine ⟨heightOfFields_le.mpr fun field hfield => ?_, noForbidden_object.mpr fun field hfield => ?_⟩
    · obtain ⟨-, text, htext⟩ := hvalue field hfield
      rw [htext, height_string]
    · obtain ⟨hname, _, htext⟩ := hvalue field hfield
      rw [htext]
      exact ⟨hname, noForbidden_string⟩
  | _ => simp [isCaptureStatus] at h

theorem redaction_flat (p : Projection) : p.redaction.height ≤ 2 ∧ NoForbidden p.redaction := by
  have hpaths : (Json.array (p.omittedPaths.map .string)).height ≤ 1 := by
    refine heightOfItems_le.mpr fun item hitem => ?_
    obtain ⟨_, -, rfl⟩ := mem_map.mp hitem
    rw [height_string]
  have hnone : NoForbidden (.array (p.omittedPaths.map .string)) := by
    refine noForbidden_array.mpr fun item hitem => ?_
    obtain ⟨_, -, rfl⟩ := mem_map.mp hitem
    exact noForbidden_string
  constructor
  · refine heightOfFields_le.mpr ?_
    simpa [Json.height] using hpaths
  · refine noForbidden_object.mpr ?_
    simp only [List.forall_mem_cons]
    exact ⟨⟨by decide, noForbidden_string⟩, ⟨by decide, noForbidden_string⟩, ⟨by decide, hnone⟩, by simp⟩

/-- A projection whose document can be stored: its capture status is well formed, there are not too many
paths and all are short, and the server takes what is left of the messages, one level below the document. -/
structure Storable (p : Projection) : Prop where
  status : ∀ status, p.exchange.get "capture_status" = some status → isCaptureStatus status = true
  count : p.omittedPaths.length ≤ 32768
  short : ∀ path ∈ p.omittedPaths, IsShort path
  messages : ∀ messages, p.exchange.get "messages" = some messages → messages.height ≤ 31 ∧ NoForbidden messages

/-- The document of a projection is built, has the projected messages, and the server takes it. -/
def Stored (p : Projection) (renderedText : Option String) : Prop :=
  ∃ document, observationDocument p.declared renderedText = .ok document ∧ document.get "messages" = p.exchange.get
    "messages" ∧ safeJson document 0 = true ∧ validObservationSourceDocument document = true

/-- The server's check of the names and the depth of a document. -/
theorem safeJson_document (hstatus : ∀ value, status = some value → isCaptureStatus value = true ∧ value.Proper) :
    safeJson (.object (documentMembers messages renderedText status ++ [("source_redaction", p.redaction)])) 0 = true
      ↔ (Json.array messages).height ≤ 31 ∧ NoForbidden (.array messages) := by
  obtain ⟨hheight, hnone⟩ := redaction_flat p
  have hmessagesName : SourceNames.isForbidden "messages" = false := by decide
  have hnames : SourceNames.isForbidden "rendered_text" = false ∧ SourceNames.isForbidden "capture_status" = false
      ∧ SourceNames.isForbidden "source_redaction" = false := by
    decide
  have hothers : ∀ field ∈ renderedText.toList.map (fun text => ("rendered_text", string text))
        ++ status.toList.map (fun status => ("capture_status", status))
        ++ [("source_redaction", p.redaction)],
      field.2.height + 1 ≤ 32 ∧ SourceNames.isForbidden field.1 = false ∧ NoForbidden field.2 := by
    intro field hfield
    simp only [List.mem_append, List.mem_map, Option.mem_toList, List.mem_singleton] at hfield
    rcases hfield with (⟨text, -, rfl⟩ | ⟨value, hvalue, rfl⟩) | rfl
    · exact ⟨by simp, hnames.1, noForbidden_string⟩
    · obtain ⟨hvalid, hproper⟩ := hstatus value hvalue
      obtain ⟨hflat, hown⟩ := captureStatus_flat hvalid hproper
      exact ⟨succ_le_succ (hflat.trans (by decide)), hnames.2.1, hown⟩
    · exact ⟨succ_le_succ (hheight.trans (by decide)), hnames.2.2, hnone⟩
  rw [safeJson_iff, noForbidden_object, height_object, Nat.zero_add, heightOfFields_le, documentMembers,
    List.cons_append, List.forall_mem_cons, List.forall_mem_cons]
  constructor
  · rintro ⟨⟨hmessages, -⟩, ⟨-, hnames⟩, -⟩
    exact ⟨le_of_succ_le_succ hmessages, hnames⟩
  · rintro ⟨hmessages, hnames⟩
    exact ⟨⟨succ_le_succ hmessages, fun field hfield => (hothers field hfield).1⟩,
      ⟨hmessagesName, hnames⟩, fun field hfield => (hothers field hfield).2⟩

theorem validDocument (hstatus : ∀ value, status = some value → isCaptureStatus value = true) :
    validObservationSourceDocument
        (.object (documentMembers messages renderedText status ++ [("source_redaction", p.redaction)])) = true
      ↔ p.omittedPaths.length ≤ 32768
        ∧ ∀ path ∈ p.omittedPaths, isStored
          (.object (documentMembers messages renderedText status ++ [("source_redaction", p.redaction)]))
          messages (.string path) = true := by
  have hget : ∀ key, (Json.object (documentMembers messages renderedText status
      ++ [("source_redaction", p.redaction)])).get key
      = if key = "messages" then some (.array messages)
        else if key = "rendered_text" then renderedText.map .string
        else if key = "capture_status" then status
        else if key = "source_redaction" then some p.redaction else none := by
    intro key
    cases renderedText <;> cases status <;> simp [documentMembers, get_cons, eq_comm] <;> split_ifs <;> simp_all
  have hnames : ∀ field ∈ documentMembers messages renderedText status
      ++ [("source_redaction", p.redaction)], field.1 ∈ sourceMembers := by
    intro field hfield
    simp only [documentMembers, List.cons_append, List.mem_cons, List.mem_append, List.mem_map,
      Option.mem_toList, List.not_mem_nil, or_false] at hfield
    rcases hfield with rfl | ((⟨text, -, rfl⟩ | ⟨value, -, rfl⟩) | rfl) <;> simp [sourceMembers]
  have hrendered : (renderedText.map string).all (fun value => value.asStr.isSome) = true := by
    cases renderedText <;> rfl
  have hcaptured : status.all validCaptureStatus = true := by
    cases status with
    | none => rfl
    | some value => rw [all_some, validCaptureStatus_eq, hstatus value rfl]
  have hmembers : ∃ fields, p.redaction.members = some fields ∧ fields.length = 3 := ⟨_, rfl, rfl⟩
  obtain ⟨fields, hfields, hlength⟩ := hmembers
  have hschema : p.redaction.get "schema_version" = some (.string "geo.observation.source-redaction.v1") := rfl
  have hpolicy : p.redaction.get "policy" = some (.string "reasoning-and-private-fields") := rfl
  have hpaths : p.redaction.get "omitted_paths" = some (.array (p.omittedPaths.map .string)) := rfl
  have hown : ∀ own : List (String × Json), (Json.object own).members = some own := fun _ => rfl
  rw [validObservationSourceDocument, hget, hget, hget, hget]
  simp only [hown, reduceIte, bind_some, Json.asArray, all_eq_true.mpr fun field hfield =>
    decide_eq_true (hnames field hfield), Bool.true_and]
  simp [hrendered, hcaptured, hfields, hlength, hschema, hpolicy, hpaths, Json.asArray]

/-- Where a declared path goes: below a message that is kept. -/
theorem declared_place {kept : List Json} {places : Places} (h : MessagesSound 0 messages kept places) (hmem : keys ∈ places) :
    ∃ i rest, keys = toString i :: rest ∧ rest ≠ [] ∧ i < kept.length ∧ (Json.array kept).pointer keys = none := by
  obtain ⟨i, rest, _, heq, hget, hnone⟩ := h.items.nowhere keys hmem
  rw [Nat.zero_add] at heq
  refine ⟨i, rest, heq, ?_, (List.getElem?_eq_some_iff.mp hget).1, h.items.array.nowhere keys hmem⟩
  rintro rfl
  simp at hnone

namespace Sample

attribute [local instance] compactSize

/-- A search with a result that names an address under a name with a separator. -/
def mailExchange : Json :=
  .object [("messages", .array
    [.object [("event", .string "message"), ("data", .object
      [("p", .string "response/fragments"), ("v", .array
        [.object [("type", .string "SEARCH"), ("results", .array [.object [("e-mail", .string "a@b.c")]])]])])]])]

def mailProjection : Projection where
  exchange := mailExchange
  omittedPaths := []

end Sample

end SourceProjection

end GeoMaster
