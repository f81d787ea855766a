import GeoMaster.Domain.ObservationCaptures
import GeoMaster.Proofs.StoredSource

/-!
# Names in a stored text

The text of a capture is what is stored, and its value is what is checked. A member that is replaced by a
later one of the same name is in the text only, so nobody looks at what its value holds. Everything else in
an accepted text has been looked at.
-/

namespace GeoMaster

open Except List

/-- The reader of JSON text keeps the last member of each name. -/
class LawfulJsonText [JsonText] [JsonSyntax] : Prop where
  parse_eq : ∀ raw, JsonText.parse raw = (JsonSyntax.parse raw).map Json.lastWins

namespace Json

mutual

/-- The values that a text has and its reading has not: those of members that a later one replaces. -/
def replaced (value : Json) : List Json :=
  match value with
  | .array items => replacedItems items
  | .object fields => replacedFields fields
  | _ => []
termination_by structural value

def replacedItems (items : List Json) : List Json :=
  match items with
  | [] => []
  | item :: rest => replaced item ++ replacedItems rest
termination_by structural items

def replacedFields (fields : List (String × Json)) : List Json :=
  match fields with
  | [] => []
  | field :: rest =>
    (if rest.any (fun later => later.1 = field.1) then [field.2] else replacedField field) ++ replacedFields rest
termination_by structural fields

def replacedField (field : String × Json) : List Json :=
  match field with
  | (_, value) => replaced value
termination_by structural field

end

theorem lastWinsItems_eq (items : List Json) : lastWinsItems items = items.map lastWins := by
  induction items with
  | nil => rfl
  | cons _ _ ih => rw [lastWinsItems, ih, map_cons]

theorem mem_replacedItems {items : List Json} {value : Json} :
    value ∈ replacedItems items ↔ ∃ item ∈ items, value ∈ item.replaced := by
  induction items with
  | nil => simp [replacedItems]
  | cons _ _ ih => simp [replacedItems, ih]

theorem exists_name {fields : List (String × Json)} {key : String} (h : ∃ field ∈ fields, field.1 = key) :
    ∃ field ∈ lastWinsFields fields, field.1 = key := by
  induction fields with
  | nil => simp at h
  | cons field rest ih =>
    obtain ⟨name, _⟩ := field
    rw [lastWinsFields]
    by_cases hlater : rest.any (fun later => later.1 = name) = true
    · rw [if_pos hlater]
      rcases (exists_mem_cons_iff _ _ _).mp h with hname | hrest
      · refine ih ?_
        rw [← show name = key from hname]
        simpa using hlater
      · exact ih hrest
    · rw [if_neg hlater]
      rcases (exists_mem_cons_iff _ _ _).mp h with hname | hrest
      · exact ⟨_, mem_cons_self, hname⟩
      · obtain ⟨field, hfield, hkey⟩ := ih hrest
        exact ⟨field, mem_cons_of_mem _ hfield, hkey⟩

/-- A reading is not nested deeper than its text. -/
theorem height_lastWins (tree : Json) : tree.lastWins.height ≤ tree.height := by
  induction tree using Json.induct with
  | leaf value => cases value <;> simp_all [lastWins, asArray, members]
  | array items ih =>
    rw [lastWins, height, height]
    induction items with
    | nil => exact le_rfl
    | cons _ _ ihrest =>
      obtain ⟨_, hothers⟩ := forall_mem_cons.mp ih
      have hrest := ihrest hothers
      rw [lastWinsItems, heightOfItems, heightOfItems]
      omega
  | object fields ih =>
    rw [lastWins, height, height]
    induction fields with
    | nil => exact le_rfl
    | cons field _ ihrest =>
      obtain ⟨_, child⟩ := field
      obtain ⟨hchild, hothers⟩ := forall_mem_cons.mp ih
      have hrest := ihrest hothers
      have hchild : child.lastWins.height ≤ child.height := hchild
      rw [lastWinsFields]
      split
      · rw [heightOfFields]
        omega
      · rw [lastWinsField, heightOfFields, heightOfFields, heightOfField, heightOfField]
        omega

end Json

namespace SourceRedaction

open SourceNames

/-- No name is lost with a member that is replaced, only names in its value. -/
theorem noForbidden_fields {fields : List (String × Json)}
    (h : ∀ field ∈ fields, NoForbidden field.2
      ↔ NoForbidden field.2.lastWins ∧ ∀ value ∈ field.2.replaced, NoForbidden value) :
    (∀ field ∈ fields, isForbidden field.1 = false ∧ NoForbidden field.2)
      ↔ (∀ field ∈ Json.lastWinsFields fields, isForbidden field.1 = false ∧ NoForbidden field.2)
        ∧ ∀ value ∈ Json.replacedFields fields, NoForbidden value := by
  induction fields with
  | nil => simp [Json.lastWinsFields, Json.replacedFields]
  | cons field rest ih =>
    obtain ⟨key, child⟩ := field
    obtain ⟨hchild, hrest⟩ := forall_mem_cons.mp h
    rw [forall_mem_cons, ih hrest, Json.lastWinsFields, Json.replacedFields]
    by_cases hlater : rest.any (fun later => later.1 = key) = true
    · -- a later member has the name, and is looked at
      have hnamed : (∀ field ∈ Json.lastWinsFields rest, isForbidden field.1 = false ∧ NoForbidden field.2)
          → isForbidden key = false := by
        intro hread
        obtain ⟨field, hfield, rfl⟩ := Json.exists_name (by simpa using hlater)
        exact (hread field hfield).1
      rw [if_pos hlater, if_pos hlater]
      simp only [cons_append, nil_append, forall_mem_cons]
      constructor
      · rintro ⟨⟨-, hown⟩, hread, hreplaced⟩
        exact ⟨hread, hown, hreplaced⟩
      · rintro ⟨hread, hown, hreplaced⟩
        exact ⟨⟨hnamed hread, hown⟩, hread, hreplaced⟩
    · rw [if_neg hlater, if_neg hlater, Json.lastWinsField, Json.replacedField, forall_mem_cons, forall_mem_append]
      have hchild : NoForbidden child
          ↔ NoForbidden child.lastWins ∧ ∀ value ∈ child.replaced, NoForbidden value := hchild
      show (isForbidden key = false ∧ NoForbidden child) ∧ _ ↔
        ((isForbidden key = false ∧ NoForbidden child.lastWins) ∧ _) ∧ _ ∧ _
      rw [hchild]
      constructor
      · rintro ⟨⟨hkey, hown, hhidden⟩, hread, hreplaced⟩
        exact ⟨⟨⟨hkey, hown⟩, hread⟩, hhidden, hreplaced⟩
      · rintro ⟨⟨⟨hkey, hown⟩, hread⟩, hhidden, hreplaced⟩
        exact ⟨⟨hkey, hown, hhidden⟩, hread, hreplaced⟩

/-- A text has no forbidden name exactly when its reading has none and the replaced values have none. -/
theorem noForbidden_iff (tree : Json) :
    NoForbidden tree ↔ NoForbidden tree.lastWins ∧ ∀ value ∈ tree.replaced, NoForbidden value := by
  induction tree using Json.induct with
  | leaf value => cases value <;> simp_all [Json.lastWins, Json.replaced, Json.asArray, Json.members]
  | array items ih =>
    rw [Json.lastWins, Json.replaced, Json.lastWinsItems_eq, noForbidden_array, noForbidden_array]
    constructor
    · intro h
      refine ⟨fun item hitem => ?_, fun value hvalue => ?_⟩
      · obtain ⟨own, hown, rfl⟩ := mem_map.mp hitem
        exact ((ih own hown).mp (h own hown)).1
      · obtain ⟨own, hown, hvalue⟩ := Json.mem_replacedItems.mp hvalue
        exact ((ih own hown).mp (h own hown)).2 value hvalue
    · rintro ⟨hread, hreplaced⟩ item hitem
      exact (ih item hitem).mpr ⟨hread _ (mem_map_of_mem hitem),
        fun value hvalue => hreplaced value (Json.mem_replacedItems.mpr ⟨item, hitem, hvalue⟩)⟩
  | object fields ih =>
    rw [Json.lastWins, Json.replaced, noForbidden_object, noForbidden_object]
    exact noForbidden_fields ih

end SourceRedaction

open SourceRedaction (NoForbidden safeJson_iff noForbidden_iff)

section

variable [Sha256] [JsonText] [JsonSyntax] [LawfulJsonText] {raw digest : String} {limit : Nat}

/-- A text is accepted when its digest and size are right and its reading is safe. -/
theorem checkedJson_iff {value : Json} :
    checkedJson raw digest limit = .ok value
      ↔ (raw ≠ "" ∧ Text.len raw ≤ limit ∧ validDigest digest = true ∧ sha256Hex (Text.bytes raw) = digest)
        ∧ ∃ tree, JsonSyntax.parse raw = some tree ∧ tree.lastWins = value ∧ value.height ≤ 32 ∧ NoForbidden value := by
  have hsafe : ∀ value, SourceRedaction.safeJson value 0 = true ↔ value.height ≤ 32 ∧ NoForbidden value := by
    intro value
    rw [safeJson_iff, Nat.zero_add]
  simp only [checkedJson, eq_ok_iff, LawfulJsonText.parse_eq, Option.map_eq_some_iff, not_or, not_lt, not_not,
    Bool.not_eq_false, hsafe]
  constructor
  · rintro ⟨-, hsize, _, ⟨tree, htree, rfl⟩, -, hsafe, rfl⟩
    exact ⟨hsize, tree, htree, rfl, hsafe⟩
  · rintro ⟨hsize, tree, htree, rfl, hsafe⟩
    exact ⟨(), hsize, _, ⟨tree, htree, rfl⟩, (), hsafe, rfl⟩

/-- Of an accepted text, exactly the values of replaced members may hold a forbidden name; and a text without a
forbidden name, of the right digest and size and not nested too deep, is accepted. -/
theorem checkedJson_exact (raw digest : String) (limit : Nat) :
    (∀ value, checkedJson raw digest limit = .ok value →
      ∃ tree, JsonSyntax.parse raw = some tree ∧ (NoForbidden tree ↔ ∀ hidden ∈ tree.replaced, NoForbidden hidden))
    ∧ ∀ tree, JsonSyntax.parse raw = some tree → NoForbidden tree → tree.height ≤ 32 →
      raw ≠ "" → Text.len raw ≤ limit → validDigest digest = true → sha256Hex (Text.bytes raw) = digest →
      checkedJson raw digest limit = .ok tree.lastWins := by
  constructor
  · intro value haccepted
    obtain ⟨-, tree, htree, rfl, -, hread⟩ := checkedJson_iff.mp haccepted
    refine ⟨tree, htree, ?_⟩
    rw [noForbidden_iff tree]
    exact and_iff_right hread
  · intro tree htree hnames hheight hraw hlimit hdigest hhash
    refine checkedJson_iff.mpr ⟨⟨hraw, hlimit, hdigest, hhash⟩, tree, htree, rfl, ?_, ?_⟩
    · exact tree.height_lastWins.trans hheight
    · exact ((noForbidden_iff tree).mp hnames).1

end

theorem ObservationCaptureInput.validate_text [Sha256] [JsonText] [InstantJson] {input : ObservationCaptureInput}
    {scope : TenantScope} {inputDigest : String} (h : input.validate scope = .ok inputDigest) :
    ∃ limit value, checkedJson input.snapshot.text input.snapshot.digest limit = .ok value := by
  have hsource {sourceJson sourceSha256 : String} (hvalid : input.validateSource sourceJson sourceSha256 = .ok ()) :
      ∃ limit value, checkedJson sourceJson sourceSha256 limit = .ok value := by
    simp only [validateSource, bind_eq_ok] at hvalid
    obtain ⟨value, haccepted, -⟩ := hvalid
    exact ⟨_, value, haccepted⟩
  simp only [validate, bind_eq_ok] at h
  obtain ⟨_, -, _, -, _, -, _, -, _, hsnapshot, -⟩ := h
  unfold validateSnapshot at hsnapshot
  cases hcase : input.snapshot with
  | source sourceJson sourceSha256 =>
    simp only [hcase, bind_eq_ok] at hsnapshot
    obtain ⟨_, -, hvalid⟩ := hsnapshot
    exact hsource hvalid
  | extraction =>
    simp only [hcase, bind_eq_ok] at hsnapshot
    obtain ⟨_, -, hvalid⟩ := hsnapshot
    exact hsource hvalid
  | candidate =>
    simp only [hcase, bind_eq_ok] at hsnapshot
    obtain ⟨_, -, _, -, value, haccepted, -⟩ := hsnapshot
    exact ⟨_, value, haccepted⟩

/-! ### A sample text -/

namespace Sample

/-- A source with a member that a later one replaces. -/
def hiddenText : String :=
  "\x7b\"messages\":[\x7b\"note\":\x7b\"pass-word\":\"x\"\x7d,\"note\":1\x7d]\x7d"

def hiddenTree : Json :=
  .object [("messages", .array [.object [("note", .object [("pass-word", .string "x")]), ("note", .ofNat 1)]])]

/-- The same source without the first member. -/
def shownText : String :=
  "\x7b\"messages\":[\x7b\"note\":1\x7d]\x7d"

def shownTree : Json :=
  .object [("messages", .array [.object [("note", .ofNat 1)]])]

@[reducible] def twoTexts : JsonSyntax :=
  ⟨fun raw => if raw = hiddenText then some hiddenTree else if raw = shownText then some shownTree else none⟩

section

attribute [local instance] secureHash twoTexts

@[reducible] def lastMembers : JsonText :=
  ⟨fun raw => (JsonSyntax.parse raw).map Json.lastWins⟩

attribute [local instance] lastMembers

instance : LawfulJsonText where
  parse_eq _ := rfl

theorem checkedJson_exact_shown :
    checkedJson shownText (sha256Hex (Text.bytes shownText)) 750000 = .ok shownTree.lastWins :=
  (checkedJson_exact shownText (sha256Hex (Text.bytes shownText)) 750000).2 shownTree (by decide +kernel)
    (by unfold NoForbidden; decide +kernel) (by decide +kernel) (by decide +kernel) (by decide +kernel)
    (by decide +kernel) rfl

/-- The text is accepted, with the password in it. -/
theorem hiddenText_accepted :
    JsonSyntax.parse hiddenText = some hiddenTree ∧ checkedJson hiddenText (sha256Hex (Text.bytes hiddenText)) 750000
      = .ok shownTree ∧ ¬ NoForbidden hiddenTree := by
  refine ⟨by decide +kernel, by decide +kernel, ?_⟩
  unfold NoForbidden
  decide +kernel

end

end Sample

end GeoMaster
