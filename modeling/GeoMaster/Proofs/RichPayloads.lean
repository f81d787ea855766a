import GeoMaster.Proofs.ChannelVariants
import GeoMaster.Proofs.SemanticFingerprints
import GeoMaster.Proofs.SurvivorStructure
import Mathlib.Data.List.Perm.Subperm

/-!
# Rich publications

The identity of a rich variant determines what is published. It is drawn from the revision, the placement and the
payload hash, the hash from the title, the Markdown and the canonical text of the payload, and the text has the payload
in it, whatever the order in which the members are given. A variant that is prepared binds every image of the document
to one active binding, uses every binding, and passes the check that is made after storage.
-/

namespace GeoMaster

open List Option Text

/-! ### JSON of the document -/

namespace Json

theorem fields_inj {ms ms' : List (String × Option Json)} (h : ofFields (optionalFields ms) = ofFields (optionalFields ms'))
    (hkeys : ms.map Prod.fst = ms'.map Prod.fst) (hnodup : (ms.map Prod.fst).Nodup) : ms = ms' :=
  optionalFields_inj (ofFields_perm h) hkeys hnodup

theorem ofFields_inj {fs gs : List (String × Json)} (h : ofFields fs = ofFields gs)
    (hkeys : fs.map Prod.fst = gs.map Prod.fst) (hnodup : (fs.map Prod.fst).Nodup) : fs = gs := by
  have hsome (ks : List (String × Json)) : optionalFields (ks.map fun f => (f.1, some f.2)) = ks := by
    simp [optionalFields, optionalField, flatMap_map]
  have hmembers : fs.map (fun f => (f.1, some f.2)) = gs.map fun f => (f.1, some f.2) :=
    fields_inj (by rw [hsome, hsome, h]) (by simpa [Function.comp_def] using hkeys)
      (by simpa [Function.comp_def] using hnodup)
  refine map_injective_iff.mpr (fun f g hfg => ?_) hmembers
  simpa [Prod.ext_iff] using hfg

/-- Lists are equal when the JSON of their members is, and tells these members apart. -/
theorem map_inj {α : Type} {f : α → Json} {xs ys : List α} (hinj : ∀ x ∈ xs, ∀ y ∈ ys, f x = f y → x = y)
    (h : xs.map f = ys.map f) : xs = ys := by
  have hlength : xs.length = ys.length := by simpa using congrArg List.length h
  refine ext_getElem hlength fun i hi hi' => hinj _ (getElem_mem hi) _ (getElem_mem hi') ?_
  simpa [hi, hi'] using congrArg (·[i]?) h

theorem u8_injective : Function.Injective fun n : UInt8 => ofNat n.toNat := fun n m h =>
  UInt8.toNat_inj.mp (ofNat_inj (n.toNat_lt.trans (by decide)) (m.toNat_lt.trans (by decide)) h)

theorem u16_injective : Function.Injective fun n : UInt16 => ofNat n.toNat := fun n m h =>
  UInt16.toNat_inj.mp (ofNat_inj (n.toNat_lt.trans (by decide)) (m.toNat_lt.trans (by decide)) h)

theorem string_injective : Function.Injective string := fun _ _ => string.inj

end Json

open Json Except

theorem LinkAttrs.json_eq (attrs : LinkAttrs) :
    attrs.json = ofFields (optionalFields [("href", some (.string attrs.href)), ("title", attrs.title.map .string)]) := by
  simp [json, optionalFields, optionalField]

theorem LinkAttrs.json_injective : Function.Injective LinkAttrs.json := by
  rintro ⟨href, title⟩ ⟨href', title'⟩ h
  rw [json_eq, json_eq] at h
  simpa [(map_injective string_injective).eq_iff] using fields_inj h (by simp only [List.map]) (by simp)

namespace RichMark

def type : RichMark → String
  | .bold => "bold"
  | .italic => "italic"
  | .strike => "strike"
  | .underline => "underline"
  | .code => "code"
  | .link _ => "link"

def link? : RichMark → Option LinkAttrs
  | .link attrs => some attrs
  | _ => none

theorem json_eq (mark : RichMark) :
    mark.json = ofFields (optionalFields [("type", some (.string mark.type)), ("attrs", mark.link?.map LinkAttrs.json)]) := by
  cases mark <;> rfl

theorem json_injective : Function.Injective RichMark.json := by
  intro a b h
  rw [json_eq, json_eq] at h
  have hmembers := fields_inj h (by simp only [List.map]) (by simp)
  simp only [List.cons.injEq, Prod.mk.injEq, Option.some.injEq, Json.string.injEq, true_and, and_true,
    (map_injective LinkAttrs.json_injective).eq_iff] at hmembers
  cases a <;> cases b <;> simp_all [type, link?]

end RichMark

theorem CellAlignment.json_injective : Function.Injective CellAlignment.json := by
  intro a b h
  cases a <;> cases b <;> simp_all [json]

theorem CodeBlockAttrs.json_injective : Function.Injective CodeBlockAttrs.json := by
  rintro ⟨language⟩ ⟨language'⟩ h
  have hlanguage : nullable Json.string language = nullable .string language' := by
    simpa [nullable] using ofFields_inj h (by simp only [List.map]) (by simp)
  rw [nullable_injective string_injective (fun _ => nofun) hlanguage]

theorem TableCellAttrs.json_eq (attrs : TableCellAttrs) :
    attrs.json = ofFields (optionalFields [("colspan", some (.ofNat attrs.colspan.toNat)),
      ("rowspan", some (.ofNat attrs.rowspan.toNat)),
      ("colwidth", attrs.colwidth.map fun widths => .array (widths.map fun w => .ofNat w.toNat)),
      ("textAlign", attrs.alignment.map CellAlignment.json)]) := by
  simp [json, optionalFields, optionalField]

theorem TableCellAttrs.json_injective : Function.Injective TableCellAttrs.json := by
  rintro ⟨colspan, rowspan, colwidth, alignment⟩ ⟨colspan', rowspan', colwidth', alignment'⟩ h
  rw [json_eq, json_eq] at h
  have hwidths : Function.Injective fun widths : List UInt16 => Json.array (widths.map fun w => .ofNat w.toNat) :=
    fun _ _ hwidths => map_injective_iff.mpr u16_injective (Json.array.inj hwidths)
  simpa [(map_injective hwidths).eq_iff, (map_injective CellAlignment.json_injective).eq_iff,
    u16_injective.eq_iff] using fields_inj h (by simp only [List.map]) (by simp)

/-- The version of an object is a number of 64 bits. -/
def MediaReference.InRange (media : MediaReference) : Prop :=
  -2 ^ 63 ≤ media.objectVersion ∧ media.objectVersion < 2 ^ 63

theorem MediaReference.json_inj {a b : MediaReference} (ha : a.InRange) (hb : b.InRange) (h : a.json = b.json) :
    a = b := by
  have hmembers := ofFields_inj h (by simp only [List.map]) (by simp)
  simp only [List.cons.injEq, Prod.mk.injEq, Json.string.injEq, true_and, and_true,
    Uuid.json_injective.eq_iff] at hmembers
  obtain ⟨hid, hversion, hrest⟩ := hmembers
  have hsame := ofInt_inj ha hb hversion
  cases a
  cases b
  simp_all

namespace RichNode

def type : RichNode → String
  | .paragraph _ => "paragraph"
  | .heading _ _ => "heading"
  | .text _ _ => "text"
  | .hardBreak => "hardBreak"
  | .bulletList _ => "bulletList"
  | .orderedList _ _ => "orderedList"
  | .listItem _ => "listItem"
  | .codeBlock _ _ => "codeBlock"
  | .table _ => "table"
  | .tableRow _ => "tableRow"
  | .tableHeader _ _ => "tableHeader"
  | .tableCell _ _ => "tableCell"
  | .media _ => "media"

def attrsJson : RichNode → Option Json
  | .heading attrs _ => some (.ofFields [("level", .ofNat attrs.level.toNat)])
  | .orderedList attrs _ => some (.ofFields [("start", .ofNat attrs.start.toNat)])
  | .codeBlock attrs _ => attrs.map CodeBlockAttrs.json
  | .tableHeader attrs _ | .tableCell attrs _ => attrs.map TableCellAttrs.json
  | .media attrs => some attrs.json
  | _ => none

def textJson : RichNode → Option Json
  | .text value _ => some (.string value)
  | _ => none

def marksJson : RichNode → Option Json
  | .text _ marks => if marks.isEmpty then none else some (.array (marks.map RichMark.json))
  | _ => none

def contentJson (node : RichNode) : Option Json :=
  match node with
  | .text _ _ | .hardBreak | .media _ => none
  | .paragraph content | .heading _ content =>
    if content.isEmpty then none else some (.array (content.map RichNode.json))
  | node => some (.array (node.children.map RichNode.json))

theorem jsonAll_eq (content : List RichNode) : jsonAll content = content.map RichNode.json := by
  induction content with
  | nil => rfl
  | cons child rest ih => rw [jsonAll, ih, map_cons]

theorem json_eq (node : RichNode) :
    node.json = ofFields (optionalFields [("type", some (.string node.type)), ("attrs", node.attrsJson),
      ("text", node.textJson), ("marks", node.marksJson), ("content", node.contentJson)]) := by
  have hskipped (key : String) (c : Prop) [Decidable c] (x : Json) :
      optionalField key (if c then none else some x) = if c then [] else [(key, x)] := by
    split <;> rfl
  cases node <;> simp [json, jsonAll_eq, type, attrsJson, textJson, marksJson, contentJson, contentField, children,
    optionalFields, hskipped]
  all_goals simp [optionalField]

variable {a b : RichNode}

theorem json_parts (h : a.json = b.json) :
    a.type = b.type ∧ a.attrsJson = b.attrsJson ∧ a.textJson = b.textJson ∧ a.marksJson = b.marksJson ∧
      a.contentJson = b.contentJson := by
  rw [json_eq, json_eq] at h
  simpa using fields_inj h (by simp only [List.map]) (by simp)

theorem attrsMatch_of_json (htype : a.type = b.type) (hattrs : a.attrsJson = b.attrsJson)
    (hmarks : a.marksJson = b.marksJson) (hmedia : ∀ media ∈ a.gatherMedia ++ b.gatherMedia, media.InRange) :
    a.attrsMatch b = true := by
  have hlevel {x y : Json} {key : String} (h : ofFields [(key, x)] = ofFields [(key, y)]) : x = y := by
    simpa using ofFields_inj h rfl (by simp)
  cases a <;> cases b <;> first | (simp [type] at htype; done) | rfl | skip
  case heading.heading attrs _ attrs' _ =>
    cases attrs
    cases attrs'
    simpa [attrsMatch] using u8_injective (hlevel (some.inj hattrs))
  case orderedList.orderedList attrs _ attrs' _ =>
    cases attrs
    cases attrs'
    simpa [attrsMatch] using u32_injective (hlevel (some.inj hattrs))
  case codeBlock.codeBlock => simpa [attrsMatch] using map_injective CodeBlockAttrs.json_injective hattrs
  case tableHeader.tableHeader => simpa [attrsMatch] using map_injective TableCellAttrs.json_injective hattrs
  case tableCell.tableCell => simpa [attrsMatch] using map_injective TableCellAttrs.json_injective hattrs
  case text.text _ marks _ marks' =>
    simp only [marksJson] at hmarks
    simp only [attrsMatch, decide_eq_true_eq]
    split at hmarks <;> split at hmarks
    · simp_all
    · cases hmarks
    · cases hmarks
    · exact map_injective_iff.mpr RichMark.json_injective (Json.array.inj (some.inj hmarks))
  case media.media =>
    simpa [attrsMatch] using MediaReference.json_inj (hmedia _ (by simp [gatherMedia])) (hmedia _ (by simp [gatherMedia]))
      (some.inj hattrs)

theorem children_json (htype : a.type = b.type) (hcontent : a.contentJson = b.contentJson) :
    a.children.map RichNode.json = b.children.map RichNode.json := by
  cases a <;> cases b <;> first
    | (simp [type] at htype; done)
    | rfl
    | exact Json.array.inj (some.inj hcontent)
    | skip
  all_goals
    simp only [contentJson] at hcontent
    split at hcontent <;> split at hcontent
    · simp_all [children]
    · cases hcontent
    · cases hcontent
    · exact Json.array.inj (some.inj hcontent)

theorem gatherMediaAll_eq (content : List RichNode) : gatherMediaAll content = content.flatMap gatherMedia := by
  induction content with
  | nil => rfl
  | cons child rest ih => rw [gatherMediaAll, ih, flatMap_cons]

theorem mem_gatherMedia_child {node child : RichNode} {media : MediaReference} (h : child ∈ node.children)
    (hmedia : media ∈ child.gatherMedia) : media ∈ node.gatherMedia := by
  cases node <;> simp only [children, not_mem_nil] at h
  all_goals
    rw [gatherMedia, gatherMediaAll_eq]
    exact mem_flatMap.mpr ⟨child, h, hmedia⟩

theorem eq_of_parts (hattrs : a.attrsMatch b = true) (htext : a.textJson = b.textJson)
    (hchildren : a.children = b.children) : a = b := by
  cases a <;> cases b <;> simp_all [attrsMatch, textJson, children]

theorem json_inj : ∀ {b : RichNode}, (∀ media ∈ a.gatherMedia ++ b.gatherMedia, media.InRange) →
    a.json = b.json → a = b := by
  induction a using byChildren with
  | step a ih =>
    intro b hmedia h
    obtain ⟨htype, hattrs, htext, hmarks, hcontent⟩ := json_parts h
    refine eq_of_parts (attrsMatch_of_json htype hattrs hmarks hmedia) htext ?_
    refine Json.map_inj (fun x hx y hy => ih x hx fun media hmem => hmedia media ?_) (children_json htype hcontent)
    rcases mem_append.mp hmem with hmem | hmem
    · exact mem_append_left _ (mem_gatherMedia_child hx hmem)
    · exact mem_append_right _ (mem_gatherMedia_child hy hmem)

end RichNode

/-! ### The payload -/

theorem RichContent.json_inj {a b : RichContent}
    (hmedia : ∀ media ∈ a.mediaReferences ++ b.mediaReferences, media.InRange) (h : a.json = b.json) : a = b := by
  have hmembers := ofFields_inj h (by simp only [List.map]) (by simp)
  simp only [List.cons.injEq, Prod.mk.injEq, true_and, and_true] at hmembers
  have hversion := u8_injective hmembers.1
  have hnode := RichNode.json_inj hmedia hmembers.2
  cases a
  cases b
  simp_all

theorem ContentBlock.json_eq (block : ContentBlock) :
    block.json = ofFields (optionalFields [("block_id", some block.blockId.json), ("kind", some block.kind.json),
      ("text", some (.string block.text)), ("citation_ids", some (.array (block.citationIds.map Uuid.json))),
      ("items", some (.array (block.items.map .string))), ("rich", block.rich.map RichContent.json)]) := by
  simp [json, optionalFields, optionalField]

theorem ContentBlockKind.json_injective : Function.Injective ContentBlockKind.json := by
  intro a b h
  cases a <;> cases b <;> simp_all [json]

def ContentBlock.media (block : ContentBlock) : List MediaReference :=
  block.rich.elim [] RichContent.mediaReferences

theorem ContentBlock.json_inj {a b : ContentBlock} (hmedia : ∀ media ∈ a.media ++ b.media, media.InRange)
    (h : a.json = b.json) : a = b := by
  rw [json_eq, json_eq] at h
  have hmembers := fields_inj h (by simp only [List.map]) (by simp)
  simp only [List.cons.injEq, Prod.mk.injEq, Option.some.injEq, Json.string.injEq, Json.array.injEq, true_and,
    and_true, Uuid.json_injective.eq_iff, ContentBlockKind.json_injective.eq_iff,
    (map_injective_iff.mpr Uuid.json_injective).eq_iff,
    (map_injective_iff.mpr string_injective).eq_iff] at hmembers
  obtain ⟨hid, hkind, htext, hcitations, hitems, hrich⟩ := hmembers
  have hsame : a.rich = b.rich := by
    cases ha : a.rich <;> cases hb : b.rich <;> simp only [ha, hb, map_none, map_some] at hrich
    · rfl
    · cases hrich
    · cases hrich
    · rw [RichContent.json_inj (by simpa [media, ha, hb] using hmedia) (some.inj hrich)]
  cases a
  cases b
  simp_all

theorem StructuredDocument.mediaReferences_eq (document : StructuredDocument) :
    document.mediaReferences = document.blocks.flatMap ContentBlock.media := by
  rw [mediaReferences, filterMap_eq_flatMap_toList, flatMap_assoc]
  refine flatMap_congr fun block _ => ?_
  cases hrich : block.rich <;> simp [ContentBlock.media, hrich]

theorem StructuredDocument.json_inj {a b : StructuredDocument}
    (hmedia : ∀ media ∈ a.mediaReferences ++ b.mediaReferences, media.InRange) (h : a.json = b.json) : a = b := by
  rw [mediaReferences_eq, mediaReferences_eq] at hmedia
  have hmembers := ofFields_inj h (by simp only [List.map]) (by simp)
  simp only [List.cons.injEq, Prod.mk.injEq, Json.string.injEq, Json.array.injEq, true_and, and_true,
    u8_injective.eq_iff] at hmembers
  have hblocks : a.blocks = b.blocks := by
    refine Json.map_inj (fun x hx y hy hxy => ContentBlock.json_inj (fun media hmem => hmedia media ?_) hxy) hmembers.2.1
    rcases mem_append.mp hmem with hmem | hmem
    · exact mem_append_left _ (mem_flatMap.mpr ⟨x, hx, hmem⟩)
    · exact mem_append_right _ (mem_flatMap.mpr ⟨y, hy, hmem⟩)
  cases a
  cases b
  simp_all

/-- The numbers of an item have the range of their types. -/
structure PublicationMediaItem.InRange (item : PublicationMediaItem) : Prop where
  version : -2 ^ 63 ≤ item.object.objectVersion ∧ item.object.objectVersion < 2 ^ 63
  sizes : item.byteLen < 2 ^ 64 ∧ item.width < 2 ^ 64 ∧ item.height < 2 ^ 64

theorem PublicationMediaItem.json_inj {a b : PublicationMediaItem} (ha : a.InRange) (hb : b.InRange)
    (h : a.json = b.json) : a = b := by
  have hmembers := ofFields_inj h (by simp only [List.map]) (by simp)
  simp only [List.cons.injEq, Prod.mk.injEq, Json.string.injEq, true_and, and_true,
    Uuid.json_injective.eq_iff] at hmembers
  obtain ⟨hbinding, hobject, htype, hbytes, hwidth, hheight, halt, hcaption⟩ := hmembers
  have hobjects := ofFields_inj hobject (by simp only [List.map]) (by simp)
  simp only [List.cons.injEq, Prod.mk.injEq, Json.string.injEq, true_and, and_true,
    Uuid.json_injective.eq_iff] at hobjects
  have hversion := ofInt_inj ha.version hb.version hobjects.2.1
  have hbyteLen := ofNat_inj ha.sizes.1 hb.sizes.1 hbytes
  have hwidths := ofNat_inj ha.sizes.2.1 hb.sizes.2.1 hwidth
  have hheights := ofNat_inj ha.sizes.2.2 hb.sizes.2.2 hheight
  obtain ⟨_, ⟨_, _, _⟩, _, _, _, _, _, _, ⟨⟩⟩ := a
  obtain ⟨_, ⟨_, _, _⟩, _, _, _, _, _, _, ⟨⟩⟩ := b
  simp_all

theorem RichPublicationPayload.json_inj {a b : RichPublicationPayload}
    (hdocument : ∀ media ∈ a.document.mediaReferences ++ b.document.mediaReferences, media.InRange)
    (hmedia : ∀ item ∈ a.media ++ b.media, item.InRange) (h : a.json = b.json) : a = b := by
  have hmembers := ofFields_inj h (by simp only [List.map]) (by simp)
  simp only [List.cons.injEq, Prod.mk.injEq, Json.string.injEq, Json.array.injEq, true_and, and_true,
    u8_injective.eq_iff, Uuid.json_injective.eq_iff] at hmembers
  obtain ⟨hschema, hformat, hrevision, hpolicy, hdocuments, hitems⟩ := hmembers
  have hsame := StructuredDocument.json_inj hdocument hdocuments
  have hlist : a.media = b.media := Json.map_inj (fun x hx y hy => PublicationMediaItem.json_inj
    (hmedia x (mem_append_left _ hx)) (hmedia y (mem_append_right _ hy))) hitems
  cases a
  cases b
  simp_all

/-! ### The canonical text -/

namespace Json

mutual

/-- `sort_objects`, on a value that lists its members in any order. -/
def sortObjects : Json → Json
  | .array items => .array (sortItems items)
  | .object fields => ofFields (sortFields fields)
  | value => value
termination_by structural value => value

def sortItems : List Json → List Json
  | [] => []
  | item :: rest => sortObjects item :: sortItems rest
termination_by structural items => items

def sortFields : List (String × Json) → List (String × Json)
  | [] => []
  | field :: rest => sortField field :: sortFields rest
termination_by structural fields => fields

def sortField : String × Json → String × Json
  | (key, value) => (key, sortObjects value)
termination_by structural field => field

end

theorem sortItems_eq (items : List Json) : sortItems items = items.map sortObjects := by
  induction items with
  | nil => rfl
  | cons item rest ih => rw [sortItems, ih, map_cons]

theorem sortFields_eq (fields : List (String × Json)) :
    sortFields fields = fields.map fun f => (f.1, sortObjects f.2) := by
  induction fields with
  | nil => rfl
  | cons field rest ih => rw [sortFields, ih, map_cons, sortField]

/-- The same value, with the members of its objects listed in another order. -/
inductive Reordered : Json → Json → Prop where
  | members {fields fields' : List (String × Json)} (h : fields.Perm fields')
      (hnodup : (fields.map Prod.fst).Nodup) : Reordered (.object fields) (.object fields')
  | item {x y : Json} (l r : List Json) (h : Reordered x y) : Reordered (.array (l ++ x :: r)) (.array (l ++ y :: r))
  | member {x y : Json} (key : String) (l r : List (String × Json)) (h : Reordered x y) :
      Reordered (.object (l ++ (key, x) :: r)) (.object (l ++ (key, y) :: r))
  | trans {x y z : Json} (hxy : Reordered x y) (hyz : Reordered y z) : Reordered x z

variable {fs : List (String × Json)}

/-- Objects with the same members, each key once, are the same object. -/
theorem ofFields_of_perm {gs : List (String × Json)} (h : fs.Perm gs) (hnodup : (fs.map Prod.fst).Nodup) :
    ofFields fs = ofFields gs := by
  refine congrArg object (List.Perm.eq_of_pairwise (fun f g hf hg hfg hgf => ?_) (pairwise_insertionSort _ fs)
    (pairwise_insertionSort _ gs) (((perm_insertionSort _ fs).trans h).trans (perm_insertionSort _ gs).symm))
  have hg' := h.mem_iff.mpr ((mem_insertionSort _).mp hg)
  exact inj_on_of_nodup_map hnodup ((mem_insertionSort _).mp hf) hg' (le_antisymm hfg hgf)

/-- Sorting the members forgets the order in which they were listed. -/
theorem Reordered.sortObjects_eq {x y : Json} (h : Reordered x y) : x.sortObjects = y.sortObjects := by
  induction h with
  | members h hnodup =>
    rw [sortObjects, sortObjects, sortFields_eq, sortFields_eq]
    exact ofFields_of_perm (h.map _) (by simpa [Function.comp_def] using hnodup)
  | item l r _ ih => simp only [sortObjects, sortItems_eq, map_append, map_cons, ih]
  | member key l r _ ih => simp only [sortObjects, sortFields_eq, map_append, map_cons, ih]
  | trans _ _ ihxy ihyz => exact ihxy.trans ihyz

/-- A value whose text is canonical: it determines the value, and its members are sorted. -/
structure Canonical (value : Json) : Prop where
  plain : value.Plain
  sorted : value.sortObjects = value

theorem canonical_string (s : String) : Canonical (.string s) :=
  ⟨.string s, rfl⟩

theorem canonical_ofNat (n : Nat) : Canonical (ofNat n) :=
  ⟨.posInt _, rfl⟩

theorem canonical_ofInt {n : Int} (h : -2 ^ 63 ≤ n) : Canonical (ofInt n) := by
  refine ⟨ofInt_plain h, ?_⟩
  rw [ofInt]
  split <;> rfl

theorem canonical_array {α : Type} {f : α → Json} {items : List α} (hf : ∀ x ∈ items, Canonical (f x)) :
    Canonical (.array (items.map f)) := by
  refine ⟨plain_array fun x hx => (hf x hx).plain, ?_⟩
  rw [sortObjects, sortItems_eq, List.map_map]
  exact congrArg array (List.map_congr_left fun x hx => (hf x hx).sorted)

theorem canonical_ofFields (h : ∀ f ∈ fs, Canonical f.2) : Canonical (ofFields fs) := by
  refine ⟨ofFields_plain fun f hf => (h f hf).plain, ?_⟩
  have hsorted (f : String × Json) (hf : f ∈ fs.insertionSort fun a b => a.1 ≤ b.1) : (f.1, sortObjects f.2) = f := by
    rw [(h f ((mem_insertionSort _).mp hf)).sorted]
  rw [ofFields, sortObjects, sortFields_eq, List.map_congr_left hsorted, List.map_id', ofFields,
    (pairwise_insertionSort _ fs).insertionSort_eq]

theorem canonical_optionalFields {ms : List (String × Option Json)} (h : ∀ m ∈ ms, ∀ x ∈ m.2, Canonical x) :
    Canonical (ofFields (optionalFields ms)) :=
  canonical_ofFields (optionalFields_forall h)

end Json

theorem Uuid.json_canonical (id : Uuid) : id.json.Canonical :=
  canonical_string _

theorem MediaReference.json_canonical {media : MediaReference} (h : media.InRange) : media.json.Canonical := by
  refine canonical_ofFields ?_
  simp [canonical_string, canonical_ofInt h.1, Uuid.json_canonical]

theorem TableCellAttrs.json_canonical (attrs : TableCellAttrs) : attrs.json.Canonical := by
  have halignment (alignment : CellAlignment) : alignment.json.Canonical := by
    cases alignment <;> exact canonical_string _
  rw [json_eq]
  refine canonical_optionalFields ?_
  simp [canonical_ofNat, canonical_array fun _ _ => canonical_ofNat _, halignment]

theorem CodeBlockAttrs.json_canonical (attrs : CodeBlockAttrs) : attrs.json.Canonical := by
  refine canonical_ofFields ?_
  cases attrs.language <;> simp [canonical_string, Canonical.mk Plain.null rfl]

theorem RichMark.json_canonical (mark : RichMark) : mark.json.Canonical := by
  have hlink (attrs : LinkAttrs) : attrs.json.Canonical := by
    rw [LinkAttrs.json_eq]
    refine canonical_optionalFields ?_
    simp [canonical_string]
  rw [json_eq]
  refine canonical_optionalFields ?_
  simp [canonical_string, hlink]

variable {node : RichNode}

theorem RichNode.attrsJson_canonical (hmedia : ∀ media ∈ node.gatherMedia, media.InRange) :
    ∀ x ∈ node.attrsJson, Canonical x := by
  have hnumber (key : String) (n : Nat) : (ofFields [(key, .ofNat n)]).Canonical :=
    canonical_ofFields (by simp [canonical_ofNat])
  cases node <;> simp [attrsJson, hnumber, CodeBlockAttrs.json_canonical, TableCellAttrs.json_canonical]
  exact MediaReference.json_canonical (hmedia _ (by simp [gatherMedia]))

theorem RichNode.json_canonical : (∀ media ∈ node.gatherMedia, media.InRange) → node.json.Canonical := by
  induction node using byChildren with
  | step node ih =>
    intro hmedia
    have hchildren : ∀ child ∈ node.children, child.json.Canonical := fun child hchild =>
      ih child hchild fun media hmem => hmedia media (mem_gatherMedia_child hchild hmem)
    rw [json_eq]
    refine canonical_optionalFields ?_
    simp only [forall_mem_cons, not_mem_nil, false_implies, implies_true, and_true]
    refine ⟨by simp [canonical_string], attrsJson_canonical hmedia, ?_, ?_, ?_⟩
    · cases node <;> simp [textJson, canonical_string]
    · cases node <;> simp [marksJson, canonical_array fun _ _ => RichMark.json_canonical _]
    · have hcontent := canonical_array hchildren
      cases node <;> simp_all [contentJson, children]

theorem PublicationMediaItem.json_canonical {item : PublicationMediaItem} (h : item.InRange) : item.json.Canonical := by
  have hversion := canonical_ofInt h.version.1
  have hobject : (ofFields [("object_id", item.object.objectId.json), ("object_version", .ofInt item.object.objectVersion),
      ("sha256", .string item.object.sha256)]).Canonical := by
    refine canonical_ofFields ?_
    simp [canonical_string, hversion, Uuid.json_canonical]
  refine canonical_ofFields ?_
  simp [canonical_string, canonical_ofNat, hobject, Uuid.json_canonical]

theorem ContentBlock.json_canonical {block : ContentBlock} (hmedia : ∀ media ∈ block.media, media.InRange) :
    block.json.Canonical := by
  have hkind : block.kind.json.Canonical := by cases block.kind <;> exact canonical_string _
  have hrich : ∀ content ∈ block.rich, content.json.Canonical := by
    intro content hcontent
    have hnode : content.node.json.Canonical := RichNode.json_canonical fun media hmem => hmedia media (by
      rw [ContentBlock.media, hcontent]
      exact hmem)
    exact canonical_ofFields (by simp [canonical_ofNat, hnode])
  rw [json_eq]
  refine canonical_optionalFields ?_
  simpa [canonical_string, hkind, canonical_array fun _ _ => canonical_string _,
    canonical_array fun _ _ => Uuid.json_canonical _, Uuid.json_canonical] using hrich

theorem RichPublicationPayload.json_canonical {payload : RichPublicationPayload}
    (hdocument : ∀ media ∈ payload.document.mediaReferences, media.InRange) (hmedia : ∀ item ∈ payload.media, item.InRange) :
    payload.json.Canonical := by
  rw [StructuredDocument.mediaReferences_eq] at hdocument
  have hblocks : (Json.array (payload.document.blocks.map ContentBlock.json)).Canonical :=
    canonical_array fun block hblock => ContentBlock.json_canonical fun media hmem =>
      hdocument media (mem_flatMap.mpr ⟨block, hblock, hmem⟩)
  have hitems := canonical_array fun item hitem => PublicationMediaItem.json_canonical (hmedia item hitem)
  have hdocuments : payload.document.json.Canonical := canonical_ofFields (by simp [canonical_string, canonical_ofNat, hblocks])
  refine canonical_ofFields ?_
  simp [canonical_string, canonical_ofNat, hdocuments, hitems, Uuid.json_canonical]

/-! ### The checks -/

theorem VerifiedImage.validate_range {image : VerifiedImage} (h : image.validate = .ok ()) :
    1 ≤ image.key.objectVersion ∧ image.byteLen < 2 ^ 64 ∧ image.width < 2 ^ 64 ∧ image.height < 2 ^ 64 := by
  simp only [validate, MediaObjectKey.validate, eq_ok_iff, not_or, not_lt] at h
  obtain ⟨_, ⟨_, ⟨-, hversion⟩, -⟩, _, -, _, ⟨-, hbytes⟩, -, -, hwidth, hheight, -⟩ := h
  simp only [maxUploadBytes, maxImageDimension] at hbytes hwidth hheight
  omega

/-- What the check of an occurrence finds. -/
structure Occurrence (reference : MediaReference) (item : PublicationMediaItem) : Prop where
  version : item.object.objectVersion = reference.objectVersion ∧ 1 ≤ item.object.objectVersion
  sizes : item.byteLen < 2 ^ 64 ∧ item.width < 2 ^ 64 ∧ item.height < 2 ^ 64

def PublicationMediaItem.place (item : PublicationMediaItem) : Uuid × Int :=
  (item.object.objectId, item.object.objectVersion)

/-- Occurrences that pass the check: an object that is shown again is shown alike. -/
theorem checkMediaItems_spec : ∀ {pairs : List (MediaReference × PublicationMediaItem)}
    {images images' : AssocMap (Uuid × Int) MediaIdentity}, checkMediaItems images pairs = .ok images' →
    images.entries.length ≤ maxMediaSnapshotImages → images'.entries.length ≤ maxMediaSnapshotImages ∧
      (∀ p ∈ pairs, Occurrence p.1 p.2) ∧ ∀ place image, images'.lookup place = some image ↔
        images.lookup place = some image ∨ ∃ item ∈ pairs.map Prod.snd, item.place = place ∧ item.identity = image := by
  intro pairs
  induction pairs with
  | nil =>
    intro images images' h hlimit
    obtain rfl := Except.pure_eq_ok.mp h
    simpa using hlimit
  | cons pair rest ih =>
    intro images images' h _
    simp only [checkMediaItems, eq_ok_iff, not_or, not_not, not_lt, not_exists, not_and] at h
    obtain ⟨_, ⟨-, -, -, hversion, -⟩, ⟨⟩, hvalid, _, hagrees, _, hfew, hrest⟩ := h
    obtain ⟨hcount, hall, hlookup⟩ := ih hrest hfew
    obtain ⟨hpositive, hsizes⟩ := VerifiedImage.validate_range hvalid
    refine ⟨hcount, forall_mem_cons.mpr ⟨⟨⟨hversion, hpositive⟩, hsizes⟩, hall⟩, fun place image => ?_⟩
    rw [hlookup, AssocMap.lookup_insert]
    change (if place = pair.2.place then some pair.2.identity else images.lookup place) = some image ∨ _ ↔ _
    by_cases hplace : place = pair.2.place
    · subst hplace
      have hsame : images.lookup pair.2.place = some image → image = pair.2.identity := fun h => hagrees image h
      rw [if_pos rfl]
      grind
    · rw [if_neg hplace]
      simp [Ne.symm hplace]

/-- The distinct images of some items, each shown alike wherever it is shown, are few and small enough. -/
def WithinLimits (media : List PublicationMediaItem) : Prop :=
  ∃ images : AssocMap (Uuid × Int) MediaIdentity,
    (∀ place image, images.lookup place = some image ↔ ∃ item ∈ media, item.place = place ∧ item.identity = image) ∧
      images.entries.length ≤ maxMediaSnapshotImages ∧
        ((AssocMap.values images).map MediaIdentity.byteLen).sum ≤ maxMediaSnapshotBytes

theorem validateRichMedia_spec {payload : RichPublicationPayload} (h : validateRichMedia payload = .ok ()) :
    WithinLimits payload.media ∧ payload.document.mediaReferences.length = payload.media.length ∧
      ∀ p ∈ payload.document.mediaReferences.zip payload.media, Occurrence p.1 p.2 := by
  simp only [validateRichMedia, eq_ok_iff, not_not] at h
  obtain ⟨_, hlength, images, hitems, _, hbytes, -⟩ := h
  obtain ⟨hcount, hall, hlookup⟩ := checkMediaItems_spec hitems (Nat.zero_le _)
  rw [map_snd_zip hlength.ge] at hlookup
  have hsum := foldlM_invariant (fun read total =>
    total = (read.map MediaIdentity.byteLen).sum ∧ total ≤ maxMediaSnapshotBytes) ⟨rfl, Nat.zero_le _⟩
    (fun read image total total' htotal hstep => by
      simp only [addMediaSnapshotBytes, eq_ok_iff, not_lt] at hstep
      obtain ⟨_, hle, rfl⟩ := hstep
      simpa [htotal.1] using htotal.1 ▸ hle) hbytes
  exact ⟨⟨images, by simpa using hlookup, hcount, hsum.1 ▸ hsum.2⟩, hlength, hall⟩

theorem validateRichMedia_range {payload : RichPublicationPayload} (h : validateRichMedia payload = .ok ())
    (hversions : ∀ reference ∈ payload.document.mediaReferences, reference.objectVersion < 2 ^ 63) :
    (∀ reference ∈ payload.document.mediaReferences, reference.InRange) ∧ ∀ item ∈ payload.media, item.InRange := by
  obtain ⟨-, hlength, hall⟩ := validateRichMedia_spec h
  constructor
  · intro reference hreference
    rw [← map_fst_zip hlength.le] at hreference
    obtain ⟨pair, hpair, rfl⟩ := mem_map.mp hreference
    have hversion := (hall pair hpair).version
    exact ⟨by omega, hversions _ (of_mem_zip hpair).1⟩
  · intro item hitem
    rw [← map_snd_zip hlength.ge] at hitem
    obtain ⟨pair, hpair, rfl⟩ := mem_map.mp hitem
    have hversion := (hall pair hpair).version
    have hfits := hversions _ (of_mem_zip hpair).1
    exact ⟨by omega, (hall pair hpair).sizes⟩

/-! ### What a variant is bound to -/

/-- Active in the project of a scope. -/
structure ContentMediaBinding.ActiveIn (scope : TenantScope) (binding : ContentMediaBinding) : Prop where
  owner : binding.operatorId = scope.operatorId ∧ binding.tenantId = scope.tenantId ∧
    some binding.projectId = scope.projectId
  active : binding.state = .active ∧ binding.withdrawnAt = none

/-- An item is an occurrence of an image, through the one binding of its object. -/
def Binds (scope : TenantScope) (bindings : List ContentMediaBinding) (reference : MediaReference)
    (item : PublicationMediaItem) : Prop :=
  (bindings.map (·.image.key)).count reference.key = 1 ∧ ∃ binding ∈ bindings, binding.image.key = reference.key ∧
    binding.ActiveIn scope ∧ item =
      { bindingId := binding.bindingId, object := reference.key, mediaType := binding.image.mediaType,
        byteLen := binding.image.byteLen, width := binding.image.width, height := binding.image.height,
        alt := reference.alt, caption := reference.caption, role := .image }

theorem bindingsByKey_spec {scope : TenantScope} : ∀ {bindings : List ContentMediaBinding}
    {found byKey : AssocMap MediaObjectKey ContentMediaBinding}, bindingsByKey scope found bindings = .ok byKey →
    (∀ binding ∈ bindings, binding.ActiveIn scope) ∧
      byKey.entries = (bindings.map fun binding => ⟨binding.image.key, binding⟩).reverse ++ found.entries := by
  intro bindings
  induction bindings with
  | nil =>
    intro found byKey h
    obtain rfl := pure_eq_ok.mp h
    simp
  | cons binding rest ih =>
    intro found byKey h
    simp only [bindingsByKey, eq_ok_iff, not_or, not_not] at h
    obtain ⟨_, ⟨hoperator, htenant, hproject, hstate, hwithdrawn, -⟩, _, -, _, hnew, hrest⟩ := h
    obtain ⟨hactive, hentries⟩ := ih hrest
    refine ⟨forall_mem_cons.mpr ⟨⟨⟨hoperator, htenant, hproject⟩, hstate, by simpa using hwithdrawn⟩, hactive⟩, ?_⟩
    rw [hentries, AList.entries_insert_of_notMem hnew]
    simp

theorem mapM_forall₂ {α β : Type} {f : α → Except AppError β} : ∀ {xs : List α} {ys : List β}, xs.mapM f = .ok ys →
    List.Forall₂ (fun x y => f x = .ok y) xs ys
  | [], ys, h => by
    obtain rfl := pure_eq_ok.mp h
    exact .nil
  | x :: xs, ys, h => by
    simp only [mapM_cons, eq_ok_iff] at h
    obtain ⟨y, hy, rest, hrest, rfl⟩ := h
    exact .cons hy (mapM_forall₂ hrest)

/-- What the bindings of a prepared variant are. -/
structure Bound (scope : TenantScope) (bindings : List ContentMediaBinding) (revision : ContentRevision)
    (payload : RichPublicationPayload) : Prop where
  document : payload.document = revision.document
  binds : List.Forall₂ (Binds scope bindings) revision.document.mediaReferences payload.media
  used : ∀ binding ∈ bindings, ∃ reference ∈ revision.document.mediaReferences, reference.key = binding.image.key
  limits : WithinLimits payload.media

theorem prepareRichVariantAuthorized_bound [Sha256] [UrlParser] {scope : TenantScope} {bindings : List ContentMediaBinding}
    {revision : ContentRevision} {placement : PlatformPlacement} {variant : ChannelVariant}
    (h : prepareRichVariantAuthorized revision placement scope bindings = .ok variant) :
    ∃ payload, variant.richPayload = some payload ∧ Bound scope bindings revision payload := by
  simp only [prepareRichVariantAuthorized, prepareRichVariantWithMedia, eq_ok_iff, not_not] at h
  obtain ⟨_, -, byKey, hbyKey, media, hmedia, _, hused, _, -, _, -, _, -, _, hvalid, rfl⟩ := h
  obtain ⟨hactive, hentries⟩ := bindingsByKey_spec hbyKey
  have hkeys : (bindings.map (·.image.key)).Nodup := by
    have hnodup := byKey.nodupKeys
    rw [hentries] at hnodup
    simpa [List.NodupKeys, List.keys, Function.comp_def] using hnodup
  have hlookup {key : MediaObjectKey} {binding : ContentMediaBinding} (hfound : byKey.lookup key = some binding) :
      binding ∈ bindings ∧ binding.image.key = key := by
    have hmem := AList.mem_lookup_iff.mp hfound
    rw [hentries] at hmem
    simpa [and_comm, eq_comm] using hmem
  have hbinds := mapM_forall₂ hmedia
  have hbound : List.Forall₂ (Binds scope bindings) revision.document.mediaReferences media := by
    refine hbinds.imp fun reference item hitem => ?_
    simp only [publicationMediaItem, eq_ok_iff] at hitem
    obtain ⟨_, -, binding, hfound, rfl⟩ := hitem
    obtain ⟨hmem, hkey⟩ := hlookup hfound
    have hcount := count_eq_one_of_mem hkeys (mem_map_of_mem (f := (·.image.key)) hmem)
    exact ⟨hkey ▸ hcount, binding, hmem, hkey, hactive binding hmem, rfl⟩
  have hpairs : List.Forall₂ (fun reference item => reference.key ∈ bindings.map (·.image.key) ∧
      Binds scope bindings reference item) revision.document.mediaReferences media :=
    hbound.imp fun _ _ hbinds => ⟨count_pos_iff.mp (by rw [hbinds.1]; exact Nat.one_pos), hbinds⟩
  have hnamed := ((forall₂_and_left (p := fun reference : MediaReference =>
    reference.key ∈ bindings.map (·.image.key)) _ _).mp hpairs).1
  have hsubset : (revision.document.mediaReferences.map MediaReference.key).dedup ⊆ bindings.map (·.image.key) := by
    intro key hkey
    obtain ⟨reference, hreference, rfl⟩ := mem_map.mp (mem_dedup.mp hkey)
    exact hnamed reference hreference
  -- The objects of the references are as many as the bindings.
  have hobjects := ((nodup_dedup _).subperm hsubset).perm_of_length_le (by
    rw [hused, hentries]
    simp)
  refine ⟨_, rfl, rfl, hbound, fun binding hmem => ?_, (validateRichMedia_spec hvalid).1⟩
  exact mem_map.mp (mem_dedup.mp (hobjects.mem_iff.mpr (mem_map_of_mem hmem)))

/-! ### What the identity determines -/

/-- Texts behind their lengths, as they are hashed. -/
def framed (parts : List String) : List UInt8 :=
  parts.flatMap fun part => lengthBytes (len part) ++ bytes part

theorem lengthBytes_inj {n m : Nat} (hn : n < 2 ^ 64) (hm : m < 2 ^ 64) (h : lengthBytes n = lengthBytes m) : n = m := by
  simp [lengthBytes, range_succ_eq_map, ← UInt8.toNat_inj] at h
  omega

theorem framed_inj : ∀ {ps qs : List String}, ps.length = qs.length → (∀ p ∈ ps ++ qs, len p < 2 ^ 64) →
    framed ps = framed qs → ps = qs
  | [], [], _, _, _ => rfl
  | p :: ps, q :: qs, hlength, hfits, h => by
    simp only [framed, flatMap_cons, append_assoc] at h
    obtain ⟨hlen, hrest⟩ := append_inj h (by simp [lengthBytes])
    have hsame := lengthBytes_inj (hfits p (by simp)) (hfits q (by simp)) hlen
    obtain ⟨hbytes, hrest⟩ := append_inj hrest hsame
    rw [bytes_injective hbytes, framed_inj (Nat.succ.inj hlength) (fun r hr => hfits r (by grind)) hrest]

namespace ChannelVariant

/-- What the identity of a variant is drawn from. -/
def identityParts (variant : ChannelVariant) : List String :=
  variantParts variant.contentRevisionId variant.platformId variant.placementSlot variant.policyVersion
    variant.payloadHash

/-- What its payload hash is drawn from. -/
def hashParts (variant : ChannelVariant) (payload : RichPublicationPayload) : List String :=
  ["rich-publication-payload-v2", variant.title, variant.markdown, richPublicationCanonicalJson payload]

/-- The lengths of texts and the versions of objects have the range of their types. -/
structure Fits (variant : ChannelVariant) (payload : RichPublicationPayload) : Prop where
  texts : ∀ text ∈ variant.identityParts ++ variant.hashParts payload, len text < 2 ^ 64
  versions : ∀ reference ∈ payload.document.mediaReferences, reference.objectVersion < 2 ^ 63

variable [Sha256] [UrlParser] {a b : ChannelVariant} {payload payload' : RichPublicationPayload}

theorem valid_parts (h : validateRichPublicationPayload a = .ok ()) (hpayload : a.richPayload = some payload) :
    validateRichMedia payload = .ok () ∧ digest (a.hashParts payload) = a.payloadHash ∧
      identity a.identityParts = a.variantId := by
  simp only [validateRichPublicationPayload, hpayload, eq_ok_iff, not_or, not_not] at h
  obtain ⟨_, ⟨⟩, _, -, _, -, _, hmedia, -, hhash, hidentity⟩ := h
  exact ⟨hmedia, hhash, hidentity⟩

/-- Variants with one identity publish the same, unless a digest collides on what the two are drawn from. -/
theorem same_of_variantId (ha : validateRichPublicationPayload a = .ok ()) (hb : validateRichPublicationPayload b = .ok ())
    (hpayload : a.richPayload = some payload) (hpayload' : b.richPayload = some payload') (hfits : a.Fits payload)
    (hfits' : b.Fits payload')
    (hidentity : identity a.identityParts = identity b.identityParts → framed a.identityParts = framed b.identityParts)
    (hdigest : digest (a.hashParts payload) = digest (b.hashParts payload') →
      framed (a.hashParts payload) = framed (b.hashParts payload'))
    (h : a.variantId = b.variantId) :
    a.title = b.title ∧ a.markdown = b.markdown ∧ payload.document = payload'.document ∧
      payload.media = payload'.media ∧ a.contentRevisionId = b.contentRevisionId ∧ a.platformId = b.platformId ∧
        a.placementSlot = b.placementSlot := by
  obtain ⟨hmedia, hhash, hid⟩ := valid_parts ha hpayload
  obtain ⟨hmedia', hhash', hid'⟩ := valid_parts hb hpayload'
  obtain ⟨hidentityTexts, hhashTexts⟩ := forall_mem_append.mp hfits.texts
  obtain ⟨hidentityTexts', hhashTexts'⟩ := forall_mem_append.mp hfits'.texts
  have hparts : a.identityParts = b.identityParts := framed_inj (by simp [identityParts, variantParts])
    (forall_mem_append.mpr ⟨hidentityTexts, hidentityTexts'⟩) (hidentity (by rw [hid, hid', h]))
  simp only [identityParts, variantParts, List.cons.injEq, and_true] at hparts
  obtain ⟨hrevision, hplatform, hslot, -, hpayloadHash⟩ := hparts
  have hhashes : a.hashParts payload = b.hashParts payload' := framed_inj (by simp [hashParts])
    (forall_mem_append.mpr ⟨hhashTexts, hhashTexts'⟩) (hdigest (by rw [hhash, hhash', hpayloadHash]))
  simp only [hashParts, List.cons.injEq, and_true, true_and] at hhashes
  obtain ⟨htitle, hmarkdown, htext⟩ := hhashes
  obtain ⟨hdocument, hitems⟩ := validateRichMedia_range hmedia hfits.versions
  obtain ⟨hdocument', hitems'⟩ := validateRichMedia_range hmedia' hfits'.versions
  have hjson := (RichPublicationPayload.json_canonical hdocument hitems).plain.toText_inj
    (RichPublicationPayload.json_canonical hdocument' hitems').plain htext
  obtain rfl := RichPublicationPayload.json_inj (forall_mem_append.mpr ⟨hdocument, hdocument'⟩)
    (forall_mem_append.mpr ⟨hitems, hitems'⟩) hjson
  exact ⟨htitle, hmarkdown, rfl, rfl, Uuid.toString_injective hrevision, hplatform, hslot⟩

end ChannelVariant

/-- A prepared variant is bound to the active bindings of its project and passes the check after storage. Variants that
pass it and have one identity publish the same, and the text that is hashed does not depend on the order of members. -/
theorem richPublication_exact [Sha256] [UrlParser] :
    (∀ revision placement scope bindings variant, prepareRichVariantAuthorized revision placement scope bindings = .ok variant →
      (∃ payload, variant.richPayload = some payload ∧ Bound scope bindings revision payload) ∧
        validateRichPublicationPayload variant = .ok ()) ∧
    (∀ (a b : ChannelVariant) (payload payload' : RichPublicationPayload), validateRichPublicationPayload a = .ok () →
      validateRichPublicationPayload b = .ok () → a.richPayload = some payload → b.richPayload = some payload' →
      a.Fits payload → b.Fits payload' →
      (identity a.identityParts = identity b.identityParts → framed a.identityParts = framed b.identityParts) →
      (digest (a.hashParts payload) = digest (b.hashParts payload') →
        framed (a.hashParts payload) = framed (b.hashParts payload')) → a.variantId = b.variantId →
      a.title = b.title ∧ a.markdown = b.markdown ∧ payload.document = payload'.document ∧
        payload.media = payload'.media ∧ a.contentRevisionId = b.contentRevisionId ∧ a.platformId = b.platformId ∧
          a.placementSlot = b.placementSlot) ∧
    ∀ (variant : ChannelVariant) (payload : RichPublicationPayload) (value : Json),
      validateRichPublicationPayload variant = .ok () → variant.richPayload = some payload →
      (∀ reference ∈ payload.document.mediaReferences, reference.objectVersion < 2 ^ 63) → payload.json.Reordered value → value.sortObjects.toText = richPublicationCanonicalJson payload := by
  refine ⟨fun revision placement scope bindings variant h => ⟨prepareRichVariantAuthorized_bound h, ?_⟩,
    fun a b payload payload' ha hb hpayload hpayload' hfits hfits' hidentity hdigest h =>
      ChannelVariant.same_of_variantId ha hb hpayload hpayload' hfits hfits' hidentity hdigest h,
    fun variant payload value h hpayload hversions hvalue => ?_⟩
  · exact (prepareRichVariantAuthorized_renders h).payload (prepareRichVariantAuthorized_rich h).2
  · obtain ⟨hdocument, hitems⟩ := validateRichMedia_range (ChannelVariant.valid_parts h hpayload).1 hversions
    rw [← hvalue.sortObjects_eq, (RichPublicationPayload.json_canonical hdocument hitems).sorted]
    rfl

/-! ### An article with one image -/

namespace Sample

def shownImage : MediaReference :=
  { objectId := uuid 61, objectVersion := 1, sha256 := repeat_ "a" 64, alt := "A", caption := "C" }

def shownBinding : ContentMediaBinding where
  bindingId := uuid 62
  operatorId := scope.operatorId
  tenantId := scope.tenantId
  projectId := ⟨uuid 3⟩
  image := { key := shownImage.key, mediaType := "image/png", byteLen := 9, width := 3, height := 3 }
  state := .active
  createdAt := 0
  withdrawnAt := none

def shownDocument : StructuredDocument where
  title := "T"
  blocks := [⟨uuid 60, .rich, "", [], [], some ⟨1, .media shownImage⟩⟩]
  schemaVersion := 2

def shownRevision : ContentRevision where
  revisionId := uuid 20
  assetId := uuid 24
  revision := 1
  baseRevisionId := none
  derivedFromRevisionId := none
  document := shownDocument
  markdown := shownDocument.markdown
  evidence := []
  quotes := []
  findings := []
  createdAt := 0

@[reducible] def closedLinks : UrlParser :=
  ⟨fun _ => none, fun _ _ => none⟩

attribute [local instance] secureHash closedLinks

def shownPlacement : PlatformPlacement where
  platformId := "zhihu"
  placementSlot := "article"
  capabilityVersion := "v1"
  supportedFormats := [richMarkdownFormat]
  unavailableReason := none
  fixture := false

def shownVariant : Except AppError ChannelVariant :=
  prepareRichVariantAuthorized shownRevision shownPlacement scope [shownBinding]

theorem richPublication_exact_image : ∃ variant payload, shownVariant = .ok variant ∧ variant.richPayload = some payload ∧
    Bound scope [shownBinding] shownRevision payload ∧ validateRichPublicationPayload variant = .ok () ∧
      ∀ value, payload.json.Reordered value → value.sortObjects.toText = richPublicationCanonicalJson payload := by
  obtain ⟨variant, hvariant⟩ : ∃ variant, shownVariant = .ok variant := by
    have hok : shownVariant.isOk = true := by decide +kernel
    cases h : shownVariant with
    | ok variant => exact ⟨variant, rfl⟩
    | error e => rw [h] at hok; cases hok
  obtain ⟨⟨payload, hpayload, hbound⟩, hvalid⟩ := richPublication_exact.1 _ _ _ _ _ hvariant
  refine ⟨variant, payload, hvariant, hpayload, hbound, hvalid, fun value =>
    richPublication_exact.2.2 variant payload value hvalid hpayload ?_⟩
  rw [hbound.document]
  decide

end Sample

end GeoMaster
