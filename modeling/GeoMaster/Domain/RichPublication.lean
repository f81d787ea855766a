import GeoMaster.Domain.Publication
import GeoMaster.Lib.AssocMap

/-!
# Checking a rich publication

A rich variant is checked after storage: its document must be structurally valid, its media list must
repeat the document's media in order and name each object consistently, and its hash and identity
must be those of the payload. The hash covers the canonical JSON of the payload, so the JSON of
every part is spelled out here.
-/

namespace GeoMaster

open Except

/-! ### JSON of the payload -/

def Uuid.json (u : Uuid) : Json :=
  .string u.toString

def LinkAttrs.json (attrs : LinkAttrs) : Json :=
  .ofFields ([("href", .string attrs.href)] ++ Json.optionalField "title" (attrs.title.map .string))

def RichMark.json : RichMark → Json
  | .bold => .ofFields [("type", .string "bold")]
  | .italic => .ofFields [("type", .string "italic")]
  | .strike => .ofFields [("type", .string "strike")]
  | .underline => .ofFields [("type", .string "underline")]
  | .code => .ofFields [("type", .string "code")]
  | .link attrs => .ofFields [("type", .string "link"), ("attrs", attrs.json)]

def CellAlignment.json : CellAlignment → Json
  | .left => .string "left"
  | .center => .string "center"
  | .right => .string "right"

def CodeBlockAttrs.json (attrs : CodeBlockAttrs) : Json :=
  .ofFields [("language", attrs.language.elim .null .string)]

def TableCellAttrs.json (attrs : TableCellAttrs) : Json :=
  .ofFields
    ([("colspan", .ofNat attrs.colspan.toNat), ("rowspan", .ofNat attrs.rowspan.toNat)]
      ++ Json.optionalField "colwidth" (attrs.colwidth.map fun widths => .array (widths.map fun w => .ofNat w.toNat))
      ++ Json.optionalField "textAlign" (attrs.alignment.map CellAlignment.json))

def MediaReference.json (media : MediaReference) : Json :=
  .ofFields
    [("object_id", media.objectId.json), ("object_version", .ofInt media.objectVersion),
      ("sha256", .string media.sha256), ("alt", .string media.alt), ("caption", .string media.caption)]

namespace RichNode

/-- The children of a node that leaves an empty list out. -/
def contentField (content : List Json) : List (String × Json) :=
  if content.isEmpty then [] else [("content", .array content)]

mutual

def json : RichNode → Json
  | .paragraph content => .ofFields ([("type", .string "paragraph")] ++ contentField (jsonAll content))
  | .heading attrs content =>
    .ofFields
      ([("type", .string "heading"), ("attrs", .ofFields [("level", .ofNat attrs.level.toNat)])]
        ++ contentField (jsonAll content))
  | .text value marks =>
    .ofFields
      ([("type", .string "text"), ("text", .string value)]
        ++ if marks.isEmpty then [] else [("marks", .array (marks.map RichMark.json))])
  | .hardBreak => .ofFields [("type", .string "hardBreak")]
  | .bulletList content => .ofFields [("type", .string "bulletList"), ("content", .array (jsonAll content))]
  | .orderedList attrs content =>
    .ofFields
      [("type", .string "orderedList"), ("attrs", .ofFields [("start", .ofNat attrs.start.toNat)]),
        ("content", .array (jsonAll content))]
  | .listItem content => .ofFields [("type", .string "listItem"), ("content", .array (jsonAll content))]
  | .codeBlock attrs content =>
    .ofFields
      ([("type", .string "codeBlock")] ++ Json.optionalField "attrs" (attrs.map CodeBlockAttrs.json)
        ++ [("content", .array (jsonAll content))])
  | .table content => .ofFields [("type", .string "table"), ("content", .array (jsonAll content))]
  | .tableRow content => .ofFields [("type", .string "tableRow"), ("content", .array (jsonAll content))]
  | .tableHeader attrs content =>
    .ofFields
      ([("type", .string "tableHeader")] ++ Json.optionalField "attrs" (attrs.map TableCellAttrs.json)
        ++ [("content", .array (jsonAll content))])
  | .tableCell attrs content =>
    .ofFields
      ([("type", .string "tableCell")] ++ Json.optionalField "attrs" (attrs.map TableCellAttrs.json)
        ++ [("content", .array (jsonAll content))])
  | .media attrs => .ofFields [("type", .string "media"), ("attrs", attrs.json)]
termination_by structural node => node

def jsonAll : List RichNode → List Json
  | [] => []
  | child :: rest => json child :: jsonAll rest
termination_by structural content => content

end

end RichNode

def RichContent.json (content : RichContent) : Json :=
  .ofFields [("version", .ofNat content.version.toNat), ("node", content.node.json)]

def ContentBlockKind.json : ContentBlockKind → Json
  | .heading => .string "heading"
  | .paragraph => .string "paragraph"
  | .list => .string "list"
  | .rich => .string "rich"

def ContentBlock.json (block : ContentBlock) : Json :=
  .ofFields
    ([("block_id", block.blockId.json), ("kind", block.kind.json), ("text", .string block.text),
        ("citation_ids", .array (block.citationIds.map Uuid.json)), ("items", .array (block.items.map .string))]
      ++ Json.optionalField "rich" (block.rich.map RichContent.json))

def StructuredDocument.json (document : StructuredDocument) : Json :=
  .ofFields
    [("title", .string document.title), ("blocks", .array (document.blocks.map ContentBlock.json)),
      ("schema_version", .ofNat document.schemaVersion.toNat)]

def PublicationMediaItem.json (item : PublicationMediaItem) : Json :=
  .ofFields
    [("binding_id", item.bindingId.json),
      ("object",
        .ofFields
          [("object_id", item.object.objectId.json), ("object_version", .ofInt item.object.objectVersion),
            ("sha256", .string item.object.sha256)]),
      ("media_type", .string item.mediaType), ("byte_len", .ofNat item.byteLen),
      ("width", .ofNat item.width), ("height", .ofNat item.height), ("alt", .string item.alt),
      ("caption", .string item.caption), ("role", .string "image")]

def RichPublicationPayload.json (payload : RichPublicationPayload) : Json :=
  .ofFields
    [("schema_version", .ofNat payload.schemaVersion.toNat), ("format", .string payload.format),
      ("content_revision_id", payload.contentRevisionId.json), ("policy_version", .string payload.policyVersion),
      ("document", payload.document.json), ("media", .array (payload.media.map PublicationMediaItem.json))]

def richPublicationCanonicalJson (payload : RichPublicationPayload) : String :=
  payload.json.toText

def richPayloadHash [Sha256] (payload : RichPublicationPayload) (title markdown : String) : String :=
  digest ["rich-publication-payload-v2", title, markdown, richPublicationCanonicalJson payload]

/-! ### The checks -/

def addMediaSnapshotBytes (current additional : Nat) : Except AppError Nat := do
  failIf (current + additional > maxMediaSnapshotBytes) (.invalidRequest "media export is too large")
  pure (current + additional)

/-- What must agree between two occurrences of one object. -/
structure MediaIdentity where
  sha256 : String
  bindingId : Uuid
  mediaType : String
  (byteLen width height : Nat)
  deriving DecidableEq

def PublicationMediaItem.identity (item : PublicationMediaItem) : MediaIdentity :=
  { sha256 := item.object.sha256
    bindingId := item.bindingId
    mediaType := item.mediaType
    byteLen := item.byteLen
    width := item.width
    height := item.height }

/-- The items against the media of the document, in order, with the objects named so far. -/
def checkMediaItems (identities : AssocMap (Uuid × Int) MediaIdentity) :
    List (MediaReference × PublicationMediaItem) →
      Except AppError (AssocMap (Uuid × Int) MediaIdentity)
  | [] => pure identities
  | (reference, item) :: rest => do
    failIf
      (item.bindingId.isNil ∨ item.role ≠ .image ∨ item.object.objectId ≠ reference.objectId
        ∨ item.object.objectVersion ≠ reference.objectVersion
        ∨ item.object.sha256 ≠ reference.sha256 ∨ item.alt ≠ reference.alt
        ∨ item.caption ≠ reference.caption)
      (.invalidRequest "rich publication media differs")
    VerifiedImage.validate
      { key := item.object
        mediaType := item.mediaType
        byteLen := item.byteLen
        width := item.width
        height := item.height }
    let key := (item.object.objectId, item.object.objectVersion)
    failIf (∃ previous ∈ identities.lookup key, previous ≠ item.identity)
      (.invalidRequest "conflicting media object identity in publication")
    let identities := identities.insert key item.identity
    failIf (identities.entries.length > maxMediaSnapshotImages)
      (.invalidRequest "too many distinct publication images")
    checkMediaItems identities rest

def validateRichMedia (payload : RichPublicationPayload) : Except AppError Unit := do
  let references := payload.document.mediaReferences
  failIf (references.length ≠ payload.media.length) (.invalidRequest "rich publication media count differs")
  let identities ← checkMediaItems ∅ (references.zip payload.media)
  let _ ← (AssocMap.values identities).foldlM (fun total media => addMediaSnapshotBytes total media.byteLen) 0

/-- The immutable rich variant after storage: its internal structure and identity, not whether its
media is still authorized. -/
def validateRichPublicationPayload [Sha256] [UrlParser] (variant : ChannelVariant) : Except AppError Unit := do
  let payload ← okOr variant.richPayload (.invalidRequest "rich publication payload missing")
  failIf
    (payload.schemaVersion ≠ 2 ∨ payload.format ≠ richMarkdownFormat ∨ payload.policyVersion ≠ richChannelVariantPolicy
      ∨ variant.policyVersion ≠ payload.policyVersion
      ∨ variant.contentRevisionId ≠ payload.contentRevisionId
      ∨ payload.document.schemaVersion ≠ 2
      ∨ payload.document.title ≠ variant.title)
    (.invalidRequest "rich publication format or revision differs")
  payload.document.validate variant.evidence
  validateRichMedia payload
  failIf
    (payload.document.markdown ≠ variant.markdown
      ∨ richPayloadHash payload variant.title variant.markdown ≠ variant.payloadHash
      ∨ identity
        [variant.contentRevisionId.toString, variant.platformId, variant.placementSlot,
          variant.policyVersion, variant.payloadHash] ≠ variant.variantId)
    (.invalidRequest "rich publication identity differs")

namespace PublicationBundle

/-- The coverage target the origin stands for, nil for a request. -/
def expectedTarget (bundle : PublicationBundle) : Except AppError Uuid :=
  match bundle.origin with
  | .coverageTarget target => do
    failIf
      (¬ (target.publicationIntentId = some bundle.intent.intentId ∧ target.variantId = some bundle.variant.variantId
        ∧ target.contentRevisionId = some bundle.revision.revisionId
        ∧ target.accountId = some bundle.intent.accountId))
      (.conflict "publication origin is inconsistent")
    pure target.targetId
  | .contentRequest request => do
    failIf
      (¬ (request.publicationIntentId = some bundle.intent.intentId
        ∧ request.scope.projectId = some bundle.intent.projectId
        ∧ request.contentRevisionId = bundle.revision.revisionId
        ∧ request.accountId = bundle.intent.accountId
        ∧ request.platformId = bundle.variant.platformId
        ∧ request.placementSlot = bundle.variant.placementSlot))
      (.conflict "publication origin is inconsistent")
    pure Uuid.nil

/-- The variant against the revision it renders. -/
def validateRevision [Sha256] [UrlParser] (bundle : PublicationBundle) : Except AppError Unit :=
  match bundle.variant.richPayload with
  | some payload => do
    validateRichPublicationPayload bundle.variant
    failIf
      (bundle.variant.contentRevisionId ≠ bundle.revision.revisionId ∨ payload.document ≠ bundle.revision.document
        ∨ bundle.variant.markdown ≠ bundle.revision.markdown)
      (.conflict "rich publication revision differs")
  | none => do
    failIf bundle.revision.document.requiresRichPublication (.conflict "rich publication payload is missing")
    failIf
      (bundle.variant.placementSlot = "short_post"
        ∧ (bundle.variant.markdown ≠ bundle.revision.document.markdownBody
          ∨ bundle.variant.title ≠ bundle.revision.document.title))
      (.conflict "short publication revision differs")

def validateOrigin [Sha256] [UrlParser] (bundle : PublicationBundle) : Except AppError Unit := do
  bundle.validateRevision
  let expected ← bundle.expectedTarget
  failIf
    (bundle.intent.channelTargetId ≠ expected ∨ bundle.command.targetId ≠ expected
      ∨ bundle.command.intentId ≠ bundle.intent.intentId
      ∨ bundle.command.payloadHash ≠ bundle.intent.payloadHash
      ∨ bundle.intent.payloadHash ≠ bundle.variant.payloadHash
      ∨ bundle.intent.variantId ≠ bundle.variant.variantId
      ∨ bundle.intent.platformId ≠ bundle.variant.platformId
      ∨ bundle.intent.placementSlot ≠ bundle.variant.placementSlot)
    (.conflict "publication origin binding differs")

end PublicationBundle

end GeoMaster
