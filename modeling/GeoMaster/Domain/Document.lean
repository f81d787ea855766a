import GeoMaster.Domain.Evidence
import GeoMaster.Domain.RichContent

/-!
# Structured documents

A content revision holds a document of blocks: headings, paragraphs, lists and rich nodes. The
document has a structural validation against the evidence prepared for it and a Markdown rendering,
with or without its title.
-/

namespace GeoMaster

open Except Text

inductive ContentBlockKind where
  | heading
  | paragraph
  | list
  | rich
  deriving DecidableEq

structure ContentBlock where
  blockId : Uuid
  kind : ContentBlockKind
  text : String
  citationIds : List Uuid
  items : List String
  rich : Option RichContent
  deriving DecidableEq

structure StructuredDocument where
  title : String
  blocks : List ContentBlock
  schemaVersion : UInt8
  deriving DecidableEq

structure ContentEvidence where
  reference : EvidenceRef
  exactQuote : String
  deriving DecidableEq

structure ContentFinding where
  findingId : Uuid
  code : String
  blockId : Option Uuid
  evidence : List EvidenceRef
  detail : String
  blocking : Bool
  deriving DecidableEq

structure ContentRevision where
  (revisionId assetId : Uuid)
  revision : Int
  (baseRevisionId derivedFromRevisionId : Option Uuid)
  document : StructuredDocument
  markdown : String
  evidence : List EvidenceRef
  quotes : List ContentEvidence
  findings : List ContentFinding
  createdAt : DateTime
  deriving DecidableEq

structure ContentCheck where
  (checkId revisionId : Uuid)
  findings : List ContentFinding
  createdAt : DateTime

structure ContentAsset where
  (assetId executionId itemId currentRevisionId : Uuid)
  createdAt : DateTime

namespace ContentBlock

/-- The checks of one block, and what it adds to the node and byte counts. -/
def validate [UrlParser] (block : ContentBlock) : Except AppError (Nat × Nat) := do
  let added ←
    if block.kind = .rich then do
      failIf (block.text ≠ "" ∨ block.items ≠ []) (.invalidRequest "rich block requires empty text/items")
      let rich ← okOr block.rich (.invalidRequest "rich block requires a node")
      rich.validate
      pure rich.complexity
    else do
      failIf block.rich.isSome (.invalidRequest "only rich blocks contain rich nodes")
      pure (0, 0)
  failIf (block.kind ≠ .list ∧ block.items ≠ []) (.invalidRequest "only list blocks contain items")
  failIf (block.kind = .list ∧ block.items = []) (.invalidRequest "list blocks require items")
  failIf (block.kind ≠ .rich ∧ isBlank block.text ∧ block.items = []) (.invalidRequest "empty block")
  pure (added.1 + 1, added.2 + len block.text + (block.items.map len).sum)

/-- The Markdown of a block, with the blank line after it. -/
def markdown (block : ContentBlock) : String :=
  match block.kind with
  | .rich => block.rich.elim "" RichContent.markdown
  | .heading => "## " ++ escapeMarkdown block.text ++ "\n\n"
  | .paragraph => escapeMarkdown block.text ++ "\n\n"
  | .list =>
    (if block.text = "" then "" else escapeMarkdown block.text ++ "\n\n")
      ++ String.join (block.items.map fun item => "- " ++ escapeMarkdown item ++ "\n") ++ "\n"

end ContentBlock

namespace StructuredDocument

variable (document : StructuredDocument)

def requiresRichPublication : Bool :=
  document.blocks.any fun block => block.kind = .rich

def mediaReferences : List MediaReference :=
  (document.blocks.filterMap (·.rich)).flatMap RichContent.mediaReferences

/-- The checks of the blocks in order, with the block ids seen so far and the running counts. -/
def validateBlocks [UrlParser] (evidence : List EvidenceRef) (seen : List Uuid)
    (nodeCount textBytes : Nat) : List ContentBlock → Except AppError Unit
  | [] => pure ()
  | block :: rest => do
    failIf (block.blockId ∈ seen) (.invalidRequest "duplicate block id")
    let (nodes, bytes) ← block.validate
    failIf (nodeCount + nodes > maxNodes ∨ textBytes + bytes > maxTextBytes)
      (.invalidRequest "document node or text limit exceeded")
    failIf (block.citationIds.any fun id => !evidence.any fun e => e.chunkId = some id)
      (.invalidRequest "citation is outside the prepared evidence set")
    validateBlocks evidence (block.blockId :: seen) (nodeCount + nodes) (textBytes + bytes) rest

/-- Structural validation alone does not authorize referenced media objects. -/
def validate [UrlParser] (document : StructuredDocument) (evidence : List EvidenceRef) : Except AppError Unit := do
  failIf (document.schemaVersion ≠ 2) (.invalidRequest "unsupported content schema version")
  failIf (isBlank document.title ∨ document.blocks = []) (.invalidRequest "document title and blocks are required")
  failIf (len document.title > 4096 ∨ document.blocks.length > maxNodes)
    (.invalidRequest "document title or block count limit exceeded")
  validateBlocks evidence [] 0 (len document.title) document.blocks

/-- The blocks, after the title or without it, and no white space at the end. -/
def renderRichMarkdown (includeTitle : Bool) : String :=
  trimEnd
    ((if includeTitle then "# " ++ escapeMarkdown document.title ++ "\n\n" else "")
      ++ String.join (document.blocks.map ContentBlock.markdown))

def markdown : String :=
  document.renderRichMarkdown true

/-- The persisted blocks without the document's internal title. -/
def markdownBody : String :=
  document.renderRichMarkdown false

end StructuredDocument

end GeoMaster
