import GeoMaster.Domain.KnowledgeChunks

/-!
# Parsed PDF documents

The parser of PDF files is an adapter apart. What it reports is a manifest with a number of pages and one
result for each page, and both are checked before they are stored. A successful page becomes chunks that
point at the page and at a range of its characters.
-/

namespace GeoMaster

open Except Text

def pdfParseSchemaVersion : String :=
  "geo.pdf.parse.v1"

def pdfMaxPages : Nat :=
  10000

def pdfMaxPageTextBytes : Nat :=
  4 * 1024 * 1024

def pdfMaxDocumentTextBytes : Nat :=
  32 * 1024 * 1024

def pdfChunkChars : Nat :=
  2000

structure PdfDocumentManifest where
  (schemaVersion inputSha256 parserVersion : String)
  pageCount : UInt32
  deriving DecidableEq

structure PdfPageText where
  page : UInt32
  text : String

inductive PdfPageResult where
  | success (page : UInt32) (text : String)
  | failure (page : UInt32) (code : String)
  deriving DecidableEq

namespace PdfPageResult

def page : PdfPageResult → UInt32
  | success page _ => page
  | failure page _ => page

def isSuccess : PdfPageResult → Bool
  | success _ _ => true
  | failure _ _ => false

def validate (result : PdfPageResult) (pageCount : UInt32) : Except AppError Unit := do
  failIf (result.page = 0 ∨ pageCount < result.page) (.invalidRequest "PDF page is outside the manifest")
  match result with
  | success _ text =>
    failIf (isBlank text ∨ pdfMaxPageTextBytes < len text) (.invalidRequest "PDF page text is empty or too large")
  | failure _ code =>
    failIf (code ∉ ["ocr_required", "empty_text", "parse_failed", "page_limit"])
      (.invalidRequest "unknown PDF page failure code")

end PdfPageResult

def PdfDocumentManifest.validate (manifest : PdfDocumentManifest) (inputSha256 profile : String) :
    Except AppError Unit :=
  failIf (manifest.schemaVersion ≠ pdfParseSchemaVersion
      ∨ manifest.inputSha256 ≠ inputSha256 ∨ manifest.parserVersion ≠ profile
      ∨ manifest.pageCount = 0 ∨ pdfMaxPages < manifest.pageCount.toNat)
    (.invalidRequest "PDF manifest does not match verified input")

def pdfDocumentErrorCode (code : String) : Bool :=
  code ∈ ["invalid_pdf", "encrypted_pdf", "parse_failed", "page_limit"]

/-- A number that has to fit 32 unsigned bits. -/
def offset32 (n : Nat) (message : String) : Except AppError UInt32 :=
  if n < UInt32.size then .ok (.ofNat n) else .error (.invalidRequest message)

section Chunks

variable [Sha256]

/-- The chunk of one piece of a page, unless the piece is blank. -/
def pdfPageChunk (scope : TenantScope) (projectId : ProjectId) (sourceVersionId : Uuid)
    (page : PdfPageText) (firstOrdinal : Nat) (chunkIds : Nat → Uuid) (chunks : List Chunk)
    (start : Nat) (part : List Char) : Except AppError (List Chunk) := do
  let text := String.ofList part
  if isBlank text then pure chunks
  else do
    let startChar ← offset32 (start * pdfChunkChars) "PDF character offset exceeds limit"
    let endChar ← offset32 (start * pdfChunkChars + part.length) "PDF character offset exceeds limit"
    let ordinal := firstOrdinal + chunks.length
    let chunk : Chunk :=
      { chunkId := chunkIds ordinal
        operatorId := scope.operatorId
        tenantId := scope.tenantId
        projectId
        sourceVersionId
        ordinal
        kind := .paragraph
        text
        textHash := sha256Hex (bytes text)
        locator := .pdf page.page none false (some startChar) (some endChar)
        productIds := []
        market := none
        language := none
        extractionMethod := "pdf_text_v1" }
    pure (chunks ++ [chunk])

def pdfPageChunks (scope : TenantScope) (sourceVersionId : Uuid) (page : PdfPageText)
    (firstOrdinal : Nat) (chunkIds : Nat → Uuid) : Except AppError (List Chunk) := do
  failIf (page.page = 0 ∨ pdfMaxPageTextBytes < len page.text) (.invalidRequest "invalid PDF page text")
  let projectId ← okOr scope.projectId (.invalidRequest "project_id is required")
  (Text.chunks pdfChunkChars page.text.toList).zipIdx.foldlM (fun chunks (part, start) =>
    pdfPageChunk scope projectId sourceVersionId page firstOrdinal chunkIds chunks start part) []

end Chunks

end GeoMaster
