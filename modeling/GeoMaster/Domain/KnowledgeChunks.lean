import GeoMaster.Domain.Knowledge

/-!
# Text chunks

A text becomes chunks, one for each paragraph, with the lines and the characters each comes from. The
reader of comma-separated tables is an adapter of its own and a parameter here.
-/

namespace GeoMaster

open Text

namespace Text

/-- `str::lines`: the lines without their terminators, a line feed or a carriage return and a line
feed. An empty last line is no line. -/
def lines (s : String) : List String :=
  let parts := s.toList.splitOn '\n'
  let ended := parts.dropLast.map fun line => if line.getLast? = some '\r' then line.dropLast else line
  let last := parts.getLast?.getD []
  (if last = [] then ended else ended ++ [last]).map String.ofList

/-- `str::to_ascii_lowercase`. -/
def toAsciiLowercase (s : String) : String :=
  s.map Char.toLower

/-- `slice::chunks`: pieces of a length, the last one what is left. -/
def chunks (n : Nat) (chars : List Char) : List (List Char) :=
  (List.range ((chars.length + n - 1) / n)).map fun i => (chars.drop (i * n)).take n

end Text

/-! ### Media types -/

def normalizeMediaType (value : String) : String :=
  Text.toAsciiLowercase (trim (String.ofList ((value.toList.splitOn ';').headD value.toList)))

def isTextMediaType (value : String) : Bool :=
  normalizeMediaType value ∈ ["text/plain", "text/markdown", "text/x-markdown"]

def isSupportedKnowledgeMediaType (mediaType : String) : Bool :=
  isTextMediaType mediaType || normalizeMediaType mediaType = "text/csv"

def knowledgeParserVersion (mediaType : String) : String :=
  if normalizeMediaType mediaType = "text/csv" then "deterministic-csv-v2"
  else if isTextMediaType mediaType then "deterministic-text-v1"
  else "unsupported"

/-! ### Paragraphs -/

/-- The reading of a text, line by line: the chunks so far and the paragraph that is open. -/
structure ParagraphScan where
  chunks : List Chunk
  (paragraphStartLine paragraphStartChar : Nat)
  current : String
  (currentEndLine charOffset : Nat)

section Paragraphs

variable [Sha256]

/-- Close the open paragraph. -/
def ParagraphScan.flush (scope : TenantScope) (projectId : ProjectId) (sourceVersionId : Uuid)
    (chunkIds : Nat → Uuid) (endLine : Nat) (scan : ParagraphScan) : ParagraphScan :=
  let text := trim scan.current
  let scan := { scan with current := "" }
  if text = "" then scan
  else
    let ordinal := scan.chunks.length
    let chunk : Chunk :=
      { chunkId := chunkIds ordinal
        operatorId := scope.operatorId
        tenantId := scope.tenantId
        projectId
        sourceVersionId
        ordinal
        kind := .paragraph
        text
        textHash := sha256Hex (bytes text)
        locator := .text (.ofNat scan.paragraphStartLine) (.ofNat endLine)
          (.ofNat scan.paragraphStartChar) (.ofNat scan.charOffset)
        productIds := []
        market := none
        language := none
        extractionMethod := "deterministic_paragraph_v1" }
    { scan with chunks := scan.chunks ++ [chunk] }

/-- Read one line. A blank line closes the paragraph, another line joins it. -/
def ParagraphScan.line (scope : TenantScope) (projectId : ProjectId) (sourceVersionId : Uuid)
    (chunkIds : Nat → Uuid) (scan : ParagraphScan) (index : Nat) (line : String) : ParagraphScan :=
  let lineNumber := index + 1
  let scan :=
    if isBlank line then
      let scan := scan.flush scope projectId sourceVersionId chunkIds scan.currentEndLine
      { scan with
        paragraphStartLine := lineNumber + 1
        paragraphStartChar := scan.charOffset + line.length + 1 }
    else
      let current := if scan.current = "" then scan.current else scan.current ++ "\n"
      { scan with current := current ++ line, currentEndLine := lineNumber }
  { scan with charOffset := scan.charOffset + line.length + 1 }

def deterministicChunks (scope : TenantScope) (projectId : ProjectId) (sourceVersionId : Uuid)
    (text : String) (chunkIds : Nat → Uuid) : List Chunk :=
  let start : ParagraphScan :=
    { chunks := [], paragraphStartLine := 1, paragraphStartChar := 0, current := ""
      currentEndLine := 0, charOffset := 0 }
  let scan := ((Text.lines text).zipIdx).foldl (fun scan (line, index) =>
    scan.line scope projectId sourceVersionId chunkIds index line) start
  (scan.flush scope projectId sourceVersionId chunkIds (max scan.currentEndLine scan.paragraphStartLine)).chunks

end Paragraphs

/-! ### Parsing -/

/-- The reader of comma-separated tables: `csv_chunks`. -/
class CsvChunks where
  chunks : (scope : TenantScope) → (projectId : ProjectId) → (sourceVersionId : Uuid) →
    (text : String) → (chunkIds : Nat → Uuid) → Except AppError (List Chunk)

def parsedKnowledgeChunks [Sha256] [CsvChunks] (scope : TenantScope) (projectId : ProjectId)
    (sourceVersionId : Uuid) (text mediaType : String) (chunkIds : Nat → Uuid) : Except AppError (List Chunk) :=
  if normalizeMediaType mediaType = "text/csv" then
    CsvChunks.chunks scope projectId sourceVersionId text chunkIds
  else if isTextMediaType mediaType then
    .ok (deterministicChunks scope projectId sourceVersionId text chunkIds)
  else .error (.capabilityMissing "document_parser is not configured")

end GeoMaster
