import GeoMaster.Domain.PdfParse

/-!
# Parsed Office documents

A document is parsed in units: a block of body elements of a text document, or a block of rows of a
worksheet. The manifest lists the units, each unit has one result, and both are checked before they are
stored. Every paragraph and every cell of a successful unit becomes chunks that name its place.
-/

namespace GeoMaster

open Except Text

def officeParseSchemaVersion : String :=
  "geo.office.parse.v1"

def officeMaxUnits : Nat :=
  20000

def officeMaxUnitTextBytes : Nat :=
  4 * 1024 * 1024

def officeMaxDocumentTextBytes : Nat :=
  32 * 1024 * 1024

def officeDocxBlockElements : Nat :=
  64

def officeXlsxBlockRows : Nat :=
  128

def officeChunkChars : Nat :=
  2000

namespace OfficeFormat

def mediaType : OfficeFormat → String
  | docx => "application/vnd.openxmlformats-officedocument.wordprocessingml.document"
  | xlsx => "application/vnd.openxmlformats-officedocument.spreadsheetml.sheet"

def extractionMethod : OfficeFormat → String
  | docx => "docx-structure-v1"
  | xlsx => "xlsx-cells-v1"

/-- The name in lowercase, as it is debug-printed. -/
def name : OfficeFormat → String
  | docx => "docx"
  | xlsx => "xlsx"

end OfficeFormat

/-! ### Manifests -/

structure DocxUnit where
  (unitId startBodyElement endBodyElement : UInt32)
  deriving DecidableEq

structure XlsxUnit where
  unitId : UInt32
  sheetName : String
  (sheetIndex startRow endRow : UInt32)
  deriving DecidableEq

inductive OfficeDocumentStructure where
  | docx (units : List DocxUnit)
  | xlsx (units : List XlsxUnit)
  deriving DecidableEq

structure OfficeDocumentManifest where
  (schemaVersion inputSha256 parserVersion mediaType : String)
  document : OfficeDocumentStructure
  deriving DecidableEq

namespace OfficeDocumentManifest

variable (manifest : OfficeDocumentManifest)

def format : OfficeFormat :=
  match manifest.document with
  | .docx _ => .docx
  | .xlsx _ => .xlsx

/-- The identifiers of the units, in order. -/
def unitIds : List UInt32 :=
  match manifest.document with
  | .docx units => units.map DocxUnit.unitId
  | .xlsx units => units.map XlsxUnit.unitId

def unitCount : Nat :=
  manifest.unitIds.length

def containsUnit (unitId : UInt32) : Bool :=
  unitId ∈ manifest.unitIds

/-- The blocks of a text document follow each other without a gap. -/
def validateDocx (ordinal next : Nat) : List DocxUnit → Except AppError Unit
  | [] => .ok ()
  | unit :: rest => do
    failIf (unit.unitId.toNat ≠ ordinal ∨ unit.startBodyElement.toNat ≠ next ∨ unit.endBodyElement.toNat < next
        ∨ officeDocxBlockElements ≤ unit.endBodyElement.toNat - next)
      (.invalidRequest "invalid DOCX body-element block")
    failIf (UInt32.size ≤ unit.endBodyElement.toNat + 1) (.invalidRequest "DOCX body-element index exceeds limit")
    validateDocx (ordinal + 1) (unit.endBodyElement.toNat + 1) rest

/-- The row blocks of a workbook ascend, by sheet and then by row. -/
def validateXlsx (ordinal : Nat) (previous : Option (UInt32 × UInt32)) : List XlsxUnit → Except AppError Unit
  | [] => .ok ()
  | unit :: rest => do
    failIf (unit.unitId.toNat ≠ ordinal ∨ unit.sheetName = "" ∨ 256 < len unit.sheetName
        ∨ unit.startRow = 0 ∨ unit.endRow < unit.startRow
        ∨ officeXlsxBlockRows ≤ unit.endRow.toNat - unit.startRow.toNat
        ∨ ∃ p ∈ previous, unit.sheetIndex < p.1 ∨ (unit.sheetIndex = p.1 ∧ unit.startRow ≤ p.2))
      (.invalidRequest "invalid XLSX worksheet row block")
    validateXlsx (ordinal + 1) (some (unit.sheetIndex, unit.endRow)) rest

def validate (inputSha256 profile : String) : Except AppError Unit := do
  failIf (manifest.schemaVersion ≠ officeParseSchemaVersion
      ∨ manifest.inputSha256 ≠ inputSha256 ∨ manifest.parserVersion ≠ profile
      ∨ manifest.mediaType ≠ manifest.format.mediaType ∨ manifest.unitCount = 0
      ∨ officeMaxUnits < manifest.unitCount)
    (.invalidRequest "Office manifest does not match verified input")
  match manifest.document with
  | .docx units => validateDocx 0 0 units
  | .xlsx units => validateXlsx 0 none units

end OfficeDocumentManifest

/-! ### Units -/

structure DocxTableCell where
  columnIndex : UInt32
  text : String
  (rowSpan colSpan : UInt32)
  merged : Bool
  deriving DecidableEq

structure DocxTableRow where
  rowIndex : UInt32
  cells : List DocxTableCell
  deriving DecidableEq

inductive DocxElement where
  | paragraph (bodyElementIndex paragraphIndex : UInt32) (headingPath : List String) (text : String)
  | table (bodyElementIndex tableIndex : UInt32) (headingPath : List String) (rows : List DocxTableRow)
  deriving DecidableEq

inductive XlsxCellKind where
  | string
  | number
  | boolean
  | date
  | error
  | formulaCached
  deriving DecidableEq

inductive XlsxCachedValueKind where
  | string
  | number
  | boolean
  | date
  | error
  deriving DecidableEq

structure XlsxCell where
  reference : String
  column : UInt32
  kind : XlsxCellKind
  value : String
  (displayValue formula : Option String)
  cachedKind : Option XlsxCachedValueKind
  (cachedValue mergedRange : Option String)
  deriving DecidableEq

structure XlsxRow where
  row : UInt32
  cells : List XlsxCell
  headerRange : Option String
  deriving DecidableEq

inductive OfficeUnitResult where
  | docxSuccess (unitId : UInt32) (elements : List DocxElement)
  | xlsxSuccess (unitId : UInt32) (rows : List XlsxRow)
  | failure (unitId : UInt32) (code : String)
  deriving DecidableEq

/-! ### Serialized units -/

namespace XlsxCellKind

/-- The snake-case name in JSON. -/
def json : XlsxCellKind → String
  | string => "string"
  | number => "number"
  | boolean => "boolean"
  | date => "date"
  | error => "error"
  | formulaCached => "formula_cached"

/-- The name as it is debug-printed, in lowercase. -/
def lower : XlsxCellKind → String
  | formulaCached => "formulacached"
  | kind => kind.json

end XlsxCellKind

/-- The name of a kind, the same in JSON and debug-printed in lowercase. -/
def XlsxCachedValueKind.json : XlsxCachedValueKind → String
  | string => "string"
  | number => "number"
  | boolean => "boolean"
  | date => "date"
  | error => "error"

namespace DocxElement

def bodyIndex : DocxElement → UInt32
  | paragraph index _ _ _ => index
  | table index _ _ _ => index

/-- The element as `serde` writes it, fields in their declared order. -/
def json : DocxElement → Json
  | paragraph bodyElementIndex paragraphIndex headingPath text =>
    .object [("kind", .string "paragraph"), ("body_element_index", .ofNat bodyElementIndex.toNat),
      ("paragraph_index", .ofNat paragraphIndex.toNat),
      ("heading_path", .array (headingPath.map .string)), ("text", .string text)]
  | table bodyElementIndex tableIndex headingPath rows =>
    .object [("kind", .string "table"), ("body_element_index", .ofNat bodyElementIndex.toNat),
      ("table_index", .ofNat tableIndex.toNat), ("heading_path", .array (headingPath.map .string)),
      ("rows", .array (rows.map fun row =>
        .object [("row_index", .ofNat row.rowIndex.toNat),
          ("cells", .array (row.cells.map fun cell =>
            .object [("column_index", .ofNat cell.columnIndex.toNat), ("text", .string cell.text),
              ("row_span", .ofNat cell.rowSpan.toNat), ("col_span", .ofNat cell.colSpan.toNat),
              ("merged", .bool cell.merged)]))]))]

end DocxElement

/-- The cell as `serde` writes it. -/
def XlsxCell.json (cell : XlsxCell) : Json :=
  .object ([("reference", .string cell.reference), ("column", .ofNat cell.column.toNat),
      ("kind", .string cell.kind.json), ("value", .string cell.value)]
    ++ Json.optionalField "display_value" (cell.displayValue.map .string)
    ++ Json.optionalField "formula" (cell.formula.map .string)
    ++ Json.optionalField "cached_kind" (cell.cachedKind.map fun kind => .string kind.json)
    ++ Json.optionalField "cached_value" (cell.cachedValue.map .string)
    ++ Json.optionalField "merged_range" (cell.mergedRange.map .string))

/-- The row as `serde` writes it. -/
def XlsxRow.json (row : XlsxRow) : Json :=
  .object ([("row", .ofNat row.row.toNat), ("cells", .array (row.cells.map XlsxCell.json))]
    ++ Json.optionalField "header_range" (row.headerRange.map .string))

/-! ### Validation of a unit -/

def officeUnitErrorCode (code : String) : Bool :=
  code ∈ ["parse_failed", "unit_limit", "empty_text", "unsupported_content"]

def officeDocumentErrorCode (code : String) : Bool :=
  code ∈ ["invalid_docx", "invalid_xlsx", "encrypted_office", "parse_failed", "unit_limit", "unsupported_content"]

/-- The letters of a column, counted from one. The fuel bounds the number of letters. -/
def xlsxColumnLetters (fuel column : Nat) : List Char :=
  match fuel with
  | 0 => []
  | fuel + 1 =>
    if column = 0 then []
    else xlsxColumnLetters fuel ((column - 1) / 26) ++ [Char.ofNat (65 + (column - 1) % 26)]

/-- A 32-bit column has seven letters at most. -/
def xlsxCellReference (column row : UInt32) : String :=
  String.ofList (xlsxColumnLetters 7 column.toNat) ++ toString row.toNat

/-- `str::parse::<u32>`. -/
def parseU32 (chars : List Char) : Option Nat :=
  let digits := if chars.head? = some '+' then chars.tail else chars
  let value := digits.foldl (fun n c => 10 * n + (c.toNat - 48)) 0
  if digits ≠ [] ∧ digits.all isAsciiDigit ∧ value < UInt32.size then some value else none

/-- The column of a cell reference. -/
def xlsxColumnOf (reference : List Char) : Option Nat :=
  let letters := reference.takeWhile fun c => 'A' ≤ c && c ≤ 'Z'
  let column := letters.foldl (fun n c => 26 * n + (c.toNat - 64)) 0
  match parseU32 (reference.drop letters.length) with
  | some row => if letters ≠ [] ∧ column < UInt32.size ∧ 0 < row then some column else none
  | none => none

def xlsxHeaderCoversColumn (range : String) (column : UInt32) : Bool :=
  let first := range.toList.takeWhile (· ≠ ':')
  if first.length = range.toList.length then false
  else
    match xlsxColumnOf first, xlsxColumnOf (range.toList.drop (first.length + 1)) with
    | some first, some last => first ≤ column.toNat && column.toNat ≤ last
    | _, _ => false

/-- Numbers of which each is larger than the one before. -/
def ascends (last : Option UInt32) : List UInt32 → Bool
  | [] => true
  | n :: rest => last.all (· < n) && ascends (some n) rest

namespace OfficeUnitResult

def unitId : OfficeUnitResult → UInt32
  | docxSuccess id _ => id
  | xlsxSuccess id _ => id
  | failure id _ => id

def isSuccess : OfficeUnitResult → Bool
  | failure _ _ => false
  | _ => true

/-- The result as `serde` writes it. -/
def json : OfficeUnitResult → Json
  | docxSuccess unitId elements =>
    .object [("kind", .string "docx_success"), ("unit_id", .ofNat unitId.toNat),
      ("elements", .array (elements.map DocxElement.json))]
  | xlsxSuccess unitId rows =>
    .object [("kind", .string "xlsx_success"), ("unit_id", .ofNat unitId.toNat),
      ("rows", .array (rows.map XlsxRow.json))]
  | failure unitId code =>
    .object [("kind", .string "failure"), ("unit_id", .ofNat unitId.toNat), ("code", .string code)]

/-- The rows of a table: ascending rows, ascending columns, spans that are not zero. -/
def validateTableRows (last : Option UInt32) : List DocxTableRow → Except AppError Unit
  | [] => .ok ()
  | row :: rest => do
    failIf (∃ previous ∈ last, row.rowIndex ≤ previous) (.invalidRequest "DOCX table rows are unordered")
    failIf ((∃ cell ∈ row.cells, cell.rowSpan = 0 ∨ cell.colSpan = 0)
        ∨ ¬ ascends none (row.cells.map DocxTableCell.columnIndex))
      (.invalidRequest "invalid DOCX table cell coordinate")
    validateTableRows (some row.rowIndex) rest

/-- The elements of a block of a text document. -/
def validateElements (unit : DocxUnit) (last : Option UInt32) : List DocxElement → Except AppError Unit
  | [] => .ok ()
  | element :: rest => do
    failIf (element.bodyIndex < unit.startBodyElement ∨ unit.endBodyElement < element.bodyIndex
        ∨ ∃ previous ∈ last, element.bodyIndex ≤ previous)
      (.invalidRequest "DOCX element is outside block")
    match element with
    | .paragraph _ _ _ _ => pure ()
    | .table _ _ _ rows => do
      failIf (rows = []) (.invalidRequest "DOCX table has no rows")
      validateTableRows none rows
    validateElements unit (some element.bodyIndex) rest

/-- What is wrong with one cell of a row, apart from its place among the others. -/
def invalidCell (row : UInt32) (cell : XlsxCell) : Bool :=
  cell.column = 0 ∨ cell.reference ≠ xlsxCellReference cell.column row ∨ cell.cachedKind.isSome
    ≠ cell.cachedValue.isSome ∨ decide (cell.kind = .formulaCached) ≠ cell.formula.isSome
    ∨ (cell.kind ≠ .formulaCached ∧ cell.cachedKind.isSome)
    ∨ (cell.kind = .formulaCached ∧ cell.cachedValue = none ∧ (cell.value ≠ "" ∨ cell.displayValue.isSome))
    ∨ ∃ range ∈ cell.mergedRange, range = "" ∨ 128 < len range ∨ ':' ∉ range.toList

/-- The rows of a block of a worksheet. -/
def validateRows (unit : XlsxUnit) (last : Option UInt32) : List XlsxRow → Except AppError Unit
  | [] => .ok ()
  | row :: rest => do
    failIf (row.row < unit.startRow ∨ unit.endRow < row.row ∨ ∃ previous ∈ last, row.row ≤ previous)
      (.invalidRequest "XLSX row is outside block")
    failIf (∃ range ∈ row.headerRange, range = "" ∨ 128 < len range) (.invalidRequest "invalid XLSX header coordinate")
    failIf ((∃ cell ∈ row.cells, invalidCell row.row cell = true) ∨ ¬ ascends none (row.cells.map XlsxCell.column))
      (.invalidRequest "invalid XLSX cell coordinate")
    validateRows unit (some row.row) rest

def validate (result : OfficeUnitResult) (manifest : OfficeDocumentManifest) : Except AppError Unit := do
  failIf (¬ manifest.containsUnit result.unitId) (.invalidRequest "Office unit is outside manifest")
  match result, manifest.document with
  | docxSuccess unitId elements, .docx units => do
    let unit ← okOr units[unitId.toNat]? (.new .internal "index out of bounds")
    failIf (elements = []) (.invalidRequest "empty DOCX unit cannot succeed")
    validateElements unit none elements
    failIf (officeMaxUnitTextBytes < (elements.map fun element => element.json.toVecLen).sum)
      (.invalidRequest "Office unit output exceeds limit")
  | xlsxSuccess unitId rows, .xlsx units => do
    let unit ← okOr units[unitId.toNat]? (.new .internal "index out of bounds")
    failIf (rows = []) (.invalidRequest "empty XLSX unit cannot succeed")
    validateRows unit none rows
    failIf (officeMaxUnitTextBytes < (rows.map fun row => row.json.toVecLen).sum)
      (.invalidRequest "Office unit output exceeds limit")
  | failure _ code, _ => failIf (¬ officeUnitErrorCode code) (.invalidRequest "Office format and unit do not match")
  | _, _ => .error (.invalidRequest "Office format and unit do not match")

end OfficeUnitResult

/-! ### Chunks -/

/-- A text of a unit, with the place its chunks name. -/
structure OfficeEvidence where
  kind : ChunkKind
  text : String
  locator : UInt32 → UInt32 → ChunkLocator

namespace OfficeEvidence

/-- The texts of one element of a text document. -/
def ofElement : DocxElement → List OfficeEvidence
  | .paragraph bodyElementIndex paragraphIndex headingPath text =>
    [{ kind := .paragraph
       text
       locator := fun startChar endChar =>
        .docx headingPath paragraphIndex (some bodyElementIndex) none none none none none none
          (some startChar) (some endChar) }]
  | .table bodyElementIndex tableIndex headingPath rows =>
    rows.flatMap fun row =>
      row.cells.map fun cell =>
        { kind := .table
          text := cell.text
          locator := fun startChar endChar =>
            .docx headingPath bodyElementIndex (some bodyElementIndex) (some tableIndex)
              (some row.rowIndex) (some cell.columnIndex) (some cell.rowSpan) (some cell.colSpan)
              (some cell.merged) (some startChar) (some endChar) }

/-- The text of one cell of a worksheet: the formula when it has no stored result. -/
def ofCell (unit : XlsxUnit) (row : XlsxRow) (cell : XlsxCell) : OfficeEvidence where
  kind := .table
  text :=
    if cell.kind = .formulaCached ∧ cell.cachedValue = none then cell.formula.getD ""
    else cell.value
  locator := fun startChar endChar =>
    .xlsx unit.sheetName cell.reference (row.headerRange.filter fun range => xlsxHeaderCoversColumn range cell.column)
      (some cell.kind.lower) cell.displayValue cell.formula (cell.cachedKind.map XlsxCachedValueKind.json)
      cell.cachedValue cell.mergedRange (some startChar) (some endChar)

/-- The texts of a unit, in order. -/
def ofUnit (manifest : OfficeDocumentManifest) (result : OfficeUnitResult) : Except AppError (List OfficeEvidence) :=
  match result, manifest.document with
  | .docxSuccess _ elements, .docx _ => .ok (elements.flatMap ofElement)
  | .xlsxSuccess unitId rows, .xlsx units => do
    let unit ← okOr units[unitId.toNat]? (.new .internal "index out of bounds")
    pure (rows.flatMap fun row => row.cells.map (ofCell unit row))
  | _, _ => .ok []

end OfficeEvidence

section Chunks

variable [Sha256]

/-- The chunk of one piece of a text, unless the piece is blank. -/
def officeChunk (scope : TenantScope) (projectId : ProjectId) (sourceVersionId : Uuid)
    (format : OfficeFormat) (evidence : OfficeEvidence) (firstOrdinal : Nat)
    (chunkIds : Nat → Uuid) (chunks : List Chunk) (offset : Nat) (part : List Char) :
    Except AppError (List Chunk) := do
  let text := String.ofList part
  if isBlank text then pure chunks
  else do
    let ordinal := firstOrdinal + chunks.length
    failIf (2 ^ 31 ≤ ordinal) (.invalidRequest "too many Office chunks")
    let offsetChars ← offset32 (offset * officeChunkChars) "Office character offset exceeds limit"
    let length ← offset32 part.length "Office character offset exceeds limit"
    let chunk : Chunk :=
      { chunkId := chunkIds ordinal
        operatorId := scope.operatorId
        tenantId := scope.tenantId
        projectId
        sourceVersionId
        ordinal
        kind := evidence.kind
        text
        textHash := sha256Hex (bytes text)
        locator := evidence.locator offsetChars (offsetChars + length)
        productIds := []
        market := none
        language := none
        extractionMethod := format.extractionMethod }
    pure (chunks ++ [chunk])

/-- The chunks of one text, after the chunks of the texts before it. -/
def officeEvidenceChunks (scope : TenantScope) (projectId : ProjectId) (sourceVersionId : Uuid)
    (format : OfficeFormat) (firstOrdinal : Nat) (chunkIds : Nat → Uuid) (chunks : List Chunk)
    (evidence : OfficeEvidence) : Except AppError (List Chunk) :=
  (Text.chunks officeChunkChars evidence.text.toList).zipIdx.foldlM (fun chunks (part, offset) =>
    officeChunk scope projectId sourceVersionId format evidence firstOrdinal chunkIds chunks offset part) chunks

def officeUnitChunks (scope : TenantScope) (sourceVersionId : Uuid) (manifest : OfficeDocumentManifest)
    (result : OfficeUnitResult) (firstOrdinal : Nat) (chunkIds : Nat → Uuid) : Except AppError (List Chunk) := do
  result.validate manifest
  let projectId ← okOr scope.projectId (.invalidRequest "project_id is required")
  let evidence ← OfficeEvidence.ofUnit manifest result
  evidence.foldlM (officeEvidenceChunks scope projectId sourceVersionId manifest.format firstOrdinal chunkIds) []

end Chunks

end GeoMaster
