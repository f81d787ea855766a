import GeoMaster.Domain.Distribution

/-!
# Frozen semantic inputs

What a document is written from, without the cycle and the execution it was written in. Two items with the same
canonical input have the same fingerprint, so the checked revision of one can be bound to the other.
-/

namespace GeoMaster

open Json

/-! ### JSON of the evidence -/

namespace ChunkLocator

def kind : ChunkLocator → String
  | .text .. => "text"
  | .web .. => "web"
  | .pdf .. => "pdf"
  | .docx .. => "docx"
  | .xlsx .. => "xlsx"
  | .csv .. => "csv"
  | .manual => "manual"

/-- The members behind the kind. Members of an optional type are skipped when there is none. -/
def members : ChunkLocator → List (String × Option Json)
  | .text startLine endLine startChar endChar =>
    [("start_line", some (.u32 startLine)), ("end_line", some (.u32 endLine)), ("start_char", some (.u32 startChar)),
      ("end_char", some (.u32 endChar))]
  | .web snapshotObjectId originalUrl selector startChar endChar =>
    [("snapshot_object_id", some snapshotObjectId.json), ("original_url", some (.string originalUrl)),
      ("selector", selector.map .string), ("start_char", startChar.map .u32), ("end_char", endChar.map .u32)]
  | .pdf page bbox ocr startChar endChar =>
    [("page", some (.u32 page)), ("bbox", bbox.map fun box => .array (box.map fun n => .ofInt n.toInt)),
      ("ocr", some (.bool ocr)), ("start_char", startChar.map .u32), ("end_char", endChar.map .u32)]
  | .docx headingPath paragraphIndex bodyElementIndex tableIndex tableRow tableColumn tableRowSpan tableColSpan
      tableMerged startChar endChar =>
    [("heading_path", some (.array (headingPath.map .string))), ("paragraph_index", some (.u32 paragraphIndex)),
      ("body_element_index", bodyElementIndex.map .u32), ("table_index", tableIndex.map .u32),
      ("table_row", tableRow.map .u32), ("table_column", tableColumn.map .u32),
      ("table_row_span", tableRowSpan.map .u32), ("table_col_span", tableColSpan.map .u32),
      ("table_merged", tableMerged.map .bool), ("start_char", startChar.map .u32), ("end_char", endChar.map .u32)]
  | .xlsx sheet range headerRange cellKind displayValue formula cachedKind cachedValue mergedRange startChar endChar =>
    [("sheet", some (.string sheet)), ("range", some (.string range)), ("header_range", headerRange.map .string),
      ("cell_kind", cellKind.map .string), ("display_value", displayValue.map .string),
      ("formula", formula.map .string), ("cached_kind", cachedKind.map .string),
      ("cached_value", cachedValue.map .string), ("merged_range", mergedRange.map .string),
      ("start_char", startChar.map .u32), ("end_char", endChar.map .u32)]
  | .csv startRow endRow startColumn endColumn headerRow startChar endChar =>
    [("start_row", some (.u32 startRow)), ("end_row", some (.u32 endRow)), ("start_column", some (.u32 startColumn)),
      ("end_column", some (.u32 endColumn)), ("header_row", headerRow.map .u32), ("start_char", startChar.map .u32),
      ("end_char", endChar.map .u32)]
  | .manual => []

def json (locator : ChunkLocator) : Json :=
  .object (Json.optionalFields (("kind", some (.string locator.kind)) :: locator.members))

end ChunkLocator

def EvidenceRef.json (reference : EvidenceRef) : Json :=
  .object (Json.optionalFields
    [("source_version_id", some reference.sourceVersionId.json), ("chunk_id", reference.chunkId.map Uuid.json),
      ("locator", some reference.locator.json)])

def ContentEvidence.json (evidence : ContentEvidence) : Json :=
  .object [("reference", evidence.reference.json), ("exact_quote", .string evidence.exactQuote)]

def TenantScope.json (scope : TenantScope) : Json :=
  .object (Json.optionalFields
    [("operator_id", some scope.operatorId.asUuid.json), ("tenant_id", some scope.tenantId.asUuid.json),
      ("project_id", scope.projectId.map fun project => project.asUuid.json)])

/-! ### The descriptor -/

def contentSemanticDescriptorVersion : UInt32 :=
  1

structure ContentSemanticDescriptor where
  version : UInt32
  scope : TenantScope
  (documentKey contentType : String)
  productId : Option Uuid
  (market language plannerVersion : String)
  sourceVersionIds : List Uuid
  /-- The order of selection may affect the text, so it is kept. -/
  evidence : List ContentEvidence
  (brandName productName targetAudience objective : Option String)
  questionClusters : List String
  (briefTitle briefObjective generationPolicyVersion evidencePolicyVersion : String)
  (checkPolicyVersion repairPolicyVersion outputSchemaVersion generationPolicyRevision : String)
  deriving DecidableEq

/-- Some identities in order, each once. -/
def sortedIds (ids : List Uuid) : List Uuid :=
  (ids.insertionSort (· ≤ ·)).dedup

namespace ContentSemanticDescriptor

/-- The texts that must not be blank. -/
def parts (self : ContentSemanticDescriptor) : List String :=
  [self.documentKey, self.contentType, self.market, self.language, self.plannerVersion, self.briefTitle,
    self.briefObjective, self.generationPolicyVersion, self.evidencePolicyVersion, self.checkPolicyVersion,
    self.repairPolicyVersion, self.outputSchemaVersion, self.generationPolicyRevision]

def canonical (self : ContentSemanticDescriptor) : Except AppError ContentSemanticDescriptor := do
  Except.failIf
    (self.version ≠ contentSemanticDescriptorVersion ∨ self.scope.projectId.isNone
      ∨ (∃ part ∈ self.parts, Text.isBlank part)
      ∨ self.sourceVersionIds = []
      ∨ self.evidence = []
      ∨ ∃ e ∈ self.evidence, Text.isBlank e.exactQuote ∨ e.reference.chunkId.isNone
          ∨ e.reference.sourceVersionId ∉ self.sourceVersionIds)
    (.invalidRequest "complete frozen semantic input and located public evidence required")
  pure
    { self with
      sourceVersionIds := sortedIds self.sourceVersionIds
      questionClusters := (self.questionClusters.insertionSort (· ≤ ·)).dedup }

def json (self : ContentSemanticDescriptor) : Json :=
  .object
    [("version", .u32 self.version), ("scope", self.scope.json), ("document_key", .string self.documentKey),
      ("content_type", .string self.contentType), ("product_id", nullable Uuid.json self.productId),
      ("market", .string self.market), ("language", .string self.language),
      ("planner_version", .string self.plannerVersion),
      ("source_version_ids", .array (self.sourceVersionIds.map Uuid.json)),
      ("evidence", .array (self.evidence.map ContentEvidence.json)),
      ("brand_name", nullable .string self.brandName), ("product_name", nullable .string self.productName),
      ("target_audience", nullable .string self.targetAudience),
      ("objective", nullable .string self.objective),
      ("question_clusters", .array (self.questionClusters.map .string)), ("brief_title", .string self.briefTitle),
      ("brief_objective", .string self.briefObjective),
      ("generation_policy_version", .string self.generationPolicyVersion),
      ("evidence_policy_version", .string self.evidencePolicyVersion),
      ("check_policy_version", .string self.checkPolicyVersion),
      ("repair_policy_version", .string self.repairPolicyVersion),
      ("output_schema_version", .string self.outputSchemaVersion),
      ("generation_policy_revision", .string self.generationPolicyRevision)]

def fingerprint [Sha256] (self : ContentSemanticDescriptor) : Except AppError String := do
  let canonical ← self.canonical
  pure (sha256Hex (Text.bytes canonical.json.toText))

end ContentSemanticDescriptor

end GeoMaster
