import GeoMaster.Domain.Base

/-!
# References to evidence

Where a piece of evidence lies in its source: lines of a text, a span of a web snapshot, a box on a
page, a paragraph or a table cell of a document, a range of a sheet or of a comma-separated file.
-/

namespace GeoMaster

inductive ChunkLocator where
  | text (startLine endLine startChar endChar : UInt32)
  | web (snapshotObjectId : Uuid) (originalUrl : String) (selector : Option String) (startChar endChar : Option UInt32)
  | pdf (page : UInt32) (bbox : Option (List Int32)) (ocr : Bool) (startChar endChar : Option UInt32)
  | docx (headingPath : List String) (paragraphIndex : UInt32)
      (bodyElementIndex tableIndex tableRow tableColumn tableRowSpan tableColSpan : Option UInt32)
      (tableMerged : Option Bool) (startChar endChar : Option UInt32)
  | xlsx (sheet range : String)
      (headerRange cellKind displayValue formula cachedKind cachedValue mergedRange : Option String)
      (startChar endChar : Option UInt32)
  | csv (startRow endRow startColumn endColumn : UInt32) (headerRow : Option UInt32) (startChar endChar : Option UInt32)
  | manual
  deriving DecidableEq

structure EvidenceRef where
  sourceVersionId : Uuid
  chunkId : Option Uuid
  locator : ChunkLocator
  deriving DecidableEq

end GeoMaster
