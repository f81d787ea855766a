import GeoMaster.Domain.DeepseekEvidence
import GeoMaster.Lib.AssocMap

/-!
# Uploads of rich media

A request brings its metadata in a field and every image in a part. The multipart parser hands over events, those of one
part in sequence, and the request is settled once: resolved with the metadata and the parts, or rejected. The bytes lie
in buffers, and a buffer can be overwritten with zeros.
-/

namespace GeoMaster

namespace RichTransport

open DeepseekEvidence

def maxImageBytes : Nat :=
  100 * 1024 * 1024

def maxTotalBytes : Nat :=
  512 * 1024 * 1024

/-- `String.prototype.toLowerCase`. -/
class LowerCase where
  toLowerCase : String → String

/-- `RunnerError`. -/
structure RunnerError where
  status : Nat
  code : String
  deriving DecidableEq

def invalid : RunnerError :=
  ⟨400, "invalid_rich_transport"⟩

def tooLarge : RunnerError :=
  ⟨413, "rich_payload_too_large"⟩

/-- A map key. The text `id:version` tells the same keys apart: no version has a colon in it. -/
abbrev MediaKey : Type :=
  String × Int

def key [LowerCase] (id : String) (version : Int) : MediaKey :=
  (LowerCase.toLowerCase id, version)

def mediaTypes : List String :=
  ["image/png", "image/jpeg", "image/webp"]

def isLowerHex (c : Char) : Bool :=
  Text.isAsciiDigit c || ('a' ≤ c && c ≤ 'f')

/-- `MEDIA_FIELD.exec(name)`: the identifier and the version that a field names. -/
def mediaField (name : String) : Option (String × Nat) := do
  let rest ← Text.stripPrefix name "media_"
  let id := rest.toList.take 36
  let digits := rest.toList.drop 37
  if id.length = 36 ∧ (List.range 36).all (fun i => if i ∈ [8, 13, 18, 23] then id[i]? = some '-' else id[i]?.any isLowerHex)
      ∧ rest.toList[36]? = some '_' ∧ digits ≠ [] ∧ digits.all Text.isAsciiDigit ∧ digits.head? ≠ some '0' then
    some (String.ofList id, digitsValue digits)
  else none

/-- A delivered part. Its bytes are a buffer. -/
structure MediaPart where
  objectId : String
  objectVersion : Nat
  (mediaType sha256 : String)
  bytes : Nat
  deriving DecidableEq

/-- A part that is being read: its chunks are buffers, and the hash has taken these bytes. -/
structure OpenPart where
  objectId : String
  objectVersion : Nat
  mediaType : String
  chunks : List Nat
  hashed : List UInt8

/-- How a request was settled. -/
inductive Settlement where
  | resolved (metadata : JsValue) (media : List MediaPart)
  | rejected (error : RunnerError)
  deriving DecidableEq

structure Upload where
  settled : Option Settlement
  metadata : JsValue
  total : Nat
  parts : AssocMap MediaKey MediaPart
  current : Option OpenPart
  pendingChunks : List Nat
  buffers : List (List UInt8)

/-- What the parser, the request and the clock bring. -/
inductive UploadEvent where
  | field (name value : String) (nameTruncated valueTruncated : Bool) (encoding mime : String)
  | file (name : String) (filename : Option String) (mime : String)
  | data (chunk : List UInt8)
  | limit
  | ended
  | streamError
  | partsLimit
  | filesLimit
  | fieldsLimit
  | parserError
  | aborted
  | requestError
  | deadline
  | finish

def start : Upload :=
  { settled := none, metadata := none, total := 0, parts := ∅, current := none, pendingChunks := [], buffers := [] }

/-- `buffer.fill(0)` of some buffers. -/
def zeroed (which : List Nat) (buffers : List (List UInt8)) : List (List UInt8) :=
  buffers.mapIdx fun i buffer => if i ∈ which then List.replicate buffer.length 0 else buffer

def Upload.fail (error : RunnerError) (s : Upload) : Upload :=
  if s.settled.isSome then s
  else
    { s with
      settled := some (.rejected error)
      buffers := zeroed ((AssocMap.values s.parts).map MediaPart.bytes ++ s.pendingChunks) s.buffers }

/-- `Number.isSafeInteger(value)`, with the integer. -/
def safeVersion (value : JsValue) : Option Int :=
  match value with
  | some (.number n) =>
    match n.double with
    | .inl k => if k.natAbs ≤ Js.maxSafeInteger then some k else none
    | .inr _ => none
  | _ => none

section

variable [LowerCase]

/-- The key of an item: `none` if reading it is a `TypeError`, `some none` if the item is refused. -/
def itemKey (item : Json) : Option (Option MediaKey) :=
  let object := part item "object"
  if object.truthy then
    match (part object "object_id").asString with
    | none => none
    | some id =>
      some do
        let version ← safeVersion (part object "object_version")
        guard (((part object "sha256").asString.any fun text => text.length = 64 && text.toList.all isLowerHex)
          && (part item "media_type").asString.any fun type => type ∈ mediaTypes)
        pure (key id version)
  else some none

/-- The expected media: the last item of each key. An outer `none` is a `TypeError`, an inner one a refusal. -/
def expectedMedia (expected : AssocMap MediaKey Json) : List Json → Option (Option (AssocMap MediaKey Json))
  | [] => some (some expected)
  | item :: rest =>
    match itemKey item with
    | none => none
    | some none => some none
    | some (some mediaKey) => expectedMedia (expected.insert mediaKey item) rest

/-- A part has the digest, the length and the type of an item. -/
def partMatches (buffers : List (List UInt8)) (item : Json) (found : MediaPart) : Bool :=
  (part (part item "object") "sha256").isText found.sha256 && (part item "byte_len").isNumber
    (buffers[found.bytes]?.getD []).length && (part item "media_type").isText found.mediaType

/-- The items that the metadata declare. -/
def mediaItems (metadata : JsValue) : Option (List Json) := do
  guard (isObject metadata)
  JsValue.asArray ((part metadata "payload").optionalMember "media")

/-- The end of the request. A `TypeError` leaves it as it is. -/
def Upload.finish (s : Upload) : Upload :=
  if s.settled.isSome then s
  else
    match mediaItems s.metadata with
    | none => s.fail invalid
    | some items =>
      match expectedMedia ∅ items with
      | none => s
      | some none => s.fail invalid
      | some (some expected) =>
        if s.parts.entries.length ≠ expected.entries.length then s.fail invalid
        else if expected.entries.all (fun e => (s.parts.lookup e.1).any (partMatches s.buffers e.2)) then
          { s with settled := some (.resolved s.metadata (AssocMap.values s.parts)) }
        else s.fail ⟨400, "media_parts_mismatch"⟩

variable [Sha256] (parse : String → Option Json)

/-- One event. Events of a part that was refused are not listened to. -/
def receive (s : Upload) : UploadEvent → Upload
  | .field name value nameTruncated valueTruncated encoding mime =>
    if name ≠ "metadata" ∨ s.metadata.isSome ∨ nameTruncated ∨ valueTruncated ∨ mime ≠ "application/json"
        ∨ encoding ∉ ["7bit", "binary", "8bit"] then s.fail invalid
    else
      match parse value with
      | none => s.fail invalid
      | some metadata => { s with metadata := some metadata }
  | .file name filename mime =>
    match mediaField name with
    | none => { s.fail invalid with current := none }
    | some (id, version) =>
      if Js.maxSafeInteger < version ∨ filename.isSome ∨ mime ∉ mediaTypes ∨ key id version ∈ s.parts then
        { s.fail invalid with current := none }
      else { s with current := some ⟨id, version, mime, [], []⟩ }
  | .data chunk =>
    match s.current with
    | none => s
    | some p =>
      let s :=
        { s with
          total := s.total + chunk.length
          pendingChunks := s.pendingChunks ++ [s.buffers.length]
          buffers := s.buffers ++ [chunk] }
      if maxImageBytes < p.hashed.length + chunk.length ∨ maxTotalBytes < s.total then s.fail tooLarge
      else { s with current := some { p with chunks := p.chunks ++ [s.buffers.length - 1], hashed := p.hashed ++ chunk } }
  | .ended =>
    match s.current with
    | none => s
    | some p =>
      if s.settled.isSome then s
      else
        { s with
          current := none
          pendingChunks := s.pendingChunks.filter (· ∉ p.chunks)
          buffers := zeroed p.chunks s.buffers ++ [p.chunks.flatMap fun i => s.buffers[i]?.getD []]
          parts := s.parts.insert (key p.objectId p.objectVersion)
            ⟨p.objectId, p.objectVersion, p.mediaType, sha256Hex p.hashed, s.buffers.length⟩ }
  | .limit | .partsLimit | .filesLimit | .fieldsLimit => s.fail tooLarge
  | .streamError | .parserError | .aborted | .requestError => s.fail invalid
  | .deadline => s.fail ⟨408, "rich_upload_deadline"⟩
  | .finish => s.finish

end

end RichTransport

end GeoMaster
