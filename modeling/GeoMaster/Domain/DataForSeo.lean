import GeoMaster.Domain.CycleInputs

/-!
# Paid search requests

A search task is frozen before it is paid for: its body is built from the request, written once, and read back by the
same check that later admits stored bytes. The provider decodes percent escapes even inside JSON, so the two characters
it would change are escaped in the keyword.
-/

namespace GeoMaster

open Text

namespace Text

/-- `str::replace`: every occurrence of a text, from the left. -/
def replaceIn (part new : List Char) : Nat → List Char → List Char
  | _, [] => []
  | 0, c :: rest => if part.isPrefixOf (c :: rest) then new ++ replaceIn part new (part.length - 1) rest
    else c :: replaceIn part new 0 rest
  | skip + 1, _ :: rest => replaceIn part new skip rest

def replace (part new s : String) : String :=
  String.ofList (replaceIn part.toList new.toList 0 s.toList)

end Text

/-- `serde_json::from_slice`. -/
def Json.fromSlice [JsonText] (bytes : List UInt8) : Option Json :=
  (String.fromUTF8? ⟨bytes.toArray⟩).bind JsonText.parse

structure DataForSeoTaskRequest where
  keyword : String
  locationCode : UInt32
  (languageCode tag : String)

/-- Validated wire bytes, with their digest. -/
structure DataForSeoPreparedTask where
  body : List UInt8
  (requestSha256 tag : String)

def maxTaskBytes : Nat :=
  16384

namespace DataForSeoTaskRequest

/-- The keyword as the provider will decode it to the query. -/
def encodedKeyword (request : DataForSeoTaskRequest) : String :=
  Text.replace "+" "%2B" (Text.replace "%" "%25" request.keyword)

/-- The one task of a body. -/
def task (request : DataForSeoTaskRequest) : Json :=
  .ofFields
    [("keyword", .string request.encodedKeyword), ("location_code", .u32 request.locationCode),
      ("language_code", .string request.languageCode), ("tag", .string request.tag), ("device", .string "desktop"),
      ("os", .string "windows"), ("depth", .ofNat 10), ("max_crawl_pages", .ofNat 1), ("priority", .ofNat 1)]

def body (request : DataForSeoTaskRequest) : Option Json :=
  if isBlank request.keyword ∨ request.keyword.length > 700 ∨ request.keyword.toList.any isControl
      ∨ request.locationCode = 0 ∨ request.languageCode = "" ∨ len request.languageCode > 16
      ∨ ¬ request.languageCode.toList.all (fun c => ('a' ≤ c && c ≤ 'z') || ('A' ≤ c && c ≤ 'Z') || c = '-')
      ∨ request.tag = "" ∨ len request.tag > 255 ∨ request.tag.toList.any isControl then
    none
  else
    some (.array [request.task])

/-- The request a task stands for. -/
def ofTask (task : Json) : Option DataForSeoTaskRequest := do
  let keyword ← (task.index "keyword").asStr
  let code ← (task.index "location_code").asU64
  let locationCode ← if code.toNat < UInt32.size then some (UInt32.ofNat code.toNat) else none
  let languageCode ← (task.index "language_code").asStr
  let tag ← (task.index "tag").asStr
  pure { keyword := Text.replace "%25" "%" (Text.replace "%2B" "+" keyword), locationCode, languageCode, tag }

end DataForSeoTaskRequest

/-- Bytes that are the body of a valid request. Every refusal is `SerpAdapterError::InvalidConfiguration`. -/
def DataForSeoPreparedTask.fromBytes [Sha256] [JsonText] (body : List UInt8) : Option DataForSeoPreparedTask := do
  if body.length > maxTaskBytes then none
  let value ← Json.fromSlice body
  let [task] ← value.asArray | none
  let request ← DataForSeoTaskRequest.ofTask task
  if request.body ≠ some value then none
  pure { body, requestSha256 := sha256Hex body, tag := request.tag }

def DataForSeoTaskRequest.prepare [Sha256] [JsonText] (request : DataForSeoTaskRequest) :
    Option DataForSeoPreparedTask := do
  let body ← request.body
  DataForSeoPreparedTask.fromBytes (Text.bytes body.toText)

end GeoMaster
