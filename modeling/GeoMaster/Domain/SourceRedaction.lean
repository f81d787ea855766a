import GeoMaster.Domain.JsValue
import GeoMaster.Domain.SourceNames
import GeoMaster.Lib.Op
import GeoMaster.Lib.Pointer

/-!
# Declared omissions

A stored source declares what was left out of it as pointers into its messages. The runner checks the
declaration when it builds a document, the server when it reads one: both want every pointer to be short,
well written, within the messages, and to lead nowhere. The server also looks for forbidden member names
and for values nested too deep.
-/

namespace GeoMaster

open Except Text Json

/-- A decimal number without a leading zero. -/
def isCanonicalIndex (digits : List Char) : Bool :=
  digits.all isAsciiDigit && digits ≠ [] && (digits.length = 1 || digits.head? ≠ some '0')

/-- The index a key stands for in an array. -/
def arrayIndex (key : String) : Option Nat :=
  if isCanonicalIndex key.toList then some (digitsValue key.toList) else none

/-- The value that some keys lead to: `value.pointer(path)`. -/
def Json.pointer (value : Json) : List String → Option Json
  | [] => some value
  | key :: rest =>
    match value with
    | .object fields =>
      match (object fields).get key with
      | some child => child.pointer rest
      | none => none
    | .array items =>
      match (arrayIndex key).bind fun index => items[index]? with
      | some child => child.pointer rest
      | none => none
    | _ => none

namespace SourceRedaction

open SourceNames

/-- `/^\/messages\/(?:0|[1-9]\d*)\/(?:[^~]|~[01])*$/u`, with the index that is matched. -/
def messageIndex (path : String) : Option Nat := do
  let rest ← stripPrefix path "/messages/"
  let digits := rest.toList.takeWhile (· ≠ '/')
  let after := rest.toList.dropWhile (· ≠ '/')
  if isCanonicalIndex digits ∧ after ≠ [] ∧ Pointer.wellEscaped after = true then
    some (digitsValue digits)
  else none

/-- A pointer that the runner takes. -/
def isDeclared (document : Json) (messages : List Json) (path : Json) : Bool :=
  match path with
  | .string path =>
    len path ≤ 2048 && !path.toList.any isControl
      && (messageIndex path).any (fun index => index ≤ Js.maxSafeInteger && index < messages.length)
      && (document.pointer (Pointer.parse path)).isNone
  | _ => false

def invalidRedaction : String :=
  "observation_source_redaction_invalid"

/-- `sourceRedaction(manifest, document)`. -/
def sourceRedaction (manifest document : Json) : Except String Json := do
  let fields ← okOr manifest.members invalidRedaction
  failIf (fields.length ≠ 3) invalidRedaction
  failIf (manifest.get "schema_version" ≠ some (.string "geo.observation.source-redaction.v1")) invalidRedaction
  failIf (manifest.get "policy" ≠ some (.string "reasoning-and-private-fields")) invalidRedaction
  let paths ← okOr (((manifest.get "omitted_paths").bind Json.asArray).filter fun paths =>
    paths.length ≤ 32768) invalidRedaction
  let messages ← okOr ((document.get "messages").bind Json.asArray) invalidRedaction
  failIf (paths.all (isDeclared document messages) = false) invalidRedaction
  pure (.object
    [("schema_version", .string "geo.observation.source-redaction.v1"),
      ("policy", .string "reasoning-and-private-fields"), ("omitted_paths", .array paths)])

/-! ### The server -/

mutual

/-- `safe_json`. -/
def safeJson (value : Json) (depth : Nat) : Bool :=
  depth ≤ 32 && match value with
    | .array items => safeItems items (depth + 1)
    | .object fields => safeFields fields (depth + 1)
    | _ => true
termination_by structural value

def safeItems (items : List Json) (depth : Nat) : Bool :=
  match items with
  | [] => true
  | item :: rest => safeJson item depth && safeItems rest depth
termination_by structural items

def safeFields (fields : List (String × Json)) (depth : Nat) : Bool :=
  match fields with
  | [] => true
  | field :: rest => safeField field depth && safeFields rest depth
termination_by structural fields

def safeField (field : String × Json) (depth : Nat) : Bool :=
  match field with
  | (key, value) => !isForbidden key && safeJson value depth
termination_by structural field

end

def validCaptureStatus (value : Json) : Bool :=
  match value with
  | .object fields =>
    let transport := ((object fields).get "transport").bind Json.asStr
    let termination := ((object fields).get "termination").bind Json.asStr
    fields.length = 3
      && (object fields).get "schema_version" = some (.string "geo.observation.capture-status.v1")
      && ((transport = some "complete" && termination = some "complete")
        || (transport = some "partial" && termination.any fun text =>
          text ∈ ["eof", "timeout", "aborted", "malformed", "limit_exceeded"]))
  | _ => false

/-- A pointer that the server takes. -/
def isStored (document : Json) (messages : List Json) (path : Json) : Bool :=
  match path with
  | .string path =>
    len path ≤ 2048 && !path.toList.any isControl
      && (match stripPrefix path "/messages/" with
        | some rest =>
          let index := rest.toList.takeWhile (· ≠ '/')
          rest.toList.contains '/' && isCanonicalIndex index
            && digitsValue index < 2 ^ 64 && digitsValue index < messages.length
        | none => false)
      && Pointer.wellEscaped path.toList
      && (document.pointer (Pointer.parse path)).isNone
  | _ => false

/-- The members of a stored source. -/
def sourceMembers : List String :=
  ["messages", "rendered_text", "source_redaction", "lifecycle", "ownership", "capture_status"]

def validObservationSourceDocument (document : Json) : Bool :=
  match document.members, (document.get "messages").bind Json.asArray with
  | some fields, some messages =>
    fields.all (fun field => field.1 ∈ sourceMembers) && (document.get "rendered_text").all
      (fun value => value.asStr.isSome) && (document.get "capture_status").all validCaptureStatus
      && (document.get "source_redaction").all fun manifest =>
        match manifest.members, (manifest.get "omitted_paths").bind Json.asArray with
        | some fields, some paths =>
          fields.length = 3 && manifest.get "schema_version" = some (.string "geo.observation.source-redaction.v1")
            && manifest.get "policy" = some (.string "reasoning-and-private-fields")
            && paths.length ≤ 32768 && paths.all (isStored document messages)
        | _, _ => false
  | _, _ => false

end SourceRedaction

end GeoMaster
