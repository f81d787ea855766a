import GeoMaster.Domain.JsValue
import GeoMaster.Domain.SourceNames
import GeoMaster.Lib.Op
import GeoMaster.Lib.Pointer

/-!
# The privacy projection of a captured exchange

`projectDeepseekSource` goes through the messages of one captured exchange and leaves out what is private:
members under private or reasoning names, everything but the type of a reasoning fragment, and values that
a delta sends to a field of one. It keeps an index of the fragments' types, since a delta says with a path
where it goes and not what is there. A value that it cannot place is a rejection of the whole exchange.
An object is the list of its own members, in the order in which they are gone through.
-/

namespace GeoMaster

open Json

/-- `Buffer.byteLength(JSON.stringify(value))`. -/
class JsonSize where
  byteLength : Json → Nat

namespace SourceProjection

open SourceNames

def fragmentTypes : List String :=
  ["THINK", "RESPONSE", "TEMPLATE_RESPONSE", "SEARCH", "TOOL_SEARCH", "TOOL_OPEN", "TOOL_FIND", "REQUEST",
    "FILE", "TIP", "READ_LINK"]

def responseFields : List String :=
  ["message_id", "parent_id", "role", "status", "quasi_status", "accumulated_token_usage", "token_usage", "feedback",
    "ban_regenerate", "search_enabled", "search_triggered", "thinking_enabled", "inserted_at", "has_pending_fragment",
    "conversation_mode", "extra_search_providers", "incomplete_message", "fragments"]

/-- The members of a named event that are kept; other events are unknown. -/
def eventFields : String → Option (List String)
  | "ready" => some ["response_message_id", "request_message_id", "model_type"]
  | "close" => some ["click_behavior"]
  | "finish" => some []
  | "title" => some ["content"]
  | "toast" => some ["content", "type", "finish_reason"]
  | "hint" => some ["content", "type", "clear_response", "finish_reason"]
  | "update_session" => some ["updated_at"]
  | _ => none

def omittedAuxiliaryEvents : List String :=
  ["debug", "update_parent_message", "update_file"]

/-- The events that carry a delta. -/
def deltaEvents : List String :=
  ["", "message", "delta"]

/-- `fragmentFieldShape[key]`, if there is one. -/
def fragmentFieldShape : String → Option (Json → Bool)
  | "content" | "status" | "pattern" => some fun value => value.asStr.isSome
  | "queries" | "results" => some Json.isArray
  | "references" => some fun value => value = .null || value.isArray
  | "result" => some fun value => value = .null || value.isObject
  | _ => none

/-- A member that has the wrong shape for its name. -/
def isMisshapen (key : String) (value : Json) : Bool :=
  (fragmentFieldShape key).any fun shape => !shape value

/-- The names an object may not have. -/
def prototypeNames : List String :=
  ["__proto__", "constructor", "prototype"]

/-- What is known of a fragment: its type unless it is unknown, and the fields that were left out of it. -/
structure FragmentState where
  type : Option String
  taintedFields : List String

/-- What the projection remembers: the values visited, the paths left out, and the index of fragments. -/
structure ProjectionState where
  visited : Nat
  omitted : List String
  types : Option (List FragmentState)

/-- A part of the projection, which may reject the exchange with a code. -/
abbrev Projecting (α : Type) : Type :=
  Op ProjectionState String α

open Op

def ProjectionState.visit (s : ProjectionState) : ProjectionState :=
  { s with visited := s.visited + 1 }

def ProjectionState.leaveOut (path : String) (s : ProjectionState) : ProjectionState :=
  { s with omitted := s.omitted ++ [path] }

def ProjectionState.setTypes (types : Option (List FragmentState)) (s : ProjectionState) : ProjectionState :=
  { s with types }

def bound (depth : Nat) : Projecting Unit := do
  failIf (32 < depth) "shape_rejected"
  modify ProjectionState.visit
  let visited ← read ProjectionState.visited
  failIf (100000 < visited) "shape_rejected"

def leaveOut (path : String) : Projecting Unit :=
  modify (ProjectionState.leaveOut path)

/-- Leave out all members with these names. -/
def leaveOutKeys (path : String) : List String → Projecting Unit
  | [] => pure ()
  | key :: rest => do
    leaveOut (Pointer.push path key)
    leaveOutKeys path rest

/-- `value.type === "THINK"`. -/
def isThink (value : Json) : Bool :=
  value.get "type" = some (.string "THINK")

/-! ### Values -/

mutual

/-- A value without what is private in it. -/
def clean (value : Json) (path : String) (depth : Nat) : Projecting Json :=
  match value with
  | .array items => do
    bound depth
    let kept ← cleanItems items path 0 (depth + 1)
    pure (.array kept)
  | .object fields => do
    bound depth
    if isThink (.object fields) then do
      leaveOutKeys path ((fields.map Prod.fst).filter (· ≠ "type"))
      pure (.object [("type", .string "THINK")])
    else do
      let kept ← cleanFields fields path (depth + 1)
      pure (.object kept)
  | value => do
    bound depth
    pure value
termination_by structural value

def cleanItems (items : List Json) (path : String) (index depth : Nat) : Projecting (List Json) :=
  match items with
  | [] => pure []
  | item :: rest => do
    let kept ← clean item (Pointer.push path (toString index)) depth
    let others ← cleanItems rest path (index + 1) depth
    pure (kept :: others)
termination_by structural items

def cleanFields (fields : List (String × Json)) (path : String) (depth : Nat) : Projecting (List (String × Json)) :=
  match fields with
  | [] => pure []
  | field :: rest => do
    let kept ← cleanField field path depth
    let others ← cleanFields rest path depth
    pure (kept ++ others)
termination_by structural fields

/-- One member: nothing is kept of a private one. -/
def cleanField (field : String × Json) (path : String) (depth : Nat) : Projecting (List (String × Json)) :=
  match field with
  | (key, child) =>
    if isPrivate key then do
      leaveOut (Pointer.push path key)
      pure []
    else do
      failIf (key ∈ prototypeNames) "shape_rejected"
      let kept ← clean child (Pointer.push path key) depth
      pure [(key, kept)]
termination_by structural field

end

/-! ### Fragments -/

/-- Leave out the members of a fragment that have the wrong shape; the fields that stay, and the names of
those that were left out. -/
def retainFields (path : String) : List (String × Json) → Projecting (List (String × Json) × List String)
  | [] => pure ([], [])
  | (key, child) :: rest =>
    if isMisshapen key child then do
      leaveOut (Pointer.push path key)
      let others ← retainFields path rest
      pure (others.1, key :: others.2)
    else do
      let others ← retainFields path rest
      pure ((key, child) :: others.1, others.2)

variable (fields : List (String × Json)) (value : Json)

/-- The type of a fragment, if it is a known one. -/
def fragmentType : Option String :=
  (((object fields).get "type").bind Json.asStr).filter fun type => type ∈ fragmentTypes

def fragment (path : String) (depth : Nat) : Projecting (Json × FragmentState) := do
  bound depth
  let fields ← okOr value.members "source_fragment_rejected"
  match fragmentType fields with
  | none => do
    leaveOutKeys path (fields.map Prod.fst)
    pure (.object [], { type := none, taintedFields := [] })
  | some type => do
    let retained ← (if type = "THINK" then pure (fields, []) else retainFields path fields)
    let value ← clean (.object retained.1) path depth
    pure (value, { type := some type, taintedFields := retained.2 })

/-- The fragments of a list, from an index on. -/
def fragmentItems (path : String) (depth : Nat) : List Json → Nat → Projecting (List (Json × FragmentState))
  | [], _ => pure []
  | item :: rest, index => do
    let first ← fragment item (Pointer.push path (toString index)) (depth + 1)
    let others ← fragmentItems path depth rest (index + 1)
    pure (first :: others)

def fragments (path : String) (depth : Nat) : Projecting (Json × List FragmentState) := do
  let items ← okOr (value.asArray.filter fun items => items.length ≤ 10000) "source_fragment_rejected"
  let projected ← fragmentItems path depth items 0
  pure (.array (projected.map Prod.fst), projected.map Prod.snd)

/-! ### Responses -/

/-- Leave out the members of an object whose names are not among those known, and not private. -/
def retainKnown (known : List String) (path : String) : List (String × Json) → Projecting (List (String × Json))
  | [] => pure []
  | (key, child) :: rest =>
    if key ∈ known ∨ isPrivate key = true then do
      let others ← retainKnown known path rest
      pure ((key, child) :: others)
    else do
      leaveOut (Pointer.push path key)
      retainKnown known path rest

/-- `{...object, fragments}`. -/
def withFragments (value fragments : Json) : Json :=
  match value with
  | .object fields => .object (fields ++ [("fragments", fragments)])
  | value => value

def response (path : String) (depth : Nat) : Projecting Json := do
  let fields ← okOr value.members "source_response_rejected"
  let retained ← retainKnown responseFields path fields
  modify (ProjectionState.setTypes none)
  match (object retained).get "fragments" with
  | none => clean (.object retained) path depth
  | some listed => do
    let result ← fragments listed (Pointer.push path "fragments") (depth + 1)
    modify (ProjectionState.setTypes (some result.2))
    let rest ← clean (.object (retained.filter fun field => field.1 ≠ "fragments")) path depth
    pure (withFragments rest result.1)

/-! ### Deltas -/

/-- `path.split("/").filter(Boolean)`. -/
def pathParts (path : String) : List String :=
  ((path.toList.splitOn '/').filter (· ≠ [])).map String.ofList

/-- `/^-?\d+$/u`. -/
def isIndex (part : String) : Bool :=
  let digits := if part.toList.head? = some '-' then part.toList.tail else part.toList
  digits ≠ [] && digits.all Text.isAsciiDigit

/-- The position a number stands for in a list, from the end if it is negative. -/
def position (length : Nat) (number : Int) : Option Nat :=
  let index := if number < 0 then length + number else number
  if 0 ≤ index then some index.toNat else none

/-- What is at a place a delta addresses, if that is known. -/
def stateAt (types : Option (List FragmentState)) (number : Option Int) : Option FragmentState := do
  let number ← number
  let types ← types
  let index ← position types.length number
  types[index]?

/-- Put a value over a place of a list, or after the last one. -/
def putAt {α : Type} (list : List α) (index : Nat) (value : α) : List α :=
  if index < list.length then list.set index value else list ++ [value]

/-- `list.splice(number, 0, ...values)`. -/
def insertAt {α : Type} (list : List α) (number : Int) (values : List α) : List α :=
  let start := if number < 0 then (list.length + number).toNat else min number.toNat list.length
  list.take start ++ values ++ list.drop start

/-- The number of a place: digits, with a sign, that stand for a safe integer. -/
def indexNumber (part : String) : Option Int :=
  if isIndex part then (Js.integerOf part).filter fun n => n.natAbs ≤ Js.maxSafeInteger else none

/-- The value that a delta replaces the fragments of the response with, or appends to them. -/
def fragmentsLeaf (operation place : String) (depth : Nat) : Projecting Json := do
  let result ← fragments value place depth
  let types ← read ProjectionState.types
  let next ← (if operation = "SET" then pure result.2
    else do
      let types ← okOr types "shape_rejected"
      pure (types ++ result.2))
  modify (ProjectionState.setTypes (some next))
  failIf (10000 < next.length) "shape_rejected"
  pure result.1

/-- The value that a delta puts at a place of the fragments, or inserts before it. -/
def fragmentLeaf (types : List FragmentState) (number : Int) (value : Json) (operation place : String)
    (depth : Nat) : Projecting Json := do
  if operation = "APPEND" then do
    let result ← fragments value place depth
    let next := insertAt types number result.2
    modify (ProjectionState.setTypes (some next))
    failIf (10000 < next.length) "shape_rejected"
    pure result.1
  else do
    let index ← okOr ((position types.length number).filter (· ≤ types.length)) "path_rejected"
    let result ← fragment value place depth
    modify (ProjectionState.setTypes (some (putAt types index result.2)))
    pure result.1

/-- The value that a delta sends to a field of a fragment that is no reasoning. -/
def fieldLeaf (types : List FragmentState) (index : Nat) (state : FragmentState) (field : String)
    (value : Json) (operation place : String) (depth : Nat) : Projecting Json := do
  let shape ← okOr (fragmentFieldShape field) "path_rejected"
  failIf (shape value = false ∨ (operation = "APPEND" ∧ field ∈ state.taintedFields)
      ∨ (operation = "APPEND" ∧ (field = "status" ∨ (value.asStr.isSome || value.isArray) = false)))
    "source_fragment_rejected"
  let cleaned ← clean value place depth
  let tainted := if operation = "SET" then state.taintedFields.filter (· ≠ field)
    else state.taintedFields
  modify (ProjectionState.setTypes (some (types.set index { state with taintedFields := tainted })))
  pure cleaned

/-- The value of a delta that is no batch, unless it is left out. -/
def leaf (path operation place : String) (depth : Nat) : Projecting (Option Json) := do
  let types ← read ProjectionState.types
  let parts := pathParts path
  failIf (parts[0]? = some "response" ∧ parts[1]? = some "fragments" ∧ 3 < parts.length
      ∧ (parts.length ≠ 4 ∨ (stateAt types (parts[2]?.bind Js.integerOf)).any fun state => state.type.isNone))
    "path_rejected"
  if parts.any isPrivate then do
    leaveOut place
    pure none
  else
    match parts with
    | [] => do
      failIf (operation ≠ "SET") "source_root_rejected"
      let fields ← okOr (value.members.filter fun fields => fields.all fun field =>
        field.1 = "response") "source_root_rejected"
      let child ← okOr ((object fields).get "response") "source_response_rejected"
      let kept ← response child (Pointer.push place "response") depth
      pure (some (.object [("response", kept)]))
    | first :: rest => do
      failIf (first ≠ "response") "path_rejected"
      match rest with
      | [] => do
        failIf (operation ≠ "SET") "shape_rejected"
        let kept ← response value place depth
        pure (some kept)
      | second :: rest => do
        failIf (second ∉ responseFields) "path_rejected"
        if second ≠ "fragments" then do
          failIf (rest ≠ []) "path_rejected"
          failIf (operation ≠ "SET") "shape_rejected"
          let kept ← clean value place depth
          pure (some kept)
        else
          match rest with
          | [] => do
            let kept ← fragmentsLeaf value operation place depth
            pure (some kept)
          | part :: fields => do
            let types ← okOr types "path_rejected"
            let number ← okOr (indexNumber part) "path_rejected"
            match fields with
            | [] => do
              let kept ← fragmentLeaf types number value operation place depth
              pure (some kept)
            | [field] => do
              let index ← okOr ((position types.length number).filter (· < types.length)) "path_rejected"
              let state ← okOr types[index]? "path_rejected"
              failIf (field = "type" ∨ state.type = none) "path_rejected"
              if state.type = some "THINK" then do
                leaveOut place
                pure none
              else do
                let kept ← fieldLeaf types index state field value operation place depth
                pure (some kept)
            | _ => throw "path_rejected"

/-- The path and the operation that a delta without its own goes on with. -/
structure Scope where
  (path operation : String)

def Scope.initial : Scope :=
  { path := "", operation := "SET" }

/-- `value ?? fallback` of a text. -/
def inherited (value : Option Json) (fallback : String) : Option String :=
  match value with
  | none => some fallback
  | some .null => some fallback
  | some (.string text) => some text
  | _ => none

/-- What a delta says: its path, its operation and its value. -/
def readDelta (scope : Scope) : Projecting (Scope × Json) := do
  failIf (fields.any (fun field => field.1 ∉ ["p", "o", "v"]) = true) "source_delta_rejected"
  let value ← okOr ((object fields).get "v") "source_delta_rejected"
  let path ← okOr ((inherited ((object fields).get "p") scope.path).filter fun path =>
    Js.length path ≤ 2048) "path_rejected"
  let operation ← okOr ((inherited ((object fields).get "o") scope.operation).filter fun operation =>
    operation ∈ ["SET", "APPEND", "BATCH"]) "source_delta_rejected"
  pure ({ path, operation }, value)

/-- `{...fields, key: value}` where there is such a member, or without it. -/
def replaceMember (key : String) (value : Option Json) : List (String × Json) :=
  fields.flatMap fun field =>
    if field.1 = key then value.toList.map fun v => (key, v) else [field]

/-- `prefix ? prefix/path : path`. -/
def absolutePath (above path : String) : String :=
  if above = "" then path else above ++ "/" ++ path

/-- The deltas of a batch, which share a scope of their own. -/
def deltaItems (one : Json → Scope → String → Projecting (Json × Scope)) (place : String) :
    List Json → Nat → Scope → Projecting (List Json)
  | [], _, _ => pure []
  | item :: rest, index, scope => do
    let first ← one item scope (Pointer.push place (toString index))
    let others ← deltaItems one place rest (index + 1) first.2
    pure (first.1 :: others)

/-- One delta and the scope after it; a batch may hold so many levels of deltas. -/
def delta : Nat → JsValue → Scope → String → String → Projecting (Json × Scope)
  | 0, _, _, _, _ => throw "shape_rejected"
  | levels + 1, data, scope, above, place => do
    let depth := 32 - levels
    bound depth
    let fields ← okOr (data.bind Json.members) "source_delta_rejected"
    let said ← readDelta fields scope
    let absolute := absolutePath above said.1.path
    if said.1.operation = "BATCH" then do
      let items ← okOr said.2.asArray "source_delta_rejected"
      let kept ← deltaItems (fun item scope place => delta levels (some item) scope absolute place)
        (Pointer.push place "v") items 0 Scope.initial
      pure (.object (replaceMember fields "v" (some (.array kept))), said.1)
    else do
      let kept ← leaf said.2 absolute said.1.operation (Pointer.push place "v") (depth + 1)
      pure (.object (replaceMember fields "v" kept), said.1)

/-! ### Messages -/

/-- `{...message}` without the transport identifier. -/
def dropId (place : String) : Projecting (List (String × Json)) := do
  match (object fields).get "id" with
  | none => pure fields
  | some id => do
    failIf (id.asStr = none) "identifier_rejected"
    leaveOut (Pointer.push place "id")
    pure (replaceMember fields "id" none)

/-- An event whose data is left out as a whole. -/
def auxiliaryMessage (place : String) : Projecting (List (String × Json)) := do
  failIf (((object fields).get "data").isNone ∨ ((object fields).get "raw_data").isSome) "source_event_rejected"
  leaveOut (Pointer.push place "data")
  pure (replaceMember fields "data" none)

/-- An event that carries a delta. -/
def deltaMessage (scope : Scope) (place : String) : Projecting (List (String × Json) × Scope) := do
  failIf (((object fields).get "raw_data").isSome = true) "source_event_rejected"
  let projected ← delta 33 ((object fields).get "data") scope "" (Pointer.push place "data")
  pure (replaceMember fields "data" (some projected.1), projected.2)

/-- Opaque finish data is left out. -/
def dropRawData (event place : String) : Projecting (List (String × Json)) := do
  match (object fields).get "raw_data" with
  | none => pure fields
  | some _ => do
    failIf (event ≠ "finish") "source_event_rejected"
    leaveOut (Pointer.push place "raw_data")
    pure (replaceMember fields "raw_data" none)

/-- A named event: of its data, the members known for it. -/
def namedMessage (event place : String) : Projecting (List (String × Json)) := do
  let known ← okOr (eventFields event) "source_event_rejected"
  let fields ← dropRawData fields event place
  match (object fields).get "data" with
  | none => do
    failIf (event ≠ "finish") "source_event_rejected"
    pure fields
  | some data => do
    let members ← okOr data.members "source_event_rejected"
    let retained ← retainKnown known (Pointer.push place "data") members
    let kept ← clean (.object retained) (Pointer.push place "data") 0
    pure (replaceMember fields "data" (some kept))

/-- One message and the scope after it. -/
def projectMessage (message : Json) (scope : Scope) (place : String) : Projecting (Json × Scope) := do
  let fields ← okOr (message.members.filter fun fields =>
    fields.all fun field => field.1 ∈ ["event", "data", "raw_data", "id"]) "source_event_rejected"
  let event ← okOr (inherited (message.get "event") "") "source_event_rejected"
  let result ← dropId fields place
  if event ∈ omittedAuxiliaryEvents then do
    let result ← auxiliaryMessage result place
    pure (.object result, scope)
  else if event ∈ deltaEvents then do
    let result ← deltaMessage result scope place
    pure (.object result.1, result.2)
  else do
    let result ← namedMessage result event place
    pure (.object result, scope)

def projectMessages : List Json → Nat → Scope → Projecting (List Json)
  | [], _, _ => pure []
  | message :: rest, index, scope => do
    let first ← projectMessage message scope (Pointer.push "/messages" (toString index))
    let others ← projectMessages rest (index + 1) first.2
    pure (first.1 :: others)

/-- The members of an exchange that are kept beside its messages. -/
def transportKeys : List String :=
  ["received_at", "started_at", "sse_terminal", "created_session", "capture_status"]

/-- The projected exchange, and the paths left out of it. -/
structure Projection where
  exchange : Json
  omittedPaths : List String
  deriving DecidableEq

/-- `geo.observation.source-redaction.v1`. -/
def Projection.redaction (p : Projection) : Json :=
  .object
    [("schema_version", .string "geo.observation.source-redaction.v1"),
      ("policy", .string "reasoning-and-private-fields"), ("omitted_paths", .array (p.omittedPaths.map .string))]

/-- The messages of an exchange, within the limits. -/
def admittedMessages [JsonSize] (exchange : Json) : Option (List Json) := do
  let messages ← (exchange.get "messages").bind Json.asArray
  if messages.length ≤ 10000 ∧ JsonSize.byteLength (.array messages) ≤ 750000 then some messages
  else none

def projectDeepseekSource [JsonSize] (exchange : Json) : Except String Projection := do
  let messages ← Except.okOr (admittedMessages exchange) "shape_rejected"
  let run := (projectMessages messages 0 Scope.initial).run { visited := 0, omitted := [], types := none }
  let projected ← run.1
  let kept := transportKeys.filterMap fun key => (exchange.get key).map fun value => (key, value)
  pure { exchange := .object (("messages", .array projected) :: kept), omittedPaths := run.2.omitted }

end SourceProjection

end GeoMaster
