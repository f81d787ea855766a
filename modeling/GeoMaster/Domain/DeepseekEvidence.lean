import GeoMaster.Domain.SourceRedaction

/-!
# Evidence of a conversation

An exchange proves its completion with records beside its messages: who owns the conversation, and a
lifecycle with the history that was read back. The stream of messages is checked against the identifiers of
the lifecycle. A stored source without a lifecycle is completed later, from a history that is read again.
-/

namespace GeoMaster

open Text Json JsValue

namespace DeepseekEvidence

open SourceRedaction

/-- `closed(value, required, optional)`: an object with these members and no others. -/
def closed (value : JsValue) (required optional : List String) : Bool :=
  match value with
  | some (.object fields) =>
    required.all (fun key => ((object fields).get key).isSome) && fields.all fun field => field.1 ∈ required ++ optional
  | _ => false

/-- `object(value)`. -/
def isObject (value : JsValue) : Bool :=
  value.any Json.isObject

/-- A text of so many characters at most, all of them allowed. -/
def isWord (allowed : Char → Bool) (limit : Nat) (value : JsValue) : Bool :=
  value.asString.any fun text => text ≠ "" && Js.length text ≤ limit && text.toList.all allowed

def isLetterOrDigit (c : Char) : Bool :=
  isAsciiDigit c || ('a' ≤ c && c ≤ 'z') || ('A' ≤ c && c ≤ 'Z')

def chatId (value : JsValue) : Bool :=
  isWord (fun c => isLetterOrDigit c || c = '_' || c = '-') 128 value

def model (value : JsValue) : Bool :=
  isWord (fun c => isLetterOrDigit c || c = '_' || c = '.' || c = '-') 128 value

/-- `Object.is(value, -0)`, of a number that is zero. -/
def isNegativeZero (value : JsValue) : Bool :=
  match value with
  | some (.number (.float text)) => text.toList.head? = some '-' && value.isNumber 0
  | _ => false

def messageId (value : JsValue) : Bool :=
  value.safeInteger.isSome && !isNegativeZero value

/-- `\d{count}` at the front, with its value and the rest. -/
def digitsFront (count : Nat) (chars : List Char) : Option (Nat × List Char) :=
  let digits := chars.take count
  if digits.length = count && digits.all isAsciiDigit then
    some (digitsValue digits, chars.drop count)
  else none

/-- One of some characters at the front. -/
def charFront (allowed : List Char) (chars : List Char) : Option (List Char) :=
  match chars with
  | c :: rest => if c ∈ allowed then some rest else none
  | [] => none

/-- `(?:\.\d+)?`. -/
def dropFraction (chars : List Char) : Option (List Char) :=
  match chars with
  | '.' :: rest =>
    if (rest.takeWhile isAsciiDigit) ≠ [] then some (rest.dropWhile isAsciiDigit) else none
  | _ => some chars

/-- `(?:[Zz]|([+-])(\d{2}):(\d{2}))$`, with hours and minutes that exist. -/
def isZone (chars : List Char) : Bool :=
  match chars with
  | ['Z'] => true
  | ['z'] => true
  | sign :: rest =>
    (sign = '+' || sign = '-') && (do
      let (hour, rest) ← digitsFront 2 rest
      let rest ← charFront [':'] rest
      let (minute, rest) ← digitsFront 2 rest
      if rest = [] then some (hour ≤ 23 && minute ≤ 59 : Bool) else none) = some true
  | [] => false

def daysIn (year month : Nat) : Nat :=
  let leap := year % 4 = 0 ∧ (year % 100 ≠ 0 ∨ year % 400 = 0)
  ([31, if leap then 29 else 28, 31, 30, 31, 30, 31, 31, 30, 31, 30, 31][month - 1]?).getD 0

def timestamp (value : JsValue) : Bool :=
  value.asString.any fun text =>
    Js.length text ≤ 64 && (do
      let (year, rest) ← digitsFront 4 text.toList
      let rest ← charFront ['-'] rest
      let (month, rest) ← digitsFront 2 rest
      let rest ← charFront ['-'] rest
      let (day, rest) ← digitsFront 2 rest
      let rest ← charFront ['T', 't'] rest
      let (hour, rest) ← digitsFront 2 rest
      let rest ← charFront [':'] rest
      let (minute, rest) ← digitsFront 2 rest
      let rest ← charFront [':'] rest
      let (second, rest) ← digitsFront 2 rest
      let rest ← dropFraction rest
      pure (isZone rest && 1 ≤ month && month ≤ 12 && 1 ≤ day && day ≤ daysIn year month
        && hour ≤ 23 && minute ≤ 59 && second ≤ 60 : Bool)) = some true

/-! ### Records -/

/-- The record's part of a name. -/
def part (record : JsValue) (key : String) : JsValue :=
  record.optionalMember key

def validCreationSubmission (record : JsValue) : Bool :=
  let creation := part record "creation"
  let submission := part record "submission"
  closed creation ["source", "chat_session_id"] [] && (part creation "source").isText "browser_observed_create"
    && chatId (part creation "chat_session_id")
    && closed submission ["chat_session_id", "parent_message_id", "model_type", "prompt_sha256",
        "search_enabled", "thinking_enabled"] []
    && (part submission "chat_session_id").strictEq (part creation "chat_session_id")
    && part submission "parent_message_id" = some .null
    && model (part submission "model_type")
    && (part submission "prompt_sha256").asString.any (fun text =>
        text.toList.length = 64 && text.toList.all fun c => isAsciiDigit c || ('a' ≤ c && c ≤ 'f'))
    && part submission "search_enabled" = some (.bool true)
    && part submission "thinking_enabled" = some (.bool false)

def validDeepSeekOwnership (ownership : JsValue) : Bool :=
  closed ownership ["schema_version", "provider", "creation", "submission"] []
    && (part ownership "schema_version").isText "geo.deepseek.ownership.v1" && (part ownership "provider").isText
    "deepseek" && validCreationSubmission ownership

/-- A message of a history that is finished. -/
def isFinishedMessage (message : JsValue) : Bool :=
  closed message ["message_id", "parent_id", "role", "status", "has_pending_fragment"] ["quasi_status"] && messageId
    (part message "message_id") && (part message "status").isText "FINISHED" && part message "has_pending_fragment"
    = some (.bool false) && ((part message "quasi_status").isNullish || (part message "quasi_status").isText "FINISHED")

/-- The question or the answer of the conversation, if it is the first of its kind. -/
def countMessage (ready : JsValue) (seen : Bool × Bool) (message : Json) : Option (Bool × Bool) :=
  let id := part (some message) "message_id"
  let parent := part (some message) "parent_id"
  let role := part (some message) "role"
  let request := part ready "request_message_id"
  if isFinishedMessage (some message) = false then none
  else if role.isText "USER" && id.strictEq request && parent = some .null && !seen.1 then
    some (true, seen.2)
  else if role.isText "ASSISTANT" && id.strictEq (part ready "response_message_id")
      && parent.strictEq request && !seen.2 then
    some (seen.1, true)
  else none

def validHistory (creation ready history : JsValue) : Bool :=
  let cache := part history "cache_request"
  let current := part history "current_message_id"
  closed history ["source", "observed_at", "cache_request", "cache_control", "chat_session_id", "messages"]
      ["current_message_id"]
    && (part history "source").isText "browser_observed_history"
    && timestamp (part history "observed_at")
    && closed cache ["cache_version", "cache_reset_at"] []
    && part cache "cache_version" = some .null && part cache "cache_reset_at" = some .null
    && (part history "cache_control").isText "REPLACE"
    && (part history "chat_session_id").strictEq (part creation "chat_session_id")
    && (current.isNullish || current.strictEq (part ready "response_message_id"))
    && (match (part history "messages").asArray with
      | some messages => messages.length = 2 && messages.foldlM (countMessage ready) (false, false) = some (true, true)
      | none => false)

def validDeepSeekLifecycle (lifecycle : JsValue) : Bool :=
  let ready := part lifecycle "ready"
  closed lifecycle ["schema_version", "provider", "creation", "submission", "ready", "sse_terminal", "history"] []
    && (part lifecycle "schema_version").isText "geo.deepseek.lifecycle.v1" && (part lifecycle "provider").isText
    "deepseek" && part lifecycle "sse_terminal" = some (.bool true) && validCreationSubmission lifecycle && closed ready
    ["request_message_id", "response_message_id"] [] && messageId (part ready "request_message_id") && messageId
    (part ready "response_message_id") && !(part ready "request_message_id").strictEq (part ready "response_message_id")
    && validHistory (part lifecycle "creation") ready (part lifecycle "history")

/-- Two records agree on the members of a section of the first one. -/
def sameSection (ownership lifecycle : JsValue) (section_ : String) : Bool :=
  match (part ownership section_).bind members with
  | some fields => fields.all fun field =>
    (part (part ownership section_) field.1).strictEq (part (part lifecycle section_) field.1)
  | none => true

/-- A message that names the model, if it is the ready event, names the model of the submission. -/
def namesModel (expected : JsValue) (message : Json) : Bool :=
  !(part (some message) "event").isText "ready"
    || (isObject (part (some message) "data")
      && ((part (part (some message) "data") "model_type").isNullish
        || (part (part (some message) "data") "model_type").strictEq expected))

def validDeepSeekEvidence (exchange : Json) : Bool :=
  let ownership := exchange.get "ownership"
  let lifecycle := exchange.get "lifecycle"
  (ownership.isSome || lifecycle.isSome) && (ownership.isNone || validDeepSeekOwnership ownership)
    && (lifecycle.isNone || validDeepSeekLifecycle lifecycle)
    && (ownership.isNone
      || ((lifecycle.isNone
          || (sameSection ownership lifecycle "creation" && sameSection ownership lifecycle "submission"))
        && ((exchange.get "messages").bind Json.asArray).any fun messages =>
          messages.all (namesModel (part (part ownership "submission") "model_type"))))

/-! ### The stream -/

/-! ### Completion -/

/-- `{...exchange, key: value}` of a member that is put last. -/
def withMember (exchange : Json) (key : String) (value : Json) : Json :=
  match exchange with
  | .object fields => .object (fields.filter (fun field => field.1 ≠ key) ++ [(key, value)])
  | exchange => exchange

/-! ### The document of a source -/

mutual

/-- A value without private and reasoning members. -/
def cleanDocument (value : Json) : Json :=
  match value with
  | .array items => .array (cleanItems items)
  | .object fields => .object (cleanFields fields)
  | value => value
termination_by structural value

def cleanItems (items : List Json) : List Json :=
  match items with
  | [] => []
  | item :: rest => cleanDocument item :: cleanItems rest
termination_by structural items

def cleanFields (fields : List (String × Json)) : List (String × Json) :=
  match fields with
  | [] => []
  | field :: rest => cleanField field ++ cleanFields rest
termination_by structural fields

def cleanField (field : String × Json) : List (String × Json) :=
  match field with
  | (key, child) => if SourceNames.isPrivate key then [] else [(key, cleanDocument child)]
termination_by structural field

end

/-- The runner's own check of a capture status. -/
def isCaptureStatus (status : Json) : Bool :=
  match status with
  | .object fields =>
    let transport := asString ((object fields).get "transport")
    let termination := asString ((object fields).get "termination")
    fields.length = 3 && isText ((object fields).get "schema_version") "geo.observation.capture-status.v1"
      && ((transport = some "complete" && termination = some "complete")
        || (transport = some "partial" && termination.any fun text =>
          text ∈ ["eof", "timeout", "aborted", "malformed", "limit_exceeded"]))
  | _ => false

/-- `observationDocument(exchange, renderedText)`. -/
def observationDocument (exchange : Json) (renderedText : Option String) : Except String Json := do
  let messages := (exchange.get "messages").map cleanDocument
  let document : List (String × Json) :=
    (messages.toList.map fun messages => ("messages", messages))
      ++ renderedText.toList.map fun text => ("rendered_text", .string text)
  let status := exchange.get "capture_status"
  Except.failIf (status.any (fun status => !isCaptureStatus status) = true) "observation_capture_status_invalid"
  let document := document ++ status.toList.map fun status => ("capture_status", status)
  let redaction ← (exchange.get "source_redaction").mapM fun manifest => sourceRedaction manifest (.object document)
  let document := document ++ redaction.toList.map fun manifest => ("source_redaction", manifest)
  let ownership := exchange.get "ownership"
  let lifecycle := exchange.get "lifecycle"
  Except.failIf ((ownership.isSome || lifecycle.isSome) = true ∧ validDeepSeekEvidence exchange = false)
    "observation_lifecycle_invalid"
  pure (.object (document ++ ownership.toList.map (fun record => ("ownership", record))
    ++ lifecycle.toList.map fun record => ("lifecycle", record)))

end DeepseekEvidence

end GeoMaster
