import GeoMaster.Domain.JsValue
import GeoMaster.Lib.Op

/-!
# History in the agent runtime

`normalizeHistory` of the runtime takes the history of a turn as the JSON it was sent and either
returns its messages or throws. A value is read as JavaScript reads the JSON text: an absent member is
no string and no number, and a float that prints as an integer is that integer.
-/

namespace GeoMaster

open Except

namespace AgentRuntime

def maxHistoryMessages : Nat :=
  40

def maxHistoryBytes : Nat :=
  128 * 1024

/-- A message of the history, as the runtime goes on with it. -/
structure NormalizedMessage where
  (messageId turnId role content : String)

/-- A text that is a string and not blank. -/
def requiredString (value : Option Json) (field : String) : Except String String :=
  match value with
  | some (.string text) =>
    if Js.isBlank text then .error s!"{field} must be a non-empty string." else .ok text
  | _ => .error s!"{field} must be a non-empty string."

def requiredPositiveSafeInteger (value : Option Json) (field : String) : Except String Nat :=
  match JsValue.safeInteger value with
  | some n => .ok n
  | none => .error s!"{field} must be a non-negative safe integer."

/-- The members a message may have. -/
def canonicalFields : List String :=
  ["message_id", "role", "content", "root_message_id", "sequence"]

/-- The object has no other member. -/
def hasOnlyFields (allowed : List String) : Json → Bool
  | .object fields => fields.all fun field => field.1 ∈ allowed
  | _ => false

/-- An identifier longer than 512 bytes, or with an ASCII control character. -/
def isMalformedId (id : String) : Bool :=
  Text.len id > 512 ∨ id.toList.any fun c => c.toNat < 32 ∨ c.toNat = 127

/-- What `normalizeHistory` remembers between two messages: the identifiers it has seen, the number of
the last message if there is one, and that message. -/
structure HistoryCursor where
  index : Nat
  ids : List String
  previousSequence : Option Nat
  previousId : String

/-- The role of the message at a position. -/
def roleAt (index : Nat) : String :=
  if index % 2 = 0 then "user" else "assistant"

def pairsError : String :=
  "history requires ordered, unique, complete prior user/assistant pairs."

/-- One message, and what to remember of it. -/
def normalizeMessage (cursor : HistoryCursor) (message : Json) :
    Except String (NormalizedMessage × HistoryCursor) := do
  failIf (hasOnlyFields canonicalFields message = false)
    "history permits only canonical text message fields."
  let messageId ← requiredString (message.get "message_id") "history.message_id"
  let rootMessageId ← requiredString (message.get "root_message_id") "history.root_message_id"
  let sequence ← requiredPositiveSafeInteger (message.get "sequence") "history.sequence"
  let role := roleAt cursor.index
  failIf
    (messageId ∈ cursor.ids ∨ isMalformedId messageId ∨ isMalformedId rootMessageId
      ∨ (∃ previous ∈ cursor.previousSequence, sequence ≤ previous)
      ∨ message.get "role" ≠ some (.string role))
    pairsError
  let content ← okOr ((message.get "content").bind Json.asStr) pairsError
  failIf
    ((role = "assistant" ∧ Js.isBlank content)
      ∨ rootMessageId ≠ (if role = "user" then messageId else cursor.previousId))
    pairsError
  pure
    ({ messageId, turnId := rootMessageId, role, content },
      { index := cursor.index + 1
        ids := messageId :: cursor.ids
        previousSequence := some sequence
        previousId := messageId })

def normalizeMessages (cursor : HistoryCursor) : List Json → Except String (List NormalizedMessage)
  | [] => .ok []
  | message :: rest => do
    let (normalized, cursor) ← normalizeMessage cursor message
    let others ← normalizeMessages cursor rest
    pure (normalized :: others)

def normalizeHistory (value : Json) (currentMessageId : String) : Except String (List NormalizedMessage) := do
  let bounded := "history must contain at most 20 complete bounded turns."
  let messages ← okOr value.asArray bounded
  failIf (messages.length > maxHistoryMessages ∨ messages.length % 2 ≠ 0 ∨ value.toVecLen > maxHistoryBytes) bounded
  normalizeMessages { index := 0, ids := [currentMessageId], previousSequence := none, previousId := "" } messages

end AgentRuntime

end GeoMaster
