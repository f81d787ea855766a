import GeoMaster.Domain.CycleInputs
import GeoMaster.Domain.KnowledgeChunks
import GeoMaster.Lib.Calls

/-!
# Connector capabilities

Which connectors an operator may publish through. A connector is proved by live publications that were read back;
the proofs of an operator are kept for good, and its settings name the formats it wants out of those that are proved
for the deployed version. Whether a connector is available is read off the settings and the proofs each time.
-/

namespace GeoMaster

open Except Text

structure ConnectorKey where
  (platformId placementSlot : String)
  deriving DecidableEq

structure ConnectorSettings where
  key : ConnectorKey
  revision : Int
  enabled : Bool
  /-- Operator-chosen subset of independently proven document formats. -/
  contentTypes : List String

structure ConnectorVerification where
  verificationId : Uuid
  key : ConnectorKey
  (connectorVersion contentType : String)
  (publicationReceipt publicReadback : ChannelOutcome)
  verifiedAt : DateTime

inductive ConnectorAvailability where
  | unavailable
  | disabled
  | versionMismatch
  | unsupportedContentType
  | available
  deriving DecidableEq

structure ConnectorResolution where
  availability : ConnectorAvailability
  settings : Option ConnectorSettings
  verificationId : Option Uuid

/-! ### Labels -/

/-- `str::contains`. -/
def Text.contains (s needle : String) : Bool :=
  s.toList.tails.any fun rest => needle.toList.isPrefixOf rest

/-- A character of a label: an ASCII letter or digit, a dot, an underscore, a hyphen, a slash or a plus. -/
def isLabelChar (c : Char) : Bool :=
  isAsciiDigit c || ('a' ≤ c && c ≤ 'z') || ('A' ≤ c && c ≤ 'Z') || c ∈ ['.', '_', '-', '/', '+']

def validLabel (label : String) : Bool :=
  !label.isEmpty && len label ≤ 128 && trim label = label && label.toList.all isLabelChar

def ConnectorKey.validate (key : ConnectorKey) : Except AppError Unit :=
  failIf (¬ validLabel key.platformId ∨ ¬ validLabel key.placementSlot) (.invalidRequest "invalid connector key")

/-- A version that does not name a fixture. -/
def isFixtureVersion (version : String) : Bool :=
  contains (toAsciiLowercase version) "fixture"

def trustedVersion (version : String) : Bool :=
  validLabel version && !isFixtureVersion version && !contains (toAsciiLowercase version) "unverified"
    && !contains (toAsciiLowercase version) "source_derived"

/-! ### Proofs -/

/-- The fragment of an absolute address. -/
class UrlFragments where
  fragment : String → Option String

def Json.asBool : Json → Option Bool
  | .bool b => some b
  | _ => none

/-- `value.get(key).and_then(as_bool)`. -/
def Json.flag (v : Json) (key : String) : Option Bool :=
  (v.get key).bind Json.asBool

variable [UrlParser] [UrlFragments]

/-- An address a publication can be read back at. -/
def isPublicUrl (url : String) : Bool :=
  match UrlParser.parse url with
  | some parsed =>
    parsed.scheme = "https" && parsed.host.isSome && parsed.username.isEmpty
      && parsed.password.isNone && (UrlFragments.fragment url).isNone
  | none => false

/-- The runner found the published content under the address, owned by the account. -/
def provesReadback (readback : Option String) (proof : Json) : Bool :=
  proof.str "kind" = some "public_readback" && proof.str "url" = readback && proof.flag "content_matched" = some true
    && proof.flag "owned_by_account" = some true
    && (proof.str "expected_sha256").any fun hash =>
      len hash = 64 && hash.toList.all isAsciiHexdigit && proof.str "readback_sha256" = some hash

namespace ConnectorVerification

def validateInner (self : ConnectorVerification) (legacyVersionPolicy : Bool) : Except AppError Unit := do
  self.key.validate
  failIf (self.contentType = richMarkdownFormat)
    (.invalidRequest "rich publication requires structured and media readback proof")
  failIf
    (self.verificationId.isNil ∨ (legacyVersionPolicy ∧ ¬ trustedVersion self.connectorVersion)
      ∨ (¬ legacyVersionPolicy ∧ (¬ validLabel self.connectorVersion ∨ isFixtureVersion self.connectorVersion))
      ∨ ¬ validLabel self.contentType
      ∨ self.publicationReceipt.fixture
      ∨ self.publicReadback.fixture
      ∨ ¬ (self.publicationReceipt.status = .published ∨ self.publicationReceipt.status = .verified)
      ∨ self.publicReadback.status ≠ .verified
      ∨ self.publicReadback.occurredAt < self.publicationReceipt.occurredAt
      ∨ self.verifiedAt < self.publicReadback.occurredAt
      ∨ self.publicationReceipt.connectorVersion ≠ some self.connectorVersion
      ∨ self.publicReadback.connectorVersion ≠ some self.connectorVersion)
    (.invalidRequest "trusted live publication and readback required")
  let receipt := self.publicationReceipt.publicUrl.filter fun url => isPublicUrl url
  let readback := self.publicReadback.publicUrl
  failIf (receipt.isNone ∨ receipt ≠ readback ∨ ¬ self.publicReadback.runnerEvidence.any (provesReadback readback))
    (.invalidRequest "matching owned public readback required")

/-- A proof made by a trusted adapter. -/
def validate (self : ConnectorVerification) : Except AppError Unit :=
  self.validateInner true

/-- A proof read off a saved attempt, whose version may be one that is not trusted by its name. -/
def validateSaved (self : ConnectorVerification) : Except AppError Unit :=
  self.validateInner false

/-- The later one of two proofs; the second one where they are equally late. -/
def laterProof (best : Option ConnectorVerification) (v : ConnectorVerification) : Option ConnectorVerification :=
  match best with
  | none => some v
  | some b =>
    if b.verifiedAt < v.verifiedAt ∨ (b.verifiedAt = v.verifiedAt ∧ b.verificationId ≤ v.verificationId) then
      some v
    else some b

end ConnectorVerification

/-! ### Resolution -/

/-- `max_by_key` by the time and the identity of a proof. -/
def latestProof (verifications : List ConnectorVerification) : Option ConnectorVerification :=
  verifications.foldl ConnectorVerification.laterProof none

def resolveConnector (settings : Option ConnectorSettings)
    (verifications : List ConnectorVerification) (deployedVersion contentType : String) : ConnectorResolution :=
  match settings with
  | none => { availability := .unavailable, settings, verificationId := none }
  | some current =>
    if contentType = richMarkdownFormat then
      { availability := .unsupportedContentType, settings, verificationId := none }
    else if ¬ current.enabled then
      { availability := .disabled, settings, verificationId := none }
    else if ¬ validLabel deployedVersion ∨ isFixtureVersion deployedVersion
        ∨ ¬ verifications.any fun v => v.connectorVersion = deployedVersion then
      { availability := .versionMismatch, settings, verificationId := none }
    else if contentType ∉ current.contentTypes then
      { availability := .unsupportedContentType, settings, verificationId := none }
    else
      match latestProof (verifications.filter fun v =>
        v.connectorVersion = deployedVersion ∧ v.contentType = contentType) with
      | some proof =>
        { availability := .available, settings, verificationId := some proof.verificationId }
      | none => { availability := .unsupportedContentType, settings, verificationId := none }

def validateConnectorSettings (enabled : Bool) (contentTypes : List String)
    (verifications : List ConnectorVerification) (deployedVersion : String) : Except AppError Unit := do
  failIf (¬ contentTypes.Nodup ∨ ∃ kind ∈ contentTypes, ¬ validLabel kind)
    (.invalidRequest "invalid connector content types")
  failIf
    (enabled
      ∧ (richMarkdownFormat ∈ contentTypes ∨ contentTypes = [] ∨ ¬ validLabel deployedVersion
        ∨ isFixtureVersion deployedVersion
        ∨ ∃ kind ∈ contentTypes, ¬ verifications.any fun v =>
          v.connectorVersion = deployedVersion && v.contentType = kind && v.validate.isOk))
    (.invalidRequest "each enabled content type requires live verification for the deployed version")

/-! ### The repository -/

/-- The connector of an operator. -/
abbrev ConnectorSlot : Type :=
  OperatorId × ConnectorKey

structure MemoryConnectorState where
  settings : AssocMap ConnectorSlot ConnectorSettings
  records : AssocMap ConnectorSlot (List ConnectorVerification)
  ids : List Uuid

namespace MemoryConnectorState

def default : MemoryConnectorState where
  settings := ∅
  records := ∅
  ids := []

def history (s : MemoryConnectorState) (slot : ConnectorSlot) : List ConnectorVerification :=
  (s.records.lookup slot).getD []

/-- The revision of the settings, `0` where there are none. -/
def revision (s : MemoryConnectorState) (slot : ConnectorSlot) : Int :=
  ((s.settings.lookup slot).map (·.revision)).getD 0

def setSettings (s : MemoryConnectorState) (slot : ConnectorSlot) (settings : ConnectorSettings) :
    MemoryConnectorState :=
  { s with settings := s.settings.insert slot settings }

def pushProof (s : MemoryConnectorState) (slot : ConnectorSlot) (proof : ConnectorVerification) :
    MemoryConnectorState :=
  { s with
    records := s.records.insert slot (s.history slot ++ [proof])
    ids := proof.verificationId :: s.ids }

/-- The settings as they are read. -/
def getSettings (operator : OperatorId) (key : ConnectorKey) :
    Op MemoryConnectorState AppError (Option ConnectorSettings) := do
  Op.lift key.validate
  Op.read fun s => s.settings.lookup (operator, key)

/-- The proofs as they are read. -/
def getHistory (operator : OperatorId) (key : ConnectorKey) :
    Op MemoryConnectorState AppError (List ConnectorVerification) := do
  Op.lift key.validate
  Op.read fun s => s.history (operator, key)

def configure (operator : OperatorId) (key : ConnectorKey) (expectedRevision : Int)
    (enabled : Bool) (contentTypes : List String) (deployedVersion : String) :
    Op MemoryConnectorState AppError ConnectorSettings := do
  Op.lift key.validate
  let previous ← Op.read fun s => s.revision (operator, key)
  Op.failIf (expectedRevision < 0 ∨ expectedRevision = 2 ^ 31 - 1 ∨ previous ≠ expectedRevision)
    (.conflict "connector settings revision changed")
  let verifications ← Op.read fun s => s.history (operator, key)
  Op.lift (validateConnectorSettings enabled contentTypes verifications deployedVersion)
  let settings := { key, revision := previous + 1, enabled, contentTypes : ConnectorSettings }
  Op.modify fun s => s.setSettings (operator, key) settings
  pure settings

def insertVerification (operator : OperatorId) (proof : ConnectorVerification) :
    Op MemoryConnectorState AppError Unit := do
  Op.lift proof.validate
  let known ← Op.read fun s => decide (proof.verificationId ∈ s.ids)
  Op.failIf known (.conflict "verification identity already exists")
  Op.modify fun s => s.pushProof (operator, proof.key) proof

end MemoryConnectorState

/-- What the two reads of `resolve` lead to. The proofs may be those of a later state than the settings. -/
def resolve (operator : OperatorId) (key : ConnectorKey) (deployedVersion contentType : String)
    (s s' : MemoryConnectorState) : Except AppError ConnectorResolution := do
  let settings ← ((MemoryConnectorState.getSettings operator key).run s).1
  let history ← ((MemoryConnectorState.getHistory operator key).run s').1
  pure (resolveConnector settings history deployedVersion contentType)

/-! ### Runs -/

inductive ConnectorCall where
  | configure (operator : OperatorId) (key : ConnectorKey) (expectedRevision : Int)
      (enabled : Bool) (contentTypes : List String) (deployedVersion : String)
  | insertVerification (operator : OperatorId) (proof : ConnectorVerification)

/-- The settings where a call has any to answer with. -/
def ConnectorCall.run : ConnectorCall → Op MemoryConnectorState AppError (Option ConnectorSettings)
  | .configure operator key expectedRevision enabled contentTypes deployedVersion => do
    let settings ←
      MemoryConnectorState.configure operator key expectedRevision enabled contentTypes deployedVersion
    pure (some settings)
  | .insertVerification operator proof => do
    MemoryConnectorState.insertVerification operator proof
    pure none

abbrev ConnectorEvent : Type :=
  CallEvent ConnectorCall AppError (Option ConnectorSettings)

/-- The order of a hash table does not show. -/
def SameConnectors (s s' : MemoryConnectorState) : Prop :=
  (∀ slot, s'.settings.lookup slot = s.settings.lookup slot)
    ∧ (∀ slot, s'.history slot = s.history slot) ∧ ∀ id, id ∈ s'.ids ↔ id ∈ s.ids

/-- Connectors are configured and proved in any order. -/
def connectorMachine : Machine MemoryConnectorState ConnectorEvent :=
  callMachine ConnectorCall.run SameConnectors

end GeoMaster
