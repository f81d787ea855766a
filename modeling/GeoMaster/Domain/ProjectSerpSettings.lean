import Mathlib.Data.Prod.Lex
import GeoMaster.Domain.ReportProjection
import GeoMaster.Lib.Calls
import GeoMaster.Lib.Paging

/-!
# Search sources of a project

The settings of the search sources of a project, and the encrypted credentials under revisions of their own. A save
keeps the active credential or replaces it by a new one, which gets the revision of the settings it was saved with.
Both maps are `BTreeMap`s, so a listing runs through the keys in order.
-/

namespace GeoMaster

open Text

/-! ### Search protocols -/

def serpProtocolVersion : String :=
  "geo.serp.v1"

inductive SerpEngine where
  | google
  deriving DecidableEq

inductive SerpSurface where
  | thirdPartyApi
  deriving DecidableEq

inductive SerpDevice where
  | desktop
  deriving DecidableEq

/-- Requested conditions only. -/
structure SerpProtocol where
  query : String
  engine : SerpEngine
  surface : SerpSurface
  (source sourceLocationCode country : String)
  city : Option String
  language : String
  device : SerpDevice
  operatingSystem : String
  (requestedDepth maxPages priority : Nat)
  (login personalization protocolVersion connectorVersion : String)
  deriving DecidableEq

namespace SerpProtocol

def label (value : String) (max : Nat) : Bool :=
  !isBlank value && len value ≤ max && !value.toList.any isControl

def validate (protocol : SerpProtocol) : Except AppError Unit :=
  Except.failIf
    (¬ label protocol.query 2800 ∨ protocol.query.toList.length > 700 ∨ ¬ label protocol.source 128
      ∨ ¬ label protocol.sourceLocationCode 128
      ∨ ¬ label protocol.country 128
      ∨ ¬ label protocol.language 64
      ∨ (∃ city ∈ protocol.city, ¬ label city 256)
      ∨ protocol.operatingSystem ≠ "windows"
      ∨ protocol.requestedDepth ≠ 10
      ∨ protocol.maxPages ≠ 1
      ∨ protocol.priority ≠ 1
      ∨ protocol.login ≠ "unspecified"
      ∨ protocol.personalization ≠ "unspecified"
      ∨ protocol.protocolVersion ≠ serpProtocolVersion
      ∨ ¬ label protocol.connectorVersion 128)
    (.invalidRequest "invalid search observation contract")

end SerpProtocol

/-! ### Records -/

inductive ProjectSerpProvider where
  | dataforseo

structure ProjectSerpSettingsRecord where
  sourceKey : String
  provider : ProjectSerpProvider
  revision : Int
  enabled : Bool
  protocolDefaults : SerpProtocol
  activeCredentialRevision : Option Int

structure ProjectSerpSettingsWrite where
  sourceKey : String
  provider : ProjectSerpProvider
  enabled : Bool
  protocolDefaults : SerpProtocol
  /-- None preserves the current credential revision; some creates a revision, that of the settings. Login and
  password are encrypted together. -/
  encryptedCredentials : Option (List UInt8)

structure ProjectSerpCredentialRecord where
  sourceKey : String
  credentialRevision : Int
  encryptedCredentials : List UInt8

/-! ### Keys -/

structure ProjectSerpSettingsCursor where
  (operatorId tenantId projectId : Uuid)
  sourceKey : String
  deriving DecidableEq

namespace ProjectSerpSettingsCursor

/-- The fields in the order in which they are compared. -/
def fields (cursor : ProjectSerpSettingsCursor) : Lex (Nat × Lex (Nat × Lex (Nat × String))) :=
  toLex (cursor.operatorId.bits.toNat,
    toLex (cursor.tenantId.bits.toNat, toLex (cursor.projectId.bits.toNat, cursor.sourceKey)))

theorem fields_injective : Function.Injective fields := by
  intro a b h
  obtain ⟨⟨o⟩, ⟨t⟩, ⟨p⟩, k⟩ := a
  obtain ⟨⟨o'⟩, ⟨t'⟩, ⟨p'⟩, k'⟩ := b
  have heq : (o.toNat, t.toNat, p.toNat, k) = (o'.toNat, t'.toNat, p'.toNat, k') := h
  simp only [Prod.mk.injEq] at heq
  obtain ⟨ho, ht, hp, rfl⟩ := heq
  rw [BitVec.eq_of_toNat_eq ho, BitVec.eq_of_toNat_eq ht, BitVec.eq_of_toNat_eq hp]

/-- Cursors are compared field by field. -/
instance : LinearOrder ProjectSerpSettingsCursor :=
  LinearOrder.lift' fields fields_injective

end ProjectSerpSettingsCursor

structure ProjectSerpDispatchSource where
  scope : TenantScope
  sourceKey : String

def projectSerpSettingsKey (scope : TenantScope) (sourceKey : String) :
    Except AppError ProjectSerpSettingsCursor := do
  let project ← Except.okOr scope.projectId (.forbidden "project scope required")
  Except.failIf (isBlank sourceKey ∨ len sourceKey > 128 ∨ sourceKey.toList.any isControl)
    (.invalidRequest "invalid search source key")
  pure
    { operatorId := scope.operatorId.asUuid
      tenantId := scope.tenantId.asUuid
      projectId := project.asUuid
      sourceKey }

/-- Authenticated encryption context. -/
def projectSerpCredentialAad (scope : TenantScope) (sourceKey : String) (credentialRevision : Int) :
    Except AppError (List UInt8) := do
  let key ← projectSerpSettingsKey scope sourceKey
  Except.failIf (credentialRevision ≤ 0) (.invalidRequest "invalid search credential revision")
  pure
    (Text.bytes
      (Json.array
        [.string "geo.project-serp.credentials.v1", .string key.operatorId.toString, .string key.tenantId.toString,
          .string key.projectId.toString, .string key.sourceKey, .ofInt credentialRevision]).toText)

/-! ### Saving -/

/-- The largest revision: `i64::MAX`. -/
def maxSerpRevision : Int :=
  9223372036854775807

def searchRevisionChanged : AppError :=
  .conflict "search settings revision changed"

namespace ProjectSerpSettingsWrite

def validate (write : ProjectSerpSettingsWrite) (scope : TenantScope) (expected : Int) : Except AppError Unit := do
  let _ ← projectSerpSettingsKey scope write.sourceKey
  Except.failIf (expected < 0 ∨ expected = maxSerpRevision) searchRevisionChanged
  Except.failIf
    (write.protocolDefaults.query ≠ "" ∨ write.protocolDefaults.source ≠ "dataforseo"
      ∨ ∃ bytes ∈ write.encryptedCredentials, bytes = [] ∨ bytes.length > 16384)
    (.invalidRequest "invalid search settings")
  { write.protocolDefaults with query := "protocol validation" }.validate

/-- The next settings, from those that are stored. -/
def apply (write : ProjectSerpSettingsWrite) (expected : Int)
    (prior : Option ProjectSerpSettingsRecord) : Except AppError ProjectSerpSettingsRecord := do
  Except.failIf (expected < 0 ∨ expected = maxSerpRevision ∨ prior.elim 0 (·.revision) ≠ expected) searchRevisionChanged
  let credentialRevision :=
    if write.encryptedCredentials.isSome then some (expected + 1)
    else prior.bind (·.activeCredentialRevision)
  Except.failIf (write.enabled ∧ credentialRevision.isNone) (.invalidRequest "search credentials required")
  pure
    { sourceKey := write.sourceKey
      provider := write.provider
      revision := expected + 1
      enabled := write.enabled
      protocolDefaults := write.protocolDefaults
      activeCredentialRevision := credentialRevision }

end ProjectSerpSettingsWrite

/-! ### The repository -/

structure MemoryProjectSerpSettingsRepository where
  rows : AssocMap ProjectSerpSettingsCursor ProjectSerpSettingsRecord
  credentials : AssocMap (ProjectSerpSettingsCursor × Int) ProjectSerpCredentialRecord

abbrev SerpSettingsOp (α : Type) : Type :=
  Op MemoryProjectSerpSettingsRepository AppError α

def limitValid (limit : Nat) : Except AppError Unit :=
  Except.failIf (¬ (1 ≤ limit ∧ limit ≤ 100)) (.invalidRequest "invalid search settings page size")

namespace MemoryProjectSerpSettingsRepository

open Op

def default : MemoryProjectSerpSettingsRepository where
  rows := ∅
  credentials := ∅

/-- The entries of the project a key belongs to, in order. -/
def projectRows (s : MemoryProjectSerpSettingsRepository) (key : ProjectSerpSettingsCursor) :
    List (ProjectSerpSettingsCursor × ProjectSerpSettingsRecord) :=
  (inKeyOrder s.rows).filter fun entry =>
    entry.1.operatorId = key.operatorId ∧ entry.1.tenantId = key.tenantId ∧ entry.1.projectId = key.projectId

def get (scope : TenantScope) (sourceKey : String) : SerpSettingsOp (Option ProjectSerpSettingsRecord) := do
  let key ← lift (projectSerpSettingsKey scope sourceKey)
  read fun s => s.rows.lookup key

/-- A cursor is the key of a stored record. -/
def checkCursor (scope : TenantScope) (after : Option String) : SerpSettingsOp Unit :=
  match after with
  | none => pure ()
  | some after => do
    let key ← lift (projectSerpSettingsKey scope after)
    let stored ← read fun s => (s.rows.lookup key).isSome
    failIf (¬ stored) (.invalidRequest "invalid search settings cursor")

def list (scope : TenantScope) (after : Option String) (limit : Nat) :
    SerpSettingsOp (List ProjectSerpSettingsRecord) := do
  lift (limitValid limit)
  let scopeKey ← lift (projectSerpSettingsKey scope "scope")
  checkCursor scope after
  let page ← read fun s =>
    ((s.projectRows scopeKey).filter fun entry => ∀ cursor ∈ after, cursor < entry.1.sourceKey).take limit
  pure (page.map Prod.snd)

def save (scope : TenantScope) (expected : Int) (write : ProjectSerpSettingsWrite) :
    SerpSettingsOp ProjectSerpSettingsRecord := do
  lift (write.validate scope expected)
  let key ← lift (projectSerpSettingsKey scope write.sourceKey)
  let prior ← read fun s => s.rows.lookup key
  let row ← lift (write.apply expected prior)
  match write.encryptedCredentials with
  | some bytes =>
    let credential : ProjectSerpCredentialRecord :=
      { sourceKey := row.sourceKey, credentialRevision := expected + 1, encryptedCredentials := bytes }
    modify fun s => { s with credentials := s.credentials.insert (key, expected + 1) credential }
  | none => pure ()
  modify fun s => { s with rows := s.rows.insert key row }
  pure row

def getCredential (scope : TenantScope) (sourceKey : String) (revision : Int) :
    SerpSettingsOp (Option ProjectSerpCredentialRecord) := do
  let _ ← lift (projectSerpCredentialAad scope sourceKey revision)
  let key ← lift (projectSerpSettingsKey scope sourceKey)
  read fun s => s.credentials.lookup (key, revision)

def listDispatchSources (after : Option ProjectSerpSettingsCursor) (limit : Nat) :
    SerpSettingsOp (List ProjectSerpDispatchSource) := do
  lift (limitValid limit)
  let stored ← read fun s => after.all fun cursor => (s.rows.lookup cursor).isSome
  failIf (¬ stored) (.invalidRequest "invalid search settings cursor")
  let keys ← read fun s =>
    (((inKeyOrder s.rows).map Prod.fst).filter fun key => ∀ cursor ∈ after, cursor < key).take limit
  pure
    (keys.map fun key =>
      { scope :=
          { operatorId := ⟨key.operatorId⟩, tenantId := ⟨key.tenantId⟩
            projectId := some ⟨key.projectId⟩ }
        sourceKey := key.sourceKey })

end MemoryProjectSerpSettingsRepository

/-! ### Runs -/

inductive SerpSettingsCall where
  | get (scope : TenantScope) (sourceKey : String)
  | list (scope : TenantScope) (after : Option String) (limit : Nat)
  | save (scope : TenantScope) (expected : Int) (write : ProjectSerpSettingsWrite)
  | getCredential (scope : TenantScope) (sourceKey : String) (revision : Int)
  | listDispatchSources (after : Option ProjectSerpSettingsCursor) (limit : Nat)

inductive SerpSettingsReply where
  | found (record : Option ProjectSerpSettingsRecord)
  | page (records : List ProjectSerpSettingsRecord)
  | saved (record : ProjectSerpSettingsRecord)
  | credential (record : Option ProjectSerpCredentialRecord)
  | sources (sources : List ProjectSerpDispatchSource)

def SerpSettingsCall.run : SerpSettingsCall → SerpSettingsOp SerpSettingsReply
  | .get scope sourceKey => do pure (.found (← MemoryProjectSerpSettingsRepository.get scope sourceKey))
  | .list scope after limit => do pure (.page (← MemoryProjectSerpSettingsRepository.list scope after limit))
  | .save scope expected write => do pure (.saved (← MemoryProjectSerpSettingsRepository.save scope expected write))
  | .getCredential scope sourceKey revision => do
    pure (.credential (← MemoryProjectSerpSettingsRepository.getCredential scope sourceKey revision))
  | .listDispatchSources after limit => do
    pure (.sources (← MemoryProjectSerpSettingsRepository.listDispatchSources after limit))

abbrev SerpSettingsEvent : Type :=
  CallEvent SerpSettingsCall AppError SerpSettingsReply

/-- Calls in any order. The maps are ordered, so nothing happens between two calls. -/
def serpSettingsMachine : Machine MemoryProjectSerpSettingsRepository SerpSettingsEvent :=
  callMachine SerpSettingsCall.run fun _ _ => False

end GeoMaster
