import GeoMaster.Domain.Report
import GeoMaster.Domain.RichContent
import GeoMaster.Lib.Calls
import GeoMaster.Lib.History

/-!
# Question sets and the evaluation split

The registry of a project's questions. An identity reserves every normalized spelling it ever had, and is
assigned to optimization or to the frozen evaluation once, when it is enrolled. A set is a history of versions;
each version lists revisions of questions. UUIDs that the code draws are arguments, in `QuestionDraws`.
-/

namespace GeoMaster

open Except Text

/-- The Unicode tables behind the normalization: the crate for compatibility composition, and the lowercase
mapping of the standard library. -/
class UnicodeText where
  nfkc : List Char → List Char
  toLowercase : Char → List Char

def questionSplitPolicyVersion : String :=
  "project_registry_nfkc_v1"

def maxSetQuestions : Nat :=
  100

/-! ### Records -/

inductive QuestionSourceKind where
  | userProvided
  | salesConsultation
  | product
  | faq
  | generated
  deriving DecidableEq

structure QuestionSource where
  kind : QuestionSourceKind
  referenceId : Option Uuid
  deriving DecidableEq

structure QuestionDraft where
  questionId : Option Uuid
  (text intent : String)
  productRefs : List Uuid
  (market language : String)
  source : QuestionSource
  weight : Nat

structure CreateQuestionSet where
  (idempotencyKey name : String)
  questions : List QuestionDraft

structure ReviseQuestionSet where
  idempotencyKey : String
  baseVersionId : Uuid
  name : String
  questions : List QuestionDraft

structure QuestionRevision where
  (id questionId : Uuid)
  (text intent : String)
  productRefs : List Uuid
  (market language : String)
  source : QuestionSource
  weight : Nat
  purpose : QuestionPurpose
  splitPolicyVersion : String

structure QuestionSetVersion where
  (id questionSetId : Uuid)
  revision : Nat
  parentVersionId : Option Uuid
  name : String
  questions : List QuestionRevision
  (optimizationCount evaluationCount : Nat)
  (splitPolicyVersion contentHash : String)
  createdAt : DateTime

structure QuestionIdentity where
  id : Uuid
  purpose : QuestionPurpose
  splitPolicyVersion : String
  /-- Every historical spelling is permanently reserved for this identity. -/
  aliases : List String
  deriving DecidableEq

/-- A set with its versions, oldest first. A set is stored with its first version, so there is always one. -/
structure QuestionSetRecord where
  id : Uuid
  versions : History QuestionSetVersion

structure QuestionIdempotencyRecord where
  (key requestHash : String)
  (questionSetId versionId : Uuid)

structure QuestionProjectState where
  seed : Uuid
  /-- Total of all distinct enrolled identities. -/
  enrolledCount : Nat
  identities : List QuestionIdentity
  sets : List QuestionSetRecord
  idempotency : List QuestionIdempotencyRecord

/-- What the generator of UUIDs returns to one call. -/
structure QuestionDraws where
  setId : Uuid
  (identityId revisionId : Nat → Uuid)
  versionId : Uuid

abbrev QuestionOp : Type → Type :=
  Op QuestionProjectState AppError

/-! ### Text -/

/-- NFKC, Unicode lowercase, and collapsed white space. -/
def normalizeQuestionText [UnicodeText] (text : String) : String :=
  let lower := (UnicodeText.nfkc text.toList).flatMap UnicodeText.toLowercase
  join " " (splitWhitespace (String.ofList lower))

/-- The sixteen bytes, most significant first. -/
def Uuid.asBytes (u : Uuid) : List UInt8 :=
  (List.range 16).map fun i => UInt8.ofNat (u.bits.toNat / 256 ^ (15 - i))

/-- The bytes behind hexadecimal digits. -/
def hexBytes : List Char → List UInt8
  | high :: low :: rest => UInt8.ofNat (16 * hexValue high + hexValue low) :: hexBytes rest
  | _ => []

/-- Where the seed of the project ranks a new text. In hexadecimal the order of the bytes is kept. -/
def splitRank [Sha256] (seed : Uuid) (text : String) : String :=
  sha256Hex (seed.asBytes ++ hexBytes (sha256Hex (bytes text)).toList)

/-! ### Requests -/

def QuestionPurpose.json : QuestionPurpose → Json
  | .optimization => .string "optimization"
  | .frozenEvaluation => .string "frozen_evaluation"

def QuestionSourceKind.json : QuestionSourceKind → Json
  | .userProvided => .string "user_provided"
  | .salesConsultation => .string "sales_consultation"
  | .product => .string "product"
  | .faq => .string "faq"
  | .generated => .string "generated"

def uuidJson (id : Uuid) : Json :=
  .string id.toString

def QuestionSource.json (source : QuestionSource) : Json :=
  .object (("kind", source.kind.json) :: Json.optionalField "reference_id" (source.referenceId.map uuidJson))

def QuestionDraft.json (draft : QuestionDraft) : Json :=
  .object (Json.optionalField "question_id" (draft.questionId.map uuidJson) ++
    [("text", .string draft.text), ("intent", .string draft.intent),
      ("product_refs", .array (draft.productRefs.map uuidJson)), ("market", .string draft.market),
      ("language", .string draft.language), ("source", draft.source.json), ("weight", .ofNat draft.weight)])

section Hashes

variable [Sha256]

def requestHash (input : Json) : String :=
  sha256Hex (bytes input.toText)

/-- The key itself is not part of the hash. -/
def createQuestionRequestHash (command : CreateQuestionSet) : String :=
  requestHash
    (.array [.string "create", .string command.name, .array (command.questions.map QuestionDraft.json)])

def reviseQuestionRequestHash (setId : Uuid) (command : ReviseQuestionSet) : String :=
  requestHash
    (.array
      [.string "revise", uuidJson setId, uuidJson command.baseVersionId, .string command.name,
        .array (command.questions.map QuestionDraft.json)])

/-- The digest of the content, which does not depend on the drawn IDs of revisions and versions. -/
def questionContentHash (name : String) (revisions : List QuestionRevision) : String :=
  let item (revision : QuestionRevision) : Json :=
    .array
      [uuidJson revision.questionId, .string revision.text, .string revision.intent,
        .array (revision.productRefs.map uuidJson), .string revision.market, .string revision.language,
        revision.source.json, .ofNat revision.weight, revision.purpose.json]
  requestHash (.array [.string name, .array (revisions.map item)])

end Hashes

section Drafts

variable [UnicodeText]

/-- The fields of a draft are there and within their bounds. -/
def QuestionDraft.valid (draft : QuestionDraft) : Bool :=
  normalizeQuestionText draft.text ≠ "" ∧ draft.text.length ≤ 2000 ∧ ¬ isBlank draft.intent ∧ draft.intent.length ≤ 160
    ∧ ¬ isBlank draft.market ∧ draft.market.length ≤ 80 ∧ ¬ isBlank draft.language ∧ draft.language.length ≤ 80
    ∧ draft.productRefs.length ≤ 32 ∧ draft.weight ≠ 0 ∧ draft.weight ≤ 100 ∧ ¬
    (draft.source.kind = .userProvided ∧ draft.source.referenceId.isSome)

def validateCommand (key name : String) (drafts : List QuestionDraft) : Except AppError Unit := do
  failIf (isBlank key ∨ 160 < len key) (.invalidRequest "idempotency key must be 1..160 characters")
  failIf (isBlank name ∨ 160 < name.length) (.invalidRequest "question set name must be 1..160 characters")
  failIf (drafts = [] ∨ maxSetQuestions < drafts.length) (.invalidRequest "question set must contain 1..100 questions")
  failIf (¬ drafts.all QuestionDraft.valid) (.invalidRequest "question fields are missing or out of bounds")

end Drafts

/-! ### The registry -/

namespace QuestionProjectState

def new (seed : Uuid) : QuestionProjectState :=
  { seed, enrolledCount := 0, identities := [], sets := [], idempotency := [] }

def getVersion (s : QuestionProjectState) (setId versionId : Uuid) : Except AppError QuestionSetVersion := do
  let set ← okOr (s.sets.find? fun set => set.id = setId) (.notFound "question set version not found")
  okOr (set.versions.entries.find? fun version => version.id = versionId) (.notFound "question set version not found")

def replay (s : QuestionProjectState) (key hash : String) : Except AppError (Option QuestionSetVersion) :=
  match s.idempotency.find? fun entry => entry.key = key with
  | none => pure none
  | some entry => do
    failIf (entry.requestHash ≠ hash) (.conflict "idempotency key was used for another question change")
    let version ← s.getVersion entry.questionSetId entry.versionId
    pure (some version)

/-- The identity an alias leads to: the last one that has it, as a hash map keeps the last value. -/
def aliasOwner (identities : List QuestionIdentity) (norm : String) : Option Uuid :=
  (identities.reverse.find? fun identity => norm ∈ identity.aliases).map QuestionIdentity.id

/-- The identity a draft is about, or none when its text is new. -/
def resolveDraft (identities : List QuestionIdentity) (base : Option QuestionSetVersion)
    (draft : QuestionDraft) (norm : String) : Except AppError (Option Uuid) :=
  match draft.questionId with
  | none => pure (aliasOwner identities norm)
  | some id => do
    failIf (¬ ∃ version ∈ base, ∃ revision ∈ version.questions, revision.questionId = id)
      (.conflict "edited question is not in the base version")
    failIf (∃ owner ∈ aliasOwner identities norm, owner ≠ id)
      (.conflict "question text is reserved by another identity")
    failIf (¬ ∃ identity ∈ identities, identity.id = id) (.conflict "question identity is unavailable")
    pure (some id)

def resolveDrafts (identities : List QuestionIdentity) (base : Option QuestionSetVersion) :
    List (QuestionDraft × String) → Except AppError (List (Option Uuid))
  | [] => pure []
  | (draft, norm) :: rest => do
    let id ← resolveDraft identities base draft norm
    let ids ← resolveDrafts identities base rest
    pure (id :: ids)

/-- The texts no identity has yet, in order and each once. -/
def newTexts (normalized : List String) (resolved : List (Option Uuid)) : List String :=
  (((normalized.zip resolved).filter fun e => e.2 = none).map Prod.fst).dedup.insertionSort (· ≤ ·)

/-- The identities of new texts: the first ones by rank are for evaluation. -/
def enroll [Sha256] (seed : Uuid) (draws : QuestionDraws) (slots : Nat) (texts : List String) :
    List QuestionIdentity :=
  let ranked := texts.insertionSort fun a b => splitRank seed a ≤ splitRank seed b
  let evaluation := ranked.take slots
  texts.zipIdx.map fun (text, i) =>
    { id := draws.identityId i
      purpose := if text ∈ evaluation then .frozenEvaluation else .optimization
      splitPolicyVersion := questionSplitPolicyVersion
      aliases := [text] }

/-- Reserve an alias for an identity, unless it has it. -/
def reserveAlias (id : Uuid) (norm : String) : List QuestionIdentity → List QuestionIdentity
  | [] => []
  | identity :: rest =>
    if identity.id = id then
      (if norm ∈ identity.aliases then identity
        else { identity with aliases := identity.aliases ++ [norm] }) :: rest
    else identity :: reserveAlias id norm rest

/-- The revision of the base version that a draft repeats. -/
def unchanged (base : Option QuestionSetVersion) (id : Uuid) (draft : QuestionDraft) : Option QuestionRevision := do
  let version ← base
  version.questions.find? fun old =>
    old.questionId = id ∧ old.text = draft.text ∧ old.intent = draft.intent
      ∧ old.productRefs = draft.productRefs ∧ old.market = draft.market
      ∧ old.language = draft.language ∧ old.source = draft.source ∧ old.weight = draft.weight

/-- A new revision of a question. -/
def revisionOf (id : Uuid) (identity : QuestionIdentity) (draft : QuestionDraft) : QuestionRevision :=
  { id
    questionId := identity.id
    text := draft.text
    intent := draft.intent
    productRefs := draft.productRefs
    market := draft.market
    language := draft.language
    source := draft.source
    weight := draft.weight
    purpose := identity.purpose
    splitPolicyVersion := identity.splitPolicyVersion }

/-- A draft with its normalized text and the identity it was resolved to. -/
abbrev ResolvedDraft : Type :=
  (QuestionDraft × String) × Option Uuid

/-- The revisions of the drafts, one after the other, and the identities with the texts reserved. The two
lookups that the code expects to succeed are internal errors here. -/
def reviseQuestions (base : Option QuestionSetVersion) (draws : QuestionDraws) :
    Nat → List Uuid → List QuestionIdentity → List ResolvedDraft →
      Except AppError (List QuestionIdentity × List QuestionRevision)
  | _, _, identities, [] => pure (identities, [])
  | i, usedIds, identities, ((draft, norm), resolved) :: rest => do
    let enrolled := identities.find? fun identity => norm ∈ identity.aliases
    let id ← okOr (resolved <|> enrolled.map QuestionIdentity.id) (.new .internal "newly enrolled identity")
    failIf (id ∈ usedIds) (.conflict "one identity appears more than once in a version")
    let identity ← okOr (identities.find? fun identity => identity.id = id) (.new .internal "resolved identity loaded")
    let revision := (unchanged base id draft).getD (revisionOf (draws.revisionId i) identity draft)
    let (identities, revisions) ←
      reviseQuestions base draws (i + 1) (id :: usedIds) (reserveAlias id norm identities) rest
    pure (identities, revision :: revisions)

/-- Rounded up. -/
def divCeil (n d : Nat) : Nat :=
  (n + d - 1) / d

section Build

variable [Sha256] [UnicodeText]

def buildVersion (s : QuestionProjectState) (draws : QuestionDraws) (setId : Uuid) (revision : Nat)
    (name : String) (drafts : List QuestionDraft) (base : Option QuestionSetVersion)
    (now : DateTime) : Except AppError (QuestionProjectState × QuestionSetVersion) := do
  let normalized := drafts.map fun draft => normalizeQuestionText draft.text
  failIf (¬ normalized.Nodup) (.conflict "duplicate normalized question within one version")
  let resolved ← resolveDrafts s.identities base (drafts.zip normalized)
  let texts := newTexts normalized resolved
  let total := s.enrolledCount + texts.length
  failIf (2 ^ 64 ≤ total) (.invalidRequest "project question capacity exceeded")
  let slots := divCeil total 5 - divCeil s.enrolledCount 5
  let identities := s.identities ++ enroll s.seed draws slots texts
  let (identities, revisions) ←
    reviseQuestions base draws 0 [] identities ((drafts.zip normalized).zip resolved)
  let evaluationCount := revisions.countP fun question => question.purpose = .frozenEvaluation
  pure
    ({ s with enrolledCount := total, identities },
      { id := draws.versionId
        questionSetId := setId
        revision
        parentVersionId := base.map QuestionSetVersion.id
        name
        questions := revisions
        optimizationCount := revisions.length - evaluationCount
        evaluationCount
        splitPolicyVersion := questionSplitPolicyVersion
        contentHash := questionContentHash name revisions
        createdAt := now })

/-- File a version: the sets with it, and the key it answers. -/
def publish (candidate : QuestionProjectState) (sets : List QuestionSetRecord)
    (key hash : String) (version : QuestionSetVersion) : QuestionProjectState :=
  { candidate with
    sets
    idempotency := candidate.idempotency ++
      [{ key, requestHash := hash, questionSetId := version.questionSetId
         versionId := version.id }] }

def createSet (command : CreateQuestionSet) (draws : QuestionDraws) (now : DateTime) :
    QuestionOp QuestionSetVersion := do
  let hash := createQuestionRequestHash command
  let s ← Op.read fun s => s
  let replayed ← Op.lift (s.replay command.idempotencyKey hash)
  match replayed with
  | some version => pure version
  | none => do
    Op.lift (validateCommand command.idempotencyKey command.name command.questions)
    Op.failIf (command.questions.any fun question => question.questionId.isSome)
      (.invalidRequest "new sets cannot claim question identities by ID")
    let (candidate, version) ← Op.lift (s.buildVersion draws draws.setId 1 command.name command.questions none now)
    Op.modify fun _ =>
      candidate.publish (candidate.sets ++ [{ id := draws.setId, versions := .start version }])
        command.idempotencyKey hash version
    pure version

/-- Put a version behind the versions of the first set with an ID. -/
def pushVersion (setId : Uuid) (version : QuestionSetVersion) : List QuestionSetRecord → List QuestionSetRecord
  | [] => []
  | set :: rest =>
    if set.id = setId then { set with versions := set.versions.push version } :: rest
    else set :: pushVersion setId version rest

def reviseSet (setId : Uuid) (command : ReviseQuestionSet) (draws : QuestionDraws)
    (now : DateTime) : QuestionOp QuestionSetVersion := do
  let hash := reviseQuestionRequestHash setId command
  let s ← Op.read fun s => s
  let replayed ← Op.lift (s.replay command.idempotencyKey hash)
  match replayed with
  | some version => pure version
  | none => do
    Op.lift (validateCommand command.idempotencyKey command.name command.questions)
    let set ← Op.okOr (s.sets.find? fun set => set.id = setId) (.notFound "question set not found")
    let base := set.versions.last
    Op.failIf (base.id ≠ command.baseVersionId) (.conflict "question set base version has changed")
    Op.failIf (2 ^ 32 ≤ base.revision + 1) (.conflict "question set version limit reached")
    let (candidate, version) ← Op.lift
      (s.buildVersion draws setId (base.revision + 1) command.name command.questions (some base) now)
    Op.modify fun _ => candidate.publish (pushVersion setId version candidate.sets) command.idempotencyKey hash version
    pure version

end Build

end QuestionProjectState

/-! ### Runs -/

/-- A change of a project's questions, with the UUIDs and the time it is given. -/
inductive QuestionCall where
  | createSet (command : CreateQuestionSet) (draws : QuestionDraws) (now : DateTime)
  | reviseSet (setId : Uuid) (command : ReviseQuestionSet) (draws : QuestionDraws) (now : DateTime)

namespace QuestionCall

def draws : QuestionCall → QuestionDraws
  | .createSet _ draws _ => draws
  | .reviseSet _ _ draws _ => draws

/-- The idempotency key. -/
def key : QuestionCall → String
  | .createSet command _ _ => command.idempotencyKey
  | .reviseSet _ command _ _ => command.idempotencyKey

variable [Sha256]

/-- The hash that tells whether a key is used for the same change. -/
def hash : QuestionCall → String
  | .createSet command _ _ => createQuestionRequestHash command
  | .reviseSet setId command _ _ => reviseQuestionRequestHash setId command

variable [UnicodeText]

def run : QuestionCall → QuestionOp QuestionSetVersion
  | .createSet command draws now => QuestionProjectState.createSet command draws now
  | .reviseSet setId command draws now => QuestionProjectState.reviseSet setId command draws now

end QuestionCall

abbrev QuestionEvent : Type :=
  CallEvent QuestionCall AppError QuestionSetVersion

/-- The registry as a machine. Nothing happens to it between two calls. -/
def questionMachine [Sha256] [UnicodeText] : Machine QuestionProjectState QuestionEvent :=
  callMachine QuestionCall.run fun s s' => s' = s

/-- Drawn UUIDs are not in use yet, and differ from each other. -/
structure FreshQuestionDraws (s : QuestionProjectState) (draws : QuestionDraws) : Prop where
  set : ∀ set ∈ s.sets, set.id ≠ draws.setId
  version : ∀ set ∈ s.sets, ∀ version ∈ set.versions.entries, version.id ≠ draws.versionId
  identity : ∀ identity ∈ s.identities, ∀ i < maxSetQuestions, identity.id ≠ draws.identityId i
  distinct : ∀ i < maxSetQuestions, ∀ j < maxSetQuestions, draws.identityId i = draws.identityId j → i = j

/-- The UUIDs a step draws are fresh. -/
def QuestionIdsFresh (s : QuestionProjectState) : QuestionEvent → Prop
  | .call call _ => FreshQuestionDraws s call.draws
  | .reorder => True

end GeoMaster
