import Mathlib.Data.Finset.Option
import GeoMaster.Domain.ProjectSerpSettings

/-!
# Search observations

The results a search returned, and whether the target of the measurement is among them. An observation is checked
as a whole: the depth it claims is the one its ranked results cover without a gap. Only then is the target looked up, and only
among the organic results.
-/

namespace GeoMaster

open Except Text

def serpUrlRuleVersion : String :=
  "geo.serp.url.v1"

def serpTargetRuleVersion : String :=
  "geo.serp.target.v1"

def maxSerpResults : Nat :=
  200

namespace Serp

def invalid : AppError :=
  .invalidRequest "invalid search observation contract"

def label : String → Nat → Bool :=
  SerpProtocol.label

def digest (value : String) : Bool :=
  len value = 64 ∧ value.toList.all fun c => isAsciiDigit c || ('a' ≤ c && c ≤ 'f')

end Serp

/-! ### Addresses and targets -/

/-- The URL parser, and an address that parses as it is written without its fragment. -/
class UrlWriter extends UrlParser where
  withoutFragment : String → String

/-- The address without its fragment, and its host. -/
def normalizeSerpUrl [UrlWriter] (raw : String) : Except AppError (String × String) := do
  failIf (len raw > 8192 ∨ trim raw ≠ raw ∨ raw.toList.any isControl) Serp.invalid
  let url ← okOr (UrlParser.parse raw) Serp.invalid
  failIf (¬ (url.scheme = "http" ∨ url.scheme = "https") ∨ url.username ≠ "" ∨ url.password ≠ none) Serp.invalid
  let host ← okOr url.host Serp.invalid
  pure (UrlWriter.withoutFragment raw, host)

inductive SerpTarget where
  | url (url : String)
  | host (host : String) (includeSubdomains : Bool)
  deriving DecidableEq

/-- `str::ends_with`. -/
def Text.endsWith (s suffix : String) : Bool :=
  suffix.toList.isSuffixOf s.toList

def SerpTarget.normalized [UrlWriter] : SerpTarget → Except AppError SerpTarget
  | .url raw => do
    let normalized ← normalizeSerpUrl raw
    pure (.url normalized.1)
  | .host raw includeSubdomains => do
    failIf (¬ Serp.label raw 253 ∨ raw.toList.any (fun c => c ∈ ['/', '\\', '?', '#', '@', ':']) ∨ endsWith raw ".")
      Serp.invalid
    let normalized ← normalizeSerpUrl ("https://" ++ raw ++ "/")
    pure (.host normalized.2 includeSubdomains)

/-! ### Measurements -/

inductive SerpTaskState where
  | queued
  | claimed
  | sending
  | awaitingResult
  | completed
  | unknown
  | failed
  | cancelled

structure SerpMeasurement where
  measurementId : Uuid
  sourceKey : String
  protocol : SerpProtocol
  target : Option SerpTarget
  targetRuleVersion : String
  questionBinding : Option FrozenQuestionBinding
  (scheduledAt createdAt : DateTime)
  state : SerpTaskState

/-- The target of a measurement, if it has one, can be normalized. -/
def SerpMeasurement.checkTarget [UrlWriter] (measurement : SerpMeasurement) : Except AppError Unit :=
  match measurement.target with
  | some target => discard target.normalized
  | none => pure ()

/-! ### Results -/

inductive SerpResultKind where
  | organic
  | advertisement
  | featuredSnippet
  | maps
  | aiOverview
  | other
  deriving DecidableEq

structure SerpResult where
  kind : SerpResultKind
  rawKind : String
  (rawUrl normalizedUrl host : Option String)
  normalizationVersion : String
  title : Option String
  page : Option Nat
  /-- Position within the provider's returned result list, not organic rank. -/
  position : Nat
  (organicRank absolutePosition : Option Nat)
  locator : String
  deriving DecidableEq

namespace SerpResult

/-- What the raw address of a result normalizes to, if it does. -/
def normalized [UrlWriter] (result : SerpResult) : Option (String × String) :=
  result.rawUrl.bind fun raw =>
    match normalizeSerpUrl raw with
    | .ok normalized => some normalized
    | .error _ => none

def validate [UrlWriter] (result : SerpResult) : Except AppError Unit :=
  failIf
    (result.normalized.map (·.1) ≠ result.normalizedUrl ∨ result.normalized.map (·.2) ≠ result.host
      ∨ (∃ raw ∈ result.rawUrl, len raw > 8192 ∨ raw.toList.any isControl)
      ∨ result.normalizationVersion ≠ serpUrlRuleVersion
      ∨ ¬ Serp.label result.rawKind 128
      ∨ (∃ title ∈ result.title, len title > 8192)
      ∨ result.page = some 0
      ∨ result.position = 0
      ∨ result.organicRank = some 0
      ∨ result.absolutePosition = some 0
      ∨ (result.kind ≠ .organic ∧ result.organicRank.isSome)
      ∨ ¬ Serp.label result.locator 1024
      ∨ ¬ startsWith result.locator "/")
    Serp.invalid

end SerpResult

def SerpTarget.matches [UrlWriter] (target : SerpTarget) (result : SerpResult) : Except AppError Bool := do
  result.validate
  let normalized ← target.normalized
  match normalized with
  | .url wanted => pure (result.normalizedUrl = some wanted)
  | .host wanted includeSubdomains =>
    pure (result.host.any fun resultHost =>
      resultHost = wanted || (includeSubdomains && endsWith resultHost ("." ++ wanted)))

/-! ### Observations -/

structure SerpActualCondition where
  (value evidenceLocator : String)
  deriving DecidableEq

structure SerpActualConditions where
  (country city language device login personalization : Option SerpActualCondition)
  deriving DecidableEq

/-- The conditions that are reported. -/
def SerpActualConditions.reported (conditions : SerpActualConditions) : List SerpActualCondition :=
  [conditions.country, conditions.city, conditions.language, conditions.device, conditions.login,
    conditions.personalization].reduceOption

inductive SerpCoverageCompletion where
  | requestedDepth
  | providerExhausted
  | isPartial
  deriving DecidableEq

structure SerpCoverage where
  (requestedDepth observedOrganicDepth pagesReceived : Nat)
  completion : SerpCoverageCompletion
  truncated : Bool
  /-- Required for an explicit provider assertion that no deeper results exist. -/
  exhaustionEvidenceLocator : Option String
  deriving DecidableEq

/-- A complete coverage reaches the requested depth, or says where the provider reports that there is no more. -/
def SerpCoverage.checkCompletion (coverage : SerpCoverage) (depth : Nat) : Except AppError Unit :=
  match coverage.completion with
  | .requestedDepth => failIf (depth < coverage.requestedDepth) Serp.invalid
  | .providerExhausted =>
    failIf
      (¬ coverage.exhaustionEvidenceLocator.any fun locator => Serp.label locator 1024 && startsWith locator "/")
      Serp.invalid
  | .isPartial => pure ()

inductive SerpObservationStatus where
  | observed
  | isPartial
  | challenge
  | loginRequired
  | missing
  | failed
  | unsupported
  deriving DecidableEq

inductive SerpLimitationCode where
  | requestedConditionsUnverified
  | loginUnknown
  | personalizationUnknown
  | singlePageLimit
  | incompleteBody
  | providerTruncation
  | missingPositions
  | invalidResultUrl
  | providerReportedTime
  | resultUnavailable
  | unsupportedConditions
  deriving DecidableEq

inductive SerpTargetMatch where
  | notRequested
  | hit (organicRanks : List Nat)
  | notFoundWithinDepth (coveredDepth : Nat)
  | undetermined
  deriving DecidableEq

structure SerpObservation where
  (observationId measurementId attemptId rawEvidenceId : Uuid)
  (rawSha256 parserVersion : String)
  providerObservedAt : Option DateTime
  (receivedAt analyzedAt : DateTime)
  status : SerpObservationStatus
  actualConditions : SerpActualConditions
  coverage : SerpCoverage
  results : List SerpResult
  sourceLimitations : List SerpLimitationCode
  deriving DecidableEq

/-- What has been seen of the results gone through. -/
structure RankScan where
  (ranks matchableRanks positions : Finset Nat)

def RankScan.empty : RankScan where
  ranks := ∅
  matchableRanks := ∅
  positions := ∅

/-- The next result, with a position and a rank of its own. -/
def scanResult [UrlWriter] (pagesReceived : Nat) (scan : RankScan) (result : SerpResult) :
    Except AppError RankScan := do
  result.validate
  failIf
    ((∃ page ∈ result.page, page > pagesReceived) ∨ result.position ∈ scan.positions
      ∨ ∃ rank ∈ result.organicRank, rank ∈ scan.ranks)
    Serp.invalid
  let ranked := result.organicRank.toFinset
  pure
    { ranks := scan.ranks ∪ ranked
      matchableRanks := if result.normalizedUrl.isSome then scan.matchableRanks ∪ ranked else scan.matchableRanks
      positions := insert result.position scan.positions }

/-- The ranks from the first on, up to the first one that is not there. There is one among the first
`ranks.card + 1`. -/
def contiguousDepth (ranks : Finset Nat) : Nat :=
  ((List.range' 1 (ranks.card + 1)).takeWhile fun rank => rank ∈ ranks).length

namespace SerpObservation

def complete (observation : SerpObservation) : Bool :=
  observation.coverage.completion ≠ .isPartial

/-- What an observation says about itself, against the measurement it is of. -/
def checkFrame (observation : SerpObservation) (measurement : SerpMeasurement) : Except AppError Unit :=
  failIf
    (measurement.measurementId.isNil ∨ measurement.targetRuleVersion ≠ serpTargetRuleVersion
      ∨ observation.observationId.isNil
      ∨ observation.attemptId.isNil
      ∨ observation.rawEvidenceId.isNil
      ∨ observation.measurementId ≠ measurement.measurementId
      ∨ ¬ Serp.digest observation.rawSha256
      ∨ ¬ Serp.label observation.parserVersion 128
      ∨ (∃ observedAt ∈ observation.providerObservedAt, observedAt > observation.receivedAt)
      ∨ observation.results.length > maxSerpResults
      ∨ observation.coverage.requestedDepth ≠ measurement.protocol.requestedDepth
      ∨ observation.coverage.pagesReceived > measurement.protocol.maxPages
      ∨ observation.sourceLimitations.length > 32)
    Serp.invalid

/-- The status against the coverage and the results: a complete coverage has no gap and no result without a place. -/
def checkOutcome (observation : SerpObservation) (scan : RankScan) (depth : Nat) : Except AppError Unit :=
  failIf
    ((observation.complete ∧ observation.coverage.truncated)
      ∨ (observation.complete
        ∧ (scan.ranks.card ≠ depth
          ∨ ∃ result ∈ observation.results,
            result.kind = .organic ∧ (result.organicRank.isNone ∨ result.normalizedUrl.isNone)))
      ∨ (observation.status = .observed ∧ ¬ observation.complete)
      ∨ (observation.status = .isPartial ∧ observation.complete)
      ∨ (¬ (observation.status = .observed ∨ observation.status = .isPartial)
        ∧ (observation.results ≠ [] ∨ observation.complete)))
    Serp.invalid

def checkConditions (observation : SerpObservation) : Except AppError Unit :=
  failIf
    (∃ condition ∈ observation.actualConditions.reported,
      ¬ Serp.label condition.value 256 ∨ ¬ Serp.label condition.evidenceLocator 1024
        ∨ ¬ startsWith condition.evidenceLocator "/")
    Serp.invalid

def validate [UrlWriter] (observation : SerpObservation) (measurement : SerpMeasurement) : Except AppError Unit := do
  measurement.protocol.validate
  measurement.checkTarget
  observation.checkFrame measurement
  let scan ← observation.results.foldlM (scanResult observation.coverage.pagesReceived) .empty
  let depth := contiguousDepth scan.matchableRanks
  failIf (observation.coverage.observedOrganicDepth ≠ depth) Serp.invalid
  observation.coverage.checkCompletion depth
  observation.checkOutcome scan depth
  observation.checkConditions

/-- The rank of a result that counts for a target. -/
def countResult [UrlWriter] (target : SerpTarget) (ranks : List Nat) (result : SerpResult) :
    Except AppError (List Nat) :=
  if result.kind = .organic then do
    let isMatch ← target.matches result
    pure (if isMatch then ranks ++ result.organicRank.toList else ranks)
  else pure ranks

def targetMatch [UrlWriter] (observation : SerpObservation) (measurement : SerpMeasurement) :
    Except AppError SerpTargetMatch := do
  observation.validate measurement
  match measurement.target with
  | none => pure .notRequested
  | some target => do
    let found ← observation.results.foldlM (countResult target) []
    let ranks := found.insertionSort (· ≤ ·)
    if ranks ≠ [] then pure (.hit ranks)
    else if observation.status = .observed then
      pure (.notFoundWithinDepth observation.coverage.observedOrganicDepth)
    else pure .undetermined

end SerpObservation

end GeoMaster
