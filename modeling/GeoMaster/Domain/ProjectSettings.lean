import GeoMaster.Domain.KnowledgeSources
import GeoMaster.Lib.LocalTime

/-!
# Project settings

What a project is configured with: its targets, sources, budget, report schedule and scopes. A draft may be incomplete,
but every text is trimmed and bounded; starting asks for more. The names of time zones and the reader of clock times
come from libraries and are parameters.
-/

namespace GeoMaster

open Except Text

open LocalTime (TimeZone)

/-! ### Settings -/

inductive ResourceMode where
  | own
  | platform
  | mixed
  deriving DecidableEq

inductive PeriodPolicy where
  | previousCalendarWeek
  deriving DecidableEq

inductive ReportWeekday where
  | monday
  | tuesday
  | wednesday
  | thursday
  | friday
  | saturday
  | sunday
  deriving DecidableEq

structure ReportSchedule where
  reportWeekday : ReportWeekday
  reportLocalTime : String
  cutoffWeekday : ReportWeekday
  cutoffLocalTime : String
  periodPolicy : PeriodPolicy
  deriving DecidableEq

inductive DistributionScopeMode where
  | allEligible
  | explicit
  deriving DecidableEq

inductive ReplicationPolicy where
  | oneAccountPerPlatform
  deriving DecidableEq

structure DistributionScope where
  mode : DistributionScopeMode
  (includedPlatformIds excludedPlatformIds resourcePoolIds : List String)
  replicationPolicy : ReplicationPolicy
  deriving DecidableEq

inductive MeasurementTargetKind where
  | product
  | restaurant
  | brand
  | service
  | other
  deriving DecidableEq

structure MeasurementTarget where
  name : String
  kind : MeasurementTargetKind
  aliases : List String
  deriving DecidableEq

inductive InitialSourceKind where
  | url
  | text
  | object
  | knowledgeCollection
  deriving DecidableEq

inductive InitialSourceVisibility where
  | isPublic
  | internal
  deriving DecidableEq

structure InitialSource where
  kind : InitialSourceKind
  value : String
  visibility : InitialSourceVisibility
  (versionRef contentHash : Option String)
  deriving DecidableEq

structure ProjectSettings where
  measurementTargets : List MeasurementTarget
  brandName : String
  productName : Option String
  (market language : String)
  targetAudience : Option String
  competitors : List String
  initialSources : List InitialSource
  resourceMode : ResourceMode
  budgetCurrency : String
  monthlyBudgetMinor : Int
  monitoringReservePercent : Nat
  reportTimezone : String
  reportSchedule : ReportSchedule
  objective : Option String
  documentScope : DocumentScope
  distributionScope : DistributionScope
  deriving DecidableEq

def ReportSchedule.default : ReportSchedule where
  reportWeekday := .monday
  reportLocalTime := "09:00"
  cutoffWeekday := .monday
  cutoffLocalTime := "00:00"
  periodPolicy := .previousCalendarWeek

def DocumentScope.default : DocumentScope where
  allActiveProducts := true
  excludedProductIds := []
  markets := []
  languages := []
  contentTypes := []
  questionClusters := []

def DistributionScope.default : DistributionScope where
  mode := .allEligible
  includedPlatformIds := []
  excludedPlatformIds := []
  resourcePoolIds := []
  replicationPolicy := .oneAccountPerPlatform

def ProjectSettings.default : ProjectSettings where
  measurementTargets := []
  brandName := ""
  productName := none
  market := ""
  language := ""
  targetAudience := none
  competitors := []
  initialSources := []
  resourceMode := .own
  budgetCurrency := "CNY"
  monthlyBudgetMinor := 0
  monitoringReservePercent := 20
  reportTimezone := "Asia/Shanghai"
  reportSchedule := .default
  objective := none
  documentScope := .default
  distributionScope := .default

/-! ### Libraries outside the crate -/

/-- The time zone of an IANA name. -/
class TimezoneNames where
  parse : String → Option TimeZone

/-- The reader of `%H:%M`, in minutes of the day. -/
class ClockText where
  parse : String → Option (Fin 1440)

/-! ### Checks -/

/-- `str::to_ascii_uppercase`. -/
def Text.toAsciiUppercase (s : String) : String :=
  s.map Char.toUpper

def validateOptionalText (field value : String) (max : Nat) : Except AppError String := do
  let value := trim value
  failIf (value.toList.length > max) (.invalidRequest s!"{field} must be at most {max} characters")
  pure value

def validateText (field value : String) (max : Nat) : Except AppError String := do
  failIf (trim value = "") (.invalidRequest s!"{field} must not be empty")
  validateOptionalText field value max

/-- The terms seen so far, each with the index of the last target that has it. -/
abbrev TargetTerms : Type :=
  AssocMap (MeasurementTargetKind × String) Nat

def insertTargetTerm (kind : MeasurementTargetKind) (index : Nat) (terms : TargetTerms) (term : String) :
    Except AppError TargetTerms := do
  match terms.lookup (kind, term) with
  | some previous =>
    failIf (previous ≠ index)
      (.withDetails (.invalidRequest "measurement targets of the same kind must not share names or aliases")
        (.ofFields
          [("field", .string "measurement_targets"), ("target_index", .ofNat index),
            ("conflicting_target_index", .ofNat previous)]))
  | none => pure ()
  pure (terms.insert (kind, term) index)

def validateMeasurementTarget (state : TargetTerms × List MeasurementTarget)
    (entry : MeasurementTarget × Nat) : Except AppError (TargetTerms × List MeasurementTarget) := do
  let (target, index) := entry
  let name ← validateText "measurement_targets.name" target.name 200
  let aliases ← target.aliases.mapM fun value => validateText "measurement_targets.aliases" value 200
  let terms ← (name :: aliases).foldlM (insertTargetTerm target.kind index) state.1
  pure (terms, state.2 ++ [{ name, kind := target.kind, aliases }])

def validateMeasurementTargets (targets : List MeasurementTarget) : Except AppError (List MeasurementTarget) := do
  let state ← targets.zipIdx.foldlM validateMeasurementTarget (∅, [])
  pure state.2

def validateContentHash (value : String) : Except AppError String := do
  let value := toAsciiLowercase (trim value)
  failIf (len value < 16 ∨ len value > 256 ∨ ¬ value.toList.all isAsciiHexdigit)
    (.invalidRequest "initial_sources.content_hash must be a hexadecimal content digest")
  pure value

def InitialSource.validate (source : InitialSource) : Except AppError InitialSource := do
  let value ← validateText "initial_sources.value" source.value 2000000
  failIf (source.kind = .url ∧ ¬ (startsWith value "http://" ∨ startsWith value "https://"))
    (.invalidRequest "initial_sources URL must start with http:// or https://")
  let versionRef ← source.versionRef.mapM fun ref => validateText "initial_sources.version_ref" ref 1000
  let contentHash ← source.contentHash.mapM validateContentHash
  failIf (source.kind = .url ∧ versionRef = some value)
    (.invalidRequest "an URL value cannot be used as its own version_ref")
  pure { source with value, versionRef, contentHash }

def validateScopeValues (field : String) (values : List String) (max : Nat) : Except AppError (List String) := do
  failIf (values.length > max) (.invalidRequest s!"{field} has too many entries")
  values.mapM fun value => validateText field value 200

def validateDocumentScope (scope : DocumentScope) : Except AppError DocumentScope := do
  failIf (scope.questionClusters.length > 100) (.invalidRequest "document_scope.question_clusters has too many entries")
  let questionClusters ← scope.questionClusters.mapM fun cluster => do
    let key ← validateText "document_scope.question_clusters.key" cluster.key 200
    pure { cluster with key }
  let excludedProductIds ←
    validateScopeValues "document_scope.excluded_product_ids" scope.excludedProductIds 10000
  let markets ← validateScopeValues "document_scope.markets" scope.markets 100
  let languages ← validateScopeValues "document_scope.languages" scope.languages 100
  let contentTypes ← validateScopeValues "document_scope.content_types" scope.contentTypes 100
  pure { scope with excludedProductIds, markets, languages, contentTypes, questionClusters }

def validateDistributionScope (scope : DistributionScope) : Except AppError DistributionScope := do
  let includedPlatformIds ←
    validateScopeValues "distribution_scope.included_platform_ids" scope.includedPlatformIds 1000
  let excludedPlatformIds ←
    validateScopeValues "distribution_scope.excluded_platform_ids" scope.excludedPlatformIds 1000
  let resourcePoolIds ←
    validateScopeValues "distribution_scope.resource_pool_ids" scope.resourcePoolIds 1000
  pure { scope with includedPlatformIds, excludedPlatformIds, resourcePoolIds }

section

variable [ClockText]

def validateTime (field value : String) : Except AppError String := do
  let value := trim value
  failIf (ClockText.parse value).isNone (.invalidRequest s!"{field} must be HH:MM")
  pure value

def validateReportSchedule (schedule : ReportSchedule) : Except AppError ReportSchedule := do
  let reportLocalTime ← validateTime "report_schedule.report_local_time" schedule.reportLocalTime
  let cutoffLocalTime ← validateTime "report_schedule.cutoff_local_time" schedule.cutoffLocalTime
  pure { schedule with reportLocalTime, cutoffLocalTime }

end

namespace ProjectSettings

section

variable [TimezoneNames] [ClockText]

def validateDraft (settings : ProjectSettings) : Except AppError ProjectSettings := do
  let measurementTargets ← validateMeasurementTargets settings.measurementTargets
  let brandName ← validateOptionalText "brand_name" settings.brandName 200
  let productName ← settings.productName.mapM fun value => validateText "product_name" value 200
  let market ← validateOptionalText "market" settings.market 100
  let language ← validateOptionalText "language" settings.language 50
  let targetAudience ←
    settings.targetAudience.mapM fun value => validateText "target_audience" value 200
  let objective ← settings.objective.mapM fun value => validateText "objective" value 2000
  failIf (settings.competitors.length > 5)
    (.withDetails (.invalidRequest "competitors must contain at most 5 entries")
      (.ofFields [("field", .string "competitors"), ("max", .ofNat 5)]))
  let competitors ← settings.competitors.mapM fun value => validateText "competitors" value 200
  failIf (settings.initialSources.length > 100)
    (.withDetails (.invalidRequest "initial_sources must contain at most 100 entries")
      (.ofFields [("field", .string "initial_sources"), ("max", .ofNat 100)]))
  let initialSources ← settings.initialSources.mapM InitialSource.validate
  failIf (settings.monthlyBudgetMinor < 0) (.invalidRequest "monthly_budget_minor must be non-negative")
  let budgetCurrency := toAsciiUppercase (trim settings.budgetCurrency)
  failIf (len budgetCurrency ≠ 3 ∨ ¬ budgetCurrency.toList.all fun c => 'A' ≤ c ∧ c ≤ 'Z')
    (.invalidRequest "budget_currency must be a three-letter ISO 4217 code")
  failIf (settings.monitoringReservePercent > 100)
    (.invalidRequest "monitoring_reserve_percent must be between 0 and 100")
  let reportTimezone := trim settings.reportTimezone
  failIf (TimezoneNames.parse reportTimezone).isNone (.invalidRequest "report_timezone must be a valid IANA timezone")
  let reportSchedule ← validateReportSchedule settings.reportSchedule
  let documentScope ← validateDocumentScope settings.documentScope
  let distributionScope ← validateDistributionScope settings.distributionScope
  pure
    { settings with
      measurementTargets, brandName, productName, market, language, targetAudience, competitors,
      initialSources, budgetCurrency, reportTimezone, reportSchedule, objective, documentScope,
      distributionScope }

def effectiveMarkets (settings : ProjectSettings) : List String :=
  if settings.documentScope.markets.isEmpty then
    if settings.market.isEmpty then [] else [settings.market]
  else settings.documentScope.markets

def effectiveLanguages (settings : ProjectSettings) : List String :=
  if settings.documentScope.languages.isEmpty then
    if settings.language.isEmpty then [] else [settings.language]
  else settings.documentScope.languages

/-- A draft that is complete enough to start. -/
def validateStart (settings : ProjectSettings) : Except AppError ProjectSettings := do
  let settings ← settings.validateDraft
  failIf settings.brandName.isEmpty (.invalidRequest "brand_name is required to start")
  failIf settings.initialSources.isEmpty (.invalidRequest "at least one initial source is required to start")
  failIf (settings.effectiveMarkets.isEmpty ∨ settings.effectiveLanguages.isEmpty)
    (.invalidRequest "document_scope must include at least one market and language to start")
  failIf (¬ settings.documentScope.allActiveProducts)
    (.invalidRequest
      "W02 start requires document_scope.all_active_products=true until explicit product inclusion is available")
  failIf (settings.distributionScope.mode = .explicit ∧ settings.distributionScope.includedPlatformIds.isEmpty)
    (.invalidRequest "explicit distribution_scope requires included_platform_ids")
  pure settings

end

end ProjectSettings

/-! ### Projects -/

inductive ProjectStatus where
  | draft
  | active
  | paused
  | archived
  deriving DecidableEq

structure Project where
  id : ProjectId
  operatorId : OperatorId
  tenantId : TenantId
  (slug displayName : String)
  settings : ProjectSettings
  status : ProjectStatus
  revision : Int
  (currentConfigRevisionId currentCycleId startOperationId : Option Uuid)
  (createdAt updatedAt : DateTime)

end GeoMaster
