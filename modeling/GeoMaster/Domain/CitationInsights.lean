import GeoMaster.Domain.ObservationAnalysis
import GeoMaster.Domain.SourceChannels

/-!
# Citation insights

What the answers of a page of measurement plans cite, host by host and address by address. An answer counts once
for a host and once for an address, however often it repeats them. The outcome counters cover every target of the
page, whether it has an answer or not.
-/

namespace GeoMaster

/-- The samples of a host, and those of each of its addresses. -/
structure SourceAccumulator where
  samples : List CitationSample
  urls : AssocMap String (List CitationSample)

/-- What has been collected so far. -/
structure CitationTotals where
  planIds : List Uuid
  coverage : CitationCoverage
  invalidCitationUrls : Nat
  hosts : AssocMap String SourceAccumulator

def CitationCoverage.default : CitationCoverage where
  planned := 0
  pending := 0
  observedLive := 0
  groundedSavedAnalysis := 0
  observedUnverified := 0
  observedWithoutCitations := 0
  refused := 0
  missing := 0
  otherCompleted := 0
  fixture := 0

def citationHost [UrlParser] (raw : String) : Option String := do
  let parsed ← UrlParser.parse raw
  if (parsed.scheme = "http" ∨ parsed.scheme = "https") ∧ parsed.username = "" ∧ parsed.password = none then
    parsed.host
  else none

/-! ### One answer -/

/-- The citations of one answer as they are gone through: which addresses and hosts have been seen, and what is
collected. -/
structure AnswerAccumulator where
  (seenUrls seenHosts : List String)
  invalidCitationUrls : Nat
  hosts : AssocMap String SourceAccumulator

def SourceAccumulator.default : SourceAccumulator where
  samples := []
  urls := ∅

/-- The samples of a source with one more citation of an answer. -/
def SourceAccumulator.cite (source : SourceAccumulator) (sample : CitationSample) (newHost : Bool) (url : String) :
    SourceAccumulator where
  samples := if newHost then source.samples ++ [sample] else source.samples
  urls := source.urls.insert url ((source.urls.lookup url).getD [] ++ [sample])

def addCitation [UrlParser] (sample : CitationSample) (answer : AnswerAccumulator) (url : String) : AnswerAccumulator :=
  if url ∈ answer.seenUrls then answer
  else
    match citationHost url with
    | none =>
      { answer with
        seenUrls := url :: answer.seenUrls
        invalidCitationUrls := answer.invalidCitationUrls + 1 }
    | some host =>
      let source := (answer.hosts.lookup host).getD SourceAccumulator.default
      { answer with
        seenUrls := url :: answer.seenUrls
        seenHosts := host :: answer.seenHosts
        hosts := answer.hosts.insert host (source.cite sample (host ∉ answer.seenHosts) url) }

/-! ### One target -/

/-- The outcome counters with one more outcome. A fixture overlaps the other counters. -/
def CitationCoverage.count (coverage : CitationCoverage) (outcome : ChannelOutcome) (trusted : Bool) :
    CitationCoverage :=
  let coverage :=
    if outcome.fixture then { coverage with fixture := coverage.fixture + 1 } else coverage
  match outcome.status with
  | .observed =>
    if outcome.fixture ∨ trusted = false then
      { coverage with observedUnverified := coverage.observedUnverified + 1 }
    else
      let coverage := { coverage with observedLive := coverage.observedLive + 1 }
      if outcome.citations = [] then
        { coverage with observedWithoutCitations := coverage.observedWithoutCitations + 1 }
      else coverage
  | .refused => { coverage with refused := coverage.refused + 1 }
  | .missing => { coverage with missing := coverage.missing + 1 }
  | _ => { coverage with otherCompleted := coverage.otherCompleted + 1 }

/-- The sample of a target, as its observation is read. -/
def citationSample (plan : StandaloneMeasurementPlan) (target : ChannelTarget) (measure : MeasureInput)
    (attempt : ChannelAttempt) (effective : EffectiveObservation) : CitationSample where
  planId := plan.planId
  targetId := target.targetId
  attemptId := attempt.attemptId
  provider := measure.provider
  model := measure.model
  surface := measure.surface
  searchMode := measure.searchMode
  market := measure.market
  language := measure.language
  questionSetVersion := measure.questionSetVersion
  questionPurpose := measure.questionBinding.map (·.purpose)
  scheduledAt := measure.scheduledAt
  observedAt := effective.observedAt
  receivedAt := effective.receivedAt
  analysis := effective.provenance

section

variable [JsonText] [UrlParser] (analyses : List ObservationAnalysisRevision) (asOf : DateTime)
  (isTrustedSearch : ChannelTargetView → ChannelAttempt → Bool)

/-- The totals with the answer of one more target. -/
def CitationTotals.addAnswer (totals : CitationTotals) (plan : StandaloneMeasurementPlan)
    (target : ChannelTarget) (attempt : ChannelAttempt) (effective : EffectiveObservation) : CitationTotals :=
  let totals :=
    if effective.provenance.isSome then
      { totals with
        coverage :=
          { totals.coverage with groundedSavedAnalysis := totals.coverage.groundedSavedAnalysis + 1 } }
    else totals
  match target.input with
  | .measure measure =>
    let answer :=
      effective.citations.foldl (addCitation (citationSample plan target measure attempt effective))
        { seenUrls := [], seenHosts := [], invalidCitationUrls := totals.invalidCitationUrls
          hosts := totals.hosts }
    { totals with invalidCitationUrls := answer.invalidCitationUrls, hosts := answer.hosts }
  -- Not reached: only a measurement has an effective observation.
  | _ => totals

def CitationTotals.addTarget (plan : StandaloneMeasurementPlan) (totals : CitationTotals)
    (entry : ChannelTarget × ChannelTargetView) : Except AppError CitationTotals := do
  let (target, view) := entry
  Except.failIf (target ≠ view.target) (.invalidRequest "measurement target mismatch")
  let planned := { totals.coverage with planned := totals.coverage.planned + 1 }
  match view.attempts.getLast? with
  | none => pure { totals with coverage := { planned with pending := planned.pending + 1 } }
  | some attempt =>
    match attempt.outcome with
    | none => pure { totals with coverage := { planned with pending := planned.pending + 1 } }
    | some outcome =>
      let totals := { totals with coverage := planned.count outcome (isTrustedSearch view attempt) }
      match effectiveObservation view analyses asOf isTrustedSearch with
      | none => pure totals
      | some effective => pure (totals.addAnswer plan target attempt effective)

def CitationTotals.addPlan (scope : TenantScope) (totals : CitationTotals)
    (entry : StandaloneMeasurementPlan × List ChannelTargetView) : Except AppError CitationTotals := do
  let (plan, views) := entry
  plan.validate scope
  Except.failIf (views.length ≠ plan.targets.length) (.invalidRequest "incomplete measurement target page")
  (plan.targets.zip views).foldlM (CitationTotals.addTarget analyses asOf isTrustedSearch plan)
    { totals with planIds := totals.planIds ++ [plan.planId] }

/-! ### The page -/

def SourceAccumulator.observed (host : String) (source : SourceAccumulator) : ObservedSource where
  host := host
  citingAnswers := source.samples.length
  samples := source.samples
  urls := (inKeyOrder source.urls).map fun entry =>
    { url := entry.1, citingAnswers := entry.2.length, samples := entry.2 }

def summarizeCitationsWithAnalyses (scope : TenantScope)
    (plans : List (StandaloneMeasurementPlan × List ChannelTargetView)) (nextAfter : Option Uuid) :
    Except AppError CitationInsightPage := do
  let totals ← plans.foldlM (CitationTotals.addPlan analyses asOf isTrustedSearch scope)
    { planIds := [], coverage := .default, invalidCitationUrls := 0, hosts := ∅ }
  pure
    { scope := "returned_plans_only", planIds := totals.planIds, nextAfter, coverage := totals.coverage
      invalidCitationUrls := totals.invalidCitationUrls
      observedSources := (inKeyOrder totals.hosts).map fun entry => entry.2.observed entry.1 }

end

end GeoMaster
