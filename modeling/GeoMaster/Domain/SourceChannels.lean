import GeoMaster.Domain.ProjectSettings
import GeoMaster.Domain.ReportProjection

/-!
# Source channels

Cited hosts are classified by publishing channel. Both readers are served from one page of citations: people see all of
it, an optimizer only what samples of optimization questions cite. The status of a channel is looked up once for each
channel that is listed, and the lookup may keep a state of its own.
-/

namespace GeoMaster

open AssocMap

/-! ### Citations -/

structure CitationCoverage where
  (planned pending observedLive groundedSavedAnalysis observedUnverified : Nat)
  (observedWithoutCitations refused missing otherCompleted fixture : Nat)
  deriving DecidableEq

structure CitationSample where
  (planId targetId attemptId : Uuid)
  (provider model surface searchMode market language questionSetVersion : String)
  questionPurpose : Option QuestionPurpose
  (scheduledAt observedAt receivedAt : DateTime)
  analysis : Option SavedAnalysisProvenance
  deriving DecidableEq

structure ObservedUrl where
  url : String
  citingAnswers : Nat
  samples : List CitationSample
  deriving DecidableEq

structure ObservedSource where
  host : String
  citingAnswers : Nat
  samples : List CitationSample
  urls : List ObservedUrl
  deriving DecidableEq

structure CitationInsightPage where
  scope : String
  planIds : List Uuid
  nextAfter : Option Uuid
  coverage : CitationCoverage
  invalidCitationUrls : Nat
  observedSources : List ObservedSource
  deriving DecidableEq

/-! ### Rules -/

structure SourceChannelRule where
  (id host : String)
  pathPrefix : Option String
  (platformId placementSlot hostRelationship : String)

/-- Exact hosts only. -/
def sourceChannelRules : List SourceChannelRule :=
  [{ id := "zhihu-article", host := "zhuanlan.zhihu.com", pathPrefix := some "/p/"
     platformId := "zhihu", placementSlot := "primary", hostRelationship := "first_party_article" },
   { id := "zhihu-www-article", host := "www.zhihu.com", pathPrefix := some "/p/"
     platformId := "zhihu", placementSlot := "primary", hostRelationship := "first_party_article" },
   { id := "baidu-creator-article", host := "baijiahao.baidu.com", pathPrefix := some "/s"
     platformId := "baidu_creator", placementSlot := "primary"
     hostRelationship := "first_party_article" },
   { id := "xiaohongshu-post", host := "www.xiaohongshu.com", pathPrefix := some "/explore/"
     platformId := "xiaohongshu", placementSlot := "primary", hostRelationship := "first_party_post" },
   { id := "x-post", host := "x.com", pathPrefix := none
     platformId := "x", placementSlot := "primary", hostRelationship := "first_party_post" },
   { id := "x-legacy-post", host := "twitter.com", pathPrefix := none
     platformId := "x", placementSlot := "primary", hostRelationship := "first_party_post" },
   { id := "medium-story", host := "medium.com", pathPrefix := none
     platformId := "medium", placementSlot := "primary", hostRelationship := "first_party_story" }]

def sourceChannelRuleVersion : String :=
  "source-channel-rules.v1"

def SourceChannelRule.matches (rule : SourceChannelRule) (parsed : UrlParts) : Bool :=
  parsed.host = some rule.host ∧ ∀ pre ∈ rule.pathPrefix, Text.startsWith parsed.path pre

def ruleForUrl [UrlParser] (url : String) : Option SourceChannelRule := do
  let parsed ← UrlParser.parse url
  sourceChannelRules.find? fun rule => rule.matches parsed

/-! ### Recommendations -/

structure ChannelPublicationStatus where
  connectorAvailability : String
  accountReady : Bool
  reason : Option String

structure SourceChannelRecommendation where
  sourceHosts : List String
  (platformId placementSlot : Option String)
  (ruleIds hostRelationships : List String)
  citingAnswers : Nat
  samples : List CitationSample
  publication : ChannelPublicationStatus
  targeted : Bool

structure SourceChannelRecommendationPage where
  (scope ruleVersion : String)
  planIds : List Uuid
  nextAfter : Option Uuid
  coverage : Option CitationCoverage
  items : List SourceChannelRecommendation

inductive RecommendationAudience where
  | human
  | optimization
  deriving DecidableEq

def targeted (scope : DistributionScope) (platform : String) : Bool :=
  match scope.mode with
  | .allEligible => !scope.excludedPlatformIds.contains platform
  | .explicit => scope.includedPlatformIds.contains platform && !scope.excludedPlatformIds.contains platform

/-- A platform with a placement slot, or an unmapped host. -/
abbrev ChannelKey : Type :=
  String × String

/-- The plan, the target and the attempt of a sample. -/
abbrev SampleKey : Type :=
  Uuid × Uuid × Uuid

def CitationSample.key (sample : CitationSample) : SampleKey :=
  (sample.planId, sample.targetId, sample.attemptId)

structure SourceGroup where
  rule : Option SourceChannelRule
  (hosts ruleIds : List String)
  samples : AssocMap SampleKey CitationSample

/-- `BTreeSet::insert`. -/
def insertOnce {α : Type} [LE α] [DecidableLE α] [DecidableEq α] (a : α) (set : List α) : List α :=
  if a ∈ set then set else set.orderedInsert (· ≤ ·) a

/-- The groups so far, and the plans of the samples that were let through. -/
structure SourceGroups where
  groups : AssocMap ChannelKey SourceGroup
  safePlans : List Uuid

/-- Whether a reader is shown a sample. -/
def RecommendationAudience.shows (audience : RecommendationAudience) (sample : CitationSample) : Bool :=
  ¬ (audience = .optimization ∧ sample.questionPurpose ≠ some .optimization)

def channelKey (rule : Option SourceChannelRule) (host : String) : ChannelKey :=
  match rule with
  | none => ("unmapped", host)
  | some rule => (rule.platformId, rule.placementSlot)

def SourceGroup.record (rule : Option SourceChannelRule) (host : String) (sample : CitationSample)
    (group : SourceGroup) : SourceGroup :=
  { group with
    hosts := insertOnce host group.hosts
    ruleIds := rule.elim group.ruleIds fun rule => insertOnce rule.id group.ruleIds
    samples := insertNew sample.key sample group.samples }

def groupSample (audience : RecommendationAudience) (rule : Option SourceChannelRule) (host : String)
    (state : SourceGroups) (sample : CitationSample) : SourceGroups :=
  if audience.shows sample then
    { safePlans := insertOnce sample.planId state.safePlans
      groups := modify (channelKey rule host) (SourceGroup.record rule host sample) state.groups }
  else state

def groupUrl [UrlParser] (audience : RecommendationAudience) (host : String) (state : SourceGroups)
    (url : ObservedUrl) : SourceGroups :=
  let rule := ruleForUrl url.url
  -- The group of a channel is there before any sample is looked at.
  let opened :=
    { state with
      groups := insertNew (channelKey rule host) { rule, hosts := [], ruleIds := [], samples := ∅ } state.groups }
  url.samples.foldl (groupSample audience rule host) opened

def groupSources [UrlParser] (audience : RecommendationAudience) (sources : List ObservedSource) : SourceGroups :=
  sources.foldl (fun state source => source.urls.foldl (groupUrl audience source.host) state)
    { groups := ∅, safePlans := [] }

/-- The groups of a `BTreeMap`, by platform and slot. -/
def inChannelOrder (groups : AssocMap ChannelKey SourceGroup) : List SourceGroup :=
  (sortByKey (fun e => [e.1.1, e.1.2]) groups.entries).map Sigma.snd

/-- The samples of a `BTreeMap`, by plan, target and attempt. -/
def inSampleOrder (samples : AssocMap SampleKey CitationSample) : List CitationSample :=
  (sortByKey (fun e => [e.1.1.bits.toNat, e.1.2.1.bits.toNat, e.1.2.2.bits.toNat]) samples.entries).map Sigma.snd

section

variable {σ : Type}

/-- What a group becomes, with the status of its channel. -/
def SourceGroup.recommendation (distribution : DistributionScope) (audience : RecommendationAudience)
    (group : SourceGroup) (status : ChannelPublicationStatus) : SourceChannelRecommendation where
  sourceHosts := group.hosts
  platformId := group.rule.map SourceChannelRule.platformId
  placementSlot := group.rule.map SourceChannelRule.placementSlot
  ruleIds := group.ruleIds
  hostRelationships := group.rule.elim [] fun rule => [rule.hostRelationship]
  citingAnswers := group.samples.entries.length
  samples :=
    match audience with
    | .human => inSampleOrder group.samples
    | .optimization => []
  publication := status
  targeted := group.rule.any fun rule => targeted distribution rule.platformId

def recommendGroup (distribution : DistributionScope) (audience : RecommendationAudience)
    (publication : String → String → StateM σ ChannelPublicationStatus) (group : SourceGroup) :
    StateM σ (Option SourceChannelRecommendation) :=
  if group.samples.entries.isEmpty then pure none
  else do
    let status ←
      match group.rule with
      | some rule => publication rule.platformId rule.placementSlot
      | none =>
        pure
          { connectorAvailability := "unmapped", accountReady := false
            reason := some "source_not_mapped_to_publishing_channel" }
    pure (some (group.recommendation distribution audience status))

/-- `filter_map`, group after group. -/
def recommendGroups (distribution : DistributionScope) (audience : RecommendationAudience)
    (publication : String → String → StateM σ ChannelPublicationStatus) :
    List SourceGroup → StateM σ (List SourceChannelRecommendation)
  | [] => pure []
  | group :: rest => do
    let item ← recommendGroup distribution audience publication group
    let items ← recommendGroups distribution audience publication rest
    pure (item.toList ++ items)

def recommendSources [UrlParser] (page : CitationInsightPage) (distribution : DistributionScope)
    (audience : RecommendationAudience) (publication : String → String → StateM σ ChannelPublicationStatus) :
    StateM σ SourceChannelRecommendationPage := do
  let grouped := groupSources audience page.observedSources
  let items ← recommendGroups distribution audience publication (inChannelOrder grouped.groups)
  pure
    { scope := "returned_plans_only"
      ruleVersion := sourceChannelRuleVersion
      planIds :=
        match audience with
        | .human => page.planIds
        | .optimization => grouped.safePlans
      -- A page cursor is a plan, so it is shown only with one of its samples.
      nextAfter :=
        match audience with
        | .human => page.nextAfter
        | .optimization => page.nextAfter.filter (grouped.safePlans.contains ·)
      coverage :=
        match audience with
        | .human => some page.coverage
        | .optimization => none
      items }

/-- A lookup that notes the channels it is asked about. -/
def recording (publication : String → String → StateM σ ChannelPublicationStatus)
    (platform slot : String) : StateM (σ × List ChannelKey) ChannelPublicationStatus :=
  fun state =>
    let answer := publication platform slot state.1
    (answer.1, (answer.2, state.2 ++ [(platform, slot)]))

/-- The channels the lookup is asked about, in order. -/
def channelsAsked [UrlParser] (page : CitationInsightPage) (distribution : DistributionScope)
    (audience : RecommendationAudience)
    (publication : String → String → StateM σ ChannelPublicationStatus) (s : σ) : List ChannelKey :=
  (recommendSources page distribution audience (recording publication) (s, [])).2.2

end

end GeoMaster
