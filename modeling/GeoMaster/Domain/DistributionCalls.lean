import GeoMaster.Domain.DistributionRepository

/-!
# Runs of the distribution repository

Any call with any arguments in any order, by any number of callers. Between two calls the maps that
operations walk may be rehashed. `Digests` names the texts whose digests a call files records under, so
that a run can be assumed to meet no collision among them.
-/

namespace GeoMaster

open MemoryDistributionRepository

/-- A call that may write, with its arguments and the times it reads. -/
inductive DistributionCall where
  | freeze (scope : TenantScope) (input : FreezeDistribution) (now : DateTime)
  | commitExpansionPage (scope : TenantScope) (id : Uuid) (expectedCursor : Nat)
      (rows : List DistributionTarget) (clock : Nat → DateTime)
  | materialize (scope : TenantScope) (prepared : PreparedDistribution) (clock : MaterializeClock)
  | materializeRich (scope : TenantScope) (prepared : PreparedDistribution)
      (bindings : List ContentMediaBinding) (clock : MaterializeClock)
  | materializeRequestOrigin (scope : TenantScope) (request : ContentDistributionRequest)
      (revision : ContentRevision) (now : DateTime)
  | materializeRichRequestOrigin (scope : TenantScope) (request : ContentDistributionRequest)
      (revision : ContentRevision) (bindings : List ContentMediaBinding) (now : DateTime)
  | recordIntentVerification (scope : TenantScope) (intentId : Uuid)
      (verification : IntentVerification) (evidenceId : Uuid)

/-- What a call returns. -/
inductive DistributionReply where
  | manifest (manifest : DistributionManifest)
  | materialized (materialized : MaterializedDistribution)
  | intent (intent : PublicationIntent)

namespace MemoryDistributionRepository

/-- Give the result of an operation a reply. -/
def reply {α : Type} (f : α → DistributionReply) (x : DistributionOp α) : DistributionOp DistributionReply := do
  let a ← x
  pure (f a)

variable [Sha256] [UrlParser] [InstantJson]

/-- What the repository does with a call. -/
def run : DistributionCall → DistributionOp DistributionReply
  | .freeze scope input now => reply .manifest (freeze scope input now)
  | .commitExpansionPage scope id expectedCursor rows clock =>
    reply .manifest (commitExpansionPage scope id expectedCursor rows clock)
  | .materialize scope prepared clock => reply .materialized (materialize scope prepared clock)
  | .materializeRich scope prepared bindings clock =>
    reply .materialized (materializeRich scope prepared bindings clock)
  | .materializeRequestOrigin scope request revision now =>
    reply .intent (materializeRequestOrigin scope request revision now)
  | .materializeRichRequestOrigin scope request revision bindings now =>
    reply .intent (materializeRichRequestOrigin scope request revision bindings now)
  | .recordIntentVerification scope intentId verification evidenceId =>
    reply .intent (recordIntentVerification scope intentId verification evidenceId)

end MemoryDistributionRepository

/-- The same entries in the maps that are walked, listed in some other order. -/
structure MemoryDistributionState.Reordered (s s' : MemoryDistributionState) : Prop where
  manifests : AssocMap.SameEntries s.manifests s'.manifests
  histories : AssocMap.SameEntries s.histories s'.histories
  intents : AssocMap.SameEntries s.intents s'.intents
  commands : AssocMap.SameEntries s.commands s'.commands
  rest : s' = { s with
    manifests := s'.manifests
    histories := s'.histories
    intents := s'.intents
    commands := s'.commands }

/-- A step of a run: a call with its reply or error, or a rehash. -/
abbrev DistributionEvent : Type :=
  CallEvent DistributionCall AppError DistributionReply

variable [Sha256] [UrlParser] [InstantJson]

/-- The repository as a machine. -/
def distributionMachine : Machine MemoryDistributionState DistributionEvent :=
  callMachine MemoryDistributionRepository.run MemoryDistributionState.Reordered

/-! ### Identities without collisions -/

/-- No two of some texts have the same digest or yield the same identity. -/
structure CollisionFree (used : List String → Prop) : Prop where
  digest : ∀ p q, used p → used q → digest p = digest q → p = q
  identity : ∀ p q, used p → used q → identity p = identity q → p = q

/-- The texts behind a logical publication: its key, its intent and its command. -/
inductive PublicationTexts (parts : List String) : List String → Prop where
  | key : PublicationTexts parts parts
  | intent : PublicationTexts parts [digest parts]
  | command : PublicationTexts parts [(identity [digest parts]).toString, "publish"]

/-- A coverage target offers a variant for publication through an account. -/
inductive OffersCoverage (s : MemoryDistributionState) (scope : TenantScope) (prepared : PreparedDistribution)
    (bindings : List ContentMediaBinding) : List String → Prop where
  | publication {manifest : DistributionManifest} {placement : PlatformPlacement} {revision : ContentRevision}
      {variant : ChannelVariant} {accountId : Uuid}
      (hmanifest : s.manifests.lookup (scope.storageKey, prepared.manifestId) = some manifest)
      (hplacement : placement ∈ manifest.platformScope) (hrevision : prepared.revision = some revision)
      (hvariant : materializedVariant scope revision placement bindings = .ok variant)
      (haccount : prepared.accountId = some accountId) :
      OffersCoverage s scope prepared bindings
        (publicationParts scope variant placement.platformId placement.placementSlot accountId)

/-- The texts a call digests for the identities of the records it files. -/
inductive Digests (s : MemoryDistributionState) : DistributionCall → List String → Prop where
  | cell {scope : TenantScope} {input : FreezeDistribution} {now : DateTime} {manifest : DistributionManifest}
      {document : DistributionDocument} {placement : PlatformPlacement}
      (hfrozen : freezeDistribution scope input = .ok manifest) (hdocument : document ∈ manifest.documentRoster)
      (hplacement : placement ∈ manifest.platformScope) :
      Digests s (.freeze scope input now) (targetParts manifest.manifestId document placement)
  | coverage {scope : TenantScope} {prepared : PreparedDistribution} {clock : MaterializeClock}
      {parts text : List String} (hparts : OffersCoverage s scope prepared [] parts)
      (htext : PublicationTexts parts text) : Digests s (.materialize scope prepared clock) text
  | richCoverage {scope : TenantScope} {prepared : PreparedDistribution} {bindings : List ContentMediaBinding}
      {clock : MaterializeClock} {parts text : List String} (hparts : OffersCoverage s scope prepared bindings parts)
      (htext : PublicationTexts parts text) :
      Digests s (.materializeRich scope prepared bindings clock) text
  | request {scope : TenantScope} {request : ContentDistributionRequest}
      {revision : ContentRevision} {now : DateTime} {variant : ChannelVariant} {text : List String}
      (hvariant :
        prepareVariant revision (requestPlacement request "request-text-v1" [request.format]) = .ok variant)
      (htext :
        PublicationTexts
          (publicationParts scope variant request.platformId request.placementSlot request.accountId) text) :
      Digests s (.materializeRequestOrigin scope request revision now) text
  | richRequest {scope : TenantScope} {request : ContentDistributionRequest} {revision : ContentRevision}
      {bindings : List ContentMediaBinding} {now : DateTime} {variant : ChannelVariant} {text : List String}
      (hvariant :
        prepareRichVariantAuthorized revision (requestPlacement request "request-rich-v2" [richMarkdownFormat]) scope
          bindings = .ok variant)
      (htext :
        PublicationTexts
          (publicationParts scope variant request.platformId request.placementSlot request.accountId) text) :
      Digests s (.materializeRichRequestOrigin scope request revision bindings now) text

/-- A step digests only some texts. -/
def DigestsOnly (used : List String → Prop) (s : MemoryDistributionState) : DistributionEvent → Prop
  | .call call _ => ∀ text, Digests s call text → used text
  | .reorder => True

omit [Sha256] [UrlParser] [InstantJson]

/-- An identity is drawn from a digest, so different identities have different digests. -/
theorem collisionFree_of_nodup [Sha256] {texts : List (List String)}
    (hidentities : (texts.map identity).Nodup) : CollisionFree (· ∈ texts) := by
  have hinj : ∀ p q, p ∈ texts → q ∈ texts → identity p = identity q → p = q :=
    fun _ _ hp hq => List.inj_on_of_nodup_map hidentities hp hq
  refine ⟨fun p q hp hq hdigest => hinj p q hp hq ?_, hinj⟩
  unfold identity
  rw [hdigest]

/-! ### Sample values -/

namespace Sample

/-- No document of the samples holds a link. -/
@[reducible] def noLinks : UrlParser :=
  ⟨fun _ => none, fun _ _ => none⟩

/-- The samples freeze at one instant. -/
@[reducible] def freezeInstant : InstantJson :=
  ⟨fun _ => "1970-01-01T00:00:00Z"⟩

/-- A placement that takes articles. -/
def placement (platformId : String) (fixture : Bool) : PlatformPlacement :=
  { platformId, placementSlot := "article", capabilityVersion := "v1"
    supportedFormats := ["article"], unavailableReason := none, fixture }

/-- A roster of one document. -/
def documentPlan (manifestId : Uuid) : DocumentManifest :=
  { manifestId, operatorId := scope.operatorId, tenantId := scope.tenantId
    projectId := ⟨uuid 3⟩, revision := 1, knowledgeReleaseId := uuid 101
    plannerVersion := "p1", state := .closed, sealed := true, expectedCount := some 1
    scopeHash := "s"
    items :=
      [{ documentManifestItemId := uuid 102, manifestId, knowledgeReleaseId := uuid 101
         documentKey := "guide", contentType := "article", productId := none, market := "global"
         language := "en", state := .planned, blockReason := none, dependencyHash := "d"
         sourceVersionRefs := [] }]
    coverage := { total := 1, planned := 1, blocked := 0, deferred := 0, notApplicable := 0 } }

/-- One document is ready. -/
def readyCoverage : ContentCoverage :=
  { total := 1, ready := 1, blocked := 0, deferred := 0, notApplicable := 0, cancelled := 0
    incomplete := 0 }

/-- The closed execution of a roster in a cycle, with its handoff of one ready document. -/
def coverageInput (cycleId manifestId : Uuid) (placements : List PlatformPlacement) : FreezeDistribution :=
  { cycleId, revision := 1, documentManifest := documentPlan manifestId
    contentExecution :=
      { executionId := uuid 103, projectId := ⟨uuid 3⟩, origin := .cycle cycleId, manifestId
        manifestRevision := 1, policyVersion := "p1", inputHash := "i", status := .closed
        expectedCount := 1, coverage := readyCoverage, handoffId := some (uuid 104) }
    contentHandoff :=
      { handoffId := uuid 104, executionId := uuid 103, revision := 1
        supersedesHandoffId := none, coverage := readyCoverage
        items :=
          [{ itemId := uuid 102, documentKey := "guide", status := .ready, reason := none
             revisionId := some (uuid 105) }]
        createdAt := 0 }
    placements
    sealedAt := 0 }

/-- The article of the ready document. -/
def articleRevision : ContentRevision :=
  { revisionId := uuid 105, assetId := uuid 106, revision := 1, baseRevisionId := none
    derivedFromRevisionId := none
    document :=
      { title := "Guide"
        blocks :=
          [{ blockId := uuid 107, kind := .paragraph, text := "Body", citationIds := [], items := []
             rich := none }]
        schemaVersion := 2 }
    markdown := "# Guide\n\nBody"
    evidence := [{ sourceVersionId := uuid 108, chunkId := none, locator := .manual }]
    quotes := [], findings := [], createdAt := 0 }

/-- A request to publish the article. -/
def articleRequest (requestId : Uuid) (withdrawAfterPublish : Bool) : ContentDistributionRequest :=
  { requestId, scope, schemaVersion := 1, contentRevisionId := uuid 105, contentAssetId := uuid 106
    platformId := "zhihu", placementSlot := "article", accountId := uuid 40
    accountOwnerKind := "operator", format := textDistributionFormat, withdrawAfterPublish
    idempotencyKeyHash := "k", requestHash := "r", publicationIntentId := none
    materializationDeferral := none, createdAt := 0 }

/-- The repository with SHA-256. -/
abbrev runSecure : DistributionCall → DistributionOp DistributionReply :=
  @MemoryDistributionRepository.run secureHash noLinks freezeInstant

theorem runSecure_allowed {ok : MemoryDistributionState → DistributionEvent → Prop} (calls : List DistributionCall)
    (s : MemoryDistributionState) (hok : Calls.Allowed runSecure ok s calls) :
    ((@distributionMachine secureHash noLinks freezeInstant).restrict ok).Run s
      (Calls.trace runSecure s calls) (Calls.after runSecure s calls) :=
  Calls.run_trace calls s hok

/-- The article as it is published. -/
def articleVariant : Option ChannelVariant :=
  (@prepareVariant secureHash noLinks articleRevision (placement "zhihu" false)).toOption

theorem articleVariant_isSome : articleVariant.isSome = true := by
  decide +kernel

/-- The texts that are digested when the article is published. -/
def articleTexts : List (List String) :=
  let parts := publicationParts scope (articleVariant.get articleVariant_isSome) "zhihu" "article" (uuid 40)
  [parts, [@digest secureHash parts], [(@identity secureHash [@digest secureHash parts]).toString, "publish"]]

variable {text : List String} {s : MemoryDistributionState}

theorem mem_articleTexts (placement' : PlatformPlacement) {variant : ChannelVariant}
    (hsame : @prepareVariant secureHash noLinks articleRevision placement'
      = @prepareVariant secureHash noLinks articleRevision (placement "zhihu" false))
    (hvariant : @prepareVariant secureHash noLinks articleRevision placement' = .ok variant)
    (htext : @PublicationTexts secureHash
      (publicationParts scope variant "zhihu" "article" (uuid 40)) text) : text ∈ articleTexts := by
  have harticle : articleVariant.get articleVariant_isSome = variant := by
    simp only [articleVariant, ← hsame, hvariant, Except.toOption, Option.get_some]
  unfold articleTexts
  rw [harticle]
  cases htext <;> simp

/-- What freezing some inputs yields. -/
def frozen (input : FreezeDistribution) : Option DistributionManifest :=
  (@freezeDistribution secureHash freezeInstant scope input).toOption

/-- The texts of the cells of a manifest. -/
def cellTexts (manifest : DistributionManifest) : List (List String) :=
  manifest.documentRoster.flatMap fun document =>
    manifest.platformScope.map fun placement => targetParts manifest.manifestId document placement

theorem mem_cellTexts {input : FreezeDistribution} {now : DateTime} (hfrozen : (frozen input).isSome = true)
    (htext : @Digests secureHash noLinks freezeInstant s (.freeze scope input now) text) :
    text ∈ cellTexts ((frozen input).get hfrozen) := by
  cases htext with
  | @cell _ _ _ manifest document placement hmanifest hdocument hplacement =>
    have hsame : (frozen input).get hfrozen = manifest := by
      simp only [frozen, hmanifest, Except.toOption, Option.get_some]
    rw [hsame]
    exact List.mem_flatMap.mpr ⟨document, hdocument, List.mem_map_of_mem hplacement⟩

/-- The article is prepared for a target. -/
def preparedArticle (manifestId targetId : Uuid)
    (deferReason : Option DistributionDeferralReason) : PreparedDistribution :=
  { manifestId, targetId, revision := some articleRevision, accountId := some (uuid 40)
    deferReason }

theorem mem_articleTexts_of_materialize {manifestId targetId : Uuid}
    {deferReason : Option DistributionDeferralReason} {clock : MaterializeClock} {fixture : Bool}
    (hplacements : (s.manifests.lookup (scope.storageKey, manifestId)).map
      DistributionManifest.platformScope = some [placement "zhihu" fixture])
    (htext : @Digests secureHash noLinks freezeInstant s
      (.materialize scope (preparedArticle manifestId targetId deferReason) clock) text) :
    text ∈ articleTexts := by
  cases htext with
  | coverage hparts htext =>
    cases hparts with
    | publication hmanifest hplacement hrevision hvariant haccount =>
      rw [preparedArticle] at hmanifest
      rw [hmanifest] at hplacements
      rw [Option.some.inj hplacements] at hplacement
      obtain rfl := List.mem_singleton.mp hplacement
      obtain rfl := Option.some.inj hrevision
      obtain rfl := Option.some.inj haccount
      exact mem_articleTexts (placement "zhihu" fixture) rfl hvariant htext

end Sample

end GeoMaster
