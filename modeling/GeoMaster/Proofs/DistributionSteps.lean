import GeoMaster.Domain.DistributionCalls

/-!
# What a call of the distribution repository does

One lemma for each operation: what it checked, what it returned and the state it left. A failing call
leaves the state as it was.
-/

namespace GeoMaster

open Op Except Option

open MemoryDistributionRepository

namespace MemoryDistributionRepository

variable {now : DateTime} {s s' : MemoryDistributionState} {scope : TenantScope}

theorem reply_returns {α : Type} {f : α → DistributionReply} {x : DistributionOp α} {r : DistributionReply} :
    (reply f x).Returns s r s' ↔ ∃ a, x.Returns s a s' ∧ f a = r :=
  returns_map

theorem scopedManifest_eq_ok {id : Uuid} {manifest : DistributionManifest} :
    scopedManifest s scope id = .ok manifest
      ↔ s.manifests.lookup (scope.storageKey, id) = some manifest ∧ scope.projectId = some manifest.projectId := by
  simp only [scopedManifest, checkScope, eq_ok_iff, not_not]
  constructor
  · rintro ⟨_, hm, _, hproject, rfl⟩
    exact ⟨hm, hproject⟩
  · rintro ⟨hm, hproject⟩
    exact ⟨manifest, hm, (), hproject, rfl⟩

/-! ### Freezing and expanding -/

variable {reply : DistributionManifest} {key : String × Uuid} {old : DistributionTarget} {intentId : Uuid}

theorem freeze_returns [Sha256] [InstantJson] {input : FreezeDistribution}
    (h : (freeze scope input now).Returns s reply s') :
    ∃ manifest, freezeDistribution scope input = .ok manifest
      ∧ ((s.manifests.lookup (scope.storageKey, manifest.manifestId) = some reply ∧ s' = s)
        ∨ (s.manifests.lookup (scope.storageKey, manifest.manifestId) = none ∧ reply = { manifest with sealedAt := now }
          ∧ s' = s.insertManifest (scope.storageKey, manifest.manifestId) reply)) := by
  simp only [freeze, returns_iff] at h
  obtain ⟨manifest, _, ⟨hfrozen, rfl⟩, old, _, ⟨hold, rfl⟩, h⟩ := h
  refine ⟨manifest, hfrozen, ?_⟩
  cases old with
  | some old =>
    simp only [returns_iff] at h
    obtain ⟨_, _, ⟨-, rfl⟩, rfl, rfl⟩ := h
    exact .inl ⟨hold, rfl⟩
  | none =>
    simp only [returns_iff] at h
    obtain ⟨_, _, rfl, rfl, rfl⟩ := h
    exact .inr ⟨hold, rfl, rfl⟩

theorem commitExpansionPage_returns [Sha256] {id : Uuid} {cursor : Nat} {rows : List DistributionTarget}
    {clock : Nat → DateTime} (h : (commitExpansionPage scope id cursor rows clock).Returns s reply s') :
    ∃ manifest, s.manifests.lookup (scope.storageKey, id) = some manifest ∧ scope.projectId = some manifest.projectId
      ∧ rows ≠ [] ∧ cursor + rows.length ≤ manifest.expectedCount
      ∧ matchesRoster manifest cursor rows = true
      ∧ ((cursor ≠ manifest.expansionCursor ∧ cursor + rows.length ≤ manifest.expansionCursor
          ∧ alreadyCommitted s scope rows = true ∧ reply = manifest ∧ s' = s)
        ∨ (cursor = manifest.expansionCursor
          ∧ reply = { manifest with
            expansionCursor := cursor + rows.length
            complete := cursor + rows.length = manifest.expectedCount }
          ∧ s' = (recordRows scope clock 0 rows s).insertManifest (scope.storageKey, id) reply)) := by
  simp only [commitExpansionPage, returns_iff, scopedManifest_eq_ok] at h
  obtain ⟨_, _, ⟨hrows, rfl⟩, _, _, ⟨rfl, rfl⟩, manifest, _, ⟨⟨hm, hproject⟩, rfl⟩, _, _, ⟨-, rfl⟩, _,
    _, ⟨hroster, rfl⟩, h⟩ := h
  simp only [gt_iff_lt, not_or, not_lt, not_not] at hroster
  refine ⟨manifest, hm, hproject, hrows, hroster.1, hroster.2, ?_⟩
  by_cases hcursor : manifest.expansionCursor = cursor
  · simp only [hcursor, ne_eq, not_true_eq_false, if_false, returns_iff] at h
    obtain ⟨_, _, rfl, rfl, rfl⟩ := h
    exact .inr ⟨hcursor.symm, rfl, rfl⟩
  · simp only [ne_eq, hcursor, not_false_eq_true, if_true, returns_iff, not_not] at h
    obtain ⟨_, _, ⟨⟨hlast, hdone⟩, rfl⟩, rfl, rfl⟩ := h
    exact .inl ⟨Ne.symm hcursor, hlast, hdone, rfl, rfl⟩

/-! ### Materializing coverage -/

/-- The state after a target was recorded. -/
def recordChange (key : String × Uuid) (old next : DistributionTarget) (now : DateTime)
    (s : MemoryDistributionState) : MemoryDistributionState :=
  if next = old then s else appendVersion key { next with version := next.version + 1 } now s

theorem changeTarget_returns {next target : DistributionTarget} :
    (changeTarget key old next now).Returns s target s'
      ↔ target = (if next = old then next else { next with version := next.version + 1 })
        ∧ s' = recordChange key old next now s := by
  unfold changeTarget recordChange
  by_cases h : next = old
  · simp [h, eq_comm]
  · simp only [h, if_false, returns_iff, exists_const]
    constructor
    · rintro ⟨_, rfl, rfl, rfl⟩
      exact ⟨rfl, rfl⟩
    · rintro ⟨rfl, rfl⟩
      exact ⟨_, rfl, rfl, rfl⟩

theorem deferTarget_returns {reason : DistributionDeferralReason}
    {reply : MaterializedDistribution} (h : (deferTarget scope key old reason now).Returns s reply s') :
    s' = recordChange key old (putOff old reason.code) now s := by
  simp only [deferTarget, returns_iff, changeTarget_returns] at h
  obtain ⟨_, _, ⟨-, rfl⟩, _, _, ⟨-, rfl⟩, -, rfl⟩ := h
  rfl

theorem unassignTarget_returns {reply : MaterializedDistribution}
    (h : (unassignTarget key old now).Returns s reply s') :
    old.publicationIntentId = none ∧ reply.intent = none
      ∧ s' = recordChange key old (putOff old "account_unassigned") now s := by
  simp only [unassignTarget, returns_iff, changeTarget_returns, Bool.not_eq_true, isSome_eq_false_iff,
    isNone_iff_eq_none] at h
  obtain ⟨_, _, ⟨hbound, rfl⟩, _, _, ⟨-, rfl⟩, rfl, rfl⟩ := h
  exact ⟨hbound, rfl, rfl⟩

/-- A target bound to an intent through an account. -/
def boundTarget (old : DistributionTarget) (variantId accountId : Uuid)
    (previous : Option PublicationIntent) (intentId : Uuid) : DistributionTarget :=
  { old with
    variantId := some variantId
    accountId := some accountId
    publicationIntentId := some intentId
    status := boundStatus old previous
    reason := none }

section

variable [Sha256] [UrlParser]

/-- What a binding of a target checked and did. -/
structure Binds (scope : TenantScope) (key : String × Uuid) (manifest : DistributionManifest)
    (placement : PlatformPlacement) (old : DistributionTarget) (prepared : Option ContentRevision) (accountId : Uuid)
    (bindings : List ContentMediaBinding) (clock : MaterializeClock) (s s' : MemoryDistributionState)
    (revision : ContentRevision) (variant : ChannelVariant) (candidate : PublicationIntent)
    (command : PublicationCommand) (previous : Option PublicationIntent) : Prop where
  given : prepared = some revision
  frozen : old.contentRevisionId = some revision.revisionId
  rendered : materializedVariant scope revision placement bindings = .ok variant
  payload : payloadDiffers s scope revision variant = false
  identified :
    preparePublicationIntent scope manifest old variant accountId clock.createdAt = (candidate, command)
  found : s.intents.lookup (scope.storageKey, candidate.logicalKey) = previous
  retained : ∀ intent, previous = some intent → withdrawsAfterPublish s scope intent.intentId = false
  bound : ∀ id, old.publicationIntentId = some id →
    id = (previous.getD candidate).intentId ∧ old.accountId = some accountId
  after : s' = recordChange key old
    (boundTarget old variant.variantId accountId previous (previous.getD candidate).intentId) clock.recordedAt
    (storePublication scope previous (previous.getD candidate) command variant revision s)

variable {reply : MaterializedDistribution} {clock : MaterializeClock} {bindings : List ContentMediaBinding}
  {prepared : PreparedDistribution}

theorem bindTarget_returns {key : String × Uuid}
    {manifest : DistributionManifest} {placement : PlatformPlacement} {old : DistributionTarget}
    {prepared : Option ContentRevision} {accountId : Uuid}
    (h : (bindTarget scope key manifest placement old prepared accountId bindings clock).Returns s reply s') :
    ∃ revision variant candidate command previous,
      Binds scope key manifest placement old prepared accountId bindings clock s s' revision variant
        candidate command previous
      ∧ reply.intent = some (previous.getD candidate) := by
  simp only [bindTarget, returns_iff, changeTarget_returns, id_eq] at h
  obtain ⟨revision, _, ⟨hrevision, rfl⟩, _, _, ⟨hfrozen, rfl⟩, variant, _, ⟨hvariant, rfl⟩, _, _,
    ⟨rfl, rfl⟩, _, _, ⟨hpayload, rfl⟩, _, _, ⟨hpolicy, rfl⟩, _, _, ⟨hbound, rfl⟩, _, _, rfl, _, _,
    ⟨-, rfl⟩, rfl, rfl⟩ := h
  let prepared := preparePublicationIntent scope manifest old variant accountId clock.createdAt
  refine ⟨revision, variant, prepared.1, prepared.2, _, ⟨hrevision, ?_, hvariant, ?_, rfl, rfl, ?_, ?_, rfl⟩, rfl⟩
  · exact (not_not.mp hfrozen).symm
  · simpa using hpayload
  · intro intent hintent
    rw [hintent] at hpolicy
    simpa using hpolicy
  · intro id hid
    have hsame := not_or.mp fun hdiffers => hbound ⟨id, hid, hdiffers⟩
    rwa [not_not, not_not] at hsame

/-- What a materialization found. -/
structure Materializes (scope : TenantScope) (prepared : PreparedDistribution) (s : MemoryDistributionState)
    (manifest : DistributionManifest) (history : TargetHistory) (placement : PlatformPlacement) : Prop where
  stored : s.manifests.lookup (scope.storageKey, prepared.manifestId) = some manifest
  project : scope.projectId = some manifest.projectId
  expanded : s.histories.lookup (scope.storageKey, prepared.targetId) = some history
  member : history.last.target.manifestId = manifest.manifestId
  status : materializable history.last.target.status = true
  placed :
    (manifest.platformScope.find? fun placement =>
      placement.platformId = history.last.target.platformId
        && placement.placementSlot = history.last.target.placementSlot) = some placement

theorem materializeRich_returns (h : (materializeRich scope prepared bindings clock).Returns s reply s') :
    ∃ manifest history placement, Materializes scope prepared s manifest history placement
      ∧ ((∃ reason, prepared.deferReason = some reason
          ∧ s' = recordChange (scope.storageKey, prepared.targetId) history.last.target
            (putOff history.last.target reason.code) clock.recordedAt s)
        ∨ (prepared.deferReason = none
          ∧ (history.last.target.status = .deferred →
            ∃ reason ∈ temporaryReasons, history.last.target.reason = some reason)
          ∧ ((prepared.accountId = none ∧ history.last.target.publicationIntentId = none ∧ reply.intent = none
              ∧ s' = recordChange (scope.storageKey, prepared.targetId) history.last.target
                (putOff history.last.target "account_unassigned") clock.recordedAt s)
            ∨ ∃ accountId revision variant candidate command previous, prepared.accountId = some accountId
              ∧ Binds scope (scope.storageKey, prepared.targetId) manifest placement history.last.target
                prepared.revision accountId bindings clock s s' revision variant candidate command previous
              ∧ reply.intent = some (previous.getD candidate)))) := by
  simp only [materializeRich, returns_iff, scopedManifest_eq_ok, id_eq, Bool.not_eq_true, not_not, ne_eq,
    Bool.not_eq_false] at h
  obtain ⟨_, _, ⟨rfl, rfl⟩, manifest, _, ⟨⟨hm, hproject⟩, rfl⟩, history, _, ⟨hhistory, rfl⟩, _, _,
    ⟨hmember, rfl⟩, _, _, ⟨hstatus, rfl⟩, placement, _, ⟨hplacement, rfl⟩, h⟩ := h
  refine ⟨manifest, history, placement, ⟨hm, hproject, hhistory, hmember, hstatus, hplacement⟩, ?_⟩
  cases hreason : prepared.deferReason with
  | some reason =>
    rw [hreason] at h
    exact .inl ⟨reason, rfl, deferTarget_returns h⟩
  | none =>
    simp only [hreason, returns_iff] at h
    obtain ⟨_, _, ⟨hgate, rfl⟩, h⟩ := h
    refine .inr ⟨rfl, ?_, ?_⟩
    · intro hdeferred
      rw [not_and, not_not] at hgate
      obtain ⟨reason, hr, hmem⟩ := (any_eq_true ..).mp (hgate hdeferred)
      exact ⟨reason, of_decide_eq_true hmem, hr⟩
    · cases haccount : prepared.accountId with
      | none =>
        rw [haccount] at h
        exact .inl ⟨rfl, unassignTarget_returns h⟩
      | some accountId =>
        rw [haccount] at h
        obtain ⟨revision, variant, candidate, command, previous, hbinds, hreply⟩ := bindTarget_returns h
        exact .inr ⟨accountId, revision, variant, candidate, command, previous, rfl, hbinds, hreply⟩

theorem materialize_returns (h : (materialize scope prepared clock).Returns s reply s') :
    (materializeRich scope prepared [] clock).Returns s reply s' := by
  simp only [materialize, returns_iff] at h
  obtain ⟨_, _, ⟨-, rfl⟩, h⟩ := h
  exact h

end

/-! ### Materializing requests -/

section

variable [Sha256]

/-- What the materialization of a request checked and did with a variant. -/
structure Originates (scope : TenantScope) (request : ContentDistributionRequest) (revision : ContentRevision)
    (variant : ChannelVariant) (now : DateTime) (s s' : MemoryDistributionState) (candidate : PublicationIntent)
    (command : PublicationCommand) (previous : Option PublicationIntent) : Prop where
  identified : prepareRequestPublicationIntent scope request variant now = .ok (candidate, command)
  found : s.intents.lookup (scope.storageKey, candidate.logicalKey) = previous
  policy : ∀ intent, previous = some intent →
    withdrawsAfterPublish s scope intent.intentId = request.withdrawAfterPublish
  sameId : (previous.getD candidate).intentId = candidate.intentId
  sameAccount : (previous.getD candidate).accountId = request.accountId
  sameVariant : (previous.getD candidate).variantId = variant.variantId
  linked : ∀ id, request.publicationIntentId = some id → id = (previous.getD candidate).intentId
  payload : payloadDiffers s scope revision variant = false
  after : s' = keepOrigin scope request (previous.getD candidate)
    (storePublication scope previous (previous.getD candidate) command variant revision s)

variable {request : ContentDistributionRequest} {revision : ContentRevision} {scope : TenantScope}

variable {intent : PublicationIntent}

theorem materializePreparedRequest_returns {variant : ChannelVariant}
    (h : (materializePreparedRequest scope request revision variant now).Returns s intent s') :
    ∃ candidate command previous, Originates scope request revision variant now s s' candidate command previous
      ∧ intent = previous.getD candidate := by
  simp only [materializePreparedRequest, returns_iff, id_eq] at h
  obtain ⟨⟨candidate, command⟩, _, ⟨hidentified, rfl⟩, _, _, ⟨rfl, rfl⟩, _, _, ⟨hpolicy, rfl⟩, _, _,
    ⟨hsame, rfl⟩, _, _, ⟨hpayload, rfl⟩, _, _, rfl, _, _, rfl, rfl, rfl⟩ := h
  simp only [not_or, not_not, not_exists, not_and] at hsame hpolicy
  obtain ⟨hid, haccount, hvariant, hlinked⟩ := hsame
  refine ⟨candidate, command, _,
    ⟨hidentified, rfl, ?_, hid, haccount, hvariant, hlinked, by simpa using hpayload, rfl⟩, rfl⟩
  intro intent hintent
  have hsame := hpolicy (isSome_iff_exists.mpr ⟨intent, hintent⟩)
  rwa [hintent] at hsame

variable [UrlParser]

theorem materializeRequestOrigin_returns (h : (materializeRequestOrigin scope request revision now).Returns s intent s') :
    eligible scope request revision = true ∧ request.format = textDistributionFormat
      ∧ ∃ variant, prepareVariant revision (requestPlacement request "request-text-v1" [request.format]) = .ok variant
        ∧ (materializePreparedRequest scope request revision variant now).Returns s intent s' := by
  simp only [materializeRequestOrigin, returns_iff, not_not] at h
  obtain ⟨_, _, ⟨heligible, rfl⟩, _, _, ⟨hformat, rfl⟩, variant, _, ⟨hvariant, rfl⟩, h⟩ := h
  exact ⟨heligible, hformat, variant, hvariant, h⟩

theorem materializeRichRequestOrigin_returns {bindings : List ContentMediaBinding}
    (h : (materializeRichRequestOrigin scope request revision bindings now).Returns s intent s') :
    eligible scope request revision = true ∧ request.format = richDistributionFormat
      ∧ ∃ variant,
        prepareRichVariantAuthorized revision (requestPlacement request "request-rich-v2" [richMarkdownFormat]) scope
          bindings = .ok variant
        ∧ (materializePreparedRequest scope request revision variant now).Returns s intent s' := by
  simp only [materializeRichRequestOrigin, returns_iff, not_not] at h
  obtain ⟨_, _, ⟨⟨heligible, hformat⟩, rfl⟩, variant, _, ⟨hvariant, rfl⟩, h⟩ := h
  exact ⟨heligible, hformat, variant, hvariant, h⟩

end

/-! ### Verification -/

theorem findIntent_eq_some {found : (_ : String × String) × PublicationIntent}
    (h : findIntent s scope intentId = some found) :
    s.intents.lookup found.1 = some found.2 ∧ found.1.1 = scope.storageKey ∧ found.2.intentId = intentId := by
  have hmem := List.mem_of_find?_eq_some h
  have htest := List.find?_some h
  simp only [decide_eq_true_eq] at htest
  exact ⟨AList.mem_lookup_iff.mpr hmem, htest.1, htest.2⟩

theorem recordIntentVerification_returns {verification : IntentVerification} {evidenceId : Uuid}
    {reply : PublicationIntent}
    (h : (recordIntentVerification scope intentId verification evidenceId).Returns s reply s') :
    ∃ key intent, s.intents.lookup (scope.storageKey, key) = some intent ∧ intent.intentId = intentId ∧ verification
      ≠ .unverified ∧ (intent.verification = .verified → verification ≠ .unknown) ∧ reply
      = { intent with verification, verificationEvidenceId := some evidenceId } ∧ s' = s.insertIntent
      (scope.storageKey, key) reply := by
  simp only [recordIntentVerification, returns_iff, id_eq] at h
  obtain ⟨_, _, ⟨hresolved, rfl⟩, _, _, ⟨rfl, rfl⟩, ⟨⟨owner, key⟩, intent⟩, _, ⟨hfound, rfl⟩, _, _,
    ⟨-, rfl⟩, _, _, ⟨hverified, rfl⟩, _, _, rfl, rfl, rfl⟩ := h
  obtain ⟨hstored, howner, hid⟩ := findIntent_eq_some hfound
  obtain rfl : owner = scope.storageKey := howner
  exact ⟨key, intent, hstored, hid, fun h => hresolved (.inr h), fun h h' => hverified ⟨h, h'⟩, rfl, rfl⟩

end MemoryDistributionRepository

end GeoMaster
