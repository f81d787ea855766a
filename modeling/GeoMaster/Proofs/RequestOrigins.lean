import GeoMaster.Domain.DistributionRequestTasks
import GeoMaster.Proofs.PublicationSteps

/-!
# Requests and the publications they link to

A request agrees with a stored publication when the check of `link_intent` passes on what is stored and both
have one withdrawal policy. A publication that was read agrees in whatever state it is compared later, and
so does the one a request was given.
-/

namespace GeoMaster

open Except

open MemoryDistributionRepository MemoryContentDistributionRequestRepository

variable [Sha256] [UrlParser]

/-! ### Agreement -/

/-- A publication as it is stored under an identity. -/
structure StoredPublication (d : MemoryDistributionState) (scope : TenantScope)
    (intent : PublicationIntent) (variant : ChannelVariant) (withdraws : Bool) : Prop where
  filed : ∃ key stored, d.intents.lookup (scope.storageKey, key) = some stored ∧ SamePublication intent stored
  payload : d.variants.lookup (scope.storageKey, intent.variantId) = some variant
  policy : withdrawsAfterPublish d scope intent.intentId = withdraws

variable {d d' : MemoryDistributionState} {intent : PublicationIntent} {request : ContentDistributionRequest}

omit [Sha256] [UrlParser] in
theorem StoredPublication.kept {scope : TenantScope} {variant : ChannelVariant} {withdraws : Bool}
    (h : StoredPublication d scope intent variant withdraws) (hkept : PublicationsKept d d') :
    StoredPublication d' scope intent variant withdraws := by
  obtain ⟨key, _, hstored, hsame⟩ := h.filed
  obtain ⟨stored', hstored', hsame'⟩ := hkept.intents _ _ hstored
  have horigin := hkept.origins _ _ _ hstored
  rw [hsame.intentId] at horigin
  refine ⟨⟨key, stored', hstored', hsame.trans hsame'⟩, hkept.variants _ _ h.payload, ?_⟩
  rw [withdrawsAfterPublish, horigin]
  exact h.policy

/-- A request agrees with the stored publication of an identity. -/
def Agrees (d : MemoryDistributionState) (request : ContentDistributionRequest) (intentId : Uuid) : Prop :=
  ∃ intent variant,
    StoredPublication d request.scope intent variant request.withdrawAfterPublish ∧ intent.intentId = intentId
      ∧ validateDistributionRequestIntent request intent variant = .ok ()

theorem Agrees.kept {intentId : Uuid} (h : Agrees d request intentId) (hkept : PublicationsKept d d') :
    Agrees d' request intentId := by
  obtain ⟨intent, variant, hstored, hid, hvalid⟩ := h
  exact ⟨intent, variant, hstored.kept hkept, hid, hvalid⟩

/-- The check reads nothing of an intent that a verification changes. -/
theorem validateDistributionRequestIntent_same
    {intent' : PublicationIntent} (hsame : SamePublication intent intent') (variant : ChannelVariant) :
    validateDistributionRequestIntent request intent' variant
      = validateDistributionRequestIntent request intent variant := by
  rw [hsame.rest]
  rfl

/-! ### Reading a publication -/

section Read

variable {used : List String → Prop} {d : MemoryDistributionState} {scope : TenantScope}
  {intentId : Uuid} {bundle : PublicationBundle} (hfree : CollisionFree used)

include hfree

/-- A publication that was read is stored, and its origin has the policy it was created under. -/
theorem PublicationShape.read (hs : PublicationShape used d) (h : getPublicationBundle d scope intentId = .ok bundle) :
    bundle.intent.intentId = intentId
      ∧ StoredPublication d scope bundle.intent bundle.variant bundle.origin.withdrawsAfterPublish := by
  simp only [getPublicationBundle, eq_ok_iff] at h
  obtain ⟨⟨⟨k, key⟩, intent⟩, hfound, variant, hvariant, revision, -, command, -, origin, horigin, _, hvalid, rfl⟩ := h
  obtain ⟨hlookup, hk, hid⟩ := findIntent_eq_some hfound
  obtain rfl : k = scope.storageKey := hk
  have hid : intent.intentId = intentId := hid
  refine ⟨hid, ⟨key, intent, hlookup, .refl _⟩, hvariant, ?_⟩
  simp only [PublicationBundle.validateOrigin, eq_ok_iff, not_or, not_not] at hvalid
  obtain ⟨_, -, _, _, htarget, hcommand, -⟩ := hvalid
  unfold publicationOrigin at horigin
  split at horigin
  · obtain ⟨request, hrequest, horigin⟩ := bind_eq_ok.mp horigin
    obtain rfl := pure_eq_ok.mp horigin
    rw [withdrawsAfterPublish, okOr_eq_ok.mp hrequest]
    rfl
  · rename_i hcell
    obtain ⟨_, -, horigin⟩ := bind_eq_ok.mp horigin
    obtain rfl := pure_eq_ok.mp horigin
    -- A request is kept only for a publication without a coverage target.
    rw [withdrawsAfterPublish]
    cases hrequest : d.requests.lookup (scope.storageKey, intent.intentId) with
    | none => rfl
    | some request =>
      obtain ⟨_, _, hlookup', hid', hnil⟩ := hs.requests _ _ _ hrequest
      obtain ⟨rfl, rfl⟩ := hs.intent_unique hfree hlookup' hlookup hid'
      have hcommandNil : command.targetId = Uuid.nil := by
        rw [hcommand, ← htarget, hnil]
      exact absurd (by rw [hcommandNil]; rfl) hcell

end Read

/-! ### Creating or reusing a publication -/

section Originate

variable {used : List String → Prop} {d d' : MemoryDistributionState} {scope : TenantScope}
  {request : ContentDistributionRequest} {revision : ContentRevision} {now : DateTime} {variant : ChannelVariant}

variable {call : DistributionCall}

theorem DistributionCall.Requests.format (h : call.Requests scope request revision now variant) :
    formatPolicy request.format = some variant.policyVersion
      ∧ ((request.format = richDistributionFormat) ↔ variant.richPayload.isSome)
      ∧ (variant.richPayload.isSome → validateRichPublicationPayload variant = .ok ()) := by
  cases h with
  | text _ hformat hvariant =>
    obtain ⟨hpolicy, hpayload⟩ := prepareVariant_plain hvariant
    rw [hformat, hpolicy, hpayload]
    refine ⟨rfl, by decide, fun hrich => ?_⟩
    simp at hrich
  | rich _ hformat hvariant =>
    obtain ⟨hpolicy, hrich⟩ := prepareRichVariantAuthorized_rich hvariant
    rw [hformat, hpolicy]
    exact ⟨rfl, ⟨fun _ => hrich, fun _ => rfl⟩, (prepareRichVariantAuthorized_renders hvariant).payload⟩

variable {candidate : PublicationIntent} {command : PublicationCommand}
  {previous : Option PublicationIntent} (hfree : CollisionFree used)

include hfree

theorem PublicationShape.originate_agrees (hs : PublicationShape used d)
    (hcall : call.Requests scope request revision now variant)
    (h : Originates scope request revision variant now d d' candidate command previous)
    (hused : ∀ text,
      PublicationTexts (publicationParts scope variant request.platformId request.placementSlot request.accountId)
        text → used text) :
    Agrees d' request (previous.getD candidate).intentId := by
  obtain ⟨_, ho, -, haccount, hscope, hrevision, hplatform, hslot⟩ := offered_of_request hcall h hused
  obtain ⟨-, -, hstored, hwithdraws⟩ := hs.originate hfree hcall h hused
  obtain ⟨hsame, -⟩ := hs.current_same hfree ho
  obtain ⟨hpolicy, hrich, hpayload⟩ := hcall.format
  have hproject : (previous.getD candidate).projectId = candidate.projectId := by
    cases hprevious : previous with
    | none => rfl
    | some prior => exact (hs.previous_same hfree ho hprevious).2.2.2
  have hvariant : d'.variants.lookup (scope.storageKey, (previous.getD candidate).variantId) = some variant := by
    have hkept := ho.variant_kept
    rw [← (keepOrigin_publications scope request (previous.getD candidate) _).2.2.1] at hkept
    rw [hsame.variantId, ← ho.variantId, h.after]
    exact hkept
  refine ⟨previous.getD candidate, variant,
    ⟨⟨candidate.logicalKey, previous.getD candidate, ?_, .refl _⟩, ?_, ?_⟩, rfl, ?_⟩
  · rw [hscope]
    exact hstored
  · rw [hscope]
    exact hvariant
  · rw [hscope]
    exact hwithdraws
  · simp only [validateDistributionRequestIntent, eq_ok_iff]
    refine ⟨_, hpolicy, candidate.projectId, by rw [hscope, ho.project], (), ?_, ?_⟩
    · simp [hproject, hsame.contentRevisionId, hsame.platformId, hsame.placementSlot, hsame.variantId,
        hsame.accountId, hsame.payloadHash, haccount, hrevision, hplatform, hslot, ho.variantId, ho.payloadHash,
        ho.platformId, ho.placementSlot, ho.renders.revisionId, ho.revisionId, hrich]
    · split
      · rename_i hsome
        exact hpayload hsome
      · rfl

end Originate

/-! ### The distribution step of a commit -/

section Origin

variable {used : List String → Prop} {d d' : MemoryDistributionState} {scope : TenantScope}
  {request : ContentDistributionRequest} {revision : ContentRevision} {now : DateTime}
  {bindings : Option (List ContentMediaBinding)} {intent : PublicationIntent}

theorem materializeOrigin_atomic : (materializeOrigin scope request revision now bindings).Atomic := by
  cases bindings with
  | none =>
    exact .bind .failIf fun _ => .bind .failIf fun _ => .bind .lift fun _ => materializePreparedRequest_atomic ..
  | some bindings => exact .bind .failIf fun _ => .bind .lift fun _ => materializePreparedRequest_atomic ..

/-- A commit uses the distribution repository as any other caller does. -/
theorem materializeOrigin_run [InstantJson]
    (h : (materializeOrigin scope request revision now bindings).Returns d intent d') :
    distributionMachine.step d (.call (originCall scope request revision now bindings) (.ok (.intent intent))) d' := by
  cases bindings <;> exact reply_returns.mpr ⟨intent, h, rfl⟩

/-- The commit leaves the request in agreement with the publication. -/
theorem PublicationShape.materializeOrigin_agrees [InstantJson] (hfree : CollisionFree used)
    (hs : PublicationShape used d)
    (hused : ∀ text, Digests d (originCall scope request revision now bindings) text → used text)
    (h : (materializeOrigin scope request revision now bindings).Returns d intent d') :
    Agrees d' request intent.intentId := by
  cases bindings with
  | none =>
    obtain ⟨heligible, hformat, _, hvariant, hrun⟩ := materializeRequestOrigin_returns h
    obtain ⟨_, _, _, horiginates, rfl⟩ := materializePreparedRequest_returns hrun
    exact hs.originate_agrees hfree (.text heligible hformat hvariant) horiginates
      fun text htext => hused text (.request hvariant htext)
  | some bindings =>
    obtain ⟨heligible, hformat, _, hvariant, hrun⟩ := materializeRichRequestOrigin_returns h
    obtain ⟨_, _, _, horiginates, rfl⟩ := materializePreparedRequest_returns hrun
    exact hs.originate_agrees hfree (.rich heligible hformat hvariant) horiginates
      fun text htext => hused text (.richRequest hvariant htext)

end Origin

end GeoMaster
