import GeoMaster.Proofs.ChannelVariants
import GeoMaster.Proofs.CoverageShape

/-!
# The shape of the publications

An intent is stored under the digest of what it publishes, with one command, the payload it carries and its
origin: the target it was first bound to, or the request it was first made for. Everything but the
verification of an intent stays as it was stored, so two publications share an intent exactly when they
publish the same thing.
-/

namespace GeoMaster

open MemoryDistributionRepository Uuid

/-! ### Publications that stay -/

/-- What the key of an intent in a scope is drawn from. -/
def PublicationIntent.parts (intent : PublicationIntent) (k : String) : List String :=
  [k, intent.contentRevisionId.toString, intent.variantId.toString, intent.platformId,
    intent.placementSlot, intent.accountId.toString, intent.payloadHash]

/-- Two intents publish the same thing. -/
structure SamePayload (intent intent' : PublicationIntent) : Prop where
  contentRevisionId : intent'.contentRevisionId = intent.contentRevisionId
  variantId : intent'.variantId = intent.variantId
  platformId : intent'.platformId = intent.platformId
  placementSlot : intent'.placementSlot = intent.placementSlot
  accountId : intent'.accountId = intent.accountId
  payloadHash : intent'.payloadHash = intent.payloadHash

variable {intent intent' : PublicationIntent}

theorem SamePayload.symm (h : SamePayload intent intent') : SamePayload intent' intent :=
  ⟨h.1.symm, h.2.symm, h.3.symm, h.4.symm, h.5.symm, h.6.symm⟩

variable {i₁ i₂ i₃ : PublicationIntent} {target : DistributionTarget}

theorem SamePayload.trans (h : SamePayload i₁ i₂) (h' : SamePayload i₂ i₃) : SamePayload i₁ i₃ :=
  ⟨h'.1.trans h.1, h'.2.trans h.2, h'.3.trans h.3, h'.4.trans h.4, h'.5.trans h.5, h'.6.trans h.6⟩

theorem samePayload_of_parts {k k' : String} (h : intent.parts k = intent'.parts k') :
    k = k' ∧ SamePayload intent intent' := by
  simp only [PublicationIntent.parts, List.cons.injEq, and_true] at h
  obtain ⟨hk, hrevision, hvariant, hplatform, hslot, haccount, hpayload⟩ := h
  exact ⟨hk, (toString_injective hrevision).symm, (toString_injective hvariant).symm,
    hplatform.symm, hslot.symm, (toString_injective haccount).symm, hpayload.symm⟩

/-- An intent whose verification may have been recorded. -/
structure SamePublication (intent intent' : PublicationIntent) : Prop where
  rest : intent' = { intent with
    verification := intent'.verification
    verificationEvidenceId := intent'.verificationEvidenceId }
  verified : intent.verification = .verified → intent'.verification = .verified

theorem SamePublication.refl (intent : PublicationIntent) : SamePublication intent intent :=
  ⟨rfl, id⟩

theorem SamePublication.trans (h : SamePublication i₁ i₂) (h' : SamePublication i₂ i₃) : SamePublication i₁ i₃ := by
  refine ⟨?_, fun hverified => h'.verified (h.verified hverified)⟩
  have h₂ := h.rest
  have h₃ := h'.rest
  rw [h₂] at h₃
  exact h₃

theorem SamePublication.payload (h : SamePublication intent intent') : SamePayload intent intent' := by
  rw [h.rest]
  exact ⟨rfl, rfl, rfl, rfl, rfl, rfl⟩

theorem SamePublication.intentId (h : SamePublication intent intent') : intent'.intentId = intent.intentId := by
  rw [h.rest]

/-- A target is bound to an intent. -/
structure BoundTo (target : DistributionTarget) (intent : PublicationIntent) : Prop where
  intentId : target.publicationIntentId = some intent.intentId
  variantId : target.variantId = some intent.variantId
  accountId : target.accountId = some intent.accountId
  contentRevisionId : target.contentRevisionId = some intent.contentRevisionId
  platformId : target.platformId = intent.platformId
  placementSlot : target.placementSlot = intent.placementSlot

theorem BoundTo.same (h : BoundTo target intent) (hsame : SamePublication intent intent') : BoundTo target intent' := by
  rw [hsame.rest]
  exact ⟨h.intentId, h.variantId, h.accountId, h.contentRevisionId, h.platformId, h.placementSlot⟩

/-- A target without a publication. -/
structure Unbound (target : DistributionTarget) : Prop where
  intentId : target.publicationIntentId = none
  variantId : target.variantId = none
  accountId : target.accountId = none

/-- A version of a target keeps its cell, and its binding if it has one. -/
structure KeepsBinding (target target' : DistributionTarget) : Prop where
  cell : SameCell target target'
  binding : target.publicationIntentId.isSome →
    target'.publicationIntentId = target.publicationIntentId
      ∧ target'.variantId = target.variantId ∧ target'.accountId = target.accountId

theorem KeepsBinding.refl (target : DistributionTarget) : KeepsBinding target target :=
  ⟨.refl _, fun _ => ⟨rfl, rfl, rfl⟩⟩

theorem KeepsBinding.trans {t₁ t₂ t₃ : DistributionTarget} (h : KeepsBinding t₁ t₂)
    (h' : KeepsBinding t₂ t₃) : KeepsBinding t₁ t₃ := by
  refine ⟨h.cell.trans h'.cell, fun hbound => ?_⟩
  obtain ⟨hintent, hvariant, haccount⟩ := h.binding hbound
  obtain ⟨hintent', hvariant', haccount'⟩ := h'.binding (hintent ▸ hbound)
  exact ⟨hintent'.trans hintent, hvariant'.trans hvariant, haccount'.trans haccount⟩

theorem BoundTo.kept {target' : DistributionTarget} (h : BoundTo target intent)
    (hkept : KeepsBinding target target') : BoundTo target' intent := by
  have hbound : target.publicationIntentId.isSome := by
    rw [h.intentId]
    rfl
  obtain ⟨hintent, hvariant, haccount⟩ := hkept.binding hbound
  exact ⟨hintent.trans h.intentId, hvariant.trans h.variantId, haccount.trans h.accountId,
    hkept.cell.contentRevisionId.trans h.contentRevisionId,
    hkept.cell.platformId.trans h.platformId, hkept.cell.placementSlot.trans h.placementSlot⟩

/-- Nothing that was published was lost or changed, but for the verifications. -/
structure PublicationsKept (s s' : MemoryDistributionState) : Prop where
  intents : ∀ key intent, s.intents.lookup key = some intent →
    ∃ intent', s'.intents.lookup key = some intent' ∧ SamePublication intent intent'
  variants : ∀ key variant, s.variants.lookup key = some variant → s'.variants.lookup key = some variant
  revisions : ∀ key revision, s.revisions.lookup key = some revision → s'.revisions.lookup key = some revision
  commands : ∀ key command, s.commands.lookup key = some command → s'.commands.lookup key = some command
  origins : ∀ k key intent, s.intents.lookup (k, key) = some intent →
    s'.requests.lookup (k, intent.intentId) = s.requests.lookup (k, intent.intentId)
  targets : ∀ key history, s.histories.lookup key = some history →
    ∃ history', s'.histories.lookup key = some history' ∧ KeepsBinding history.last.target history'.last.target

theorem PublicationsKept.refl (s : MemoryDistributionState) : PublicationsKept s s where
  intents _ intent h := ⟨intent, h, .refl _⟩
  variants _ _ h := h
  revisions _ _ h := h
  commands _ _ h := h
  origins _ _ _ _ := rfl
  targets _ history h := ⟨history, h, .refl _⟩

theorem PublicationsKept.trans {s₁ s₂ s₃ : MemoryDistributionState} (h : PublicationsKept s₁ s₂)
    (h' : PublicationsKept s₂ s₃) : PublicationsKept s₁ s₃ where
  intents key intent hi := by
    obtain ⟨i₂, hi₂, hsame⟩ := h.intents key intent hi
    obtain ⟨i₃, hi₃, hsame'⟩ := h'.intents key i₂ hi₂
    exact ⟨i₃, hi₃, hsame.trans hsame'⟩
  variants key variant hv := h'.variants key variant (h.variants key variant hv)
  revisions key revision hr := h'.revisions key revision (h.revisions key revision hr)
  commands key command hc := h'.commands key command (h.commands key command hc)
  origins k key intent hi := by
    obtain ⟨i₂, hi₂, hsame⟩ := h.intents (k, key) intent hi
    have hlater := h'.origins k key i₂ hi₂
    rw [hsame.intentId] at hlater
    rw [hlater, h.origins k key intent hi]
  targets key history hh := by
    obtain ⟨h₂, hh₂, hkept⟩ := h.targets key history hh
    obtain ⟨h₃, hh₃, hkept'⟩ := h'.targets key h₂ hh₂
    exact ⟨h₃, hh₃, hkept.trans hkept'⟩

/-! ### The invariant -/

section Shape

variable [Sha256] [UrlParser]

/-- Where an intent came from. -/
inductive Originated (s : MemoryDistributionState) (k : String) (intent : PublicationIntent) : Prop where
  /-- A coverage target that is still bound to it. -/
  | coverage {history : TargetHistory} (htarget : intent.channelTargetId.isNil = false)
      (hhistory : s.histories.lookup (k, intent.channelTargetId) = some history)
      (hbound : BoundTo history.last.target intent)
  /-- The first request. -/
  | request {request : ContentDistributionRequest} (hnil : intent.channelTargetId = nil)
      (hrequest : s.requests.lookup (k, intent.intentId) = some request)
      (hlinked : request.publicationIntentId = some intent.intentId)
      (hscope : request.scope.projectId = some intent.projectId)
      (hrevision : request.contentRevisionId = intent.contentRevisionId)
      (haccount : request.accountId = intent.accountId) (hplatform : request.platformId = intent.platformId)
      (hslot : request.placementSlot = intent.placementSlot)

/-- The payload of an intent. -/
structure Carries (s : MemoryDistributionState) (k : String) (intent : PublicationIntent) (revision : ContentRevision)
    (placement : PlatformPlacement) (variant : ChannelVariant) : Prop where
  variantStored : s.variants.lookup (k, intent.variantId) = some variant
  revisionStored : s.revisions.lookup (k, intent.contentRevisionId) = some revision
  renders : Renders revision placement variant
  variantId : variant.variantId = intent.variantId
  payloadHash : variant.payloadHash = intent.payloadHash
  platformId : variant.platformId = intent.platformId
  placementSlot : variant.placementSlot = intent.placementSlot
  revisionId : revision.revisionId = intent.contentRevisionId

/-- An intent as it is stored under a key. -/
structure StoredIntent (used : List String → Prop) (s : MemoryDistributionState) (k key : String)
    (intent : PublicationIntent) : Prop where
  scope : ∃ scope : TenantScope, scope.storageKey = k ∧ scope.projectId = some intent.projectId
  used : ∀ text, PublicationTexts (intent.parts k) text → used text
  keyed : intent.logicalKey = key
  drawn : key = digest (intent.parts k)
  identified : intent.intentId = identity [key]
  command : ∃ fixture, s.commands.lookup (k, publishCommandId intent.intentId) = some
    { commandId := publishCommandId intent.intentId
      intentId := intent.intentId
      targetId := intent.channelTargetId
      payloadHash := intent.payloadHash
      fixture }
  payload : ∃ revision placement variant, Carries s k intent revision placement variant
  origin : Originated s k intent

variable {k : String}

variable {key : String}

omit [Sha256] [UrlParser] in
theorem Originated.kept {s s' : MemoryDistributionState}
    (h : Originated s k intent) (hkept : PublicationsKept s s') (hstored : s.intents.lookup (k, key) = some intent)
    (hsame : SamePublication intent intent') : Originated s' k intent' := by
  have horigin := hkept.origins k key intent hstored
  rw [hsame.rest]
  cases h with
  | coverage htarget hhistory hbound =>
    obtain ⟨_, hhistory', hbinding⟩ := hkept.targets _ _ hhistory
    refine .coverage htarget hhistory' ?_
    have hbound' := (hbound.kept hbinding).same hsame
    rwa [hsame.rest] at hbound'
  | request hnil hrequest hlinked hscope hrevision haccount hplatform hslot =>
    exact .request hnil (horigin.trans hrequest) hlinked hscope hrevision haccount hplatform hslot

theorem StoredIntent.kept {used : List String → Prop} {s s' : MemoryDistributionState} (h : StoredIntent used s k key intent) (hkept : PublicationsKept s s')
    (hstored : s.intents.lookup (k, key) = some intent) (hsame : SamePublication intent intent') :
    StoredIntent used s' k key intent' := by
  have horigin := h.origin.kept hkept hstored hsame
  rw [hsame.rest] at horigin ⊢
  refine ⟨h.scope, h.used, h.keyed, h.drawn, h.identified, ?_, ?_, horigin⟩
  · obtain ⟨fixture, hcommand⟩ := h.command
    exact ⟨fixture, hkept.commands _ _ hcommand⟩
  · obtain ⟨revision, placement, variant, hcarries⟩ := h.payload
    exact ⟨revision, placement, variant, hkept.variants _ _ hcarries.variantStored,
      hkept.revisions _ _ hcarries.revisionStored, hcarries.renders, hcarries.variantId,
      hcarries.payloadHash, hcarries.platformId, hcarries.placementSlot, hcarries.revisionId⟩

/-- A target as it stands: without a publication, or bound to a stored one that is not to be withdrawn. -/
def TargetBinding (s : MemoryDistributionState) (k : String) (target : DistributionTarget) : Prop :=
  Unbound target ∨ ∃ key intent, s.intents.lookup (k, key) = some intent ∧ BoundTo target intent
    ∧ ∀ request, s.requests.lookup (k, intent.intentId) = some request → request.withdrawAfterPublish = false

omit [Sha256] [UrlParser] in
theorem TargetBinding.kept {s s' : MemoryDistributionState} {target : DistributionTarget}
    (h : TargetBinding s k target) (hkept : PublicationsKept s s') : TargetBinding s' k target := by
  rcases h with hunbound | ⟨key, intent, hstored, hbound, hwithdraw⟩
  · exact .inl hunbound
  · obtain ⟨intent', hstored', hsame⟩ := hkept.intents _ _ hstored
    refine .inr ⟨key, intent', hstored', hbound.same hsame, fun request hrequest => ?_⟩
    rw [hsame.intentId, hkept.origins _ _ _ hstored] at hrequest
    exact hwithdraw request hrequest

/-- The publications fit together. -/
structure PublicationShape (used : List String → Prop) (s : MemoryDistributionState) : Prop where
  intents : ∀ k key intent, s.intents.lookup (k, key) = some intent →
    StoredIntent used s k key intent
  commands : ∀ k id command, s.commands.lookup (k, id) = some command →
    ∃ key intent, s.intents.lookup (k, key) = some intent ∧ command.intentId = intent.intentId
      ∧ id = publishCommandId intent.intentId
  requests : ∀ k id request, s.requests.lookup (k, id) = some request →
    ∃ key intent, s.intents.lookup (k, key) = some intent ∧ intent.intentId = id
      ∧ intent.channelTargetId = nil
  targets : ∀ k id history, s.histories.lookup (k, id) = some history →
    TargetBinding s k history.last.target
      ∧ history.Chain fun v v' => KeepsBinding v.target v'.target

variable {used : List String → Prop} {s s' : MemoryDistributionState}

theorem PublicationShape.empty : PublicationShape used .empty where
  intents k key intent h := by simp [MemoryDistributionState.empty] at h
  commands k id command h := by simp [MemoryDistributionState.empty] at h
  requests k id request h := by simp [MemoryDistributionState.empty] at h
  targets k id history h := by simp [MemoryDistributionState.empty] at h

/-! ### Uniqueness -/

theorem PublicationShape.command_unique (hs : PublicationShape used s) {id : Uuid} {command : PublicationCommand}
    (hc : s.commands.lookup (k, id) = some command) : id = publishCommandId command.intentId := by
  obtain ⟨_, _, -, hcommand, rfl⟩ := hs.commands _ _ _ hc
  rw [hcommand]

/-- What an intent publishes, no other intent of the scope does. -/
theorem PublicationShape.payload_unique (hs : PublicationShape used s) {key' : String} (h : s.intents.lookup (k, key) = some intent)
    (h' : s.intents.lookup (k, key') = some intent') (hsame : SamePayload intent intent') :
    key' = key ∧ intent' = intent := by
  have hkey : key' = key := by
    rw [(hs.intents _ _ _ h').drawn, (hs.intents _ _ _ h).drawn]
    simp only [PublicationIntent.parts, hsame.contentRevisionId, hsame.variantId, hsame.platformId,
      hsame.placementSlot, hsame.accountId, hsame.payloadHash]
  rw [hkey, h] at h'
  exact ⟨hkey, (Option.some.inj h').symm⟩

section Unique

variable (hfree : CollisionFree used)

include hfree

variable {key : String}

theorem StoredIntent.key_unique {k' key' : String} (h : StoredIntent used s k key intent)
    (h' : StoredIntent used s k' key' intent') (hid : intent.intentId = intent'.intentId) : key = key' := by
  have hused := h.used _ .intent
  have hused' := h'.used _ .intent
  rw [← h.drawn] at hused
  rw [← h'.drawn] at hused'
  rw [h.identified, h'.identified] at hid
  exact (List.cons.inj (hfree.identity _ _ hused hused' hid)).1

theorem PublicationShape.intent_unique (hs : PublicationShape used s) {key' : String} (h : s.intents.lookup (k, key) = some intent)
    (h' : s.intents.lookup (k, key') = some intent') (hid : intent.intentId = intent'.intentId) :
    key = key' ∧ intent = intent' := by
  obtain rfl := (hs.intents _ _ _ h).key_unique hfree (hs.intents _ _ _ h') hid
  rw [h] at h'
  exact ⟨rfl, Option.some.inj h'⟩

/-- A stored intent is stored under the key that its identity is drawn from. -/
theorem PublicationShape.key_of_id (hs : PublicationShape used s) {k' : String}
    {candidate : PublicationIntent} (hused : ∀ text, PublicationTexts (candidate.parts k') text → used text)
    (hkey : candidate.logicalKey = digest (candidate.parts k'))
    (hid : candidate.intentId = identity [candidate.logicalKey]) (h : s.intents.lookup (k, key) = some intent)
    (hsame : intent.intentId = candidate.intentId) :
    key = candidate.logicalKey := by
  have hshape := hs.intents _ _ _ h
  have hold := hshape.used _ .intent
  have hnow := hused _ .intent
  rw [← hshape.drawn] at hold
  rw [← hkey] at hnow
  rw [hid, hshape.identified] at hsame
  exact (List.cons.inj (hfree.identity _ _ hold hnow hsame)).1

end Unique

end Shape

end GeoMaster
