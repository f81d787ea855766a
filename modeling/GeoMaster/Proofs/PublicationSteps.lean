import GeoMaster.Proofs.PublicationShape

/-!
# Every step keeps the publications

Publications are stored in one place, whichever of a coverage target and a request asks for one. The step
lemmas say what is added there, and that nothing else changes but the verification of an intent.
-/

namespace GeoMaster

open Except AssocMap Option MemoryDistributionState History

open MemoryDistributionRepository

/-! ### What storing a publication writes -/

section Frames

variable (scope : TenantScope) (previous : Option PublicationIntent) (intent : PublicationIntent)
  (command : PublicationCommand) (variant : ChannelVariant) (revision : ContentRevision) (s : MemoryDistributionState)

theorem storePublication_intents :
    (storePublication scope previous intent command variant revision s).intents
      = previous.elim (s.intents.insert (scope.storageKey, intent.logicalKey) intent) fun _ => s.intents := by
  unfold storePublication keepRevision keepVariant
  cases previous <;> (dsimp only; split <;> split <;> rfl)

theorem storePublication_commands :
    (storePublication scope previous intent command variant revision s).commands
      = previous.elim (s.commands.insert (scope.storageKey, command.commandId) command) fun _ => s.commands := by
  unfold storePublication keepRevision keepVariant
  cases previous <;> (dsimp only; split <;> split <;> rfl)

theorem storePublication_requests :
    (storePublication scope previous intent command variant revision s).requests = s.requests := by
  unfold storePublication keepRevision keepVariant
  cases previous <;> (dsimp only; split <;> split <;> rfl)

theorem storePublication_variants :
    (storePublication scope previous intent command variant revision s).variants
      = insertNew (scope.storageKey, variant.variantId) variant s.variants := by
  unfold storePublication keepRevision keepVariant insertNew
  cases previous <;> (dsimp only; split <;> split <;> simp_all [insertIntent, insertCommand])

theorem storePublication_revisions :
    (storePublication scope previous intent command variant revision s).revisions
      = insertNew (scope.storageKey, revision.revisionId) revision s.revisions := by
  unfold storePublication keepRevision keepVariant insertNew
  cases previous <;> (dsimp only; split <;> split <;> simp_all [insertIntent, insertCommand])

theorem recordRows_publications (clock : Nat → DateTime) (i : Nat) (rows : List DistributionTarget) :
    (recordRows scope clock i rows s).intents = s.intents ∧ (recordRows scope clock i rows s).commands = s.commands
      ∧ (recordRows scope clock i rows s).variants = s.variants ∧ (recordRows scope clock i rows s).revisions
      = s.revisions ∧ (recordRows scope clock i rows s).requests = s.requests := by
  induction rows generalizing i s with
  | nil => exact ⟨rfl, rfl, rfl, rfl, rfl⟩
  | cons _ _ ih => exact ih _ _

end Frames

/-! ### Storing a publication -/

section Publish

variable [Sha256] [UrlParser]

/-- A publication that may be stored, and what is stored under its key. -/
structure Offered (used : List String → Prop) (s : MemoryDistributionState) (scope : TenantScope)
    (revision : ContentRevision) (placement : PlatformPlacement) (variant : ChannelVariant)
    (candidate : PublicationIntent) (command : PublicationCommand) (previous : Option PublicationIntent) : Prop where
  project : scope.projectId = some candidate.projectId
  used : ∀ text, PublicationTexts (candidate.parts scope.storageKey) text → used text
  keyed : candidate.logicalKey = digest (candidate.parts scope.storageKey)
  identified : candidate.intentId = identity [candidate.logicalKey]
  found : s.intents.lookup (scope.storageKey, candidate.logicalKey) = previous
  renders : Renders revision placement variant
  variantId : variant.variantId = candidate.variantId
  payloadHash : variant.payloadHash = candidate.payloadHash
  revisionId : revision.revisionId = candidate.contentRevisionId
  platformId : variant.platformId = candidate.platformId
  placementSlot : variant.placementSlot = candidate.placementSlot
  outbox : ∃ fixture, command =
    { commandId := publishCommandId candidate.intentId
      intentId := candidate.intentId
      targetId := candidate.channelTargetId
      payloadHash := candidate.payloadHash
      fixture }
  unchanged : payloadDiffers s scope revision variant = false

/-- The intent of a variant is offered under the key drawn from it. -/
theorem offered_of_identity {used : List String → Prop} {s : MemoryDistributionState} {scope : TenantScope}
    {projectId : ProjectId} {originTargetId accountId : Uuid} {revision : ContentRevision}
    {placement : PlatformPlacement} {variant : ChannelVariant} {fixture : Bool} {now : DateTime}
    {candidate : PublicationIntent} {command : PublicationCommand} {previous : Option PublicationIntent}
    (hrenders : Renders revision placement variant)
    (hidentity : preparePublicationIdentity scope projectId placement.platformId
      placement.placementSlot originTargetId variant accountId fixture now = (candidate, command))
    (hproject : scope.projectId = some projectId)
    (hfound : s.intents.lookup (scope.storageKey, candidate.logicalKey) = previous)
    (hused : ∀ text,
      PublicationTexts (publicationParts scope variant placement.platformId placement.placementSlot accountId) text →
      used text)
    (hunchanged : payloadDiffers s scope revision variant = false) :
    Offered used s scope revision placement variant candidate command previous
      ∧ candidate.channelTargetId = originTargetId ∧ candidate.accountId = accountId := by
  obtain ⟨hcandidate, hcommand⟩ := Prod.mk.inj hidentity
  subst hcandidate hcommand
  exact ⟨⟨hproject, hused, rfl, rfl, hfound, hrenders, rfl, rfl, hrenders.revisionId.symm,
    hrenders.platformId, hrenders.placementSlot, ⟨_, rfl⟩, hunchanged⟩, rfl, rfl⟩

variable {used : List String → Prop} {s s' : MemoryDistributionState} {scope : TenantScope}
  {revision : ContentRevision} {placement : PlatformPlacement} {variant : ChannelVariant}
  {candidate : PublicationIntent} {command : PublicationCommand} {previous : Option PublicationIntent}

/-- The state after the publication was stored. -/
abbrev published (s : MemoryDistributionState) (scope : TenantScope) (revision : ContentRevision)
    (variant : ChannelVariant) (candidate : PublicationIntent) (command : PublicationCommand)
    (previous : Option PublicationIntent) : MemoryDistributionState :=
  storePublication scope previous (previous.getD candidate) command variant revision s

variable {intent : PublicationIntent}

omit [Sha256] [UrlParser] in
/-- The intents after storing: the ones before, and the one under the key. -/
theorem published_intents {k key : String}
    (h : (published s scope revision variant candidate command previous).intents.lookup (k, key) = some intent) :
    s.intents.lookup (k, key) = some intent
      ∨ k = scope.storageKey ∧ key = candidate.logicalKey ∧ intent = previous.getD candidate := by
  rw [storePublication_intents] at h
  cases hprevious : previous with
  | some prior =>
    rw [hprevious] at h
    exact .inl h
  | none =>
    rw [hprevious, elim_none, lookup_insert] at h
    split at h
    · rename_i hkey
      obtain ⟨rfl, rfl⟩ := Prod.mk.inj hkey
      exact .inr ⟨rfl, rfl, (some.inj h).symm⟩
    · exact .inl h

variable (hfree : CollisionFree used) (hs : PublicationShape used s)
  (ho : Offered used s scope revision placement variant candidate command previous)

include ho

/-- A revision and a variant that are stored are those of the publication. -/
theorem Offered.stored_eq :
    (∀ r, s.revisions.lookup (scope.storageKey, revision.revisionId) = some r → r = revision)
      ∧ ∀ v, s.variants.lookup (scope.storageKey, variant.variantId) = some v → v = variant := by
  simpa [payloadDiffers, any_eq_false] using ho.unchanged

theorem Offered.variant_kept :
    (published s scope revision variant candidate command previous).variants.lookup
      (scope.storageKey, variant.variantId) = some variant := by
  rw [storePublication_variants, lookup_insertNew, if_pos rfl]
  cases hprior : s.variants.lookup (scope.storageKey, variant.variantId) with
  | none => rfl
  | some prior => exact congrArg some (ho.stored_eq.2 prior hprior)

theorem Offered.revision_kept :
    (published s scope revision variant candidate command previous).revisions.lookup
      (scope.storageKey, revision.revisionId) = some revision := by
  rw [storePublication_revisions, lookup_insertNew, if_pos rfl]
  cases hprior : s.revisions.lookup (scope.storageKey, revision.revisionId) with
  | none => rfl
  | some prior => exact congrArg some (ho.stored_eq.1 prior hprior)

theorem Offered.intent_after :
    (published s scope revision variant candidate command previous).intents.lookup
      (scope.storageKey, candidate.logicalKey) = some (previous.getD candidate) := by
  rw [storePublication_intents]
  cases hprevious : previous with
  | some prior => rw [elim_some, ho.found, hprevious, getD_some]
  | none =>
    rw [elim_none, getD_none]
    exact AList.lookup_insert _

theorem Offered.commands_after {k : String} {id : Uuid} {found : PublicationCommand}
    (h : (published s scope revision variant candidate command previous).commands.lookup (k, id) = some found) :
    s.commands.lookup (k, id) = some found
      ∨ k = scope.storageKey ∧ previous = none ∧ found = command
        ∧ id = publishCommandId candidate.intentId ∧ found.intentId = candidate.intentId := by
  rw [storePublication_commands] at h
  cases hprevious : previous with
  | some prior =>
    rw [hprevious] at h
    exact .inl h
  | none =>
    rw [hprevious, elim_none, lookup_insert] at h
    split at h
    · rename_i hkey
      obtain ⟨_, hcommand⟩ := ho.outbox
      obtain ⟨rfl, rfl⟩ := Prod.mk.inj hkey
      obtain rfl := some.inj h
      exact .inr ⟨rfl, rfl, rfl, by rw [hcommand], by rw [hcommand]⟩
    · exact .inl h

include hs

/-- The intent under the key after storing has its command and its payload there. -/
theorem PublicationShape.publish_stored (hkept : PublicationsKept s s')
    (hcommands : s'.commands = (published s scope revision variant candidate command previous).commands)
    (hvariants : s'.variants = (published s scope revision variant candidate command previous).variants)
    (hrevisions : s'.revisions = (published s scope revision variant candidate command previous).revisions)
    (horigin : previous = none → Originated s' scope.storageKey candidate) :
    StoredIntent used s' scope.storageKey candidate.logicalKey (previous.getD candidate) := by
  cases hprevious : previous with
  | some prior =>
    rw [hprevious] at ho
    exact (hs.intents _ _ _ ho.found).kept hkept ho.found (.refl _)
  | none =>
    rw [hprevious] at ho hcommands hvariants hrevisions
    refine ⟨⟨scope, rfl, ho.project⟩, ho.used, rfl, ho.keyed, ho.identified, ?_, ?_, horigin hprevious⟩
    · obtain ⟨fixture, hcommand⟩ := ho.outbox
      refine ⟨fixture, ?_⟩
      rw [hcommands, storePublication_commands, hcommand]
      exact AList.lookup_insert _
    · refine ⟨revision, placement, variant, ?_, ?_, ho.renders, ho.variantId, ho.payloadHash,
        ho.platformId, ho.placementSlot, ho.revisionId⟩
      · rw [getD_none, ← ho.variantId, hvariants]
        exact ho.variant_kept
      · rw [getD_none, ← ho.revisionId, hrevisions]
        exact ho.revision_kept

include hfree

theorem PublicationShape.previous_same     {prior : PublicationIntent} (h : previous = some prior) :
    SamePayload candidate prior ∧ prior.intentId = candidate.intentId
      ∧ prior.logicalKey = candidate.logicalKey ∧ prior.projectId = candidate.projectId := by
  have hshape := hs.intents _ _ _ (ho.found.trans h)
  have hdigests : digest (candidate.parts scope.storageKey)
      = digest (prior.parts scope.storageKey) := by
    rw [← ho.keyed, ← hshape.drawn]
  have hparts := hfree.digest _ _ (ho.used _ .key) (hshape.used _ .key) hdigests
  obtain ⟨_, hkey, hproject⟩ := hshape.scope
  rw [TenantScope.storageKey_injective hkey, ho.project] at hproject
  exact ⟨(samePayload_of_parts hparts).2, hshape.identified.trans ho.identified.symm, hshape.keyed,
    (some.inj hproject).symm⟩

/-- What is stored under the key after storing publishes the same thing. -/
theorem PublicationShape.current_same :
    SamePayload candidate (previous.getD candidate) ∧ (previous.getD candidate).intentId = candidate.intentId := by
  cases hprevious : previous with
  | some prior =>
    obtain ⟨hsame, hid, -, -⟩ := hs.previous_same hfree ho hprevious
    exact ⟨hsame, hid⟩
  | none => exact ⟨⟨rfl, rfl, rfl, rfl, rfl, rfl⟩, rfl⟩

/-- A stored intent with the identity of the publication is the one under its key. -/
theorem PublicationShape.previous_of_id {key : String} (h : s.intents.lookup (scope.storageKey, key) = some intent)
    (hid : intent.intentId = candidate.intentId) : previous = some intent := by
  rw [← ho.found, ← hs.key_of_id hfree ho.used ho.keyed ho.identified h hid, h]

omit ho in
theorem PublicationShape.no_command (ho : Offered used s scope revision placement variant candidate command none) :
    s.commands.lookup (scope.storageKey, publishCommandId candidate.intentId) = none := by
  cases hcommand : s.commands.lookup (scope.storageKey, publishCommandId candidate.intentId) with
  | none => rfl
  | some found =>
    obtain ⟨_, _, hstored, -, hcommandId⟩ := hs.commands _ _ _ hcommand
    have hshape := hs.intents _ _ _ hstored
    have hold := hshape.used _ .command
    have hnow := ho.used _ .command
    rw [← hshape.drawn, ← hshape.identified] at hold
    rw [← ho.keyed, ← ho.identified] at hnow
    have htexts := hfree.identity _ _ hnow hold hcommandId
    have hids := Uuid.toString_injective (List.cons.inj htexts).1
    have hprevious := hs.previous_of_id hfree ho hstored hids.symm
    simp at hprevious

omit ho in
theorem PublicationShape.no_request (ho : Offered used s scope revision placement variant candidate command none) :
    s.requests.lookup (scope.storageKey, candidate.intentId) = none := by
  cases hrequest : s.requests.lookup (scope.storageKey, candidate.intentId) with
  | none => rfl
  | some request =>
    obtain ⟨_, _, hstored, hid, -⟩ := hs.requests _ _ _ hrequest
    have hprevious := hs.previous_of_id hfree ho hstored hid
    simp at hprevious

theorem PublicationShape.publish_kept :
    PublicationsKept s (published s scope revision variant candidate command previous) where
  intents key intent h := by
    refine ⟨intent, ?_, .refl _⟩
    rw [storePublication_intents]
    cases hprevious : previous with
    | some prior => exact h
    | none =>
      have hnew := ho.found
      rw [hprevious] at hnew
      refine (AList.lookup_insert_ne fun hkey => ?_).trans h
      rw [hkey, show (none.getD candidate) = candidate from rfl, hnew] at h
      simp at h
  variants key v h := by
    rw [storePublication_variants]
    exact lookup_insertNew_of_some _ _ h
  revisions key r h := by
    rw [storePublication_revisions]
    exact lookup_insertNew_of_some _ _ h
  commands key c h := by
    rw [storePublication_commands]
    cases hprevious : previous with
    | some prior => exact h
    | none =>
      rw [hprevious] at ho
      have hnew := hs.no_command hfree ho
      obtain ⟨_, hcommand⟩ := ho.outbox
      refine (AList.lookup_insert_ne fun hkey => ?_).trans h
      rw [hkey, hcommand, hnew] at h
      simp at h
  origins k key intent h := by rw [storePublication_requests]
  targets key history h := by
    refine ⟨history, ?_, .refl _⟩
    rw [(storePublication_coverage s scope _ _ _ _ _).2, h]

end Publish

/-! ### Growing publications -/

section Growth

variable [Sha256] [UrlParser] {used : List String → Prop} {s s' : MemoryDistributionState}

theorem PublicationShape.extend (hs : PublicationShape used s) (hkept : PublicationsKept s s')
    (hintents : ∀ k key intent, s'.intents.lookup (k, key) = some intent →
      (∃ old, s.intents.lookup (k, key) = some old ∧ SamePublication old intent) ∨ StoredIntent used s' k key intent)
    (hcommands : ∀ k id command, s'.commands.lookup (k, id) = some command →
      s.commands.lookup (k, id) = some command
        ∨ ∃ key intent, s'.intents.lookup (k, key) = some intent
          ∧ command.intentId = intent.intentId ∧ id = publishCommandId intent.intentId)
    (hrequests : ∀ k id request, s'.requests.lookup (k, id) = some request →
      s.requests.lookup (k, id) = some request
        ∨ ∃ key intent, s'.intents.lookup (k, key) = some intent ∧ intent.intentId = id
          ∧ intent.channelTargetId = Uuid.nil)
    (htargets : ∀ k id history, s'.histories.lookup (k, id) = some history →
      (TargetBinding s k history.last.target ∨ TargetBinding s' k history.last.target)
        ∧ history.Chain fun v v' => KeepsBinding v.target v'.target) :
    PublicationShape used s' where
  intents k key intent h := by
    rcases hintents k key intent h with ⟨old, hold, hsame⟩ | hnew
    · exact (hs.intents k key old hold).kept hkept hold hsame
    · exact hnew
  commands k id command h := by
    rcases hcommands k id command h with hold | hnew
    · obtain ⟨key, _, hstored, hcommand, hid⟩ := hs.commands k id command hold
      obtain ⟨intent', hstored', hsame⟩ := hkept.intents _ _ hstored
      exact ⟨key, intent', hstored', by rw [hsame.intentId, hcommand], by rw [hsame.intentId, hid]⟩
    · exact hnew
  requests k id request h := by
    rcases hrequests k id request h with hold | hnew
    · obtain ⟨key, _, hstored, hid, hnil⟩ := hs.requests k id request hold
      obtain ⟨intent', hstored', hsame⟩ := hkept.intents _ _ hstored
      exact ⟨key, intent', hstored', by rw [hsame.intentId, hid], by rw [hsame.rest]; exact hnil⟩
    · exact hnew
  targets k id history h := by
    obtain ⟨hbinding, hchain⟩ := htargets k id history h
    refine ⟨?_, hchain⟩
    rcases hbinding with hold | hnew
    · exact hold.kept hkept
    · exact hnew

omit [Sha256] [UrlParser] in
theorem recordChange_publications (key : String × Uuid) (old next : DistributionTarget)
    (now : DateTime) (s₁ : MemoryDistributionState) :
    (recordChange key old next now s₁).intents = s₁.intents ∧ (recordChange key old next now s₁).commands = s₁.commands
      ∧ (recordChange key old next now s₁).variants = s₁.variants ∧ (recordChange key old next now s₁).revisions
      = s₁.revisions ∧ (recordChange key old next now s₁).requests = s₁.requests := by
  unfold recordChange
  split <;> exact ⟨rfl, rfl, rfl, rfl, rfl⟩

variable {key : String × Uuid} {history : TargetHistory} {next : DistributionTarget} {s₁ : MemoryDistributionState}

omit [Sha256] [UrlParser] in
theorem recordChange_lookup {key' : String × Uuid} {found : TargetHistory}
    {now : DateTime} (hstored : s₁.histories.lookup key = some history)
    (h : (recordChange key history.last.target next now s₁).histories.lookup key' = some found) :
    s₁.histories.lookup key' = some found
      ∨ key' = key ∧ found = history.push
        { recordedAt := TargetHistory.recordedAt history now
          target := { next with version := next.version + 1 } } := by
  unfold recordChange at h
  split at h
  · exact .inl h
  · simp only [appendVersion, hstored, insertHistory] at h
    rw [lookup_insert] at h
    split at h
    · rename_i hkey
      exact .inr ⟨hkey, (some.inj h).symm⟩
    · exact .inl h

omit [Sha256] [UrlParser] in
theorem recordChange_last
    (next : DistributionTarget) (now : DateTime) (hstored : s₁.histories.lookup key = some history) :
    ∃ history', (recordChange key history.last.target next now s₁).histories.lookup key = some history'
      ∧ KeepsBinding next history'.last.target := by
  unfold recordChange
  split
  · rename_i hsame
    exact ⟨history, hstored, hsame ▸ .refl _⟩
  · refine ⟨history.push
      { recordedAt := TargetHistory.recordedAt history now
        target := { next with version := next.version + 1 } }, ?_, ?_⟩
    · simp only [appendVersion, hstored, insertHistory]
      exact AList.lookup_insert _
    · rw [last_push]
      exact ⟨⟨rfl, rfl, rfl, rfl, rfl, rfl, rfl⟩, fun _ => ⟨rfl, rfl, rfl⟩⟩

omit [Sha256] [UrlParser] in
/-- Recording a target that keeps its binding loses nothing. -/
theorem recordChange_kept (now : DateTime) (hstored : s₁.histories.lookup key = some history)
    (hnext : KeepsBinding history.last.target next) :
    PublicationsKept s₁ (recordChange key history.last.target next now s₁) := by
  unfold recordChange
  split
  · exact .refl _
  · refine ⟨fun _ intent h => ⟨intent, h, .refl _⟩, fun _ _ h => h, fun _ _ h => h, fun _ _ h => h,
      fun _ _ _ _ => rfl, fun key' found h => ?_⟩
    simp only [appendVersion, hstored, insertHistory]
    rw [lookup_insert]
    split
    · rename_i hkey
      rw [hkey, hstored] at h
      obtain rfl := some.inj h
      refine ⟨_, rfl, ?_⟩
      rw [last_push]
      exact hnext.trans ⟨⟨rfl, rfl, rfl, rfl, rfl, rfl, rfl⟩, fun _ => ⟨rfl, rfl, rfl⟩⟩
    · exact ⟨found, h, .refl _⟩

omit [Sha256] [UrlParser] in
theorem TargetBinding.congr {k : String} {target target' : DistributionTarget} (h : TargetBinding s k target)
    (hcell : SameCell target target') (hintent : target'.publicationIntentId = target.publicationIntentId)
    (hvariant : target'.variantId = target.variantId)
    (haccount : target'.accountId = target.accountId) : TargetBinding s k target' := by
  rcases h with hunbound | ⟨key, intent, hstored, hbound, hwithdraw⟩
  · exact .inl ⟨hintent.trans hunbound.intentId, hvariant.trans hunbound.variantId, haccount.trans hunbound.accountId⟩
  · exact .inr ⟨key, intent, hstored, hbound.kept ⟨hcell, fun _ => ⟨hintent, hvariant, haccount⟩⟩, hwithdraw⟩

/-- A change that publishes nothing. -/
theorem PublicationShape.quiet (hs : PublicationShape used s) (hintents : AssocMap.SameEntries s.intents s'.intents)
    (hcommands : AssocMap.SameEntries s.commands s'.commands) (hvariants : s'.variants = s.variants)
    (hrevisions : s'.revisions = s.revisions) (hrequests : s'.requests = s.requests)
    (hold : ∀ key history, s.histories.lookup key = some history →
      ∃ history', s'.histories.lookup key = some history' ∧ KeepsBinding history.last.target history'.last.target)
    (hnew : ∀ k id history, s'.histories.lookup (k, id) = some history →
      TargetBinding s k history.last.target ∧ history.Chain fun v v' => KeepsBinding v.target v'.target) :
    PublicationShape used s' ∧ PublicationsKept s s' := by
  have hkept : PublicationsKept s s' :=
    { intents := fun key intent h => ⟨intent, by rw [← hintents.lookup_eq, h], .refl _⟩
      variants := fun key v h => by rw [hvariants, h]
      revisions := fun key r h => by rw [hrevisions, h]
      commands := fun key c h => by rw [← hcommands.lookup_eq, h]
      origins := fun k key intent _ => by rw [hrequests]
      targets := hold }
  refine ⟨hs.extend hkept ?_ ?_ ?_ ?_, hkept⟩
  · intro k key intent h
    exact .inl ⟨intent, by rw [hintents.lookup_eq, h], .refl _⟩
  · intro k id command h
    exact .inl (by rw [hcommands.lookup_eq, h])
  · intro k id request h
    exact .inl (by rw [← hrequests, h])
  · intro k id history h
    obtain ⟨hbinding, hchain⟩ := hnew k id history h
    exact ⟨.inl hbinding, hchain⟩

theorem PublicationShape.putOff (hs : PublicationShape used s) {k : String} {targetId : Uuid}
    {history : TargetHistory} {reason : String} {now : DateTime}
    (hstored : s.histories.lookup (k, targetId) = some history) :
    PublicationShape used (recordChange (k, targetId) history.last.target
        (putOff history.last.target reason) now s)
      ∧ PublicationsKept s (recordChange (k, targetId) history.last.target
        (putOff history.last.target reason) now s) := by
  have hcell := sameCell_putOff history.last.target reason
  have hnext : KeepsBinding history.last.target (MemoryDistributionRepository.putOff
      history.last.target reason) := ⟨hcell, fun _ => ⟨rfl, rfl, rfl⟩⟩
  have hkept := recordChange_kept now hstored hnext
  obtain ⟨hintents, hcommands, hvariants, hrevisions, hrequests⟩ :=
    recordChange_publications (k, targetId) history.last.target
      (MemoryDistributionRepository.putOff history.last.target reason) now s
  refine hs.quiet (hintents ▸ .refl _) (hcommands ▸ .refl _) hvariants hrevisions hrequests
    hkept.targets fun k' id found hfound => ?_
  rcases recordChange_lookup hstored hfound with hold | ⟨hkey, rfl⟩
  · exact hs.targets k' id found hold
  · obtain ⟨rfl, rfl⟩ := Prod.mk.inj hkey
    obtain ⟨hbinding, hchain⟩ := hs.targets _ _ _ hstored
    rw [last_push]
    exact ⟨hbinding.congr (hcell.trans ⟨rfl, rfl, rfl, rfl, rfl, rfl, rfl⟩) rfl rfl rfl,
      hchain.push ⟨hcell.trans ⟨rfl, rfl, rfl, rfl, rfl, rfl, rfl⟩, fun _ => ⟨rfl, rfl, rfl⟩⟩⟩

end Growth

/-! ### The steps that publish -/

section Steps

variable [Sha256] [UrlParser] {used : List String → Prop} {s s' : MemoryDistributionState}
  {scope : TenantScope} {revision : ContentRevision} {placement : PlatformPlacement}
  {variant : ChannelVariant} {candidate : PublicationIntent} {command : PublicationCommand}
  {previous : Option PublicationIntent} (hfree : CollisionFree used)

variable {intent : PublicationIntent} {now : DateTime} {request : ContentDistributionRequest}

variable {accountId : Uuid} {history : TargetHistory} {manifest : DistributionManifest} {call : DistributionCall}

omit [Sha256] [UrlParser] in
theorem boundTo_boundTarget {old : DistributionTarget} (hvariant : intent.variantId = variant.variantId)
    (haccount : intent.accountId = accountId) (hrevision : old.contentRevisionId = some intent.contentRevisionId)
    (hplatform : old.platformId = intent.platformId) (hslot : old.placementSlot = intent.placementSlot) : BoundTo
    (boundTarget old variant.variantId accountId previous intent.intentId) intent :=
  ⟨rfl, congrArg some hvariant.symm, congrArg some haccount.symm, hrevision, hplatform, hslot⟩

include hfree

/-- What a materialization found about the publication it binds a target to. -/
structure BindsPublication (used : List String → Prop) (s : MemoryDistributionState) (scope : TenantScope)
    (targetId : Uuid) (old : DistributionTarget) (accountId : Uuid) (revision : ContentRevision)
    (placement : PlatformPlacement) (variant : ChannelVariant) (candidate : PublicationIntent)
    (command : PublicationCommand) (previous : Option PublicationIntent) : Prop where
  offered : Offered used s scope revision placement variant candidate command previous
  origin : candidate.channelTargetId = targetId
  target : targetId.isNil = false
  sameId : (previous.getD candidate).intentId = candidate.intentId
  bound : BoundTo (boundTarget old variant.variantId accountId previous (previous.getD candidate).intentId)
    (previous.getD candidate)
  retained : ∀ request,
    s.requests.lookup (scope.storageKey, (previous.getD candidate).intentId) = some request →
      request.withdrawAfterPublish = false
  keeps : KeepsBinding old
    (boundTarget old variant.variantId accountId previous (previous.getD candidate).intentId)

theorem PublicationShape.bindsPublication (hc : CoverageShape used s) (hs : PublicationShape used s)
    {prepared : PreparedDistribution} {bindings : List ContentMediaBinding} {clock : MaterializeClock}
    (hfound : Materializes scope prepared s manifest history placement)
    (hbinds : Binds scope (scope.storageKey, prepared.targetId) manifest placement
      history.last.target prepared.revision accountId bindings clock s s' revision variant candidate
      command previous)
    (hused : ∀ text,
      PublicationTexts (publicationParts scope variant placement.platformId placement.placementSlot accountId) text →
        used text) :
    BindsPublication used s scope prepared.targetId history.last.target accountId revision placement
      variant candidate command previous := by
  have hplaced := List.find?_some hfound.placed
  simp only [Bool.and_eq_true, decide_eq_true_eq] at hplaced
  obtain ⟨hplatform, hslot⟩ := hplaced
  have hidentified := hbinds.identified
  rw [preparePublicationIntent, ← hplatform, ← hslot] at hidentified
  obtain ⟨ho, htarget, haccount⟩ := offered_of_identity (materializedVariant_renders hbinds.rendered)
    hidentified hfound.project hbinds.found hused hbinds.payload
  have hshape := hc.histories _ _ _ hfound.expanded
  have hsameCell := hshape.sameCell history.last_mem
  -- Whatever is under the key publishes what the candidate would.
  obtain ⟨hsame, hid⟩ := hs.current_same hfree ho
  constructor
  case offered => exact ho
  case origin => rw [htarget, hsameCell.targetId, hshape.keyed]
  case target =>
    obtain ⟨_, -, -, hcell⟩ := hshape.origin
    obtain ⟨_, _, -, hfirst⟩ := distributionCell_eq_some.mp hcell
    rw [← hshape.keyed, hfirst]
    exact identity_isNil _
  case sameId => exact hid
  case bound =>
    refine boundTo_boundTarget (hsame.variantId.trans ho.variantId.symm) (hsame.accountId.trans haccount) ?_ ?_ ?_
    · rw [hbinds.frozen, ho.revisionId, hsame.contentRevisionId]
    · rw [hsame.platformId, ← ho.platformId, ho.renders.platformId, hplatform]
    · rw [hsame.placementSlot, ← ho.placementSlot, ho.renders.placementSlot, hslot]
  case retained =>
    intro request hrequest
    cases hprevious : previous with
    | some prior =>
      have hretained := hbinds.retained prior hprevious
      rw [hprevious, getD_some] at hrequest
      rwa [withdrawsAfterPublish, hrequest] at hretained
    | none =>
      rw [hprevious] at ho hrequest
      rw [getD_none, hs.no_request hfree ho] at hrequest
      simp at hrequest
  case keeps =>
    refine ⟨sameCell_boundTarget _ _ _ _ _, fun hsome => ?_⟩
    obtain ⟨id, hintentId⟩ := isSome_iff_exists.mp hsome
    obtain ⟨rfl, holdAccount⟩ := hbinds.bound id hintentId
    -- The intent it was bound to is stored, so it is the one under the key.
    rcases (hs.targets _ _ _ hfound.expanded).1 with hunbound | ⟨key, old, hold, holdBound, -⟩
    · rw [hunbound.intentId] at hintentId
      simp at hintentId
    · have holdId : old.intentId = candidate.intentId := by
        have hsameId := holdBound.intentId
        rw [hintentId] at hsameId
        exact (some.inj hsameId).symm.trans hid
      have hprevious := hs.previous_of_id hfree ho hold holdId
      have hvariant := holdBound.variantId
      rw [hprevious, getD_some] at hsame
      refine ⟨hintentId.symm, ?_, holdAccount.symm⟩
      rw [hvariant, hsame.variantId, ← ho.variantId]
      rfl

theorem PublicationShape.bind (hs : PublicationShape used s) {targetId : Uuid}
    (hb : BindsPublication used s scope targetId history.last.target accountId revision placement
      variant candidate command previous) (hexpanded : s.histories.lookup (scope.storageKey, targetId) = some history)
    (hafter : s' = recordChange (scope.storageKey, targetId) history.last.target
      (boundTarget history.last.target variant.variantId accountId previous (previous.getD candidate).intentId) now
      (published s scope revision variant candidate command previous)) :
    PublicationShape used s' ∧ PublicationsKept s s'
      ∧ s'.intents.lookup (scope.storageKey, candidate.logicalKey) = some (previous.getD candidate)
      ∧ ∀ request, s'.requests.lookup (scope.storageKey, (previous.getD candidate).intentId)
        = some request → request.withdrawAfterPublish = false := by
  have ho := hb.offered
  have hpublished := hs.publish_kept hfree ho
  have hstored : (published s scope revision variant candidate command previous).histories.lookup
      (scope.storageKey, targetId) = some history := by
    rw [(storePublication_coverage s scope _ _ _ _ _).2, hexpanded]
  have hchanged := recordChange_kept now hstored hb.keeps
  obtain ⟨hintents, hcommands, hvariants, hrevisions, hrequests⟩ :=
    recordChange_publications (scope.storageKey, targetId) history.last.target
      (boundTarget history.last.target variant.variantId accountId previous (previous.getD candidate).intentId) now
      (published s scope revision variant candidate command previous)
  rw [← hafter] at hchanged hintents hcommands hvariants hrevisions hrequests
  rw [storePublication_requests] at hrequests
  have hkept := hpublished.trans hchanged
  have hintent : s'.intents.lookup (scope.storageKey, candidate.logicalKey)
      = some (previous.getD candidate) := by
    rw [hintents, ho.intent_after]
  have hretained : ∀ request, s'.requests.lookup (scope.storageKey, (previous.getD candidate).intentId) = some request →
      request.withdrawAfterPublish = false := by
    rw [hrequests]
    exact hb.retained
  refine ⟨hs.extend hkept ?_ ?_ ?_ ?_, hkept, hintent, hretained⟩
  · intro k key intent h
    rw [hintents] at h
    rcases published_intents h with hold | ⟨rfl, rfl, rfl⟩
    · exact .inl ⟨intent, hold, .refl _⟩
    · refine .inr (hs.publish_stored ho hkept hcommands hvariants hrevisions fun hnone => ?_)
      obtain ⟨_, hhistory', hkeeps⟩ := recordChange_last
        (boundTarget history.last.target variant.variantId accountId previous
          (previous.getD candidate).intentId) now hstored
      rw [← hafter] at hhistory'
      subst hnone
      exact .coverage (hb.origin ▸ hb.target) (by rw [hb.origin]; exact hhistory') (hb.bound.kept hkeeps)
  · intro k id found h
    rw [hcommands] at h
    rcases ho.commands_after h with hold | ⟨rfl, -, -, hid', hfoundId⟩
    · exact .inl hold
    · exact .inr ⟨_, _, hintent, hfoundId.trans hb.sameId.symm, by rw [hid', hb.sameId]⟩
  · intro k id request h
    exact .inl (by rw [← hrequests, h])
  · intro k id found h
    rw [hafter] at h
    rcases recordChange_lookup hstored h with hold | ⟨hkey, rfl⟩
    · rw [(storePublication_coverage s scope _ _ _ _ _).2] at hold
      exact ⟨.inl (hs.targets k id found hold).1, (hs.targets k id found hold).2⟩
    · obtain ⟨rfl, rfl⟩ := Prod.mk.inj hkey
      have hnumbered (target : DistributionTarget) :
          KeepsBinding target { target with version := target.version + 1 } :=
        ⟨⟨rfl, rfl, rfl, rfl, rfl, rfl, rfl⟩, fun _ => ⟨rfl, rfl, rfl⟩⟩
      rw [last_push]
      refine ⟨.inr (.inr ⟨_, _, hintent, hb.bound.kept (hnumbered _), hretained⟩), ?_⟩
      exact (hs.targets _ _ _ hexpanded).2.push (hb.keeps.trans (hnumbered _))

omit hfree [UrlParser] in
theorem prepareRequestPublicationIntent_ok
    (h : prepareRequestPublicationIntent scope request variant now = .ok (candidate, command)) :
    ∃ project, scope.projectId = some project ∧ request.scope = scope
      ∧ request.contentRevisionId = variant.contentRevisionId
      ∧ preparePublicationIdentity scope project request.platformId request.placementSlot Uuid.nil
        variant request.accountId false now = (candidate, command) := by
  simp only [prepareRequestPublicationIntent, checkScope, eq_ok_iff, not_or, not_not] at h
  obtain ⟨project, -, _, hproject, _, ⟨hscope, hrevision, -, -⟩, hidentity⟩ := h
  exact ⟨project, hproject, hscope, hrevision, hidentity⟩

omit [Sha256] hfree in
theorem DistributionCall.Requests.renders [Sha256] (h : call.Requests scope request revision now variant) :
    ∃ placement, Renders revision placement variant ∧ placement.platformId = request.platformId
      ∧ placement.placementSlot = request.placementSlot := by
  cases h with
  | text _ _ hvariant => exact ⟨_, prepareVariant_renders hvariant, rfl, rfl⟩
  | rich _ _ hvariant => exact ⟨_, prepareRichVariantAuthorized_renders hvariant, rfl, rfl⟩

omit [Sha256] [UrlParser] hfree in
theorem keepOrigin_requests (hnil : intent.channelTargetId.isNil = true) (s₁ : MemoryDistributionState) :
    (keepOrigin scope request intent s₁).requests
      = insertNew (scope.storageKey, intent.intentId)
        { request with publicationIntentId := some intent.intentId } s₁.requests := by
  unfold keepOrigin keepRequest insertNew
  rw [if_pos hnil]
  split <;> rfl

omit [Sha256] [UrlParser] hfree in
theorem keepOrigin_publications (scope : TenantScope) (request : ContentDistributionRequest)
    (intent : PublicationIntent) (s₁ : MemoryDistributionState) :
    (keepOrigin scope request intent s₁).intents = s₁.intents ∧ (keepOrigin scope request intent s₁).commands
      = s₁.commands ∧ (keepOrigin scope request intent s₁).variants = s₁.variants
      ∧ (keepOrigin scope request intent s₁).revisions = s₁.revisions := by
  unfold keepOrigin keepRequest
  split
  · split <;> exact ⟨rfl, rfl, rfl, rfl⟩
  · exact ⟨rfl, rfl, rfl, rfl⟩

omit hfree in
theorem offered_of_request (hcall : call.Requests scope request revision now variant)
    (h : Originates scope request revision variant now s s' candidate command previous)
    (hused : ∀ text,
      PublicationTexts (publicationParts scope variant request.platformId request.placementSlot request.accountId)
        text → used text) :
    ∃ placement, Offered used s scope revision placement variant candidate command previous ∧ candidate.channelTargetId
      = Uuid.nil ∧ candidate.accountId = request.accountId ∧ request.scope = scope ∧ request.contentRevisionId
      = candidate.contentRevisionId ∧ request.platformId = candidate.platformId ∧ request.placementSlot
      = candidate.placementSlot := by
  obtain ⟨_, hproject, hscope, hrevision, hidentity⟩ := prepareRequestPublicationIntent_ok h.identified
  obtain ⟨placement, hrenders, hplatform, hslot⟩ := hcall.renders
  rw [← hplatform, ← hslot] at hidentity hused
  obtain ⟨ho, htarget, haccount⟩ := offered_of_identity hrenders hidentity hproject h.found hused h.payload
  refine ⟨placement, ho, htarget, haccount, hscope, ?_, ?_, ?_⟩
  · rw [hrevision, hrenders.revisionId, ho.revisionId]
  · rw [← hplatform, ← hrenders.platformId, ho.platformId]
  · rw [← hslot, ← hrenders.placementSlot, ho.placementSlot]

theorem PublicationShape.keepOrigin_kept (hs : PublicationShape used s)
    (ho : Offered used s scope revision placement variant candidate command previous)
    (request : ContentDistributionRequest) {k key : String} (hstored : s.intents.lookup (k, key) = some intent) :
    (keepOrigin scope request (previous.getD candidate)
        (published s scope revision variant candidate command previous)).requests.lookup (k, intent.intentId)
      = s.requests.lookup (k, intent.intentId) := by
  by_cases hnil : (previous.getD candidate).channelTargetId.isNil = true
  · rw [keepOrigin_requests hnil, storePublication_requests, lookup_insertNew]
    split
    · rename_i hkey
      obtain ⟨rfl, hid⟩ := Prod.mk.inj hkey
      have hprevious := hs.previous_of_id hfree ho hstored (hid.trans (hs.current_same hfree ho).2)
      rw [hprevious, getD_some] at hnil ⊢
      -- The stored intent came from a request, which is still there.
      cases (hs.intents _ _ _ hstored).origin with
      | coverage htarget => rw [hnil] at htarget; simp at htarget
      | request _ hrequest => rw [hrequest, getD_some]
    · rfl
  · unfold keepOrigin
    rw [if_neg hnil, storePublication_requests]

theorem PublicationShape.originate (hs : PublicationShape used s)
    (hcall : call.Requests scope request revision now variant)
    (h : Originates scope request revision variant now s s' candidate command previous)
    (hused : ∀ text,
      PublicationTexts (publicationParts scope variant request.platformId request.placementSlot request.accountId)
        text → used text) :
    PublicationShape used s' ∧ PublicationsKept s s'
      ∧ s'.intents.lookup (scope.storageKey, candidate.logicalKey) = some (previous.getD candidate)
      ∧ withdrawsAfterPublish s' scope (previous.getD candidate).intentId = request.withdrawAfterPublish := by
  obtain ⟨_, ho, htarget, haccount, hscope, hrevision, hplatform, hslot⟩ := offered_of_request hcall h hused
  have hpublished := hs.publish_kept hfree ho
  have hsameId := (hs.current_same hfree ho).2
  obtain ⟨hintents, hcommands, hvariants, hrevisions⟩ :=
    keepOrigin_publications scope request (previous.getD candidate)
      (published s scope revision variant candidate command previous)
  have hhistories : s'.histories = s.histories := by
    rw [h.after, (keepOrigin_coverage _ _ _ _).2, (storePublication_coverage _ _ _ _ _ _ _).2]
  have horigins {k key : String} {intent : PublicationIntent} (hstored : s.intents.lookup (k, key) = some intent) :
      s'.requests.lookup (k, intent.intentId) = s.requests.lookup (k, intent.intentId) := by
    rw [h.after]
    exact hs.keepOrigin_kept hfree ho request hstored
  rw [← h.after] at hintents hcommands hvariants hrevisions
  have hkept : PublicationsKept s s' :=
    { intents := fun key intent hi => by rw [hintents]; exact hpublished.intents key intent hi
      variants := fun key v hv => by rw [hvariants]; exact hpublished.variants key v hv
      revisions := fun key r hr => by rw [hrevisions]; exact hpublished.revisions key r hr
      commands := fun key c hc => by rw [hcommands]; exact hpublished.commands key c hc
      origins := fun k key intent hi => horigins hi
      targets := fun key history hh => ⟨history, by rw [hhistories, hh], .refl _⟩ }
  have hintent : s'.intents.lookup (scope.storageKey, candidate.logicalKey) = some (previous.getD candidate) := by
    rw [hintents, ho.intent_after]
  -- A new publication gets the request as its origin.
  have hnew (hnone : previous = none) :
      s'.requests.lookup (scope.storageKey, candidate.intentId)
        = some { request with publicationIntentId := some candidate.intentId } := by
    subst hnone
    have hnil : candidate.channelTargetId.isNil = true := by
      rw [htarget]
      rfl
    rw [h.after, getD_none, keepOrigin_requests hnil, storePublication_requests,
      lookup_insertNew, if_pos rfl, hs.no_request hfree ho]
    rfl
  refine ⟨hs.extend hkept ?_ ?_ ?_ ?_, hkept, hintent, ?_⟩
  · intro k key intent hi
    rw [hintents] at hi
    rcases published_intents hi with hold | ⟨rfl, rfl, rfl⟩
    · exact .inl ⟨intent, hold, .refl _⟩
    · refine .inr (hs.publish_stored ho hkept hcommands hvariants hrevisions fun hnone => ?_)
      refine .request htarget (hnew hnone) rfl ?_ hrevision haccount.symm hplatform hslot
      rw [show request.scope.projectId = scope.projectId by rw [hscope], ho.project]
  · intro k id found hc
    rw [hcommands] at hc
    rcases ho.commands_after hc with hold | ⟨rfl, -, -, hid', hfoundId⟩
    · exact .inl hold
    · exact .inr ⟨_, _, hintent, hfoundId.trans hsameId.symm, by rw [hid', hsameId]⟩
  · intro k id found hr
    by_cases hnil : (previous.getD candidate).channelTargetId.isNil = true
    · rw [h.after, keepOrigin_requests hnil, storePublication_requests, lookup_insertNew] at hr
      split at hr
      · rename_i hkey
        obtain ⟨rfl, rfl⟩ := Prod.mk.inj hkey
        exact .inr ⟨_, _, hintent, rfl, by simpa [Uuid.isNil] using hnil⟩
      · exact .inl hr
    · rw [h.after, keepOrigin, if_neg hnil, storePublication_requests] at hr
      exact .inl hr
  · intro k id history hh
    rw [hhistories] at hh
    exact ⟨.inl (hs.targets k id history hh).1, (hs.targets k id history hh).2⟩
  · cases hprevious : previous with
    | some prior =>
      have hstored := ho.found.trans hprevious
      rw [← h.policy prior hprevious, getD_some, withdrawsAfterPublish, withdrawsAfterPublish, horigins hstored]
    | none => rw [getD_none, withdrawsAfterPublish, hnew hprevious, any_some]

omit hfree in
/-- A verification changes nothing else. -/
theorem PublicationShape.verify (hs : PublicationShape used s) {k key : String} {verification : IntentVerification}
    {evidenceId : Uuid} (hstored : s.intents.lookup (k, key) = some intent) (hresolved : verification ≠ .unverified)
    (hverified : intent.verification = .verified → verification ≠ .unknown) :
    PublicationShape used (s.insertIntent (k, key)
        { intent with verification, verificationEvidenceId := some evidenceId })
      ∧ PublicationsKept s (s.insertIntent (k, key)
        { intent with verification, verificationEvidenceId := some evidenceId }) := by
  have hsame : SamePublication intent { intent with verification, verificationEvidenceId := some evidenceId } := by
    refine ⟨rfl, fun h => ?_⟩
    have hknown := hverified h
    cases verification with
    | unverified => exact absurd rfl hresolved
    | unknown => exact absurd rfl hknown
    | verified => rfl
  have hkept : PublicationsKept s (s.insertIntent (k, key)
      { intent with verification, verificationEvidenceId := some evidenceId }) := by
    refine ⟨fun key' old hold => ?_, fun _ _ h => h, fun _ _ h => h, fun _ _ h => h,
      fun _ _ _ _ => rfl, fun _ history h => ⟨history, h, .refl _⟩⟩
    rw [insertIntent, lookup_insert]
    split
    · rename_i hkey
      rw [hkey, hstored] at hold
      obtain rfl := some.inj hold
      exact ⟨_, rfl, hsame⟩
    · exact ⟨old, hold, .refl _⟩
  refine ⟨hs.extend hkept ?_ (fun _ _ _ h => .inl h) (fun _ _ _ h => .inl h) fun k' id history h =>
    ⟨.inl (hs.targets k' id history h).1, (hs.targets k' id history h).2⟩, hkept⟩
  intro k' key' found hfound
  rw [insertIntent, lookup_insert] at hfound
  split at hfound
  · rename_i hkey
    rw [hkey]
    obtain rfl := some.inj hfound
    exact .inl ⟨intent, hstored, hsame⟩
  · exact .inl ⟨found, hfound, .refl _⟩

theorem PublicationShape.expand (hc : CoverageShape used s) (hs : PublicationShape used s) {id : Uuid}
    {rows : List DistributionTarget} {clock : Nat → DateTime} {expanded : DistributionManifest}
    (hstored : s.manifests.lookup (scope.storageKey, id) = some manifest)
    (hroster : matchesRoster manifest manifest.expansionCursor rows = true) :
    PublicationShape used ((recordRows scope clock 0 rows s).insertManifest (scope.storageKey, id) expanded)
      ∧ PublicationsKept s ((recordRows scope clock 0 rows s).insertManifest (scope.storageKey, id) expanded) := by
  have hnodup := rows_nodup hfree (hc.manifests _ _ _ hstored) hroster
  have hnew : ∀ row ∈ rows, s.histories.lookup (scope.storageKey, row.targetId) = none := by
    intro row hrow
    obtain ⟨_, hi⟩ := List.getElem?_of_mem hrow
    exact hc.no_history hfree hstored (Nat.le_add_right _ _) (cell_of_matchesRoster hroster hi)
  obtain ⟨hintents, hcommands, hvariants, hrevisions, hrequests⟩ := recordRows_publications scope s clock 0 rows
  refine hs.quiet (hintents ▸ .refl _) (hcommands ▸ .refl _) hvariants hrevisions hrequests
    (fun key history h => ⟨history, ?_, .refl _⟩) fun k targetId history h => ?_
  · refine (recordRows_other _ _ _ _ _ fun row hrow hkey => ?_).trans h
    rw [← hkey, hnew row hrow] at h
    simp at h
  · by_cases hrow : ∃ row ∈ rows, (scope.storageKey, row.targetId) = (k, targetId)
    · obtain ⟨row, hrow, hkey⟩ := hrow
      obtain ⟨rfl, rfl⟩ := Prod.mk.inj hkey
      obtain ⟨_, hstart⟩ := recordRows_new s scope clock 0 rows hnodup hnew hrow
      have hhistory := hstart.symm.trans h
      obtain rfl := some.inj hhistory
      obtain ⟨_, hi⟩ := List.getElem?_of_mem hrow
      obtain ⟨_, _, -, hcell⟩ := distributionCell_eq_some.mp (cell_of_matchesRoster hroster hi)
      rw [last_start, hcell]
      exact ⟨.inl ⟨rfl, rfl, rfl⟩, .start⟩
    · have hold : s.histories.lookup (k, targetId) = some history := by
        rw [← h]
        exact (recordRows_other _ _ _ _ _ fun row hmem hkey => hrow ⟨row, hmem, hkey⟩).symm
      exact hs.targets k targetId history hold

theorem PublicationShape.step [InstantJson] (hc : CoverageShape used s) (hs : PublicationShape used s)
    {e : DistributionEvent} (h : (distributionMachine.restrict (DigestsOnly used)).step s e s') :
    PublicationShape used s' ∧ PublicationsKept s s' := by
  rcases step_distributionEffect h with ⟨-, hreordered⟩ | ⟨call, err, -, rfl⟩ | ⟨call, reply, -, heffect⟩
  · have hrest := hreordered.rest
    refine hs.quiet hreordered.intents hreordered.commands (by rw [hrest]) (by rw [hrest])
      (by rw [hrest]) (fun key history hh => ⟨history, ?_, .refl _⟩) fun k id history hh => ?_
    · rw [← hreordered.histories.lookup_eq, hh]
    · exact hs.targets k id history (by rw [hreordered.histories.lookup_eq, hh])
  · exact ⟨hs, .refl _⟩
  · cases heffect with
    | stored => exact ⟨hs, .refl _⟩
    | frozen =>
      exact hs.quiet (.refl _) (.refl _) rfl rfl rfl (fun _ history hh => ⟨history, hh, .refl _⟩)
        fun k id history hh => hs.targets k id history hh
    | expanded hstored _ _ hroster => exact hs.expand hfree hc hstored hroster
    | putOff _ hfound => exact hs.putOff hfound.expanded
    | bound _ hfound _ _ _ hbinds _ hused =>
      have hb := hs.bindsPublication hfree hc hfound hbinds hused
      obtain ⟨hs', hkept, -, -⟩ := hs.bind hfree hb hfound.expanded hbinds.after
      exact ⟨hs', hkept⟩
    | originated hcall horiginates hused =>
      obtain ⟨hs', hkept, -, -⟩ := hs.originate hfree hcall horiginates hused
      exact ⟨hs', hkept⟩
    | verified hstored _ hresolved hverified => exact hs.verify hstored hresolved hverified

theorem publicationShape_run [InstantJson] {events : List DistributionEvent}
    (h : (distributionMachine.restrict (DigestsOnly used)).Run .empty events s) :
    CoverageShape used s ∧ PublicationShape used s :=
  h.invariant (I := fun s => CoverageShape used s ∧ PublicationShape used s)
    (fun _ _ _ hs hstep => ⟨hs.1.step hfree hstep, (hs.2.step hfree hs.1 hstep).1⟩) ⟨.empty, .empty⟩

end Steps

end GeoMaster
