import GeoMaster.Proofs.PublicationSteps

/-!
# One outbox command for each publication

A logical publication has one intent and one command, whichever of a coverage target and a request came first
and however often either is materialized again. What a reader needs to send it is there from then on and stays
as it was, and only publications with one withdrawal policy share an intent.
-/

namespace GeoMaster

open Except Option AList

open MemoryDistributionRepository

section Ledger

variable [Sha256] [UrlParser] {used : List String → Prop} {s s' : MemoryDistributionState}
  {scope : TenantScope} (hfree : CollisionFree used)

/-! ### Reading a publication back -/

variable {intent : PublicationIntent}

variable {key : String} {command : PublicationCommand} {revision : ContentRevision} {variant : ChannelVariant}
  {withdraws : Bool} {events : List DistributionEvent}

include hfree in
theorem PublicationShape.findIntent_eq (hs : PublicationShape used s)
    (hstored : s.intents.lookup (scope.storageKey, key) = some intent) :
    findIntent s scope intent.intentId = some ⟨(scope.storageKey, key), intent⟩ := by
  have hsome : (findIntent s scope intent.intentId).isSome := by
    unfold findIntent
    rw [List.find?_isSome]
    exact ⟨⟨(scope.storageKey, key), intent⟩, mem_lookup_iff.mp hstored, by simp⟩
  obtain ⟨⟨⟨k, _⟩, _⟩, hfound⟩ := isSome_iff_exists.mp hsome
  obtain ⟨hlookup, hk, hid⟩ := findIntent_eq_some hfound
  obtain rfl : k = scope.storageKey := hk
  obtain ⟨rfl, rfl⟩ := hs.intent_unique hfree hlookup hstored hid
  exact hfound

theorem PublicationShape.findCommand_eq (hs : PublicationShape used s) (hcommand : command.intentId = intent.intentId)
    (hstored : s.commands.lookup (scope.storageKey, publishCommandId intent.intentId) = some command) :
    findCommand s scope intent.intentId = some command := by
  have hsome : (s.commands.entries.find? fun e =>
      e.1.1 = scope.storageKey ∧ e.2.intentId = intent.intentId).isSome := by
    rw [List.find?_isSome]
    exact ⟨⟨(scope.storageKey, publishCommandId intent.intentId), command⟩,
      mem_lookup_iff.mp hstored, by simp [hcommand]⟩
  obtain ⟨⟨⟨k, _⟩, _⟩, hfound⟩ := isSome_iff_exists.mp hsome
  have hlookup := mem_lookup_iff.mpr (List.mem_of_find?_eq_some hfound)
  have htest := List.find?_some hfound
  simp only [decide_eq_true_eq] at htest
  obtain rfl : k = scope.storageKey := htest.1
  have hid := hs.command_unique hlookup
  rw [htest.2] at hid
  rw [hid, hstored] at hlookup
  rw [findCommand, hfound, map_some, some.inj hlookup]

theorem StoredIntent.outbox (h : StoredIntent used s scope.storageKey key intent) :
    ∃ command, s.commands.lookup (scope.storageKey, publishCommandId intent.intentId) = some command ∧ command.intentId
      = intent.intentId ∧ command.targetId = intent.channelTargetId ∧ command.payloadHash = intent.payloadHash := by
  obtain ⟨_, hcommand⟩ := h.command
  exact ⟨_, hcommand, rfl, rfl, rfl⟩

theorem Originated.origin_eq (hc : CoverageShape used s)
    {placement : PlatformPlacement} (h : Originated s scope.storageKey intent)
    (htarget : command.targetId = intent.channelTargetId)
    (hcarries : Carries s scope.storageKey intent revision placement variant) :
    ∃ origin, publicationOrigin s scope intent command = .ok origin
      ∧ PublicationBundle.expectedTarget { revision, variant, intent, origin, command }
        = .ok intent.channelTargetId := by
  cases h with
  | @coverage history hcell hhistory hbound =>
    refine ⟨.coverageTarget history.last.target, ?_, ?_⟩
    · rw [publicationOrigin, htarget, hcell, if_neg (by simp), bind_eq_ok]
      exact ⟨history, okOr_eq_ok.mpr hhistory, rfl⟩
    · have hstored := hc.histories _ _ _ hhistory
      have htargetId : history.last.target.targetId = intent.channelTargetId := by
        rw [(hstored.sameCell history.last_mem).targetId, hstored.keyed]
      simp only [PublicationBundle.expectedTarget, eq_ok_iff, not_not]
      refine ⟨(), ⟨hbound.intentId, ?_, ?_, hbound.accountId⟩, htargetId⟩
      · rw [hbound.variantId, hcarries.variantId]
      · rw [hbound.contentRevisionId, hcarries.revisionId]
  | @request request hnil hrequest hlinked hscope hrevision haccount hplatform hslot =>
    refine ⟨.contentRequest request, ?_, ?_⟩
    · have hisNil : command.targetId.isNil = true := by
        rw [htarget, hnil]
        rfl
      rw [publicationOrigin, if_pos hisNil, bind_eq_ok]
      exact ⟨request, okOr_eq_ok.mpr hrequest, rfl⟩
    · simp only [PublicationBundle.expectedTarget, eq_ok_iff, not_not]
      refine ⟨(), ⟨hlinked, hscope, ?_, haccount, ?_, ?_⟩, hnil.symm⟩
      · rw [hrevision, hcarries.revisionId]
      · rw [hplatform, hcarries.platformId]
      · rw [hslot, hcarries.placementSlot]

include hfree in
/-- A stored publication is read back with everything that is needed to send it. -/
theorem PublicationShape.bundle (hc : CoverageShape used s) (hs : PublicationShape used s)
    (hstored : s.intents.lookup (scope.storageKey, key) = some intent) :
    ∃ bundle, getPublicationBundle s scope intent.intentId = .ok bundle ∧ bundle.intent = intent := by
  have hshape := hs.intents _ _ _ hstored
  obtain ⟨command, hcommand, hid, htarget, hpayload⟩ := hshape.outbox
  obtain ⟨revision, _, variant, hcarries⟩ := hshape.payload
  have hfound := hs.findIntent_eq hfree hstored
  have hfoundCommand := hs.findCommand_eq hid hcommand
  obtain ⟨origin, horigin, hexpected⟩ := hshape.origin.origin_eq hc htarget hcarries
  refine ⟨{ revision, variant, intent, origin, command }, ?_, rfl⟩
  simp only [getPublicationBundle, eq_ok_iff]
  refine ⟨_, hfound, variant, hcarries.variantStored, revision, hcarries.revisionStored, command,
    hfoundCommand, origin, horigin, (), ?_, rfl⟩
  simp only [PublicationBundle.validateOrigin, eq_ok_iff]
  refine ⟨(), hcarries.renders.valid intent origin command, intent.channelTargetId, hexpected, ?_⟩
  simp [hid, htarget, hpayload, hcarries.payloadHash, hcarries.variantId, hcarries.platformId, hcarries.placementSlot]

/-! ### Publishing -/

/-- The request a call materializes. -/
def DistributionCall.request : DistributionCall → Option (TenantScope × ContentDistributionRequest)
  | .materializeRequestOrigin scope request _ _ => some (scope, request)
  | .materializeRichRequestOrigin scope request _ _ _ => some (scope, request)
  | _ => none

theorem DistributionCall.Requests.request_eq {call : DistributionCall}
    {request : ContentDistributionRequest} {now : DateTime} (h : call.Requests scope request revision now variant) :
    call.request = some (scope, request) := by
  cases h <;> rfl

/-- A step answered with the intent to publish under. Coverage is never withdrawn afterwards, a request says
whether it is. -/
inductive DistributionEvent.Publishes (scope : TenantScope) (intent : PublicationIntent) :
    DistributionEvent → Bool → Prop where
  | coverage {call : DistributionCall} {prepared : PreparedDistribution} {bindings : List ContentMediaBinding}
      {clock : MaterializeClock} {materialized : MaterializedDistribution}
      (hcall : call.coverage = some (scope, prepared, bindings, clock)) (hready : prepared.deferReason = none)
      (hintent : materialized.intent = some intent) :
      Publishes scope intent (.call call (.ok (.materialized materialized))) false
  | request {call : DistributionCall} {request : ContentDistributionRequest}
      (hcall : call.request = some (scope, request)) :
      Publishes scope intent (.call call (.ok (.intent intent))) request.withdrawAfterPublish

/-- An intent is stored, as it was returned but for its verification, with a withdrawal policy. -/
def Filed (s : MemoryDistributionState) (scope : TenantScope) (intent : PublicationIntent) (withdraws : Bool) : Prop :=
  ∃ key stored, s.intents.lookup (scope.storageKey, key) = some stored ∧ SamePublication intent stored
    ∧ withdrawsAfterPublish s scope stored.intentId = withdraws

omit [Sha256] [UrlParser] in
theorem Filed.kept (h : Filed s scope intent withdraws) (hkept : PublicationsKept s s') :
    Filed s' scope intent withdraws := by
  obtain ⟨key, _, hstored, hsame, hwithdraws⟩ := h
  obtain ⟨stored', hstored', hsame'⟩ := hkept.intents _ _ hstored
  refine ⟨key, stored', hstored', hsame.trans hsame', ?_⟩
  rw [hsame'.intentId, withdrawsAfterPublish, hkept.origins _ _ _ hstored]
  exact hwithdraws

include hfree in
/-- What a step publishes is filed. -/
theorem PublicationShape.files [InstantJson] (hc : CoverageShape used s) (hs : PublicationShape used s)
    {e : DistributionEvent} (h : (distributionMachine.restrict (DigestsOnly used)).step s e s')
    (hpublishes : DistributionEvent.Publishes scope intent e withdraws) : Filed s' scope intent withdraws := by
  rcases step_distributionEffect h with ⟨rfl, -⟩ | ⟨call, err, rfl, rfl⟩ | ⟨call, reply, rfl, heffect⟩
  · cases hpublishes
  · cases hpublishes
  · cases hpublishes with
    | coverage hcall hready hintent =>
      cases heffect with
      | putOff hcall' _ hidle =>
        rw [hcall] at hcall'
        obtain ⟨rfl, rfl, rfl, rfl⟩ : _ ∧ _ ∧ _ ∧ _ := by simpa using hcall'
        rcases hidle with hdeferred | ⟨-, hnone⟩
        · rw [hready] at hdeferred
          simp at hdeferred
        · rw [hnone] at hintent
          simp at hintent
      | bound hcall' hfound _ _ _ hbinds hreply hused =>
        rw [hcall] at hcall'
        obtain ⟨rfl, rfl, rfl, rfl⟩ : _ ∧ _ ∧ _ ∧ _ := by simpa using hcall'
        rw [hreply] at hintent
        obtain rfl := some.inj hintent
        have hb := hs.bindsPublication hfree hc hfound hbinds hused
        obtain ⟨-, -, hstored, hretained⟩ := hs.bind hfree hb hfound.expanded hbinds.after
        refine ⟨_, _, hstored, .refl _, ?_⟩
        rw [withdrawsAfterPublish, any_eq_false]
        intro request hrequest
        rw [hretained request hrequest]
    | request hcall =>
      cases heffect with
      | originated hcall' horiginates hused =>
        rw [hcall'.request_eq] at hcall
        obtain ⟨rfl, rfl⟩ := Prod.mk.inj (some.inj hcall)
        obtain ⟨-, -, hstored, hwithdraws⟩ := hs.originate hfree hcall' horiginates hused
        exact ⟨_, _, hstored, .refl _, hwithdraws⟩
      | verified => simp [DistributionCall.request] at hcall

include hfree in
theorem PublicationShape.kept_run [InstantJson] (hc : CoverageShape used s) (hs : PublicationShape used s)
    (h : (distributionMachine.restrict (DigestsOnly used)).Run s events s') : PublicationsKept s s' :=
  h.relates (I := fun s => CoverageShape used s ∧ PublicationShape used s) (R := PublicationsKept)
    (fun _ _ _ hs hstep => ⟨hs.1.step hfree hstep, (hs.2.step hfree hs.1 hstep).1⟩) .refl
    (fun _ _ _ => .trans) (fun _ _ _ hs hstep => (hs.2.step hfree hs.1 hstep).2) ⟨hc, hs⟩

include hfree in
theorem filed_run [InstantJson] (hrun : (distributionMachine.restrict (DigestsOnly used)).Run .empty events s) :
    ∀ e ∈ events, ∀ scope intent withdraws,
      DistributionEvent.Publishes scope intent e withdraws → Filed s scope intent withdraws := by
  have hshape := publicationShape_run hfree hrun
  revert hshape
  induction hrun with
  | refl => simp
  | @tail _ _ _ _ hbefore hstep ih =>
    intro _ e' he' scope intent withdraws hpublishes
    obtain ⟨hc, hs⟩ := publicationShape_run hfree hbefore
    rcases List.mem_append.mp he' with hold | hnew
    · exact (ih ⟨hc, hs⟩ e' hold scope intent withdraws hpublishes).kept (hs.step hfree hc hstep).2
    · obtain rfl := List.mem_singleton.mp hnew
      exact hs.files hfree hc hstep hpublishes

include hfree in
/-- One outbox command for each logical publication, in every run: an intent is known by what it publishes
and by its identity, it has one command and can be read back with its payload; nothing that was stored is
changed later; and whatever was published under one intent publishes the same thing under one policy. -/
theorem publicationLedger_once [InstantJson] {events : List DistributionEvent}
    (hrun : (distributionMachine.restrict (DigestsOnly used)).Run .empty events s) :
    (∀ scope : TenantScope, ∀ key intent, s.intents.lookup (scope.storageKey, key) = some intent →
      (∀ key' intent', s.intents.lookup (scope.storageKey, key') = some intent' →
          SamePayload intent intent' ∨ intent'.intentId = intent.intentId →
          key' = key ∧ intent' = intent)
        ∧ (∃! id, ∃ command, s.commands.lookup (scope.storageKey, id) = some command
          ∧ command.intentId = intent.intentId)
        ∧ ∃ bundle, getPublicationBundle s scope intent.intentId = .ok bundle ∧ bundle.intent = intent)
      ∧ (∀ k id command, s.commands.lookup (k, id) = some command →
        ∃ key intent, s.intents.lookup (k, key) = some intent ∧ command.intentId = intent.intentId)
      ∧ (∀ later s', (distributionMachine.restrict (DigestsOnly used)).Run s later s' →
        PublicationsKept s s'
          ∧ ∀ key request, s.requests.lookup key = some request → s'.requests.lookup key = some request)
      ∧ (∀ e ∈ events, ∀ scope intent withdraws, DistributionEvent.Publishes scope intent e withdraws →
        ∃ key stored, s.intents.lookup (scope.storageKey, key) = some stored ∧ SamePublication intent stored)
      ∧ ∀ e ∈ events, ∀ e' ∈ events, ∀ scope intent intent' withdraws withdraws',
        DistributionEvent.Publishes scope intent e withdraws →
        DistributionEvent.Publishes scope intent' e' withdraws' →
        (SamePayload intent intent' ↔ intent'.intentId = intent.intentId)
          ∧ (intent'.intentId = intent.intentId → withdraws' = withdraws) := by
  obtain ⟨hc, hs⟩ := publicationShape_run hfree hrun
  have hfiled := filed_run hfree hrun
  refine ⟨?intents, ?commands, ?kept, ?filed, ?policy⟩
  case intents =>
    intro scope key intent hstored
    refine ⟨fun key' intent' hstored' hor => ?_, ?_, hs.bundle hfree hc hstored⟩
    · rcases hor with hpayload | hid
      · exact hs.payload_unique hstored hstored' hpayload
      · exact hs.intent_unique hfree hstored' hstored hid
    · obtain ⟨command, hcommand, hid, -, -⟩ := (hs.intents _ _ _ hstored).outbox
      refine ⟨_, ⟨command, hcommand, hid⟩, ?_⟩
      rintro id ⟨command', hcommand', hid'⟩
      rw [hs.command_unique hcommand', hid']
  case commands =>
    intro k id command hcommand
    obtain ⟨key, intent, hstored, hid, -⟩ := hs.commands _ _ _ hcommand
    exact ⟨key, intent, hstored, hid⟩
  case kept =>
    intro later s' hlater
    have hkept := hs.kept_run hfree hc hlater
    refine ⟨hkept, ?_⟩
    rintro ⟨k, id⟩ request hrequest
    obtain ⟨_, _, hstored, rfl, -⟩ := hs.requests _ _ _ hrequest
    rw [hkept.origins _ _ _ hstored, hrequest]
  case filed =>
    intro e he scope intent withdraws hpublishes
    obtain ⟨key, stored, hstored, hpublication, -⟩ := hfiled e he scope intent withdraws hpublishes
    exact ⟨key, stored, hstored, hpublication⟩
  case policy =>
    intro e he e' he' scope intent intent' withdraws withdraws' hpublishes hpublishes'
    obtain ⟨_, stored, hstored, hpublication, rfl⟩ := hfiled e he _ _ _ hpublishes
    obtain ⟨_, stored', hstored', hpublication', rfl⟩ := hfiled e' he' _ _ _ hpublishes'
    -- Both sides say that the two are one stored intent.
    have hone (hid : intent'.intentId = intent.intentId) : stored' = stored := by
      rw [← hpublication.intentId, ← hpublication'.intentId] at hid
      exact (hs.intent_unique hfree hstored' hstored hid).2
    refine ⟨⟨fun hpayload => ?_, fun hid => ?_⟩, fun hid => by rw [hone hid]⟩
    · have hpayload' : SamePayload stored stored' :=
        hpublication.payload.symm.trans (hpayload.trans hpublication'.payload)
      obtain ⟨-, rfl⟩ := hs.payload_unique hstored hstored' hpayload'
      rw [← hpublication.intentId, ← hpublication'.intentId]
    · have hpayload' := hpublication'.payload
      rw [hone hid] at hpayload'
      exact hpublication.payload.trans hpayload'.symm

end Ledger

namespace Sample

/-- The article is requested. -/
def articleRequested : List DistributionCall :=
  [.materializeRequestOrigin scope (articleRequest (uuid 50) false) articleRevision 7]

theorem articleRequested_allowed :
    Calls.Allowed runSecure (@DigestsOnly secureHash noLinks freezeInstant (· ∈ articleTexts)) .empty
      articleRequested := by
  refine ⟨fun text htext => ?_, trivial⟩
  cases htext with
  | request hvariant htext => exact mem_articleTexts _ rfl hvariant htext

theorem articleTexts_free : @CollisionFree secureHash (· ∈ articleTexts) :=
  @collisionFree_of_nodup secureHash _ (by decide +kernel)

end Sample

open Sample

theorem publicationLedger_once_sample :
    ∃ intent bundle,
      @getPublicationBundle secureHash noLinks
        (Calls.after runSecure .empty articleRequested) scope intent
        = .ok bundle ∧ bundle.intent.accountId = uuid 40 := by
  have hrun := runSecure_allowed articleRequested .empty articleRequested_allowed
  let key := @digest secureHash
    (publicationParts scope (articleVariant.get articleVariant_isSome) "zhihu"
      "article" (uuid 40))
  have hpublished :
      ((Calls.after runSecure .empty articleRequested).intents.lookup
        (scope.storageKey, key)).map PublicationIntent.accountId = some (uuid 40) := by
    decide +kernel
  obtain ⟨intent, hlookup, haccount⟩ := map_eq_some_iff.mp hpublished
  obtain ⟨-, -, bundle, hbundle, hintent⟩ :=
    (@publicationLedger_once secureHash noLinks _ _ articleTexts_free
      freezeInstant _ hrun).1 _ _ _ hlookup
  exact ⟨intent.intentId, bundle, hbundle, by rw [hintent, haccount]⟩

end GeoMaster
