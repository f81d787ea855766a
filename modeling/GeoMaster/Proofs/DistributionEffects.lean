import GeoMaster.Proofs.DistributionSteps

/-!
# One step of the distribution repository

A failing call changes nothing. A call that returns answers from what is stored, freezes a manifest, expands
one, puts a target off, binds a target to a publication, originates a publication for a request, or records a
verification. `DistributionEffect` lists these with everything each one checked.
-/

namespace GeoMaster

open MemoryDistributionRepository

namespace MemoryDistributionRepository

/-! ### Failing calls -/

theorem reply_atomic {α : Type} {f : α → DistributionReply} {x : DistributionOp α}
    (hx : x.Atomic) : (reply f x).Atomic :=
  hx.bind_total fun _ => .pure

theorem changeTarget_total (key : String × Uuid) (old next : DistributionTarget) (now : DateTime) :
    (changeTarget key old next now).Total := by
  unfold changeTarget
  split
  · exact .pure
  · exact .bind .modify fun _ => .pure

theorem deferTarget_atomic (scope : TenantScope) (key : String × Uuid) (old : DistributionTarget)
    (reason : DistributionDeferralReason) (now : DateTime) : (deferTarget scope key old reason now).Atomic :=
  (Op.Total.bind (changeTarget_total ..) fun _ => .bind .read fun _ => .pure).atomic

theorem unassignTarget_atomic (key : String × Uuid) (old : DistributionTarget) (now : DateTime) :
    (unassignTarget key old now).Atomic :=
  .bind .failIf fun _ => (Op.Total.bind (changeTarget_total ..) fun _ => .pure).atomic

variable [Sha256]

theorem freeze_atomic [InstantJson] (scope : TenantScope) (input : FreezeDistribution)
    (now : DateTime) : (freeze scope input now).Atomic := by
  refine .bind .lift fun manifest => .bind .read fun old => ?_
  cases old with
  | some old => exact .bind .failIf fun _ => Op.ReadOnly.pure.atomic
  | none => exact (Op.Total.bind .modify fun _ => .pure).atomic

theorem commitExpansionPage_atomic (scope : TenantScope) (id : Uuid) (cursor : Nat) (rows : List DistributionTarget)
    (clock : Nat → DateTime) : (commitExpansionPage scope id cursor rows clock).Atomic := by
  refine .bind .failIf fun _ => .bind .read fun s => .bind .lift fun manifest =>
    .bind .failIf fun _ => .bind .failIf fun _ => ?_
  split
  · exact .bind .failIf fun _ => Op.ReadOnly.pure.atomic
  · exact (Op.Total.bind .modify fun _ => .pure).atomic

theorem materializePreparedRequest_atomic (scope : TenantScope)
    (request : ContentDistributionRequest) (revision : ContentRevision) (variant : ChannelVariant)
    (now : DateTime) : (materializePreparedRequest scope request revision variant now).Atomic :=
  .bind .lift fun _ => .bind .read fun _ => .bind .failIf fun _ => .bind .failIf fun _ =>
    .bind .failIf fun _ => (Op.Total.bind .modify fun _ => .bind .modify fun _ => .pure).atomic

omit [Sha256] in
theorem recordIntentVerification_atomic (scope : TenantScope) (intentId : Uuid) (verification : IntentVerification)
    (evidenceId : Uuid) : (recordIntentVerification scope intentId verification evidenceId).Atomic :=
  .bind .failIf fun _ => .bind .read fun _ => .bind .okOr fun _ => .bind .lift fun _ =>
    .bind .failIf fun _ => (Op.Total.bind .modify fun _ => .pure).atomic

variable [UrlParser]

theorem bindTarget_atomic (scope : TenantScope) (key : String × Uuid) (manifest : DistributionManifest)
    (placement : PlatformPlacement) (old : DistributionTarget) (prepared : Option ContentRevision) (accountId : Uuid)
    (bindings : List ContentMediaBinding) (clock : MaterializeClock) :
    (bindTarget scope key manifest placement old prepared accountId bindings clock).Atomic :=
  .bind .okOr fun _ => .bind .failIf fun _ => .bind .lift fun _ => .bind .read fun _ =>
    .bind .failIf fun _ => .bind .failIf fun _ => .bind .failIf fun _ =>
      (Op.Total.bind .modify fun _ => .bind (changeTarget_total ..) fun _ => .pure).atomic

theorem materializeRich_atomic (scope : TenantScope) (prepared : PreparedDistribution)
    (bindings : List ContentMediaBinding) (clock : MaterializeClock) :
    (materializeRich scope prepared bindings clock).Atomic := by
  refine .bind .read fun s => .bind .lift fun manifest => .bind .okOr fun history =>
    .bind .failIf fun _ => .bind .failIf fun _ => .bind .okOr fun placement => ?_
  cases prepared.deferReason with
  | some reason => exact deferTarget_atomic ..
  | none =>
    refine .bind .failIf fun _ => ?_
    cases prepared.accountId with
    | none => exact unassignTarget_atomic ..
    | some accountId => exact bindTarget_atomic ..

theorem run_atomic [InstantJson] (call : DistributionCall) : (run call).Atomic := by
  cases call with
  | freeze => exact reply_atomic (freeze_atomic ..)
  | commitExpansionPage => exact reply_atomic (commitExpansionPage_atomic ..)
  | materialize => exact reply_atomic (.bind .failIf fun _ => materializeRich_atomic ..)
  | materializeRich => exact reply_atomic (materializeRich_atomic ..)
  | materializeRequestOrigin =>
    exact reply_atomic
      (.bind .failIf fun _ => .bind .failIf fun _ => .bind .lift fun _ => materializePreparedRequest_atomic ..)
  | materializeRichRequestOrigin =>
    exact reply_atomic (.bind .failIf fun _ => .bind .lift fun _ => materializePreparedRequest_atomic ..)
  | recordIntentVerification => exact reply_atomic (recordIntentVerification_atomic ..)

end MemoryDistributionRepository

/-! ### Effects -/

/-- The coverage materialization a call is. -/
def DistributionCall.coverage : DistributionCall →
    Option (TenantScope × PreparedDistribution × List ContentMediaBinding × MaterializeClock)
  | .materialize scope prepared clock => some (scope, prepared, [], clock)
  | .materializeRich scope prepared bindings clock => some (scope, prepared, bindings, clock)
  | _ => none

section

variable [Sha256] [UrlParser]

/-- The call materializes an eligible request through a variant of its revision. -/
inductive DistributionCall.Requests : DistributionCall → TenantScope → ContentDistributionRequest →
    ContentRevision → DateTime → ChannelVariant → Prop where
  | text {scope : TenantScope} {request : ContentDistributionRequest} {revision : ContentRevision} {now : DateTime}
      {variant : ChannelVariant} (heligible : eligible scope request revision = true)
      (hformat : request.format = textDistributionFormat)
      (hvariant :
        prepareVariant revision (requestPlacement request "request-text-v1" [request.format]) = .ok variant) :
      Requests (.materializeRequestOrigin scope request revision now) scope request revision now variant
  | rich {scope : TenantScope} {request : ContentDistributionRequest} {revision : ContentRevision}
      {bindings : List ContentMediaBinding} {now : DateTime} {variant : ChannelVariant}
      (heligible : eligible scope request revision = true) (hformat : request.format = richDistributionFormat)
      (hvariant :
        prepareRichVariantAuthorized revision (requestPlacement request "request-rich-v2" [richMarkdownFormat]) scope
          bindings = .ok variant) :
      Requests (.materializeRichRequestOrigin scope request revision bindings now) scope request revision now variant

variable [InstantJson]

/-- What a call that returned did to the state, with the texts it digested among some texts. -/
inductive DistributionEffect (used : List String → Prop) (s : MemoryDistributionState) :
    DistributionCall → DistributionReply → MemoryDistributionState → Prop where
  /-- The manifest was stored already. -/
  | stored {call : DistributionCall} {manifest : DistributionManifest} :
      DistributionEffect used s call (.manifest manifest) s
  /-- A new manifest. -/
  | frozen {scope : TenantScope} {input : FreezeDistribution} {now : DateTime}
      {manifest : DistributionManifest} (hfrozen : freezeDistribution scope input = .ok manifest)
      (hnew : s.manifests.lookup (scope.storageKey, manifest.manifestId) = none)
      (hused : ∀ document ∈ manifest.documentRoster, ∀ placement ∈ manifest.platformScope,
        used (targetParts manifest.manifestId document placement)) :
      DistributionEffect used s (.freeze scope input now) (.manifest { manifest with sealedAt := now })
        (s.insertManifest (scope.storageKey, manifest.manifestId) { manifest with sealedAt := now })
  /-- The next page of a manifest. -/
  | expanded {scope : TenantScope} {id : Uuid} {rows : List DistributionTarget} {clock : Nat → DateTime}
      {manifest expanded : DistributionManifest} (hstored : s.manifests.lookup (scope.storageKey, id) = some manifest)
      (hproject : scope.projectId = some manifest.projectId)
      (hbound : manifest.expansionCursor + rows.length ≤ manifest.expectedCount)
      (hroster : matchesRoster manifest manifest.expansionCursor rows = true)
      (hexpanded : expanded = { manifest with
        expansionCursor := manifest.expansionCursor + rows.length
        complete := manifest.expansionCursor + rows.length = manifest.expectedCount }) :
      DistributionEffect used s (.commitExpansionPage scope id manifest.expansionCursor rows clock) (.manifest expanded)
        ((recordRows scope clock 0 rows s).insertManifest (scope.storageKey, id) expanded)
  /-- A target was put off for a temporary reason. -/
  | putOff {call : DistributionCall} {reply : MaterializedDistribution} {scope : TenantScope}
      {prepared : PreparedDistribution} {bindings : List ContentMediaBinding} {clock : MaterializeClock}
      {manifest : DistributionManifest} {history : TargetHistory} {placement : PlatformPlacement} {reason : String}
      (hcall : call.coverage = some (scope, prepared, bindings, clock))
      (hfound : Materializes scope prepared s manifest history placement)
      (hidle : prepared.deferReason.isSome ∨ prepared.accountId = none ∧ reply.intent = none)
      (hreason : reason ∈ temporaryReasons) :
      DistributionEffect used s call (.materialized reply)
        (recordChange (scope.storageKey, prepared.targetId) history.last.target
          (putOff history.last.target reason) clock.recordedAt s)
  /-- A target was bound to a publication. -/
  | bound {call : DistributionCall} {reply : MaterializedDistribution} {scope : TenantScope}
      {prepared : PreparedDistribution} {bindings : List ContentMediaBinding} {clock : MaterializeClock}
      {manifest : DistributionManifest} {history : TargetHistory} {placement : PlatformPlacement} {accountId : Uuid}
      {s' : MemoryDistributionState} {revision : ContentRevision} {variant : ChannelVariant}
      {candidate : PublicationIntent} {command : PublicationCommand} {previous : Option PublicationIntent}
      (hcall : call.coverage = some (scope, prepared, bindings, clock))
      (hfound : Materializes scope prepared s manifest history placement) (hready : prepared.deferReason = none)
      (hgate : history.last.target.status = .deferred →
        ∃ reason ∈ temporaryReasons, history.last.target.reason = some reason)
      (haccount : prepared.accountId = some accountId)
      (hbinds : Binds scope (scope.storageKey, prepared.targetId) manifest placement
        history.last.target prepared.revision accountId bindings clock s s' revision variant
        candidate command previous)
      (hreply : reply.intent = some (previous.getD candidate))
      (hused : ∀ text,
        PublicationTexts (publicationParts scope variant placement.platformId placement.placementSlot accountId)
          text → used text) :
      DistributionEffect used s call (.materialized reply) s'
  /-- A request was given its publication. -/
  | originated {call : DistributionCall} {scope : TenantScope} {request : ContentDistributionRequest}
      {revision : ContentRevision} {now : DateTime} {variant : ChannelVariant} {s' : MemoryDistributionState}
      {candidate : PublicationIntent} {command : PublicationCommand} {previous : Option PublicationIntent}
      (hcall : call.Requests scope request revision now variant)
      (horiginates : Originates scope request revision variant now s s' candidate command previous)
      (hused : ∀ text,
        PublicationTexts
          (publicationParts scope variant request.platformId request.placementSlot
            request.accountId) text → used text) :
      DistributionEffect used s call (.intent (previous.getD candidate)) s'
  /-- The verification of an intent was recorded. -/
  | verified {scope : TenantScope} {intentId evidenceId : Uuid} {verification : IntentVerification} {key : String}
      {intent : PublicationIntent} (hstored : s.intents.lookup (scope.storageKey, key) = some intent)
      (hid : intent.intentId = intentId) (hresolved : verification ≠ .unverified)
      (hkept : intent.verification = .verified → verification ≠ .unknown) :
      DistributionEffect used s (.recordIntentVerification scope intentId verification evidenceId)
        (.intent { intent with verification, verificationEvidenceId := some evidenceId })
        (s.insertIntent (scope.storageKey, key) { intent with verification, verificationEvidenceId := some evidenceId })

variable {used : List String → Prop} {s s' : MemoryDistributionState}

theorem coverage_effect {call : DistributionCall} {scope : TenantScope} {prepared : PreparedDistribution}
    {bindings : List ContentMediaBinding} {clock : MaterializeClock} {reply : MaterializedDistribution}
    (hcall : call.coverage = some (scope, prepared, bindings, clock))
    (hused : ∀ parts text, OffersCoverage s scope prepared bindings parts → PublicationTexts parts text → used text)
    (h : (materializeRich scope prepared bindings clock).Returns s reply s') :
    DistributionEffect used s call (.materialized reply) s' := by
  obtain ⟨_, _, _, hfound, hdone⟩ := materializeRich_returns h
  rcases hdone with ⟨reason, hreason, rfl⟩ | ⟨hready, hgate, hdone⟩
  · refine .putOff hcall hfound (.inl (by rw [hreason]; rfl)) ?_
    cases reason <;> decide
  · rcases hdone with ⟨haccount, -, hreply, rfl⟩ |
      ⟨accountId, revision, variant, candidate, command, previous, haccount, hbinds, hreply⟩
    · exact .putOff hcall hfound (.inr ⟨haccount, hreply⟩) (by decide)
    · refine .bound hcall hfound hready hgate haccount hbinds hreply fun text htext => ?_
      exact hused _ text
        (.publication hfound.stored (List.mem_of_find?_eq_some hfound.placed) hbinds.given
          hbinds.rendered haccount) htext

/-- What a call that returned did. -/
theorem run_distributionEffect {call : DistributionCall} {reply : DistributionReply}
    (hused : ∀ text, Digests s call text → used text) (h : (run call).Returns s reply s') :
    DistributionEffect used s call reply s' := by
  cases call with
  | freeze =>
    obtain ⟨_, hrun, rfl⟩ := reply_returns.mp h
    obtain ⟨_, hfrozen, ⟨-, rfl⟩ | ⟨hnew, rfl, rfl⟩⟩ := freeze_returns hrun
    · exact .stored
    · exact .frozen hfrozen hnew fun document hdocument placement hplacement =>
        hused _ (.cell hfrozen hdocument hplacement)
  | commitExpansionPage =>
    obtain ⟨_, hrun, rfl⟩ := reply_returns.mp h
    obtain ⟨_, hstored, hproject, -, hbound, hroster, hdone⟩ := commitExpansionPage_returns hrun
    rcases hdone with ⟨-, -, -, -, rfl⟩ | ⟨rfl, rfl, rfl⟩
    · exact .stored
    · exact .expanded hstored hproject hbound hroster rfl
  | materialize =>
    obtain ⟨_, hrun, rfl⟩ := reply_returns.mp h
    exact coverage_effect rfl (fun _ text hparts htext => hused text (.coverage hparts htext))
      (materialize_returns hrun)
  | materializeRich =>
    obtain ⟨_, hrun, rfl⟩ := reply_returns.mp h
    exact coverage_effect rfl (fun _ text hparts htext => hused text (.richCoverage hparts htext)) hrun
  | materializeRequestOrigin _ request =>
    obtain ⟨_, hrun, rfl⟩ := reply_returns.mp h
    obtain ⟨heligible, hformat, _, hvariant, hrun⟩ := materializeRequestOrigin_returns hrun
    obtain ⟨_, _, _, horiginates, rfl⟩ := materializePreparedRequest_returns hrun
    exact .originated (.text heligible hformat hvariant) horiginates fun text htext =>
      hused text (.request hvariant htext)
  | materializeRichRequestOrigin =>
    obtain ⟨_, hrun, rfl⟩ := reply_returns.mp h
    obtain ⟨heligible, hformat, _, hvariant, hrun⟩ := materializeRichRequestOrigin_returns hrun
    obtain ⟨_, _, _, horiginates, rfl⟩ := materializePreparedRequest_returns hrun
    exact .originated (.rich heligible hformat hvariant) horiginates fun text htext =>
      hused text (.richRequest hvariant htext)
  | recordIntentVerification =>
    obtain ⟨_, hrun, rfl⟩ := reply_returns.mp h
    obtain ⟨_, _, hstored, hid, hresolved, hkept, rfl, rfl⟩ := recordIntentVerification_returns hrun
    exact .verified hstored hid hresolved hkept

/-- What a step does: nothing a reader of the maps can see, or the effect of a call. -/
theorem step_distributionEffect {e : DistributionEvent}
    (h : (distributionMachine.restrict (DigestsOnly used)).step s e s') :
    (e = .reorder ∧ s.Reordered s') ∨ (∃ call err, e = .call call (.error err) ∧ s' = s)
      ∨ ∃ call reply, e = .call call (.ok reply) ∧ DistributionEffect used s call reply s' := by
  obtain ⟨hused, hstep⟩ := h
  cases e with
  | reorder => exact .inl ⟨rfl, hstep⟩
  | call call reply =>
    cases reply with
    | error err => exact .inr (.inl ⟨call, err, rfl, callMachine.step_failed (run_atomic call) hstep⟩)
    | ok reply => exact .inr (.inr ⟨call, reply, rfl, run_distributionEffect hused hstep⟩)

end

end GeoMaster
