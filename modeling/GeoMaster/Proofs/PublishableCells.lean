import GeoMaster.Proofs.DistributionTargets

/-!
# Which cells are published

A cell is to be published when its document is ready, its placement is available and takes the document's
format. The gate of a materialization reads the last version of the target instead, where a temporary deferral
may have replaced the reason the cell was frozen with. No other target than such a one gets past the gate.
-/

namespace GeoMaster

open MemoryDistributionRepository List Option Calls

/-- A target that stands for a publication. -/
def DistributionTarget.Published (target : DistributionTarget) : Prop :=
  target.publicationIntentId.isSome ∨ target.status ∈ [DistributionTargetStatus.ready, .reusedVerified, .reusedUnknown]

/-- A document is to be published on a placement. -/
structure Publishable (document : DistributionDocument) (placement : PlatformPlacement) : Prop where
  ready : document.status = .ready
  available : placement.unavailableReason = none
  format : document.contentType ∈ placement.supportedFormats

theorem cellStatus_pending {document : DistributionDocument} {placement : PlatformPlacement} :
    (cellStatus document placement).1 = .pending ↔ Publishable document placement := by
  constructor
  · intro h
    unfold cellStatus at h
    split at h <;> try simp at h
    rename_i hready
    split at h
    · simp at h
    · rename_i havailable
      split at h
      · rename_i hformat
        exact ⟨hready, havailable, hformat⟩
      · simp at h
  · rintro ⟨hready, havailable, hformat⟩
    simp [cellStatus, hready, havailable, hformat]

/-- A ready document is put off from the start where its placement is not available. -/
theorem cellStatus_deferred {document : DistributionDocument} {placement : PlatformPlacement}
    (hready : document.status = .ready) (h : (cellStatus document placement).1 = .deferred) :
    placement.unavailableReason.isSome := by
  unfold cellStatus at h
  rw [hready] at h
  dsimp only at h
  split at h
  · rename_i reason hreason
    rw [hreason]
    rfl
  · split at h <;> simp at h

theorem cellStatus_unpublished (document : DistributionDocument) (placement : PlatformPlacement) :
    (cellStatus document placement).1 ∉ [DistributionTargetStatus.ready, .reusedVerified, .reusedUnknown] := by
  unfold cellStatus
  split <;> try simp
  split
  · simp
  · split <;> simp

/-- A target of a ready document whose placement was not available when it was frozen, and whose reason has
been replaced by a temporary one. -/
def Reopened (s : MemoryDistributionState) (scope : TenantScope) (targetId : Uuid) : Prop :=
  ∃ history manifest document placement,
    s.histories.lookup (scope.storageKey, targetId) = some history ∧ s.manifests.lookup
      (scope.storageKey, history.last.target.manifestId) = some manifest ∧ manifest.place history.last.target.ordinal
      = some (document, placement) ∧ document.status = .ready ∧ placement.unavailableReason.isSome
      ∧ history.last.target.status = .deferred ∧ ∃ reason ∈ temporaryReasons, history.last.target.reason = some reason

/-- A step does not materialize a reopened target with an account. -/
def KeepsGate (s : MemoryDistributionState) : DistributionEvent → Prop
  | .call call _ => ∀ scope prepared bindings clock,
    call.coverage = some (scope, prepared, bindings, clock) → prepared.deferReason = none →
    prepared.accountId.isSome → ¬ Reopened s scope prepared.targetId
  | .reorder => True

/-- How a version of a target stands to its cell. -/
structure VersionOf (cell target : DistributionTarget) : Prop where
  reached : materializable target.status = true → cell.status = .pending ∨ cell.status = .deferred
  pending : target.status = .pending → cell.status = .pending
  published : target.Published → cell.status = .pending
  complete : Unbound target ∨ target.publicationIntentId.isSome ∧ target.variantId.isSome ∧ target.accountId.isSome

section Gate

variable [Sha256] {manifest : DistributionManifest} {n : Nat} {cell : DistributionTarget}

theorem versionOf_cell (hcell : distributionCell manifest n = some cell) : VersionOf cell cell := by
  obtain ⟨document, placement, -, rfl⟩ := distributionCell_eq_some.mp hcell
  have hunpublished := cellStatus_unpublished document placement
  refine ⟨fun hopen => ?_, id, fun hpublished => ?_, .inl ⟨rfl, rfl, rfl⟩⟩
  · have hstatus : (cellOf manifest.manifestId n document placement).status = (cellStatus document placement).1 := rfl
    rw [hstatus] at hopen ⊢
    revert hopen hunpublished
    cases (cellStatus document placement).1 <;> simp [materializable]
  · rcases hpublished with hintent | hstatus
    · simp [cellOf] at hintent
    · exact absurd hstatus hunpublished

omit [Sha256] in
theorem VersionOf.putOff {target : DistributionTarget} (h : VersionOf cell target)
    (hopen : materializable target.status = true) (reason : String) (version : Nat) :
    VersionOf cell { MemoryDistributionRepository.putOff target reason with version } := by
  refine ⟨fun _ => h.reached hopen, fun hpending => ?_, fun hpublished => ?_, ?_⟩
  · simp [MemoryDistributionRepository.putOff] at hpending
  · rcases hpublished with hintent | hstatus
    · exact h.published (.inl hintent)
    · simp [MemoryDistributionRepository.putOff] at hstatus
  · rcases h.complete with hunbound | hbound
    · exact .inl ⟨hunbound.intentId, hunbound.variantId, hunbound.accountId⟩
    · exact .inr hbound

variable [UrlParser] [InstantJson] {used : List String → Prop} {s s' : MemoryDistributionState}
  {e : DistributionEvent} (hfree : CollisionFree used)

/-- What every history keeps. -/
def Gated (s : MemoryDistributionState) : Prop :=
  ∀ k targetId history, s.histories.lookup (k, targetId) = some history →
    ∀ v ∈ history.entries, VersionOf history.first.target v.target

omit [UrlParser] [InstantJson] in
theorem pending_of_gate (hc : CoverageShape used s) (hs : Gated s) {scope : TenantScope} {targetId revisionId : Uuid}
    {history : TargetHistory} (hstored : s.histories.lookup (scope.storageKey, targetId) = some history)
    (hopen : materializable history.last.target.status = true)
    (hgate : history.last.target.status = .deferred →
      ∃ reason ∈ temporaryReasons, history.last.target.reason = some reason)
    (hrevision : history.last.target.contentRevisionId = some revisionId)
    (hkeeps : ¬ Reopened s scope targetId) : history.first.target.status = .pending := by
  have hversion := hs _ _ _ hstored _ history.last_mem
  have hshape := hc.histories _ _ _ hstored
  rcases hversion.reached hopen with hpending | hdeferred
  · exact hpending
  · -- The cell was put off when it was frozen: it was reopened, or it was published before.
    by_cases hlast : history.last.target.status = .deferred
    · obtain ⟨manifest, hm, -, hcell⟩ := hshape.origin
      obtain ⟨document, placement, hplace, hfirst⟩ := distributionCell_eq_some.mp hcell
      have hsame := hshape.sameCell history.last_mem
      have hcellStatus : (cellStatus document placement).1 = .deferred := by
        rw [hfirst] at hdeferred
        exact hdeferred
      have hready : document.status = .ready := by
        rw [(hc.manifests _ _ _ hm).frozen.revisions document (place_mem hplace).1]
        have hdocument : history.first.target.contentRevisionId = document.contentRevisionId := by
          rw [hfirst]
          rfl
        rw [← hdocument, ← hsame.contentRevisionId, hrevision]
        rfl
      refine absurd ⟨history, manifest, document, placement, hstored, ?_, ?_, hready,
        cellStatus_deferred hready hcellStatus, hlast, hgate hlast⟩ hkeeps
      · rw [hsame.manifestId, hm]
      · rw [hsame.ordinal, hplace]
    · have hstatus : history.last.target.status = .pending ∨ history.last.target.Published := by
        revert hopen hlast
        unfold DistributionTarget.Published
        cases history.last.target.status <;> simp [materializable]
      rcases hstatus with hpending | hpublished
      · exact hversion.pending hpending
      · exact hversion.published hpublished

include hfree in
theorem Gated.step (hc : CoverageShape used s) (hs : Gated s)
    (h : (distributionMachine.restrict (DigestsOnly used)).step s e s') (hkeeps : KeepsGate s e) : Gated s' := by
  intro k targetId history hstored
  cases step_targetChange hfree hc h hstored with
  | kept hold => exact hs k targetId history hold
  | started hmanifest hcell =>
    intro v hv
    obtain rfl := mem_singleton.mp hv
    exact versionOf_cell hcell
  | @putOff history reason _ hold hopen =>
    intro v hv
    rw [History.first_push]
    rcases mem_append.mp hv with hv | hv
    · exact hs _ _ _ hold v hv
    · obtain rfl := mem_singleton.mp hv
      exact (hs _ _ _ hold _ history.last_mem).putOff hopen reason _
  | @bound _ _ scope prepared bindings clock _ _ _ _ _ _ _ _ _ _ hevent hkey htarget hcall hfound hready hgate
      haccount hbinds =>
    intro v hv
    subst hkey htarget hevent
    rw [History.first_push]
    rcases mem_append.mp hv with hv | hv
    · exact hs _ _ _ hfound.expanded v hv
    · obtain rfl := mem_singleton.mp hv
      have hpending := pending_of_gate hc hs hfound.expanded hfound.status hgate hbinds.frozen
        (hkeeps scope prepared bindings clock hcall hready (by rw [haccount]; rfl))
      exact ⟨fun _ => .inl hpending, fun _ => hpending, fun _ => hpending, .inr ⟨rfl, rfl, rfl⟩⟩

include hfree in
/-- Only publishable cells are published, in every run that materializes no reopened target; and a target
keeps its publication. -/
theorem publishedCells_publishable {events : List DistributionEvent}
    (hrun : (distributionMachine.restrict fun s e => DigestsOnly used s e ∧ KeepsGate s e).Run .empty
      events s) {scope : TenantScope} {targetId : Uuid} {history : TargetHistory}
    (hstored : s.histories.lookup (scope.storageKey, targetId) = some history) :
    (∀ v ∈ history.entries, v.target.Published →
        history.first.target.status = .pending
          ∧ ∃ manifest document placement,
            s.manifests.lookup (scope.storageKey, v.target.manifestId) = some manifest ∧ manifest.place v.target.ordinal
              = some (document, placement) ∧ Publishable document placement)
      ∧ history.entries.Pairwise fun v v' =>
        v.target.publicationIntentId.isSome ∨ v.target.variantId.isSome ∨ v.target.accountId.isSome →
        v'.target.publicationIntentId = v.target.publicationIntentId ∧ v'.target.variantId = v.target.variantId
          ∧ v'.target.accountId = v.target.accountId := by
  have hdigests : (distributionMachine.restrict (DigestsOnly used)).Run .empty events s :=
    hrun.restrict_imp fun _ _ hok => hok.1
  obtain ⟨hc, hs⟩ := publicationShape_run hfree hdigests
  have hgated : CoverageShape used s ∧ Gated s := by
    refine hrun.invariant (I := fun s => CoverageShape used s ∧ Gated s) ?_ ⟨.empty, ?_⟩
    · intro s e s' hs hstep
      exact ⟨hs.1.step hfree ⟨hstep.1.1, hstep.2⟩, hs.2.step hfree hs.1 ⟨hstep.1.1, hstep.2⟩ hstep.1.2⟩
    · intro k id history h
      simp [MemoryDistributionState.empty] at h
  have hversions := hgated.2 _ _ _ hstored
  have hshape := hc.histories _ _ _ hstored
  refine ⟨fun v hv hpublished => ?_, ?_⟩
  · have hpending := (hversions v hv).published hpublished
    have hsame := hshape.sameCell hv
    obtain ⟨manifest, hm, -, hcell⟩ := hshape.origin
    obtain ⟨document, placement, hplace, hfirst⟩ := distributionCell_eq_some.mp hcell
    refine ⟨hpending, manifest, document, placement, ?_, ?_, ?_⟩
    · rw [hsame.manifestId, hm]
    · rw [hsame.ordinal, hplace]
    · rw [hfirst] at hpending
      exact cellStatus_pending.mp hpending
  · have htrans : IsTrans DistributionTargetVersion fun v v' => KeepsBinding v.target v'.target :=
      ⟨fun _ _ _ => .trans⟩
    refine (isChain_iff_pairwise.mp (hs.targets _ _ _ hstored).2).imp_of_mem fun {v v'} hv _ hkeeps hset => ?_
    rcases (hversions v hv).complete with hunbound | ⟨hintent, -, -⟩
    · rw [hunbound.intentId, hunbound.variantId, hunbound.accountId] at hset
      simp at hset
    · exact hkeeps.binding hintent

end Gate

namespace Sample

/-- A placement that was not available when the coverage was frozen. -/
def offline : PlatformPlacement :=
  { placement "zhihu" false with unavailableReason := some "offline" }

/-- The manifest of one cell, where it can be frozen. -/
def oneCell (place : PlatformPlacement) : Option DistributionManifest :=
  frozen (coverageInput (uuid 10) (uuid 100) [place])

/-- A manifest is frozen and expanded, and its only target materialized. -/
def cellCalls (place : PlatformPlacement) (manifest : DistributionManifest)
    (cell : DistributionTarget) (deferrals : List (Option DistributionDeferralReason)) : List DistributionCall :=
  [.freeze scope (coverageInput (uuid 10) (uuid 100) [place]) 5,
    .commitExpansionPage scope manifest.manifestId 0 [cell] fun _ => 6]
    ++ deferrals.map fun deferReason =>
      .materialize scope (preparedArticle manifest.manifestId cell.targetId deferReason)
        { createdAt := 7, recordedAt := 7 }

/-- The only document. -/
def guide : DistributionDocument :=
  { documentItemId := uuid 102, documentKey := "guide", contentType := "article"
    status := .ready, reason := none, contentRevisionId := some (uuid 105) }

theorem cells_frozen :
    (oneCell offline).isSome = true ∧ (oneCell (placement "zhihu" false)).isSome = true := by
  decide +kernel

theorem offline_frozen : (oneCell offline).isSome = true :=
  cells_frozen.1

def offlineManifest : DistributionManifest :=
  (oneCell offline).get offline_frozen

def offlineCell : DistributionTarget :=
  @cellOf secureHash offlineManifest.manifestId 0 guide offline

/-- The target is put off for its source and then materialized. -/
def reopenedCalls : List DistributionCall :=
  cellCalls offline offlineManifest offlineCell [some .sourceUnavailable, none]

end Sample

open Sample

/-- A cell whose placement was not available is published. -/
theorem publishedCells_reopened :
    ∃ events s history,
      (@distributionMachine secureHash noLinks freezeInstant).Run .empty events s
        ∧ s.histories.lookup (scope.storageKey, offlineCell.targetId) = some history
        ∧ history.first.target.status = .deferred ∧ history.first.target.reason = some "offline"
        ∧ history.last.target.status = .ready ∧ history.last.target.publicationIntentId.isSome = true := by
  have hrun := run_trace_all runSecure MemoryDistributionState.Reordered reopenedCalls .empty
  have hpublished :
      ((after runSecure .empty reopenedCalls).histories.lookup
        (scope.storageKey, offlineCell.targetId)).map (fun history =>
          (history.first.target.status, history.first.target.reason, history.last.target.status,
            history.last.target.publicationIntentId.isSome))
        = some (.deferred, some "offline", .ready, true) := by
    decide +kernel
  obtain ⟨history, hlookup, hfields⟩ := map_eq_some_iff.mp hpublished
  simp only [Prod.mk.injEq] at hfields
  exact ⟨_, _, history, hrun, hlookup, hfields⟩

namespace Sample

theorem online_frozen : (oneCell (placement "zhihu" false)).isSome = true :=
  cells_frozen.2

def onlineManifest : DistributionManifest :=
  (oneCell (placement "zhihu" false)).get online_frozen

def onlineCell : DistributionTarget :=
  @cellOf secureHash onlineManifest.manifestId 0 guide (placement "zhihu" false)

/-- The target of the only cell is materialized. -/
def onlineCalls : List DistributionCall :=
  cellCalls (placement "zhihu" false) onlineManifest onlineCell [none]

/-- The texts that are digested. -/
def onlineTexts : List (List String) :=
  cellTexts onlineManifest ++ articleTexts

/-- The state in which the target is materialized. -/
def onlineExpanded : MemoryDistributionState :=
  after runSecure .empty (onlineCalls.take 2)

/-- Before the target is materialized it is pending, and there is no publication. -/
theorem onlineExpanded_holds :
    ((onlineExpanded.manifests.lookup (scope.storageKey, onlineManifest.manifestId)).map
        DistributionManifest.platformScope = some [placement "zhihu" false]
      ∧ (onlineExpanded.histories.lookup (scope.storageKey, onlineCell.targetId)).map
        (fun history => history.last.target.status) = some .pending)
      ∧ onlineExpanded.intents.entries = [] := by
  decide +kernel

/-- The target is not reopened, since it was not put off. -/
theorem onlineExpanded_pending : ¬ Reopened onlineExpanded scope onlineCell.targetId := by
  rintro ⟨_, -, -, -, hstored, -, -, -, -, hdeferred, -⟩
  have hpending := onlineExpanded_holds.1.2
  rw [hstored, map_some, hdeferred] at hpending
  simp at hpending

theorem onlineCalls_allowed :
    Calls.Allowed runSecure
      (fun s e => @DigestsOnly secureHash noLinks freezeInstant (· ∈ onlineTexts) s e ∧ KeepsGate s e)
      .empty onlineCalls := by
  refine ⟨⟨fun text htext => ?_, ?_⟩, ⟨fun text htext => (by cases htext), ?_⟩, ⟨fun text htext => ?_, ?_⟩, trivial⟩
  · exact mem_append_left _ (mem_cellTexts online_frozen htext)
  · rintro _ _ _ _ ⟨⟩
  · rintro _ _ _ _ ⟨⟩
  · exact mem_append_right _ (mem_articleTexts_of_materialize onlineExpanded_holds.1.1 htext)
  · rintro _ _ _ _ ⟨⟩ - -
    exact onlineExpanded_pending

theorem onlineCalls_published :
    ((after runSecure .empty onlineCalls).histories.lookup (scope.storageKey, onlineCell.targetId)).map
        (fun history =>
          (history.last.target.manifestId, history.last.target.ordinal, history.last.target.status,
            history.last.target.publicationIntentId.isSome))
        = some (onlineManifest.manifestId, 0, .ready, true)
      ∧ ((after runSecure .empty onlineCalls).manifests.lookup (scope.storageKey, onlineManifest.manifestId)).map
        (fun manifest => manifest.place 0) = some (some (guide, placement "zhihu" false)) := by
  decide +kernel

theorem onlineTexts_free : @CollisionFree secureHash (· ∈ onlineTexts) :=
  @collisionFree_of_nodup secureHash _ (by decide +kernel)

end Sample

theorem publishedCells_publishable_sample :
    ∃ manifest document placement, onlineCell.status = .pending
      ∧ (Calls.after runSecure .empty onlineCalls).manifests.lookup
        (scope.storageKey, onlineManifest.manifestId) = some manifest
      ∧ manifest.place 0 = some (document, placement) ∧ Publishable document placement := by
  have hrun := runSecure_allowed onlineCalls .empty onlineCalls_allowed
  obtain ⟨history, hlookup, hfields⟩ := map_eq_some_iff.mp onlineCalls_published.1
  simp only [Prod.mk.injEq] at hfields
  obtain ⟨hmanifestId, hordinal, hready, -⟩ := hfields
  obtain ⟨-, manifest, document, placement, hm, hplace, hpublishable⟩ :=
    (@publishedCells_publishable secureHash noLinks freezeInstant _ _
      onlineTexts_free _ hrun _ _ _ hlookup).1 _ history.last_mem (.inr (by simp [hready]))
  rw [hmanifestId] at hm
  rw [hordinal] at hplace
  exact ⟨manifest, document, placement, rfl, hm, hplace, hpublishable⟩

end GeoMaster
