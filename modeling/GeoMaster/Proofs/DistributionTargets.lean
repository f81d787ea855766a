import GeoMaster.Proofs.PublicationSteps

/-!
# What a step does to a target

A target's history begins with its cell, and a later version puts the target off or binds it to a publication.
An invariant of every history is checked on these, and holds after every run.
-/

namespace GeoMaster

open MemoryDistributionRepository

variable [Sha256] [UrlParser]

/-- A history after a step, by what the step did to it. -/
inductive TargetChange (used : List String → Prop) (s : MemoryDistributionState) (e : DistributionEvent)
    (s' : MemoryDistributionState) (k : String) (targetId : Uuid) : TargetHistory → Prop where
  /-- Nothing. -/
  | kept {history : TargetHistory} (hstored : s.histories.lookup (k, targetId) = some history) :
      TargetChange used s e s' k targetId history
  /-- The history was begun with a cell. -/
  | started {manifest : DistributionManifest} {n : Nat} {cell : DistributionTarget} {recordedAt : DateTime}
      (hmanifest : s.manifests.lookup (k, cell.manifestId) = some manifest)
      (hcell : distributionCell manifest n = some cell) :
      TargetChange used s e s' k targetId (.start { recordedAt, target := cell })
  /-- The target was put off. -/
  | putOff {history : TargetHistory} {reason : String} {recordedAt : DateTime}
      (hstored : s.histories.lookup (k, targetId) = some history)
      (hstatus : materializable history.last.target.status = true) :
      TargetChange used s e s' k targetId
        (history.push
          { recordedAt
            target :=
              { putOff history.last.target reason with
                version := history.last.target.version + 1 } })
  /-- The target was bound. -/
  | bound {call : DistributionCall} {reply : MaterializedDistribution} {scope : TenantScope}
      {prepared : PreparedDistribution} {bindings : List ContentMediaBinding} {clock : MaterializeClock}
      {manifest : DistributionManifest} {history : TargetHistory} {placement : PlatformPlacement} {accountId : Uuid}
      {revision : ContentRevision} {variant : ChannelVariant} {candidate : PublicationIntent}
      {command : PublicationCommand} {previous : Option PublicationIntent} {recordedAt : DateTime}
      (hevent : e = .call call (.ok (.materialized reply))) (hkey : k = scope.storageKey)
      (htarget : targetId = prepared.targetId) (hcall : call.coverage = some (scope, prepared, bindings, clock))
      (hfound : Materializes scope prepared s manifest history placement) (hready : prepared.deferReason = none)
      (hgate : history.last.target.status = .deferred →
        ∃ reason ∈ temporaryReasons, history.last.target.reason = some reason)
      (haccount : prepared.accountId = some accountId)
      (hbinds : MemoryDistributionRepository.Binds scope (scope.storageKey, prepared.targetId) manifest placement
        history.last.target prepared.revision accountId bindings clock s s' revision variant
        candidate command previous)
      (hused : ∀ text,
        PublicationTexts (publicationParts scope variant placement.platformId placement.placementSlot accountId)
          text → used text) :
      TargetChange used s e s' k targetId
        (history.push
          { recordedAt
            target :=
              { boundTarget history.last.target variant.variantId accountId previous
                  (previous.getD candidate).intentId with
                version := history.last.target.version + 1 } })

variable [InstantJson] {used : List String → Prop} {s s' : MemoryDistributionState}
  {e : DistributionEvent} (hfree : CollisionFree used)

include hfree in
/-- Every history after a step was changed in one of these ways. -/
theorem step_targetChange (hc : CoverageShape used s)
    (h : (distributionMachine.restrict (DigestsOnly used)).step s e s') {k : String} {targetId : Uuid}
    {history : TargetHistory} (hstored : s'.histories.lookup (k, targetId) = some history) :
    TargetChange used s e s' k targetId history := by
  rcases step_distributionEffect h with ⟨-, hreordered⟩ | ⟨call, err, -, rfl⟩ | ⟨call, reply, rfl, heffect⟩
  · exact .kept (by rw [hreordered.histories.lookup_eq, hstored])
  · exact .kept hstored
  · cases heffect with
    | stored => exact .kept hstored
    | frozen => exact .kept hstored
    | @expanded scope _ rows clock _ _ hmanifest _ _ hroster =>
      by_cases hrow : ∃ row ∈ rows, (scope.storageKey, row.targetId) = (k, targetId)
      · obtain ⟨row, hrow, hkey⟩ := hrow
        obtain ⟨rfl, rfl⟩ := Prod.mk.inj hkey
        have hm := hc.manifests _ _ _ hmanifest
        have hnew : ∀ row ∈ rows, s.histories.lookup (scope.storageKey, row.targetId) = none := by
          intro row hrow
          obtain ⟨_, hi⟩ := List.getElem?_of_mem hrow
          exact hc.no_history hfree hmanifest (Nat.le_add_right _ _) (cell_of_matchesRoster hroster hi)
        obtain ⟨_, hstart⟩ := recordRows_new s scope clock 0 rows (rows_nodup hfree hm hroster) hnew hrow
        have hhistory := hstart.symm.trans hstored
        obtain rfl := Option.some.inj hhistory
        obtain ⟨_, hi⟩ := List.getElem?_of_mem hrow
        have hcell := cell_of_matchesRoster hroster hi
        refine .started ?_ hcell
        rw [(ordinal_of_cell hcell).2, hm.keyed]
        exact hmanifest
      · refine .kept ?_
        rw [← hstored]
        exact (recordRows_other _ _ _ _ _ fun row hmem hkey => hrow ⟨row, hmem, hkey⟩).symm
    | putOff _ hfound =>
      rcases recordChange_lookup hfound.expanded hstored with hold | ⟨hkey, rfl⟩
      · exact .kept hold
      · obtain ⟨rfl, rfl⟩ := Prod.mk.inj hkey
        exact .putOff hfound.expanded hfound.status
    | bound hcall hfound hready hgate haccount hbinds _ hused =>
      have hpublished := hfound.expanded
      rw [← (storePublication_coverage s _ _ _ _ _ _).2] at hpublished
      rw [hbinds.after] at hstored
      rcases recordChange_lookup hpublished hstored with hold | ⟨hkey, rfl⟩
      · rw [(storePublication_coverage s _ _ _ _ _ _).2] at hold
        exact .kept hold
      · obtain ⟨rfl, rfl⟩ := Prod.mk.inj hkey
        exact .bound rfl rfl rfl hcall hfound hready hgate haccount hbinds hused
    | originated hcall horiginates =>
      rw [horiginates.after, (keepOrigin_coverage _ _ _ _).2, (storePublication_coverage _ _ _ _ _ _ _).2] at hstored
      exact .kept hstored
    | verified => exact .kept hstored

end GeoMaster
