import GeoMaster.Domain.ObservationAnalysis

/-!
# The repository of interpretations

Interpretations are saved about evidence that is there: the source of a revision is looked up again, with its
digest and its time, before the revision is stored. A batch of attempts is answered with the newest grounded
revision of each.
-/

namespace GeoMaster

/-! ### The source of a revision -/

namespace AnalysisSource

variable [Sha256] [JsonText] [InstantText]

end AnalysisSource

/-! ### The repository -/

structure StoredAnalysis where
  scope : TenantScope
  keyHash : String
  revision : ObservationAnalysisRevision
  claimToken : Option Uuid
  durableLinked : Bool

abbrev MemoryObservationAnalysisRepository : Type :=
  AssocMap Uuid StoredAnalysis

namespace MemoryObservationAnalysisRepository

def requireProject (scope : TenantScope) : Except AppError Unit :=
  Except.failIf (scope.projectId = none) (.forbidden "project scope required")

/-- The revisions that a scope has stored. -/
def ofScope (records : MemoryObservationAnalysisRepository) (scope : TenantScope) : List ObservationAnalysisRevision :=
  ((AssocMap.values records).filter fun stored => stored.scope = scope).map StoredAnalysis.revision

/-- Take a revision of a requested attempt, if it is newer than the one taken before. -/
def select (attempts : List (Uuid × Uuid)) (asOf : DateTime)
    (selected : AssocMap (Uuid × Uuid) ObservationAnalysisRevision)
    (revision : ObservationAnalysisRevision) : AssocMap (Uuid × Uuid) ObservationAnalysisRevision :=
  if revision.pair ∈ attempts ∧ observationAnalysisProjectionEligible revision asOf = true
      ∧ (selected.lookup revision.pair).all (fun prior => prior.order < revision.order) = true then
    selected.insert revision.pair revision
  else selected

/-- Attempts in the order of a `BTreeMap`. -/
def PairLe (left right : Uuid × Uuid) : Prop :=
  left.1 < right.1 ∨ (left.1 = right.1 ∧ left.2 ≤ right.2)

instance (left right : Uuid × Uuid) : Decidable (PairLe left right) :=
  inferInstanceAs (Decidable (_ ∨ _))

def latestGroundedForAttempts (records : MemoryObservationAnalysisRepository) (scope : TenantScope)
    (attempts : List (Uuid × Uuid)) (asOf : DateTime) : Except AppError (List ObservationAnalysisRevision) := do
  requireProject scope
  Except.failIf
    (maxAnalysisProjectionAttempts < attempts.length ∨ attempts.any (fun pair => pair.1.isNil || pair.2.isNil) = true)
    (.invalidRequest "invalid analysis projection batch")
  let selected := (records.ofScope scope).foldl (select attempts asOf) ∅
  pure ((selected.entries.insertionSort fun a b => PairLe a.1 b.1).map Sigma.snd)

end MemoryObservationAnalysisRepository

end GeoMaster
