import GeoMaster.Domain.ReportProjection
import GeoMaster.Lib.Folds
import GeoMaster.Lib.Tally

/-!
# Report accounting

What a report counts is what its targets come to. `Cell` is a target as it is counted: the group it falls into and
the status it is given. The two outcome branches run one tally over the cells, `OutcomeBranch.Tallies`, and from it
follows that the totals, the groups and the denominator of a branch fit together. The statuses that speak for an
outcome are given on proof only.
-/

namespace GeoMaster

open Except AssocMap List

/-- A target as a report counts it. -/
structure Cell where
  targetId : Uuid
  (group status : String)
  deriving DecidableEq

def publicationCell (asOf : DateTime) (target : ReportPublicationTarget) : Cell where
  targetId := target.targetId
  group := target.platformId
  status := countedPublication target (target.evidence.any (proves asOf target.targetId (publicationKind target) none))

def measurementCell (asOf : DateTime) (window : DateTime × DateTime) (target : ReportMeasurementTarget) : Cell where
  targetId := target.targetId
  group := target.comparisonKey
  status :=
    countedMeasurement target
      (target.evidence.any (proves asOf target.targetId "observation" (some window)) && scheduledIn window target)

/-- How many targets a coverage counts under a status. -/
def ReportCoverage.countOf (coverage : ReportCoverage) (status : String) : Nat :=
  (coverage.counts.lookup status).getD 0

/-- The coverage of a branch and those of its groups account for the targets of the branch. -/
structure BranchAccounts (cells : List Cell) (coverage : ReportCoverage)
    (groups : List (String × ReportCoverage)) : Prop where
  distinct : (cells.map Cell.targetId).Nodup
  observed : coverage.observedCount = cells.length
  expected : coverage.expectedCount = some (values coverage.counts).sum
  counted : ∀ status, status ≠ "unmaterialized" →
    coverage.countOf status = cells.countP fun cell => cell.status = status
  unmaterialized : coverage.expectedCount = some (coverage.observedCount + coverage.countOf "unmaterialized")
  groupKeys : (groups.map Prod.fst).Nodup
  grouped : ∀ key, key ∈ groups.map Prod.fst ↔ ∃ cell ∈ cells, cell.group = key
  groupObserved : ∀ e ∈ groups, e.2.observedCount = cells.countP fun cell => cell.group = e.1
  groupCounted : ∀ e ∈ groups, ∀ status,
    e.2.countOf status = cells.countP fun cell => cell.group = e.1 ∧ cell.status = status
  observedSum : (groups.map fun e => e.2.observedCount).sum = coverage.observedCount
  countedSum : ∀ status, status ≠ "unmaterialized" →
    (groups.map fun e => e.2.countOf status).sum = coverage.countOf status

/-! ### One tally for both branches -/

/-- What a group counts of its cells. -/
structure GroupAccount (cells : List Cell) (group : ReportCoverage) : Prop where
  observed : group.observedCount = cells.length
  counts : Tally.Counts group.counts (cells.map Cell.status)

/-- What a branch holds after some cells. -/
structure OutcomeBranch.Tallies (branch : OutcomeBranch) (cells : List Cell) : Prop where
  ids : ∀ id, id ∈ branch.ids ↔ id ∈ cells.map Cell.targetId
  distinct : (cells.map Cell.targetId).Nodup
  counts : Tally.Counts branch.counts (cells.map Cell.status)
  groups : Tally.Grouped Cell.group GroupAccount branch.groups cells

theorem OutcomeBranch.start_tallies (collected : Collected) : (OutcomeBranch.start collected).Tallies [] where
  ids _ := Iff.rfl
  distinct := nodup_nil
  counts := Tally.Counts.nil
  groups := Tally.Grouped.nil

theorem newGroup_account (reason : String) : GroupAccount [] (newGroup reason) where
  observed := rfl
  counts := Tally.Counts.nil

theorem GroupAccount.add {cells : List Cell} {group : ReportCoverage} (h : GroupAccount cells group) (cell : Cell) :
    GroupAccount (cells ++ [cell])
      { group with
        observedCount := group.observedCount + 1
        counts := bump group.counts cell.status } where
  observed := by
    show group.observedCount + 1 = (cells ++ [cell]).length
    rw [h.observed, length_append, length_singleton]
  counts := by
    rw [map_append]
    exact h.counts.add cell.status

/-- A branch that takes one more cell: its identifier, its status and its group. -/
theorem OutcomeBranch.Tallies.add {branch branch' : OutcomeBranch} {cells : List Cell} (h : branch.Tallies cells)
    {cell : Cell} {reason : String} (hnew : cell.targetId ∉ branch.ids)
    (hids : branch'.ids = cell.targetId :: branch.ids) (hcounts : branch'.counts = bump branch.counts cell.status)
    (hgroups : branch'.groups = countInGroup reason cell.group cell.status branch.groups) :
    branch'.Tallies (cells ++ [cell]) where
  ids id := by
    rw [hids, List.mem_cons, h.ids id, List.map_append, List.mem_append, or_comm]
    simp
  distinct := by
    have hfresh : cell.targetId ∉ cells.map Cell.targetId := fun hmem => hnew ((h.ids _).mpr hmem)
    rw [List.map_append, nodup_append]
    refine ⟨h.distinct, nodup_singleton _, ?_⟩
    intro id hid id' hid' heq
    have hcell : id' = cell.targetId := mem_singleton.mp hid'
    exact hfresh (hcell ▸ heq ▸ hid)
  counts := by
    rw [hcounts, List.map_append]
    exact h.counts.add cell.status
  groups := by
    rw [hgroups]
    have hgroup := h.groups.getD (newGroup_account reason) cell.group
    exact h.groups.add (hgroup.add cell)

theorem OutcomeBranch.Tallies.coverage {branch : OutcomeBranch} {cells : List Cell} (h : branch.Tallies cells)
    {expected : Nat} (hle : cells.length ≤ expected) (hstatus : ∀ cell ∈ cells, cell.status ≠ "unmaterialized") :
    (values (outcomeCoverage expected cells.length branch.counts).counts).sum = expected
      ∧ (∀ status, status ≠ "unmaterialized" →
          (outcomeCoverage expected cells.length branch.counts).countOf status
            = cells.countP fun cell => cell.status = status)
      ∧ (outcomeCoverage expected cells.length branch.counts).countOf "unmaterialized" = expected - cells.length := by
  have habsent : "unmaterialized" ∉ branch.counts := by
    rw [h.counts.mem_iff]
    intro hmem
    obtain ⟨cell, hcell, heq⟩ := List.mem_map.mp hmem
    exact hstatus cell hcell heq
  have hcount : ∀ status, (branch.counts.lookup status).getD 0 = cells.countP fun cell => cell.status = status := by
    intro status
    rw [h.counts.getD status, List.count, List.countP_map]
    rfl
  have hsum : (values branch.counts).sum = cells.length := by
    rw [h.counts.sum, List.length_map]
  unfold outcomeCoverage ReportCoverage.countOf
  by_cases hmore : expected > cells.length
  · simp only [if_pos hmore]
    refine ⟨?_, ?_, ?_⟩
    · show (((branch.counts.insert "unmaterialized" _).entries).map Sigma.snd).sum = expected
      rw [AList.entries_insert_of_notMem habsent, List.map_cons, List.sum_cons]
      have hrest : (branch.counts.entries.map Sigma.snd).sum = cells.length := hsum
      rw [hrest]
      show expected - cells.length + cells.length = expected
      omega
    · intro status hne
      rw [lookup_insert, if_neg hne]
      exact hcount status
    · rw [lookup_insert, if_pos rfl]
      rfl
  · simp only [if_neg hmore]
    have hequal : expected = cells.length := by omega
    refine ⟨hsum.trans hequal.symm, fun status _ => hcount status, ?_⟩
    rw [AList.lookup_eq_none.mpr habsent, hequal, Nat.sub_self]
    rfl

/-! ### Maps in key order -/

section KeyOrder

variable {κ ν : Type} [LE κ] [DecidableLE κ]

theorem inKeyOrder_perm (map : AssocMap κ ν) : (inKeyOrder map).Perm (map.entries.map fun e => (e.1, e.2)) :=
  perm_insertionSort _ _

theorem mem_inKeyOrder [DecidableEq κ] {map : AssocMap κ ν} {k : κ} {v : ν} :
    (k, v) ∈ inKeyOrder map ↔ map.lookup k = some v := by
  rw [(inKeyOrder_perm map).mem_iff, List.mem_map]
  constructor
  · rintro ⟨_, he, heq⟩
    cases heq
    exact AList.mem_lookup_iff.mpr he
  · intro hlook
    exact ⟨⟨k, v⟩, AList.mem_lookup_iff.mp hlook, rfl⟩

theorem inKeyOrder_keys_nodup (map : AssocMap κ ν) : ((inKeyOrder map).map Prod.fst).Nodup := by
  have hperm := (inKeyOrder_perm map).map Prod.fst
  rw [hperm.nodup_iff, List.map_map]
  exact map.nodupKeys

theorem sum_inKeyOrder (map : AssocMap κ ν) (f : ν → Nat) :
    ((inKeyOrder map).map fun e => f e.2).sum = ((values map).map f).sum := by
  have hperm := (inKeyOrder_perm map).map fun e => f e.2
  rw [hperm.sum_eq, values, List.map_map, List.map_map]
  rfl

end KeyOrder

/-! ### A branch and its groups -/

variable {asOf : DateTime} {cells : List Cell} {findingNamespace : Uuid}

variable {group : ReportCoverage} {branch : OutcomeBranch} {groups : AssocMap String ReportCoverage} {targetId : Uuid}
  {expectedKind status : String} {valid : Bool} {revision : Int} {target : ReportPublicationTarget}
  {window : DateTime × DateTime} {reference : Option ReportManifestRef} {collected : Collected}
  {branches : ReportBranches}

theorem GroupAccount.countOf (h : GroupAccount cells group) (status : String) :
    group.countOf status = cells.countP fun cell => cell.status = status := by
  rw [ReportCoverage.countOf, h.counts.getD status, List.count, countP_map]
  rfl

/-- A branch that counted its targets accounts for them, in whatever groups the tally holds. -/
theorem OutcomeBranch.Tallies.accounts (h : branch.Tallies cells) {expected : Nat}
    (hle : cells.length ≤ expected) (hstatus : ∀ cell ∈ cells, cell.status ≠ "unmaterialized") (hgroups : Tally.Grouped Cell.group GroupAccount groups cells) :
    BranchAccounts cells (outcomeCoverage expected cells.length branch.counts) (inKeyOrder groups) := by
  obtain ⟨hsum, hcounted, hrest⟩ := h.coverage hle hstatus
  have haccount : ∀ e ∈ inKeyOrder groups, GroupAccount (Tally.part Cell.group cells e.1) e.2 := by
    intro e he
    exact hgroups.account e.1 e.2 (mem_inKeyOrder.mp he)
  constructor
  case distinct => exact h.distinct
  case observed => rfl
  case expected => rw [hsum]; rfl
  case counted => exact hcounted
  case unmaterialized =>
    rw [hrest]
    show some expected = some (cells.length + (expected - cells.length))
    congr 1
    omega
  case groupKeys => exact inKeyOrder_keys_nodup groups
  case grouped =>
    intro key
    rw [← hgroups.mem_iff key, ← AList.lookup_isSome, Option.isSome_iff_exists, List.mem_map]
    constructor
    · rintro ⟨e, he, rfl⟩
      exact ⟨e.2, mem_inKeyOrder.mp he⟩
    · rintro ⟨group, hlook⟩
      exact ⟨(key, group), mem_inKeyOrder.mpr hlook, rfl⟩
  case groupObserved =>
    intro e he
    rw [(haccount e he).observed, Tally.part, ← List.countP_eq_length_filter]
  case groupCounted =>
    intro e he status
    rw [(haccount e he).countOf status, Tally.part, countP_filter]
    apply countP_congr
    intro cell _
    simp [and_comm]
  case observedSum =>
    rw [sum_inKeyOrder groups ReportCoverage.observedCount,
      hgroups.sum ReportCoverage.observedCount (fun _ => true) fun part group hpart => by
        rw [hpart.observed, countP_true]]
    rw [countP_true]
    rfl
  case countedSum =>
    intro status hne
    rw [sum_inKeyOrder groups fun group => group.countOf status,
      hgroups.sum (fun group => group.countOf status) (fun cell => cell.status = status)
        fun part group hpart => hpart.countOf status]
    exact (hcounted status hne).symm

/-! ### The loops -/

/-- What proves a target, in the words of the times it carries. -/
structure Proof (asOf : DateTime) (targetId : Uuid) (expectedKind : String)
    (window : Option (DateTime × DateTime)) (reference : ReportEvidenceReference) : Prop where
  kind : reference.kind = expectedKind
  target : reference.resourceId = targetId
  timely : ∃ occurred received,
    reference.occurredAt = some occurred ∧ reference.receivedAt = some received ∧ occurred ≤ received ∧ received ≤ asOf
      ∧ ∀ bounds ∈ window, bounds.1 ≤ occurred ∧ occurred < bounds.2

theorem proves_iff {window : Option (DateTime × DateTime)} {reference : ReportEvidenceReference} :
    proves asOf targetId expectedKind window reference = true ↔ Proof asOf targetId expectedKind window reference := by
  unfold proves
  constructor
  · intro h
    cases hoccurred : reference.occurredAt with
    | none => rw [hoccurred] at h; cases h
    | some occurred =>
      cases hreceived : reference.receivedAt with
      | none => rw [hoccurred, hreceived] at h; cases h
      | some received =>
        rw [hoccurred, hreceived] at h
        obtain ⟨hcausal, hknown, hkind, htarget, hwindow⟩ := of_decide_eq_true h
        exact ⟨hkind, htarget, occurred, received, hoccurred, hreceived, hcausal, hknown, hwindow⟩
  · rintro ⟨hkind, htarget, _, _, hoccurred, hreceived, hcausal, hknown, hwindow⟩
    rw [hoccurred, hreceived]
    exact decide_eq_true ⟨hcausal, hknown, hkind, htarget, hwindow⟩

/-- The references are all read: what is returned says whether one of them proves the target. -/
theorem collectEvidence_valid {window : Option (DateTime × DateTime)}
    {references : List ReportEvidenceReference} {collected collected' : AssocMap Uuid ReportEvidenceReference}
    (h : collectEvidence asOf targetId expectedKind window references collected = .ok (valid, collected')) :
    valid = references.any (proves asOf targetId expectedKind window) := by
  induction references generalizing collected valid with
  | nil =>
    cases h
    rfl
  | cons reference _ ih =>
    unfold collectEvidence at h
    rw [any_cons]
    by_cases hproves : proves asOf targetId expectedKind window reference
    · rw [if_pos hproves] at h
      simp only [eq_ok_iff] at h
      obtain ⟨_, _, ⟨_, _⟩, _, hresult⟩ := h
      cases hresult
      rw [hproves, Bool.true_or]
    · rw [if_neg hproves] at h
      rw [Bool.eq_false_iff.mpr hproves, Bool.false_or]
      exact ih h

variable [Sha256]

theorem projectPublication_tallies {branch' : OutcomeBranch} (hbranch : branch.Tallies cells)
    (h : projectPublication findingNamespace asOf revision branch target = .ok branch') :
    branch'.Tallies (cells ++ [publicationCell asOf target]) := by
  unfold projectPublication at h
  simp only [eq_ok_iff, not_or] at h
  obtain ⟨_, ⟨hnew, _⟩, ⟨_, _⟩, hvalid, _, _, _, _, rfl⟩ := h
  have hproved := collectEvidence_valid hvalid
  subst hproved
  exact hbranch.add hnew rfl rfl rfl

theorem projectMeasurement_tallies {branch branch' : MeasurementBranch} {target : ReportMeasurementTarget}
    (hbranch : branch.toOutcomeBranch.Tallies cells)
    (h : projectMeasurement findingNamespace asOf window revision branch target = .ok branch') :
    branch'.toOutcomeBranch.Tallies (cells ++ [measurementCell asOf window target]) := by
  unfold projectMeasurement at h
  simp only [eq_ok_iff, not_or] at h
  obtain ⟨_, ⟨hnew, _⟩, _, _, ⟨_, _⟩, hvalid, _, _, rfl⟩ := h
  have hproved := collectEvidence_valid hvalid
  subst hproved
  exact hbranch.add hnew rfl rfl rfl

/-! ### The statuses of a target -/

omit [Sha256] in
theorem publicationCell_status_ne (asOf : DateTime) (target : ReportPublicationTarget) :
    (publicationCell asOf target).status ≠ "unmaterialized" := by
  show countedPublication target _ ≠ _
  unfold countedPublication
  cases target.status <;> split_ifs <;> decide

omit [Sha256] in
theorem measurementCell_status_ne (asOf : DateTime) (window : DateTime × DateTime) (target : ReportMeasurementTarget) :
    (measurementCell asOf window target).status ≠ "unmaterialized" := by
  show countedMeasurement target _ ≠ _
  unfold countedMeasurement
  cases target.status <;> split_ifs <;> decide

omit [Sha256] in
theorem countedPublication_proved
    (h : countedPublication target valid = status) (houtcome : status = "verified" ∨ status = "published") :
    valid = true
      ∧ publicationKind target = if status = "verified" then "public_verification" else "publication_receipt" := by
  subst h
  unfold countedPublication publicationKind at *
  cases valid with
  | true => cases hstatus : target.status <;> simp [hstatus] at houtcome ⊢
  | false => cases hstatus : target.status <;> simp [hstatus] at houtcome

omit [Sha256] in
theorem countedMeasurement_proved {target : ReportMeasurementTarget}
    (houtcome : countedMeasurement target valid ∈ ["observed", "not_mentioned", "refused"]) : valid = true := by
  unfold countedMeasurement at houtcome
  cases valid with
  | true => rfl
  | false => cases hstatus : target.status <;> simp [hstatus] at houtcome

omit [Sha256] in
/-- A published or verified publication has a proof of its own, and of the kind its status asks for. -/
theorem publicationCell_proved
    (hstatus : (publicationCell asOf target).status = status) (houtcome : status = "verified" ∨ status = "published") :
    ∃ reference ∈ target.evidence,
      Proof asOf target.targetId (if status = "verified" then "public_verification" else "publication_receipt") none
        reference := by
  obtain ⟨hany, hkind⟩ := countedPublication_proved hstatus houtcome
  obtain ⟨reference, hmem, hproves⟩ := any_eq_true.mp hany
  rw [← hkind]
  exact ⟨reference, hmem, proves_iff.mp hproves⟩

omit [Sha256] in
/-- A sample that is counted by what it showed has an observation of its own from inside the window. -/
theorem measurementCell_proved {target : ReportMeasurementTarget}
    (houtcome : (measurementCell asOf window target).status ∈ ["observed", "not_mentioned", "refused"]) :
    ∃ reference ∈ target.evidence, Proof asOf target.targetId "observation" (some window) reference := by
  have hvalid := countedMeasurement_proved houtcome
  have hany := (Bool.and_eq_true_iff.mp hvalid).1
  obtain ⟨reference, hmem, hproves⟩ := any_eq_true.mp hany
  exact ⟨reference, hmem, proves_iff.mp hproves⟩

/-! ### A projection -/

/-- A branch that is available was given its targets, and it accounts for them. -/
theorem projectPublications_accounts {targets : Option (List ReportPublicationTarget)} {collected' : Collected} {coverage : ReportCoverage}
    (h : projectPublications findingNamespace asOf targets reference collected = .ok (coverage, groups, collected'))
    (havailable : coverage.availability = .available) :
    ∃ listed, targets = some listed
      ∧ BranchAccounts (listed.map (publicationCell asOf)) coverage (inKeyOrder groups) := by
  unfold projectPublications at h
  cases targets with
  | none =>
    cases reference with
    | none => cases h; cases havailable
    | some reference =>
      simp only at h
      split at h <;> cases h <;> cases havailable
  | some listed =>
    cases reference with
    | none => cases h; cases havailable
    | some reference =>
      simp only [eq_ok_iff, Nat.not_lt] at h
      obtain ⟨_, hle, branch, hfold, hresult⟩ := h
      cases hresult
      refine ⟨listed, rfl, ?_⟩
      have htally := foldlM_invariant (fun read branch => branch.Tallies (read.map (publicationCell asOf)))
        (OutcomeBranch.start_tallies collected)
        (fun read target branch branch' hbranch hstep => by
          rw [map_append]
          exact projectPublication_tallies hbranch hstep)
        hfold
      have hlength : listed.length = (listed.map (publicationCell asOf)).length := by simp
      rw [hlength] at hle ⊢
      refine htally.accounts hle ?_ htally.groups
      intro cell hcell
      obtain ⟨target, _, rfl⟩ := mem_map.mp hcell
      exact publicationCell_status_ne asOf target

omit [Sha256] in
/-- The planned denominator of a group changes nothing of what it counts. -/
theorem GroupAccount.close (h : GroupAccount cells group) : GroupAccount cells (closeGroup group) where
  observed := h.observed
  counts := h.counts

theorem projectMeasurements_accounts {targets : Option (List ReportMeasurementTarget)} {result : MeasurementResult}
    (h : projectMeasurements findingNamespace asOf window targets reference collected = .ok result)
    (havailable : result.coverage.availability = .available) :
    ∃ listed, targets = some listed
      ∧ BranchAccounts (listed.map (measurementCell asOf window)) result.coverage (inKeyOrder result.groups) := by
  unfold projectMeasurements at h
  cases targets with
  | none =>
    cases reference with
    | none => cases h; cases havailable
    | some reference =>
      simp only [pure_eq_ok] at h
      subst h
      split at havailable <;> cases havailable
  | some listed =>
    cases reference with
    | none => cases h; cases havailable
    | some reference =>
      simp only [eq_ok_iff, Nat.not_lt] at h
      obtain ⟨_, hle, branch, hfold, rfl⟩ := h
      refine ⟨listed, rfl, ?_⟩
      have htally := foldlM_invariant
        (fun read (branch : MeasurementBranch) =>
          branch.toOutcomeBranch.Tallies (read.map (measurementCell asOf window)))
        (OutcomeBranch.start_tallies collected)
        (fun read target branch branch' hbranch hstep => by
          rw [map_append]
          exact projectMeasurement_tallies hbranch hstep)
        hfold
      have hlength : listed.length = (listed.map (measurementCell asOf window)).length := by simp
      have hstatus : ∀ cell ∈ listed.map (measurementCell asOf window), cell.status ≠ "unmaterialized" := by
        intro cell hcell
        obtain ⟨target, _, rfl⟩ := mem_map.mp hcell
        exact measurementCell_status_ne asOf window target
      rw [hlength] at hle
      show BranchAccounts _ (outcomeCoverage _ listed.length branch.counts) _
      rw [hlength]
      apply htally.accounts hle hstatus
      split
      · exact htally.groups
      · exact htally.groups.mapValues closeGroup fun part group hpart => hpart.close

/-! ### From the canonical input to the input -/

omit [Sha256] in
/-- The order in which the targets are listed does not matter to the account of them. -/
theorem BranchAccounts.perm {cells' : List Cell} {coverage : ReportCoverage} {groups : List (String × ReportCoverage)}
    (h : BranchAccounts cells coverage groups) (hperm : cells.Perm cells') : BranchAccounts cells' coverage groups where
  distinct := (hperm.map Cell.targetId).nodup_iff.mp h.distinct
  observed := h.observed.trans hperm.length_eq
  expected := h.expected
  counted status hne := (h.counted status hne).trans (hperm.countP_eq _)
  unmaterialized := h.unmaterialized
  groupKeys := h.groupKeys
  grouped key := by
    rw [h.grouped key]
    simp only [hperm.mem_iff]
  groupObserved e he := (h.groupObserved e he).trans (hperm.countP_eq _)
  groupCounted e he status := (h.groupCounted e he status).trans (hperm.countP_eq _)
  observedSum := h.observedSum
  countedSum := h.countedSum

omit [Sha256] in
theorem sortByKey_perm {α κ : Type} [LE κ] [DecidableLE κ] (key : α → κ) (l : List α) : (sortByKey key l).Perm l :=
  perm_insertionSort _ _

omit [Sha256] in
/-- Whether some reference proves a target does not depend on their order. -/
theorem any_sortEvidence (test : ReportEvidenceReference → Bool)
    (evidence : List ReportEvidenceReference) : (sortEvidence evidence).any test = evidence.any test := by
  have hperm : (sortEvidence evidence).Perm evidence := sortByKey_perm _ evidence
  rw [Bool.eq_iff_iff, List.any_eq_true, List.any_eq_true]
  simp only [hperm.mem_iff]

omit [Sha256] in
theorem publicationCell_canonical (asOf : DateTime) (target : ReportPublicationTarget) :
    publicationCell asOf target.canonical = publicationCell asOf target := by
  show Cell.mk _ _ (countedPublication target.canonical ((sortEvidence target.evidence).any _)) = _
  rw [any_sortEvidence]
  rfl

omit [Sha256] in
theorem measurementCell_canonical (asOf : DateTime) (window : DateTime × DateTime) (target : ReportMeasurementTarget) :
    measurementCell asOf window target.canonical = measurementCell asOf window target := by
  show Cell.mk _ _ (countedMeasurement target.canonical ((sortEvidence target.evidence).any _ && _)) = _
  rw [any_sortEvidence]
  rfl

/-! ### The account of a report -/

/-- What a projection tells about its input. -/
structure ReportExact (input : ReportReduceInput) (projection : ReportProjection) : Prop where
  publications : projection.publications.availability = .available →
    ∃ targets, input.publicationTargets = some targets
      ∧ BranchAccounts (targets.map (publicationCell projection.evidenceAsOf)) projection.publications
          (projection.publicationGroups.map fun group => (group.platformId, group.coverage))
  measurements : projection.measurements.availability = .available →
    ∃ targets, input.measurementTargets = some targets
      ∧ BranchAccounts (targets.map (measurementCell projection.evidenceAsOf input.window)) projection.measurements
          (projection.measurementGroups.map fun group => (group.comparisonKey, group.coverage))
  published : ∀ targets ∈ input.publicationTargets, ∀ target ∈ targets, ∀ status,
    (publicationCell projection.evidenceAsOf target).status = status →
    status = "verified" ∨ status = "published" →
      ∃ reference ∈ target.evidence,
        Proof projection.evidenceAsOf target.targetId
          (if status = "verified" then "public_verification" else "publication_receipt") none reference
  measured : ∀ targets ∈ input.measurementTargets, ∀ target ∈ targets,
    (measurementCell projection.evidenceAsOf input.window target).status ∈ ["observed", "not_mentioned", "refused"] →
      ∃ reference ∈ target.evidence,
        Proof projection.evidenceAsOf target.targetId "observation" (some input.window) reference
  complete : projection.status = .complete →
    (∀ coverage ∈ [projection.documents, projection.publications, projection.measurements],
      coverage.availability = .available ∧ coverage.expectedCount = some coverage.observedCount)
    ∧ (∀ status ∈ documentGaps, projection.documents.countOf status = 0)
    ∧ (∀ status ∈ publicationGaps, projection.publications.countOf status = 0)
    ∧ ∀ status ∈ measurementGaps, projection.measurements.countOf status = 0

omit [Sha256] in
theorem ReportCoverage.countOf_of_without {coverage : ReportCoverage} {statuses : List String}
    (h : coverage.without statuses = true) : ∀ status ∈ statuses, coverage.countOf status = 0 := by
  intro status hmem
  have habsent := of_decide_eq_true (all_eq_true.mp h status hmem)
  rw [ReportCoverage.countOf, AList.lookup_eq_none.mpr habsent]
  rfl

omit [Sha256] in
theorem ReportBranches.complete_counts {verified : Bool} (h : branches.complete verified = true) :
    (∀ coverage ∈ [branches.documents, branches.publications, branches.measurements.coverage],
      coverage.availability = .available ∧ coverage.expectedCount = some coverage.observedCount)
    ∧ (∀ status ∈ documentGaps, branches.documents.countOf status = 0)
    ∧ (∀ status ∈ publicationGaps, branches.publications.countOf status = 0)
    ∧ ∀ status ∈ measurementGaps, branches.measurements.coverage.countOf status = 0 := by
  obtain ⟨hdocuments, hpublications, hmeasurements, _, hdocs, hpubs, hmeasured⟩ := of_decide_eq_true h
  refine ⟨?_, ReportCoverage.countOf_of_without hdocs, ReportCoverage.countOf_of_without hpubs,
    ReportCoverage.countOf_of_without hmeasured⟩
  simp only [List.forall_mem_cons, List.not_mem_nil, false_imp_iff, implies_true, and_true]
  exact ⟨of_decide_eq_true hdocuments, of_decide_eq_true hpublications, of_decide_eq_true hmeasurements⟩

theorem projectBranches_accounts {canonical : ReportReduceInput}
    (h : projectBranches findingNamespace asOf canonical = .ok branches) :
    (branches.publications.availability = .available →
      ∃ listed, canonical.publicationTargets = some listed
        ∧ BranchAccounts (listed.map (publicationCell asOf)) branches.publications
            (inKeyOrder branches.publicationGroups))
    ∧ (branches.measurements.coverage.availability = .available →
      ∃ listed, canonical.measurementTargets = some listed
        ∧ BranchAccounts (listed.map (measurementCell asOf canonical.window))
            branches.measurements.coverage (inKeyOrder branches.measurements.groups)) := by
  unfold projectBranches at h
  simp only [eq_ok_iff] at h
  obtain ⟨_, _, _, _, ⟨_, _⟩, _, ⟨_, _, _⟩, hpublications, _, hmeasurements, rfl⟩ := h
  exact ⟨projectPublications_accounts hpublications, projectMeasurements_accounts hmeasurements⟩

variable [InstantJson] [InstantDisplay]

/-- A projection is the record of branches that were projected from the canonical input. -/
theorem projectReport_branches {scope : TenantScope} {input : ReportReduceInput} {now : DateTime}
    {mode : ProjectionMode} {projection : ReportProjection}
    (h : projectReport scope input now mode = .ok projection) :
    ∃ names branches,
      projectBranches names (evidenceAsOf input now mode) input.canonical = .ok branches
        ∧ projection = branches.projection names (evidenceAsOf input now mode) mode input.canonical := by
  unfold projectReport at h
  simp only [eq_ok_iff] at h
  obtain ⟨_, _, branches, hbranches, _, _, rfl⟩ := h
  exact ⟨_, branches, hbranches, rfl⟩

theorem projectReport_exact (scope : TenantScope) (input : ReportReduceInput) (now : DateTime)
    (mode : ProjectionMode) (projection : ReportProjection)
    (h : projectReport scope input now mode = .ok projection) : ReportExact input projection := by
  obtain ⟨names, branches, hbranches, rfl⟩ := projectReport_branches h
  obtain ⟨hpublications, hmeasurements⟩ := projectBranches_accounts hbranches
  constructor
  case publications =>
    intro havailable
    obtain ⟨_, hlisted, haccounts⟩ := hpublications havailable
    obtain ⟨targets, htargets, rfl⟩ := Option.map_eq_some_iff.mp hlisted
    refine ⟨targets, htargets, ?_⟩
    have hgroups : ((inKeyOrder branches.publicationGroups).map fun e =>
          (⟨e.1, e.2⟩ : ReportPublicationGroup)).map (fun group => (group.platformId, group.coverage))
        = inKeyOrder branches.publicationGroups := by
      rw [List.map_map]
      exact map_id _
    show BranchAccounts _ _ (((inKeyOrder branches.publicationGroups).map _).map _)
    rw [hgroups]
    apply haccounts.perm
    rw [List.map_map]
    have hsame : publicationCell (evidenceAsOf input now mode) ∘ ReportPublicationTarget.canonical
        = publicationCell (evidenceAsOf input now mode) :=
      funext (publicationCell_canonical _)
    rw [hsame]
    exact (sortByKey_perm _ targets).map _
  case measurements =>
    intro havailable
    obtain ⟨_, hlisted, haccounts⟩ := hmeasurements havailable
    obtain ⟨targets, htargets, rfl⟩ := Option.map_eq_some_iff.mp hlisted
    refine ⟨targets, htargets, ?_⟩
    have hgroups : ((inKeyOrder branches.measurements.groups).map fun e =>
          (⟨e.1, (branches.measurements.purposes.lookup e.1).join, e.2⟩ :
            ReportMeasurementGroup)).map (fun group => (group.comparisonKey, group.coverage))
        = inKeyOrder branches.measurements.groups := by
      rw [List.map_map]
      exact map_id _
    show BranchAccounts _ _ (((inKeyOrder branches.measurements.groups).map _).map _)
    rw [hgroups]
    apply haccounts.perm
    rw [List.map_map]
    have hsame : measurementCell (evidenceAsOf input now mode) input.window ∘ ReportMeasurementTarget.canonical
        = measurementCell (evidenceAsOf input now mode) input.window :=
      funext (measurementCell_canonical _ _)
    show ((sortByKey _ targets).map (measurementCell _ input.window ∘ _)).Perm _
    rw [hsame]
    exact (sortByKey_perm _ targets).map _
  case published =>
    intro _ _ _ _ _ hstatus houtcome
    exact publicationCell_proved hstatus houtcome
  case measured =>
    intro _ _ _ _ houtcome
    exact measurementCell_proved houtcome
  case complete =>
    intro hcomplete
    apply ReportBranches.complete_counts
    by_contra hno
    have hgaps : (branches.projection names (evidenceAsOf input now mode) mode
        input.canonical).status = .partialCoverage := if_neg hno
    rw [hgaps] at hcomplete
    cases hcomplete

omit [Sha256] [InstantJson] [InstantDisplay]

open Sample in
theorem projectReport_exact_sample :
    ∃ projection,
      @projectReport secureHash secondJson secondDisplay scope reportInput (second 7)
          (.official 1 none) = .ok projection
        ∧ ReportExact reportInput projection := by
  have hok : (@projectReport secureHash secondJson secondDisplay scope reportInput (second 7)
      (.official 1 none)).isOk = true := by decide +kernel
  cases h : @projectReport secureHash secondJson secondDisplay scope reportInput (second 7) (.official 1 none) with
  | ok projection =>
    exact ⟨projection, rfl, @projectReport_exact secureHash secondJson secondDisplay _ _ _ _ projection h⟩
  | error e =>
    rw [h] at hok
    cases hok

end GeoMaster
