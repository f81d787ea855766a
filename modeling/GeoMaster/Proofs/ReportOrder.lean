import GeoMaster.Proofs.ReportAccounting
import GeoMaster.Lib.Sorting

/-!
# What a report depends on

Three results about what can be read off a report. The order of the input does not show: the canonical input of
two orders is one. Evidence that was received too late does not show either, except in the hash of the input: it
proves nothing, so it is never recorded, so it is never cited. And the official report and the preview count alike
where they take evidence up to the same time, as they differ in their findings only.
-/

namespace GeoMaster

open Except List ReportEvidenceReference Collected

/-! ### Sorting by a key -/

instance : Std.Total (fun a b : Uuid => a ≤ b) where
  total a b := by
    show a.bits ≤ b.bits ∨ b.bits ≤ a.bits
    bv_omega

instance : IsTrans Uuid (fun a b => a ≤ b) where
  trans a b c hab hbc := by
    have hab : a.bits ≤ b.bits := hab
    have hbc : b.bits ≤ c.bits := hbc
    show a.bits ≤ c.bits
    bv_omega

instance : Std.Antisymm (fun a b : Uuid => a ≤ b) where
  antisymm a b hab hba := by
    have hab : a.bits ≤ b.bits := hab
    have hba : b.bits ≤ a.bits := hba
    have hbits : a.bits = b.bits := by bv_omega
    cases a
    cases b
    exact congrArg Uuid.mk hbits

section SortByKey

variable {α κ : Type} [LE κ] [DecidableLE κ] [Std.Total (fun a b : κ => a ≤ b)] [IsTrans κ (fun a b => a ≤ b)]

instance keyTotal (key : α → κ) : Std.Total (fun a b : α => key a ≤ key b) where
  total a b := Std.Total.total (r := fun a b : κ => a ≤ b) (key a) (key b)

instance keyTrans (key : α → κ) : IsTrans α (fun a b => key a ≤ key b) where
  trans a b c hab hbc := IsTrans.trans (r := fun a b : κ => a ≤ b) (key a) (key b) (key c) hab hbc

theorem filter_sortByKey (key : α → κ) (p : α → Bool) (l : List α) :
    (sortByKey key l).filter p = sortByKey key (l.filter p) :=
  Sorting.filter_insertionSort p l

omit [Std.Total (fun a b : κ => a ≤ b)] [IsTrans κ (fun a b => a ≤ b)] in
theorem map_sortByKey {key : α → κ} {f : α → α} (hf : ∀ a, key (f a) = key a) (l : List α) :
    (sortByKey key l).map f = sortByKey key (l.map f) := by
  unfold sortByKey
  apply map_insertionSort
  intro a _ b _
  rw [hf a, hf b]

theorem sortByKey_eq_of_perm [Std.Antisymm (fun a b : κ => a ≤ b)] {key : α → κ} {l l' : List α}
    (h : l.Perm l') (hkeys : (l.map key).Nodup) : sortByKey key l = sortByKey key l' := by
  apply Sorting.insertionSort_eq_of_perm h
  intro a ha b hb hab hba
  have hkey : key a = key b := Std.Antisymm.antisymm (r := fun a b : κ => a ≤ b) (key a) (key b) hab hba
  exact inj_on_of_nodup_map hkeys ha hb hkey

end SortByKey

/-! ### Reordering the input -/

/-- The same elements in another order, each of them changed by a relation. -/
def Shuffled {α : Type} (R : α → α → Prop) (l l' : List α) : Prop :=
  ∃ moved, l.Perm moved ∧ List.Forall₂ R moved l'

/-- The same document manifest, its items in another order. -/
structure DocumentManifest.Reordered (docs docs' : DocumentManifest) : Prop where
  same : docs' = { docs with items := docs'.items }
  items : docs.items.Perm docs'.items

/-- The same target, its evidence in another order. -/
structure ReportPublicationTarget.Reordered (target target' : ReportPublicationTarget) : Prop where
  same : target' = { target with evidence := target'.evidence }
  evidence : target.evidence.Perm target'.evidence

structure ReportMeasurementTarget.Reordered (target target' : ReportMeasurementTarget) : Prop where
  same : target' = { target with evidence := target'.evidence }
  evidence : target.evidence.Perm target'.evidence

/-- The same input, its lists in another order. -/
structure ReportReduceInput.Reordered (input input' : ReportReduceInput) : Prop where
  same : input' =
    { input with
      inputManifestVersions := input'.inputManifestVersions
      documentManifest := input'.documentManifest
      publicationTargets := input'.publicationTargets
      measurementTargets := input'.measurementTargets
      supplementaryMeasurements := input'.supplementaryMeasurements }
  manifests : input.inputManifestVersions.Perm input'.inputManifestVersions
  documents : Option.Rel DocumentManifest.Reordered input.documentManifest input'.documentManifest
  publications :
    Option.Rel (Shuffled ReportPublicationTarget.Reordered) input.publicationTargets input'.publicationTargets
  measurements :
    Option.Rel (Shuffled ReportMeasurementTarget.Reordered) input.measurementTargets input'.measurementTargets
  supplements : input.supplementaryMeasurements.Perm input'.supplementaryMeasurements

/-- Within each list the identifiers are distinct. The keys of references and of supplements consist of several
identifiers and need to be distinct as a whole only. -/
structure ReportReduceInput.DistinctIds (input : ReportReduceInput) : Prop where
  manifests : (input.inputManifestVersions.map ReportManifestRef.sortKey).Nodup
  documents : ∀ docs ∈ input.documentManifest, (docs.items.map DocumentManifestItem.documentManifestItemId).Nodup
  publications : ∀ targets ∈ input.publicationTargets,
    (targets.map ReportPublicationTarget.targetId).Nodup ∧ ∀ target ∈ targets, (target.evidence.map evidenceId).Nodup
  measurements : ∀ targets ∈ input.measurementTargets,
    (targets.map ReportMeasurementTarget.targetId).Nodup ∧ ∀ target ∈ targets, (target.evidence.map evidenceId).Nodup
  supplements : (input.supplementaryMeasurements.map ReportSupplementaryMeasurement.sortKey).Nodup

theorem sortEvidence_eq_of_perm {evidence evidence' : List ReportEvidenceReference} (h : evidence.Perm evidence')
    (hids : (evidence.map evidenceId).Nodup) : sortEvidence evidence = sortEvidence evidence' :=
  sortByKey_eq_of_perm h hids

theorem DocumentManifest.Reordered.canonical_eq {docs docs' : DocumentManifest} (h : docs.Reordered docs')
    (hids : (docs.items.map DocumentManifestItem.documentManifestItemId).Nodup) : docs.canonical = docs'.canonical := by
  rw [h.same]
  unfold DocumentManifest.canonical
  rw [sortByKey_eq_of_perm h.items hids]

theorem ReportPublicationTarget.Reordered.canonical_eq {target target' : ReportPublicationTarget}
    (h : target.Reordered target') (hids : (target.evidence.map evidenceId).Nodup) :
    target.canonical = target'.canonical := by
  rw [h.same]
  unfold ReportPublicationTarget.canonical
  rw [sortEvidence_eq_of_perm h.evidence hids]

theorem ReportMeasurementTarget.Reordered.canonical_eq {target target' : ReportMeasurementTarget}
    (h : target.Reordered target') (hids : (target.evidence.map evidenceId).Nodup) :
    target.canonical = target'.canonical := by
  rw [h.same]
  unfold ReportMeasurementTarget.canonical
  rw [sortEvidence_eq_of_perm h.evidence hids]

/-- A list is sorted and made canonical element by element, so a shuffled list has the same canonical form. -/
theorem Shuffled.canonical_eq {α : Type} {R : α → α → Prop} {key : α → Uuid} {canonical : α → α} {l l' : List α}
    (h : Shuffled R l l') (hids : (l.map key).Nodup) (hkey : ∀ a, key (canonical a) = key a)
    (helement : ∀ a ∈ l, ∀ b, R a b → canonical a = canonical b) :
    (sortByKey key l).map canonical = (sortByKey key l').map canonical := by
  obtain ⟨moved, hperm, hrelated⟩ := h
  rw [sortByKey_eq_of_perm hperm hids, map_sortByKey hkey, map_sortByKey hkey]
  congr 1
  have hmoved : ∀ a ∈ moved, ∀ b, R a b → canonical a = canonical b := by
    intro a ha
    exact helement a (hperm.mem_iff.mpr ha)
  clear hperm hids
  induction hrelated with
  | nil => rfl
  | cons hab _ ih =>
    rw [map_cons, map_cons, hmoved _ mem_cons_self _ hab, ih fun a ha => hmoved a (mem_cons_of_mem _ ha)]

/-- Options that are related are changed alike by what does not see the difference. -/
theorem map_eq_of_rel {α β : Type} {R : α → α → Prop} {f : α → β} {o o' : Option α}
    (h : Option.Rel R o o') (hf : ∀ a ∈ o, ∀ b, R a b → f a = f b) : o.map f = o'.map f := by
  cases h with
  | none => rfl
  | some hab => exact congrArg some (hf _ rfl _ hab)

theorem ReportReduceInput.Reordered.canonical_eq {input input' : ReportReduceInput} (h : input.Reordered input')
    (hids : input.DistinctIds) : input.canonical = input'.canonical := by
  have hdocuments : input.documentManifest.map DocumentManifest.canonical
      = input'.documentManifest.map DocumentManifest.canonical :=
    map_eq_of_rel h.documents fun docs hdocs _ hrel => hrel.canonical_eq (hids.documents docs hdocs)
  have hpublications : (input.publicationTargets.map fun targets =>
        (sortByKey ReportPublicationTarget.targetId targets).map ReportPublicationTarget.canonical)
      = input'.publicationTargets.map fun targets =>
        (sortByKey ReportPublicationTarget.targetId targets).map ReportPublicationTarget.canonical := by
    apply map_eq_of_rel h.publications
    intro targets htargets _ hrel
    obtain ⟨hdistinct, hevidence⟩ := hids.publications targets htargets
    exact hrel.canonical_eq hdistinct (fun _ => rfl) fun target hmem _ hsame =>
      hsame.canonical_eq (hevidence target hmem)
  have hmeasurements : (input.measurementTargets.map fun targets =>
        (sortByKey ReportMeasurementTarget.targetId targets).map ReportMeasurementTarget.canonical)
      = input'.measurementTargets.map fun targets =>
        (sortByKey ReportMeasurementTarget.targetId targets).map ReportMeasurementTarget.canonical := by
    apply map_eq_of_rel h.measurements
    intro targets htargets _ hrel
    obtain ⟨hdistinct, hevidence⟩ := hids.measurements targets htargets
    exact hrel.canonical_eq hdistinct (fun _ => rfl) fun target hmem _ hsame =>
      hsame.canonical_eq (hevidence target hmem)
  rw [h.same]
  unfold ReportReduceInput.canonical
  rw [hdocuments, hpublications, hmeasurements, sortByKey_eq_of_perm h.manifests hids.manifests,
    sortByKey_eq_of_perm h.supplements hids.supplements]

section Reordered

variable [Sha256] [InstantJson] [InstantDisplay]

variable {input input' : ReportReduceInput}

theorem projectReport_reordered (h : input.Reordered input')
    (hids : input.DistinctIds) (scope : TenantScope) (now : DateTime) (mode : ProjectionMode) :
    projectReport scope input' now mode = projectReport scope input now mode := by
  unfold projectReport checkReportInput
  rw [← h.canonical_eq hids, h.same]
  rfl

/-- The order of the input changes neither a report nor a preview. -/
theorem reports_reordered (h : input.Reordered input')
    (hids : input.DistinctIds) (scope : TenantScope) (now : DateTime) :
    (∀ revision correctionOf,
      reduceReport scope input' revision correctionOf now = reduceReport scope input revision correctionOf now)
    ∧ previewReport scope input' now = previewReport scope input now := by
  unfold reduceReport previewReport
  rw [projectReport_reordered h hids]
  simp only [projectReport_reordered h hids]
  rw [h.same]
  exact ⟨fun _ _ => rfl, rfl⟩

end Reordered

/-! ### Names do not count -/

theorem Collected.evidence_ite (c : Prop) [Decidable c] (collected : Collected) (finding : ReportFinding) :
    (if c then collected else collected.addFinding finding).evidence = collected.evidence := by
  split_ifs <;> rfl

theorem Collected.evidence_ite' (c : Prop) [Decidable c] (collected : Collected) (finding : ReportFinding) :
    (if c then collected.addFinding finding else collected).evidence = collected.evidence := by
  split_ifs <;> rfl

/-- Two states of the document branch that differ in their findings only. -/
structure DocumentBranch.Alike (branch branch' : DocumentBranch) : Prop where
  ids : branch.ids = branch'.ids
  counts : branch.counts = branch'.counts
  evidence : branch.collected.evidence = branch'.collected.evidence

/-- Two states of an outcome branch that differ in their findings only. -/
structure OutcomeBranch.Alike (branch branch' : OutcomeBranch) : Prop where
  ids : branch.ids = branch'.ids
  counts : branch.counts = branch'.counts
  groups : branch.groups = branch'.groups
  evidence : branch.collected.evidence = branch'.collected.evidence

structure MeasurementBranch.Alike (branch branch' : MeasurementBranch) : Prop where
  outcome : branch.toOutcomeBranch.Alike branch'.toOutcomeBranch
  purposes : branch.purposes = branch'.purposes

section Names

variable [Sha256] (names names' : Uuid)

theorem projectDocument_alike (docs : DocumentManifest) (branch branch' : DocumentBranch)
    (item : DocumentManifestItem) (h : branch.Alike branch') :
    Except.Agree DocumentBranch.Alike (projectDocument names docs branch item)
      (projectDocument names' docs branch' item) := by
  unfold projectDocument
  rw [h.ids, h.counts, h.evidence]
  apply Except.Agree.bindSame
  intro _
  apply Except.Agree.bindSame
  intro _
  apply Except.Agree.bindSame
  intro evidence
  refine Except.Agree.ok ⟨rfl, rfl, ?_⟩
  rw [evidence_ite, evidence_ite]

theorem projectPublication_alike (asOf : DateTime) (revision : Int) (branch branch' : OutcomeBranch)
    (target : ReportPublicationTarget) (h : branch.Alike branch') :
    Except.Agree OutcomeBranch.Alike (projectPublication names asOf revision branch target)
      (projectPublication names' asOf revision branch' target) := by
  unfold projectPublication
  rw [h.ids, h.counts, h.groups, h.evidence]
  apply Except.Agree.bindSame
  intro _
  apply Except.Agree.bindSame
  rintro ⟨_, _⟩
  apply Except.Agree.bindSame
  intro evidence
  simp only [evidence_ite]
  apply Except.Agree.bindSame
  intro evidence'
  refine Except.Agree.ok ⟨rfl, rfl, rfl, ?_⟩
  rw [evidence_ite', evidence_ite']

theorem projectMeasurement_alike (asOf : DateTime) (window : DateTime × DateTime) (revision : Int)
    (branch branch' : MeasurementBranch) (target : ReportMeasurementTarget) (h : branch.Alike branch') :
    Except.Agree MeasurementBranch.Alike (projectMeasurement names asOf window revision branch target)
      (projectMeasurement names' asOf window revision branch' target) := by
  unfold projectMeasurement
  rw [h.outcome.ids, h.outcome.counts, h.outcome.groups, h.outcome.evidence, h.purposes]
  apply Except.Agree.bindSame
  intro _
  apply Except.Agree.bindSame
  intro _
  apply Except.Agree.bindSame
  rintro ⟨_, _⟩
  apply Except.Agree.bindSame
  intro evidence
  refine Except.Agree.ok ⟨⟨rfl, rfl, rfl, ?_⟩, rfl⟩
  rw [evidence_ite', evidence_ite']

/-- Two branches whose results differ in their findings only. -/
structure ReportBranches.Alike (branches branches' : ReportBranches) : Prop where
  documents : branches.documents = branches'.documents
  publications : branches.publications = branches'.publications
  publicationGroups : branches.publicationGroups = branches'.publicationGroups
  measurements : branches.measurements.coverage = branches'.measurements.coverage
  measurementGroups : branches.measurements.groups = branches'.measurements.groups
  purposes : branches.measurements.purposes = branches'.measurements.purposes
  evidence : branches.evidence = branches'.evidence
  supplements : branches.supplements = branches'.supplements

variable {collected collected' : Collected} {branches : ReportBranches} {input : ReportReduceInput}
  {scope : TenantScope} {now : DateTime}

theorem projectDocuments_alike (docs : Option DocumentManifest) (reference : Option ReportManifestRef) (h : collected.evidence = collected'.evidence) :
    Except.Agree (fun a b => a.1 = b.1 ∧ a.2.evidence = b.2.evidence)
      (projectDocuments names docs reference collected) (projectDocuments names' docs reference collected') := by
  unfold projectDocuments
  cases docs with
  | none =>
    cases reference with
    | none => exact .ok ⟨rfl, h⟩
    | some reference =>
      simp only
      split_ifs <;> exact .ok ⟨rfl, h⟩
  | some docs =>
    cases reference with
    | none => exact .ok ⟨rfl, h⟩
    | some reference =>
      simp only
      split_ifs
      · refine Except.Agree.bind (Except.Agree.foldlM (projectDocument_alike names names' docs) ?start docs.items) ?next
        case start => exact ⟨rfl, rfl, h⟩
        case next =>
          intro branch branch' hbranch
          apply Except.Agree.bindSame
          intro _
          rw [hbranch.counts]
          exact .ok ⟨rfl, hbranch.evidence⟩
      all_goals exact .ok ⟨rfl, h⟩

theorem projectPublications_alike (asOf : DateTime) (targets : Option (List ReportPublicationTarget))
    (reference : Option ReportManifestRef) (h : collected.evidence = collected'.evidence) :
    Except.Agree (fun a b => a.1 = b.1 ∧ a.2.1 = b.2.1 ∧ a.2.2.evidence = b.2.2.evidence)
      (projectPublications names asOf targets reference collected)
      (projectPublications names' asOf targets reference collected') := by
  unfold projectPublications
  cases targets with
  | none =>
    cases reference with
    | none => exact .ok ⟨rfl, rfl, h⟩
    | some reference =>
      simp only
      split_ifs <;> exact .ok ⟨rfl, rfl, h⟩
  | some targets =>
    cases reference with
    | none => exact .ok ⟨rfl, rfl, h⟩
    | some reference =>
      simp only
      apply Except.Agree.bindSame
      intro _
      refine Except.Agree.bind
        (Except.Agree.foldlM (projectPublication_alike names names' asOf reference.revision) ?start targets) ?next
      case start => exact ⟨rfl, rfl, rfl, h⟩
      case next =>
        intro branch branch' hbranch
        rw [hbranch.counts, hbranch.groups]
        exact .ok ⟨rfl, rfl, hbranch.evidence⟩

theorem projectMeasurements_alike (asOf : DateTime) (window : DateTime × DateTime)
    (targets : Option (List ReportMeasurementTarget)) (reference : Option ReportManifestRef) (h : collected.evidence = collected'.evidence) :
    Except.Agree
      (fun a b => a.coverage = b.coverage ∧ a.groups = b.groups ∧ a.purposes = b.purposes
        ∧ a.collected.evidence = b.collected.evidence)
      (projectMeasurements names asOf window targets reference collected)
      (projectMeasurements names' asOf window targets reference collected') := by
  unfold projectMeasurements
  cases targets with
  | none =>
    cases reference with
    | none => exact .ok ⟨rfl, rfl, rfl, h⟩
    | some reference => exact .ok ⟨rfl, rfl, rfl, h⟩
  | some targets =>
    cases reference with
    | none => exact .ok ⟨rfl, rfl, rfl, h⟩
    | some reference =>
      simp only
      apply Except.Agree.bindSame
      intro _
      refine Except.Agree.bind
        (Except.Agree.foldlM (projectMeasurement_alike names names' asOf window reference.revision)
          ?start targets) ?next
      case start => exact ⟨⟨rfl, rfl, rfl, h⟩, rfl⟩
      case next =>
        intro branch branch' hbranch
        rw [hbranch.outcome.counts, hbranch.outcome.groups, hbranch.purposes]
        exact .ok ⟨rfl, rfl, rfl, hbranch.outcome.evidence⟩

theorem projectBranches_alike (asOf : DateTime) (canonical : ReportReduceInput) :
    Except.Agree ReportBranches.Alike (projectBranches names asOf canonical)
      (projectBranches names' asOf canonical) := by
  unfold projectBranches
  apply Except.Agree.bindSame
  intro supplements
  apply Except.Agree.bindSame
  intro evidence
  refine Except.Agree.bind (projectDocuments_alike names names' _ _ rfl) ?_
  rintro ⟨_, collected⟩ ⟨_, collected'⟩ ⟨hdocuments, hcollected⟩
  refine Except.Agree.bind (projectPublications_alike names names' asOf _ _ hcollected) ?_
  rintro ⟨_, _, _⟩ ⟨_, _, _⟩ ⟨hpublications, hgroups, hcollected⟩
  refine Except.Agree.bind (projectMeasurements_alike names names' asOf _ _ _ hcollected) ?_
  rintro measurements measurements' ⟨hcoverage, hmeasured, hpurposes, hevidence⟩
  exact .ok ⟨hdocuments, hpublications, hgroups, hcoverage, hmeasured, hpurposes, hevidence, rfl⟩

/-! ### The report and the preview -/

omit [Sha256] in
theorem ReportBranches.Alike.complete {branches' : ReportBranches} (h : branches.Alike branches') (verified : Bool) :
    branches.complete verified = branches'.complete verified := by
  unfold ReportBranches.complete
  rw [h.documents, h.publications, h.measurements]

/-- A report and a preview that count alike. -/
structure CountAlike (report : ReportSnapshot) (preview : ReportPreview) : Prop where
  evidenceAsOf : report.evidenceAsOf = preview.evidenceAsOf
  inputHash : report.inputHash = preview.inputHash
  status : report.status = preview.status
  documents : report.documents = preview.documents
  publications : report.publications = preview.publications
  measurements : report.measurements = preview.measurements
  publicationGroups : report.publicationGroups = preview.publicationGroups
  measurementGroups : report.measurementGroups = preview.measurementGroups
  evidence : report.evidence = preview.evidence
  supplements : report.supplementaryMeasurements = preview.supplementaryMeasurements

omit [Sha256] in
theorem checkReportInput_preview {mode : ProjectionMode} (h : checkReportInput scope input mode = .ok ()) :
    checkReportInput scope input .preview = .ok () := by
  unfold checkReportInput checkReportWindow at h ⊢
  simp only [eq_ok_iff, not_or] at h ⊢
  obtain ⟨_, hscope, _, ⟨hwindow, hcutoff, _, htimezone⟩, hrest⟩ := h
  exact ⟨(), hscope, (), ⟨hwindow, hcutoff, Bool.false_ne_true, htimezone⟩, hrest⟩

variable [InstantJson] [InstantDisplay]

omit names names' in
/-- A preview is the record of its branches: there is no cutoff it has to wait for. -/
theorem previewReport_eq_ok (hcheck : checkReportInput scope input .preview = .ok ())
    (hbranches : projectBranches (findingNamespace scope input input.canonical now .preview)
      (evidenceAsOf input now .preview) input.canonical = .ok branches) :
    previewReport scope input now
      = .ok
        ((branches.projection (findingNamespace scope input input.canonical now .preview)
          (evidenceAsOf input now .preview) .preview input.canonical).preview input now) := by
  unfold previewReport projectReport
  simp only [eq_ok_iff]
  exact ⟨_, ⟨(), hcheck, branches, hbranches, (), fun hofficial => Bool.false_ne_true hofficial.1, rfl⟩, rfl⟩

omit names names' in
/-- Where there is an official report, there is a preview with evidence up to the same time, and they count
alike. -/
theorem previewReport_of_reduceReport
    {revision : Nat} {correctionOf : Option Uuid} {now' : DateTime} {report : ReportSnapshot}
    (h : reduceReport scope input revision correctionOf now = .ok report)
    (hasOf : evidenceAsOf input now (.official revision correctionOf) = evidenceAsOf input now' .preview) :
    ∃ preview, previewReport scope input now' = .ok preview ∧ CountAlike report preview := by
  unfold reduceReport projectReport at h
  simp only [eq_ok_iff] at h
  obtain ⟨_, ⟨_, hcheck, branches, hbranches, _, _, rfl⟩, rfl⟩ := h
  rw [hasOf] at hbranches
  obtain ⟨branches', hbranches', halike⟩ :=
    (projectBranches_alike _ (findingNamespace scope input input.canonical now' .preview) _
      input.canonical).returns hbranches
  have hpreview := previewReport_eq_ok (checkReportInput_preview hcheck) hbranches'
  refine ⟨_, hpreview, ?_⟩
  constructor
  case evidenceAsOf => exact hasOf
  case inputHash => rfl
  case status =>
    show (if branches.complete _ then _ else _) = if branches'.complete _ then _ else _
    rw [halike.complete]
  case documents => exact halike.documents
  case publications => exact halike.publications
  case measurements => exact halike.measurements
  case publicationGroups =>
    show (inKeyOrder branches.publicationGroups).map _ = (inKeyOrder branches'.publicationGroups).map _
    rw [halike.publicationGroups]
  case measurementGroups =>
    show (inKeyOrder branches.measurements.groups).map _ = (inKeyOrder branches'.measurements.groups).map _
    rw [halike.measurementGroups, halike.purposes]
  case evidence =>
    show (inKeyOrder branches.evidence).map _ = (inKeyOrder branches'.evidence).map _
    rw [halike.evidence]
  case supplements =>
    show (inKeyOrder branches.supplements).map _ = (inKeyOrder branches'.supplements).map _
    rw [halike.supplements]

end Names

end GeoMaster
