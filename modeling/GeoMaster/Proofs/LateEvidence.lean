import GeoMaster.Proofs.ReportOrder

/-!
# Late evidence

Evidence that was received after the time of a report can be taken out of the input without a change to the
report. It proves nothing, so it is not recorded; and as its identifiers are used nowhere else, none of them is
among the recorded ones, `Clean`, which is what the citations of a finding are chosen from.
-/

namespace GeoMaster

open Except AssocMap List Collected

/-! ### Taking evidence out -/

/-- The references that are not under the given identifiers. -/
def keptEvidence (gone : Uuid → Bool) (evidence : List ReportEvidenceReference) : List ReportEvidenceReference :=
  evidence.filter fun reference => ! gone reference.evidenceId

def ReportPublicationTarget.without (gone : Uuid → Bool) (target : ReportPublicationTarget) : ReportPublicationTarget :=
  { target with evidence := keptEvidence gone target.evidence }

def ReportMeasurementTarget.without (gone : Uuid → Bool) (target : ReportMeasurementTarget) : ReportMeasurementTarget :=
  { target with evidence := keptEvidence gone target.evidence }

/-- The input without the evidence of its targets that is under the given identifiers. -/
def ReportReduceInput.without (gone : Uuid → Bool) (input : ReportReduceInput) : ReportReduceInput :=
  { input with
    publicationTargets := input.publicationTargets.map (List.map (ReportPublicationTarget.without gone))
    measurementTargets := input.measurementTargets.map (List.map (ReportMeasurementTarget.without gone)) }

/-- A reference under one of the identifiers was received after a time. -/
def LateReferences (gone : Uuid → Bool) (asOf : DateTime) (evidence : List ReportEvidenceReference) : Prop :=
  ∀ reference ∈ evidence, gone reference.evidenceId = true →
    ∃ received, reference.receivedAt = some received ∧ asOf < received

/-- The identifiers belong to evidence of the targets that was received after a time, and are used nowhere
else. -/
structure LateOnly (gone : Uuid → Bool) (asOf : DateTime) (input : ReportReduceInput) : Prop where
  publications : ∀ targets ∈ input.publicationTargets, ∀ target ∈ targets,
    gone target.targetId = false ∧ LateReferences gone asOf target.evidence
  measurements : ∀ targets ∈ input.measurementTargets, ∀ target ∈ targets,
    gone target.targetId = false ∧ LateReferences gone asOf target.evidence
  documents : ∀ docs ∈ input.documentManifest, ∀ item ∈ docs.items,
    gone item.documentManifestItemId = false ∧ ∀ sourceId ∈ item.sourceVersionRefs, gone sourceId = false
  supplements : ∀ item ∈ input.supplementaryMeasurements, ∀ source ∈ item.observation.provenance,
    gone source.revisionId = false

/-! ### Late evidence proves nothing -/

variable {gone : Uuid → Bool} {asOf : DateTime}

variable {collected collected' : AssocMap Uuid ReportEvidenceReference} {evidence : List ReportEvidenceReference}

variable {targetId : Uuid} {expectedKind : String} {window : Option (DateTime × DateTime)}
  {reference : ReportEvidenceReference}

theorem LateReferences.not_gone (h : LateReferences gone asOf evidence) (hmem : reference ∈ evidence)
    (hproves : proves asOf targetId expectedKind window reference = true) : gone reference.evidenceId = false := by
  by_contra hgone
  obtain ⟨received, hreceived, hlate⟩ := h reference hmem (Bool.not_eq_false _ ▸ hgone)
  obtain ⟨_, received', _, hreceived', _, hknown, _⟩ := (proves_iff.mp hproves).timely
  have hsame : received' = received := Option.some.inj (hreceived'.symm.trans hreceived)
  exact Int.not_le.mpr hlate (hsame ▸ hknown)

/-- Whatever is looked for among the references that prove something is found among those that are kept. -/
theorem filter_keptEvidence (h : LateReferences gone asOf evidence) (targetId : Uuid) (expectedKind : String)
    (window : Option (DateTime × DateTime)) :
    (keptEvidence gone evidence).filter (proves asOf targetId expectedKind window)
      = evidence.filter (proves asOf targetId expectedKind window) := by
  unfold keptEvidence
  rw [List.filter_filter]
  apply filter_congr
  intro reference hmem
  by_cases hproves : proves asOf targetId expectedKind window reference = true
  · rw [hproves, h.not_gone hmem hproves]
    rfl
  · rw [Bool.eq_false_iff.mpr hproves, Bool.false_and]

/-- Only the references that prove the target are looked at. -/
theorem collectEvidence_filter (targetId : Uuid) (expectedKind : String) (window : Option (DateTime × DateTime))
    (evidence : List ReportEvidenceReference) (collected : AssocMap Uuid ReportEvidenceReference) :
    collectEvidence asOf targetId expectedKind window
        (evidence.filter (proves asOf targetId expectedKind window)) collected
      = collectEvidence asOf targetId expectedKind window evidence collected := by
  induction evidence generalizing collected with
  | nil => rfl
  | cons reference _ ih =>
    by_cases hproves : proves asOf targetId expectedKind window reference = true
    · rw [filter_cons_of_pos hproves, collectEvidence, collectEvidence, if_pos hproves, if_pos hproves]
      simp only [ih]
    · rw [filter_cons_of_neg hproves, ih]
      conv_rhs => rw [collectEvidence, if_neg hproves]

theorem collectEvidence_kept (h : LateReferences gone asOf evidence) (targetId : Uuid) (expectedKind : String)
    (window : Option (DateTime × DateTime)) (collected : AssocMap Uuid ReportEvidenceReference) :
    collectEvidence asOf targetId expectedKind window (keptEvidence gone evidence) collected
      = collectEvidence asOf targetId expectedKind window evidence collected := by
  rw [← collectEvidence_filter, filter_keptEvidence h, collectEvidence_filter]

/-! ### The recorded evidence -/

/-- None of the identifiers is recorded. -/
def Clean (gone : Uuid → Bool) (collected : AssocMap Uuid ReportEvidenceReference) : Prop :=
  ∀ id ∈ collected, gone id = false

theorem recordEvidence_clean (hclean : Clean gone collected) (hkept : gone reference.evidenceId = false)
    (h : recordEvidence collected reference = .ok collected') : Clean gone collected' := by
  unfold recordEvidence at h
  simp only [eq_ok_iff] at h
  obtain ⟨_, _, rfl⟩ := h
  intro id hmem
  rcases (AList.mem_insert _).mp hmem with rfl | hold
  · exact hkept
  · exact hclean id hold

theorem foldlM_recordEvidence_clean {references : List ReportEvidenceReference} (hclean : Clean gone collected)
    (hkept : ∀ reference ∈ references, gone reference.evidenceId = false)
    (h : references.foldlM recordEvidence collected = .ok collected') : Clean gone collected' :=
  foldlM_preserves (Clean gone) hclean
    (fun reference hmem _ _ hs hstep => recordEvidence_clean hs (hkept reference hmem) hstep) h

theorem collectEvidence_clean (hlate : LateReferences gone asOf evidence) {valid : Bool} (hclean : Clean gone collected)
    (h : collectEvidence asOf targetId expectedKind window evidence collected = .ok (valid, collected')) :
    Clean gone collected' := by
  induction evidence generalizing collected valid with
  | nil =>
    cases h
    exact hclean
  | cons reference rest ih =>
    have hrest : LateReferences gone asOf rest := fun reference hmem => hlate reference (mem_cons_of_mem _ hmem)
    unfold collectEvidence at h
    by_cases hproves : proves asOf targetId expectedKind window reference = true
    · rw [if_pos hproves] at h
      simp only [eq_ok_iff] at h
      obtain ⟨_, hrecord, ⟨_, _⟩, hcollect, hresult⟩ := h
      cases hresult
      have hkept := hlate.not_gone mem_cons_self hproves
      exact ih hrest (recordEvidence_clean hclean hkept hrecord) hcollect
    · rw [if_neg hproves] at h
      exact ih hrest hclean h

theorem citedEvidence_kept (hclean : Clean gone collected) (targetId : Uuid) (evidence : List ReportEvidenceReference) :
    citedEvidence targetId (keptEvidence gone evidence) collected = citedEvidence targetId evidence collected := by
  unfold citedEvidence keptEvidence
  rw [List.filter_filter]
  congr 2
  apply filter_congr
  intro reference _
  by_cases hrecorded : reference.evidenceId ∈ collected
  · simp [hrecorded, hclean _ hrecorded]
  · simp [hrecorded]

theorem lookupEvidence_clean {target : ReportPublicationTarget} (hlate : LateReferences gone asOf target.evidence)
    (hclean : Clean gone collected)
    (h : (lookupEvidence asOf target).foldlM recordEvidence collected = .ok collected') : Clean gone collected' := by
  apply foldlM_recordEvidence_clean hclean _ h
  intro reference hmem
  obtain ⟨hreference, hproves⟩ := mem_filter.mp hmem
  exact hlate.not_gone hreference hproves

/-! ### The branches -/

section Branches

variable [Sha256] {names : Uuid}

variable {collected : Collected} {reference : Option ReportManifestRef} {revision : Int}

variable {target : ReportPublicationTarget} {branch : OutcomeBranch} {window : DateTime × DateTime}
  {coverage : ReportCoverage} {targets : Option (List ReportPublicationTarget)}
  {items : List ReportSupplementaryMeasurement}

theorem projectPublication_without
    (hlate : LateReferences gone asOf target.evidence) (htarget : gone target.targetId = false)
    (hclean : Clean gone branch.collected.evidence) :
    projectPublication names asOf revision branch (target.without gone)
      = projectPublication names asOf revision branch target := by
  have hlookups : lookupEvidence asOf (target.without gone) = lookupEvidence asOf target :=
    filter_keptEvidence hlate _ _ _
  unfold projectPublication
  rw [hlookups]
  apply bind_congr_ok
  intro _ _
  show (collectEvidence asOf target.targetId (publicationKind target) none
    (keptEvidence gone target.evidence) branch.collected.evidence >>= _) = _
  rw [collectEvidence_kept hlate]
  apply bind_congr_ok
  rintro ⟨valid, evidence⟩ hcollect
  have hevidence := collectEvidence_clean hlate hclean hcollect
  apply bind_congr_ok
  intro evidence' hlooked
  have hevidence' := lookupEvidence_clean hlate hevidence hlooked
  apply bind_congr_ok
  intro recorded hrecord
  have hrecorded : Clean gone recorded := by
    refine recordEvidence_clean ?_ htarget hrecord
    rw [evidence_ite]
    exact hevidence'
  show Except.ok (OutcomeBranch.mk _ _ _ (if _ then addFinding _ (ReportFinding.mk _ _ _
    (citedEvidence target.targetId (keptEvidence gone target.evidence) recorded) _) else _)) = _
  rw [citedEvidence_kept hrecorded]
  rfl

theorem projectPublication_clean {branch' : OutcomeBranch} (hlate : LateReferences gone asOf target.evidence)
    (htarget : gone target.targetId = false) (hclean : Clean gone branch.collected.evidence)
    (h : projectPublication names asOf revision branch target = .ok branch') : Clean gone
    branch'.collected.evidence := by
  unfold projectPublication at h
  simp only [eq_ok_iff] at h
  obtain ⟨_, _, ⟨_, evidence⟩, hcollect, _, hlooked, _, hrecord, rfl⟩ := h
  have hevidence := collectEvidence_clean hlate hclean hcollect
  have hevidence' := lookupEvidence_clean hlate hevidence hlooked
  rw [evidence_ite] at hrecord
  show Clean gone (if _ then addFinding _ _ else _ : Collected).evidence
  rw [evidence_ite']
  exact recordEvidence_clean hevidence' htarget hrecord

theorem projectMeasurement_without {branch : MeasurementBranch}
    {target : ReportMeasurementTarget} (hlate : LateReferences gone asOf target.evidence)
    (htarget : gone target.targetId = false) (hclean : Clean gone branch.collected.evidence) :
    projectMeasurement names asOf window revision branch (target.without gone)
      = projectMeasurement names asOf window revision branch target := by
  unfold projectMeasurement
  apply bind_congr_ok
  intro _ _
  apply bind_congr_ok
  intro _ _
  show (collectEvidence asOf target.targetId "observation" (some window)
    (keptEvidence gone target.evidence) branch.collected.evidence >>= _) = _
  rw [collectEvidence_kept hlate]
  apply bind_congr_ok
  rintro ⟨valid, evidence⟩ hcollect
  have hevidence := collectEvidence_clean hlate hclean hcollect
  apply bind_congr_ok
  intro recorded hrecord
  have hrecorded := recordEvidence_clean hevidence htarget hrecord
  show Except.ok (MeasurementBranch.mk (OutcomeBranch.mk _ _ _ (if _ then addFinding _
    (ReportFinding.mk _ _ _
      (citedEvidence target.targetId (keptEvidence gone target.evidence) recorded) _) else _)) _) = _
  rw [citedEvidence_kept hrecorded]
  rfl

theorem projectMeasurement_clean {branch branch' : MeasurementBranch}
    {target : ReportMeasurementTarget} (hlate : LateReferences gone asOf target.evidence)
    (htarget : gone target.targetId = false) (hclean : Clean gone branch.collected.evidence)
    (h : projectMeasurement names asOf window revision branch target = .ok branch') :
    Clean gone branch'.collected.evidence := by
  unfold projectMeasurement at h
  simp only [eq_ok_iff] at h
  obtain ⟨_, _, _, _, ⟨_, evidence⟩, hcollect, _, hrecord, rfl⟩ := h
  have hevidence := collectEvidence_clean hlate hclean hcollect
  show Clean gone (if _ then addFinding _ _ else _ : Collected).evidence
  rw [evidence_ite']
  exact recordEvidence_clean hevidence htarget hrecord

theorem projectDocument_clean {docs : DocumentManifest} {branch branch' : DocumentBranch}
    {item : DocumentManifestItem} (hitem : gone item.documentManifestItemId = false)
    (hsources : ∀ sourceId ∈ item.sourceVersionRefs, gone sourceId = false)
    (hclean : Clean gone branch.collected.evidence) (h : projectDocument names docs branch item = .ok branch') :
    Clean gone branch'.collected.evidence := by
  unfold projectDocument at h
  simp only [eq_ok_iff] at h
  obtain ⟨_, _, evidence, hrecord, _, hreferences, rfl⟩ := h
  have hevidence := recordEvidence_clean hclean hitem hrecord
  show Clean gone (if _ then _ else addFinding _ _ : Collected).evidence
  rw [evidence_ite]
  apply foldlM_recordEvidence_clean hevidence _ hreferences
  intro reference hmem
  obtain ⟨sourceId, hsource, rfl⟩ := mem_map.mp hmem
  exact hsources sourceId hsource

theorem projectDocuments_clean {docs : Option DocumentManifest} {collected' : Collected}
    (hdocs : ∀ manifest ∈ docs, ∀ item ∈ manifest.items,
      gone item.documentManifestItemId = false
        ∧ ∀ sourceId ∈ item.sourceVersionRefs, gone sourceId = false) (hclean : Clean gone collected.evidence)
    (h : projectDocuments names docs reference collected = .ok (coverage, collected')) :
    Clean gone collected'.evidence := by
  unfold projectDocuments at h
  cases docs with
  | none =>
    cases reference with
    | none => cases h; exact hclean
    | some reference =>
      simp only at h
      split at h <;> cases h <;> exact hclean
  | some docs =>
    cases reference with
    | none => cases h; exact hclean
    | some reference =>
      simp only at h
      split at h
      · simp only [eq_ok_iff] at h
        obtain ⟨branch, hfold, _, _, hresult⟩ := h
        cases hresult
        refine foldlM_preserves (fun branch : DocumentBranch => Clean gone branch.collected.evidence) hclean ?_ hfold
        intro item hmem branch branch' hbranch hstep
        obtain ⟨hitem, hsources⟩ := hdocs docs rfl item hmem
        exact projectDocument_clean hitem hsources hbranch hstep
      · split at h <;> cases h <;> exact hclean

/-- What is known of the targets of a branch. -/
def LateTargets (gone : Uuid → Bool) (asOf : DateTime) {τ : Type} (targetId : τ → Uuid)
    (evidence : τ → List ReportEvidenceReference) (targets : Option (List τ)) : Prop :=
  ∀ listed ∈ targets, ∀ target ∈ listed, gone (targetId target) = false ∧ LateReferences gone asOf (evidence target)

theorem projectPublications_without
    (hlate : LateTargets gone asOf ReportPublicationTarget.targetId ReportPublicationTarget.evidence targets)
    (hclean : Clean gone collected.evidence) :
    projectPublications names asOf (targets.map (List.map (ReportPublicationTarget.without gone))) reference collected
      = projectPublications names asOf targets reference collected := by
  cases targets with
  | none => rfl
  | some listed =>
    cases reference with
    | none => rfl
    | some reference =>
      have hfold : (listed.map (ReportPublicationTarget.without gone)).foldlM
            (projectPublication names asOf reference.revision) (.start collected)
          = listed.foldlM (projectPublication names asOf reference.revision) (.start collected) := by
        apply foldlM_map_congr (fun branch : OutcomeBranch => Clean gone branch.collected.evidence) _ _ hclean
        · intro target hmem branch hbranch
          obtain ⟨htarget, hreferences⟩ := hlate listed rfl target hmem
          exact projectPublication_without hreferences htarget hbranch
        · intro target hmem branch branch' hbranch hstep
          obtain ⟨htarget, hreferences⟩ := hlate listed rfl target hmem
          exact projectPublication_clean hreferences htarget hbranch hstep
      rw [Option.map_some]
      unfold projectPublications
      simp only [hfold, length_map]

theorem projectPublications_clean {collected' : Collected} {groups : AssocMap String ReportCoverage}
    (hlate : LateTargets gone asOf ReportPublicationTarget.targetId ReportPublicationTarget.evidence targets)
    (hclean : Clean gone collected.evidence)
    (h : projectPublications names asOf targets reference collected = .ok (coverage, groups, collected')) :
    Clean gone collected'.evidence := by
  unfold projectPublications at h
  cases targets with
  | none =>
    cases reference with
    | none => cases h; exact hclean
    | some reference =>
      simp only at h
      split at h <;> cases h <;> exact hclean
  | some listed =>
    cases reference with
    | none => cases h; exact hclean
    | some reference =>
      simp only [eq_ok_iff] at h
      obtain ⟨_, _, branch, hfold, hresult⟩ := h
      cases hresult
      refine foldlM_preserves (fun branch : OutcomeBranch => Clean gone branch.collected.evidence) hclean ?_ hfold
      intro target hmem branch branch' hbranch hstep
      obtain ⟨htarget, hreferences⟩ := hlate listed rfl target hmem
      exact projectPublication_clean hreferences htarget hbranch hstep

theorem projectMeasurements_without {targets : Option (List ReportMeasurementTarget)}
    (hlate : LateTargets gone asOf ReportMeasurementTarget.targetId ReportMeasurementTarget.evidence targets)
    (hclean : Clean gone collected.evidence) :
    projectMeasurements names asOf window
        (targets.map (List.map (ReportMeasurementTarget.without gone))) reference collected
      = projectMeasurements names asOf window targets reference collected := by
  cases targets with
  | none => rfl
  | some listed =>
    cases reference with
    | none => rfl
    | some reference =>
      have hfold : (listed.map (ReportMeasurementTarget.without gone)).foldlM
            (projectMeasurement names asOf window reference.revision)
            { OutcomeBranch.start collected with purposes := ∅ }
          = listed.foldlM (projectMeasurement names asOf window reference.revision)
            { OutcomeBranch.start collected with purposes := ∅ } := by
        apply foldlM_map_congr (fun branch : MeasurementBranch => Clean gone branch.collected.evidence) _ _ hclean
        · intro target hmem branch hbranch
          obtain ⟨htarget, hreferences⟩ := hlate listed rfl target hmem
          exact projectMeasurement_without hreferences htarget hbranch
        · intro target hmem branch branch' hbranch hstep
          obtain ⟨htarget, hreferences⟩ := hlate listed rfl target hmem
          exact projectMeasurement_clean hreferences htarget hbranch hstep
      rw [Option.map_some]
      unfold projectMeasurements
      simp only [hfold, length_map]

/-! ### Supplements -/

omit [Sha256] in
theorem supplementsByTarget_without (input : ReportReduceInput) (found : AssocMap Uuid ReportSupplementaryMeasurement)
    (items : List ReportSupplementaryMeasurement) :
    supplementsByTarget (input.without gone) asOf found items = supplementsByTarget input asOf found items := by
  have heligible : eligibleSupplement (input.without gone) asOf = eligibleSupplement input asOf := by
    funext item source
    have hbound : ((input.without gone).measurementTargets.any fun targets =>
          targets.any fun target =>
            target.targetId = item.targetId ∧ target.comparisonKey = item.comparisonKey
              ∧ target.questionBinding = item.questionBinding)
        = input.measurementTargets.any fun targets =>
          targets.any fun target =>
            target.targetId = item.targetId ∧ target.comparisonKey = item.comparisonKey
              ∧ target.questionBinding = item.questionBinding := by
      show (input.measurementTargets.map _).any _ = _
      cases input.measurementTargets with
      | none => rfl
      | some targets =>
        rw [Option.map_some, Option.any_some, Option.any_some, List.any_map]
        rfl
    unfold eligibleSupplement
    rw [hbound]
    rfl
  induction items generalizing found with
  | nil => rfl
  | cons _ _ ih =>
    unfold supplementsByTarget
    rw [heligible]
    simp only [ih]

omit [Sha256] in
theorem supplementsByTarget_mem {input : ReportReduceInput}
    {found found' : AssocMap Uuid ReportSupplementaryMeasurement}
    {P : ReportSupplementaryMeasurement → Prop} (hfound : ∀ item ∈ AssocMap.values found, P item)
    (hitems : ∀ item ∈ items, P item) (h : supplementsByTarget input asOf found items = .ok found') :
    ∀ item ∈ AssocMap.values found', P item := by
  induction items generalizing found with
  | nil =>
    cases h
    exact hfound
  | cons item rest ih =>
    have hrest : ∀ item ∈ rest, P item := fun item hmem => hitems item (mem_cons_of_mem _ hmem)
    unfold supplementsByTarget at h
    split at h
    · simp only [eq_ok_iff] at h
      obtain ⟨_, _, hnext⟩ := h
      apply ih _ hrest hnext
      intro other hmem
      obtain ⟨k, hlook⟩ := mem_values.mp hmem
      rw [lookup_insert] at hlook
      split at hlook
      · exact Option.some.inj hlook ▸ hitems item mem_cons_self
      · exact hfound other (mem_values.mpr ⟨k, hlook⟩)
    · exact ih hfound hrest h

omit [Sha256] in
theorem recordSupplements_clean {collected : AssocMap Uuid ReportEvidenceReference}
    (hitems : ∀ item ∈ items, ∀ source ∈ item.observation.provenance, gone source.revisionId = false)
    (hclean : Clean gone collected)
    (h : items.foldlM recordSupplement collected = .ok collected') : Clean gone collected' := by
  refine foldlM_preserves (Clean gone) hclean ?_ h
  intro item hmem collected collected' hstate hstep
  unfold recordSupplement at hstep
  simp only [eq_ok_iff] at hstep
  obtain ⟨source, hsource, hrecord⟩ := hstep
  exact recordEvidence_clean hstate (hitems item hmem source hsource) hrecord

/-! ### The report -/

theorem projectBranches_without {canonical : ReportReduceInput} (hlate : LateOnly gone asOf canonical) :
    projectBranches names asOf (canonical.without gone) = projectBranches names asOf canonical := by
  unfold projectBranches
  rw [supplementsByTarget_without]
  apply bind_congr_ok
  intro supplements hsupplements
  apply bind_congr_ok
  intro evidence hevidence
  have hsources := supplementsByTarget_mem
    (P := fun item => ∀ source ∈ item.observation.provenance, gone source.revisionId = false)
    (fun item hmem => absurd hmem not_mem_nil) hlate.supplements hsupplements
  have hclean : Clean gone evidence := by
    apply recordSupplements_clean _ (fun id hmem => absurd hmem (AList.notMem_empty id)) hevidence
    intro item hmem
    obtain ⟨e, he, rfl⟩ := mem_map.mp hmem
    exact hsources e.2 (mem_values.mpr ⟨e.1, mem_inKeyOrder.mp he⟩)
  apply bind_congr_ok
  rintro ⟨documents, collected⟩ hdocuments
  have hcollected := projectDocuments_clean hlate.documents hclean hdocuments
  show (projectPublications names asOf (canonical.publicationTargets.map _) _ _ >>= _) = _
  rw [projectPublications_without hlate.publications hcollected]
  apply bind_congr_ok
  rintro ⟨publications, groups, collected'⟩ hpublications
  have hcollected' := projectPublications_clean hlate.publications hcollected hpublications
  show (projectMeasurements names asOf canonical.window (canonical.measurementTargets.map _) _ _ >>= _) = _
  rw [projectMeasurements_without hlate.measurements hcollected']
  rfl

end Branches

/-! ### The canonical input -/

theorem keptEvidence_sortEvidence (gone : Uuid → Bool) (evidence : List ReportEvidenceReference) :
    sortEvidence (keptEvidence gone evidence) = keptEvidence gone (sortEvidence evidence) :=
  (filter_sortByKey _ _ evidence).symm

theorem canonical_targets_without {τ : Type} (key : τ → Uuid) (canonical change : τ → τ)
    (hkey : ∀ target, key (change target) = key target)
    (hcommute : ∀ target, canonical (change target) = change (canonical target)) (targets : Option (List τ)) :
    ((targets.map (List.map change)).map fun listed => (sortByKey key listed).map canonical)
      = (targets.map fun listed => (sortByKey key listed).map canonical).map (List.map change) := by
  cases targets with
  | none => rfl
  | some listed =>
    simp only [Option.map_some]
    rw [← map_sortByKey hkey, List.map_map, List.map_map]
    have hsame : canonical ∘ change = change ∘ canonical := funext hcommute
    rw [hsame]

/-- The evidence may as well be taken out of the canonical input. -/
theorem canonical_without (gone : Uuid → Bool) (input : ReportReduceInput) :
    (input.without gone).canonical = input.canonical.without gone := by
  have hpublications := canonical_targets_without ReportPublicationTarget.targetId
    ReportPublicationTarget.canonical (ReportPublicationTarget.without gone) (fun _ => rfl)
    (fun target => congrArg (fun evidence => { target with evidence })
      (keptEvidence_sortEvidence gone target.evidence)) input.publicationTargets
  have hmeasurements := canonical_targets_without ReportMeasurementTarget.targetId
    ReportMeasurementTarget.canonical (ReportMeasurementTarget.without gone) (fun _ => rfl)
    (fun target => congrArg (fun evidence => { target with evidence })
      (keptEvidence_sortEvidence gone target.evidence)) input.measurementTargets
  show ReportReduceInput.mk _ _ _ _ _ _ _ _ _ ((input.publicationTargets.map _).map _)
    ((input.measurementTargets.map _).map _) _ = _
  rw [hpublications, hmeasurements]
  rfl

theorem LateReferences.sorted (h : LateReferences gone asOf evidence) :
    LateReferences gone asOf (sortEvidence evidence) :=
  fun reference hmem => h reference ((sortByKey_perm _ evidence).mem_iff.mp hmem)

theorem LateOnly.canonical {input : ReportReduceInput} (h : LateOnly gone asOf input) :
    LateOnly gone asOf input.canonical where
  publications := by
    intro listed hlisted target hmem
    obtain ⟨targets, htargets, rfl⟩ := Option.map_eq_some_iff.mp hlisted
    obtain ⟨original, horiginal, rfl⟩ := mem_map.mp hmem
    have htarget := (sortByKey_perm _ targets).mem_iff.mp horiginal
    obtain ⟨hid, hreferences⟩ := h.publications targets htargets original htarget
    exact ⟨hid, hreferences.sorted⟩
  measurements := by
    intro listed hlisted target hmem
    obtain ⟨targets, htargets, rfl⟩ := Option.map_eq_some_iff.mp hlisted
    obtain ⟨original, horiginal, rfl⟩ := mem_map.mp hmem
    have htarget := (sortByKey_perm _ targets).mem_iff.mp horiginal
    obtain ⟨hid, hreferences⟩ := h.measurements targets htargets original htarget
    exact ⟨hid, hreferences.sorted⟩
  documents := by
    intro docs hdocs item hmem
    obtain ⟨manifest, hmanifest, rfl⟩ := Option.map_eq_some_iff.mp hdocs
    exact h.documents manifest hmanifest item ((sortByKey_perm _ manifest.items).mem_iff.mp hmem)
  supplements item hmem := h.supplements item ((sortByKey_perm _ input.supplementaryMeasurements).mem_iff.mp hmem)

/-! ### Reports and previews -/

section Reports

variable [Sha256] [InstantJson] [InstantDisplay]

/-- Taking late evidence out changes the hash of the input. -/
def ReportProjection.rehash (projection : ReportProjection) (hash : String) : ReportProjection :=
  { projection with inputHash := hash }

theorem projectReport_without (scope : TenantScope) (input : ReportReduceInput) (now : DateTime)
    (mode : ProjectionMode) (hlate : LateOnly gone (evidenceAsOf input now mode) input) :
    projectReport scope (input.without gone) now mode
      = (projectReport scope input now mode).map fun projection =>
        projection.rehash (inputHash (input.without gone).canonical) := by
  have hcheck : checkReportInput scope (input.without gone) mode = checkReportInput scope input mode := by
    unfold checkReportInput
    rw [canonical_without]
    show (Except.failIf _ _ >>= fun _ => checkReportWindow _ _ >>= fun _ =>
      checkManifestRefs _ _ >>= fun _ => checkDocuments _ _ >>= fun _ =>
      checkSealed (input.canonical.publicationTargets.map _).isSome _ _ >>= fun _ =>
      checkSealed (input.canonical.measurementTargets.map _).isSome _ _) = _
    rw [Option.isSome_map, Option.isSome_map]
    rfl
  have hbranches (names : Uuid) :
      projectBranches names (evidenceAsOf input now mode) (input.without gone).canonical
        = projectBranches names (evidenceAsOf input now mode) input.canonical := by
    rw [canonical_without]
    exact projectBranches_without hlate.canonical
  unfold projectReport
  rw [hcheck, map_bind]
  apply bind_congr_ok
  intro _ _
  show (projectBranches (findingNamespace scope input (input.without gone).canonical now mode)
      (evidenceAsOf input now mode) (input.without gone).canonical >>= _)
    = Except.map _ (projectBranches _ _ input.canonical >>= _)
  rw [hbranches, map_bind]
  apply bind_congr_ok
  intro branches _
  rw [map_bind]
  apply bind_congr_ok
  intro _ _
  rfl

/-- Reports and previews depend on what was known, and not on its order: neither the order of the input nor late
evidence shows, except in the hash of the input, and a preview with evidence up to the same time counts like the
report. -/
theorem reports_fromKnown (scope : TenantScope) (input : ReportReduceInput) (now : DateTime) :
    (∀ input', input.Reordered input' → input.DistinctIds →
      (∀ revision correctionOf,
        reduceReport scope input' revision correctionOf now = reduceReport scope input revision correctionOf now)
      ∧ previewReport scope input' now = previewReport scope input now)
    ∧ (∀ gone revision correctionOf,
      LateOnly gone (evidenceAsOf input now (.official revision correctionOf)) input →
        reduceReport scope (input.without gone) revision correctionOf now
          = (reduceReport scope input revision correctionOf now).map fun report =>
            { report with inputHash := inputHash (input.without gone).canonical })
    ∧ (∀ gone, LateOnly gone (evidenceAsOf input now .preview) input →
        previewReport scope (input.without gone) now
          = (previewReport scope input now).map fun preview =>
            { preview with inputHash := inputHash (input.without gone).canonical })
    ∧ ∀ revision correctionOf now' report, reduceReport scope input revision correctionOf now = .ok report →
      evidenceAsOf input now (.official revision correctionOf) = evidenceAsOf input now' .preview →
        ∃ preview, previewReport scope input now' = .ok preview ∧ CountAlike report preview := by
  refine ⟨?order, ?late, ?latePreview, ?preview⟩
  case order =>
    intro input' hreordered hids
    exact reports_reordered hreordered hids scope now
  case late =>
    intro gone revision correctionOf hlate
    unfold reduceReport
    rw [projectReport_without scope input now _ hlate, map_bind]
    cases projectReport scope input now (.official revision correctionOf) <;> rfl
  case latePreview =>
    intro gone hlate
    unfold previewReport
    rw [projectReport_without scope input now _ hlate, map_bind]
    cases projectReport scope input now .preview <;> rfl
  case preview =>
    intro revision correctionOf now' report hreport hasOf
    exact previewReport_of_reduceReport hreport hasOf

end Reports

/-! ### Sample values -/

namespace Sample

/-- The sample input with its manifests and its publications the other way round. -/
def reorderedInput : ReportReduceInput :=
  { reportInput with
    inputManifestVersions := reportInput.inputManifestVersions.reverse
    publicationTargets := some publicationTargets.reverse }

theorem reorderedInput_reordered : reportInput.Reordered reorderedInput where
  same := rfl
  manifests := (reverse_perm _).symm
  documents := .none
  publications :=
    .some ⟨publicationTargets.reverse, (reverse_perm _).symm, .cons ⟨rfl, .refl _⟩ (.cons ⟨rfl, .refl _⟩ .nil)⟩
  measurements := .some ⟨measurementTargets, .refl _, .cons ⟨rfl, .refl _⟩ .nil⟩
  supplements := .refl _

theorem reportInput_distinctIds : reportInput.DistinctIds where
  manifests := by decide
  documents := by
    intro docs hdocs
    cases hdocs
  publications := by
    intro targets htargets
    cases htargets
    decide
  measurements := by
    intro targets htargets
    cases htargets
    decide
  supplements := by decide

/-- The receipt that came after the cutoff. -/
def lateReceipt (id : Uuid) : Bool :=
  id = uuid 42

theorem reportInput_lateOnly : LateOnly lateReceipt (second 6) reportInput where
  publications := by
    intro targets htargets
    cases htargets
    unfold LateReferences
    simp only [publicationTargets, forall_mem_cons, not_mem_nil, false_imp_iff, implies_true, and_true]
    refine ⟨⟨by decide, fun hgone => absurd hgone (by decide)⟩, by decide, fun _ => ?_⟩
    exact ⟨second 7, rfl, by decide⟩
  measurements := by
    intro targets htargets
    cases htargets
    unfold LateReferences
    simp only [measurementTargets, forall_mem_cons, not_mem_nil, false_imp_iff, implies_true, and_true]
    exact ⟨by decide, fun hgone => absurd hgone (by decide)⟩
  documents := by
    intro docs hdocs
    cases hdocs
  supplements := by
    intro item hmem
    cases hmem

end Sample

open Sample in
theorem reports_fromKnown_sample :
    @reduceReport secureHash secondJson secondDisplay scope reorderedInput 1 none (second 7)
        = @reduceReport secureHash secondJson secondDisplay scope reportInput 1 none (second 7)
      ∧ @reduceReport secureHash secondJson secondDisplay scope (reportInput.without lateReceipt) 1 none (second 7)
        = (@reduceReport secureHash secondJson secondDisplay scope reportInput 1 none (second 7)).map (fun report =>
          { report with
            inputHash := @inputHash secureHash secondJson (reportInput.without lateReceipt).canonical })
      ∧ ∃ report preview,
        @reduceReport secureHash secondJson secondDisplay scope reportInput 1 none (second 7) = .ok report
          ∧ @previewReport secureHash secondJson secondDisplay scope reportInput (second 9) = .ok preview
          ∧ CountAlike report preview := by
  obtain ⟨horder, hlate, _, hpreview⟩ :=
    @reports_fromKnown secureHash secondJson secondDisplay scope reportInput (second 7)
  refine ⟨(horder reorderedInput reorderedInput_reordered reportInput_distinctIds).1 1 none,
    hlate lateReceipt 1 none reportInput_lateOnly, ?_⟩
  have hok : (@reduceReport secureHash secondJson secondDisplay scope reportInput 1 none
      (second 7)).isOk = true := by decide +kernel
  cases h : @reduceReport secureHash secondJson secondDisplay scope reportInput 1 none (second 7) with
  | ok report =>
    obtain ⟨preview, hshown, halike⟩ := hpreview 1 none (second 9) report h rfl
    exact ⟨report, preview, rfl, hshown, halike⟩
  | error e =>
    rw [h] at hok
    cases hok

end GeoMaster
