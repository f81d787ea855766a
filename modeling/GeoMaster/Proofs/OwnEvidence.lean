import GeoMaster.Proofs.LateEvidence

/-!
# The evidence a finding cites

A finding of a target cites the target and those of its references whose identifier was recorded. One map is filled
for the whole report, target after target, so an identifier may have been recorded for another resource. `Claim` is
what the map says of an identifier, and `KeepsOwn` the condition on the input under which no target with a finding
names an identifier of another resource. The findings cite only what belongs to their target exactly then.
-/

namespace GeoMaster

open Except AssocMap List Option ReportEvidenceReference Collected

/-- An evidence identifier, and the resource its reference is about. -/
abbrev Claim : Type :=
  Uuid × Uuid

def ReportEvidenceReference.claim (reference : ReportEvidenceReference) : Claim :=
  (reference.evidenceId, reference.resourceId)

/-- The map holds the claims, and no other. -/
structure Records (collected : AssocMap Uuid ReportEvidenceReference) (claims : List Claim) : Prop where
  keyed : ∀ id reference, collected.lookup id = some reference → reference.evidenceId = id
  claimed : ∀ claim, claim ∈ claims
    ↔ ∃ reference, collected.lookup claim.1 = some reference ∧ reference.resourceId = claim.2

/-! ### What each part of the input records -/

def supplementClaims (asOf : DateTime) (canonical : ReportReduceInput) : List Claim :=
  canonical.supplementaryMeasurements.filterMap fun item =>
    (item.observation.provenance.filter (eligibleSupplement canonical asOf item)).map fun source =>
      (source.revisionId, item.targetId)

def itemClaims (item : DocumentManifestItem) : List Claim :=
  (item.documentManifestItemId, item.documentManifestItemId)
    :: item.sourceVersionRefs.map fun source => (source, source)

/-- Documents are recorded where their manifest is sealed. -/
def documentClaims (canonical : ReportReduceInput) : List Claim :=
  match canonical.documentManifest with
  | some docs => if docs.sealed then docs.items.flatMap itemClaims else []
  | none => []

/-- The references that prove a target, with those to an asset that was looked up, and the target itself. -/
def publicationClaims (asOf : DateTime) (target : ReportPublicationTarget) : List Claim :=
  (target.evidence.filter (proves asOf target.targetId (publicationKind target) none)).map ReportEvidenceReference.claim
    ++ (lookupEvidence asOf target).map ReportEvidenceReference.claim ++ [(target.targetId, target.targetId)]

def measurementClaims (asOf : DateTime) (window : DateTime × DateTime)
    (target : ReportMeasurementTarget) : List Claim :=
  (target.evidence.filter (proves asOf target.targetId "observation" (some window))).map ReportEvidenceReference.claim
    ++ [(target.targetId, target.targetId)]

/-! ### The condition -/

/-- A target as its findings see it. -/
structure Reported where
  targetId : Uuid
  evidence : List ReportEvidenceReference
  claims : List Claim
  /-- What it is counted as is a finding. -/
  gap : Bool

def publicationReported (asOf : DateTime) (target : ReportPublicationTarget) : Reported where
  targetId := target.targetId
  evidence := target.evidence
  claims := publicationClaims asOf target
  gap := (publicationCell asOf target).status ∈ publicationGaps

def measurementReported (asOf : DateTime) (window : DateTime × DateTime)
    (target : ReportMeasurementTarget) : Reported where
  targetId := target.targetId
  evidence := target.evidence
  claims := measurementClaims asOf window target
  gap := (measurementCell asOf window target).status ∈ measurementGaps

/-- No reference of the target has an identifier that is known for another resource. -/
def Reported.Own (target : Reported) (known : List Claim) : Prop :=
  ∀ reference ∈ target.evidence, ∀ claim ∈ known, claim.1 = reference.evidenceId → claim.2 = target.targetId

instance (target : Reported) (known : List Claim) : Decidable (target.Own known) :=
  inferInstanceAs (Decidable (∀ _ ∈ _, ∀ _ ∈ _, _ → _))

/-- Target after target, those with a finding name no identifier that was recorded for another resource before. -/
def KeepsOwn : List Claim → List Reported → Prop
  | _, [] => True
  | known, target :: rest => (target.gap = true → target.Own known) ∧ KeepsOwn (known ++ target.claims) rest

instance decidableKeepsOwn : (targets : List Reported) → (known : List Claim) → Decidable (KeepsOwn known targets)
  | [], _ => .isTrue trivial
  | target :: rest, known =>
    haveI := decidableKeepsOwn rest (known ++ target.claims)
    inferInstanceAs (Decidable (_ ∧ _))

/-- The publications of an input, and behind them the measurements, in the order of their identifiers. -/
def ReportReduceInput.reported (asOf : DateTime) (input : ReportReduceInput) : List Reported :=
  ((input.canonical.publicationTargets.getD []).map (publicationReported asOf))
    ++ (input.canonical.measurementTargets.getD []).map (measurementReported asOf input.window)

/-- Every target with a finding keeps to its own evidence. -/
def OwnReferences (asOf : DateTime) (input : ReportReduceInput) : Prop :=
  KeepsOwn (supplementClaims asOf input.canonical ++ documentClaims input.canonical) (input.reported asOf)

instance (asOf : DateTime) (input : ReportReduceInput) : Decidable (OwnReferences asOf input) :=
  decidableKeepsOwn _ _

/-! ### The map of the evidence -/

theorem records_empty : Records ∅ [] where
  keyed id reference hlook := by simp at hlook
  claimed claim := by simp

variable {claims : List Claim} {collected collected' : AssocMap Uuid ReportEvidenceReference}

theorem Records.resource_eq (h : Records collected claims) {id resource resource' : Uuid}
    (hclaim : (id, resource) ∈ claims) (hclaim' : (id, resource') ∈ claims) : resource = resource' := by
  obtain ⟨_, hlook, rfl⟩ := (h.claimed _).mp hclaim
  obtain ⟨_, hlook', rfl⟩ := (h.claimed _).mp hclaim'
  obtain rfl := some.inj (hlook.symm.trans hlook')
  rfl

theorem Records.mem_iff (h : Records collected claims) {id : Uuid} :
    id ∈ collected ↔ ∃ claim ∈ claims, claim.1 = id := by
  rw [← AList.lookup_isSome, isSome_iff_exists]
  constructor
  · rintro ⟨reference, hlook⟩
    exact ⟨(id, reference.resourceId), (h.claimed _).mpr ⟨reference, hlook, rfl⟩, rfl⟩
  · rintro ⟨_, hclaim, rfl⟩
    obtain ⟨reference, hlook, -⟩ := (h.claimed _).mp hclaim
    exact ⟨reference, hlook⟩

theorem recordEvidence_records {reference : ReportEvidenceReference} (hrecords : Records collected claims)
    (h : recordEvidence collected reference = .ok collected') : Records collected' (claims ++ [reference.claim]) := by
  unfold recordEvidence at h
  simp only [eq_ok_iff] at h
  obtain ⟨_, hsame, rfl⟩ := h
  constructor
  case keyed =>
    intro id found hfound
    rw [lookup_insert] at hfound
    split at hfound
    case isTrue hid => rw [← some.inj hfound, hid]
    case isFalse => exact hrecords.keyed id found hfound
  case claimed =>
    intro claim
    rw [mem_append, mem_singleton, lookup_insert]
    by_cases hid : claim.1 = reference.evidenceId
    · rw [if_pos hid]
      constructor
      · rintro (hclaim | rfl)
        · obtain ⟨_, hlook, hresource⟩ := (hrecords.claimed claim).mp hclaim
          rw [← hid, hlook, any_some, decide_eq_true_eq, ne_eq, not_not] at hsame
          exact ⟨reference, rfl, hsame ▸ hresource⟩
        · exact ⟨reference, rfl, rfl⟩
      · rintro ⟨_, hfound, hresource⟩
        obtain rfl := some.inj hfound
        exact .inr (Prod.ext hid hresource.symm)
    · rw [if_neg hid, ← hrecords.claimed claim]
      constructor
      · rintro (hclaim | rfl)
        · exact hclaim
        · exact absurd rfl hid
      · exact .inl

theorem foldlM_recordEvidence_records {references : List ReportEvidenceReference}
    (hrecords : Records collected claims) (h : references.foldlM recordEvidence collected = .ok collected') :
    Records collected' (claims ++ references.map ReportEvidenceReference.claim) := by
  refine foldlM_invariant (fun read collected => Records collected (claims ++ read.map ReportEvidenceReference.claim))
    (by simpa using hrecords) ?_ h
  intro read reference collected collected' hread hstep
  rw [map_append, ← List.append_assoc]
  exact recordEvidence_records hread hstep

variable {asOf : DateTime} {items : List ReportSupplementaryMeasurement}

theorem collectEvidence_records {targetId : Uuid} {expectedKind : String}
    {window : Option (DateTime × DateTime)} {evidence : List ReportEvidenceReference} {valid : Bool}
    (hrecords : Records collected claims)
    (h : collectEvidence asOf targetId expectedKind window evidence collected = .ok (valid, collected')) :
    Records collected'
      (claims ++ (evidence.filter (proves asOf targetId expectedKind window)).map ReportEvidenceReference.claim) := by
  induction evidence generalizing collected valid claims with
  | nil =>
    cases h
    simpa using hrecords
  | cons reference _ ih =>
    unfold collectEvidence at h
    by_cases hproves : proves asOf targetId expectedKind window reference = true
    · rw [if_pos hproves] at h
      simp only [eq_ok_iff] at h
      obtain ⟨_, hrecord, ⟨_, _⟩, hcollect, hresult⟩ := h
      cases hresult
      rw [filter_cons_of_pos hproves, map_cons, append_cons]
      exact ih (recordEvidence_records hrecords hrecord) hcollect
    · rw [if_neg hproves] at h
      rw [filter_cons_of_neg hproves]
      exact ih hrecords h

/-! ### Saved interpretations and documents -/

/-- The supplements that are found are the eligible ones of the input. -/
theorem supplementsByTarget_values {input : ReportReduceInput}
    {found found' : AssocMap Uuid ReportSupplementaryMeasurement}
    (hkeyed : ∀ id item, found.lookup id = some item → item.targetId = id)
    (h : supplementsByTarget input asOf found items = .ok found') :
    (∀ id item, found'.lookup id = some item → item.targetId = id)
      ∧ ∀ item, item ∈ values found'
          ↔ item ∈ values found
            ∨ item ∈ items ∧ item.observation.provenance.any (eligibleSupplement input asOf item) := by
  induction items generalizing found with
  | nil =>
    cases h
    exact ⟨hkeyed, by simp⟩
  | cons first _ ih =>
    unfold supplementsByTarget at h
    split at h
    case isTrue heligible =>
      simp only [eq_ok_iff] at h
      obtain ⟨_, hsame, hnext⟩ := h
      have hinsert : ∀ id item, (found.insert first.targetId first).lookup id = some item → item.targetId = id := by
        intro id item hlook
        rw [lookup_insert] at hlook
        split at hlook
        case isTrue hid => exact hid ▸ some.inj hlook ▸ rfl
        case isFalse => exact hkeyed id item hlook
      obtain ⟨hkeyed', hvalues⟩ := ih hinsert hnext
      refine ⟨hkeyed', fun item => ?_⟩
      rw [hvalues item, mem_cons, mem_values, mem_values]
      simp only [lookup_insert]
      constructor
      · rintro (⟨id, hlook⟩ | ⟨hmem, hitem⟩)
        · split at hlook
          · obtain rfl := some.inj hlook
            exact .inr ⟨.inl rfl, heligible⟩
          · exact .inl ⟨id, hlook⟩
        · exact .inr ⟨.inr hmem, hitem⟩
      · rintro (⟨id, hlook⟩ | ⟨rfl | hmem, hitem⟩)
        · by_cases hid : id = first.targetId
          · -- A second supplement of a target is the first one again.
            rw [← hid, hlook, any_some, decide_eq_true_eq, ne_eq, not_not] at hsame
            exact .inl ⟨id, by rw [if_pos hid, hsame]⟩
          · exact .inl ⟨id, by rwa [if_neg hid]⟩
        · exact .inl ⟨_, if_pos rfl⟩
        · exact .inr ⟨hmem, hitem⟩
    case isFalse heligible =>
      obtain ⟨hkeyed', hvalues⟩ := ih hkeyed h
      refine ⟨hkeyed', fun item => (hvalues item).trans (or_congr_right ?_)⟩
      rw [mem_cons]
      constructor
      · exact fun hitem => ⟨.inr hitem.1, hitem.2⟩
      · rintro ⟨rfl | hmem, hitem⟩
        · exact absurd hitem heligible
        · exact ⟨hmem, hitem⟩

theorem recordSupplements_records (hrecords : Records collected claims)
    (h : items.foldlM recordSupplement collected = .ok collected') :
    Records collected'
      (claims ++ items.filterMap fun item =>
        item.observation.provenance.map fun source => (source.revisionId, item.targetId)) := by
  refine foldlM_invariant
    (fun read collected => Records collected
      (claims ++ read.filterMap fun item =>
        item.observation.provenance.map fun source => (source.revisionId, item.targetId)))
    (by simpa using hrecords) ?_ h
  intro read item collected collected' hread hstep
  unfold recordSupplement at hstep
  simp only [eq_ok_iff] at hstep
  obtain ⟨source, hsource, hrecord⟩ := hstep
  have hclaim : [item].filterMap (fun item =>
        item.observation.provenance.map fun source => (source.revisionId, item.targetId))
      = [(source.revisionId, item.targetId)] := by
    simp [hsource]
  rw [filterMap_append, hclaim, ← List.append_assoc]
  exact recordEvidence_records hread hrecord

/-- The same claims in another order. -/
theorem Records.of_mem_iff {claims' : List Claim} (h : Records collected claims)
    (hmem : ∀ claim, claim ∈ claims' ↔ claim ∈ claims) : Records collected claims' where
  keyed := h.keyed
  claimed claim := (hmem claim).trans (h.claimed claim)

theorem supplements_records {canonical : ReportReduceInput}
    {supplements : AssocMap Uuid ReportSupplementaryMeasurement} {evidence : AssocMap Uuid ReportEvidenceReference}
    (hsupplements : supplementsByTarget canonical asOf ∅ canonical.supplementaryMeasurements = .ok supplements)
    (hevidence : ((inKeyOrder supplements).map (·.2)).foldlM recordSupplement ∅ = .ok evidence) :
    Records evidence (supplementClaims asOf canonical) := by
  obtain ⟨-, hvalues⟩ := supplementsByTarget_values (fun id item hlook => by simp at hlook) hsupplements
  have hlisted : ∀ item, item ∈ (inKeyOrder supplements).map (·.2)
      ↔ item ∈ canonical.supplementaryMeasurements
        ∧ item.observation.provenance.any (eligibleSupplement canonical asOf item) := by
    intro item
    have hnone : item ∉ values (∅ : AssocMap Uuid ReportSupplementaryMeasurement) := by simp [mem_values]
    refine Iff.trans ?_ ((hvalues item).trans (or_iff_right hnone))
    rw [mem_values, List.mem_map]
    constructor
    · rintro ⟨e, he, rfl⟩
      exact ⟨e.1, mem_inKeyOrder.mp he⟩
    · rintro ⟨id, hlook⟩
      exact ⟨(id, item), mem_inKeyOrder.mpr hlook, rfl⟩
  refine (recordSupplements_records records_empty hevidence).of_mem_iff fun claim => ?_
  rw [nil_append, supplementClaims, mem_filterMap, mem_filterMap]
  constructor
  · rintro ⟨item, hitem, hclaim⟩
    obtain ⟨_, hsource, rfl⟩ := map_eq_some_iff.mp hclaim
    obtain ⟨hsource, heligible⟩ := filter_eq_some_iff.mp hsource
    exact ⟨item, (hlisted item).mpr ⟨hitem, by rw [hsource]; exact heligible⟩, by rw [hsource]; rfl⟩
  · rintro ⟨item, hitem, hclaim⟩
    obtain ⟨_, hsource, rfl⟩ := map_eq_some_iff.mp hclaim
    obtain ⟨hitem, heligible⟩ := (hlisted item).mp hitem
    rw [hsource, any_some] at heligible
    refine ⟨item, hitem, ?_⟩
    rw [hsource, filter_some, if_pos heligible]
    rfl

/-- The kinds of the findings about documents. -/
def documentFindingKinds : List String :=
  ["document_planned", "document_blocked", "document_deferred"]

theorem documentKind_mem {state : DocumentManifestItemState} (h : documentStatus state ≠ "not_applicable") :
    "document_" ++ documentStatus state ∈ documentFindingKinds := by
  revert h
  cases state <;> decide

section Branches

variable [Sha256] {names : Uuid} {asOf : DateTime}

variable {canonical : ReportReduceInput} {claims known : List Claim} {revision : Int} {targetIds : List Uuid}
  {window : DateTime × DateTime}

theorem projectDocument_records {docs : DocumentManifest} {branch branch' : DocumentBranch}
    {item : DocumentManifestItem} (hrecords : Records branch.collected.evidence claims)
    (hkinds : ∀ finding ∈ branch.collected.findings, finding.kind ∈ documentFindingKinds)
    (h : projectDocument names docs branch item = .ok branch') :
    Records branch'.collected.evidence (claims ++ itemClaims item)
      ∧ ∀ finding ∈ branch'.collected.findings, finding.kind ∈ documentFindingKinds := by
  unfold projectDocument at h
  simp only [eq_ok_iff] at h
  obtain ⟨_, _, _, hitem, _, hsources, rfl⟩ := h
  have hall := foldlM_recordEvidence_records (recordEvidence_records hrecords hitem) hsources
  rw [List.append_assoc, List.map_map] at hall
  split
  case isTrue => exact ⟨hall, hkinds⟩
  case isFalse hstatus =>
    refine ⟨hall, fun finding hfinding => ?_⟩
    rcases mem_append.mp hfinding with hold | hnew
    · exact hkinds finding hold
    · obtain rfl := mem_singleton.mp hnew
      exact documentKind_mem hstatus

variable {coverage : ReportCoverage} {target : ReportPublicationTarget} {τ : Type} {P : ReportFinding → Prop}
  {kinds : List String} {findingIds : Uuid → List Uuid} {finding : ReportFinding} {input : ReportReduceInput}
  {scope : TenantScope} {mode : ProjectionMode}

theorem projectDocuments_records {evidence : AssocMap Uuid ReportEvidenceReference}
    {collected : Collected} (hrecords : Records evidence claims)
    (href : canonical.documentManifest.isSome → (manifestRef canonical .document).isSome)
    (h : projectDocuments names canonical.documentManifest (manifestRef canonical .document)
      { findings := [], evidence } = .ok (coverage, collected)) :
    Records collected.evidence (claims ++ documentClaims canonical)
      ∧ ∀ finding ∈ collected.findings, finding.kind ∈ documentFindingKinds := by
  have hnone : ∀ finding ∈ ([] : List ReportFinding), finding.kind ∈ documentFindingKinds :=
    fun finding hmem => absurd hmem not_mem_nil
  unfold projectDocuments at h
  unfold documentClaims
  cases hdocs : canonical.documentManifest with
  | none =>
    rw [hdocs] at h
    rw [append_nil]
    cases hreference : manifestRef canonical .document with
    | none =>
      rw [hreference] at h
      cases h
      exact ⟨hrecords, hnone⟩
    | some reference =>
      rw [hreference] at h
      simp only at h
      split at h <;> cases h <;> exact ⟨hrecords, hnone⟩
  | some docs =>
    obtain ⟨_, hreference⟩ := isSome_iff_exists.mp (href (by rw [hdocs]; rfl))
    rw [hdocs, hreference] at h
    simp only at h ⊢
    split at h
    case isTrue hsealed =>
      simp only [eq_ok_iff] at h
      obtain ⟨branch, hfold, _, _, hresult⟩ := h
      cases hresult
      rw [if_pos hsealed]
      refine foldlM_invariant
        (fun read (branch : DocumentBranch) =>
          Records branch.collected.evidence (claims ++ read.flatMap itemClaims)
            ∧ ∀ finding ∈ branch.collected.findings, finding.kind ∈ documentFindingKinds)
        ⟨by simpa using hrecords, hnone⟩ ?_ hfold
      intro read item branch branch' hread hstep
      rw [flatMap_append, flatMap_singleton, ← List.append_assoc]
      exact projectDocument_records hread.1 hread.2 hstep
    case isFalse hsealed =>
      rw [if_neg hsealed, append_nil]
      split at h <;> cases h <;> exact ⟨hrecords, hnone⟩

/-! ### The findings of the targets -/

/-- What a target cites when some claims are known: itself, and what is known of its references. -/
def knownEvidence (targetId : Uuid) (evidence : List ReportEvidenceReference) (known : List Claim) : List Uuid :=
  targetId ::
    ((evidence.filter fun reference => known.any fun claim => claim.1 = reference.evidenceId).map evidenceId)

omit [Sha256] in
theorem citedEvidence_eq (h : Records collected known) (targetId : Uuid) (evidence : List ReportEvidenceReference) :
    citedEvidence targetId evidence collected = knownEvidence targetId evidence known := by
  unfold citedEvidence knownEvidence
  congr 2
  apply filter_congr
  intro reference _
  rw [Bool.eq_iff_iff, decide_eq_true_eq, h.mem_iff, List.any_eq_true]
  simp only [decide_eq_true_eq]

/-- The names of the findings of a publication: that it was not published, and that an asset was seen. -/
def publicationGapId (names targetId : Uuid) : Uuid :=
  stableUuid (names.toString ++ ":publication:" ++ targetId.toString)

def assetObservedId (names targetId : Uuid) : Uuid :=
  stableUuid (names.toString ++ ":publication:asset_observed:" ++ targetId.toString)

def measurementGapId (names targetId : Uuid) : Uuid :=
  stableUuid (names.toString ++ ":measurement:" ++ targetId.toString)

def assetObservedFinding (names : Uuid) (asOf : DateTime) (target : ReportPublicationTarget) : ReportFinding where
  findingId := assetObservedId names target.targetId
  kind := "publication_asset_observed"
  summary := "A public asset was observed independently; this does not prove the original publication send succeeded."
  evidenceIds := ((lookupEvidence asOf target).map evidenceId).dedup.insertionSort (· ≤ ·)
  insufficientReason := some "No trusted causal link between the original send and the observed asset is available."

def publicationGapFinding (names : Uuid) (asOf : DateTime) (known : List Claim)
    (target : ReportPublicationTarget) : ReportFinding where
  findingId := publicationGapId names target.targetId
  kind := "publication_" ++ (publicationCell asOf target).status
  summary :=
    "Publication target remains " ++ (publicationCell asOf target).status ++ "; no public verification is inferred."
  evidenceIds := knownEvidence target.targetId target.evidence known
  insufficientReason := some (target.reason.getD "Public verification or a terminal receipt is not available.")

/-- The findings of a publication, when the claims are known. -/
def publicationFindings (names : Uuid) (asOf : DateTime) (known : List Claim)
    (target : ReportPublicationTarget) : List ReportFinding :=
  (if lookupEvidence asOf target = [] then [] else [assetObservedFinding names asOf target])
    ++ if (publicationCell asOf target).status ∈ publicationGaps then
        [publicationGapFinding names asOf known target]
      else []

def measurementGapFinding (names : Uuid) (asOf : DateTime) (window : DateTime × DateTime)
    (known : List Claim) (target : ReportMeasurementTarget) : ReportFinding where
  findingId := measurementGapId names target.targetId
  kind := "measurement_" ++ (measurementCell asOf window target).status
  summary :=
    "Independent measurement sample is " ++ (measurementCell asOf window target).status
      ++ "; missing is not counted as not-mentioned."
  evidenceIds := knownEvidence target.targetId target.evidence known
  insufficientReason :=
    target.missingReason.or
      (if (measurementCell asOf window target).status = "missing"
          ∨ (measurementCell asOf window target).status = "pending" then
        some "A timely, timestamped observation is unavailable."
      else none)

def measurementFindings (names : Uuid) (asOf : DateTime) (window : DateTime × DateTime)
    (known : List Claim) (target : ReportMeasurementTarget) : List ReportFinding :=
  if (measurementCell asOf window target).status ∈ measurementGaps then
    [measurementGapFinding names asOf window known target]
  else []

theorem projectPublication_records {branch branch' : OutcomeBranch} (hrecords : Records branch.collected.evidence known)
    (h : projectPublication names asOf revision branch target = .ok branch') :
    Records branch'.collected.evidence (known ++ publicationClaims asOf target)
      ∧ branch'.collected.findings
        = branch.collected.findings
          ++ publicationFindings names asOf (known ++ publicationClaims asOf target) target := by
  unfold projectPublication at h
  simp only [eq_ok_iff] at h
  obtain ⟨_, _, ⟨_, _⟩, hcollect, _, hlookups, recorded, htarget, rfl⟩ := h
  have hvalid := collectEvidence_valid hcollect
  subst hvalid
  have hlooked := foldlM_recordEvidence_records (collectEvidence_records hrecords hcollect) hlookups
  rw [evidence_ite] at htarget
  have hall : Records recorded (known ++ publicationClaims asOf target) := by
    have hlast := recordEvidence_records hlooked htarget
    rwa [List.append_assoc known, List.append_assoc known] at hlast
  have hcited := citedEvidence_eq hall target.targetId target.evidence
  refine ⟨?_, ?_⟩
  · split <;> exact hall
  · unfold publicationFindings assetObservedFinding publicationGapFinding
    simp only [publicationCell, publicationGapId, assetObservedId, addFinding, ← hcited]
    by_cases hnone : lookupEvidence asOf target = []
    · by_cases hgap : countedPublication target
          (target.evidence.any (proves asOf target.targetId (publicationKind target) none))
          ∈ publicationGaps <;>
        simp [hnone, hgap]
    · by_cases hgap : countedPublication target
          (target.evidence.any (proves asOf target.targetId (publicationKind target) none))
          ∈ publicationGaps <;>
        simp [hnone, hgap]

theorem projectMeasurement_records {branch branch' : MeasurementBranch} {target : ReportMeasurementTarget}
    (hrecords : Records branch.collected.evidence known)
    (h : projectMeasurement names asOf window revision branch target = .ok branch') :
    Records branch'.collected.evidence (known ++ measurementClaims asOf window target)
      ∧ branch'.collected.findings
        = branch.collected.findings
          ++ measurementFindings names asOf window (known ++ measurementClaims asOf window target) target := by
  unfold projectMeasurement at h
  simp only [eq_ok_iff] at h
  obtain ⟨_, _, _, _, ⟨_, _⟩, hcollect, recorded, htarget, rfl⟩ := h
  have hvalid := collectEvidence_valid hcollect
  subst hvalid
  have hall : Records recorded (known ++ measurementClaims asOf window target) := by
    have hlast := recordEvidence_records (collectEvidence_records hrecords hcollect) htarget
    rwa [List.append_assoc known] at hlast
  have hcited := citedEvidence_eq hall target.targetId target.evidence
  refine ⟨?_, ?_⟩
  · split <;> exact hall
  · unfold measurementFindings measurementGapFinding
    simp only [measurementCell, measurementGapId, addFinding, ← hcited]
    by_cases hgap : countedMeasurement target
        (target.evidence.any (proves asOf target.targetId "observation" (some window))
          && scheduledIn window target) ∈ measurementGaps
    · simp only [hgap, if_true]
      rfl
    · simp [hgap]

/-- The findings of targets, one after the other, each with what is known after it. -/
def findingsFrom {τ : Type} (claims : τ → List Claim) (findings : List Claim → τ → List ReportFinding) :
    List Claim → List τ → List ReportFinding
  | _, [] => []
  | known, target :: rest =>
    findings (known ++ claims target) target ++ findingsFrom claims findings (known ++ claims target) rest

/-- What reading targets one after the other records and finds. -/
structure ReadTargets {τ : Type} (claims : τ → List Claim) (findings : List Claim → τ → List ReportFinding)
    (known : List Claim) (targets : List τ) (collected collected' : Collected) : Prop where
  records : Records collected'.evidence (known ++ targets.flatMap claims)
  findings : collected'.findings = collected.findings ++ findingsFrom claims findings known targets

section ReadTargets

variable {τ σ : Type} {claims : τ → List Claim} {findings : List Claim → τ → List ReportFinding}

omit [Sha256] in
theorem ReadTargets.nil {collected : Collected} (hrecords : Records collected.evidence known) :
    ReadTargets claims findings known [] collected collected :=
  ⟨by simpa using hrecords, by simp [findingsFrom]⟩

omit [Sha256] in
theorem ReadTargets.foldlM {collected : σ → Collected} {step : σ → τ → Except AppError σ}
    (hstep : ∀ {known branch branch' target}, Records (collected branch).evidence known →
      step branch target = .ok branch' →
      Records (collected branch').evidence (known ++ claims target)
        ∧ (collected branch').findings = (collected branch).findings ++ findings (known ++ claims target) target)
    {targets : List τ} {branch branch' : σ} (hrecords : Records (collected branch).evidence known)
    (h : targets.foldlM step branch = .ok branch') :
    ReadTargets claims findings known targets (collected branch) (collected branch') := by
  induction targets generalizing branch known with
  | nil =>
    cases h
    exact .nil hrecords
  | cons _ _ ih =>
    rw [foldlM_cons, bind_eq_ok] at h
    obtain ⟨_, hfirst, hrest⟩ := h
    obtain ⟨hnext, hfindings⟩ := hstep hrecords hfirst
    obtain ⟨hlast, hlater⟩ := ih hnext hrest
    rw [List.append_assoc] at hlast
    exact ⟨hlast, by rw [hlater, hfindings, List.append_assoc, findingsFrom]⟩

end ReadTargets

/-! ### What is cited -/

/-- The kinds of the findings about publications and about measurements. -/
def publicationFindingKinds : List String :=
  "publication_asset_observed" :: publicationGaps.map ("publication_" ++ ·)

def measurementFindingKinds : List String :=
  measurementGaps.map ("measurement_" ++ ·)

/-- A finding of one of these kinds is named after one of the targets, and all it cites is claimed for that
target. -/
def CitesOwnOf (kinds : List String) (findingIds : Uuid → List Uuid) (targetIds : List Uuid)
    (claimed : Claim → Prop) (finding : ReportFinding) : Prop :=
  finding.kind ∈ kinds →
    ∃ targetId ∈ targetIds, finding.findingId ∈ findingIds targetId ∧ ∀ id ∈ finding.evidenceIds, claimed (id, targetId)

def publicationFindingIds (names targetId : Uuid) : List Uuid :=
  [assetObservedId names targetId, publicationGapId names targetId]

def measurementFindingIds (names targetId : Uuid) : List Uuid :=
  [measurementGapId names targetId]

/-- The report says of an evidence identifier what it is about. -/
def ReportProjection.Claims (projection : ReportProjection) (claim : Claim) : Prop :=
  ∃ reference ∈ projection.evidence, reference.evidenceId = claim.1 ∧ reference.resourceId = claim.2

/-- Every finding about a publication or a measurement cites evidence of the report about that target. -/
structure FindingsCiteOwn (input : ReportReduceInput) (projection : ReportProjection) : Prop where
  publications : ∀ finding ∈ projection.findings,
    CitesOwnOf publicationFindingKinds (publicationFindingIds projection.findingNamespace)
      ((input.publicationTargets.getD []).map ReportPublicationTarget.targetId) projection.Claims finding
  measurements : ∀ finding ∈ projection.findings,
    CitesOwnOf measurementFindingKinds (measurementFindingIds projection.findingNamespace)
      ((input.measurementTargets.getD []).map ReportMeasurementTarget.targetId) projection.Claims finding

omit [Sha256] in
/-- A target that cites itself and what is known of its references keeps to its own exactly when all it cites is
claimed for one target. -/
theorem own_iff {target : Reported} (hrecords : Records collected claims)
    (hself : (target.targetId, target.targetId) ∈ target.claims)
    (hown : ∀ claim ∈ target.claims, claim.2 = target.targetId)
    (hknown : ∀ claim ∈ known ++ target.claims, claim ∈ claims) (owner : Uuid) :
    (∀ id ∈ knownEvidence target.targetId target.evidence (known ++ target.claims), (id, owner) ∈ claims)
      ↔ owner = target.targetId ∧ target.Own known := by
  constructor
  · intro hcited
    have howner : owner = target.targetId :=
      hrecords.resource_eq (hcited _ mem_cons_self) (hknown _ (mem_append_right known hself))
    subst howner
    refine ⟨rfl, fun reference href claim hclaim hid => ?_⟩
    have hall := hknown claim (mem_append_left _ hclaim)
    have hcites : reference.evidenceId ∈ knownEvidence target.targetId target.evidence (known ++ target.claims) := by
      refine mem_cons_of_mem _ (mem_map.mpr ⟨reference, mem_filter.mpr ⟨href, ?_⟩, rfl⟩)
      exact any_eq_true.mpr ⟨claim, mem_append_left _ hclaim, decide_eq_true hid⟩
    exact hrecords.resource_eq hall (hid ▸ hcited _ hcites)
  · rintro ⟨rfl, hkeeps⟩ id hid
    rcases mem_cons.mp hid with rfl | hid
    · exact hknown _ (mem_append_right known hself)
    · obtain ⟨reference, href, rfl⟩ := mem_map.mp hid
      obtain ⟨href, hany⟩ := mem_filter.mp href
      obtain ⟨claim, hclaim, hsame⟩ := any_eq_true.mp hany
      have hsame := of_decide_eq_true hsame
      have hresource : claim.2 = target.targetId := by
        rcases mem_append.mp hclaim with hbefore | hit
        · exact hkeeps reference href claim hbefore hsame
        · exact hown claim hit
      rw [← hsame, ← hresource]
      exact hknown claim hclaim

omit [Sha256] in
/-- The findings of a list of targets cite their own exactly when every target does. -/
theorem forall_findingsFrom (reported : τ → Reported) {findings : List Claim → τ → List ReportFinding} {targets : List τ}
    (hknown : ∀ claim ∈ known ++ targets.flatMap (fun target => (reported target).claims), claim ∈ claims)
    (hstep : ∀ target ∈ targets, ∀ known,
      (∀ claim ∈ known ++ (reported target).claims, claim ∈ claims) →
        ((∀ finding ∈ findings (known ++ (reported target).claims) target, P finding)
          ↔ ((reported target).gap = true → (reported target).Own known))) :
    (∀ finding ∈ findingsFrom (fun target => (reported target).claims) findings known targets, P finding)
      ↔ KeepsOwn known (targets.map reported) := by
  induction targets generalizing known with
  | nil => simp [findingsFrom, KeepsOwn]
  | cons target _ ih =>
    rw [flatMap_cons, ← List.append_assoc] at hknown
    rw [findingsFrom, map_cons, KeepsOwn, forall_mem_append,
      hstep target mem_cons_self known fun claim hclaim => hknown claim (mem_append_left _ hclaim),
      ih hknown fun other hmem => hstep other (mem_cons_of_mem _ hmem)]

omit [Sha256] in
theorem gapFinding_citesOwn (target : Reported) (hrecords : Records collected claims)
    (hself : (target.targetId, target.targetId) ∈ target.claims)
    (hown : ∀ claim ∈ target.claims, claim.2 = target.targetId)
    (hknown : ∀ claim ∈ known ++ target.claims, claim ∈ claims) (hmem : target.targetId ∈ targetIds)
    (hkind : finding.kind ∈ kinds) (hid : finding.findingId ∈ findingIds target.targetId)
    (hcites : finding.evidenceIds = knownEvidence target.targetId target.evidence (known ++ target.claims)) :
    CitesOwnOf kinds findingIds targetIds (· ∈ claims) finding ↔ target.Own known := by
  have hcited (owner : Uuid) := own_iff hrecords hself hown hknown owner
  unfold CitesOwnOf
  rw [hcites]
  constructor
  · intro h
    obtain ⟨owner, -, -, hclaims⟩ := h hkind
    exact ((hcited owner).mp hclaims).2
  · intro hkeeps _
    exact ⟨target.targetId, hmem, hid, (hcited _).mpr ⟨rfl, hkeeps⟩⟩

omit [Sha256] in
theorem filter_proves_claims {targetId : Uuid} {kind : String}
    {window : Option (DateTime × DateTime)} {evidence : List ReportEvidenceReference} :
    ∀ claim ∈ (evidence.filter (proves asOf targetId kind window)).map
      ReportEvidenceReference.claim, claim.2 = targetId := by
  intro claim hclaim
  obtain ⟨_, href, rfl⟩ := mem_map.mp hclaim
  exact (proves_iff.mp (mem_filter.mp href).2).target

omit [Sha256] in
theorem publicationClaims_own : ∀ claim ∈ publicationClaims asOf target, claim.2 = target.targetId := by
  intro claim hclaim
  rcases mem_append.mp hclaim with hclaim | hself
  · rcases mem_append.mp hclaim with hproved | hlooked
    · exact filter_proves_claims claim hproved
    · exact filter_proves_claims claim hlooked
  · rw [mem_singleton.mp hself]

omit [Sha256] in
theorem measurementClaims_own {target : ReportMeasurementTarget} :
    ∀ claim ∈ measurementClaims asOf window target, claim.2 = target.targetId := by
  intro claim hclaim
  rcases mem_append.mp hclaim with hproved | hself
  · exact filter_proves_claims claim hproved
  · rw [mem_singleton.mp hself]

omit [Sha256] in
theorem forall_gapFinding {gap own : Prop} [Decidable gap]
    (h : gap → (P finding ↔ own)) : (∀ found ∈ if gap then [finding] else [], P found) ↔ (decide gap = true → own) := by
  by_cases hgap : gap <;> simp [hgap, h]

theorem publicationFindings_citeOwn (hrecords : Records collected claims)
    (hmem : target.targetId ∈ targetIds) (hknown : ∀ claim ∈ known ++ publicationClaims asOf target, claim ∈ claims) :
    (∀ finding ∈ publicationFindings names asOf (known ++ publicationClaims asOf target) target,
        CitesOwnOf publicationFindingKinds (publicationFindingIds names) targetIds (· ∈ claims) finding)
      ↔ ((publicationReported asOf target).gap = true → (publicationReported asOf target).Own known) := by
  have hasset : ∀ finding ∈ (if lookupEvidence asOf target = [] then []
        else [assetObservedFinding names asOf target]),
      CitesOwnOf publicationFindingKinds (publicationFindingIds names) targetIds (· ∈ claims) finding := by
    intro finding hfinding
    split at hfinding
    · cases hfinding
    · obtain rfl := mem_singleton.mp hfinding
      intro _
      refine ⟨target.targetId, hmem, mem_cons_self, fun id hid => hknown _ ?_⟩
      obtain ⟨_, href, rfl⟩ := mem_map.mp (mem_dedup.mp (((perm_insertionSort _ _).mem_iff).mp hid))
      have hresource := (proves_iff.mp (mem_filter.mp href).2).target
      rw [← hresource]
      exact mem_append_right _ (mem_append_left _ (mem_append_right _ (mem_map_of_mem href)))
  rw [publicationFindings, forall_mem_append, and_iff_right hasset]
  exact forall_gapFinding fun hgap => gapFinding_citesOwn (publicationReported asOf target) hrecords
    (mem_append_right _ mem_cons_self) publicationClaims_own hknown hmem
    (mem_cons_of_mem _ (mem_map_of_mem hgap)) (mem_cons_of_mem _ mem_cons_self) rfl

theorem measurementFindings_citeOwn {target : ReportMeasurementTarget} (hrecords : Records collected claims)
    (hmem : target.targetId ∈ targetIds)
    (hknown : ∀ claim ∈ known ++ measurementClaims asOf window target, claim ∈ claims) :
    (∀ finding ∈ measurementFindings names asOf window (known ++ measurementClaims asOf window target) target,
        CitesOwnOf measurementFindingKinds (measurementFindingIds names) targetIds (· ∈ claims) finding)
      ↔ ((measurementReported asOf window target).gap = true → (measurementReported asOf window target).Own known) := by
  rw [measurementFindings]
  exact forall_gapFinding fun hgap => gapFinding_citesOwn (measurementReported asOf window target) hrecords
    (mem_append_right _ mem_cons_self) measurementClaims_own hknown hmem (mem_map_of_mem hgap) mem_cons_self rfl

/-! ### The report -/

/-- The parts of an input that are there come with a reference to their manifest. -/
structure Referenced (canonical : ReportReduceInput) : Prop where
  documents : canonical.documentManifest.isSome → (manifestRef canonical .document).isSome
  publications : canonical.publicationTargets.isSome → (manifestRef canonical .distribution).isSome
  measurements : canonical.measurementTargets.isSome → (manifestRef canonical .measurement).isSome

omit [Sha256] in
theorem checkSealed_isSome {present : Bool} {reference : Option ReportManifestRef} {name : String}
    {u : Unit} (h : checkSealed present reference name = .ok u) (hpresent : present = true) :
    reference.isSome := by
  unfold checkSealed at h
  rw [failIf_eq_ok] at h
  have hsealed := not_not.mp fun hno => h ⟨hpresent, hno⟩
  cases reference with
  | none => cases hsealed
  | some reference => rfl

omit [Sha256] in
theorem checkReportInput_referenced {u : Unit} (h : checkReportInput scope input mode = .ok u) :
    Referenced input.canonical := by
  unfold checkReportInput checkDocuments at h
  simp only [eq_ok_iff] at h
  obtain ⟨_, _, _, _, _, _, _, hdocuments, _, hpublications, hmeasurements⟩ := h
  constructor
  case documents =>
    intro hsome
    obtain ⟨docs, hdocs⟩ := isSome_iff_exists.mp hsome
    by_contra hnone
    rw [not_isSome_iff_eq_none] at hnone
    refine hdocuments ⟨docs, hdocs, .inr (.inr (.inr ?_))⟩
    rw [hnone]
    exact Bool.false_ne_true
  case publications => exact checkSealed_isSome hpublications
  case measurements => exact checkSealed_isSome hmeasurements

/-- What the publications of an input record and find, when they have a manifest. -/
theorem projectPublications_branch {collected collected' : Collected}
    {groups : AssocMap String ReportCoverage} (hrecords : Records collected.evidence known)
    (href : canonical.publicationTargets.isSome → (manifestRef canonical .distribution).isSome)
    (h : projectPublications names asOf canonical.publicationTargets
      (manifestRef canonical .distribution) collected = .ok (coverage, groups, collected')) :
    ReadTargets (publicationClaims asOf) (publicationFindings names asOf) known
      (canonical.publicationTargets.getD []) collected collected' := by
  unfold projectPublications at h
  cases htargets : canonical.publicationTargets with
  | none =>
    rw [htargets] at h
    have hsame : collected' = collected := by
      cases hreference : manifestRef canonical .distribution with
      | none =>
        rw [hreference] at h
        cases h
        rfl
      | some reference =>
        rw [hreference] at h
        simp only at h
        split at h <;> cases h <;> rfl
    rw [hsame]
    exact .nil hrecords
  | some targets =>
    obtain ⟨_, hreference⟩ := isSome_iff_exists.mp (href (by rw [htargets]; rfl))
    rw [htargets, hreference] at h
    simp only [eq_ok_iff] at h
    obtain ⟨_, _, _, hfold, hresult⟩ := h
    cases hresult
    exact .foldlM projectPublication_records hrecords hfold

theorem projectMeasurements_branch {collected : Collected} {result : MeasurementResult}
    (hrecords : Records collected.evidence known)
    (href : canonical.measurementTargets.isSome → (manifestRef canonical .measurement).isSome)
    (h : projectMeasurements names asOf window canonical.measurementTargets
      (manifestRef canonical .measurement) collected = .ok result) :
    ReadTargets (measurementClaims asOf window) (measurementFindings names asOf window) known
      (canonical.measurementTargets.getD []) collected result.collected := by
  unfold projectMeasurements at h
  cases htargets : canonical.measurementTargets with
  | none =>
    rw [htargets] at h
    have hsame : result.collected = collected := by
      cases hreference : manifestRef canonical .measurement with
      | none =>
        rw [hreference] at h
        cases h
        rfl
      | some reference =>
        rw [hreference] at h
        cases h
        rfl
    rw [hsame]
    exact .nil hrecords
  | some targets =>
    obtain ⟨_, hreference⟩ := isSome_iff_exists.mp (href (by rw [htargets]; rfl))
    rw [htargets, hreference] at h
    simp only [eq_ok_iff] at h
    obtain ⟨_, _, _, hfold, hresult⟩ := h
    cases hresult
    exact .foldlM projectMeasurement_records hrecords hfold

/-- What is recorded before the first target. -/
def baseClaims (asOf : DateTime) (canonical : ReportReduceInput) : List Claim :=
  supplementClaims asOf canonical ++ documentClaims canonical

/-- What is recorded before the first measurement, and in the end. -/
def publishedClaims (asOf : DateTime) (canonical : ReportReduceInput) : List Claim :=
  baseClaims asOf canonical ++ (canonical.publicationTargets.getD []).flatMap (publicationClaims asOf)

def allClaims (asOf : DateTime) (canonical : ReportReduceInput) : List Claim :=
  publishedClaims asOf canonical
    ++ (canonical.measurementTargets.getD []).flatMap (measurementClaims asOf canonical.window)

/-- The findings of the three branches, one behind the other. -/
structure BranchFindings (names : Uuid) (asOf : DateTime) (canonical : ReportReduceInput)
    (branches : ReportBranches) (documents : List ReportFinding) : Prop where
  records : Records branches.evidence (allClaims asOf canonical)
  kinds : ∀ finding ∈ documents, finding.kind ∈ documentFindingKinds
  findings : branches.findings
    = documents
      ++ findingsFrom (publicationClaims asOf) (publicationFindings names asOf)
          (baseClaims asOf canonical) (canonical.publicationTargets.getD [])
      ++ findingsFrom (measurementClaims asOf canonical.window) (measurementFindings names asOf canonical.window)
          (publishedClaims asOf canonical) (canonical.measurementTargets.getD [])

theorem projectBranches_findings {branches : ReportBranches} (href : Referenced canonical)
    (h : projectBranches names asOf canonical = .ok branches) :
    ∃ documents, BranchFindings names asOf canonical branches documents := by
  unfold projectBranches at h
  simp only [eq_ok_iff] at h
  obtain ⟨supplements, hsupplements, evidence, hevidence, ⟨_, collected⟩, hdocuments,
    ⟨_, _, published⟩, hpublications, measured, hmeasurements, rfl⟩ := h
  obtain ⟨hbase, hkinds⟩ :=
    projectDocuments_records (supplements_records hsupplements hevidence) href.documents hdocuments
  obtain ⟨hpublished, hfound⟩ := projectPublications_branch hbase href.publications hpublications
  obtain ⟨hall, hlater⟩ := projectMeasurements_branch hpublished href.measurements hmeasurements
  exact ⟨collected.findings, hall, hkinds, by rw [ReportBranches.findings, hlater, hfound]; rfl⟩

omit [Sha256] in
theorem keepsOwn_append {targets targets' : List Reported} :
    KeepsOwn known (targets ++ targets')
      ↔ KeepsOwn known targets ∧ KeepsOwn (known ++ targets.flatMap Reported.claims) targets' := by
  induction targets generalizing known with
  | nil => simp [KeepsOwn]
  | cons _ _ ih =>
    rw [cons_append, KeepsOwn, KeepsOwn, ih, flatMap_cons, List.append_assoc, and_assoc]

omit [Sha256] in
theorem findingsFrom_kinds {claims : τ → List Claim} {findings : List Claim → τ → List ReportFinding} (h : ∀ known target, ∀ finding ∈ findings known target, finding.kind ∈ kinds)
    (known : List Claim) (targets : List τ) :
    ∀ finding ∈ findingsFrom claims findings known targets, finding.kind ∈ kinds := by
  induction targets generalizing known with
  | nil =>
    intro finding hmem
    cases hmem
  | cons target _ ih =>
    intro finding hmem
    rcases mem_append.mp hmem with hfirst | hrest
    · exact h _ target finding hfirst
    · exact ih _ finding hrest

theorem publicationFindings_kinds (known : List Claim) (target : ReportPublicationTarget) :
    ∀ finding ∈ publicationFindings names asOf known target, finding.kind ∈ publicationFindingKinds := by
  intro finding hmem
  rcases mem_append.mp hmem with hasset | hgap
  · split at hasset
    · cases hasset
    · rw [mem_singleton.mp hasset]
      exact mem_cons_self
  · split at hgap
    case isTrue hstatus =>
      rw [mem_singleton.mp hgap]
      exact mem_cons_of_mem _ (mem_map_of_mem hstatus)
    case isFalse => cases hgap

theorem measurementFindings_kinds (known : List Claim) (target : ReportMeasurementTarget) :
    ∀ finding ∈ measurementFindings names asOf window known target, finding.kind ∈ measurementFindingKinds := by
  intro finding hmem
  unfold measurementFindings at hmem
  split at hmem
  case isTrue hstatus =>
    rw [mem_singleton.mp hmem]
    exact mem_map_of_mem hstatus
  case isFalse => cases hmem

omit [Sha256] in
theorem citesOwnOf_of_kind {others : List String} {claimed : Claim → Prop}
    {findings : List ReportFinding} (hapart : ∀ kind ∈ others, kind ∉ kinds)
    (h : ∀ finding ∈ findings, finding.kind ∈ others) :
    ∀ finding ∈ findings, CitesOwnOf kinds findingIds targetIds claimed finding :=
  fun finding hmem hkind => absurd hkind (hapart _ (h finding hmem))

/-- The kinds of the findings about the report as a whole. -/
def reportFindingKinds : List String :=
  ["temporal_provenance_unavailable", "coverage_gap"]

/-- The findings about the report stand behind those of the branches. -/
theorem allFindings_eq (branches : ReportBranches) (names : Uuid) (mode : ProjectionMode)
    (canonical : ReportReduceInput) :
    ∃ about : List ReportFinding, (∀ finding ∈ about, finding.kind ∈ reportFindingKinds)
      ∧ branches.allFindings names mode canonical = branches.findings ++ about := by
  have htemporal (docs : DocumentManifest) :
      (temporalFinding names mode.isOfficial docs).kind ∈ reportFindingKinds := mem_cons_self
  have hgap : (gapFinding names mode.isOfficial).kind ∈ reportFindingKinds := mem_cons_of_mem _ mem_cons_self
  unfold ReportBranches.allFindings
  cases canonical.documentManifest with
  | none =>
    simp only
    split
    · exact ⟨[], by simp, by simp⟩
    · exact ⟨[_], by simpa using hgap, rfl⟩
  | some docs =>
    simp only
    split <;> split
    · exact ⟨[], by simp, by simp⟩
    · exact ⟨[temporalFinding names mode.isOfficial docs], by simpa using htemporal docs, rfl⟩
    · exact ⟨[_], by simpa using hgap, rfl⟩
    · exact ⟨[temporalFinding names mode.isOfficial docs, gapFinding names mode.isOfficial],
        by simpa using ⟨htemporal docs, hgap⟩, by simp⟩

variable [InstantJson] [InstantDisplay]

omit [Sha256] [InstantJson] [InstantDisplay] in
/-- The recorded evidence says what is claimed, and each identifier once. -/
theorem Records.listed (h : Records collected claims) :
    (∀ claim, (∃ reference ∈ (inKeyOrder collected).map (·.2),
        reference.evidenceId = claim.1 ∧ reference.resourceId = claim.2) ↔ claim ∈ claims)
      ∧ (((inKeyOrder collected).map (·.2)).map evidenceId).Nodup := by
  constructor
  · intro claim
    rw [h.claimed claim]
    constructor
    · rintro ⟨reference, hmem, hid, hresource⟩
      obtain ⟨e, he, rfl⟩ := mem_map.mp hmem
      have hlook := mem_inKeyOrder.mp he
      have hkey := h.keyed _ _ hlook
      exact ⟨e.2, by rw [← hid, hkey, hlook], hresource⟩
    · rintro ⟨reference, hlook, hresource⟩
      exact ⟨reference, mem_map.mpr ⟨(claim.1, reference), mem_inKeyOrder.mpr hlook, rfl⟩, h.keyed _ _ hlook, hresource⟩
  · have hkeys : ((inKeyOrder collected).map (·.2)).map evidenceId = (inKeyOrder collected).map Prod.fst := by
      rw [List.map_map]
      apply map_congr_left
      intro e he
      exact h.keyed _ _ (mem_inKeyOrder.mp he)
    rw [hkeys]
    exact inKeyOrder_keys_nodup collected

omit [Sha256] [InstantJson] [InstantDisplay] in
theorem canonical_targetId {targetId : τ → Uuid} (canonical : τ → τ)
    (hsame : ∀ target, targetId (canonical target) = targetId target) {targets : Option (List τ)} {target : τ}
    (h : target ∈ (targets.map fun listed => (sortByKey targetId listed).map canonical).getD []) :
    targetId target ∈ (targets.getD []).map targetId := by
  cases targets with
  | none => cases h
  | some listed =>
    obtain ⟨_, hraw, rfl⟩ := mem_map.mp h
    rw [hsame]
    exact mem_map_of_mem (((sortByKey_perm targetId listed).mem_iff).mp hraw)

theorem projectReport_citesOwn {now : DateTime} {projection : ReportProjection}
    (h : projectReport scope input now mode = .ok projection) :
    (FindingsCiteOwn input projection ↔ OwnReferences (evidenceAsOf input now mode) input)
      ∧ (projection.evidence.map evidenceId).Nodup := by
  unfold projectReport at h
  simp only [eq_ok_iff] at h
  obtain ⟨_, hchecked, branches, hbranches, _, _, rfl⟩ := h
  generalize hnames : findingNamespace scope input input.canonical now mode = names at hbranches
  obtain ⟨_, hrecords, hkinds, hfindings⟩ := projectBranches_findings (checkReportInput_referenced hchecked) hbranches
  obtain ⟨_, habout, hall⟩ := allFindings_eq branches names mode input.canonical
  obtain ⟨hlisted, hnodup⟩ := hrecords.listed
  refine ⟨?_, hnodup⟩
  set asOf := evidenceAsOf input now mode
  have hclaims : (branches.projection names asOf mode input.canonical).Claims = (· ∈ allClaims asOf input.canonical) :=
    funext fun claim => propext (hlisted claim)
  have hpublications :
      (∀ finding ∈ branches.allFindings names mode input.canonical,
        CitesOwnOf publicationFindingKinds (publicationFindingIds names)
          ((input.publicationTargets.getD []).map ReportPublicationTarget.targetId)
          (· ∈ allClaims asOf input.canonical) finding)
        ↔ KeepsOwn (baseClaims asOf input.canonical)
            ((input.canonical.publicationTargets.getD []).map (publicationReported asOf)) := by
    rw [hall, hfindings]
    simp only [forall_mem_append]
    refine Iff.trans ⟨fun h => h.1.1.2, fun h => ⟨⟨⟨?_, h⟩, ?_⟩, ?_⟩⟩
      (forall_findingsFrom (publicationReported asOf)
        (fun claim hclaim => mem_append_left _ hclaim) fun target hmem known hknown =>
          publicationFindings_citeOwn hrecords
            (canonical_targetId ReportPublicationTarget.canonical (fun _ => rfl) hmem) hknown)
    · exact citesOwnOf_of_kind (by decide) hkinds
    · exact citesOwnOf_of_kind (by decide) (findingsFrom_kinds measurementFindings_kinds _ _)
    · exact citesOwnOf_of_kind (by decide) habout
  have hmeasurements :
      (∀ finding ∈ branches.allFindings names mode input.canonical,
        CitesOwnOf measurementFindingKinds (measurementFindingIds names)
          ((input.measurementTargets.getD []).map ReportMeasurementTarget.targetId)
          (· ∈ allClaims asOf input.canonical) finding)
        ↔ KeepsOwn (publishedClaims asOf input.canonical)
            ((input.canonical.measurementTargets.getD []).map (measurementReported asOf input.window)) := by
    rw [hall, hfindings]
    simp only [forall_mem_append]
    refine Iff.trans ⟨fun h => h.1.2, fun h => ⟨⟨⟨?_, ?_⟩, h⟩, ?_⟩⟩
      (forall_findingsFrom (measurementReported asOf input.window)
        (fun claim hclaim => hclaim) fun target hmem known hknown =>
          measurementFindings_citeOwn hrecords
            (canonical_targetId ReportMeasurementTarget.canonical (fun _ => rfl) hmem) hknown)
    · exact citesOwnOf_of_kind (by decide) hkinds
    · exact citesOwnOf_of_kind (by decide) (findingsFrom_kinds publicationFindings_kinds _ _)
    · exact citesOwnOf_of_kind (by decide) habout
  have hkeeps : OwnReferences asOf input
      ↔ KeepsOwn (baseClaims asOf input.canonical)
            ((input.canonical.publicationTargets.getD []).map (publicationReported asOf))
        ∧ KeepsOwn (publishedClaims asOf input.canonical)
            ((input.canonical.measurementTargets.getD []).map (measurementReported asOf input.window)) := by
    unfold OwnReferences ReportReduceInput.reported
    rw [keepsOwn_append, flatMap_map]
    rfl
  rw [hkeeps, ← hpublications, ← hmeasurements]
  constructor
  · intro hown
    have hpub := hown.publications
    have hmeas := hown.measurements
    rw [hclaims] at hpub hmeas
    exact ⟨hpub, hmeas⟩
  · rintro ⟨_, _⟩
    constructor
    case publications => rwa [hclaims]
    case measurements => rwa [hclaims]

/-- The findings about publications and measurements cite evidence of their own target exactly when no target with
a finding names an identifier that was recorded for another resource before it. Every identifier of the evidence
names one reference. -/
theorem findings_citeOwn (scope : TenantScope) (input : ReportReduceInput) (now : DateTime) (mode : ProjectionMode)
    (projection : ReportProjection) (h : projectReport scope input now mode = .ok projection) :
    (FindingsCiteOwn input projection ↔ OwnReferences (evidenceAsOf input now mode) input)
      ∧ (projection.evidence.map ReportEvidenceReference.evidenceId).Nodup :=
  projectReport_citesOwn h

end Branches

namespace Sample

section

attribute [local instance] secureHash secondJson secondDisplay

theorem findings_citeOwn_sample :
    ∃ projection, projectReport scope reportInput (second 7) (.official 1 none) = .ok projection
      ∧ FindingsCiteOwn reportInput projection := by
  have hok : (projectReport scope reportInput (second 7) (.official 1 none)).isOk = true := by
    decide +kernel
  cases h : projectReport scope reportInput (second 7) (.official 1 none) with
  | ok projection =>
    refine ⟨projection, rfl, (findings_citeOwn _ _ _ _ projection h).1.mpr ?_⟩
    decide +kernel
  | error e =>
    rw [h] at hok
    cases hok

/-- The second publication failed and lists the receipt of the first. -/
def borrowedInput : ReportReduceInput :=
  { reportInput with
    publicationTargets :=
      some
        [{ targetId := uuid 31, platformId := "zhihu", status := .verified, reason := none
           evidence := [receipt (uuid 41) (uuid 31) "public_verification" 2 3] },
          { targetId := uuid 32, platformId := "weixin", status := .failed, reason := none
            evidence := [receipt (uuid 41) (uuid 31) "public_verification" 2 3] }] }

/-- Its finding cites the receipt of the other publication. -/
theorem borrowedReceipt_cited :
    ∃ projection, projectReport scope borrowedInput (second 7) (.official 1 none) = .ok projection
      ∧ ¬ FindingsCiteOwn borrowedInput projection := by
  have hok : (projectReport scope borrowedInput (second 7) (.official 1 none)).isOk = true := by
    decide +kernel
  cases h : projectReport scope borrowedInput (second 7) (.official 1 none) with
  | ok projection =>
    refine ⟨projection, rfl, fun hown => ?_⟩
    have hkeeps := (projectReport_citesOwn h).1.mp hown
    revert hkeeps
    decide +kernel
  | error e =>
    rw [h] at hok
    cases hok

end

end Sample

end GeoMaster
