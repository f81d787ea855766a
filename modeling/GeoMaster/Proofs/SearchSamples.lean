import GeoMaster.Domain.SearchReport
import GeoMaster.Lib.Folds
import GeoMaster.Lib.Tally
import GeoMaster.Proofs.SerpTargets

/-!
# Search samples

What is built passes the check of the section it goes into: the two state their conditions apart, and
`checkSampleEvidence_of_eligible` goes through them. The selection is the greatest eligible candidate; candidates with ids of
their own, as the pages give them (`collected_apart`), are selected alike in every order.
-/

namespace GeoMaster

open Except AssocMap List Option SerpReportObservation

namespace SearchReport

open Selection

/-! ### The pages -/

/-- The candidates of a measurement come with increasing ids, none behind the cursor. -/
def Increasing (pages : ObservationPages) : Prop :=
  ∀ measurementId held, pages.observations.lookup measurementId = some held →
    (held.map (·.observation.observationId)).Pairwise (· < ·)
      ∧ ∀ candidate ∈ held, ∃ cursor, pages.cursor = some cursor ∧ candidate.observation.observationId ≤ cursor

variable {candidate : SerpReportObservation}

variable {ids : List Uuid} {measurement : SerpMeasurement} {evidence : MeasurementPeriodSearchEvidence}
  {samples : List MeasurementPeriodSearchSample} {candidates' : List SerpReportObservation}

theorem Increasing.step {pages pages' : ObservationPages} (h : Increasing pages)
    (hstep : takeCandidate ids pages candidate = .ok pages') : Increasing pages' := by
  unfold takeCandidate at hstep
  simp only [eq_ok_iff, not_or, not_exists, not_and, not_not] at hstep
  obtain ⟨_, ⟨hcursor, -⟩, rfl⟩ := hstep
  -- What the cursor has passed is before the candidate.
  have hbehind : ∀ cursor, pages.cursor = some cursor → cursor < candidate.observation.observationId :=
    fun cursor hsome => BitVec.not_le.mp (hcursor cursor hsome)
  intro measurementId held hlookup
  rw [lookup_insert] at hlookup
  split at hlookup
  · cases hlookup
    cases hold : pages.observations.lookup candidate.observation.measurementId with
    | none =>
      refine ⟨pairwise_singleton _ _, ?_⟩
      intro other hother
      rw [getD_none, nil_append, mem_singleton] at hother
      exact ⟨_, rfl, hother ▸ BitVec.le_refl _⟩
    | some old =>
      obtain ⟨hincreasing, hpassed⟩ := h _ old hold
      have hbefore : ∀ other ∈ old, other.observation.observationId < candidate.observation.observationId := by
        intro other hother
        obtain ⟨cursor, hsome, hle⟩ := hpassed other hother
        exact BitVec.lt_def.mpr (Nat.lt_of_le_of_lt (BitVec.le_def.mp hle) (BitVec.lt_def.mp (hbehind cursor hsome)))
      rw [getD_some]
      refine ⟨?_, ?_⟩
      · rw [map_append, pairwise_append]
        refine ⟨hincreasing, pairwise_singleton _ _, ?_⟩
        intro id hid id' hid'
        obtain ⟨other, hother, rfl⟩ := mem_map.mp hid
        rw [map_singleton, mem_singleton] at hid'
        exact hid' ▸ hbefore other hother
      · intro other hother
        refine ⟨_, rfl, ?_⟩
        rcases mem_append.mp hother with hother | hother
        · exact BitVec.le_of_lt (hbefore other hother)
        · exact mem_singleton.mp hother ▸ BitVec.le_refl _
  · obtain ⟨hincreasing, hpassed⟩ := h measurementId held hlookup
    refine ⟨hincreasing, fun other hother => ?_⟩
    obtain ⟨cursor, hsome, hle⟩ := hpassed other hother
    exact ⟨_, rfl, BitVec.le_trans hle (BitVec.le_of_lt (hbehind cursor hsome))⟩

/-- The candidates that the pages give for a measurement have ids of their own. -/
theorem collected_apart {pages : List (List SerpReportObservation)} {state : ObservationPages}
    (h : collectObservations ids pages = .ok state) (measurementId : Uuid) :
    (((state.observations.lookup measurementId).getD []).map (·.observation.observationId)).Nodup := by
  have hincreasing : Increasing state := by
    refine foldlM_preserves Increasing ?_ ?_ h
    · intro measurementId held hlookup
      cases hlookup
    · intro page _ s s' hs hpage
      exact foldlM_preserves Increasing hs (fun candidate _ t t' ht hstep => ht.step hstep) hpage
  cases hlookup : state.observations.lookup measurementId with
  | none => exact nodup_nil
  | some held =>
    rw [getD_some]
    refine (hincreasing measurementId held hlookup).1.imp ?_
    rintro id _ hlt rfl
    exact BitVec.lt_irrefl _ hlt

/-! ### What is built -/

theorem apart_of_ids {candidates : List SerpReportObservation}
    (h : (candidates.map (·.observation.observationId)).Nodup) : Selection.Apart order candidates := by
  intro a ha b hb hkey
  have hplace : a.observation.observationId.bits.toNat = b.observation.observationId.bits.toNat :=
    congrArg (fun key => (ofLex (ofLex key).2).2) hkey
  have hid : a.observation.observationId = b.observation.observationId := by
    show (⟨a.observation.observationId.bits⟩ : Uuid) = ⟨b.observation.observationId.bits⟩
    rw [BitVec.eq_of_toNat_eq hplace]
  exact inj_on_of_nodup_map h ha hb hid

variable [UrlWriter] {cohort : MeasurementPeriodSearchIdentity} {candidates : List SerpReportObservation}
  {window : MeasurementPeriodWindow} {cutoff : DateTime} {sample : MeasurementPeriodSearchSample}

theorem isEligible_iff :
    candidate.isEligible measurement window cutoff = true
      ↔ candidate.observation.validate measurement = .ok () ∧ candidate.isBound = true ∧ candidate.isTimely cutoff
        = true ∧ candidate.fitsOperation = true ∧ window.startAt ≤ candidate.observation.evidenceTime
        ∧ candidate.observation.evidenceTime < window.endAt := by
  rw [isEligible, decide_eq_true_eq]

/-- A sample is its cohort, with the evidence of the candidate that is selected. -/
theorem build_eq_ok :
    buildMeasurementPeriodSearchSample cohort candidates window cutoff = .ok sample
      ↔ cohort.validate window cutoff = .ok () ∧ sample.cohort = cohort
        ∧ ((selectCandidate cohort candidates window cutoff = none ∧ sample.evidence = none)
          ∨ ∃ candidate evidence, selectCandidate cohort candidates window cutoff = some candidate
            ∧ candidate.evidence cohort.measurement = .ok evidence ∧ sample.evidence = some evidence) := by
  obtain ⟨sampleCohort, _⟩ := sample
  unfold buildMeasurementPeriodSearchSample
  rw [bind_eq_ok]
  cases hselected : selectCandidate cohort candidates window cutoff with
  | none =>
    constructor
    · rintro ⟨_, hvalid, hsample⟩
      cases hsample
      exact ⟨hvalid, rfl, .inl ⟨rfl, rfl⟩⟩
    · rintro ⟨hvalid, rfl, ⟨-, rfl⟩ | ⟨_, _, hnone, -⟩⟩
      · exact ⟨(), hvalid, rfl⟩
      · cases hnone
  | some candidate =>
    constructor
    · rintro ⟨_, hvalid, hsample⟩
      rw [bind_eq_ok] at hsample
      obtain ⟨evidence, hevidence, hsame⟩ := hsample
      cases hsame
      exact ⟨hvalid, rfl, .inr ⟨candidate, evidence, rfl, hevidence, rfl⟩⟩
    · rintro ⟨hvalid, rfl, ⟨hsome, -⟩ | ⟨_, evidence, hsome, hevidence, rfl⟩⟩
      · cases hsome
      · cases hsome
        refine ⟨(), hvalid, ?_⟩
        show (candidate.evidence sampleCohort.measurement >>= _) = _
        rw [hevidence]
        rfl

theorem evidence_eq_ok (h : candidate.evidence measurement = .ok evidence) :
    candidate.observation.targetMatch measurement = .ok evidence.targetMatch ∧ evidence.observation
      = candidate.observation ∧ evidence.rawStoredAt = candidate.raw.storedAt ∧ evidence.observationStoredAt
      = candidate.observationStoredAt ∧ evidence.evidenceTime = candidate.observation.evidenceTime
      ∧ evidence.evidenceTimeBasis = candidate.observation.evidenceTimeBasis := by
  unfold SerpReportObservation.evidence at h
  rw [bind_eq_ok] at h
  obtain ⟨_, hmatch, hsame⟩ := h
  cases hsame
  exact ⟨hmatch, rfl, rfl, rfl, rfl, rfl⟩

/-- The evidence of an eligible candidate passes the check of the section, for the same window and cutoff. -/
theorem checkSampleEvidence_of_eligible (heligible : candidate.isEligible cohort.measurement window cutoff = true)
    (hevidence : candidate.evidence cohort.measurement = .ok evidence) :
    checkSampleEvidence cohort window cutoff evidence = .ok () := by
  obtain ⟨hvalid, -, htimely, -, hstart, hend⟩ := isEligible_iff.mp heligible
  rw [isTimely, decide_eq_true_eq] at htimely
  obtain ⟨-, hraw, hreceived, hanalyzed, hobserved, hstored⟩ := htimely
  obtain ⟨hmatch, hobservation, hrawStored, hobservationStored, htime, hbasis⟩ := evidence_eq_ok hevidence
  unfold checkSampleEvidence
  rw [hobservation, hrawStored, hobservationStored, htime, hbasis]
  simp only [eq_ok_iff]
  refine ⟨(), hvalid, (), ?_, evidence.targetMatch, hmatch, fun hne => hne rfl⟩
  rintro (h | h | h | h | h | h | ⟨at_, hat, h⟩ | h | h)
  · exact h rfl
  · exact h rfl
  · exact absurd hstart (not_le.mpr h)
  · exact absurd hend (not_lt.mpr h)
  · exact absurd hreceived (not_le.mpr h)
  · exact absurd hanalyzed (not_le.mpr h)
  · exact absurd (hobserved at_ hat) (not_le.mpr h)
  · exact absurd hraw (not_le.mpr h)
  · exact absurd hstored (not_le.mpr h)

theorem selected_eligible (h : selectCandidate cohort candidates window cutoff = some candidate) :
    candidate ∈ candidates ∧ candidate.isEligible cohort.measurement window cutoff = true :=
  mem_filter.mp (maxByKey_mem h)

/-! ### The section -/

/-- A sample that is built for a window and a cutoff. -/
def Built (window : MeasurementPeriodWindow) (cutoff : DateTime) (sample : MeasurementPeriodSearchSample) : Prop :=
  ∃ cohort candidates, buildMeasurementPeriodSearchSample cohort candidates window cutoff = .ok sample

theorem Built.checked (h : Built window cutoff sample) :
    sample.cohort.validate window cutoff = .ok ()
      ∧ sample.evidence.forM (checkSampleEvidence sample.cohort window cutoff) = .ok () := by
  obtain ⟨_, _, hbuild⟩ := h
  obtain ⟨hvalid, rfl, ⟨-, hnone⟩ | ⟨_, _, hselected, hevidence, hsome⟩⟩ := build_eq_ok.mp hbuild
  · rw [hnone]
    exact ⟨hvalid, rfl⟩
  · rw [hsome]
    exact ⟨hvalid, checkSampleEvidence_of_eligible (selected_eligible hselected).2 hevidence⟩

/-- Samples that are built, with measurements of their own, are accepted one after the other. -/
theorem foldlM_checkSample {samples : List MeasurementPeriodSearchSample} {scan : SectionScan}
    (hbuilt : ∀ sample ∈ samples, Built window cutoff sample) (honce : (samples.map (·.cohort.measurementId)).Nodup)
    (hnew : ∀ sample ∈ samples, sample.cohort.measurementId ∉ scan.seen) :
    ∃ scan', samples.foldlM (checkSample window cutoff) scan = .ok scan' := by
  induction samples generalizing scan with
  | nil => exact ⟨scan, rfl⟩
  | cons sample _ ih =>
    rw [map_cons, nodup_cons] at honce
    rw [forall_mem_cons] at hbuilt hnew
    obtain ⟨hvalid, hevidence⟩ := hbuilt.1.checked
    obtain ⟨next, hstep⟩ : ∃ next, checkSample window cutoff scan sample = .ok next := by
      unfold checkSample
      rw [hvalid, hevidence]
      simp only [eq_ok_iff]
      exact ⟨_, (), trivial, (), hnew.1, (), trivial, rfl⟩
    have hseen : next.seen = sample.cohort.measurementId :: scan.seen := by
      unfold checkSample at hstep
      simp only [eq_ok_iff] at hstep
      obtain ⟨_, -, _, -, _, -, rfl⟩ := hstep
      rfl
    obtain ⟨scan', hrest⟩ := @ih next hbuilt.2 honce.2 fun other hother hmem => by
      rw [hseen, mem_cons] at hmem
      rcases hmem with hmem | hmem
      · exact honce.1 (mem_map.mpr ⟨other, hother, hmem⟩)
      · exact hnew.2 other hother hmem
    refine ⟨scan', ?_⟩
    rw [foldlM_cons, bind_eq_ok]
    exact ⟨next, hstep, hrest⟩

/-- The coverage after some samples. -/
def Covered (read : List MeasurementPeriodSearchSample) (scan : SectionScan) : Prop :=
  scan.coverage.planned = read.length
    ∧ Tally.Counts scan.coverage.counts (read.map MeasurementPeriodSearchSample.status)

theorem covered_foldlM {scan : SectionScan}
    (h : samples.foldlM (checkSample window cutoff) .empty = .ok scan) : Covered samples scan := by
  refine foldlM_invariant Covered ⟨rfl, Tally.Counts.nil⟩ ?_ h
  intro read sample s s' hread hstep
  unfold checkSample at hstep
  simp only [eq_ok_iff] at hstep
  obtain ⟨_, -, _, -, _, -, rfl⟩ := hstep
  constructor
  · rw [length_append]
    exact congrArg (· + 1) hread.1
  · rw [map_append]
    exact hread.2.add sample.status

theorem section_counts {result : MeasurementPeriodSearchSection}
    (h : measurementPeriodSearchSection samples window cutoff = .ok result) :
    result.samples.Perm samples ∧ result.coverage.planned = samples.length
      ∧ (values result.coverage.counts).sum = result.coverage.planned := by
  unfold measurementPeriodSearchSection at h
  rw [bind_eq_ok] at h
  obtain ⟨scan, hscan, hresult⟩ := h
  cases hresult
  have hcovered := covered_foldlM hscan
  have hperm := perm_insertionSort
    (fun a b : MeasurementPeriodSearchSample => a.cohort.measurementId ≤ b.cohort.measurementId) samples
  refine ⟨hperm, hcovered.1.trans hperm.length_eq, ?_⟩
  show (values scan.coverage.counts).sum = scan.coverage.planned
  rw [hcovered.2.sum, length_map]
  exact hcovered.1.symm

theorem section_of_built
    (hbuilt : ∀ sample ∈ samples, Built window cutoff sample) (honce : (samples.map (·.cohort.measurementId)).Nodup) :
    ∃ result, measurementPeriodSearchSection samples window cutoff = .ok result := by
  have hperm := perm_insertionSort
    (fun a b : MeasurementPeriodSearchSample => a.cohort.measurementId ≤ b.cohort.measurementId) samples
  obtain ⟨scan, hscan⟩ := @foldlM_checkSample _ window cutoff _ .empty
    (fun sample hmem => hbuilt sample (hperm.mem_iff.mp hmem)) ((hperm.map _).nodup_iff.mpr honce)
    fun _ _ => not_mem_nil
  exact ⟨_, bind_eq_ok.mpr ⟨scan, hscan, rfl⟩⟩

/-! ### The selection -/

theorem select_perm
    (hids : (candidates.map (·.observation.observationId)).Nodup) (hperm : candidates.Perm candidates') :
    selectCandidate cohort candidates' window cutoff = selectCandidate cohort candidates window cutoff := by
  refine (maxByKey_congr (apart_of_ids hids).filter fun candidate => ?_).symm
  rw [mem_filter, mem_filter, hperm.mem_iff]

theorem isTimely_of_eligible
    (h : candidate.isEligible measurement window cutoff = true) : candidate.isTimely cutoff = true :=
  (isEligible_iff.mp h).2.2.1

/-- Only what was there at the cutoff is looked at. -/
theorem select_timely (h : candidates'.filter (·.isTimely cutoff) = candidates.filter (·.isTimely cutoff)) :
    selectCandidate cohort candidates' window cutoff = selectCandidate cohort candidates window cutoff := by
  have hsame : ∀ l : List SerpReportObservation,
      l.filter (isEligible cohort.measurement window cutoff)
        = (l.filter (·.isTimely cutoff)).filter (isEligible cohort.measurement window cutoff) := by
    intro l
    rw [List.filter_filter]
    refine filter_congr fun candidate _ => ?_
    cases heligible : candidate.isEligible cohort.measurement window cutoff with
    | false => rfl
    | true => rw [isTimely_of_eligible heligible]; rfl
  unfold selectCandidate
  rw [hsame candidates', hsame candidates, h]

theorem build_congr
    (h : selectCandidate cohort candidates' window cutoff = selectCandidate cohort candidates window cutoff) :
    buildMeasurementPeriodSearchSample cohort candidates' window cutoff
      = buildMeasurementPeriodSearchSample cohort candidates window cutoff := by
  unfold buildMeasurementPeriodSearchSample
  rw [h]

/-! ### The sample -/

/-- A sample that is built passes the check of every section it is in, holds the greatest eligible candidate, and is
the same for every order of candidates with ids of their own and for whatever else comes after the cutoff. -/
theorem searchSample_agrees (h : buildMeasurementPeriodSearchSample cohort candidates window cutoff = .ok sample) :
    (∀ samples, sample ∈ samples → (∀ other ∈ samples, Built window cutoff other) →
        (samples.map (·.cohort.measurementId)).Nodup →
        ∃ result, measurementPeriodSearchSection samples window cutoff = .ok result)
      ∧ (∀ samples result, measurementPeriodSearchSection samples window cutoff = .ok result →
          result.samples.Perm samples ∧ result.coverage.planned = samples.length
            ∧ (values result.coverage.counts).sum = result.coverage.planned)
      ∧ (sample.evidence = none → ∀ candidate ∈ candidates,
          candidate.isEligible cohort.measurement window cutoff = false)
      ∧ (∀ evidence, sample.evidence = some evidence → ∃ candidate ∈ candidates,
          candidate.isEligible cohort.measurement window cutoff = true
            ∧ candidate.evidence cohort.measurement = .ok evidence
            ∧ ∀ other ∈ candidates, other.isEligible cohort.measurement window cutoff = true →
              other.order ≤ candidate.order)
      ∧ (∀ candidate ∈ candidates, candidate.isEligible cohort.measurement window cutoff = true →
          candidate.observation.isUseful = true →
          ∃ evidence, sample.evidence = some evidence ∧ evidence.observation.isUseful = true)
      ∧ ((candidates.map (·.observation.observationId)).Nodup → ∀ candidates', candidates.Perm candidates' →
          buildMeasurementPeriodSearchSample cohort candidates' window cutoff = .ok sample)
      ∧ ∀ candidates', candidates'.filter (·.isTimely cutoff) = candidates.filter (·.isTimely cutoff) →
          buildMeasurementPeriodSearchSample cohort candidates' window cutoff = .ok sample := by
  obtain ⟨-, -, hcase⟩ := build_eq_ok.mp h
  have hnone : sample.evidence = none → ∀ candidate ∈ candidates,
      candidate.isEligible cohort.measurement window cutoff = false := by
    intro hempty candidate hmem
    rcases hcase with ⟨hselected, -⟩ | ⟨_, evidence, -, -, hsome⟩
    · have hnil := maxByKey_eq_none.mp hselected
      exact Bool.eq_false_of_not_eq_true fun heligible =>
        not_mem_nil (hnil ▸ mem_filter.mpr ⟨hmem, heligible⟩)
    · rw [hempty] at hsome
      cases hsome
  have hsome : ∀ evidence, sample.evidence = some evidence → ∃ candidate ∈ candidates,
      candidate.isEligible cohort.measurement window cutoff = true
        ∧ candidate.evidence cohort.measurement = .ok evidence
        ∧ ∀ other ∈ candidates, other.isEligible cohort.measurement window cutoff = true →
          other.order ≤ candidate.order := by
    intro evidence hevidence
    rcases hcase with ⟨-, hempty⟩ | ⟨candidate, evidence', hselected, hread, hsame⟩
    · rw [hempty] at hevidence
      cases hevidence
    · rw [hsame] at hevidence
      cases hevidence
      obtain ⟨hmem, heligible⟩ := selected_eligible hselected
      refine ⟨candidate, hmem, heligible, hread, fun other hother hother' => ?_⟩
      exact le_of_maxByKey hselected (mem_filter.mpr ⟨hother, hother'⟩)
  refine ⟨?_, ?_, hnone, hsome, ?_, ?_, ?_⟩
  · exact fun samples _ hbuilt honce => section_of_built hbuilt honce
  · exact fun samples result hresult => section_counts hresult
  · intro useful hmem heligible huseful
    cases hevidence : sample.evidence with
    | none =>
      rw [hnone hevidence useful hmem] at heligible
      cases heligible
    | some evidence =>
      obtain ⟨_, -, -, hread, hgreatest⟩ := hsome evidence hevidence
      refine ⟨evidence, rfl, ?_⟩
      rw [(evidence_eq_ok hread).2.1]
      -- Usefulness is the first part of the key.
      have hkey := hgreatest useful hmem heligible
      rw [order, order, Prod.Lex.le_iff] at hkey
      rw [huseful] at hkey
      rcases hkey with hlt | ⟨hsame, -⟩
      · exact absurd hlt (not_lt_of_ge (Bool.le_true _))
      · exact hsame.symm
  · intro hids candidates' hperm
    rw [build_congr (select_perm hids hperm)]
    exact h
  · intro candidates' hsame
    rw [build_congr (select_timely hsame)]
    exact h

end SearchReport

/-! ### A sample period -/

namespace Sample

attribute [local instance] threeHosts

def searchWindow : MeasurementPeriodWindow where
  startAt := 0
  endAt := 10
  reportTimezone := "UTC"

def searchIdentity : MeasurementPeriodSearchIdentity where
  measurementId := uuid 1
  sourceKey := "source"
  query := "query"
  protocol := searchProtocol
  target := some (.host "b.example" true)
  targetRuleVersion := serpTargetRuleVersion
  questionBinding := none
  scheduledAt := 0
  createdAt := 0
  storedAt := 1

/-- The observation of the sample search, stored at some time. -/
def searchCandidate (storedAt : DateTime) : SerpReportObservation where
  observation := searchObservation
  observationStoredAt := storedAt
  raw :=
    { evidenceId := uuid 4, measurementId := uuid 1, attemptId := uuid 3, operation := .resultRead
      responseSha256 := searchObservation.rawSha256, bodyComplete := true, capturedAt := 5, storedAt := 5 }

def searchSample (storedAt : DateTime) : MeasurementPeriodSearchSample where
  cohort := searchIdentity
  evidence := some
    { observation := searchObservation, rawStoredAt := 5, observationStoredAt := storedAt, evidenceTime := 5
      evidenceTimeBasis := .receivedAt, targetMatch := .notFoundWithinDepth 1 }

theorem build_searchSample :
    buildMeasurementPeriodSearchSample searchIdentity [searchCandidate 7] searchWindow 10 = .ok (searchSample 7) := by
  decide +kernel

theorem searchSample_agrees_one :
    (∃ result, measurementPeriodSearchSection [searchSample 7] searchWindow 10 = .ok result)
      ∧ buildMeasurementPeriodSearchSample searchIdentity [searchCandidate 20, searchCandidate 7] searchWindow 10
        = .ok (searchSample 7) := by
  have hagrees := SearchReport.searchSample_agrees build_searchSample
  refine ⟨hagrees.1 _ (mem_singleton.mpr rfl) ?_ (by decide), ?_⟩
  · intro other hother
    exact ⟨searchIdentity, [searchCandidate 7], mem_singleton.mp hother ▸ build_searchSample⟩
  · exact hagrees.2.2.2.2.2.2 _ (by decide +kernel)

/-- Two candidates with one id: the one that comes last is taken. -/
theorem searchSample_lastTaken :
    [searchCandidate 7, searchCandidate 8].Perm [searchCandidate 8, searchCandidate 7]
      ∧ buildMeasurementPeriodSearchSample searchIdentity [searchCandidate 7, searchCandidate 8] searchWindow 10
        = .ok (searchSample 8)
      ∧ buildMeasurementPeriodSearchSample searchIdentity [searchCandidate 8, searchCandidate 7] searchWindow 10
        = .ok (searchSample 7)
      ∧ searchSample 8 ≠ searchSample 7 := by
  refine ⟨List.Perm.swap _ _ _, ?_, ?_, ?_⟩
  · decide +kernel
  · decide +kernel
  · decide +kernel

end Sample

end GeoMaster
