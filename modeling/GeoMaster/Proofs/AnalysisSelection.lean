import GeoMaster.Domain.AnalysisRepository

/-!
# Selecting an interpretation

The repository answers a batch with the newest eligible revision of each attempt, and the reader then asks
whether that revision interprets the attempt. Asking all revisions instead gives the same observation exactly
when the newest eligible revision interprets the attempt, or no revision does.
-/

namespace GeoMaster

open List Option AList Bool Selection

open Selection (maxByKey)

namespace MemoryObservationAnalysisRepository

variable {records : MemoryObservationAnalysisRepository} {scope : TenantScope} {asOf : DateTime}

/-- Every revision is stored under its identifier. -/
def Keyed (records : MemoryObservationAnalysisRepository) : Prop :=
  ∀ id stored, records.lookup id = some stored → stored.revision.request.revisionId = id

/-- The revisions of an attempt that a scope has stored. -/
def ofAttempt (records : MemoryObservationAnalysisRepository) (scope : TenantScope) (pair : Uuid × Uuid) :
    List ObservationAnalysisRevision :=
  (records.ofScope scope).filter fun revision => revision.pair = pair

variable {revision : ObservationAnalysisRevision} {attempts : List (Uuid × Uuid)}

theorem mem_ofScope :
    revision ∈ records.ofScope scope
      ↔ ∃ id stored, records.lookup id = some stored ∧ stored.scope = scope ∧ stored.revision = revision := by
  simp only [ofScope, List.mem_map, List.mem_filter, AssocMap.mem_values, decide_eq_true_eq]
  constructor
  · rintro ⟨stored, ⟨⟨id, hlookup⟩, hscope⟩, hrevision⟩
    exact ⟨id, stored, hlookup, hscope, hrevision⟩
  · rintro ⟨id, stored, hlookup, hscope, hrevision⟩
    exact ⟨stored, ⟨⟨id, hlookup⟩, hscope⟩, hrevision⟩

/-- Two revisions of a scope are told apart by their identifiers, so by their order. -/
theorem apart_ofScope (hkeyed : records.Keyed) :
    Selection.Apart ObservationAnalysisRevision.order (records.ofScope scope) := by
  intro a ha b hb horder
  obtain ⟨id, stored, hlookup, -, rfl⟩ := mem_ofScope.mp ha
  obtain ⟨id', stored', hlookup', -, rfl⟩ := mem_ofScope.mp hb
  have hbits : stored.revision.request.revisionId.bits = stored'.revision.request.revisionId.bits :=
    BitVec.eq_of_toNat_eq (congrArg (fun order => (ofLex order).2) horder)
  have hid : id = id' := by
    rw [← hkeyed id stored hlookup, ← hkeyed id' stored' hlookup']
    show (⟨stored.revision.request.revisionId.bits⟩ : Uuid) = ⟨stored'.revision.request.revisionId.bits⟩
    rw [hbits]
  rw [← hid, hlookup] at hlookup'
  rw [some.inj hlookup']

/-! ### The batch -/

/-- A revision that the repository may answer a batch with. -/
def isOffered (attempts : List (Uuid × Uuid)) (asOf : DateTime) (pair : Uuid × Uuid)
    (revision : ObservationAnalysisRevision) : Bool :=
  revision.pair = pair && attempts.contains pair && observationAnalysisProjectionEligible revision asOf

theorem isOffered_iff {pair : Uuid × Uuid} :
    isOffered attempts asOf pair revision = true
      ↔ (revision.pair = pair ∧ pair ∈ attempts) ∧ observationAnalysisProjectionEligible revision asOf = true := by
  simp only [isOffered, and_eq_true, decide_eq_true_eq, contains_iff_mem]

/-- One revision changes the selection of its own attempt only. -/
theorem lookup_select (selected : AssocMap (Uuid × Uuid) ObservationAnalysisRevision) (pair : Uuid × Uuid) :
    (select attempts asOf selected revision).lookup pair
      = if isOffered attempts asOf pair revision = true then
          newer ObservationAnalysisRevision.order (selected.lookup pair) revision
        else selected.lookup pair := by
  by_cases hoffered : isOffered attempts asOf pair revision = true
  · rw [if_pos hoffered, select]
    obtain ⟨⟨rfl, hmem⟩, heligible⟩ := isOffered_iff.mp hoffered
    cases hprior : selected.lookup revision.pair with
    | none =>
      rw [if_pos ⟨hmem, heligible, rfl⟩, AList.lookup_insert]
      rfl
    | some prior =>
      rw [newer]
      by_cases hlt : prior.order < revision.order
      · rw [if_pos ⟨hmem, heligible, decide_eq_true hlt⟩, if_pos hlt, AList.lookup_insert]
      · rw [if_neg (fun hall => hlt (of_decide_eq_true hall.2.2)), if_neg hlt, hprior]
  · rw [if_neg hoffered, select]
    split
    · next htaken =>
      have hpair : pair ≠ revision.pair := by
        rintro rfl
        exact hoffered (isOffered_iff.mpr ⟨⟨rfl, htaken.1⟩, htaken.2.1⟩)
      exact lookup_insert_ne hpair
    · rfl

theorem lookup_foldl_select (l : List ObservationAnalysisRevision)
    (selected : AssocMap (Uuid × Uuid) ObservationAnalysisRevision) (pair : Uuid × Uuid) :
    (l.foldl (select attempts asOf) selected).lookup pair
      = (l.filter (isOffered attempts asOf pair)).foldl
          (newer ObservationAnalysisRevision.order) (selected.lookup pair) := by
  induction l generalizing selected with
  | nil => rfl
  | cons _ _ ih =>
    rw [foldl_cons, ih, lookup_select, filter_cons]
    split <;> rfl

/-- What the repository has selected for an attempt: its newest eligible revision. -/
theorem lookup_selected (hkeyed : records.Keyed) (pair : Uuid × Uuid) :
    ((records.ofScope scope).foldl (select attempts asOf) ∅).lookup pair
      = maxByKey ObservationAnalysisRevision.order ((records.ofScope scope).filter (isOffered attempts asOf pair)) := by
  rw [lookup_foldl_select, lookup_empty, foldl_newer]
  · rfl
  · intro a ha b hb horder
    rcases hb with hb | hb
    · exact (apart_ofScope hkeyed).filter a ha b hb horder
    · cases hb

/-- A batch holds a revision exactly when it is selected for its attempt. -/
theorem mem_latest (hkeyed : records.Keyed) {batch : List ObservationAnalysisRevision}
    (h : records.latestGroundedForAttempts scope attempts asOf = .ok batch) :
    revision ∈ batch
      ↔ maxByKey ObservationAnalysisRevision.order
          ((records.ofScope scope).filter (isOffered attempts asOf revision.pair)) = some revision := by
  simp only [latestGroundedForAttempts, Except.eq_ok_iff] at h
  obtain ⟨_, -, _, -, rfl⟩ := h
  rw [← lookup_selected hkeyed]
  have hentries (entry : Sigma fun _ : Uuid × Uuid => ObservationAnalysisRevision) :
      entry ∈ ((records.ofScope scope).foldl (select attempts asOf) ∅).entries
        ↔ ((records.ofScope scope).foldl (select attempts asOf) ∅).lookup entry.1 = some entry.2 :=
    (AList.mem_lookup_iff).symm
  simp only [List.mem_map, (List.perm_insertionSort _ _).mem_iff, hentries]
  constructor
  · rintro ⟨⟨pair, found⟩, hlookup, rfl⟩
    have hfound : found.pair = pair := by
      rw [lookup_selected hkeyed] at hlookup
      have hoffered := (List.mem_filter.mp (maxByKey_mem hlookup)).2
      exact (isOffered_iff.mp hoffered).1.1
    show _ = some found
    rw [hfound]
    exact hlookup
  · intro hlookup
    exact ⟨⟨revision.pair, revision⟩, hlookup, rfl⟩

end MemoryObservationAnalysisRepository

/-! ### The reader -/

namespace MemoryObservationAnalysisRepository

variable {records : MemoryObservationAnalysisRepository} {scope : TenantScope} {asOf : DateTime}

/-- A revision that was there at the cutoff. -/
def IsTimely (asOf : DateTime) (revision : ObservationAnalysisRevision) : Prop :=
  revision.createdAt ≤ asOf ∧ ∀ at_ ∈ revision.analyzedAt, at_ ≤ asOf

theorem isTimely_of_eligible {revision : ObservationAnalysisRevision}
    (h : observationAnalysisProjectionEligible revision asOf = true) : IsTimely asOf revision := by
  simp only [observationAnalysisProjectionEligible, and_eq_true, decide_eq_true_eq, any_eq_true_iff_get] at h
  obtain ⟨⟨⟨⟨-, hcreated⟩, -⟩, hanalyzed, hat⟩, -⟩ := h
  refine ⟨hcreated, fun at_ hat_ => ?_⟩
  rwa [Option.get_of_mem hanalyzed hat_] at hat

/-- The newest eligible revision of an attempt. -/
def newest (records : MemoryObservationAnalysisRepository) (scope : TenantScope) (asOf : DateTime)
    (pair : Uuid × Uuid) : Option ObservationAnalysisRevision :=
  maxByKey ObservationAnalysisRevision.order
    ((records.ofAttempt scope pair).filter fun revision => observationAnalysisProjectionEligible revision asOf)

theorem newest_eq {attempts : List (Uuid × Uuid)} (pair : Uuid × Uuid) (hrequested : pair ∈ attempts) :
    maxByKey ObservationAnalysisRevision.order ((records.ofScope scope).filter (isOffered attempts asOf pair))
      = records.newest scope asOf pair := by
  rw [newest, ofAttempt, List.filter_filter]
  congr 1
  refine List.filter_congr fun revision _ => ?_
  simp [isOffered, hrequested, Bool.and_comm]

end MemoryObservationAnalysisRepository

section

variable [JsonText] [UrlParser] {view : ChannelTargetView} {asOf : DateTime}
  {trusted : ChannelTargetView → ChannelAttempt → Bool}

/-- The current attempt of a measurement, with the outcome that was received by the cutoff. -/
structure Readable (view : ChannelTargetView) (asOf : DateTime) (measure : MeasureInput)
    (attempt : ChannelAttempt) (outcome : ChannelOutcome) (receivedAt : DateTime) : Prop where
  last : view.attempts.getLast? = some attempt
  outcome : attempt.outcome = some outcome
  received : attempt.receivedAt.filter (fun at_ => at_ ≤ asOf) = some receivedAt
  input : view.target.input = .measure measure

/-- A revision that interprets the current attempt of a target. -/
def accepts (view : ChannelTargetView) (asOf : DateTime) (revision : ObservationAnalysisRevision) : Bool :=
  match view.attempts.getLast?, view.target.input with
  | some attempt, .measure measure =>
    attempt.outcome.isSome && (attempt.receivedAt.filter fun at_ => at_ ≤ asOf).any fun receivedAt =>
      interprets view measure attempt receivedAt asOf revision
  | _, _ => false

/-- The interpretation that is taken from a list. -/
def chosen (view : ChannelTargetView) (asOf : DateTime) (analyses : List ObservationAnalysisRevision) :
    Option ObservationAnalysisRevision :=
  maxByKey ObservationAnalysisRevision.order (analyses.filter (accepts view asOf))

variable {revision : ObservationAnalysisRevision} {measure : MeasureInput} {attempt : ChannelAttempt}
  {receivedAt : DateTime} {analyses analyses' : List ObservationAnalysisRevision}

theorem accepts_iff :
    accepts view asOf revision = true
      ↔ ∃ measure attempt outcome receivedAt, Readable view asOf measure attempt outcome receivedAt
        ∧ interprets view measure attempt receivedAt asOf revision = true := by
  constructor
  · intro h
    rw [accepts] at h
    split at h
    · next attempt measure hlast hinput =>
      rw [and_eq_true, any_eq_true_iff_get] at h
      obtain ⟨houtcome, hreceived, hinterprets⟩ := h
      obtain ⟨outcome, houtcome⟩ := isSome_iff_exists.mp houtcome
      exact ⟨measure, attempt, outcome, _, ⟨hlast, houtcome, (some_get hreceived).symm, hinput⟩, hinterprets⟩
    · cases h
  · rintro ⟨_, _, outcome, _, hreadable, hinterprets⟩
    rw [accepts, hreadable.last, hreadable.input]
    simp only [hreadable.outcome, hreadable.received]
    exact hinterprets

theorem effectiveObservation_readable {outcome : ChannelOutcome} (h : Readable view asOf measure attempt outcome receivedAt)
    (analyses : List ObservationAnalysisRevision) :
    effectiveObservation view analyses asOf trusted
      = match chosen view asOf analyses with
        | some revision => ofInterpretation receivedAt revision
        | none => ofOutcome outcome receivedAt asOf (trusted view attempt) := by
  have hfilter : interprets view measure attempt receivedAt asOf = accepts view asOf := by
    funext revision
    rw [accepts, h.last, h.input]
    simp only [h.outcome, h.received]
    rfl
  rw [effectiveObservation, chosen, ← hfilter]
  cases hselected : maxByKey ObservationAnalysisRevision.order
    (analyses.filter (interprets view measure attempt receivedAt asOf)) with
  | none => simp [h.last, h.outcome, h.received, h.input, hselected]
  | some revision => simp [h.last, h.outcome, h.received, h.input, hselected]

/-- Of an attempt that is not readable nothing is read. -/
theorem effectiveObservation_unreadable
    (h : ¬ ∃ measure attempt outcome receivedAt, Readable view asOf measure attempt outcome receivedAt)
    (analyses : List ObservationAnalysisRevision) : effectiveObservation view analyses asOf trusted = none := by
  rw [effectiveObservation]
  cases hlast : view.attempts.getLast? with
  | none => rfl
  | some attempt =>
    cases houtcome : attempt.outcome with
    | none => simp [houtcome]
    | some outcome =>
      cases hreceived : attempt.receivedAt.filter (fun at_ => at_ ≤ asOf) with
      | none => simp [houtcome, hreceived]
      | some receivedAt =>
        cases hinput : view.target.input with
        | measure measure => exact absurd ⟨measure, attempt, outcome, receivedAt, hlast, houtcome, hreceived, hinput⟩ h
        | publish input => simp
        | generatedPublish input => simp

/-- What is read depends on the interpretation that is taken only. -/
theorem effectiveObservation_congr (h : chosen view asOf analyses = chosen view asOf analyses') :
    effectiveObservation view analyses asOf trusted = effectiveObservation view analyses' asOf trusted := by
  by_cases hreadable : ∃ measure attempt outcome receivedAt, Readable view asOf measure attempt outcome receivedAt
  · obtain ⟨_, _, _, _, hreadable⟩ := hreadable
    rw [effectiveObservation_readable hreadable, effectiveObservation_readable hreadable, h]
  · rw [effectiveObservation_unreadable hreadable, effectiveObservation_unreadable hreadable]

theorem provenance_of_interprets (h : interprets view measure attempt receivedAt asOf revision = true) :
    ∃ observation, ofInterpretation receivedAt revision = some observation ∧ observation.provenance.isSome := by
  simp only [interprets, observationAnalysisProjectionEligible, and_eq_true, decide_eq_true_eq,
    any_eq_true_iff_get] at h
  obtain ⟨⟨⟨⟨-, ⟨-, hanalyzed, -⟩, -⟩, -⟩, -⟩, hresult, hvalid, haudit⟩ := h
  obtain ⟨_, hanalyzed⟩ := isSome_iff_exists.mp hanalyzed
  obtain ⟨result, hresult⟩ := isSome_iff_exists.mp hresult
  simp only [hresult, get_some] at hvalid haudit
  cases houtcome : result.outcome with
  | grounded =>
    have hmodel : result.actualModel.isSome := by
      simp only [ObservationAnalysisResult.isValid, houtcome, ObservationAnalysisOutcome.isFailed,
        and_eq_true, or_eq_true] at hvalid
      exact hvalid.1.2.resolve_left false_ne_true
    obtain ⟨_, hmodel⟩ := isSome_iff_exists.mp hmodel
    simp [ofInterpretation, hresult, houtcome, hanalyzed, hmodel]
  | unverified reason => simp [houtcome] at haudit
  | failed code => simp [houtcome] at haudit

/-- Taking an interpretation and taking none are not read alike. -/
theorem effectiveObservation_ne (h : chosen view asOf analyses = none)
    (h' : chosen view asOf analyses' = some revision) :
    effectiveObservation view analyses asOf trusted ≠ effectiveObservation view analyses' asOf trusted := by
  obtain ⟨_, attempt, outcome, receivedAt, hreadable, hinterprets⟩ := accepts_iff.mp (mem_filter.mp (maxByKey_mem h')).2
  obtain ⟨_, hobservation, hprovenance⟩ := provenance_of_interprets hinterprets
  rw [effectiveObservation_readable hreadable, effectiveObservation_readable hreadable, h, h']
  intro heq
  have heq : ofOutcome outcome receivedAt asOf (trusted view attempt) = ofInterpretation receivedAt revision := heq
  rw [hobservation, ofOutcome] at heq
  split at heq
  · rw [← some.inj heq] at hprovenance
    cases hprovenance
  · cases heq

/-! ### The batch and all revisions -/

namespace MemoryObservationAnalysisRepository

variable {records : MemoryObservationAnalysisRepository} {scope : TenantScope}

theorem eligible_of_accepts {revision : ObservationAnalysisRevision} (h : accepts view asOf revision = true) :
    observationAnalysisProjectionEligible revision asOf = true
      ∧ ∃ attempt, view.attempts.getLast? = some attempt
        ∧ revision.pair = (view.target.targetId, attempt.attemptId) := by
  obtain ⟨_, attempt, _, _, hreadable, hinterprets⟩ := accepts_iff.mp h
  simp only [interprets, and_eq_true, decide_eq_true_eq] at hinterprets
  obtain ⟨⟨⟨⟨⟨htarget, hattempt⟩, heligible⟩, -⟩, -⟩, -⟩ := hinterprets
  exact ⟨heligible, attempt, hreadable.last, Prod.ext htarget hattempt⟩

variable {attempts : List (Uuid × Uuid)} {batch : List ObservationAnalysisRevision} {attempt : ChannelAttempt}

/-- Of a batch the newest eligible revision is taken, if it interprets the attempt. -/
theorem chosen_batch (hkeyed : records.Keyed)
    (hbatch : records.latestGroundedForAttempts scope attempts asOf = .ok batch)
    (hlast : view.attempts.getLast? = some attempt)
    (hrequested : (view.target.targetId, attempt.attemptId) ∈ attempts) :
    chosen view asOf batch
      = (records.newest scope asOf (view.target.targetId, attempt.attemptId)).filter (accepts view asOf) := by
  have hmem (revision : ObservationAnalysisRevision) : revision ∈ batch.filter (accepts view asOf)
      ↔ revision ∈ ((records.newest scope asOf (view.target.targetId, attempt.attemptId)).filter
        (accepts view asOf)).toList := by
    rw [mem_filter, mem_latest hkeyed hbatch, mem_toList, filter_eq_some_iff]
    refine and_congr_left fun haccepts => ?_
    obtain ⟨-, _, hlast', hpair⟩ := eligible_of_accepts haccepts
    rw [hlast] at hlast'
    rw [hpair, ← some.inj hlast', newest_eq _ hrequested]
  have hapart : Selection.Apart ObservationAnalysisRevision.order (batch.filter (accepts view asOf)) := by
    intro a ha b hb _
    have ha := mem_toList.mp ((hmem a).mp ha)
    have hb := mem_toList.mp ((hmem b).mp hb)
    exact mem_unique ha hb
  rw [chosen, maxByKey_congr hapart hmem]
  cases (records.newest scope asOf (view.target.targetId, attempt.attemptId)).filter (accepts view asOf) <;> rfl

theorem chosen_eq_none {analyses : List ObservationAnalysisRevision} :
    chosen view asOf analyses = none ↔ ∀ revision ∈ analyses, accepts view asOf revision = false := by
  rw [chosen, maxByKey_eq_none, filter_eq_nil_iff]
  simp only [not_eq_true]

/-- A batch and all revisions of an attempt are read alike exactly when the newest eligible revision interprets
the attempt, or none does. Revisions from after the cutoff make no difference to either. -/
theorem effectiveObservation_batch_iff (hkeyed : records.Keyed)
    (hbatch : records.latestGroundedForAttempts scope attempts asOf = .ok batch)
    (hlast : view.attempts.getLast? = some attempt)
    (hrequested : (view.target.targetId, attempt.attemptId) ∈ attempts) :
    (effectiveObservation view batch asOf trusted
        = effectiveObservation view (records.ofAttempt scope (view.target.targetId, attempt.attemptId)) asOf trusted
      ↔ ∀ revision, records.newest scope asOf (view.target.targetId, attempt.attemptId) = some revision →
        accepts view asOf revision = true
          ∨ ∀ other ∈ records.ofAttempt scope (view.target.targetId, attempt.attemptId),
            accepts view asOf other = false)
    ∧ ∀ records' batch', Keyed records' →
      (∀ revision, IsTimely asOf revision → (revision ∈ ofScope records' scope ↔ revision ∈ records.ofScope scope)) →
      latestGroundedForAttempts records' scope attempts asOf = .ok batch' →
      effectiveObservation view batch' asOf trusted = effectiveObservation view batch asOf trusted
      ∧ effectiveObservation view (ofAttempt records' scope (view.target.targetId, attempt.attemptId)) asOf trusted
        = effectiveObservation view (records.ofAttempt scope (view.target.targetId, attempt.attemptId)) asOf
          trusted := by
  have hchosen := chosen_batch hkeyed hbatch hlast hrequested
  constructor
  · cases hnewest : records.newest scope asOf (view.target.targetId, attempt.attemptId) with
    | none =>
      have hnone : ∀ revision ∈ records.ofAttempt scope (view.target.targetId, attempt.attemptId),
          accepts view asOf revision = false := by
        intro revision hrevision
        rw [newest, maxByKey_eq_none, filter_eq_nil_iff] at hnewest
        by_contra haccepts
        exact hnewest revision hrevision (eligible_of_accepts (by simpa using haccepts)).1
      rw [hnewest] at hchosen
      exact iff_of_true (effectiveObservation_congr (hchosen.trans (chosen_eq_none.mpr hnone).symm)) (by simp)
    | some revision =>
      rw [hnewest] at hchosen
      by_cases haccepts : accepts view asOf revision = true
      · rw [filter_some_pos haccepts] at hchosen
        have hall : chosen view asOf (records.ofAttempt scope (view.target.targetId, attempt.attemptId))
            = some revision :=
          maxByKey_filter (apart_ofScope hkeyed).filter
            (fun other _ hother => (eligible_of_accepts hother).1) hnewest haccepts
        refine iff_of_true (effectiveObservation_congr (hchosen.trans hall.symm)) ?_
        intro other hother
        rw [← some.inj hother]
        exact .inl haccepts
      · rw [filter_some_neg (eq_false_iff.mpr haccepts)] at hchosen
        cases hall : chosen view asOf (records.ofAttempt scope (view.target.targetId, attempt.attemptId)) with
        | none =>
          refine iff_of_true (effectiveObservation_congr (hchosen.trans hall.symm)) fun _ _ => .inr ?_
          exact chosen_eq_none.mp hall
        | some taken =>
          refine iff_of_false (effectiveObservation_ne hchosen hall) fun h => ?_
          have htaken := mem_filter.mp (maxByKey_mem hall)
          rcases h revision rfl with hown | hnone
          · exact haccepts hown
          · rw [hnone taken htaken.1] at htaken
            exact absurd htaken.2 false_ne_true
  · intro records' batch' hkeyed' hsame hbatch'
    have hattempt (revision : ObservationAnalysisRevision) (hwithin : IsTimely asOf revision) :
        revision ∈ ofAttempt records' scope (view.target.targetId, attempt.attemptId)
          ↔ revision ∈ records.ofAttempt scope (view.target.targetId, attempt.attemptId) := by
      rw [ofAttempt, ofAttempt, mem_filter, mem_filter, hsame revision hwithin]
    constructor
    · refine effectiveObservation_congr ?_
      rw [hchosen, chosen_batch hkeyed' hbatch' hlast hrequested]
      congr 1
      refine maxByKey_congr (apart_ofScope hkeyed').filter.filter fun revision => ?_
      rw [mem_filter, mem_filter]
      exact and_congr_left fun heligible => hattempt revision (isTimely_of_eligible heligible)
    · refine effectiveObservation_congr ?_
      refine maxByKey_congr (apart_ofScope hkeyed').filter.filter fun revision => ?_
      rw [mem_filter, mem_filter]
      exact and_congr_left fun haccepts =>
        hattempt revision (isTimely_of_eligible (eligible_of_accepts haccepts).1)

end MemoryObservationAnalysisRepository

end

/-! ### Sample revisions -/

namespace Sample

@[reducible] def nullText : JsonText :=
  ⟨fun raw => if raw = "null" then some .null else none⟩

@[reducible] def noUrls : UrlParser :=
  ⟨fun _ => none, fun _ _ => none⟩

attribute [local instance] nullText noUrls

def searchMeasure : MeasureInput :=
  { accountId := uuid 5, provider := "provider", model := "model", surface := "consumer_web"
    searchMode := "web_search", protocolVersion := "v1", questionSetVersion := "adhoc"
    question := "Question?", market := "global", language := "en", scheduledAt := 0, sampleOrdinal := 0
    questionBinding := none }

/-- A measurement that was received, without an outcome of its own to read. -/
def searchView : ChannelTargetView :=
  { target := { targetId := uuid 6, input := .measure searchMeasure }
    attempts :=
      [{ attemptId := uuid 7, targetId := uuid 6, claimedAt := 0
         outcome := some
           { status := .unknown, detail := none, occurredAt := 2, rawAnswer := none, citations := []
             publicUrl := none, screenshotRef := none, connectorVersion := none, runnerEvidence := []
             fixture := false }
         receivedAt := some 2 }] }

/-- A grounded revision whose audit has references with some roles. -/
def groundedAt (id : Nat) (createdAt : DateTime) (roles : List String) : ObservationAnalysisRevision :=
  { request :=
      { revisionId := uuid id, targetId := uuid 6, attemptId := uuid 7, source := .attemptEvidence 0
        sourceSha256 := "digest", observedAt := 1, promptVersion := "prompt", parserVersion := "parser" }
    requestDigest := "request", state := .completed, createdAt, startedAt := some createdAt
    analyzedAt := some createdAt
    result := some
      { configRevision := none, actualModel := some "model", candidateJson := some "null"
        outcome := .grounded "Answer" []
          (.object
            [("kind", .string "observation_extraction"), ("method", .string "llm_grounded"),
              ("prompt_version", .string "prompt"), ("source_sha256", .string "digest"),
              ("protocol", expectedProtocol searchMeasure),
              ("refs", .array (roles.map fun role => .object [("role", .string role)]))])
        promptTokens := 0, completionTokens := 0 }
    inferenceResolved := true }

def storedAs (revision : ObservationAnalysisRevision) : StoredAnalysis :=
  { scope, keyHash := "key", revision, claimToken := none, durableLinked := false }

def allRoles : List String :=
  ["completion", "search_activity", "answer_segment"]

/-- An interpretation, and a later revision whose audit lacks roles. -/
def hiddenInterpretation : MemoryObservationAnalysisRepository :=
  (AList.insert (uuid 11) (storedAs (groundedAt 11 20 ["completion"])) ∅).insert (uuid 10)
    (storedAs (groundedAt 10 10 allRoles))

/-- Two interpretations. -/
def twoInterpretations : MemoryObservationAnalysisRepository :=
  (AList.insert (uuid 11) (storedAs (groundedAt 11 20 allRoles)) ∅).insert (uuid 10)
    (storedAs (groundedAt 10 10 allRoles))

open MemoryObservationAnalysisRepository

theorem keyed_of_stored {records : MemoryObservationAnalysisRepository}
    (h : ∀ entry ∈ records.entries, entry.2.revision.request.revisionId = entry.1) : records.Keyed :=
  fun id stored hlookup => h ⟨id, stored⟩ (mem_lookup_iff.mp hlookup)

theorem effectiveObservation_batch_two :
    effectiveObservation searchView [groundedAt 11 20 allRoles] 100 (fun _ _ => false)
      = effectiveObservation searchView (twoInterpretations.ofAttempt scope (uuid 6, uuid 7)) 100 fun _ _ => false := by
  have hkeyed : twoInterpretations.Keyed := keyed_of_stored (by decide +kernel)
  have hbatch : latestGroundedForAttempts twoInterpretations scope [(uuid 6, uuid 7)] 100
      = .ok [groundedAt 11 20 allRoles] := by
    decide +kernel
  have hnewest : twoInterpretations.newest scope 100 (uuid 6, uuid 7) = some (groundedAt 11 20 allRoles) := by
    decide +kernel
  have haccepts : accepts searchView 100 (groundedAt 11 20 allRoles) = true := by decide +kernel
  have hlast : ∃ attempt, searchView.attempts.getLast? = some attempt ∧ attempt.attemptId = uuid 7 := ⟨_, rfl, rfl⟩
  obtain ⟨attempt, hlast, hid⟩ := hlast
  have hrequested : (searchView.target.targetId, attempt.attemptId) ∈ [(uuid 6, uuid 7)] := by
    rw [hid]
    exact mem_singleton.mpr rfl
  have hiff := (@effectiveObservation_batch_iff _ _ searchView 100 (fun _ _ => false) _ scope _ _ attempt hkeyed
    hbatch hlast hrequested).1
  rw [hid] at hiff
  refine hiff.mpr fun revision hrevision => .inl ?_
  have hsame : revision = groundedAt 11 20 allRoles := some.inj (hrevision.symm.trans hnewest)
  rw [hsame]
  exact haccepts

/-- The later revision hides the interpretation from the batch. -/
theorem hiddenInterpretation_batch :
    hiddenInterpretation.Keyed
      ∧ latestGroundedForAttempts hiddenInterpretation scope [(uuid 6, uuid 7)] 100
        = .ok [groundedAt 11 20 ["completion"]]
      ∧ effectiveObservation searchView [groundedAt 11 20 ["completion"]] 100 (fun _ _ => false) = none
      ∧ effectiveObservation searchView (hiddenInterpretation.ofAttempt scope (uuid 6, uuid 7)) 100
          (fun _ _ => false) ≠ none :=
  ⟨keyed_of_stored (by decide +kernel), by decide +kernel, by decide +kernel, by decide +kernel⟩

end Sample

end GeoMaster
