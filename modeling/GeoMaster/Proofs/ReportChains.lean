import GeoMaster.Lib.Numbered
import GeoMaster.Proofs.ReportIdentity

/-!
# Chains of corrections

The reports of one cycle about one window, at one cutoff and for the same manifests, are a series. In every run the
stored reports of a series carry the revisions `1` to `n` in the order they were stored, and each correction has the
one before it as its parent. A second report of a stored revision is answered with the stored one, or refused where
its inputs differ.

A correction of the latest revision is not always accepted. The scan for a later revision does not compare cycles, so
the reports of another cycle with the same window, cutoff and manifests keep it out. `ReportChains` says exactly when.
-/

namespace GeoMaster

open Except AssocMap List Option String ReportCall ReportSnapshot Text

/-- What the revisions of a report have in common. -/
structure ReportSeries where
  cycleId : Uuid
  (reportWindowStartAt reportWindowEndAt cutoffAt : DateTime)
  inputManifestVersions : List ReportManifestRef
  deriving DecidableEq

def ReportSnapshot.series (report : ReportSnapshot) : ReportSeries where
  cycleId := report.cycleId
  reportWindowStartAt := report.reportWindowStartAt
  reportWindowEndAt := report.reportWindowEndAt
  cutoffAt := report.cutoffAt
  inputManifestVersions := report.inputManifestVersions

/-- The series of the report of a call. The manifests are in canonical order. -/
def ReportCall.series (call : ReportCall) : ReportSeries where
  cycleId := call.input.cycleId
  reportWindowStartAt := call.input.reportWindowStartAt
  reportWindowEndAt := call.input.reportWindowEndAt
  cutoffAt := call.input.cutoffAt
  inputManifestVersions := call.input.canonical.inputManifestVersions

def ReportCall.owner (call : ReportCall) : ReportOwner :=
  reportOwner call.scope call.input.projectId

/-- What the input hash of a call is the digest of. -/
def ReportCall.inputText (call : ReportCall) [InstantJson] : String :=
  call.input.canonical.json.toText

/-- The stored reports of a series, oldest first. -/
def chain (reports : List ReportSnapshot) (series : ReportSeries) : List ReportSnapshot :=
  reports.filter fun report => report.series = series

/-- A report of another cycle that has the window, the cutoff and the manifests of a snapshot, and a revision that
is not below that of the snapshot. -/
def Blocks (snapshot report : ReportSnapshot) : Prop :=
  report.cycleId ≠ snapshot.cycleId ∧ report.series = { snapshot.series with cycleId := report.cycleId }
    ∧ snapshot.revision ≤ report.revision

/-! ### What a reduced report is -/

section Reduced

variable [Sha256] [InstantJson] [InstantDisplay]

/-- The report of a call. -/
def ReportCall.reduce (call : ReportCall) : Except AppError ReportSnapshot :=
  reduceReport call.scope call.input call.revision call.correctionOf call.now

/-- What a report takes from its call. -/
structure Reduced (call : ReportCall) (report : ReportSnapshot) : Prop where
  inScope : call.scope.projectId = some report.projectId
  project : report.projectId = call.input.projectId
  id : report.reportId = stableUuid call.identityText
  series : report.series = call.series
  revision : report.revision = call.revision
  correctionOf : report.correctionOf = call.correctionOf
  inputHash : report.inputHash = sha256Hex (bytes call.inputText)
  reducer : report.reducerVersion = reportReducerVersion
  first : report.revision = 1 ↔ report.correctionOf = none
  counted : report.revision ≠ 0
  manifests : ∀ reference ∈ report.inputManifestVersions, 0 < reference.revision

omit [Sha256] [InstantJson] [InstantDisplay] in
theorem checkManifestRefs_positive {kinds : List ReportManifestKind}
    {manifests : List ReportManifestRef} {u : Unit} (h : checkManifestRefs kinds manifests = .ok u) :
    ∀ reference ∈ manifests, 0 < reference.revision := by
  induction manifests generalizing kinds with
  | nil =>
    intro reference hmem
    cases hmem
  | cons _ _ ih =>
    simp only [checkManifestRefs, eq_ok_iff, not_or] at h
    obtain ⟨_, ⟨-, hpositive, -, -⟩, hrest⟩ := h
    intro other hmem
    rcases List.mem_cons.mp hmem with rfl | hmem
    · exact Int.not_le.mp hpositive
    · exact ih hrest other hmem

theorem ReportCall.reduce_ok {call : ReportCall} {report : ReportSnapshot}
    (h : call.reduce = .ok report) : Reduced call report := by
  simp only [reduce, reduceReport, projectReport, checkReportInput, checkReportWindow, eq_ok_iff, not_or] at h
  obtain ⟨_, ⟨_, ⟨_, hscope, _, ⟨-, -, hmalformed, -⟩, _, hmanifests, -⟩, _, -, _, -, rfl⟩, rfl⟩ := h
  have hmode : call.revision ≠ 0 ∧ (call.revision = 1 ↔ call.correctionOf = none) := by
    cases hparent : call.correctionOf <;> simpa [ProjectionMode.malformed, hparent] using hmalformed
  exact
    { inScope := not_not.mp hscope
      project := rfl
      id := rfl
      series := rfl
      revision := rfl
      correctionOf := rfl
      inputHash := rfl
      reducer := rfl
      first := hmode.2
      counted := hmode.1
      manifests := checkManifestRefs_positive hmanifests }

end Reduced

/-! ### The identity of a call -/

/-- The numbers of the manifests of a call have the range of their types. -/
def ReportCall.InWords (call : ReportCall) : Prop :=
  ∀ reference ∈ call.input.inputManifestVersions,
    reference.revision < 2 ^ 63 ∧ ∀ n ∈ reference.expectedCount, n < 2 ^ 64

section Identity

variable [Sha256] [InstantJson] [InstantDisplay]

variable {call call' : ReportCall} {report : ReportSnapshot}

omit [Sha256] [InstantJson] in
theorem ReportCall.identityText_congr (howner : call.owner = call'.owner) (hseries : call.series = call'.series)
    (hrevision : call.revision = call'.revision) : call.identityText = call'.identityText := by
  simp only [ReportCall.owner, reportOwner, Prod.mk.injEq] at howner
  simp only [ReportCall.series, ReportSeries.mk.injEq] at hseries
  obtain ⟨hoperator, htenant, hproject⟩ := howner
  obtain ⟨hcycle, hstart, hend, hcutoff, hmanifests⟩ := hseries
  unfold identityText reportIdentityText
  rw [hoperator, htenant, hproject, hcycle, hstart, hend, hcutoff, hmanifests, hrevision]

theorem Reduced.inRange (h : Reduced call report) (hwords : call.InWords) :
    ∀ reference ∈ call.input.canonical.inputManifestVersions, reference.InRange := by
  have hmanifests : report.inputManifestVersions = call.input.canonical.inputManifestVersions :=
    congrArg ReportSeries.inputManifestVersions h.series
  intro reference hmem
  have hinput : reference ∈ call.input.inputManifestVersions := (perm_insertionSort _ _).mem_iff.mp hmem
  obtain ⟨hrevision, hcount⟩ := hwords reference hinput
  exact ⟨h.manifests reference (hmanifests ▸ hmem), hrevision, hcount⟩

/-- The identity of a call determines its project, its series and its revision. -/
theorem Reduced.identityText_inj [LawfulInstantDisplay] {report' : ReportSnapshot}
    (h : Reduced call report) (h' : Reduced call' report') (hwords : call.InWords) (hwords' : call'.InWords)
    (htext : call.identityText = call'.identityText) :
    call.owner = call'.owner ∧ call.series = call'.series ∧ call.revision = call'.revision := by
  obtain ⟨hoperator, htenant, hproject, hcycle, hstart, hend, hcutoff, hmanifests, hrevision⟩ :=
    reportIdentityText_inj (h.inRange hwords) (h'.inRange hwords') htext
  refine ⟨?_, ?_, hrevision⟩
  · unfold ReportCall.owner reportOwner
    rw [hoperator, htenant, hproject]
  · unfold ReportCall.series
    rw [hcycle, hstart, hend, hcutoff, hmanifests]

end Identity

/-! ### One project -/

/-- What the reports of a project answer to a snapshot, and what they are afterwards. -/
def offer (reports : List ReportSnapshot) (snapshot : ReportSnapshot) :
    Except AppError ReportSnapshot × List ReportSnapshot :=
  match reports.find? fun report => report.reportId = snapshot.reportId with
  | some existing =>
    if existing.inputHash ≠ snapshot.inputHash ∨ existing.correctionOf ≠ snapshot.correctionOf then
      (.error (.conflict "report revision inputs differ"), reports)
    else (.ok existing, reports)
  | none =>
    match validateCorrection reports snapshot with
    | .ok () => (.ok snapshot, reports ++ [snapshot])
    | .error e => (.error e, reports)

namespace MemoryReportRepository

theorem stored_withEntry (s : MemoryReportRepository) (owner owner' : ReportOwner) :
    (s.withEntry owner).stored owner' = s.stored owner' := by
  unfold withEntry stored
  rw [lookup_insertNew]
  by_cases howner : owner' = owner
  · rw [if_pos howner, howner]
    rfl
  · rw [if_neg howner]

theorem stored_push (s : MemoryReportRepository) (owner owner' : ReportOwner) (snapshot : ReportSnapshot) :
    (s.push owner snapshot).stored owner'
      = if owner' = owner then s.stored owner ++ [snapshot] else s.stored owner' := by
  unfold push stored
  rw [lookup_insert]
  by_cases howner : owner' = owner
  · rw [if_pos howner, if_pos howner]
    rfl
  · rw [if_neg howner, if_neg howner]

/-- Creating a report offers it to the reports of its project and leaves those of the other projects alone. -/
theorem run_create {scope : TenantScope} {snapshot : ReportSnapshot}
    (hscope : scope.projectId = some snapshot.projectId) (s : MemoryReportRepository) :
    ((create scope snapshot).run s).1 = (offer (s.stored (reportOwner scope snapshot.projectId)) snapshot).1
      ∧ ∀ owner, ((create scope snapshot).run s).2.stored owner
        = if owner = reportOwner scope snapshot.projectId then
            (offer (s.stored (reportOwner scope snapshot.projectId)) snapshot).2
          else s.stored owner := by
  generalize howner : reportOwner scope snapshot.projectId = owner
  have hkept : ∀ owner', (s.withEntry owner).stored owner'
      = if owner' = owner then s.stored owner else s.stored owner' := by
    intro owner'
    rw [stored_withEntry]
    by_cases hsame : owner' = owner
    · rw [if_pos hsame, hsame]
    · rw [if_neg hsame]
  cases hfind : (s.stored owner).find? fun report => report.reportId = snapshot.reportId with
  | some existing =>
    by_cases hdiffer : existing.inputHash ≠ snapshot.inputHash ∨ existing.correctionOf ≠ snapshot.correctionOf
    · have hfails : Op.Fails (create scope snapshot) s (.conflict "report revision inputs differ")
          (s.withEntry owner) := by
        simp only [create, howner]
        simp [hscope, hfind, hdiffer, stored_withEntry]
      rw [hfails]
      simp only [offer, hfind, if_pos hdiffer]
      exact ⟨trivial, hkept⟩
    · have hreturns : Op.Returns (create scope snapshot) s existing (s.withEntry owner) := by
        simp only [create, howner]
        simp [hscope, hfind, hdiffer, stored_withEntry]
      rw [hreturns]
      simp only [offer, hfind, if_neg hdiffer]
      exact ⟨trivial, hkept⟩
  | none =>
    cases hvalid : validateCorrection (s.stored owner) snapshot with
    | error e =>
      have hfails : Op.Fails (create scope snapshot) s e (s.withEntry owner) := by
        simp only [create, howner]
        simp [hscope, hfind, hvalid, stored_withEntry]
      rw [hfails]
      simp only [offer, hfind, hvalid]
      exact ⟨trivial, hkept⟩
    | ok u =>
      have hreturns : Op.Returns (create scope snapshot) s snapshot ((s.withEntry owner).push owner snapshot) := by
        simp only [create, howner]
        simp [hscope, hfind, hvalid, stored_withEntry]
      rw [hreturns]
      simp only [offer, hfind, hvalid]
      refine ⟨trivial, fun owner' => ?_⟩
      rw [stored_push, stored_withEntry, stored_withEntry]

end MemoryReportRepository

section Offers

variable {reports : List ReportSnapshot} {snapshot report : ReportSnapshot}

theorem chain_append (reports : List ReportSnapshot) (snapshot : ReportSnapshot) (series : ReportSeries) :
    chain (reports ++ [snapshot]) series
      = if snapshot.series = series then chain reports series ++ [snapshot]
        else chain reports series := by
  unfold chain
  rw [filter_append]
  by_cases hseries : snapshot.series = series
  · rw [if_pos hseries, filter_singleton, decide_eq_true hseries]
    rfl
  · rw [if_neg hseries, filter_singleton, decide_eq_false hseries]
    exact append_nil _

/-! ### Accepting a snapshot -/

theorem supersedes_iff :
    supersedes snapshot report = true
      ↔ report.series = { snapshot.series with cycleId := report.cycleId } ∧ snapshot.revision ≤ report.revision := by
  simp [supersedes, ReportSnapshot.series, and_assoc]

theorem find_reportId (hdistinct : (reports.map reportId).Nodup) {id : Option Uuid} :
    (reports.find? fun report => some report.reportId = id) = some report
      ↔ report ∈ reports ∧ some report.reportId = id := by
  constructor
  · intro hfind
    exact ⟨mem_of_find?_eq_some hfind, by simpa using List.find?_some hfind⟩
  · rintro ⟨hmem, hid⟩
    cases hfind : reports.find? fun report => some report.reportId = id with
    | none =>
      have := List.find?_eq_none.mp hfind report hmem
      exact absurd hid (by simpa using this)
    | some found =>
      have hfound : some found.reportId = id := by simpa using List.find?_some hfind
      have hsame : found.reportId = report.reportId := some.inj (hfound.trans hid.symm)
      rw [inj_on_of_nodup_map hdistinct (mem_of_find?_eq_some hfind) hmem hsame]

/-- A parent that the next revision of its series may have. -/
structure IsParent (reports : List ReportSnapshot) (snapshot parent : ReportSnapshot) : Prop where
  stored : parent ∈ reports
  named : snapshot.correctionOf = some parent.reportId
  series : parent.series = snapshot.series
  revision : parent.revision + 1 = snapshot.revision

theorem validateCorrection_superseded {parent : ReportSnapshot} (hlater : snapshot.revision ≠ 1)
    (hdistinct : (reports.map reportId).Nodup) (hparent : IsParent reports snapshot parent)
    (hmem : report ∈ reports) (hsupersedes : supersedes snapshot report = true) :
    validateCorrection reports snapshot = .error (.conflict "correction parent does not match report window") := by
  have hfind := (find_reportId hdistinct).mpr ⟨hparent.stored, hparent.named.symm⟩
  have hany : reports.any (supersedes snapshot) = true := List.any_eq_true.mpr ⟨report, hmem, hsupersedes⟩
  unfold validateCorrection
  rw [if_neg fun hboth => hlater hboth.1, hfind]
  simp only [Except.okOr, Except.failIf, hany, or_true, if_true, bind, Except.bind]

/-- A snapshot with a new identity is added behind the others where it is valid. -/
theorem offer_none (hfind : ∀ report ∈ reports, report.reportId ≠ snapshot.reportId) :
    offer reports snapshot
      = match validateCorrection reports snapshot with
        | .ok () => (.ok snapshot, reports ++ [snapshot])
        | .error e => (.error e, reports) := by
  have hnone : (reports.find? fun report => report.reportId = snapshot.reportId) = none := by
    rw [List.find?_eq_none]
    intro report hmem
    simpa using hfind report hmem
  unfold offer
  rw [hnone]

/-- A snapshot with a stored identity is answered with what is stored, or refused. -/
theorem offer_some (hdistinct : (reports.map reportId).Nodup) {existing : ReportSnapshot}
    (hmem : existing ∈ reports) (hid : existing.reportId = snapshot.reportId) :
    offer reports snapshot
      = if existing.inputHash ≠ snapshot.inputHash ∨ existing.correctionOf ≠ snapshot.correctionOf then
          (.error (.conflict "report revision inputs differ"), reports)
        else (.ok existing, reports) := by
  have hfind : (reports.find? fun report => report.reportId = snapshot.reportId) = some existing := by
    have hsome := (find_reportId hdistinct).mpr ⟨hmem, congrArg some hid⟩
    simpa using hsome
  unfold offer
  rw [hfind]

/-- An offer changes nothing but that it may add its snapshot. -/
theorem offer_eq (reports : List ReportSnapshot) (snapshot : ReportSnapshot) :
    (offer reports snapshot).2 = reports
      ∨ ((∀ report ∈ reports, report.reportId ≠ snapshot.reportId) ∧ validateCorrection reports snapshot = .ok ()
        ∧ offer reports snapshot = (.ok snapshot, reports ++ [snapshot])) := by
  unfold offer
  cases hfind : reports.find? fun report => report.reportId = snapshot.reportId with
  | some existing =>
    refine .inl ?_
    by_cases hdiffer : existing.inputHash ≠ snapshot.inputHash ∨ existing.correctionOf ≠ snapshot.correctionOf
    · simp only [if_pos hdiffer]
    · simp only [if_neg hdiffer]
  | none =>
    cases hvalid : validateCorrection reports snapshot with
    | error e => exact .inl rfl
    | ok u =>
      refine .inr ⟨?_, rfl, rfl⟩
      intro report hmem
      simpa using List.find?_eq_none.mp hfind report hmem

/-- What an offer is answered with is stored, under the identity, the inputs and the parent of the snapshot. -/
theorem offer_ok {stored : ReportSnapshot} (h : (offer reports snapshot).1 = .ok stored) :
    stored ∈ (offer reports snapshot).2 ∧ stored.reportId = snapshot.reportId
      ∧ stored.inputHash = snapshot.inputHash ∧ stored.correctionOf = snapshot.correctionOf := by
  unfold offer at h ⊢
  cases hfind : reports.find? fun report => report.reportId = snapshot.reportId with
  | some existing =>
    rw [hfind] at h
    by_cases hdiffer : existing.inputHash ≠ snapshot.inputHash ∨ existing.correctionOf ≠ snapshot.correctionOf
    · simp only [if_pos hdiffer] at h
      cases h
    · simp only [if_neg hdiffer] at h ⊢
      obtain rfl := Except.ok.inj h
      obtain ⟨hhash, hparent⟩ := not_or.mp hdiffer
      exact ⟨mem_of_find?_eq_some hfind, by simpa using List.find?_some hfind, not_not.mp hhash, not_not.mp hparent⟩
  | none =>
    rw [hfind] at h
    cases hvalid : validateCorrection reports snapshot with
    | error e =>
      rw [hvalid] at h
      cases h
    | ok u =>
      rw [hvalid] at h
      obtain rfl := Except.ok.inj h
      exact ⟨mem_append_right _ (mem_singleton.mpr rfl), rfl, rfl, rfl⟩

end Offers

section Chains

variable [Sha256] [InstantJson] [InstantDisplay]

/-- Only some texts are digested by a call, and its numbers have the range of their types. -/
structure DrawnFrom (identities inputs : String → Prop) (call : ReportCall) : Prop where
  words : call.InWords
  identity : identities call.identityText
  input : inputs call.inputText

/-- No two of the digested texts have one digest. -/
structure DistinctDigests (identities inputs : String → Prop) : Prop where
  identity : ∀ t t', identities t → identities t' → stableUuid t = stableUuid t' → t = t'
  input : ∀ t t', inputs t → inputs t' → sha256Hex (bytes t) = sha256Hex (bytes t') → t = t'

/-- The reports of a project: each was reduced from a call, has an identity of its own, and follows its parent. -/
structure ChainShaped (identities inputs : String → Prop) (owner : ReportOwner)
    (reports : List ReportSnapshot) : Prop where
  origin : ∀ report ∈ reports, ∃ call : ReportCall,
    call.owner = owner ∧ DrawnFrom identities inputs call ∧ Reduced call report
  distinct : (reports.map reportId).Nodup
  numbered : ∀ series, NumberedList ReportSnapshot.revision (chain reports series)
  parents : ∀ report ∈ reports, report.revision ≠ 1 →
    ∃ parent ∈ reports, report.correctionOf = some parent.reportId ∧ parent.series = report.series
      ∧ parent.revision + 1 = report.revision

variable {identities inputs : String → Prop} {owner : ReportOwner} {reports : List ReportSnapshot}
  {call : ReportCall} {snapshot : ReportSnapshot}

theorem ChainShaped.nil : ChainShaped identities inputs owner [] where
  origin _ hmem := nomatch hmem
  distinct := nodup_nil
  numbered _ := NumberedList.nil
  parents _ hmem := nomatch hmem

variable {report : ReportSnapshot} {s s' : MemoryReportRepository}

section

variable (hfree : DistinctDigests identities inputs) (h : ChainShaped identities inputs owner reports)
  (howner : call.owner = owner) (hdrawn : DrawnFrom identities inputs call) (hreduced : Reduced call snapshot)

include h

/-- A chain of `n` reports has one of each revision up to `n`. -/
theorem ChainShaped.mem_chain (series : ReportSeries) (n : Nat) :
    (∃ report ∈ reports, report.series = series ∧ report.revision = n) ↔ 1 ≤ n ∧ n ≤ (chain reports series).length := by
  have hmem : (∃ report ∈ reports, report.series = series ∧ report.revision = n)
      ↔ n ∈ (chain reports series).map ReportSnapshot.revision := by
    simp [chain, and_assoc]
  rw [hmem, h.numbered series, List.mem_range'_1]
  omega

variable {latest : ReportSnapshot}

theorem ChainShaped.latest_revision {series : ReportSeries} (hlatest : (chain reports series).getLast? = some latest) :
    latest ∈ reports ∧ latest.series = series ∧ latest.revision = (chain reports series).length := by
  have hmem : latest ∈ chain reports series := mem_of_getLast? hlatest
  have hlast : ((chain reports series).map ReportSnapshot.revision).getLast? = some latest.revision := by
    rw [List.getLast?_map, hlatest]
    rfl
  rw [h.numbered series, List.getLast?_range'] at hlast
  have hlength : (chain reports series).length ≠ 0 := by
    intro hzero
    rw [length_eq_zero_iff.mp hzero] at hmem
    cases hmem
  rw [if_neg hlength] at hlast
  have hrevision := some.inj hlast
  refine ⟨mem_of_mem_filter hmem, by simpa using (mem_filter.mp hmem).2, by omega⟩

include howner hreduced

/-- A stored report of the series and the revision of a call has its identity. -/
theorem ChainShaped.reportId_of_same (hmem : report ∈ reports) (hseries : report.series = snapshot.series)
    (hrevision : report.revision = snapshot.revision) : report.reportId = snapshot.reportId := by
  obtain ⟨origin, howner', -, hreduced'⟩ := h.origin report hmem
  have htext : origin.identityText = call.identityText := by
    apply identityText_congr
    · rw [howner', howner]
    · rw [← hreduced'.series, ← hreduced.series, hseries]
    · rw [← hreduced'.revision, ← hreduced.revision, hrevision]
  rw [hreduced'.id, hreduced.id, htext]

/-- A first revision is valid, and a correction whose parent is the one before it where nothing supersedes it. -/
theorem ChainShaped.validateCorrection_iff :
    validateCorrection reports snapshot = .ok ()
      ↔ snapshot.revision = 1
        ∨ ((∃ parent, IsParent reports snapshot parent) ∧ ∀ report ∈ reports, supersedes snapshot report = false) := by
  have hsame : ∀ report ∈ reports,
      report.projectId = snapshot.projectId ∧ report.reducerVersion = snapshot.reducerVersion := by
    intro report hmem
    obtain ⟨origin, howner', -, hreduced'⟩ := h.origin report hmem
    have hproject : reportOwner origin.scope origin.input.projectId
        = reportOwner call.scope call.input.projectId := howner'.trans howner.symm
    simp only [reportOwner, Prod.mk.injEq] at hproject
    refine ⟨?_, by rw [hreduced'.reducer, hreduced.reducer]⟩
    rw [hreduced'.project, hreduced.project]
    exact congrArg ProjectId.mk hproject.2.2
  unfold validateCorrection
  by_cases hfirst : snapshot.revision = 1
  · have hnone : snapshot.correctionOf.isNone := by
      rw [hreduced.first.mp hfirst]
      rfl
    rw [if_pos ⟨hfirst, hnone⟩]
    exact ⟨fun _ => .inl hfirst, fun _ => rfl⟩
  · rw [if_neg fun hboth => hfirst hboth.1]
    simp only [eq_ok_iff, not_or, not_not, hfirst, false_or, find_reportId h.distinct]
    constructor
    · rintro ⟨parent, ⟨hmem, hid⟩, hrevision, hcycle, hstart, hend, hcutoff, -, hmanifests, -, hany⟩
      refine ⟨⟨parent, hmem, hid.symm, ?_, hrevision⟩, ?_⟩
      · unfold ReportSnapshot.series
        rw [hcycle, hstart, hend, hcutoff, hmanifests]
      · intro report hreport
        have := List.any_eq_false.mp (Bool.not_eq_true _ ▸ hany) report hreport
        exact Bool.not_eq_true _ ▸ this
    · rintro ⟨⟨parent, hparent⟩, hnone⟩
      have hseries := hparent.series
      simp only [ReportSnapshot.series, ReportSeries.mk.injEq] at hseries
      obtain ⟨hcycle, hstart, hend, hcutoff, hmanifests⟩ := hseries
      obtain ⟨hproject, hreducer⟩ := hsame parent hparent.stored
      refine ⟨parent, ⟨hparent.stored, hparent.named.symm⟩, hparent.revision, hcycle, hstart, hend,
        hcutoff, hproject, hmanifests, hreducer, ?_⟩
      simpa using hnone

/-- The number of an added snapshot is the next one of its series. -/
theorem ChainShaped.next_revision (hnew : ∀ report ∈ reports, report.reportId ≠ snapshot.reportId)
    (hvalid : validateCorrection reports snapshot = .ok ()) :
    snapshot.revision = (chain reports snapshot.series).length + 1 := by
  have hchain := h.mem_chain snapshot.series
  have hcounted := hreduced.counted
  -- a stored report of this revision would have the identity of the snapshot
  have hbehind : (chain reports snapshot.series).length < snapshot.revision := by
    by_contra hle
    obtain ⟨report, hmem, hseries, hrevision⟩ := (hchain snapshot.revision).mpr ⟨by omega, Nat.not_lt.mp hle⟩
    exact hnew report hmem (h.reportId_of_same howner hreduced hmem hseries hrevision)
  rcases (h.validateCorrection_iff howner hreduced).mp hvalid with hfirst | ⟨⟨parent, hparent⟩, -⟩
  · omega
  · have hrange := (hchain parent.revision).mp ⟨parent, hparent.stored, hparent.series, rfl⟩
    have hnext := hparent.revision
    omega

include hdrawn

theorem ChainShaped.offer : ChainShaped identities inputs owner (offer reports snapshot).2 := by
  rcases offer_eq reports snapshot with hsame | ⟨hnew, hvalid, hadded⟩
  · rwa [hsame]
  rw [hadded]
  constructor
  case origin =>
    intro report hmem
    rcases mem_append.mp hmem with hold | hlast
    · exact h.origin report hold
    · rw [mem_singleton.mp hlast]
      exact ⟨call, howner, hdrawn, hreduced⟩
  case distinct =>
    rw [map_append, map_singleton, nodup_append]
    refine ⟨h.distinct, nodup_singleton _, ?_⟩
    intro id hid id' hid'
    obtain ⟨report, hmem, rfl⟩ := mem_map.mp hid
    rw [mem_singleton.mp hid']
    exact hnew report hmem
  case numbered =>
    intro series
    rw [chain_append]
    by_cases hseries : snapshot.series = series
    · rw [if_pos hseries]
      apply (h.numbered series).concat
      rw [h.next_revision howner hreduced hnew hvalid, hseries]
    · rw [if_neg hseries]
      exact h.numbered series
  case parents =>
    intro report hmem hfirst
    rcases mem_append.mp hmem with hold | hlast
    · obtain ⟨parent, hparent, hrest⟩ := h.parents report hold hfirst
      exact ⟨parent, mem_append_left _ hparent, hrest⟩
    · rw [mem_singleton.mp hlast] at hfirst ⊢
      rcases (h.validateCorrection_iff howner hreduced).mp hvalid with hone | ⟨⟨parent, hparent⟩, -⟩
      · exact absurd hone hfirst
      · exact ⟨parent, mem_append_left _ hparent.stored, hparent.named, hparent.series, hparent.revision⟩

include hfree

/-- A snapshot of a stored series and revision is answered with the stored report exactly when its inputs and its
parent are the same. -/
theorem ChainShaped.offer_replay {call' : ReportCall}
    {existing : ReportSnapshot} (hmem : existing ∈ reports) (hdrawn' : DrawnFrom identities inputs call')
    (hhash : existing.inputHash = sha256Hex (bytes call'.inputText))
    (hparent : existing.correctionOf = call'.correctionOf) (hseries : existing.series = snapshot.series)
    (hrevision : existing.revision = snapshot.revision) :
    GeoMaster.offer reports snapshot
      = if call'.inputText = call.inputText ∧ call'.correctionOf = call.correctionOf then
          (.ok existing, reports)
        else (.error (.conflict "report revision inputs differ"), reports) := by
  have hid := h.reportId_of_same howner hreduced hmem hseries hrevision
  rw [offer_some h.distinct hmem hid, hhash, hreduced.inputHash, hparent, hreduced.correctionOf]
  have hinput : sha256Hex (bytes call'.inputText) = sha256Hex (bytes call.inputText)
      ↔ call'.inputText = call.inputText :=
    ⟨hfree.input _ _ hdrawn'.input hdrawn.input, fun hsame => by rw [hsame]⟩
  by_cases hsame : call'.inputText = call.inputText ∧ call'.correctionOf = call.correctionOf
  · rw [if_pos hsame, if_neg]
    simpa [hinput] using hsame
  · rw [if_neg hsame, if_pos]
    rw [Ne, Ne, hinput]
    exact not_and_or.mp hsame

omit howner in
/-- A stored report with the identity of a call is of its series and its revision. -/
theorem ChainShaped.same_of_reportId [LawfulInstantDisplay] (hmem : report ∈ reports) (hid : report.reportId = snapshot.reportId) :
    report.series = snapshot.series ∧ report.revision = snapshot.revision := by
  obtain ⟨origin, -, hdrawn', hreduced'⟩ := h.origin report hmem
  have htext : origin.identityText = call.identityText := by
    apply hfree.identity _ _ hdrawn'.identity hdrawn.identity
    rw [← hreduced'.id, ← hreduced.id, hid]
  obtain ⟨-, hseries, hrevision⟩ := hreduced'.identityText_inj hreduced hdrawn'.words hdrawn.words htext
  exact ⟨by rw [hreduced'.series, hseries, hreduced.series], by rw [hreduced'.revision, hrevision, hreduced.revision]⟩

/-- A correction of the latest revision of its series is added exactly when no report of another cycle is in its
way. -/
theorem ChainShaped.offer_correction [LawfulInstantDisplay]
    (hlatest : (chain reports snapshot.series).getLast? = some latest)
    (hnamed : snapshot.correctionOf = some latest.reportId) (hrevision : snapshot.revision = latest.revision + 1) :
    GeoMaster.offer reports snapshot = (.ok snapshot, reports ++ [snapshot])
      ↔ ¬ ∃ report ∈ reports, Blocks snapshot report := by
  obtain ⟨hstored, hseries, _⟩ := h.latest_revision hlatest
  have hbelow : ∀ report ∈ reports, report.series = snapshot.series → report.revision < snapshot.revision := by
    intro report hmem hsame
    have := ((h.mem_chain snapshot.series report.revision).mp ⟨report, hmem, hsame, rfl⟩).2
    omega
  have hnew : ∀ report ∈ reports, report.reportId ≠ snapshot.reportId := by
    intro report hmem hid
    obtain ⟨hsame, hequal⟩ := h.same_of_reportId hfree hdrawn hreduced hmem hid
    exact absurd hequal (Nat.ne_of_lt (hbelow report hmem hsame))
  have hlater : snapshot.revision ≠ 1 := by
    have := ((h.mem_chain snapshot.series latest.revision).mp ⟨latest, hstored, hseries, rfl⟩).1
    omega
  have hparent : ∃ parent, IsParent reports snapshot parent := ⟨latest, hstored, hnamed, hseries, hrevision.symm⟩
  have hvalid : validateCorrection reports snapshot = .ok ()
      ↔ ∀ report ∈ reports, supersedes snapshot report = false := by
    rw [h.validateCorrection_iff howner hreduced]
    simp only [hlater, hparent, false_or, true_and]
  -- what supersedes the correction is not of its own series, whose revisions are all below it
  have hblocks : ∀ report ∈ reports, supersedes snapshot report = true ↔ Blocks snapshot report := by
    intro report hmem
    rw [supersedes_iff]
    refine ⟨fun ⟨hother, hle⟩ => ⟨?_, hother, hle⟩, fun hblock => hblock.2⟩
    intro hcycle
    rw [hcycle] at hother
    exact absurd (hbelow report hmem hother) (Nat.not_lt.mpr hle)
  have hadded : GeoMaster.offer reports snapshot = (.ok snapshot, reports ++ [snapshot])
      ↔ validateCorrection reports snapshot = .ok () := by
    rw [offer_none hnew]
    cases validateCorrection reports snapshot with
    | ok u => exact ⟨fun _ => rfl, fun _ => rfl⟩
    | error e =>
      constructor
      · intro heq
        cases congrArg Prod.fst heq
      · intro heq
        cases heq
  rw [hadded, hvalid]
  constructor
  · rintro hnone ⟨report, hmem, hblock⟩
    have := (hblocks report hmem).mpr hblock
    rw [hnone report hmem] at this
    cases this
  · intro hnone report hmem
    by_contra hsome
    exact hnone ⟨report, hmem, (hblocks report hmem).mp (Bool.not_eq_false _ ▸ hsome)⟩

end

/-! ### Runs -/

/-- The texts a step digests are among some texts. -/
def ReportsFrom (identities inputs : String → Prop) (_ : MemoryReportRepository) : ReportEvent → Prop
  | .call call _ => DrawnFrom identities inputs call
  | .reorder => True

/-- A call offers its report to its project and leaves the other projects alone. -/
theorem ReportCall.run_reduced (hreduce : call.reduce = .ok snapshot) (s : MemoryReportRepository) :
    (call.run.run s).1 = (offer (s.stored call.owner) snapshot).1
      ∧ ∀ owner, (call.run.run s).2.stored owner
        = if owner = call.owner then (offer (s.stored call.owner) snapshot).2 else s.stored owner := by
  have hreduced := reduce_ok hreduce
  have hrun : call.run.run s = (MemoryReportRepository.create call.scope snapshot).run s := by
    have hlift : reduceReport call.scope call.input call.revision call.correctionOf call.now = .ok snapshot := hreduce
    unfold run
    simp only [Op.run, bind, Op.lift, hlift]
  have howner : call.owner = reportOwner call.scope snapshot.projectId := by
    rw [ReportCall.owner, hreduced.project]
  rw [hrun, howner]
  exact MemoryReportRepository.run_create hreduced.inScope s

theorem ReportCall.run_failed {e : AppError} (hreduce : call.reduce = .error e)
    (s : MemoryReportRepository) : call.run.run s = (.error e, s) := by
  have hlift : reduceReport call.scope call.input call.revision call.correctionOf call.now = .error e := hreduce
  unfold run
  simp only [Op.run, bind, Op.lift, hlift]

variable {e : ReportEvent} {h : List ReportEvent} {stored : ReportSnapshot}

theorem reportStep_cases (h : (reportMachine.restrict (ReportsFrom identities inputs)).step s e s')
    (owner : ReportOwner) :
    s'.stored owner = s.stored owner
      ∨ ∃ call snapshot, call.owner = owner ∧ DrawnFrom identities inputs call
        ∧ call.reduce = .ok snapshot ∧ s'.stored owner = (offer (s.stored owner) snapshot).2 := by
  obtain ⟨hdrawn, hstep⟩ := h
  cases e with
  | reorder => exact .inl (hstep owner)
  | call call reply =>
    have hrun : call.run.run s = (reply, s') := hstep
    cases hreduce : call.reduce with
    | error e =>
      rw [run_failed hreduce] at hrun
      exact .inl (by rw [← (Prod.mk.inj hrun).2])
    | ok snapshot =>
      have hafter := (run_reduced hreduce s).2 owner
      rw [hrun] at hafter
      by_cases howner : owner = call.owner
      · rw [if_pos howner] at hafter
        exact .inr ⟨call, snapshot, howner.symm, hdrawn, hreduce, by rw [hafter, howner]⟩
      · rw [if_neg howner] at hafter
        exact .inl hafter

/-- Every project has its chains. -/
def ChainsShaped (identities inputs : String → Prop) (s : MemoryReportRepository) : Prop :=
  ∀ owner, ChainShaped identities inputs owner (s.stored owner)

theorem ChainsShaped.step (hs : ChainsShaped identities inputs s)
    (h : (reportMachine.restrict (ReportsFrom identities inputs)).step s e s') : ChainsShaped identities inputs s' := by
  intro owner
  rcases reportStep_cases h owner with hsame | ⟨call, snapshot, howner, hdrawn, hreduce, hafter⟩
  · rw [hsame]
    exact hs owner
  · rw [hafter]
    exact (hs owner).offer howner hdrawn (ReportCall.reduce_ok hreduce)

/-- The stored reports of every project were stored before, in the same order, or are newer. -/
def GrownFrom (s s' : MemoryReportRepository) : Prop :=
  ∀ owner, s.stored owner <+: s'.stored owner

theorem grown_step (h : (reportMachine.restrict (ReportsFrom identities inputs)).step s e s') : GrownFrom s s' := by
  intro owner
  rcases reportStep_cases h owner with hsame | ⟨call, snapshot, -, -, -, hafter⟩
  · exact hsame ▸ prefix_refl _
  · rw [hafter]
    rcases offer_eq (s.stored owner) snapshot with hsame | ⟨-, -, hadded⟩
    · exact (congrArg (s.stored owner <+: ·) hsame).mpr (prefix_refl _)
    · rw [hadded]
      exact prefix_append _ _

theorem grown_run (hrun : (reportMachine.restrict (ReportsFrom identities inputs)).Run s h s') : GrownFrom s s' :=
  hrun.relates (fun _ _ _ _ _ => trivial) (fun _ _ => prefix_refl _)
    (fun _ _ _ h₁ h₂ owner => (h₁ owner).trans (h₂ owner)) (fun _ _ _ _ hstep => grown_step hstep) trivial

/-- What a call was answered with is stored, under what the call asked for. -/
structure ReportAnswered (identities inputs : String → Prop) (s : MemoryReportRepository)
    (call : ReportCall) (stored : ReportSnapshot) : Prop where
  mem : stored ∈ s.stored call.owner
  drawn : DrawnFrom identities inputs call
  series : stored.series = call.series
  revision : stored.revision = call.revision
  inputHash : stored.inputHash = sha256Hex (bytes call.inputText)
  correctionOf : stored.correctionOf = call.correctionOf

theorem ReportAnswered.grown (h : ReportAnswered identities inputs s call stored)
    (hgrown : GrownFrom s s') : ReportAnswered identities inputs s' call stored :=
  { h with mem := (hgrown call.owner).subset h.mem }

/-- The answers of a run, and the chains it reaches. -/
def Chained (identities inputs : String → Prop) (h : List ReportEvent) (s : MemoryReportRepository) : Prop :=
  ChainsShaped identities inputs s
    ∧ ∀ call stored, .call call (.ok stored) ∈ h → ReportAnswered identities inputs s call stored

variable [LawfulInstantDisplay]

theorem answered_step (hfree : DistinctDigests identities inputs) (hs : ChainsShaped identities inputs s)
    (h : (reportMachine.restrict (ReportsFrom identities inputs)).step s (.call call (.ok stored)) s') :
    ReportAnswered identities inputs s' call stored := by
  have hs' := hs.step h
  obtain ⟨hdrawn, hstep⟩ := h
  have hrun : call.run.run s = (.ok stored, s') := hstep
  cases hreduce : call.reduce with
  | error e =>
    rw [run_failed hreduce] at hrun
    cases congrArg Prod.fst hrun
  | ok snapshot =>
    have hreduced := ReportCall.reduce_ok hreduce
    obtain ⟨hreply, hafter⟩ := run_reduced hreduce s
    rw [hrun] at hreply hafter
    have hlist := hafter call.owner
    rw [if_pos rfl] at hlist
    obtain ⟨hmem, hid, hhash, hparent⟩ := offer_ok hreply.symm
    rw [← hlist] at hmem
    obtain ⟨hseries, hrevision⟩ := (hs' call.owner).same_of_reportId hfree hdrawn hreduced hmem hid
    exact
      { mem := hmem
        drawn := hdrawn
        series := hseries.trans hreduced.series
        revision := hrevision.trans hreduced.revision
        inputHash := hhash.trans hreduced.inputHash
        correctionOf := hparent.trans hreduced.correctionOf }

theorem chained_run (hfree : DistinctDigests identities inputs)
    (hrun : (reportMachine.restrict (ReportsFrom identities inputs)).Run .default h s) :
    Chained identities inputs h s := by
  apply hrun.history (I := Chained identities inputs)
  · intro h s e s' hs hstep
    refine ⟨hs.1.step hstep, ?_⟩
    intro call stored hmem
    rcases mem_append.mp hmem with hold | hlast
    · exact (hs.2 call stored hold).grown (grown_step hstep)
    · rw [← mem_singleton.mp hlast] at hstep
      exact answered_step hfree hs.1 hstep
  · exact ⟨fun _ => .nil, fun _ _ hmem => nomatch hmem⟩

/-! ### The chains of a run -/

/-- A call leaves the stored reports as they are. -/
def LeavesReports (s : MemoryReportRepository) (call : ReportCall) : Prop :=
  ∀ owner, (call.run.run s).2.stored owner = s.stored owner

/-- The chains of a state: the revisions of a series are `1` to `n`, and a correction follows its parent. -/
structure ReportChains (s : MemoryReportRepository) : Prop where
  numbered : ∀ owner series, NumberedList ReportSnapshot.revision (chain (s.stored owner) series)
  first : ∀ owner, ∀ report ∈ s.stored owner, report.correctionOf = none → report.revision = 1
  parents : ∀ owner, ∀ report ∈ s.stored owner, ∀ parentId ∈ report.correctionOf,
    ∃ parent ∈ chain (s.stored owner) report.series, parent.reportId = parentId ∧ parent.revision + 1 = report.revision

/-- How a call is answered in a state. The calls of the history were answered before. -/
structure CallAnswers (h : List ReportEvent) (s : MemoryReportRepository) (call : ReportCall)
    (snapshot : ReportSnapshot) : Prop where
  replayed : ∀ earlier stored, .call earlier (.ok stored) ∈ h → earlier.owner = call.owner →
    earlier.series = call.series → earlier.revision = call.revision →
    LeavesReports s call
      ∧ (call.run.run s).1
        = if earlier.inputText = call.inputText ∧ earlier.correctionOf = call.correctionOf then
            .ok stored
          else .error (.conflict "report revision inputs differ")
  corrected : ∀ latest, (chain (s.stored call.owner) call.series).getLast? = some latest →
    call.correctionOf = some latest.reportId → call.revision = latest.revision + 1 →
    ((call.run.run s).1 = .ok snapshot ∧ (call.run.run s).2.stored call.owner = s.stored call.owner ++ [snapshot]
      ↔ ¬ ∃ report ∈ s.stored call.owner, Blocks snapshot report)

omit [LawfulInstantDisplay] in
theorem ChainsShaped.reportChains (hs : ChainsShaped identities inputs s) : ReportChains s where
  numbered owner := (hs owner).numbered
  first owner report hmem hnone := by
    obtain ⟨_, -, -, hreduced⟩ := (hs owner).origin report hmem
    exact hreduced.first.mpr hnone
  parents owner report hmem parentId hparent := by
    obtain ⟨_, -, -, hreduced⟩ := (hs owner).origin report hmem
    have hlater : report.revision ≠ 1 := by
      intro hone
      rw [hreduced.first.mp hone] at hparent
      cases hparent
    obtain ⟨parent, hstored, hnamed, hseries, hnext⟩ := (hs owner).parents report hmem hlater
    rw [hnamed] at hparent
    refine ⟨parent, ?_, some.inj hparent, hnext⟩
    exact mem_filter.mpr ⟨hstored, decide_eq_true hseries⟩

theorem Chained.callAnswers (hfree : DistinctDigests identities inputs)
    (hs : Chained identities inputs h s) (hdrawn : DrawnFrom identities inputs call)
    (hreduce : call.reduce = .ok snapshot) : CallAnswers h s call snapshot := by
  have hreduced := ReportCall.reduce_ok hreduce
  obtain ⟨hreply, hafter⟩ := run_reduced hreduce s
  have hshape := hs.1 call.owner
  constructor
  case replayed =>
    intro earlier stored hmem howner hseries hrevision
    obtain ⟨hstored, hdrawn', hseries', hrevision', hhash, hparent⟩ := hs.2 earlier stored hmem
    have hoffer := hshape.offer_replay hfree rfl hdrawn hreduced (howner ▸ hstored) hdrawn' hhash hparent
      (by rw [hseries', hseries, hreduced.series]) (by rw [hrevision', hrevision, hreduced.revision])
    rw [hoffer] at hreply hafter
    constructor
    · intro owner
      rw [hafter owner]
      by_cases hsame : owner = call.owner
      · rw [if_pos hsame, apply_ite Prod.snd, ite_self, hsame]
      · rw [if_neg hsame]
    · rw [hreply, apply_ite Prod.fst]
  case corrected =>
    intro latest hlatest hnamed hrevision
    have hoffer := hshape.offer_correction hfree rfl hdrawn hreduced
      (by rw [hreduced.series]; exact hlatest) (by rw [hreduced.correctionOf, hnamed])
      (by rw [hreduced.revision, hrevision])
    have hlist := hafter call.owner
    rw [if_pos rfl] at hlist
    rw [hreply, hlist, ← hoffer, Prod.ext_iff]

/-- The chains of corrections of a run. -/
theorem reportChains_run (hfree : DistinctDigests identities inputs) {s : MemoryReportRepository}
    {h : List ReportEvent} (hrun : (reportMachine.restrict (ReportsFrom identities inputs)).Run .default h s) :
    ReportChains s ∧ (∀ h' s', (reportMachine.restrict (ReportsFrom identities inputs)).Run s h' s' → GrownFrom s s')
      ∧ ∀ call snapshot, DrawnFrom identities inputs call → call.reduce = .ok snapshot →
        CallAnswers h s call snapshot := by
  have hchained := chained_run hfree hrun
  exact ⟨hchained.1.reportChains, fun _ _ hrun' => grown_run hrun',
    fun _ _ hdrawn hreduce => hchained.callAnswers hfree hdrawn hreduce⟩

end Chains

/-! ### Sample values -/

namespace Sample

/-- Whole seconds of the first ten of the epoch as `chrono` displays them. Other instants have a sign in front. -/
def secondParts (t : Int) : List Char × Nat :=
  if 0 ≤ t ∧ t < 10000000000 ∧ t % 1000000000 = 0 then
    ("1970-01-01 00:00:0".toList, (t / 1000000000).toNat)
  else if 0 ≤ t then (['+'], t.toNat)
  else (['-'], t.natAbs)

@[reducible] def zonedDisplay : InstantDisplay :=
  ⟨fun t => String.ofList ((secondParts t).1 ++ (toString (secondParts t).2).toList ++ [' ', 'U', 'T', 'C'])⟩

theorem secondParts_injective : Function.Injective secondParts := by
  intro t t' h
  have hday : "1970-01-01 00:00:0".toList ≠ ['+'] ∧ "1970-01-01 00:00:0".toList ≠ ['-'] := by decide
  have hsign : ['+'] ≠ ['-'] := by decide
  unfold secondParts at h
  split at h <;> split at h <;> (try split at h) <;> (try split at h) <;>
    simp only [Prod.mk.injEq, hday.1, hday.2, hday.1.symm, hday.2.symm, hsign, hsign.symm, false_and,
      true_and] at h <;> omega

theorem secondParts_lead (t : Int) :
    (secondParts t).1 = '1' :: "970-01-01 00:00:0".toList ∨ (secondParts t).1 = ['+'] ∨ (secondParts t).1 = ['-'] := by
  have hday : "1970-01-01 00:00:0".toList = '1' :: "970-01-01 00:00:0".toList := by decide
  unfold secondParts
  split
  · exact .inl hday
  · split
    · exact .inr (.inl rfl)
    · exact .inr (.inr rfl)

theorem zonedDisplay_toList (t : DateTime) :
    (zonedDisplay.text t).toList
      = ((secondParts t).1 ++ (toString (secondParts t).2).toList ++ [' ', 'U', 'T']) ++ ['C'] := by
  unfold InstantDisplay.text
  rw [toList_ofList]
  simp only [List.append_assoc, List.cons_append, List.nil_append]

theorem lawfulZonedDisplay : @LawfulInstantDisplay zonedDisplay := by
  have hfree : ∀ t : Int, 'C' ∉ (secondParts t).1 := by
    intro t
    rcases secondParts_lead t with h | h | h <;> rw [h] <;> decide
  refine @LawfulInstantDisplay.mk zonedDisplay ?_ ?_
  · intro t t' h
    have hchars := congrArg String.toList h
    rw [zonedDisplay_toList, zonedDisplay_toList] at hchars
    have hbody := append_cancel_right (append_cancel_right hchars)
    have hparts : (secondParts t).1 = (secondParts t').1
        ∧ (toString (secondParts t).2).toList = (toString (secondParts t').2).toList := by
      rcases secondParts_lead t with h | h | h <;> rcases secondParts_lead t' with h' | h' | h' <;>
        rw [h, h'] at hbody ⊢ <;>
        first
        | exact ⟨rfl, append_cancel_left hbody⟩
        | exact absurd (List.cons.inj hbody).1 (by decide)
    exact secondParts_injective (Prod.ext hparts.1 (digits_injective hparts.2))
  · intro t
    refine ⟨_, zonedDisplay_toList t, ?_⟩
    have hdigits := not_mem_digits (c := 'C') (by decide) (secondParts t).2
    rw [mem_append, mem_append, not_or, not_or]
    exact ⟨⟨hfree t, hdigits⟩, by decide⟩

/-- A cycle without manifests. -/
def emptyCycle (cycle revision : Nat) (correctionOf : Option Uuid) : ReportCall where
  scope
  input :=
    { reportInput with
      cycleId := uuid cycle, inputManifestVersions := [], publicationTargets := none
      measurementTargets := none }
  revision
  correctionOf
  now := second 7

/-- The hyphenated text of an identifier, as a list. -/
def uuidChars (n : Nat) : List Char :=
  let d := (uuid n).hexDigits
  d.take 8 ++ ['-'] ++ (d.drop 8).take 4 ++ ['-'] ++ (d.drop 12).take 4 ++ ['-']
    ++ (d.drop 16).take 4 ++ ['-'] ++ d.drop 20 ++ [':']

def secondChars (digit : Char) : List Char :=
  ['1', '9', '7', '0', '-', '0', '1', '-', '0', '1', ' ', '0', '0', ':', '0', '0', ':', '0', digit,
    ' ', 'U', 'T', 'C', ':']

/-- The identity text of a report of the cycles, as a list. -/
def identityChars (cycle revision : Nat) : List Char :=
  uuidChars 1 ++ uuidChars 2 ++ uuidChars 3 ++ uuidChars cycle ++ secondChars '1' ++ secondChars '5' ++ secondChars '6'
    ++ ['[', ']', ':', 'g', 'e', 'o', '-', 'r', 'e', 'p', 'o', 'r', 't', '-', 'v', '1', ':'] ++ Nat.toDigits 10 revision

theorem identityText_emptyCycle (cycle revision : Nat) (correctionOf : Option Uuid) :
    @identityText zonedDisplay (emptyCycle cycle revision correctionOf)
      = String.ofList (identityChars cycle revision) := by
  have huuid : ∀ n, (uuid n).toString.toList ++ [':'] = uuidChars n := fun n => by
    rw [Uuid.toString, toList_ofList]
    rfl
  have hsecond : (zonedDisplay.text (second 1)).toList ++ [':'] = secondChars '1'
      ∧ (zonedDisplay.text (second 5)).toList ++ [':'] = secondChars '5'
      ∧ (zonedDisplay.text (second 6)).toList ++ [':'] = secondChars '6' := by
    decide +kernel
  have hversion : ":geo-report-v1:".toList
      = [':', 'g', 'e', 'o', '-', 'r', 'e', 'p', 'o', 'r', 't', '-', 'v', '1', ':'] := by
    decide
  have hrevision : (toString revision).toList = Nat.toDigits 10 revision := Nat.toList_repr
  have htext := @toList_reportIdentityText zonedDisplay scope
    (emptyCycle cycle revision correctionOf).input [] revision (by simp)
  rw [← toList_inj, toList_ofList]
  refine htext.trans ?_
  unfold partsText idThen instantThen manifestsThenRevision identityChars
  simp only [emptyCycle, reportInput]
  rw [huuid, hsecond.1, hsecond.2.1, hsecond.2.2, hversion, hrevision]
  simp [manifestsText, Delimited.separated, huuid, scope]

/-- The identity a plain text is the name of. -/
def plainIdentity (chars : List Char) : Uuid :=
  let bits := ((SecureHash.plainDigits chars).take 32).foldl (fun n c => n * 16 + hexValue c) 0
  let versionMask : BitVec 128 := 0xF000 <<< 64
  let variantMask : BitVec 128 := 0xC0 <<< 56
  ⟨(BitVec.ofNat 128 bits &&& ~~~ versionMask &&& ~~~ variantMask)
    ||| (0x5000 <<< 64) ||| (0x80 <<< 56)⟩

theorem stableUuid_plain {chars : List Char} (h : ∀ c ∈ chars, c.toNat < 128) :
    @stableUuid secureHash (String.ofList chars) = plainIdentity chars := by
  have hdigest : @sha256Hex secureHash (bytes (String.ofList chars)) = String.ofList (SecureHash.plainDigits chars) :=
    SecureHash.sha256_plain h
  unfold stableUuid plainIdentity
  rw [hdigest, toList_ofList]

theorem identityChars_plain :
    (∀ c ∈ [(10, 1), (10, 2), (11, 1), (11, 2)], ∀ char ∈ identityChars c.1 c.2, char.toNat < 128)
      ∧ ([(10, 1), (10, 2), (11, 1), (11, 2)].map fun c : Nat × Nat =>
        plainIdentity (identityChars c.1 c.2)).Nodup := by
  have hvalues : ([(10, 1), (10, 2), (11, 1), (11, 2)].all
        (fun c => (identityChars c.1 c.2).all fun char => char.toNat < 128) = true)
      ∧ ([(10, 1), (10, 2), (11, 1), (11, 2)].map fun c : Nat × Nat => plainIdentity (identityChars c.1 c.2))
        = [⟨158134830101225117937315865438849651634⟩, ⟨130637217879398715101838849316071636359⟩,
          ⟨91280260497169200065710273558606232583⟩, ⟨277813267885190591488930954588803112546⟩] := by
    decide +kernel
  obtain ⟨hall, hidentities⟩ := hvalues
  refine ⟨fun c hc char hchar => ?_, by rw [hidentities]; decide⟩
  exact of_decide_eq_true (all_eq_true.mp (all_eq_true.mp hall c hc) char hchar)

section Runs

attribute [local instance] secureHash secondJson zonedDisplay lawfulZonedDisplay

/-- The identity of a report of the cycles. -/
def reportOf (cycle revision : Nat) : Uuid :=
  stableUuid (String.ofList (identityChars cycle revision))

/-- The correction of the first report of a cycle. -/
def correctedCycle (cycle : Nat) : ReportCall :=
  emptyCycle cycle 2 (some (reportOf cycle 1))

theorem reportOf_nodup : [reportOf 10 1, reportOf 10 2, reportOf 11 1, reportOf 11 2].Nodup := by
  have hsame : ([(10, 1), (10, 2), (11, 1), (11, 2)].map fun c : Nat × Nat => reportOf c.1 c.2)
      = [(10, 1), (10, 2), (11, 1), (11, 2)].map fun c : Nat × Nat =>
        plainIdentity (identityChars c.1 c.2) := by
    apply map_congr_left
    intro c hc
    exact stableUuid_plain (identityChars_plain.1 c hc)
  have hnodup := identityChars_plain.2
  rw [← hsame] at hnodup
  exact hnodup

theorem cycles_reduced :
    ∀ call ∈ [emptyCycle 10 1 none, correctedCycle 10, emptyCycle 11 1 none, correctedCycle 11],
      ∃ snapshot, call.reduce = .ok snapshot := by
  have hok : ∀ call ∈ [emptyCycle 10 1 none, correctedCycle 10, emptyCycle 11 1 none, correctedCycle 11],
      call.reduce.isOk = true := by
    decide +kernel
  intro call hmem
  cases hreduce : call.reduce with
  | ok snapshot => exact ⟨snapshot, rfl⟩
  | error e =>
    have := hok call hmem
    rw [hreduce] at this
    cases this

/-- A cycle with a correction. -/
theorem reportChains_run_sample : let h := Calls.trace ReportCall.run .default [emptyCycle 10 1 none, correctedCycle 10]
    let s := Calls.after ReportCall.run .default [emptyCycle 10 1 none, correctedCycle 10]
    let identities := fun t => t ∈ [String.ofList (identityChars 10 1), String.ofList (identityChars 10 2)]
    let inputs := fun t => t = (emptyCycle 10 1 none).inputText
    ReportChains s ∧ (∀ h' s', (reportMachine.restrict (ReportsFrom identities inputs)).Run s h' s' → GrownFrom s s')
      ∧ ∀ call snapshot, DrawnFrom identities inputs call → call.reduce = .ok snapshot →
        CallAnswers h s call snapshot := by
  intro h s identities inputs
  have hfree : DistinctDigests identities inputs := by
    constructor
    · intro t t' ht ht' hsame
      have hnodup : ([String.ofList (identityChars 10 1), String.ofList (identityChars 10 2)].map stableUuid).Nodup :=
        reportOf_nodup.sublist (.cons_cons _ (.cons_cons _ (nil_sublist _)))
      exact inj_on_of_nodup_map hnodup ht ht' hsame
    · intro t t' ht ht' _
      exact ht.trans ht'.symm
  have hdrawn : ∀ revision correctionOf, revision ∈ [1, 2] →
      DrawnFrom identities inputs (emptyCycle 10 revision correctionOf) := by
    intro revision correctionOf hrevision
    refine ⟨?_, ?_, rfl⟩
    · intro reference hmem
      cases hmem
    · show identityText _ ∈ _
      rw [identityText_emptyCycle]
      rcases mem_pair.mp hrevision with rfl | rfl
      · exact mem_cons_self
      · exact mem_cons_of_mem _ mem_cons_self
  have hallowed : Calls.Allowed run (ReportsFrom identities inputs) .default
      [emptyCycle 10 1 none, correctedCycle 10] :=
    ⟨hdrawn 1 none (by decide), hdrawn 2 _ (by decide), trivial⟩
  have hrun : (reportMachine.restrict (ReportsFrom identities inputs)).Run .default h s :=
    Calls.run_trace _ _ hallowed
  exact reportChains_run hfree hrun

variable {call : ReportCall} {snapshot : ReportSnapshot} {reports : List ReportSnapshot}

/-- What a call leaves behind in its project. -/
theorem stored_offered {owner : ReportOwner} {reports' : List ReportSnapshot} {r : Except AppError ReportSnapshot}
    {s : MemoryReportRepository} (howner : call.owner = owner) (hreduce : call.reduce = .ok snapshot)
    (hstored : s.stored owner = reports) (hoffer : offer reports snapshot = (r, reports')) :
    (call.run.run s).1 = r ∧ (call.run.run s).2.stored owner = reports' := by
  obtain ⟨hreply, hafter⟩ := run_reduced hreduce s
  rw [howner, hstored, hoffer] at hreply hafter
  refine ⟨hreply, ?_⟩
  rw [hafter owner, if_pos rfl]

theorem offer_first (hreduced : Reduced call snapshot) (hfirst : snapshot.revision = 1)
    (hnew : ∀ report ∈ reports, report.reportId ≠ snapshot.reportId) :
    offer reports snapshot = (.ok snapshot, reports ++ [snapshot]) := by
  have hvalid : validateCorrection reports snapshot = .ok () := by
    have hnone : snapshot.correctionOf.isNone := by
      rw [hreduced.first.mp hfirst]
      rfl
    unfold validateCorrection
    rw [if_pos ⟨hfirst, hnone⟩]
    rfl
  rw [offer_none hnew, hvalid]

theorem emptyCycle_reportId {cycle revision : Nat} {correctionOf : Option Uuid}
    {report : ReportSnapshot} (h : Reduced (emptyCycle cycle revision correctionOf) report) :
    report.reportId = reportOf cycle revision :=
  h.id.trans (congrArg stableUuid (identityText_emptyCycle _ _ _))

theorem emptyCycle_owner (cycle revision : Nat) (correctionOf : Option Uuid) :
    (emptyCycle cycle revision correctionOf).owner = reportOwner scope ⟨uuid 3⟩ :=
  rfl

theorem correctedCycle_owner (cycle : Nat) : (correctedCycle cycle).owner = reportOwner scope ⟨uuid 3⟩ :=
  rfl

theorem emptyCycle_drawn (cycle revision : Nat) (correctionOf : Option Uuid) :
    DrawnFrom (fun _ => True) (fun _ => True) (emptyCycle cycle revision correctionOf) := by
  refine ⟨?_, trivial, trivial⟩
  intro reference hmem
  cases hmem

theorem correctedCycle_parent {cycle : Nat}
    {first correction : ReportSnapshot} (hfirst : Reduced (emptyCycle cycle 1 none) first)
    (hcorrection : Reduced (correctedCycle cycle) correction) (hmem : first ∈ reports) :
    IsParent reports correction first where
  stored := hmem
  named := by
    rw [hcorrection.correctionOf, emptyCycle_reportId hfirst]
    rfl
  series := by
    rw [hfirst.series, hcorrection.series]
    rfl
  revision := by
    rw [hfirst.revision, hcorrection.revision]
    rfl

/-- The reports of the two cycles. -/
structure CycleReports (a₁ a₂ b₁ b₂ : ReportSnapshot) : Prop where
  first : Reduced (emptyCycle 10 1 none) a₁
  corrected : Reduced (correctedCycle 10) a₂
  other : Reduced (emptyCycle 11 1 none) b₁
  otherCorrected : Reduced (correctedCycle 11) b₂
  distinct : ([a₁, a₂, b₁, b₂].map reportId).Nodup

section Cycles

variable {a₁ a₂ b₁ b₂ : ReportSnapshot}

/-- The three reports are added one behind the other, and are shaped like chains. -/
theorem CycleReports.added (h : CycleReports a₁ a₂ b₁ b₂) :
    offer [] a₁ = (.ok a₁, [a₁]) ∧ offer [a₁] a₂ = (.ok a₂, [a₁, a₂]) ∧ offer [a₁, a₂] b₁ = (.ok b₁, [a₁, a₂, b₁]) := by
  have hdistinct := h.distinct
  simp only [map_cons, map_nil, nodup_cons, mem_cons, not_mem_nil, or_false, not_or] at hdistinct
  obtain ⟨⟨h₁₂, h₁₃, -⟩, ⟨h₂₃, -⟩, -, -⟩ := hdistinct
  have hadd₁ : offer [] a₁ = (.ok a₁, [a₁]) := by
    apply offer_first h.first h.first.revision
    intro report hmem
    cases hmem
  have hshape := ChainShaped.nil.offer (emptyCycle_owner 10 1 none) (emptyCycle_drawn 10 1 none) h.first
  rw [hadd₁] at hshape
  have hvalid : validateCorrection [a₁] a₂ = .ok () := by
    have hparent := correctedCycle_parent h.first h.corrected (mem_singleton.mpr rfl)
    refine (hshape.validateCorrection_iff (correctedCycle_owner 10) h.corrected).mpr (.inr ⟨⟨a₁, hparent⟩, ?_⟩)
    intro report hmem
    rw [mem_singleton.mp hmem, ← Bool.not_eq_true, supersedes_iff, h.first.revision, h.corrected.revision]
    exact fun hboth => absurd hboth.2 (by decide)
  refine ⟨hadd₁, ?_, ?_⟩
  · rw [offer_none fun report hmem => mem_singleton.mp hmem ▸ h₁₂, hvalid]
    rfl
  · apply offer_first h.other h.other.revision
    intro report hmem
    rcases mem_pair.mp hmem with rfl | rfl
    · exact h₁₃
    · exact h₂₃

/-- The correction of the first cycle supersedes that of the other one. -/
theorem CycleReports.refused (h : CycleReports a₁ a₂ b₁ b₂) :
    offer [a₁, a₂, b₁] b₂ = (.error (.conflict "correction parent does not match report window"), [a₁, a₂, b₁]) := by
  have hdistinct : ([a₁, a₂, b₁].map reportId).Nodup := h.distinct.sublist (by simp)
  have hnew : ∀ report ∈ [a₁, a₂, b₁], report.reportId ≠ b₂.reportId := by
    have hlast : b₂.reportId ∉ [a₁, a₂, b₁].map reportId := by
      have hsplit : ([a₁, a₂, b₁].map reportId ++ [b₂.reportId]).Nodup := h.distinct
      exact fun hmem => (nodup_append.mp hsplit).2.2 _ hmem _ (mem_singleton.mpr rfl) rfl
    exact fun report hmem hid => hlast (hid ▸ mem_map_of_mem hmem)
  have hsupersedes : supersedes b₂ a₂ = true := by
    have hcycle : a₂.cycleId = uuid 10 := congrArg ReportSeries.cycleId h.corrected.series
    have hrevision : a₂.revision = 2 := h.corrected.revision
    have hrevision' : b₂.revision = 2 := h.otherCorrected.revision
    rw [supersedes_iff, h.corrected.series, h.otherCorrected.series, hrevision, hrevision', hcycle]
    exact ⟨rfl, Nat.le_refl 2⟩
  have hlater : b₂.revision ≠ 1 := by
    rw [h.otherCorrected.revision]
    decide
  have hparent : IsParent [a₁, a₂, b₁] b₂ b₁ := correctedCycle_parent h.other h.otherCorrected (by simp)
  rw [offer_none hnew, validateCorrection_superseded hlater hdistinct hparent (by simp) hsupersedes]

end Cycles

theorem cycleReports : ∃ a₁ a₂ b₁ b₂, CycleReports a₁ a₂ b₁ b₂
    ∧ (emptyCycle 10 1 none).reduce = .ok a₁ ∧ (correctedCycle 10).reduce = .ok a₂
    ∧ (emptyCycle 11 1 none).reduce = .ok b₁ ∧ (correctedCycle 11).reduce = .ok b₂ := by
  obtain ⟨a₁, ha₁⟩ := cycles_reduced (emptyCycle 10 1 none) (by simp)
  obtain ⟨a₂, ha₂⟩ := cycles_reduced (correctedCycle 10) (by simp)
  obtain ⟨b₁, hb₁⟩ := cycles_reduced (emptyCycle 11 1 none) (by simp)
  obtain ⟨b₂, hb₂⟩ := cycles_reduced (correctedCycle 11) (by simp)
  have ra₁ := ReportCall.reduce_ok ha₁
  have ra₂ := ReportCall.reduce_ok ha₂
  have rb₁ := ReportCall.reduce_ok hb₁
  have rb₂ := ReportCall.reduce_ok hb₂
  have hdistinct : ([a₁, a₂, b₁, b₂].map reportId).Nodup := by
    rw [map_cons, map_cons, map_cons, map_cons, map_nil, emptyCycle_reportId ra₁,
      emptyCycle_reportId ra₂, emptyCycle_reportId rb₁, emptyCycle_reportId rb₂]
    exact reportOf_nodup
  exact ⟨a₁, a₂, b₁, b₂, ⟨ra₁, ra₂, rb₁, rb₂, hdistinct⟩, ha₁, ha₂, hb₁, hb₂⟩

/-- The reports of the first cycle keep a correction of the second one out, though its parent is the latest report of
its series. -/
theorem otherCycle_refused :
    ∃ h s, reportMachine.Run .default h s
      ∧ ∃ snapshot latest, (correctedCycle 11).reduce = .ok snapshot
        ∧ (chain (s.stored (correctedCycle 11).owner) (correctedCycle 11).series).getLast? = some latest
        ∧ (correctedCycle 11).correctionOf = some latest.reportId ∧ (correctedCycle 11).revision = latest.revision + 1
        ∧ ((correctedCycle 11).run.run s).1 = .error (.conflict "correction parent does not match report window") := by
  obtain ⟨a₁, a₂, b₁, b₂, hcycles, ha₁, ha₂, hb₁, hb₂⟩ := cycleReports
  obtain ⟨hadd₁, hadd₂, hadd₃⟩ := hcycles.added
  have hstored₁ := (stored_offered (emptyCycle_owner 10 1 none) ha₁ (s := .default) rfl hadd₁).2
  have hstored₂ := (stored_offered (correctedCycle_owner 10) ha₂ hstored₁ hadd₂).2
  have hstored₃ := (stored_offered (emptyCycle_owner 11 1 none) hb₁ hstored₂ hadd₃).2
  have hseries : b₁.series = (correctedCycle 11).series := hcycles.other.series
  have hlatest : (chain [a₁, a₂, b₁] (correctedCycle 11).series).getLast? = some b₁ := by
    have hlast : chain ([a₁, a₂] ++ [b₁]) (correctedCycle 11).series
        = chain [a₁, a₂] (correctedCycle 11).series ++ [b₁] := by
      rw [chain_append, if_pos hseries]
    have hconcat := congrArg List.getLast? hlast
    rwa [List.getLast?_concat] at hconcat
  have hrun := Calls.run_trace_all run (fun s s' : MemoryReportRepository => ∀ owner, s'.stored owner = s.stored owner)
    [emptyCycle 10 1 none, correctedCycle 10, emptyCycle 11 1 none] .default
  rw [Calls.after, Calls.after, Calls.after, Calls.after] at hrun
  refine ⟨_, _, hrun, b₂, b₁, hb₂, ?_, ?_, ?_,
    (stored_offered (correctedCycle_owner 11) hb₂ hstored₃ hcycles.refused).1⟩
  · exact (congrArg (fun reports => (chain reports (correctedCycle 11).series).getLast?) hstored₃).trans hlatest
  · rw [emptyCycle_reportId hcycles.other]
    rfl
  · rw [hcycles.other.revision]
    rfl

end Runs

end Sample

end GeoMaster
