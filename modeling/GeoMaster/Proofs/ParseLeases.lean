import GeoMaster.Proofs.KnowledgeShape

/-!
# Leases of documents that are parsed

A worker claims the job of a document, renews its lease while it works and presents it with everything it
records. The history of the replies says which lease was granted last. An accepted record, renewal or end
was made under that lease before it ran out; the tokens of successive claims rise; what was recorded of a
document stays, and every job that resumes another starts with it; and a job that has ended stays as it is.
-/

namespace GeoMaster

open AssocMap List Option MemoryState

/-- A job with this status has ended. -/
def ImportStatus.isEnded : ImportStatus → Bool
  | .succeeded | .partialImport | .failed => true
  | _ => false

/-- The manifest and the successful units of a document are still what they were. -/
structure ParseState.Grows {p : Parser} (parse parse' : ParseState p) : Prop where
  manifest : ∀ m, parse.manifest = some m → parse'.manifest = some m
  units : ∀ u result, parse.units.lookup u = some result → p.isSuccess result = true →
    parse'.units.lookup u = some result

namespace ParseState.Grows

variable {p : Parser} {parse parse' parse'' : ParseState p}

theorem refl (parse : ParseState p) : parse.Grows parse :=
  ⟨fun _ h => h, fun _ _ h _ => h⟩

theorem trans (h : parse.Grows parse') (h' : parse'.Grows parse'') : parse.Grows parse'' where
  manifest m hm := h'.manifest m (h.manifest m hm)
  units u result hu hsuccess := h'.units u result (h.units u result hu hsuccess) hsuccess

theorem withManifest {manifest : p.Manifest} (hunchanged : ∀ prior, parse.manifest = some prior → prior = manifest) :
    parse.Grows (parse.withManifest manifest) where
  manifest m hm := congrArg some (hunchanged m hm).symm
  units _ _ hu _ := hu

theorem withUnit {result : p.Result}
    (hunsuccessful : ∀ prior, parse.units.lookup (p.unitId result) = some prior →
      p.isSuccess prior = false) : parse.Grows (parse.withUnit result) where
  manifest _ hm := hm
  units u prior hu hsuccess := by
    have hne : u ≠ p.unitId result := by
      rintro rfl
      rw [hunsuccessful prior hu] at hsuccess
      simp at hsuccess
    exact (AList.lookup_insert_ne hne).trans hu

theorem resumed (parse : ParseState p) (jobId : Uuid) (now : DateTime) :
    parse.Grows (MemoryKnowledgeRepository.resumedParse parse jobId now) where
  manifest _ hm := hm
  units u result hu hsuccess := by
    show (retain p.isSuccess parse.units).lookup u = some result
    rw [lookup_retain, hu, filter_some, if_pos hsuccess]

end ParseState.Grows

namespace MemoryKnowledgeRepository

/-! ### Grants -/

/-- The lease a claim or a renewal is answered with. -/
def granted : KnowledgeEvent → Option ParseLease
  | .call _ (.ok (.lease lease)) => lease
  | _ => none

/-- The lease a claim is answered with. -/
def claimed : KnowledgeEvent → Option ParseLease
  | .call (.claimParse _ _ _ _ _ _) (.ok (.lease lease)) => lease
  | _ => none

/-- The leases granted for a job so far. -/
def grants (jobId : Uuid) (h : List KnowledgeEvent) : List ParseLease :=
  (h.filterMap granted).filter fun lease => lease.jobId = jobId

/-- The leases of a job that were claimed so far. -/
def claims (jobId : Uuid) (h : List KnowledgeEvent) : List ParseLease :=
  (h.filterMap claimed).filter fun lease => lease.jobId = jobId

/-- The lease that a worker presented with an accepted record, renewal or end, and the clock at its
check. -/
def presented : KnowledgeEvent → Option (ParseLease × DateTime)
  | .call (.renewParse _ _ lease _ checkedAt _) (.ok (.lease (some _))) => some (lease, checkedAt)
  | .call (.recordManifest _ _ lease _ now) (.ok _) => some (lease, now)
  | .call (.recordUnit _ _ lease _ now) (.ok _) => some (lease, now)
  | .call (.finishParse _ _ lease fresh) (.ok _) => some (lease, fresh.checkedAt)
  | .call (.failParse _ _ lease _ checkedAt _) (.ok _) => some (lease, checkedAt)
  | _ => none

variable {e : KnowledgeEvent} {id : Uuid} {job : ImportJob} {p : Parser} {s s' : MemoryState}

variable {lease : ParseLease} {parse : ParseState p} {scope : TenantScope} {next : ImportJob}

theorem claimed_granted (h : claimed e = some lease) : granted e = some lease := by
  unfold claimed at h
  split at h
  · exact h
  · simp at h

section History

variable {jobId : Uuid} {h : List KnowledgeEvent} {e : KnowledgeEvent} {lease : ParseLease}

theorem grants_quiet (he : granted e = none) : grants jobId (h ++ [e]) = grants jobId h := by
  simp [grants, he]

theorem grants_other (he : granted e = some lease) (hne : lease.jobId ≠ jobId) :
    grants jobId (h ++ [e]) = grants jobId h := by
  simp [grants, he, hne]

theorem grants_own (he : granted e = some lease) (hjob : lease.jobId = jobId) :
    grants jobId (h ++ [e]) = grants jobId h ++ [lease] := by
  simp [grants, he, hjob]

theorem claims_quiet (he : claimed e = none) : claims jobId (h ++ [e]) = claims jobId h := by
  simp [claims, he]

theorem claims_other (he : claimed e = some lease) (hne : lease.jobId ≠ jobId) :
    claims jobId (h ++ [e]) = claims jobId h := by
  simp [claims, he, hne]

theorem claims_own (he : claimed e = some lease) (hjob : lease.jobId = jobId) :
    claims jobId (h ++ [e]) = claims jobId h ++ [lease] := by
  simp [claims, he, hjob]

theorem claims_of_quiet (he : granted e = none) : claims jobId (h ++ [e]) = claims jobId h := by
  refine claims_quiet ?_
  cases hclaimed : claimed e with
  | none => rfl
  | some lease => rw [claimed_granted hclaimed] at he; simp at he

theorem claims_subset_grants : claims jobId h ⊆ grants jobId h := by
  intro lease hlease
  obtain ⟨hmem, hjob⟩ := mem_filter.mp hlease
  obtain ⟨e, he, hclaimed⟩ := mem_filterMap.mp hmem
  exact mem_filter.mpr ⟨mem_filterMap.mpr ⟨e, he, claimed_granted hclaimed⟩, hjob⟩

end History

/-! ### The maps of the jobs -/

/-- The jobs and the documents they parse. -/
structure ParseMaps where
  jobs : AssocMap Uuid ImportJob
  pdfJobs : AssocMap Uuid MemoryPdfState
  officeJobs : AssocMap Uuid MemoryOfficeState

def parseMaps (s : MemoryState) : ParseMaps where
  jobs := s.jobs
  pdfJobs := s.pdfJobs
  officeJobs := s.officeJobs

def ParseMaps.setJob (id : Uuid) (job : ImportJob) (maps : ParseMaps) : ParseMaps :=
  { maps with jobs := maps.jobs.insert id job }

def ParseMaps.setParse (p : Parser) (id : Uuid) (parse : ParseState p) (maps : ParseMaps) : ParseMaps :=
  match p, parse with
  | .pdf, parse => { maps with pdfJobs := maps.pdfJobs.insert id parse }
  | .office, parse => { maps with officeJobs := maps.officeJobs.insert id parse }

section Frame

variable (s : MemoryState)

@[simp]
theorem parseMaps_setJob (id : Uuid) (job : ImportJob) : parseMaps (s.setJob id job) = (parseMaps s).setJob id job :=
  rfl

@[simp]
theorem parseMaps_insertJob (job : ImportJob) :
    parseMaps (s.insertJob job) = (parseMaps s).setJob job.importJobId job :=
  rfl

@[simp]
theorem parseMaps_setParse (p : Parser) (id : Uuid) (parse : ParseState p) :
    parseMaps (s.setParse p id parse) = (parseMaps s).setParse p id parse := by
  cases p <;> rfl

@[simp]
theorem parseMaps_storeEnded (p : Parser) (jobId operationId : Uuid) (parse : ParseState p)
    (operation : Operation) (a : ImportAcceptance) :
    parseMaps (storeEnded p jobId operationId parse operation a s)
      = (parseMaps s).setParse p jobId (parse.settle a) := by
  cases p <;> rfl

end Frame

theorem parseJobs_of_parseMaps (h : parseMaps s' = parseMaps s) (q : Parser) : s'.parseJobs q = s.parseJobs q := by
  cases q with
  | pdf => exact congrArg ParseMaps.pdfJobs h
  | office => exact congrArg ParseMaps.officeJobs h

/-- One job is written. -/
def JobWritten (s s' : MemoryState) (id : Uuid) (job : ImportJob) : Prop :=
  ∀ i, s'.jobs.lookup i = if i = id then some job else s.jobs.lookup i

/-- One job is written with its document. -/
structure ParseWritten (s s' : MemoryState) (p : Parser) (id : Uuid) (job : ImportJob)
    (parse : ParseState p) : Prop where
  jobs : JobWritten s s' id job
  parses : ∀ q, s'.parseJobs q = (s.setParse p id parse).parseJobs q

theorem JobWritten.of_parseMaps {maps : ParseMaps} (hmaps : maps.jobs = s.jobs)
    (h : parseMaps s' = maps.setJob id job) : JobWritten s s' id job := by
  intro i
  have hjobs : s'.jobs = maps.jobs.insert id job := congrArg ParseMaps.jobs h
  rw [hjobs, hmaps, lookup_insert]

theorem ParseWritten.of_parseMaps
    (h : parseMaps s' = ((parseMaps s).setParse p id parse).setJob id job) : ParseWritten s s' p id job parse := by
  constructor
  · refine JobWritten.of_parseMaps ?_ h
    cases p <;> rfl
  · intro q
    have hmaps : parseMaps ((s.setParse p id parse).setJob id job) = parseMaps s' := by
      rw [h, parseMaps_setJob, parseMaps_setParse]
    rw [← parseJobs_of_parseMaps hmaps q]
    cases q <;> rfl

/-- What a step grants, and what becomes of the lease of the document it writes. -/
inductive LeaseChange (e : KnowledgeEvent) (id : Uuid) {p : Parser} (parse parse' : ParseState p) : Prop where
  | kept (quiet : granted e = none) (lease : parse'.lease = parse.lease)
      (token : parse'.fencingToken = parse.fencingToken) : LeaseChange e id parse parse'
  | claimed (lease : ParseLease) (grant : claimed e = some lease) (job : lease.jobId = id)
      (held : parse'.lease = some lease) (token : parse'.fencingToken = lease.fencingToken)
      (next : parse.fencingToken < lease.fencingToken) : LeaseChange e id parse parse'
  | renewed (lease : ParseLease) (grant : granted e = some lease)
      (unclaimed : MemoryKnowledgeRepository.claimed e = none) (job : lease.jobId = id)
      (held : parse'.lease = some lease) (token : parse'.fencingToken = parse.fencingToken) :
      LeaseChange e id parse parse'
  | released (quiet : granted e = none) (lease : parse'.lease = none)
      (token : parse'.fencingToken = parse.fencingToken) : LeaseChange e id parse parse'

/-- What a step does to the jobs and the documents. -/
inductive JobChange (e : KnowledgeEvent) (s s' : MemoryState) : Prop where
  | same (quiet : granted e = none) (jobs : ∀ i, s'.jobs.lookup i = s.jobs.lookup i)
      (parses : ∀ q, s'.parseJobs q = s.parseJobs q) : JobChange e s s'
  | added (id : Uuid) (job : ImportJob) (quiet : granted e = none) (unused : s.jobs.lookup id = none)
      (unparsed : ∀ q, (s.parseJobs q).lookup id = none) (first : job.resumedFrom = none)
      (jobs : JobWritten s s' id job) (parses : ∀ q, s'.parseJobs q = s.parseJobs q) :
      JobChange e s s'
  | queued (p : Parser) (id : Uuid) (job : ImportJob) (parse : ParseState p)
      (quiet : granted e = none) (unused : s.jobs.lookup id = none)
      (unparsed : ∀ q, (s.parseJobs q).lookup id = none) (first : job.resumedFrom = none)
      (free : parse.lease = none) (writes : ParseWritten s s' p id job parse) : JobChange e s s'
  | written (p : Parser) (id : Uuid) (job job' : ImportJob) (parse parse' : ParseState p)
      (found : s.jobs.lookup id = some job) (parseFound : (s.parseJobs p).lookup id = some parse)
      (live : job.status.isEnded = false) (resumed : job'.resumedFrom = job.resumedFrom) (grows : parse.Grows parse')
      (lease : LeaseChange e id parse parse') (writes : ParseWritten s s' p id job' parse') : JobChange e s s'
  | resumed (p : Parser) (id jobId : Uuid) (prior next : ImportJob) (parse parse' : ParseState p)
      (quiet : granted e = none) (unused : s.jobs.lookup id = none) (unparsed : ∀ q, (s.parseJobs q).lookup id = none)
      (found : s.jobs.lookup jobId = some prior) (ended : prior.status.isEnded = true)
      (parseFound : (s.parseJobs p).lookup jobId = some parse)
      (unresumed : ∀ i job, s.jobs.lookup i = some job → job.resumedFrom ≠ some jobId)
      (link : next.resumedFrom = some jobId) (grows : parse.Grows parse') (free : parse'.lease = none)
      (writes : ParseWritten s s' p id next parse') : JobChange e s s'

theorem Brought.parseMaps {objectId : Uuid} (h : Brought scope objectId s s') :
    MemoryKnowledgeRepository.parseMaps s' = MemoryKnowledgeRepository.parseMaps s := by
  cases h <;> rfl

theorem JobChange.of_parseMaps (hquiet : granted e = none) (h : parseMaps s' = parseMaps s) : JobChange e s s' :=
  .same hquiet (fun i => congrArg (fun maps : ParseMaps => maps.jobs.lookup i) h) (parseJobs_of_parseMaps h)

theorem Checked.live {now : DateTime} (h : Checked p scope lease now s job parse) : job.status.isEnded = false := by
  rw [h.running]
  rfl

theorem parseMaps_ended {s₁ : MemoryState} {operationId : Uuid} {operation : Operation}
    {a : ImportAcceptance} (hid : job.importJobId = id)
    (hmaps : MemoryKnowledgeRepository.parseMaps s₁ = MemoryKnowledgeRepository.parseMaps (s.insertJob job)) :
    MemoryKnowledgeRepository.parseMaps (storeEnded p id operationId parse operation a s₁)
      = ((MemoryKnowledgeRepository.parseMaps s).setParse p id (parse.settle a)).setJob id job := by
  rw [parseMaps_storeEnded, hmaps, parseMaps_insertJob, hid]
  cases p <;> rfl

section

variable [Sha256]

variable {s : MemoryState}

variable {call : KnowledgeCall} {r : Except AppError KnowledgeReply}

/-- An answer from the store without a write grants nothing. -/
theorem Kept.quiet {reply : KnowledgeReply} (h : Kept s call reply) : granted (.call call (.ok reply)) = none := by
  cases h <;> rfl

theorem Imported.jobChange {scope : TenantScope} {fresh : ImportInputs} {s₀ s₁ : MemoryState}
    {a : ImportAcceptance} (h : Imported scope fresh s₀ a s₁) (hnew : NewImport fresh s) (hquiet : granted e = none)
    (hbefore : MemoryKnowledgeRepository.parseMaps s₀ = MemoryKnowledgeRepository.parseMaps s)
    (hafter : MemoryKnowledgeRepository.parseMaps s' = MemoryKnowledgeRepository.parseMaps s₁) :
    JobChange e s s' := by
  cases h with
  | refused => exact .of_parseMaps hquiet (hafter.trans hbefore)
  | text r fits =>
    have hmaps : MemoryKnowledgeRepository.parseMaps s'
        = (MemoryKnowledgeRepository.parseMaps s).setJob fresh.jobId r.job := by
      rw [hafter, ← hbefore, ← fits.jobId]
      rfl
    refine .added fresh.jobId r.job hquiet hnew.job hnew.parses fits.jobResumed (.of_parseMaps rfl hmaps) fun q => ?_
    cases q with
    | pdf => exact congrArg ParseMaps.pdfJobs hmaps
    | office => exact congrArg ParseMaps.officeJobs hmaps
  | queued p _ object profile extra projectId =>
    have hmaps : MemoryKnowledgeRepository.parseMaps s'
        = ((MemoryKnowledgeRepository.parseMaps s).setParse p fresh.jobId
            (queuedParse object profile extra fresh)).setJob fresh.jobId
              (newJob scope projectId object.sha256 fresh) := by
      rw [hafter, ← hbefore]
      cases p <;> rfl
    exact .queued p fresh.jobId _ _ hquiet hnew.job hnew.parses rfl rfl (.of_parseMaps hmaps)
  | pending item capability _ _ projectId =>
    have hmaps : MemoryKnowledgeRepository.parseMaps s'
        = (MemoryKnowledgeRepository.parseMaps s).setJob fresh.jobId
            (pendingJob scope projectId item capability fresh) := by
      rw [hafter, ← hbefore]
      rfl
    refine .added fresh.jobId _ hquiet hnew.job hnew.parses rfl (.of_parseMaps rfl hmaps) fun q => ?_
    cases q with
    | pdf => exact congrArg ParseMaps.pdfJobs hmaps
    | office => exact congrArg ParseMaps.officeJobs hmaps

theorem KnowledgeEffect.jobChange (h : KnowledgeEffect s call r s') (hs : StoreShape s)
    (hfresh : ∀ id ∈ call.newIds, s.Unused id) : JobChange (.call call r) s s' := by
  cases h with
  | same _ r kept =>
    refine .of_parseMaps ?_ rfl
    cases r with
    | error e => rfl
    | ok reply => exact (kept reply rfl).quiet
  | sessionCreated => exact .of_parseMaps rfl rfl
  | contentPut => exact .of_parseMaps rfl rfl
  | sessionExpired => exact .of_parseMaps rfl rfl
  | contentRejected => exact .of_parseMaps rfl rfl
  | uploadCompleted _ id _ _ fresh _ _ _ _ _ _ _ _ _ _ _ _ _ _ imported =>
    have hnew : NewImport fresh s := .of_unused hfresh
    exact imported.jobChange hnew rfl rfl rfl
  | attachmentCompleted => exact .of_parseMaps rfl rfl
  | itemImported _ _ _ _ fresh _ _ _ _ _ brought imported =>
    have hnew : NewImport fresh s := .of_unused hfresh
    exact imported.jobChange hnew rfl brought.parseMaps rfl
  | revised _ _ _ _ _ _ _ _ _ _ _ _ _ _ _ _ _ _ stored =>
    subst stored
    exact .of_parseMaps rfl rfl
  | claimed p _ jobId _ _ _ job parse _ lease found _ live parseFound _ _ made =>
    have hlive : job.status.isEnded = false := by rcases live with hstatus | hstatus <;> rw [hstatus] <;> rfl
    refine .written p jobId job (job.run lease.expiresAt) parse (parse.grant lease) found parseFound
      hlive rfl ⟨fun _ h => h, fun _ _ h _ => h⟩ ?_ (.of_parseMaps (by cases p <;> rfl))
    refine .claimed lease rfl (by rw [made]) rfl rfl ?_
    rw [made]
    show parse.fencingToken < parse.fencingToken + 1
    omega
  | renewed p _ lease _ _ _ job parse next checked made =>
    refine .written p lease.jobId job (job.renew next.expiresAt) parse (parse.renew next) checked.jobFound
      checked.parseFound checked.live rfl ⟨fun _ h => h, fun _ _ h _ => h⟩ ?_ (.of_parseMaps (by simp))
    exact .renewed next rfl rfl (by rw [made]) rfl rfl
  | manifestRecorded p _ lease manifest _ job parse checked unchanged =>
    refine .written p lease.jobId job job parse (parse.withManifest manifest) checked.jobFound
      checked.parseFound checked.live rfl (.withManifest unchanged) (.kept rfl rfl rfl) ⟨?_, ?_⟩
    · intro i
      by_cases hid : i = lease.jobId
      · rw [if_pos hid, hid]
        exact checked.jobFound
      · rw [if_neg hid]
        rfl
    · exact fun q => rfl
  | unitRecorded p _ lease _ stored _ job parse checked sameUnit unsuccessful =>
    rw [← sameUnit] at unsuccessful
    exact .written p lease.jobId job (job.count (parse.withUnit stored).successCount (parse.withUnit stored).unitErrors)
      parse (parse.withUnit stored) checked.jobFound checked.parseFound checked.live rfl (.withUnit unsuccessful)
      (.kept rfl rfl rfl) (.of_parseMaps (by simp))
  | finished p _ lease _ job parse total _ version _ _ _ _ a _ checked _ _ _ _ _ _ _ stored =>
    have hid : job.importJobId = lease.jobId := hs.jobs _ _ checked.jobFound
    refine .written p lease.jobId job (finishedJob p job parse total (some version)) parse
      (parse.settle a) checked.jobFound checked.parseFound checked.live rfl
      ⟨fun _ h => h, fun _ _ h _ => h⟩ (.released rfl rfl rfl) (.of_parseMaps (parseMaps_ended hid ?_))
    subst stored
    rfl
  | finishedEmpty p _ lease _ job parse total _ _ a checked =>
    have hid : job.importJobId = lease.jobId := hs.jobs _ _ checked.jobFound
    exact .written p lease.jobId job (finishedJob p job parse total none) parse
      (parse.settle a) checked.jobFound checked.parseFound checked.live rfl
      ⟨fun _ h => h, fun _ _ h _ => h⟩ (.released rfl rfl rfl) (.of_parseMaps (parseMaps_ended hid rfl))
  | failed p _ lease code _ _ job parse _ a checked =>
    have hid : job.importJobId = lease.jobId := hs.jobs _ _ checked.jobFound
    exact .written p lease.jobId job (failedJob p job parse code) parse
      (parse.settle a) checked.jobFound checked.parseFound checked.live rfl
      ⟨fun _ h => h, fun _ _ h _ => h⟩ (.released rfl rfl rfl) (.of_parseMaps (parseMaps_ended hid rfl))
  | resumed p _ jobId fresh prior parse _ next found _ ended parseFound unresumed _ _ _ made =>
    have hnew := unused_first hfresh
    have hended : prior.status.isEnded = true := by rcases ended with hstatus | hstatus <;> rw [hstatus] <;> rfl
    have hid : next.importJobId = fresh.jobId := by rw [made]; rfl
    refine .resumed p fresh.jobId jobId prior next parse (resumedParse parse jobId fresh.queuedAt) rfl
      hnew.jobs hnew.parseJobs found hended parseFound unresumed (by rw [made]; rfl)
      (.resumed parse jobId fresh.queuedAt) rfl (.of_parseMaps ?_)
    rw [parseMaps_insertJob, hid]
    cases p <;> rfl
  | manifestStored => exact .of_parseMaps rfl rfl

/-- An accepted record, renewal or end was made under the lease that is stored. -/
theorem KnowledgeEffect.checked (h : KnowledgeEffect s call r s') {lease : ParseLease} {now : DateTime}
    (hpresented : presented (.call call r) = some (lease, now)) :
    ∃ p scope job parse, Checked p scope lease now s job parse := by
  cases h with
  | same call r kept =>
    cases r with
    | error e => cases call <;> simp [presented] at hpresented
    | ok reply =>
      cases kept reply rfl with
      | recorded p scope _ _ _ job parse checked =>
        obtain ⟨rfl, rfl⟩ := Prod.mk.inj (some.inj hpresented)
        exact ⟨p, scope, job, parse, checked⟩
      | _ => simp [presented] at hpresented
  | renewed p scope _ _ _ _ job parse _ checked =>
    obtain ⟨rfl, rfl⟩ := Prod.mk.inj (some.inj hpresented)
    exact ⟨p, scope, job, parse, checked⟩
  | manifestRecorded p scope _ _ _ job parse checked =>
    obtain ⟨rfl, rfl⟩ := Prod.mk.inj (some.inj hpresented)
    exact ⟨p, scope, job, parse, checked⟩
  | unitRecorded p scope _ _ _ _ job parse checked =>
    obtain ⟨rfl, rfl⟩ := Prod.mk.inj (some.inj hpresented)
    exact ⟨p, scope, job, parse, checked⟩
  | finished p scope _ _ job parse _ _ _ _ _ _ _ _ _ checked =>
    obtain ⟨rfl, rfl⟩ := Prod.mk.inj (some.inj hpresented)
    exact ⟨p, scope, job, parse, checked⟩
  | finishedEmpty p scope _ _ job parse _ _ _ _ checked =>
    obtain ⟨rfl, rfl⟩ := Prod.mk.inj (some.inj hpresented)
    exact ⟨p, scope, job, parse, checked⟩
  | failed p scope _ _ _ _ job parse _ _ checked =>
    obtain ⟨rfl, rfl⟩ := Prod.mk.inj (some.inj hpresented)
    exact ⟨p, scope, job, parse, checked⟩
  | sessionExpired call => cases call <;> simp [presented] at hpresented
  | contentRejected call => cases call <;> simp [presented] at hpresented
  | manifestStored _ _ _ _ caller =>
    rcases caller with ⟨request, documentScope, rfl⟩ | rfl <;> simp [presented] at hpresented
  | _ => simp [presented] at hpresented

end

/-! ### Documents -/

/-- The document of another job is as it was. -/
theorem ParseWritten.other {q : Parser} {i : Uuid} (h : ParseWritten s s' p id job parse)
    (hi : i ≠ id) : (s'.parseJobs q).lookup i = (s.parseJobs q).lookup i := by
  rw [h.parses q]
  by_cases hq : q = p
  · subst hq
    rw [parseJobs_setParse, AList.lookup_insert_ne hi]
  · rw [parseJobs_setParse_of_ne hq]

theorem ParseWritten.same (h : ParseWritten s s' p id job parse) : (s'.parseJobs p).lookup id = some parse := by
  rw [h.parses p, parseJobs_setParse, AList.lookup_insert]

theorem ParseWritten.unlike {q : Parser} (h : ParseWritten s s' p id job parse) (hq : q ≠ p) :
    s'.parseJobs q = s.parseJobs q := by
  rw [h.parses q, parseJobs_setParse_of_ne hq]

/-- A job has a document of one parser at most. -/
def OneParser (s : MemoryState) : Prop :=
  ∀ p q id parse parse', (s.parseJobs p).lookup id = some parse → (s.parseJobs q).lookup id = some parse' → p = q

/-- A document is written for a job that has one already, or none. -/
theorem ParseWritten.oneParser (h : ParseWritten s s' p id job parse) (hs : OneParser s)
    (hbefore : ∀ q, q ≠ p → (s.parseJobs q).lookup id = none) : OneParser s' := by
  have hown {q : Parser} {i : Uuid} {parse' : ParseState q} (hi : i = id)
      (hfound : (s'.parseJobs q).lookup i = some parse') : q = p := by
    by_contra hq
    rw [h.unlike hq, hi, hbefore q hq] at hfound
    simp at hfound
  intro q q' i parse' parse'' hfound hfound'
  by_cases hi : i = id
  · rw [hown hi hfound, hown hi hfound']
  · rw [h.other hi] at hfound hfound'
    exact hs q q' i parse' parse'' hfound hfound'

theorem JobChange.oneParser (h : JobChange e s s') (hs : OneParser s) : OneParser s' := by
  cases h with
  | same _ _ parses =>
    intro p q id parse parse' hfound hfound'
    rw [parses] at hfound hfound'
    exact hs p q id parse parse' hfound hfound'
  | added id _ _ _ _ _ _ parses =>
    intro p q id parse parse' hfound hfound'
    rw [parses] at hfound hfound'
    exact hs p q id parse parse' hfound hfound'
  | queued _ _ _ _ _ _ unparsed _ _ writes => exact writes.oneParser hs fun q _ => unparsed q
  | written p id _ _ parse _ _ parseFound _ _ _ _ writes =>
    refine writes.oneParser hs fun q hq => ?_
    cases hother : (s.parseJobs q).lookup id with
    | none => rfl
    | some parse'' => exact absurd (hs q p id parse'' parse hother parseFound) hq
  | resumed _ _ _ _ _ _ _ _ _ unparsed _ _ _ _ _ _ _ writes => exact writes.oneParser hs fun q _ => unparsed q

/-! ### What stays -/

/-- Jobs keep the job they resume and documents what was recorded of them; jobs that have ended are as
they were, with their documents. -/
structure Evolved (s s' : MemoryState) : Prop where
  jobs : ∀ id job, s.jobs.lookup id = some job → ∃ job', s'.jobs.lookup id = some job'
    ∧ job'.resumedFrom = job.resumedFrom ∧ (job.status.isEnded = true → job' = job)
  parses : ∀ p id job parse, s.jobs.lookup id = some job → (s.parseJobs p).lookup id = some parse →
    ∃ parse', (s'.parseJobs p).lookup id = some parse' ∧ parse.Grows parse'
      ∧ (job.status.isEnded = true → parse' = parse)

theorem Evolved.refl (s : MemoryState) : Evolved s s where
  jobs _ job h := ⟨job, h, rfl, fun _ => rfl⟩
  parses _ _ _ parse _ h := ⟨parse, h, .refl parse, fun _ => rfl⟩

theorem Evolved.trans {s'' : MemoryState} (h : Evolved s s') (h' : Evolved s' s'') : Evolved s s'' where
  jobs id job hjob := by
    obtain ⟨job', hjob', hresumed, hended⟩ := h.jobs id job hjob
    obtain ⟨job'', hjob'', hresumed', hended'⟩ := h'.jobs id job' hjob'
    refine ⟨job'', hjob'', hresumed'.trans hresumed, fun hstatus => ?_⟩
    have hsame := hended hstatus
    rw [hended' (hsame ▸ hstatus), hsame]
  parses p id job parse hjob hparse := by
    obtain ⟨job', hjob', -, hended⟩ := h.jobs id job hjob
    obtain ⟨parse', hparse', hgrows, hkept⟩ := h.parses p id job parse hjob hparse
    obtain ⟨parse'', hparse'', hgrows', hkept'⟩ := h'.parses p id job' parse' hjob' hparse'
    refine ⟨parse'', hparse'', hgrows.trans hgrows', fun hstatus => ?_⟩
    rw [hkept' (hended hstatus ▸ hstatus), hkept hstatus]

theorem JobWritten.evolved (h : JobWritten s s' id next)
    (hlive : ∀ job, s.jobs.lookup id = some job → job.status.isEnded = false ∧ next.resumedFrom = job.resumedFrom)
    (i : Uuid) (job : ImportJob) (hjob : s.jobs.lookup i = some job) : ∃ job', s'.jobs.lookup i = some job'
      ∧ job'.resumedFrom = job.resumedFrom ∧ (job.status.isEnded = true → job' = job) := by
  by_cases hi : i = id
  · subst hi
    obtain ⟨hstatus, hresumed⟩ := hlive job hjob
    refine ⟨next, by rw [h, if_pos rfl], hresumed, fun hended => ?_⟩
    rw [hstatus] at hended
    simp at hended
  · exact ⟨job, by rw [h, if_neg hi, hjob], rfl, fun _ => rfl⟩

/-- A document is written that grows, of a job that has not ended, or a new one. -/
theorem ParseWritten.evolved {parse' : ParseState p} (h : ParseWritten s s' p id next parse')
    (hjob : ∀ job, s.jobs.lookup id = some job → job.status.isEnded = false ∧ next.resumedFrom = job.resumedFrom)
    (hparse : ∀ parse, (s.parseJobs p).lookup id = some parse → parse.Grows parse') : Evolved s s' where
  jobs := h.jobs.evolved hjob
  parses q i job parse hfound hparse' := by
    by_cases hi : i = id
    · subst hi
      have hlive := (hjob job hfound).1
      by_cases hq : q = p
      · subst hq
        exact ⟨parse', h.same, hparse parse hparse', fun hended => by simp [hlive] at hended⟩
      · exact ⟨parse, by rw [h.unlike hq, hparse'], .refl parse, fun _ => rfl⟩
    · exact ⟨parse, by rw [h.other hi, hparse'], .refl parse, fun _ => rfl⟩

/-- Nothing is said of a job that is not stored. -/
theorem unstored (hunused : s.jobs.lookup id = none) {P : ImportJob → Prop} (job : ImportJob)
    (hjob : s.jobs.lookup id = some job) : P job := by
  rw [hunused] at hjob
  simp at hjob

theorem JobChange.evolved (h : JobChange e s s') : Evolved s s' := by
  have hunparsed {p : Parser} {id : Uuid} {parse' : ParseState p} (hnone : (s.parseJobs p).lookup id = none)
      (parse : ParseState p) (hparse : (s.parseJobs p).lookup id = some parse) : parse.Grows parse' := by
    rw [hnone] at hparse
    simp at hparse
  cases h with
  | same _ jobs parses =>
    exact
      { jobs := fun id job hjob => ⟨job, by rw [jobs, hjob], rfl, fun _ => rfl⟩
        parses := fun p id job parse _ hparse => ⟨parse, by rw [parses, hparse], .refl parse, fun _ => rfl⟩ }
  | added id job _ unused _ _ jobs parses =>
    exact
      { jobs := jobs.evolved (unstored unused)
        parses := fun p id job parse _ hparse => ⟨parse, by rw [parses, hparse], .refl parse, fun _ => rfl⟩ }
  | queued p _ _ _ _ unused unparsed _ _ writes => exact writes.evolved (unstored unused) (hunparsed (unparsed p))
  | written _ _ _ _ _ _ found parseFound live resumed grows _ writes =>
    refine writes.evolved (fun stored hstored => ?_) fun stored hstored => ?_
    · rw [found] at hstored
      exact some.inj hstored ▸ ⟨live, resumed⟩
    · rw [parseFound] at hstored
      exact some.inj hstored ▸ grows
  | resumed p _ _ _ _ _ _ _ unused unparsed _ _ _ _ _ _ _ writes =>
    exact writes.evolved (unstored unused) (hunparsed (unparsed p))

/-! ### Retries -/

/-- The job `b` resumes the job `a`. -/
def Resumes (s : MemoryState) (a b : Uuid) : Prop :=
  ∃ job, s.jobs.lookup b = some job ∧ job.resumedFrom = some a

/-- A job is resumed once at most, after it ended, and the job that resumes it has what was recorded. -/
structure Chained (s : MemoryState) : Prop where
  oneParser : OneParser s
  successor : ∀ j a b, Resumes s j a → Resumes s j b → a = b
  links : ∀ a b, Resumes s a b → ∃ prior, s.jobs.lookup a = some prior
    ∧ prior.status.isEnded = true ∧ ∀ p parse, (s.parseJobs p).lookup a = some parse →
      ∃ parse', (s.parseJobs p).lookup b = some parse' ∧ parse.Grows parse'

/-- A document that is there was there before, if its job was. -/
def ParsesBefore (s s' : MemoryState) : Prop :=
  ∀ p a parse', (s'.parseJobs p).lookup a = some parse' → s.jobs.lookup a ≠ none →
    ∃ parse, (s.parseJobs p).lookup a = some parse

theorem Chained.link_kept (hs : Chained s) (hevolved : Evolved s s') (hbefore : ParsesBefore s s') {a b : Uuid}
    (hab : Resumes s a b) :
    ∃ prior, s'.jobs.lookup a = some prior ∧ prior.status.isEnded = true
      ∧ ∀ p parse, (s'.parseJobs p).lookup a = some parse →
        ∃ parse', (s'.parseJobs p).lookup b = some parse' ∧ parse.Grows parse' := by
  obtain ⟨prior, hprior, hended, hgrows⟩ := hs.links a b hab
  obtain ⟨job, hjob, -⟩ := hab
  obtain ⟨prior', hprior', -, hsame⟩ := hevolved.jobs a prior hprior
  refine ⟨prior', hprior', hsame hended ▸ hended, fun p parse' hparse' => ?_⟩
  obtain ⟨parse, hparse⟩ := hbefore p a parse' hparse' (by rw [hprior]; simp)
  obtain ⟨_, hkept, -, hunchanged⟩ := hevolved.parses p a prior parse hprior hparse
  rw [hparse'] at hkept
  obtain rfl := some.inj hkept
  obtain ⟨next, hnext, hgrew⟩ := hgrows p parse hparse
  obtain ⟨next', hnext', hgrew', -⟩ := hevolved.parses p b job next hjob hnext
  rw [hunchanged hended]
  exact ⟨next', hnext', hgrew.trans hgrew'⟩

/-- Links stay as they are when no job is linked anew. -/
theorem Chained.evolved (hs : Chained s) (hevolved : Evolved s s') (hone : OneParser s') (hbefore : ParsesBefore s s')
    (hold : ∀ a b, Resumes s' a b → Resumes s a b) : Chained s' where
  oneParser := hone
  successor j a b ha hb := hs.successor j a b (hold j a ha) (hold j b hb)
  links a b hab := hs.link_kept hevolved hbefore (hold a b hab)

theorem ParseWritten.before (h : ParseWritten s s' p id job parse)
    (hfound : s.jobs.lookup id = none ∨ ∃ old, (s.parseJobs p).lookup id = some old) : ParsesBefore s s' := by
  intro q a parse' hparse' hstored
  by_cases ha : a = id
  · subst ha
    rcases hfound with hnone | ⟨old, hold⟩
    · exact absurd hnone hstored
    · by_cases hq : q = p
      · subst hq
        exact ⟨old, hold⟩
      · rw [h.unlike hq] at hparse'
        exact ⟨parse', hparse'⟩
  · rw [h.other ha] at hparse'
    exact ⟨parse', hparse'⟩

/-- A new job that resumes none, or a job that resumes what it did, adds no link. -/
theorem JobWritten.unlinked (h : JobWritten s s' id next) (hnext : ∀ a, next.resumedFrom = some a → Resumes s a id)
    (a b : Uuid) (hab : Resumes s' a b) : Resumes s a b := by
  obtain ⟨job, hjob, hlink⟩ := hab
  rw [h] at hjob
  split at hjob
  · rename_i hb
    obtain rfl := some.inj hjob
    exact hb ▸ hnext a hlink
  · exact ⟨job, hjob, hlink⟩

theorem JobChange.chained (h : JobChange e s s') (hs : Chained s) : Chained s' := by
  have hevolved := h.evolved
  have hone := h.oneParser hs.oneParser
  have hfirst {next : ImportJob} {id : Uuid} (hnone : next.resumedFrom = none) (a : Uuid)
      (hlink : next.resumedFrom = some a) : Resumes s a id := by
    rw [hnone] at hlink
    simp at hlink
  cases h with
  | same _ jobs parses =>
    refine hs.evolved hevolved hone (fun p a parse' hparse' _ => ⟨parse', parses p ▸ hparse'⟩) ?_
    rintro a b ⟨job, hjob, hlink⟩
    exact ⟨job, by rw [← jobs, hjob], hlink⟩
  | added _ _ _ _ _ first jobs parses =>
    exact hs.evolved hevolved hone (fun p a parse' hparse' _ => ⟨parse', parses p ▸ hparse'⟩)
      (jobs.unlinked (hfirst first))
  | queued _ _ _ _ _ unused _ first _ writes =>
    exact hs.evolved hevolved hone (writes.before (.inl unused)) (writes.jobs.unlinked (hfirst first))
  | written _ _ job _ parse _ found parseFound _ resumed _ _ writes =>
    refine hs.evolved hevolved hone (writes.before (.inr ⟨parse, parseFound⟩)) ?_
    exact writes.jobs.unlinked fun a hlink => ⟨job, found, resumed ▸ hlink⟩
  | resumed p id jobId prior _ parse parse' _ unused _ found ended parseFound unresumed link grows _ writes =>
    -- Every link is an old one, or leads from the job that was resumed to the new one.
    have hcases (a b : Uuid) (hab : Resumes s' a b) : Resumes s a b ∨ a = jobId ∧ b = id := by
      obtain ⟨job, hjob, hlink⟩ := hab
      rw [writes.jobs] at hjob
      split at hjob
      · rename_i hb
        obtain rfl := some.inj hjob
        exact .inr ⟨some.inj (hlink.symm.trans link), hb⟩
      · exact .inl ⟨job, hjob, hlink⟩
    have hnolink (b : Uuid) : ¬ Resumes s jobId b := by
      rintro ⟨job, hjob, hlink⟩
      exact unresumed b job hjob hlink
    constructor
    case oneParser => exact hone
    case successor =>
      intro j a b ha hb
      rcases hcases j a ha with ha | ⟨hj, ha⟩ <;> rcases hcases j b hb with hb | ⟨hj', hb⟩
      · exact hs.successor j a b ha hb
      · exact absurd (hj' ▸ ha) (hnolink a)
      · exact absurd (hj ▸ hb) (hnolink b)
      · rw [ha, hb]
    case links =>
      intro a b hab
      rcases hcases a b hab with hold | ⟨rfl, rfl⟩
      · exact hs.link_kept hevolved (writes.before (.inl unused)) hold
      · have hne : a ≠ b := by
          rintro rfl
          rw [unused] at found
          simp at found
        refine ⟨prior, by rw [writes.jobs, if_neg hne, found], ended, fun q parse₀ hparse₀ => ?_⟩
        rw [writes.other hne] at hparse₀
        obtain rfl := hs.oneParser q p a parse₀ parse hparse₀ parseFound
        rw [parseFound] at hparse₀
        obtain rfl := some.inj hparse₀
        exact ⟨parse', writes.same, grows⟩

/-- What was recorded of a document is known to every job that resumes its job, directly or not. -/
theorem Chained.grows (hs : Chained s) {a b : Uuid}
    (hparse : (s.parseJobs p).lookup a = some parse) (hab : Relation.ReflTransGen (Resumes s) a b) :
    ∃ parse', (s.parseJobs p).lookup b = some parse' ∧ parse.Grows parse' := by
  induction hab with
  | refl => exact ⟨parse, hparse, .refl parse⟩
  | tail _ hlink ih =>
    obtain ⟨middle, hmiddle, hgrows⟩ := ih
    obtain ⟨_, -, -, hnext⟩ := hs.links _ _ hlink
    obtain ⟨parse', hparse', hgrows'⟩ := hnext p middle hmiddle
    exact ⟨parse', hparse', hgrows.trans hgrows'⟩

/-! ### The ledger of grants -/

/-- The history knows the lease of every document, and the tokens it has seen rise. -/
structure LeaseLedger (h : List KnowledgeEvent) (s : MemoryState) : Prop where
  current : ∀ p id parse lease, (s.parseJobs p).lookup id = some parse → parse.lease = some lease →
    (grants id h).getLast? = some lease
  tokens : ∀ p id parse, (s.parseJobs p).lookup id = some parse →
    ∀ lease ∈ claims id h, lease.fencingToken ≤ parse.fencingToken
  rising : ∀ id, ((claims id h).map ParseLease.fencingToken).Pairwise (· < ·)
  unparsed : ∀ id, (∀ p, (s.parseJobs p).lookup id = none) → grants id h = []

namespace LeaseLedger

variable {h : List KnowledgeEvent} {s s' : MemoryState} {e : KnowledgeEvent}

/-- A step that grants nothing and leaves the documents alone. -/
theorem quiet (hl : LeaseLedger h s) (hquiet : granted e = none)
    (hparses : ∀ p, s'.parseJobs p = s.parseJobs p) : LeaseLedger (h ++ [e]) s' where
  current p id parse lease hparse hlease := by
    rw [grants_quiet hquiet]
    exact hl.current p id parse lease (hparses p ▸ hparse) hlease
  tokens p id parse hparse := by
    rw [claims_of_quiet hquiet]
    exact hl.tokens p id parse (hparses p ▸ hparse)
  rising id := by
    rw [claims_of_quiet hquiet]
    exact hl.rising id
  unparsed id hnone := by
    rw [grants_quiet hquiet]
    exact hl.unparsed id fun p => hparses p ▸ hnone p

/-- A step that grants at most a lease of the job whose document it writes. -/
theorem written (hl : LeaseLedger h s) {parse : ParseState p}
    (hwrites : ParseWritten s s' p id job parse) (honly : ∀ q, q ≠ p → (s.parseJobs q).lookup id = none)
    (hcurrent : ∀ lease, parse.lease = some lease → (grants id (h ++ [e])).getLast? = some lease)
    (htokens : ∀ lease ∈ claims id (h ++ [e]), lease.fencingToken ≤ parse.fencingToken)
    (hrising : ((claims id (h ++ [e])).map ParseLease.fencingToken).Pairwise (· < ·))
    (hothers : ∀ lease, granted e = some lease → lease.jobId = id) : LeaseLedger (h ++ [e]) s' := by
  have hgrants {i : Uuid} (hi : i ≠ id) : grants i (h ++ [e]) = grants i h := by
    cases hgranted : granted e with
    | none => exact grants_quiet hgranted
    | some lease => exact grants_other hgranted (hothers lease hgranted ▸ Ne.symm hi)
  have hclaims {i : Uuid} (hi : i ≠ id) : claims i (h ++ [e]) = claims i h := by
    cases hclaimed : claimed e with
    | none => exact claims_quiet hclaimed
    | some lease =>
      have hjob := hothers lease (claimed_granted hclaimed)
      exact claims_other hclaimed (hjob ▸ Ne.symm hi)
  have hown {q : Parser} {parse' : ParseState q} (hfound : (s'.parseJobs q).lookup id = some parse') :
      ∃ hq : q = p, hq ▸ parse' = parse := by
    by_cases hq : q = p
    · subst hq
      rw [hwrites.same] at hfound
      exact ⟨rfl, (some.inj hfound).symm⟩
    · rw [hwrites.unlike hq, honly q hq] at hfound
      simp at hfound
  constructor
  case current =>
    intro q i parse' lease hparse hlease
    by_cases hi : i = id
    · subst hi
      obtain ⟨rfl, rfl⟩ := hown hparse
      exact hcurrent lease hlease
    · rw [hgrants hi]
      rw [hwrites.other hi] at hparse
      exact hl.current q i parse' lease hparse hlease
  case tokens =>
    intro q i parse' hparse
    by_cases hi : i = id
    · subst hi
      obtain ⟨rfl, rfl⟩ := hown hparse
      exact htokens
    · rw [hclaims hi]
      rw [hwrites.other hi] at hparse
      exact hl.tokens q i parse' hparse
  case rising =>
    intro i
    by_cases hi : i = id
    · subst hi
      exact hrising
    · rw [hclaims hi]
      exact hl.rising i
  case unparsed =>
    intro i hnone
    have hi : i ≠ id := by
      rintro rfl
      have hsame := hwrites.same
      rw [hnone p] at hsame
      simp at hsame
    rw [hgrants hi]
    exact hl.unparsed i fun q => by rw [← hwrites.other hi, hnone q]

/-- A job that has no document yet gets one, without a lease. -/
theorem opened (hl : LeaseLedger h s)
    {parse : ParseState p} (hwrites : ParseWritten s s' p id job parse) (hquiet : granted e = none)
    (hunparsed : ∀ q, (s.parseJobs q).lookup id = none) (hfree : parse.lease = none) :
    LeaseLedger (h ++ [e]) s' := by
  have hnone : claims id (h ++ [e]) = [] := by
    rw [claims_of_quiet hquiet]
    refine eq_nil_iff_forall_not_mem.mpr fun lease hlease => ?_
    have hgrant := claims_subset_grants hlease
    rw [hl.unparsed id hunparsed] at hgrant
    simp at hgrant
  refine hl.written hwrites (fun q _ => hunparsed q) ?_ ?_ ?_ ?_
  · intro lease hlease
    rw [hfree] at hlease
    simp at hlease
  · rw [hnone]
    simp
  · rw [hnone]
    exact .nil
  · intro lease hlease
    rw [hquiet] at hlease
    simp at hlease

theorem step (hl : LeaseLedger h s) (hone : OneParser s) (hchange : JobChange e s s') : LeaseLedger (h ++ [e]) s' := by
  cases hchange with
  | same quiet _ parses => exact hl.quiet quiet parses
  | added _ _ quiet _ _ _ _ parses => exact hl.quiet quiet parses
  | queued _ _ _ _ quiet _ unparsed _ free writes => exact hl.opened writes quiet unparsed free
  | resumed _ _ _ _ _ _ _ quiet _ unparsed _ _ _ _ _ _ free writes => exact hl.opened writes quiet unparsed free
  | written p id _ _ parse _ _ parseFound _ _ _ lease writes =>
    have honly (q : Parser) (hq : q ≠ p) : (s.parseJobs q).lookup id = none := by
      cases hother : (s.parseJobs q).lookup id with
      | none => rfl
      | some parse'' => exact absurd (hone q p id parse'' parse hother parseFound) hq
    have htokens := hl.tokens p id parse parseFound
    have hquietly (hquiet : granted e = none) (lease : ParseLease) (hlease : granted e = some lease) :
        lease.jobId = id := by
      rw [hquiet] at hlease
      simp at hlease
    cases lease with
    | kept quiet lease token =>
      refine hl.written writes honly ?_ ?_ ?_ (hquietly quiet)
      · intro current hcurrent
        rw [grants_quiet quiet]
        exact hl.current p id parse current parseFound (lease ▸ hcurrent)
      · rw [claims_of_quiet quiet, token]
        exact htokens
      · rw [claims_of_quiet quiet]
        exact hl.rising id
    | released quiet lease token =>
      refine hl.written writes honly ?_ ?_ ?_ (hquietly quiet)
      · intro current hcurrent
        rw [lease] at hcurrent
        simp at hcurrent
      · rw [claims_of_quiet quiet, token]
        exact htokens
      · rw [claims_of_quiet quiet]
        exact hl.rising id
    | claimed _ grant owner held token =>
      have hgrant := claimed_granted grant
      refine hl.written writes honly ?_ ?_ ?_ ?_
      · intro current hcurrent
        rw [held] at hcurrent
        rw [grants_own hgrant owner, List.getLast?_append, ← hcurrent]
        simp
      · intro earlier hearlier
        rw [claims_own grant owner] at hearlier
        rw [token]
        rcases mem_append.mp hearlier with hold | hnew
        · have hle := htokens earlier hold
          omega
        · obtain rfl := mem_singleton.mp hnew
          exact le_refl _
      · rw [claims_own grant owner, map_append, pairwise_append]
        refine ⟨hl.rising id, by simp, ?_⟩
        intro earlier hearlier later hlater
        obtain ⟨old, hold, rfl⟩ := mem_map.mp hearlier
        obtain rfl := mem_singleton.mp hlater
        have hle := htokens old hold
        omega
      · intro lease' hlease'
        rw [hgrant] at hlease'
        exact some.inj hlease' ▸ owner
    | renewed _ grant unclaimed owner held token =>
      refine hl.written writes honly ?_ ?_ ?_ ?_
      · intro current hcurrent
        rw [held] at hcurrent
        rw [grants_own grant owner, List.getLast?_append, ← hcurrent]
        simp
      · rw [claims_quiet unclaimed, token]
        exact htokens
      · rw [claims_quiet unclaimed]
        exact hl.rising id
      · intro lease' hlease'
        rw [grant] at hlease'
        exact some.inj hlease' ▸ owner

end LeaseLedger

/-! ### Runs -/

theorem parseJobs_default (p : Parser) (id : Uuid) : (default.parseJobs p).lookup id = none := by
  cases p <;> rfl

theorem chained_default : Chained MemoryState.default where
  oneParser p q id parse parse' hparse := by
    rw [parseJobs_default] at hparse
    simp at hparse
  successor j a b ha := by
    obtain ⟨_, hjob, -⟩ := ha
    simp [MemoryState.default] at hjob
  links a b hab := by
    obtain ⟨_, hjob, -⟩ := hab
    simp [MemoryState.default] at hjob

theorem leaseLedger_default : LeaseLedger [] MemoryState.default where
  current p id parse lease hparse := by
    rw [parseJobs_default] at hparse
    simp at hparse
  tokens p id parse hparse := by
    rw [parseJobs_default] at hparse
    simp at hparse
  rising id := .nil
  unparsed id _ := rfl

theorem jobChange_reordered (h : s.Reordered s') : JobChange .reorder s s' := by
  have hrest := h.rest
  refine .same rfl (fun i => (h.jobs.lookup_eq i).symm) fun q => ?_
  cases q with
  | pdf => show s'.pdfJobs = s.pdfJobs; rw [hrest]
  | office => show s'.officeJobs = s.officeJobs; rw [hrest]

section

variable [Sha256] [CsvChunks] {profiles : ParserProfiles} {s s' : MemoryState}
  {h h' : List KnowledgeEvent} {e : KnowledgeEvent}

theorem jobChange_step (hs : StoreShape s) (hstep : (freshMachine profiles).step s e s') : JobChange e s s' := by
  rcases step_effect hs hstep with ⟨rfl, hreordered⟩ | ⟨call, r, rfl, hfresh, heffect⟩
  · exact jobChange_reordered hreordered
  · exact heffect.jobChange hs hfresh

/-- What holds of the leases after some history. -/
structure Leased (h : List KnowledgeEvent) (s : MemoryState) : Prop where
  shape : StoreShape s
  chained : Chained s
  ledger : LeaseLedger h s

theorem leased_step (hs : Leased h s) (hstep : (freshMachine profiles).step s e s') : Leased (h ++ [e]) s' where
  shape := storeShape_step hs.shape hstep
  chained := (jobChange_step hs.shape hstep).chained hs.chained
  ledger := hs.ledger.step hs.chained.oneParser (jobChange_step hs.shape hstep)

theorem leased_run (hrun : (freshMachine profiles).Run MemoryState.default h s) : Leased h s :=
  Machine.Run.history (fun _ _ _ _ hs hstep => leased_step hs hstep) hrun
    ⟨storeShape_default, chained_default, leaseLedger_default⟩

theorem evolved_run (hs : StoreShape s) (hrun : (freshMachine profiles).Run s h' s') : Evolved s s' :=
  Machine.Run.relates (fun _ _ _ => storeShape_step) Evolved.refl (fun _ _ _ => Evolved.trans)
    (fun _ _ _ hs hstep => (jobChange_step hs hstep).evolved) hrun hs

end

end MemoryKnowledgeRepository

open MemoryKnowledgeRepository

/-- Leases are fenced in all runs of a machine. -/
structure LeasesFenced (M : Machine MemoryState KnowledgeEvent) : Prop where
  /-- What is accepted was presented with the lease of the job that was granted last, before it ran
  out. -/
  latest : ∀ h s e s' lease now, M.Run MemoryState.default h s → M.step s e s' →
    presented e = some (lease, now) → ∃ current, (grants lease.jobId h).getLast? = some current ∧ current.leaseId
      = lease.leaseId ∧ current.fencingToken = lease.fencingToken ∧ now < current.expiresAt
  /-- The tokens of the leases that were claimed for a job rise. -/
  tokens : ∀ h s jobId, M.Run MemoryState.default h s → ((claims jobId h).map ParseLease.fencingToken).Pairwise (· < ·)
  /-- A recorded manifest and the units that have succeeded stay, in the document of the job and in those
  of all jobs that resume it, directly or not. -/
  recorded : ∀ h s h' s' p id id' parse, M.Run MemoryState.default h s → M.Run s h' s' →
    (s.parseJobs p).lookup id = some parse → Relation.ReflTransGen (Resumes s') id id' →
    ∃ parse', (s'.parseJobs p).lookup id' = some parse' ∧ parse.Grows parse'
  /-- A job that has ended stays as it is, and so does its document. -/
  ended : ∀ h s h' s' id job, M.Run MemoryState.default h s → M.Run s h' s' →
    s.jobs.lookup id = some job → job.status.isEnded = true → s'.jobs.lookup id = some job
      ∧ ∀ p parse, (s.parseJobs p).lookup id = some parse → (s'.parseJobs p).lookup id = some parse
  /-- One job at most resumes another. -/
  successor : ∀ h s j a b, M.Run MemoryState.default h s → Resumes s j a → Resumes s j b → a = b

theorem parseLeases_fenced [Sha256] [CsvChunks] (profiles : ParserProfiles) : LeasesFenced (freshMachine profiles) where
  latest h s e s' lease now hrun hstep hpresented := by
    have hs := leased_run hrun
    obtain ⟨_, hcall⟩ := hstep
    cases e with
    | reorder => simp [presented] at hpresented
    | call call r =>
      obtain ⟨p, _, _, parse, hchecked⟩ := (run_effect hs.shape hcall).checked hpresented
      obtain ⟨current, hcurrent, -, hlease, htoken, hclock⟩ := ParseState.holds_iff.mp hchecked.held
      exact ⟨current, hs.ledger.current p _ parse current hchecked.parseFound hcurrent, hlease, htoken, hclock⟩
  tokens h s jobId hrun := (leased_run hrun).ledger.rising jobId
  recorded h s h' s' p id id' parse hrun hrun' hparse hchain := by
    have hs := leased_run hrun
    obtain ⟨job, -, hjob, -⟩ := hs.shape.parses p id parse hparse
    obtain ⟨_, hparse', hgrows, -⟩ := (evolved_run hs.shape hrun').parses p id job parse hjob hparse
    obtain ⟨last, hlast, hgrows'⟩ := (leased_run (hrun.append hrun')).chained.grows hparse' hchain
    exact ⟨last, hlast, hgrows.trans hgrows'⟩
  ended h s h' s' id job hrun hrun' hjob hended := by
    have hevolved := evolved_run (leased_run hrun).shape hrun'
    obtain ⟨_, hjob', -, hsame⟩ := hevolved.jobs id job hjob
    refine ⟨hsame hended ▸ hjob', fun p parse hparse => ?_⟩
    obtain ⟨_, hparse', -, hkept⟩ := hevolved.parses p id job parse hjob hparse
    exact hkept hended ▸ hparse'
  successor h s j a b hrun := (leased_run hrun).chained.successor j a b

end GeoMaster
