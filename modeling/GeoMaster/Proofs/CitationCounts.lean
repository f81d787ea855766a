import GeoMaster.Domain.CitationInsights
import GeoMaster.Proofs.AnalysisSelection
import GeoMaster.Proofs.ReportAccounting

/-!
# Citation counts

The page of citation insights is read back from its answers: the targets of the plans, each with its view. What an
answer cites is one sample and a list of addresses. `Collected` says what the hosts hold once some answers are read:
for each host, and for each address of it, the samples of the answers that cite it, in the order of the answers. One
citation carries `Followed` from the addresses read of an answer to one more, and one answer carries `Collected`.
-/

namespace GeoMaster

open Except AssocMap List Option

namespace CitationCounts

/-! ### What an answer cites -/

/-- A target of a page, with its plan and its view. -/
structure Answer where
  plan : StandaloneMeasurementPlan
  target : ChannelTarget
  view : ChannelTargetView

def answersOf (plans : List (StandaloneMeasurementPlan × List ChannelTargetView)) : List Answer :=
  plans.flatMap fun entry => (entry.1.targets.zip entry.2).map fun pair => ⟨entry.1, pair.1, pair.2⟩

/-- An address with a web scheme, no credentials and this host. -/
def OnHost [UrlParser] (host url : String) : Prop :=
  ∃ parsed, UrlParser.parse url = some parsed ∧ (parsed.scheme = "http" ∨ parsed.scheme = "https")
    ∧ parsed.username = "" ∧ parsed.password = none ∧ parsed.host = some host

theorem citationHost_eq_some [UrlParser] {url host : String} : citationHost url = some host ↔ OnHost host url := by
  unfold citationHost OnHost
  cases hparse : UrlParser.parse url with
  | none => simp
  | some parsed =>
    show (if _ then parsed.host else none) = some host ↔ _
    constructor
    · intro h
      split at h
      · rename_i hweb
        exact ⟨parsed, rfl, hweb.1, hweb.2.1, hweb.2.2, h⟩
      · cases h
    · rintro ⟨_, hsame, hscheme, husername, hpassword, hhost⟩
      cases hsame
      rw [if_pos ⟨hscheme, husername, hpassword⟩]
      exact hhost

/-- The addresses on a host. -/
def onHost [UrlParser] (host : String) : String → Bool :=
  fun url => citationHost url = some host

/-- One address, on a host. -/
def isUrl [UrlParser] (host url : String) : String → Bool :=
  fun cited => cited = url ∧ citationHost cited = some host

section

variable [JsonText] [UrlParser] (analyses : List ObservationAnalysisRevision) (asOf : DateTime)
  (isTrustedSearch : ChannelTargetView → ChannelAttempt → Bool)

/-- The sample of an answer, and what it cites: nothing without an effective observation. -/
def Answer.reading (answer : Answer) : Option (CitationSample × List String) := do
  let attempt ← answer.view.attempts.getLast?
  let effective ← effectiveObservation answer.view analyses asOf isTrustedSearch
  match answer.target.input with
  | .measure measure => some (citationSample answer.plan answer.target measure attempt effective, effective.citations)
  | _ => none

/-- Some address that an answer cites passes a test. -/
def Answer.cites (test : String → Bool) (answer : Answer) : Bool :=
  (answer.reading analyses asOf isTrustedSearch).any fun reading => reading.2.any test

/-- The sample of an answer that cites an address which passes a test. -/
def Answer.sampleOf (test : String → Bool) (answer : Answer) : Option CitationSample :=
  (answer.reading analyses asOf isTrustedSearch).bind fun reading =>
    if reading.2.any test then some reading.1 else none

theorem Answer.isSome_sampleOf {test : String → Bool} {answer : Answer} :
    (answer.sampleOf analyses asOf isTrustedSearch test).isSome = answer.cites analyses asOf isTrustedSearch test := by
  unfold Answer.sampleOf Answer.cites
  cases answer.reading analyses asOf isTrustedSearch with
  | none => rfl
  | some reading =>
    show (if reading.2.any test = true then some reading.1 else none).isSome = reading.2.any test
    cases reading.2.any test with
    | true => rfl
    | false => rfl

/-- The samples of the answers that cite an address which passes a test, in their order. -/
def samplesOf (test : String → Bool) (answers : List Answer) : List CitationSample :=
  answers.filterMap (Answer.sampleOf analyses asOf isTrustedSearch test)

/-- One sample for each answer that cites such an address. -/
theorem length_samplesOf (test : String → Bool) (answers : List Answer) :
    (samplesOf analyses asOf isTrustedSearch test answers).length
      = answers.countP (Answer.cites analyses asOf isTrustedSearch test) := by
  rw [samplesOf, length_filterMap_eq_countP]
  exact countP_congr fun answer _ => by rw [Answer.isSome_sampleOf]

end

/-! ### What the hosts hold -/

def hostSamples (hosts : AssocMap String SourceAccumulator) (host : String) : List CitationSample :=
  ((hosts.lookup host).getD .default).samples

def urlSamples (hosts : AssocMap String SourceAccumulator) (host url : String) : List CitationSample :=
  (((hosts.lookup host).getD .default).urls.lookup url).getD []

/-- No host and no address is held without a sample. -/
structure Sampled (hosts : AssocMap String SourceAccumulator) : Prop where
  host : ∀ host source, hosts.lookup host = some source → source.samples ≠ []
  url : ∀ host source url samples, hosts.lookup host = some source →
    source.urls.lookup url = some samples → samples ≠ []

/-- The sample of an answer, once. -/
def once (sample : CitationSample) (cited : Bool) : List CitationSample :=
  if cited then [sample] else []

section

variable {sample : CitationSample} {read : List String} {test : String → Bool} {url : String}

theorem any_snoc_of_false (h : test url = false) : (read ++ [url]).any test = read.any test := by
  rw [any_append, any_cons, h]
  simp

/-- A test that an address does not add to leaves what is held as it is. -/
theorem any_snoc_of_mem (h : url ∈ read) : (read ++ [url]).any test = read.any test := by
  cases htest : test url with
  | false => exact any_snoc_of_false htest
  | true =>
    rw [any_eq_true.mpr ⟨url, h, htest⟩, any_append, any_eq_true.mpr ⟨url, h, htest⟩]
    rfl

theorem once_snoc_new (hread : read.any test = false) (h : test url = true) (held : List CitationSample) :
    held ++ once sample ((read ++ [url]).any test) = held ++ once sample (read.any test) ++ [sample] := by
  rw [any_append, any_cons, h, hread]
  simp [once]

end

theorem hostSamples_insert (hosts : AssocMap String SourceAccumulator) (host other : String)
    (source : SourceAccumulator) :
    hostSamples (hosts.insert host source) other
      = if other = host then source.samples else hostSamples hosts other := by
  unfold hostSamples
  rw [lookup_insert]
  by_cases h : other = host
  · rw [if_pos h, if_pos h]
    rfl
  · rw [if_neg h, if_neg h]

theorem urlSamples_insert (hosts : AssocMap String SourceAccumulator) (host other url : String)
    (source : SourceAccumulator) :
    urlSamples (hosts.insert host source) other url
      = if other = host then (source.urls.lookup url).getD [] else urlSamples hosts other url := by
  unfold urlSamples
  rw [lookup_insert]
  by_cases h : other = host
  · rw [if_pos h, if_pos h]
    rfl
  · rw [if_neg h, if_neg h]

@[simp]
theorem lookup_cite (source : SourceAccumulator) (sample : CitationSample) (newHost : Bool) (url address : String) :
    (source.cite sample newHost url).urls.lookup address
      = if address = url then some ((source.urls.lookup url).getD [] ++ [sample]) else source.urls.lookup address :=
  lookup_insert source.urls url address _

/-- The hosts once the addresses `read` of an answer are gone through, from the hosts before the answer. -/
structure Followed [UrlParser] (before : AssocMap String SourceAccumulator) (sample : CitationSample)
    (read : List String) (answer : AnswerAccumulator) : Prop where
  seenUrls : ∀ url, url ∈ answer.seenUrls ↔ url ∈ read
  seenHosts : ∀ host, host ∈ answer.seenHosts ↔ read.any (onHost host) = true
  ofHost : ∀ host, hostSamples answer.hosts host = hostSamples before host ++ once sample (read.any (onHost host))
  ofUrl : ∀ host url,
    urlSamples answer.hosts host url = urlSamples before host url ++ once sample (read.any (isUrl host url))
  sampled : Sampled answer.hosts

section

variable [UrlParser] {before : AssocMap String SourceAccumulator} {sample : CitationSample}
  {read : List String} {answer : AnswerAccumulator}

variable {url : String}

/-- An address that neither test counts changes what was seen at most. -/
theorem Followed.pass (h : Followed before sample read answer) {answer' : AnswerAccumulator}
    (hurls : ∀ other, other ∈ answer'.seenUrls ↔ other ∈ read ++ [url])
    (hseen : answer'.seenHosts = answer.seenHosts) (hhosts : answer'.hosts = answer.hosts)
    (hsame : ∀ test, (∃ host, test = onHost host ∨ ∃ other, test = isUrl host other) →
      (read ++ [url]).any test = read.any test) :
    Followed before sample (read ++ [url]) answer' where
  seenUrls := hurls
  seenHosts host := by
    rw [hseen, hsame _ ⟨host, .inl rfl⟩]
    exact h.seenHosts host
  ofHost host := by
    rw [hhosts, hsame _ ⟨host, .inl rfl⟩]
    exact h.ofHost host
  ofUrl host other := by
    rw [hhosts, hsame _ ⟨host, .inr ⟨other, rfl⟩⟩]
    exact h.ofUrl host other
  sampled := hhosts ▸ h.sampled

theorem onHost_eq_false (h : citationHost url = none) (host : String) : onHost host url = false := by
  simp [onHost, h]

theorem isUrl_eq_false (h : citationHost url = none) (host other : String) : isUrl host other url = false := by
  simp [isUrl, h]

/-- An address on a host that the answer has not cited before. -/
theorem Followed.visit (h : Followed before sample read answer) {host : String} (hnew : url ∉ read)
    (hhost : citationHost url = some host) :
    Followed before sample (read ++ [url])
      { answer with
        seenUrls := url :: answer.seenUrls
        seenHosts := host :: answer.seenHosts
        hosts := answer.hosts.insert host
          (((answer.hosts.lookup host).getD .default).cite sample (host ∉ answer.seenHosts) url) } := by
  have hon : ∀ other, onHost other url = decide (other = host) := by
    intro other
    simp [onHost, hhost, eq_comm]
  have hpage : ∀ other address, isUrl other address url = decide (url = address ∧ other = host) := by
    intro other address
    simp [isUrl, hhost, eq_comm]
  have hunread : read.any (isUrl host url) = false := by
    rw [List.any_eq_false]
    intro cited hcited
    have hother : cited ≠ url := fun hsame => hnew (hsame ▸ hcited)
    simp [isUrl, hother]
  -- What the host holds for its addresses, and for itself.
  have hsource : ((((answer.hosts.lookup host).getD .default).cite sample (host ∉ answer.seenHosts)
      url).samples) = hostSamples before host ++ once sample ((read ++ [url]).any (onHost host)) := by
    have hheld := h.ofHost host
    cases hseen : read.any (onHost host) with
    | true =>
      have hmem : host ∈ answer.seenHosts := (h.seenHosts host).mpr hseen
      rw [hseen] at hheld
      rw [any_append, hseen, Bool.true_or, ← hheld]
      simp [SourceAccumulator.cite, hmem, hostSamples]
    | false =>
      have hmem : host ∉ answer.seenHosts := fun hmem => by
        rw [(h.seenHosts host).mp hmem] at hseen
        cases hseen
      rw [once_snoc_new hseen (by rw [hon]; simp), ← hheld]
      simp [SourceAccumulator.cite, hmem, hostSamples]
  have hurl : ∀ address, (((((answer.hosts.lookup host).getD .default).cite sample
      (host ∉ answer.seenHosts) url).urls.lookup address).getD [])
        = urlSamples before host address ++ once sample ((read ++ [url]).any (isUrl host address)) := by
    intro address
    have hheld := h.ofUrl host address
    rw [lookup_cite]
    by_cases hsame : address = url
    · subst hsame
      rw [if_pos rfl, once_snoc_new hunread (by rw [hpage]; simp), ← hheld]
      rfl
    · rw [if_neg hsame, any_snoc_of_false (by rw [hpage]; simp [Ne.symm hsame]), ← hheld]
      rfl
  constructor
  case seenUrls =>
    intro other
    rw [mem_cons, h.seenUrls other, mem_append, mem_singleton, or_comm]
  case seenHosts =>
    intro other
    rw [mem_cons, h.seenHosts other, any_append, any_cons, hon other]
    simp [or_comm]
  case ofHost =>
    intro other
    rw [hostSamples_insert]
    by_cases hsame : other = host
    · rw [if_pos hsame, hsource, hsame]
    · rw [if_neg hsame, any_snoc_of_false (by rw [hon]; simp [hsame])]
      exact h.ofHost other
  case ofUrl =>
    intro other address
    rw [urlSamples_insert]
    by_cases hsame : other = host
    · rw [if_pos hsame, hurl, hsame]
    · rw [if_neg hsame, any_snoc_of_false (by rw [hpage]; simp [hsame])]
      exact h.ofUrl other address
  case sampled =>
    have hcited : (read ++ [url]).any (onHost host) = true := by
      rw [any_append, any_cons, hon]
      simp
    constructor
    · intro other source hlookup
      rw [lookup_insert] at hlookup
      split at hlookup
      · cases hlookup
        rw [hsource, hcited]
        simp [once]
      · exact h.sampled.host other source hlookup
    · intro other source address samples hlookup hsamples
      rw [lookup_insert] at hlookup
      split at hlookup
      · cases hlookup
        -- Another address of the host keeps its samples.
        rw [lookup_cite] at hsamples
        split at hsamples
        · cases hsamples
          simp
        · cases hheld : answer.hosts.lookup host with
          | none =>
            rw [hheld] at hsamples
            cases hsamples
          | some held =>
            rw [hheld] at hsamples
            exact h.sampled.url host held address samples hheld hsamples
      · exact h.sampled.url other source address samples hlookup hsamples

/-- One more address of the answer. -/
theorem Followed.step (h : Followed before sample read answer) (url : String) :
    Followed before sample (read ++ [url]) (addCitation sample answer url) := by
  unfold addCitation
  by_cases hseen : url ∈ answer.seenUrls
  · rw [if_pos hseen]
    have hread : url ∈ read := (h.seenUrls url).mp hseen
    refine h.pass ?_ rfl rfl fun test _ => any_snoc_of_mem hread
    intro other
    rw [h.seenUrls other, mem_append, mem_singleton]
    exact ⟨.inl, fun hother => hother.elim id fun hsame => hsame ▸ hread⟩
  · rw [if_neg hseen]
    cases hhost : citationHost url with
    | none =>
      refine h.pass ?_ rfl rfl ?_
      · intro other
        rw [mem_cons, h.seenUrls other, mem_append, mem_singleton, or_comm]
      · rintro test ⟨host, rfl | ⟨other, rfl⟩⟩
        · exact any_snoc_of_false (onHost_eq_false hhost host)
        · exact any_snoc_of_false (isUrl_eq_false hhost host other)
    | some host => exact h.visit (fun hread => hseen ((h.seenUrls url).mpr hread)) hhost

/-- Every address of the answer, from hosts that hold no empty entry. -/
theorem followed_foldl (hbefore : Sampled before) (citations : List String) (invalid : Nat) :
    Followed before sample citations
      (citations.foldl (addCitation sample)
        { seenUrls := [], seenHosts := [], invalidCitationUrls := invalid, hosts := before }) := by
  have hstart : Followed before sample []
      { seenUrls := [], seenHosts := [], invalidCitationUrls := invalid, hosts := before } :=
    { seenUrls := fun url => Iff.rfl
      seenHosts := fun host => by simp
      ofHost := fun host => (append_nil _).symm
      ofUrl := fun host url => (append_nil _).symm
      sampled := hbefore }
  -- By induction on the addresses, from what is read so far.
  have hrun : ∀ rest read answer, Followed before sample read answer →
      Followed before sample (read ++ rest) (rest.foldl (addCitation sample) answer) := by
    intro rest
    induction rest with
    | nil =>
      intro read answer h
      rw [append_nil]
      exact h
    | cons url _ ih =>
      intro read answer h
      have hnext := ih (read ++ [url]) (addCitation sample answer url) (h.step url)
      rw [append_assoc] at hnext
      exact hnext
  exact hrun citations [] _ hstart

end

/-! ### Answer by answer -/

/-- The outcomes that a coverage counts. -/
def accounted (coverage : CitationCoverage) : Nat :=
  coverage.pending + coverage.observedLive + coverage.observedUnverified + coverage.refused
    + coverage.missing + coverage.otherCompleted

theorem count_accounted (coverage : CitationCoverage) (outcome : ChannelOutcome) (trusted : Bool) :
    accounted (coverage.count outcome trusted) = accounted coverage + 1 := by
  unfold CitationCoverage.count accounted
  cases outcome.status <;> cases outcome.fixture <;> cases trusted <;> by_cases h : outcome.citations = [] <;>
    simp [h] <;> omega

theorem count_planned (coverage : CitationCoverage) (outcome : ChannelOutcome) (trusted : Bool) :
    (coverage.count outcome trusted).planned = coverage.planned := by
  unfold CitationCoverage.count
  cases outcome.status <;> cases outcome.fixture <;> cases trusted <;> by_cases h : outcome.citations = [] <;> simp [h]

section

variable [JsonText] [UrlParser] {analyses : List ObservationAnalysisRevision} {asOf : DateTime}
  {isTrustedSearch : ChannelTargetView → ChannelAttempt → Bool} {answers : List Answer}

theorem samplesOf_snoc (test : String → Bool) (answer : Answer) :
    samplesOf analyses asOf isTrustedSearch test (answers ++ [answer])
      = samplesOf analyses asOf isTrustedSearch test answers
        ++ (answer.sampleOf analyses asOf isTrustedSearch test).toList := by
  unfold samplesOf
  rw [filterMap_append]
  cases h : answer.sampleOf analyses asOf isTrustedSearch test with
  | none => simp [h]
  | some sample => simp [h]

/-- What the hosts hold once these answers are read. -/
structure Held (analyses : List ObservationAnalysisRevision) (asOf : DateTime)
    (isTrustedSearch : ChannelTargetView → ChannelAttempt → Bool) (answers : List Answer)
    (hosts : AssocMap String SourceAccumulator) : Prop where
  ofHost : ∀ host, hostSamples hosts host = samplesOf analyses asOf isTrustedSearch (onHost host) answers
  ofUrl : ∀ host url, urlSamples hosts host url = samplesOf analyses asOf isTrustedSearch (isUrl host url) answers
  sampled : Sampled hosts

variable {answer : Answer} {hosts : AssocMap String SourceAccumulator} {totals totals' : CitationTotals}
  {scope : TenantScope}

/-- An answer without an effective observation. -/
theorem Held.skip (h : Held analyses asOf isTrustedSearch answers hosts) (hnone : answer.reading analyses asOf isTrustedSearch = none) :
    Held analyses asOf isTrustedSearch (answers ++ [answer]) hosts := by
  have hsame : ∀ test, samplesOf analyses asOf isTrustedSearch test (answers ++ [answer])
      = samplesOf analyses asOf isTrustedSearch test answers := by
    intro test
    rw [samplesOf_snoc, Answer.sampleOf, hnone]
    exact append_nil _
  constructor
  · intro host
    rw [hsame]
    exact h.ofHost host
  · intro host url
    rw [hsame]
    exact h.ofUrl host url
  · exact h.sampled

/-- An answer with an effective observation. -/
theorem Held.read (h : Held analyses asOf isTrustedSearch answers hosts) {sample : CitationSample} {citations : List String} (invalid : Nat)
    (hsome : answer.reading analyses asOf isTrustedSearch = some (sample, citations)) :
    Held analyses asOf isTrustedSearch (answers ++ [answer])
      (citations.foldl (addCitation sample)
        { seenUrls := [], seenHosts := [], invalidCitationUrls := invalid, hosts := hosts }).hosts := by
  have hnext : ∀ test, samplesOf analyses asOf isTrustedSearch test (answers ++ [answer])
      = samplesOf analyses asOf isTrustedSearch test answers ++ once sample (citations.any test) := by
    intro test
    rw [samplesOf_snoc, Answer.sampleOf, hsome]
    show _ ++ (if citations.any test = true then some sample else none).toList = _
    cases citations.any test with
    | true => rfl
    | false => rfl
  have hfollowed := @followed_foldl _ _ sample h.sampled citations invalid
  constructor
  · intro host
    rw [hfollowed.ofHost, h.ofHost, hnext]
  · intro host url
    rw [hfollowed.ofUrl, h.ofUrl, hnext]
  · exact hfollowed.sampled

/-- The totals once these answers are read. -/
structure Collected (analyses : List ObservationAnalysisRevision) (asOf : DateTime)
    (isTrustedSearch : ChannelTargetView → ChannelAttempt → Bool) (answers : List Answer)
    (totals : CitationTotals) : Prop where
  held : Held analyses asOf isTrustedSearch answers totals.hosts
  planned : totals.coverage.planned = answers.length
  accounted : accounted totals.coverage = answers.length

/-- The answer of a target, added to totals that have counted its outcome. -/
theorem Collected.addAnswer {totals counted : CitationTotals} {answer : Answer} {attempt : ChannelAttempt}
    (h : Held analyses asOf isTrustedSearch answers totals.hosts) (hhosts : counted.hosts = totals.hosts)
    (hplanned : counted.coverage.planned = (answers ++ [answer]).length)
    (haccounted : CitationCounts.accounted counted.coverage = (answers ++ [answer]).length)
    (hlast : answer.view.attempts.getLast? = some attempt) {effective : EffectiveObservation}
    (heffective : effectiveObservation answer.view analyses asOf isTrustedSearch = some effective) :
    Collected analyses asOf isTrustedSearch (answers ++ [answer])
      (counted.addAnswer answer.plan answer.target attempt effective) := by
  -- A saved analysis is counted beside the outcome counters.
  have hcoverage : (counted.addAnswer answer.plan answer.target attempt effective).coverage.planned
        = counted.coverage.planned
      ∧ CitationCounts.accounted (counted.addAnswer answer.plan answer.target attempt effective).coverage
        = CitationCounts.accounted counted.coverage := by
    unfold CitationTotals.addAnswer
    cases effective.provenance <;> cases answer.target.input <;> exact ⟨rfl, rfl⟩
  refine ⟨?_, hcoverage.1.trans hplanned, hcoverage.2.trans haccounted⟩
  cases hinput : answer.target.input with
  | measure measure =>
    have hreading : answer.reading analyses asOf isTrustedSearch
        = some (citationSample answer.plan answer.target measure attempt effective, effective.citations) := by
      unfold Answer.reading
      rw [hlast, heffective, hinput]
      rfl
    have hread := h.read counted.invalidCitationUrls hreading
    rw [← hhosts] at hread
    have hfold : (counted.addAnswer answer.plan answer.target attempt effective).hosts
        = (effective.citations.foldl (addCitation (citationSample answer.plan answer.target measure attempt effective))
            { seenUrls := [], seenHosts := [], invalidCitationUrls := counted.invalidCitationUrls
              hosts := counted.hosts }).hosts := by
      unfold CitationTotals.addAnswer
      rw [hinput]
      cases effective.provenance <;> rfl
    rw [hfold]
    exact hread
  | publish _ | generatedPublish _ =>
    have hreading : answer.reading analyses asOf isTrustedSearch = none := by
      unfold Answer.reading
      rw [hlast, heffective, hinput]
      rfl
    have hsame : (counted.addAnswer answer.plan answer.target attempt effective).hosts = totals.hosts := by
      unfold CitationTotals.addAnswer
      rw [hinput, ← hhosts]
      cases effective.provenance <;> rfl
    rw [hsame]
    exact h.skip hreading

theorem Collected.addTarget {plan : StandaloneMeasurementPlan}
    {entry : ChannelTarget × ChannelTargetView} (h : Collected analyses asOf isTrustedSearch answers totals)
    (hadd : CitationTotals.addTarget analyses asOf isTrustedSearch plan totals entry = .ok totals') :
    Collected analyses asOf isTrustedSearch (answers ++ [⟨plan, entry.1, entry.2⟩]) totals' := by
  obtain ⟨target, view⟩ := entry
  unfold CitationTotals.addTarget at hadd
  rw [bind_eq_ok] at hadd
  obtain ⟨_, -, hadd⟩ := hadd
  -- A target that has no outcome yet is pending, and nothing is read from it.
  have hpending : Answer.reading analyses asOf isTrustedSearch ⟨plan, target, view⟩ = none →
      Collected analyses asOf isTrustedSearch (answers ++ [⟨plan, target, view⟩])
        { totals with
          coverage :=
            { totals.coverage with
              planned := totals.coverage.planned + 1
              pending := totals.coverage.pending + 1 } } := by
    intro hnone
    refine ⟨h.held.skip hnone, ?_, ?_⟩
    · rw [length_append]
      exact congrArg (· + 1) h.planned
    · have hcount := h.accounted
      unfold CitationCounts.accounted at hcount ⊢
      rw [length_append, length_singleton]
      dsimp only
      omega
  cases hlast : view.attempts.getLast? with
  | none =>
    rw [hlast] at hadd
    cases hadd
    refine hpending ?_
    unfold Answer.reading
    rw [hlast]
    rfl
  | some attempt =>
    rw [hlast] at hadd
    cases houtcome : attempt.outcome with
    | none =>
      simp only [houtcome] at hadd
      cases hadd
      refine hpending ?_
      simp [Answer.reading, effectiveObservation, hlast, houtcome]
    | some outcome =>
      simp only [houtcome] at hadd
      have hplanned : ({ totals.coverage with planned := totals.coverage.planned + 1 }.count outcome
          (isTrustedSearch view attempt)).planned = (answers ++ [(⟨plan, target, view⟩ : Answer)]).length := by
        rw [count_planned, length_append]
        exact congrArg (· + 1) h.planned
      have haccounted : CitationCounts.accounted ({ totals.coverage with
            planned := totals.coverage.planned + 1 }.count outcome (isTrustedSearch view attempt))
          = (answers ++ [(⟨plan, target, view⟩ : Answer)]).length := by
        rw [count_accounted, length_append]
        exact congrArg (· + 1) h.accounted
      cases heffective : effectiveObservation view analyses asOf isTrustedSearch with
      | none =>
        rw [heffective] at hadd
        cases hadd
        refine ⟨h.held.skip ?_, hplanned, haccounted⟩
        unfold Answer.reading
        rw [hlast, heffective]
        rfl
      | some effective =>
        rw [heffective] at hadd
        cases hadd
        refine @Collected.addAnswer _ _ _ _ _ _ totals _ ⟨plan, target, view⟩ _ h.held ?_ ?_ ?_ hlast _ heffective
        · rfl
        · exact hplanned
        · exact haccounted

theorem Collected.addPlan {entry : StandaloneMeasurementPlan × List ChannelTargetView}
    (h : Collected analyses asOf isTrustedSearch answers totals)
    (hadd : CitationTotals.addPlan analyses asOf isTrustedSearch scope totals entry = .ok totals') :
    Collected analyses asOf isTrustedSearch (answers ++ answersOf [entry]) totals' := by
  obtain ⟨plan, _⟩ := entry
  unfold CitationTotals.addPlan at hadd
  simp only [bind_eq_ok] at hadd
  obtain ⟨_, -, _, -, hfold⟩ := hadd
  have hrun := foldlM_invariant
    (fun read totals =>
      Collected analyses asOf isTrustedSearch
        (answers ++ read.map fun pair => (⟨plan, pair.1, pair.2⟩ : Answer)) totals)
    (by
      rw [map_nil, append_nil]
      exact ⟨h.held, h.planned, h.accounted⟩)
    (fun read pair s s' hread hstep => by
      have hnext := hread.addTarget hstep
      rw [append_assoc] at hnext
      rw [map_append]
      exact hnext)
    hfold
  rw [answersOf, flatMap_singleton]
  exact hrun

theorem collected_page {plans : List (StandaloneMeasurementPlan × List ChannelTargetView)}
    (h : plans.foldlM (CitationTotals.addPlan analyses asOf isTrustedSearch scope)
      { planIds := [], coverage := .default, invalidCitationUrls := 0, hosts := ∅ } = .ok totals) :
    Collected analyses asOf isTrustedSearch (answersOf plans) totals := by
  refine foldlM_invariant (fun read totals => Collected analyses asOf isTrustedSearch (answersOf read) totals) ?_ ?_ h
  · refine ⟨⟨fun host => rfl, fun host url => rfl, ⟨?_, ?_⟩⟩, rfl, rfl⟩
    · intro host source hlookup
      cases hlookup
    · intro host source url samples hlookup
      cases hlookup
  · intro read entry s s' hread hstep
    have hnext := hread.addPlan hstep
    rw [answersOf, flatMap_append]
    exact hnext

/-- What the effective observation of a fixture reads is a saved analysis of its attempt. -/
theorem fixture_reading {attempt : ChannelAttempt} {outcome : ChannelOutcome}
    {reading : CitationSample × List String} (hlast : answer.view.attempts.getLast? = some attempt)
    (houtcome : attempt.outcome = some outcome) (hfixture : outcome.fixture = true)
    (hreading : answer.reading analyses asOf isTrustedSearch = some reading) :
    ∃ revision ∈ analyses, revision.request.attemptId = attempt.attemptId
      ∧ (∃ result rawAnswer audit, revision.result = some result ∧ result.outcome = .grounded rawAnswer reading.2 audit)
      ∧ reading.1.analysis.map (·.revisionId) = some revision.request.revisionId := by
  unfold Answer.reading at hreading
  rw [hlast] at hreading
  cases heffective : effectiveObservation answer.view analyses asOf isTrustedSearch with
  | none =>
    rw [heffective] at hreading
    cases hreading
  | some effective =>
    rw [heffective] at hreading
    cases hinput : answer.target.input with
    | publish _ | generatedPublish _ =>
      rw [hinput] at hreading
      cases hreading
    | measure measure =>
      rw [hinput] at hreading
      cases hreading
      unfold effectiveObservation at heffective
      simp only [hlast, houtcome, bind_eq_bind, bind_some, bind_eq_some_iff] at heffective
      obtain ⟨receivedAt, -, heffective⟩ := heffective
      cases hview : answer.view.target.input with
      | publish _ | generatedPublish _ =>
        rw [hview] at heffective
        cases heffective
      | measure read =>
        simp only [hview] at heffective
        cases hselected : Selection.maxByKey ObservationAnalysisRevision.order
            (analyses.filter (interprets answer.view read attempt receivedAt asOf)) with
        | none =>
          -- Nothing is read from the outcome of a fixture.
          rw [hselected] at heffective
          simp [ofOutcome, hfixture] at heffective
        | some revision =>
          rw [hselected] at heffective
          have hmem := mem_filter.mp (Selection.maxByKey_mem hselected)
          have hattempt : revision.request.attemptId = attempt.attemptId := by
            have hinterprets := hmem.2
            simp only [interprets, Bool.and_eq_true, decide_eq_true_eq] at hinterprets
            exact hinterprets.1.1.1.1.2
          refine ⟨revision, hmem.1, hattempt, ?_⟩
          cases hresult : revision.result with
          | none => simp [ofInterpretation, hresult] at heffective
          | some result =>
            cases hgrounded : result.outcome with
            | grounded rawAnswer _ audit =>
              simp only [ofInterpretation, hresult, hgrounded, bind_eq_bind, bind_some, bind_eq_some_iff] at heffective
              obtain ⟨_, -, _, -, heffective⟩ := heffective
              cases heffective
              exact ⟨⟨result, rawAnswer, audit, rfl, hgrounded⟩, rfl⟩
            | _ => simp [ofInterpretation, hresult, hgrounded] at heffective

end

/-! ### The page -/

/-- The entries of a page are the entries of a map. -/
theorem mem_observedSources {hosts : AssocMap String SourceAccumulator} {source : ObservedSource} :
    source ∈ ((inKeyOrder hosts).map fun entry => entry.2.observed entry.1)
      ↔ ∃ host held, hosts.lookup host = some held ∧ source = held.observed host := by
  rw [List.mem_map]
  constructor
  · rintro ⟨⟨host, held⟩, hmem, rfl⟩
    exact ⟨host, held, mem_inKeyOrder.mp hmem, rfl⟩
  · rintro ⟨host, held, hlookup, rfl⟩
    exact ⟨(host, held), mem_inKeyOrder.mpr hlookup, rfl⟩

theorem mem_observedUrls {held : SourceAccumulator} {host : String} {observed : ObservedUrl} :
    observed ∈ (held.observed host).urls
      ↔ ∃ samples, held.urls.lookup observed.url = some samples
        ∧ observed = { url := observed.url, citingAnswers := samples.length, samples := samples } := by
  show observed ∈ (inKeyOrder held.urls).map _ ↔ _
  rw [List.mem_map]
  constructor
  · rintro ⟨⟨url, samples⟩, hmem, rfl⟩
    exact ⟨samples, mem_inKeyOrder.mp hmem, rfl⟩
  · rintro ⟨samples, hlookup, hsame⟩
    exact ⟨(observed.url, samples), mem_inKeyOrder.mpr hlookup, hsame.symm⟩

section

variable [JsonText] [UrlParser] {analyses : List ObservationAnalysisRevision} {asOf : DateTime}
  {isTrustedSearch : ChannelTargetView → ChannelAttempt → Bool} {answers : List Answer}

variable {host : String} {hosts : AssocMap String SourceAccumulator} {source : SourceAccumulator} {answer : Answer}
  {test test' : String → Bool} {sample : CitationSample}

theorem Held.samples_eq
    (h : Held analyses asOf isTrustedSearch answers hosts) (hlookup : hosts.lookup host = some source) :
    source.samples = samplesOf analyses asOf isTrustedSearch (onHost host) answers := by
  rw [← h.ofHost host, hostSamples, hlookup]
  rfl

theorem Held.urlSamples_eq (h : Held analyses asOf isTrustedSearch answers hosts)
    (hlookup : hosts.lookup host = some source) (url : String) :
    (source.urls.lookup url).getD [] = samplesOf analyses asOf isTrustedSearch (isUrl host url) answers := by
  rw [← h.ofUrl host url, urlSamples, hlookup]
  rfl

theorem cites_onHost :
    answer.cites analyses asOf isTrustedSearch (onHost host) = true
      ↔ ∃ reading, answer.reading analyses asOf isTrustedSearch = some reading
        ∧ ∃ url ∈ reading.2, OnHost host url := by
  unfold Answer.cites
  simp only [Option.any_eq_true, List.any_eq_true, onHost, decide_eq_true_eq, citationHost_eq_some]

theorem samplesOf_eq_nil :
    samplesOf analyses asOf isTrustedSearch test answers ≠ []
      ↔ ∃ answer ∈ answers, answer.cites analyses asOf isTrustedSearch test = true := by
  rw [← length_pos_iff, length_samplesOf, countP_pos_iff]

/-- An address on a host is on that host. -/
theorem sampleOf_mono (h : ∀ url, test url = true → test' url = true) (hsample : answer.sampleOf analyses asOf isTrustedSearch test = some sample) :
    answer.sampleOf analyses asOf isTrustedSearch test' = some sample := by
  unfold Answer.sampleOf at hsample ⊢
  cases hreading : answer.reading analyses asOf isTrustedSearch with
  | none =>
    rw [hreading] at hsample
    cases hsample
  | some reading =>
    rw [hreading] at hsample
    simp only [bind_some, ite_none_right_eq_some] at hsample ⊢
    obtain ⟨hany, hsame⟩ := hsample
    obtain ⟨url, hurl, htest⟩ := any_eq_true.mp hany
    exact ⟨any_eq_true.mpr ⟨url, hurl, h url htest⟩, hsame⟩

theorem samplesOf_sublist (h : ∀ url, test url = true → test' url = true) :
    (samplesOf analyses asOf isTrustedSearch test answers).Sublist
      (samplesOf analyses asOf isTrustedSearch test' answers) := by
  unfold samplesOf
  induction answers with
  | nil => exact List.Sublist.slnil
  | cons answer _ ih =>
    cases hsample : answer.sampleOf analyses asOf isTrustedSearch test with
    | some sample =>
      rw [filterMap_cons_some hsample, filterMap_cons_some (sampleOf_mono h hsample)]
      exact ih.cons_cons sample
    | none =>
      rw [filterMap_cons_none hsample]
      cases hsample' : answer.sampleOf analyses asOf isTrustedSearch test' with
      | some sample =>
        rw [filterMap_cons_some hsample']
        exact ih.cons sample
      | none =>
        rw [filterMap_cons_none hsample']
        exact ih

theorem exists_url_of_sample (h : sample ∈ samplesOf analyses asOf isTrustedSearch (onHost host) answers) :
    ∃ url, sample ∈ samplesOf analyses asOf isTrustedSearch (isUrl host url) answers := by
  obtain ⟨answer, hanswer, hsample⟩ := mem_filterMap.mp h
  unfold Answer.sampleOf at hsample
  cases hreading : answer.reading analyses asOf isTrustedSearch with
  | none =>
    rw [hreading] at hsample
    cases hsample
  | some reading =>
    rw [hreading] at hsample
    simp only [bind_some, ite_none_right_eq_some] at hsample
    obtain ⟨hany, hsame⟩ := hsample
    obtain ⟨url, hurl, htest⟩ := any_eq_true.mp hany
    refine ⟨url, mem_filterMap.mpr ⟨answer, hanswer, ?_⟩⟩
    have hcited : reading.2.any (isUrl host url) = true := by
      rw [List.any_eq_true]
      refine ⟨url, hurl, ?_⟩
      simpa [onHost, isUrl] using htest
    rw [Answer.sampleOf, hreading, bind_some, if_pos hcited]
    exact hsame

/-- A source of the page against the answers: each that cites the host is counted once, and so it is for each
address on the host. -/
structure CountsAnswers (analyses : List ObservationAnalysisRevision) (asOf : DateTime)
    (isTrustedSearch : ChannelTargetView → ChannelAttempt → Bool) (answers : List Answer)
    (source : ObservedSource) : Prop where
  citingAnswers :
    source.citingAnswers = answers.countP (Answer.cites analyses asOf isTrustedSearch (onHost source.host))
  samples : source.samples = samplesOf analyses asOf isTrustedSearch (onHost source.host) answers
  urlsOnce : (source.urls.map (·.url)).Nodup
  urlListed : ∀ url, (∃ observed ∈ source.urls, observed.url = url)
    ↔ ∃ answer ∈ answers, answer.cites analyses asOf isTrustedSearch (isUrl source.host url) = true
  urlCitingAnswers : ∀ observed ∈ source.urls, observed.citingAnswers
    = answers.countP (Answer.cites analyses asOf isTrustedSearch (isUrl source.host observed.url))
  urlSamples : ∀ observed ∈ source.urls, observed.samples.Sublist source.samples
  urlCovered : ∀ sample ∈ source.samples, ∃ observed ∈ source.urls, sample ∈ observed.samples

theorem Held.counts {held : SourceAccumulator}
    (h : Held analyses asOf isTrustedSearch answers hosts) (hlookup : hosts.lookup host = some held) :
    CountsAnswers analyses asOf isTrustedSearch answers (held.observed host) := by
  have hsamples := h.samples_eq hlookup
  have hurls := h.urlSamples_eq hlookup
  -- An address has samples exactly when it has an entry.
  have hlisted : ∀ url, (∃ samples, held.urls.lookup url = some samples)
      ↔ samplesOf analyses asOf isTrustedSearch (isUrl host url) answers ≠ [] := by
    intro url
    rw [← hurls url]
    cases hurl : held.urls.lookup url with
    | none => simp
    | some samples =>
      have hne := h.sampled.url host held url samples hlookup hurl
      simp [hne]
  have hobserved : ∀ observed ∈ (held.observed host).urls,
      observed.samples = samplesOf analyses asOf isTrustedSearch (isUrl host observed.url) answers
        ∧ observed.citingAnswers = observed.samples.length := by
    intro observed hmem
    obtain ⟨_, hurl, hsame⟩ := mem_observedUrls.mp hmem
    rw [hsame]
    refine ⟨?_, rfl⟩
    rw [← hurls observed.url, hurl]
    rfl
  have hentry : ∀ url, samplesOf analyses asOf isTrustedSearch (isUrl host url) answers ≠ [] →
      ∃ observed ∈ (held.observed host).urls, observed.url = url := by
    intro url hne
    obtain ⟨samples, hurl⟩ := (hlisted url).mpr hne
    exact ⟨⟨url, samples.length, samples⟩, mem_observedUrls.mpr ⟨samples, hurl, rfl⟩, rfl⟩
  constructor
  case citingAnswers =>
    show held.samples.length = _
    rw [hsamples, length_samplesOf]
    rfl
  case samples => exact hsamples
  case urlsOnce =>
    show (((inKeyOrder held.urls).map _).map _).Nodup
    rw [List.map_map]
    exact inKeyOrder_keys_nodup held.urls
  case urlListed =>
    intro url
    rw [← samplesOf_eq_nil]
    constructor
    · rintro ⟨observed, hmem, rfl⟩
      obtain ⟨samples, hurl, -⟩ := mem_observedUrls.mp hmem
      exact (hlisted observed.url).mp ⟨samples, hurl⟩
    · exact hentry url
  case urlCitingAnswers =>
    intro observed hmem
    rw [(hobserved observed hmem).2, (hobserved observed hmem).1, length_samplesOf]
    rfl
  case urlSamples =>
    intro observed hmem
    show observed.samples.Sublist held.samples
    rw [(hobserved observed hmem).1, hsamples]
    refine samplesOf_sublist fun url hurl => ?_
    simp only [isUrl, decide_eq_true_eq] at hurl
    simp [onHost, hurl.2]
  case urlCovered =>
    intro sample hsample
    change sample ∈ held.samples at hsample
    rw [hsamples] at hsample
    obtain ⟨url, hurl⟩ := exists_url_of_sample hsample
    obtain ⟨observed, hmem, hsame⟩ := hentry url (ne_nil_of_mem hurl)
    refine ⟨observed, hmem, ?_⟩
    rw [(hobserved observed hmem).1, hsame]
    exact hurl

/-- A page that is summarized accounts for every target once, lists the hosts that some answer cites, and counts for
each host and each address the answers that cite it. The answer of a fixture is a saved analysis of its attempt. -/
theorem citationCounts_distinct {scope : TenantScope}
    {plans : List (StandaloneMeasurementPlan × List ChannelTargetView)} {nextAfter : Option Uuid}
    {page : CitationInsightPage}
    (h : summarizeCitationsWithAnalyses analyses asOf isTrustedSearch scope plans nextAfter = .ok page) :
    page.coverage.planned = (answersOf plans).length
      ∧ page.coverage.pending + page.coverage.observedLive + page.coverage.observedUnverified
          + page.coverage.refused + page.coverage.missing + page.coverage.otherCompleted = page.coverage.planned
      ∧ (page.observedSources.map (·.host)).Nodup
      ∧ (∀ host, (∃ source ∈ page.observedSources, source.host = host)
          ↔ ∃ answer ∈ answersOf plans, ∃ reading, answer.reading analyses asOf isTrustedSearch = some reading
            ∧ ∃ url ∈ reading.2, OnHost host url)
      ∧ (∀ source ∈ page.observedSources, CountsAnswers analyses asOf isTrustedSearch (answersOf plans) source)
      ∧ ∀ answer ∈ answersOf plans, ∀ attempt outcome reading,
          answer.view.attempts.getLast? = some attempt → attempt.outcome = some outcome →
          outcome.fixture = true → answer.reading analyses asOf isTrustedSearch = some reading →
          ∃ revision ∈ analyses, revision.request.attemptId = attempt.attemptId
            ∧ (∃ result rawAnswer audit, revision.result = some result
              ∧ result.outcome = .grounded rawAnswer reading.2 audit)
            ∧ reading.1.analysis.map (·.revisionId) = some revision.request.revisionId := by
  unfold summarizeCitationsWithAnalyses at h
  rw [bind_eq_ok] at h
  obtain ⟨totals, hrun, hpage⟩ := h
  rw [pure_eq_ok] at hpage
  subst hpage
  have hcollected := collected_page hrun
  refine ⟨hcollected.planned, hcollected.accounted.trans hcollected.planned.symm, ?_, ?_, ?_, ?_⟩
  · show (((inKeyOrder totals.hosts).map _).map _).Nodup
    rw [List.map_map]
    exact inKeyOrder_keys_nodup totals.hosts
  · intro host
    simp only [← cites_onHost]
    rw [← samplesOf_eq_nil, ← hcollected.held.ofHost host, hostSamples]
    constructor
    · rintro ⟨_, hmem, rfl⟩
      obtain ⟨host, held, hlookup, rfl⟩ := mem_observedSources.mp hmem
      change ((totals.hosts.lookup host).getD _).samples ≠ []
      rw [hlookup]
      exact hcollected.held.sampled.host host held hlookup
    · intro hne
      cases hlookup : totals.hosts.lookup host with
      | none =>
        rw [hlookup] at hne
        exact absurd rfl hne
      | some held => exact ⟨held.observed host, mem_observedSources.mpr ⟨host, held, hlookup, rfl⟩, rfl⟩
  · intro source hmem
    obtain ⟨_, held, hlookup, rfl⟩ := mem_observedSources.mp hmem
    exact hcollected.held.counts hlookup
  · intro answer _ attempt outcome reading hlast houtcome hfixture hreading
    exact fixture_reading hlast houtcome hfixture hreading

end

/-! ### A sample page -/

/-- Two addresses on one host. -/
@[reducible] def twoAddresses : UrlParser where
  parse raw :=
    if raw = "https://a.example/x" ∨ raw = "https://a.example/y" then
      some
        { scheme := "https", host := some "a.example", username := "", password := none
          path := String.ofList (raw.toList.drop 17) }
    else none
  join _ _ := none

attribute [local instance] Sample.nullText twoAddresses

open Sample in
def citedView : ChannelTargetView where
  target := searchView.target
  attempts :=
    [{ attemptId := uuid 7, targetId := uuid 6, claimedAt := 0
       outcome := some
         { status := .observed, detail := none, occurredAt := 1, rawAnswer := some "Answer"
           citations := ["https://a.example/x", "nowhere", "https://a.example/y", "https://a.example/x"]
           publicUrl := none, screenshotRef := none, connectorVersion := none, runnerEvidence := []
           fixture := false }
       receivedAt := some 2 }]

open Sample in
def citedPlan : StandaloneMeasurementPlan where
  planId := uuid 8
  projectId := ⟨uuid 3⟩
  title := "Plan"
  inputHash := "hash"
  revision := 1
  createdAt := 0
  targets := [searchView.target]

open Sample in
def citedSample : CitationSample where
  planId := uuid 8
  targetId := uuid 6
  attemptId := uuid 7
  provider := "provider"
  model := "model"
  surface := "consumer_web"
  searchMode := "web_search"
  market := "global"
  language := "en"
  questionSetVersion := "adhoc"
  questionPurpose := none
  scheduledAt := 0
  observedAt := 1
  receivedAt := 2
  analysis := none

/-- The answer repeats an address, and cites what is no address. -/
def citedPage : CitationInsightPage where
  scope := "returned_plans_only"
  planIds := [Sample.uuid 8]
  nextAfter := none
  coverage := { CitationCoverage.default with planned := 1, observedLive := 1 }
  invalidCitationUrls := 1
  observedSources :=
    [{ host := "a.example", citingAnswers := 1, samples := [citedSample]
       urls :=
         [{ url := "https://a.example/x", citingAnswers := 1, samples := [citedSample] },
          { url := "https://a.example/y", citingAnswers := 1, samples := [citedSample] }] }]

theorem summarize_cited :
    summarizeCitationsWithAnalyses [] 100 (fun _ _ => true) Sample.scope [(citedPlan, [citedView])] none
      = .ok citedPage := by
  decide +kernel

theorem citationCounts_distinct_sample :
    citedPage.coverage.planned = 1
      ∧ ∀ source ∈ citedPage.observedSources,
        CountsAnswers [] 100 (fun _ _ => true) (answersOf [(citedPlan, [citedView])]) source := by
  have hcounts := citationCounts_distinct summarize_cited
  exact ⟨hcounts.1, hcounts.2.2.2.2.1⟩

end CitationCounts

end GeoMaster
