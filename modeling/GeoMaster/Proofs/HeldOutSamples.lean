import GeoMaster.Domain.SourceChannels
import GeoMaster.Proofs.ReportOrder

/-!
# What an optimizer sees of the citations

Both readers of a page get what its shown citations come to, and nothing else: `Grouped` says that every group holds
the view of its channel, which is a fold over the shown citations alone. A group may have been opened by a citation that
is not shown, and then keeps the rule of that citation, but the rules of one channel only differ in what a
recommendation does not read. Two pages that show an optimizer the same citations are therefore recommended alike, down
to the questions the lookup is asked.
-/

namespace GeoMaster

open AssocMap List Option

/-! ### Shown citations -/

/-- One sample that cites one address. -/
structure Citation where
  rule : Option SourceChannelRule
  host : String
  sample : CitationSample

namespace Citation

def channel (citation : Citation) : ChannelKey :=
  channelKey citation.rule citation.host

end Citation

section

variable [UrlParser]

def ObservedUrl.citations (audience : RecommendationAudience) (host : String) (url : ObservedUrl) : List Citation :=
  (url.samples.filter audience.shows).map fun sample => { rule := ruleForUrl url.url, host, sample }

def ObservedSource.citations (audience : RecommendationAudience) (source : ObservedSource) : List Citation :=
  source.urls.flatMap fun url => url.citations audience source.host

/-- The citations of a page that a reader is shown. -/
def shownCitations (audience : RecommendationAudience) (sources : List ObservedSource) : List Citation :=
  sources.flatMap fun source => source.citations audience

end

/-! ### Views of a channel -/

/-- What a channel holds of the citations so far, without the rule it was opened with. -/
def channelView (key : ChannelKey) (citations : List Citation) : SourceGroup :=
  (citations.filter fun citation => citation.channel = key).foldl
    (fun group citation => group.record citation.rule citation.host citation.sample)
    { rule := none, hosts := [], ruleIds := [], samples := ∅ }

def planView (citations : List Citation) : List Uuid :=
  citations.foldl (fun plans citation => insertOnce citation.sample.planId plans) []

theorem channelView_append (key : ChannelKey) (citations : List Citation) (citation : Citation) :
    channelView key (citations ++ [citation])
      = if citation.channel = key then
          (channelView key citations).record citation.rule citation.host citation.sample
        else channelView key citations := by
  unfold channelView
  rw [filter_append, foldl_append]
  by_cases hkey : citation.channel = key <;> simp [hkey]

theorem planView_append (citations : List Citation) (citation : Citation) :
    planView (citations ++ [citation]) = insertOnce citation.sample.planId (planView citations) := by
  unfold planView
  rw [foldl_append]
  rfl

/-- The rules of a channel, or the lack of one. -/
def SourceGroup.FitsChannel (key : ChannelKey) (group : SourceGroup) : Prop :=
  match group.rule with
  | none => key.1 = "unmapped"
  | some rule => rule ∈ sourceChannelRules ∧ key = (rule.platformId, rule.placementSlot)

/-- The groups are what the citations shown so far come to. -/
structure Grouped (citations : List Citation) (state : SourceGroups) : Prop where
  plans : state.safePlans = planView citations
  view : ∀ key group, state.groups.lookup key = some group → { group with rule := none } = channelView key citations
  fits : ∀ key group, state.groups.lookup key = some group → group.FitsChannel key
  absent : ∀ key, state.groups.lookup key = none → ∀ citation ∈ citations, citation.channel ≠ key

namespace Grouped

theorem start : Grouped [] { groups := ∅, safePlans := [] } where
  plans := rfl
  view key group h := by simp at h
  fits key group h := by simp at h
  absent key _ citation h := by simp at h

theorem absent_view {citations : List Citation} {key : ChannelKey}
    (h : ∀ citation ∈ citations, citation.channel ≠ key) :
    channelView key citations = { rule := none, hosts := [], ruleIds := [], samples := ∅ } := by
  unfold channelView
  rw [filter_eq_nil_iff.mpr fun citation hmem => by simpa using h citation hmem]
  rfl

variable {state : SourceGroups} {rule : Option SourceChannelRule}

theorem opened {citations : List Citation} (h : Grouped citations state) (hrule : ∀ r ∈ rule, r ∈ sourceChannelRules) (host : String) :
    Grouped citations
      { state with
        groups :=
          insertNew (channelKey rule host) { rule, hosts := [], ruleIds := [], samples := ∅ } state.groups } where
  plans := h.plans
  view key group hlook := by
    rw [lookup_insertNew] at hlook
    split at hlook
    case isFalse => exact h.view key group hlook
    case isTrue hkey =>
      subst hkey
      cases hold : state.groups.lookup (channelKey rule host) with
      | some old =>
        rw [hold, getD_some] at hlook
        exact h.view _ _ (hold.trans hlook)
      | none =>
        rw [hold, getD_none] at hlook
        cases hlook
        exact (absent_view (h.absent _ hold)).symm
  fits key group hlook := by
    rw [lookup_insertNew] at hlook
    split at hlook
    case isFalse => exact h.fits key group hlook
    case isTrue hkey =>
      subst hkey
      cases hold : state.groups.lookup (channelKey rule host) with
      | some old =>
        rw [hold, getD_some] at hlook
        exact h.fits _ _ (hold.trans hlook)
      | none =>
        rw [hold, getD_none] at hlook
        cases hlook
        cases rule with
        | none => rfl
        | some r => exact ⟨hrule r rfl, rfl⟩
  absent key hlook := by
    rw [lookup_insertNew] at hlook
    split at hlook
    case isFalse => exact h.absent key hlook
    case isTrue => cases hlook

/-- A sample that is shown becomes a citation of its group. -/
theorem recorded {citations : List Citation} (h : Grouped citations state)
    (citation : Citation) (hopen : (state.groups.lookup citation.channel).isSome) :
    Grouped (citations ++ [citation])
      { safePlans := insertOnce citation.sample.planId state.safePlans
        groups :=
          modify citation.channel (SourceGroup.record citation.rule citation.host citation.sample) state.groups } where
  plans := by rw [planView_append, h.plans]
  view key group hlook := by
    rw [lookup_modify] at hlook
    rw [channelView_append]
    by_cases hkey : key = citation.channel
    · rw [if_pos hkey] at hlook
      obtain ⟨old, hold, rfl⟩ := map_eq_some_iff.mp hlook
      rw [if_pos hkey.symm, ← h.view key old hold]
      rfl
    · rw [if_neg hkey] at hlook
      rw [if_neg (Ne.symm hkey)]
      exact h.view key group hlook
  fits key group hlook := by
    rw [lookup_modify] at hlook
    by_cases hkey : key = citation.channel
    · rw [if_pos hkey] at hlook
      obtain ⟨old, hold, rfl⟩ := map_eq_some_iff.mp hlook
      exact h.fits key old hold
    · rw [if_neg hkey] at hlook
      exact h.fits key group hlook
  absent key hlook := by
    rw [lookup_modify] at hlook
    by_cases hkey : key = citation.channel
    · rw [if_pos hkey, hkey, map_eq_none_iff] at hlook
      rw [hlook] at hopen
      cases hopen
    · rw [if_neg hkey] at hlook
      intro other hmem
      rcases mem_append.mp hmem with hold | hnew
      · exact h.absent key hlook other hold
      · rw [mem_singleton.mp hnew]
        exact Ne.symm hkey

theorem samples {audience : RecommendationAudience} {host : String}
    {citations : List Citation} (h : Grouped citations state)
    (hopen : (state.groups.lookup (channelKey rule host)).isSome) (list : List CitationSample) :
    Grouped (citations ++ (list.filter audience.shows).map fun sample => ({ rule, host, sample } : Citation))
      (list.foldl (groupSample audience rule host) state) := by
  induction list generalizing citations state with
  | nil => simpa using h
  | cons sample _ ih =>
    rw [foldl_cons, groupSample]
    cases hshows : audience.shows sample with
    | false =>
      rw [List.filter_cons_of_neg (by simp [hshows]), if_neg Bool.false_ne_true]
      exact ih h hopen
    | true =>
      rw [filter_cons_of_pos hshows, map_cons, if_pos rfl, append_cons]
      have hrecorded := h.recorded { rule, host, sample } hopen
      refine ih hrecorded ?_
      rw [lookup_modify]
      split
      · rw [isSome_map]
        exact hopen
      · exact hopen

section

variable [UrlParser]

theorem ruleForUrl_mem {url : String} : ∀ rule ∈ ruleForUrl url, rule ∈ sourceChannelRules := by
  intro rule h
  obtain ⟨_, -, hfind⟩ := bind_eq_some_iff.mp h
  exact mem_of_find?_eq_some hfind

variable {state : SourceGroups} {audience : RecommendationAudience}

theorem url {host : String} {citations : List Citation} (h : Grouped citations state) (url : ObservedUrl) :
    Grouped (citations ++ url.citations audience host) (groupUrl audience host state url) := by
  refine (h.opened ruleForUrl_mem host).samples ?_ url.samples
  rw [lookup_insertNew, if_pos rfl]
  rfl

theorem source {host : String} {citations : List Citation} (h : Grouped citations state) (urls : List ObservedUrl) :
    Grouped (citations ++ urls.flatMap fun url => url.citations audience host)
      (urls.foldl (groupUrl audience host) state) := by
  induction urls generalizing citations state with
  | nil => simpa using h
  | cons first _ ih =>
    rw [foldl_cons, flatMap_cons, ← append_assoc]
    exact ih (h.url first)

theorem page (audience : RecommendationAudience) (sources : List ObservedSource) :
    Grouped (shownCitations audience sources) (groupSources audience sources) := by
  have hfold : ∀ (sources : List ObservedSource) {citations : List Citation} {state : SourceGroups},
      Grouped citations state →
        Grouped (citations ++ sources.flatMap fun source => source.citations audience)
          (sources.foldl (fun state source => source.urls.foldl (groupUrl audience source.host) state) state) := by
    intro sources
    induction sources with
    | nil => intro citations state h; simpa using h
    | cons first _ ih =>
      intro citations state h
      rw [foldl_cons, flatMap_cons, ← append_assoc]
      exact ih (h.source first.urls)
  exact hfold sources start

end

end Grouped

/-! ### What a channel shows -/

/-- Storing a value unless there is one adds the key. -/
theorem insertNew_isSome {κ ν : Type} [DecidableEq κ] (map : AssocMap κ ν) (k k' : κ) (v : ν) :
    ((insertNew k v map).lookup k').isSome ↔ k' = k ∨ (map.lookup k').isSome := by
  rw [lookup_insertNew]
  by_cases hkey : k' = k <;> simp [hkey]

theorem channelView_isSome (key : ChannelKey) (citations : List Citation) (id : SampleKey) :
    ((channelView key citations).samples.lookup id).isSome
      ↔ ∃ citation ∈ citations, citation.channel = key ∧ citation.sample.key = id := by
  induction citations using List.reverseRecOn with
  | nil => simp [channelView]
  | append_singleton _ citation ih =>
    rw [channelView_append]
    simp only [mem_append, mem_singleton, or_and_right, exists_or, exists_eq_left]
    by_cases hkey : citation.channel = key
    · rw [if_pos hkey, ← ih]
      refine (insertNew_isSome _ _ _ _).trans ?_
      constructor
      · rintro (rfl | hold)
        · exact .inr ⟨hkey, rfl⟩
        · exact .inl hold
      · rintro (hold | ⟨-, rfl⟩)
        · exact .inr hold
        · exact .inl rfl
    · rw [if_neg hkey, ih]
      simp [hkey]

/-- The answers that cite an address of a channel, each once. -/
def answersOf (key : ChannelKey) (citations : List Citation) : List SampleKey :=
  ((citations.filter fun citation => citation.channel = key).map fun citation => citation.sample.key).dedup

variable {key : ChannelKey}

theorem mem_answersOf {citations : List Citation} {id : SampleKey} :
    id ∈ answersOf key citations ↔ ∃ citation ∈ citations, citation.channel = key ∧ citation.sample.key = id := by
  simp [answersOf, and_assoc]

theorem channelView_length (key : ChannelKey) (citations : List Citation) :
    (channelView key citations).samples.entries.length = (answersOf key citations).length := by
  have hnodup : (answersOf key citations).Nodup := nodup_dedup _
  have hperm : (channelView key citations).samples.keys.Perm (answersOf key citations) := by
    refine (perm_ext_iff_of_nodup (channelView key citations).samples.keys_nodup hnodup).mpr ?_
    intro id
    rw [mem_answersOf, ← channelView_isSome, AList.lookup_isSome, AList.mem_keys]
  rw [← hperm.length_eq, AList.keys, List.keys, length_map]

theorem channelView_isEmpty (key : ChannelKey) (citations : List Citation) :
    (channelView key citations).samples.entries.isEmpty = true ↔ ∀ citation ∈ citations, citation.channel ≠ key := by
  rw [isEmpty_iff_length_eq_zero, channelView_length, length_eq_zero_iff, eq_nil_iff_forall_not_mem]
  constructor
  · intro h citation hmem hkey
    exact h _ (mem_answersOf.mpr ⟨citation, hmem, hkey, rfl⟩)
  · intro h id hmem
    obtain ⟨citation, hcitation, hkey, -⟩ := mem_answersOf.mp hmem
    exact h citation hcitation hkey

/-! ### The rule of a channel -/

/-- The first rule of a channel. -/
def canonicalRule (key : ChannelKey) : Option SourceChannelRule :=
  sourceChannelRules.find? fun rule => key = (rule.platformId, rule.placementSlot)

theorem canonicalRule_of_mem : ∀ rule ∈ sourceChannelRules, (canonicalRule (rule.platformId, rule.placementSlot)).map
        (fun first => (first.platformId, first.placementSlot, first.hostRelationship))
      = some (rule.platformId, rule.placementSlot, rule.hostRelationship) := by
  decide

theorem canonicalRule_unmapped (h : key.1 = "unmapped") : canonicalRule key = none := by
  have hnames : ∀ rule ∈ sourceChannelRules, rule.platformId ≠ "unmapped" := by decide
  refine List.find?_eq_none.mpr ?_
  intro rule hmem
  rw [decide_eq_true_iff]
  rintro rfl
  exact hnames rule hmem h

/-- What is shown of a channel, with the first of its rules. -/
def shownGroup (citations : List Citation) (key : ChannelKey) : SourceGroup :=
  { channelView key citations with rule := canonicalRule key }

section Recommend

variable {σ : Type} (distribution : DistributionScope) (audience : RecommendationAudience)
  (publication : String → String → StateM σ ChannelPublicationStatus)

/-- A recommendation does not show which rule of its channel opened the group. -/
theorem recommendGroup_canonical {key : ChannelKey} {group : SourceGroup} (h : group.FitsChannel key) :
    recommendGroup distribution audience publication group
      = recommendGroup distribution audience publication { group with rule := canonicalRule key } := by
  obtain ⟨rule, _, _, _⟩ := group
  cases rule with
  | none =>
    have hnone : canonicalRule key = none := canonicalRule_unmapped h
    rw [hnone]
  | some rule =>
    obtain ⟨hmem, rfl⟩ := h
    obtain ⟨_, hfirst, hsame⟩ := map_eq_some_iff.mp (canonicalRule_of_mem rule hmem)
    simp only [Prod.mk.injEq] at hsame
    obtain ⟨hplatform, hslot, hrelationship⟩ := hsame
    simp only [recommendGroup, hfirst, SourceGroup.recommendation, map_some, elim_some,
      any_some, hplatform, hslot, hrelationship]

theorem recommendGroups_filter (groups : List SourceGroup) :
    recommendGroups distribution audience publication groups
      = recommendGroups distribution audience publication
          (groups.filter fun group => !group.samples.entries.isEmpty) := by
  induction groups with
  | nil => rfl
  | cons group _ ih =>
    cases hempty : group.samples.entries.isEmpty with
    | true =>
      rw [List.filter_cons_of_neg (by simp [hempty]), recommendGroups, recommendGroup, if_pos hempty, pure_bind, ← ih]
      exact bind_pure _
    | false =>
      rw [filter_cons_of_pos (by simp [hempty]), recommendGroups, recommendGroups, ih]

theorem recommendGroups_congr {ι : Type} {f g : ι → SourceGroup} {l : List ι}
    (h : ∀ i ∈ l, recommendGroup distribution audience publication (f i)
      = recommendGroup distribution audience publication (g i)) :
    recommendGroups distribution audience publication (l.map f)
      = recommendGroups distribution audience publication (l.map g) := by
  induction l with
  | nil => rfl
  | cons i _ ih =>
    rw [map_cons, map_cons, recommendGroups, recommendGroups, h i mem_cons_self,
      ih fun j hj => h j (mem_cons_of_mem i hj)]

end Recommend

/-! ### The listed channels -/

/-- By platform and slot. -/
def ChannelKey.sortKey (key : ChannelKey) : List String :=
  [key.1, key.2]

theorem ChannelKey.sortKey_injective : Function.Injective ChannelKey.sortKey := by
  rintro ⟨platform, slot⟩ ⟨platform', slot'⟩ h
  simpa [ChannelKey.sortKey] using h

/-- The channels some citation cites, in order. -/
def citedChannels (citations : List Citation) : List ChannelKey :=
  sortByKey ChannelKey.sortKey (citations.map Citation.channel).dedup

theorem mem_citedChannels {citations : List Citation} :
    key ∈ citedChannels citations ↔ ∃ citation ∈ citations, citation.channel = key := by
  rw [citedChannels, sortByKey, (List.perm_insertionSort _ _).mem_iff, List.mem_dedup, List.mem_map]

theorem citedChannels_nodup (citations : List Citation) : (citedChannels citations).Nodup :=
  (List.perm_insertionSort _ _).nodup_iff.mpr (nodup_dedup _)

/-- The entries with a sample. -/
def listedEntries (groups : AssocMap ChannelKey SourceGroup) : List (Sigma fun _ : ChannelKey => SourceGroup) :=
  (sortByKey (fun e => ChannelKey.sortKey e.1) groups.entries).filter fun e => !e.2.samples.entries.isEmpty

theorem listedEntries_mem {groups : AssocMap ChannelKey SourceGroup} {e : Sigma fun _ : ChannelKey => SourceGroup} :
    e ∈ listedEntries groups ↔ groups.lookup e.1 = some e.2 ∧ e.2.samples.entries.isEmpty = false := by
  rw [listedEntries, mem_filter, sortByKey, (List.perm_insertionSort _ _).mem_iff, Bool.not_eq_true']
  exact and_congr_left fun _ => AList.mem_lookup_iff.symm

namespace Grouped

variable {citations : List Citation} {state : SourceGroups}

/-- A group shows what its channel shows. -/
theorem samples_eq (h : Grouped citations state) {key : ChannelKey} {group : SourceGroup}
    (hlook : state.groups.lookup key = some group) : group.samples = (channelView key citations).samples := by
  rw [← h.view key group hlook]

theorem listed_channels (h : Grouped citations state) :
    (listedEntries state.groups).map Sigma.fst = citedChannels citations := by
  have hkeys : ((listedEntries state.groups).map Sigma.fst)
      = sortByKey ChannelKey.sortKey
          ((state.groups.entries.filter fun e => !e.2.samples.entries.isEmpty).map Sigma.fst) := by
    rw [listedEntries, filter_sortByKey, sortByKey, sortByKey]
    exact map_insertionSort _ _ _ _ fun a _ b _ => Iff.rfl
  have hnodup : ((state.groups.entries.filter fun e =>
      !e.2.samples.entries.isEmpty).map Sigma.fst).Nodup :=
    state.groups.nodupKeys.sublist filter_sublist
  rw [hkeys, citedChannels]
  refine sortByKey_eq_of_perm ?_ (hnodup.map ChannelKey.sortKey_injective)
  refine (perm_ext_iff_of_nodup hnodup (nodup_dedup _)).mpr ?_
  intro key
  rw [List.mem_dedup, List.mem_map, List.mem_map]
  constructor
  · rintro ⟨e, he, rfl⟩
    obtain ⟨hmem, hsamples⟩ := mem_filter.mp he
    have hlook : state.groups.lookup e.1 = some e.2 := AList.mem_lookup_iff.mpr hmem
    rw [h.samples_eq hlook, Bool.not_eq_true'] at hsamples
    by_contra hnone
    rw [(channelView_isEmpty e.1 citations).mpr fun citation hcitation hkey =>
      hnone ⟨citation, hcitation, hkey⟩] at hsamples
    cases hsamples
  · rintro ⟨citation, hcitation, rfl⟩
    cases hlook : state.groups.lookup citation.channel with
    | none => exact absurd rfl (h.absent _ hlook citation hcitation)
    | some group =>
      refine ⟨⟨citation.channel, group⟩, mem_filter.mpr ⟨AList.mem_lookup_iff.mp hlook, ?_⟩, rfl⟩
      rw [Bool.not_eq_true', h.samples_eq hlook, Bool.eq_false_iff, Ne, channelView_isEmpty]
      exact fun hnone => hnone citation hcitation rfl

/-- The recommendations are read off the shown citations. -/
theorem recommended {σ : Type} (h : Grouped citations state) (distribution : DistributionScope)
    (audience : RecommendationAudience) (publication : String → String → StateM σ ChannelPublicationStatus) :
    recommendGroups distribution audience publication (inChannelOrder state.groups)
      = recommendGroups distribution audience publication ((citedChannels citations).map (shownGroup citations)) := by
  rw [recommendGroups_filter, inChannelOrder, List.filter_map, ← h.listed_channels, List.map_map]
  refine recommendGroups_congr distribution audience publication ?_
  intro e he
  have hlook := (listedEntries_mem.mp he).1
  rw [recommendGroup_canonical distribution audience publication (h.fits e.1 e.2 hlook)]
  show recommendGroup _ _ _ { e.2 with rule := canonicalRule e.1 } = recommendGroup _ _ _ _
  rw [Function.comp_apply, shownGroup, ← h.view e.1 e.2 hlook]

end Grouped

/-! ### Pages that show the same -/

section Pages

variable [UrlParser] {σ : Type}

/-- What an optimizer is given, in terms of the shown citations. -/
theorem recommendSources_optimization (page : CitationInsightPage) (distribution : DistributionScope)
    (publication : String → String → StateM σ ChannelPublicationStatus) :
    recommendSources page distribution .optimization publication = (do
      let citations := shownCitations .optimization page.observedSources
      let items ← recommendGroups distribution .optimization publication
        ((citedChannels citations).map (shownGroup citations))
      pure
        { scope := "returned_plans_only"
          ruleVersion := sourceChannelRuleVersion
          planIds := planView citations
          nextAfter := page.nextAfter.filter ((planView citations).contains ·)
          coverage := none
          items }) := by
  have hgrouped := Grouped.page .optimization page.observedSources
  rw [recommendSources, hgrouped.recommended, hgrouped.plans]

theorem recommendSources_eq_of_shown {page page' : CitationInsightPage} (hnext : page.nextAfter = page'.nextAfter)
    (hshown : shownCitations .optimization page.observedSources = shownCitations .optimization page'.observedSources)
    (distribution : DistributionScope) (publication : String → String → StateM σ ChannelPublicationStatus) :
    recommendSources page distribution .optimization publication
      = recommendSources page' distribution .optimization publication := by
  rw [recommendSources_optimization, recommendSources_optimization, hnext, hshown]

end Pages

/-- The samples of optimization questions. -/
def optimizationSamples (samples : List CitationSample) : List CitationSample :=
  samples.filter fun sample => sample.questionPurpose = some .optimization

/-- The addresses of a source with their samples of optimization questions, without those that have none. -/
def ObservedSource.optimizationUrls (source : ObservedSource) : List (String × List CitationSample) :=
  (source.urls.map fun url => (url.url, optimizationSamples url.samples)).filter fun url => url.2 ≠ []

/-- The sources with their addresses, without those that have none. -/
def optimizationSources (sources : List ObservedSource) : List (String × List (String × List CitationSample)) :=
  (sources.map fun source => (source.host, source.optimizationUrls)).filter fun source => source.2 ≠ []

theorem shows_optimization : RecommendationAudience.optimization.shows
    = fun sample => decide (sample.questionPurpose = some .optimization) := by
  funext sample
  simp [RecommendationAudience.shows]

theorem shows_human (sample : CitationSample) : RecommendationAudience.human.shows sample = true := by
  simp [RecommendationAudience.shows]

theorem flatMap_filter_nonempty {α β : Type} (f : α → List β) (p : α → Bool)
    (hp : ∀ a, p a = false → f a = []) (l : List α) : (l.filter p).flatMap f = l.flatMap f := by
  induction l with
  | nil => rfl
  | cons a l ih =>
    cases ha : p a with
    | true => rw [filter_cons_of_pos ha, flatMap_cons, flatMap_cons, ih]
    | false =>
      rw [List.filter_cons_of_neg (by simp [ha]), flatMap_cons, hp a ha, ih, nil_append]

theorem shownCitations_optimization [UrlParser] (sources : List ObservedSource) :
    shownCitations .optimization sources
      = (optimizationSources sources).flatMap fun source =>
          source.2.flatMap fun url =>
            url.2.map fun sample =>
              ({ rule := ruleForUrl url.1, host := source.1, sample } : Citation) := by
  have hurls (source : ObservedSource) :
      source.citations .optimization
        = source.optimizationUrls.flatMap fun url =>
            url.2.map fun sample =>
              ({ rule := ruleForUrl url.1, host := source.host, sample } : Citation) := by
    rw [ObservedSource.optimizationUrls, flatMap_filter_nonempty _ _ (by simp), flatMap_map]
    refine flatMap_congr fun url _ => ?_
    rw [ObservedUrl.citations, optimizationSamples, shows_optimization]
  rw [optimizationSources, flatMap_filter_nonempty _ _ (by simp), flatMap_map]
  exact flatMap_congr fun source _ => hurls source

/-! ### Counts -/

/-- The channel of a recommendation: its platform and slot, or its unmapped host. -/
def SourceChannelRecommendation.channel (item : SourceChannelRecommendation) : ChannelKey :=
  match item.platformId, item.placementSlot with
  | some platform, some slot => (platform, slot)
  | _, _ => ("unmapped", item.sourceHosts.headD "")

/-- Every citation has a known rule or none. -/
def RulesKnown (citations : List Citation) : Prop :=
  ∀ citation ∈ citations, ∀ rule ∈ citation.rule, rule ∈ sourceChannelRules

theorem shownCitations_rules [UrlParser] (audience : RecommendationAudience)
    (sources : List ObservedSource) : RulesKnown (shownCitations audience sources) := by
  intro citation hmem
  obtain ⟨_, -, hsource⟩ := mem_flatMap.mp hmem
  obtain ⟨_, -, hurl⟩ := mem_flatMap.mp hsource
  obtain ⟨_, -, rfl⟩ := mem_map.mp hurl
  exact Grouped.ruleForUrl_mem

theorem channel_unmapped {citation : Citation} (hrule : ∀ rule ∈ citation.rule, rule ∈ sourceChannelRules)
    (h : canonicalRule citation.channel = none) : citation.channel = ("unmapped", citation.host) := by
  obtain ⟨rule, _, _⟩ := citation
  cases rule with
  | none => rfl
  | some rule =>
    have hfirst := canonicalRule_of_mem rule (hrule rule rfl)
    rw [show canonicalRule (rule.platformId, rule.placementSlot) = none from h] at hfirst
    cases hfirst

theorem channelView_hosts {citations : List Citation} {host : String}
    (h : ∀ citation ∈ citations, citation.channel = key → citation.host = host) :
    (channelView key citations).hosts = if ∃ citation ∈ citations, citation.channel = key then [host] else [] := by
  induction citations using List.reverseRecOn with
  | nil => simp [channelView]
  | append_singleton citations citation ih =>
    have hold := ih fun other hmem => h other (mem_append_left _ hmem)
    rw [channelView_append]
    by_cases hkey : citation.channel = key
    · have hhost := h citation (by simp) hkey
      rw [if_pos hkey, if_pos ⟨citation, by simp, hkey⟩]
      show insertOnce citation.host (channelView key citations).hosts = [host]
      rw [hold, hhost]
      split <;> simp [insertOnce]
    · simp [hkey, hold]

theorem recommendation_channel {citations : List Citation} (hrules : RulesKnown citations) (hcited : key ∈ citedChannels citations) (distribution : DistributionScope)
    (audience : RecommendationAudience) (status : ChannelPublicationStatus) :
    ((shownGroup citations key).recommendation distribution audience status).channel = key := by
  cases hrule : canonicalRule key with
  | some rule =>
    have hkey := List.find?_some hrule
    rw [decide_eq_true_iff] at hkey
    rw [hkey]
    simp [SourceChannelRecommendation.channel, SourceGroup.recommendation, shownGroup, ← hkey, hrule]
  | none =>
    obtain ⟨citation, hmem, rfl⟩ := mem_citedChannels.mp hcited
    have hchannel := channel_unmapped (hrules citation hmem) hrule
    have hhosts : ∀ other ∈ citations, other.channel = citation.channel → other.host = citation.host := by
      intro other hother heq
      have hunmapped := channel_unmapped (hrules other hother) (heq ▸ hrule)
      rw [heq, hchannel] at hunmapped
      exact (Prod.mk.injEq _ _ _ _ ▸ hunmapped).2.symm
    have hview := channelView_hosts hhosts
    rw [if_pos ⟨citation, hmem, rfl⟩] at hview
    rw [SourceChannelRecommendation.channel]
    simp only [SourceGroup.recommendation, shownGroup, hrule, hview, map_none, headD_cons]
    exact hchannel.symm

section Counts

variable {σ : Type} (distribution : DistributionScope) (audience : RecommendationAudience)
  (publication : String → String → StateM σ ChannelPublicationStatus)

theorem recommendGroup_cited {citations : List Citation} {key : ChannelKey}
    (hcited : key ∈ citedChannels citations) (s : σ) :
    ∃ status s', recommendGroup distribution audience publication (shownGroup citations key) s
      = (some ((shownGroup citations key).recommendation distribution audience status), s') := by
  have hsamples : ¬ (shownGroup citations key).samples.entries.isEmpty = true := by
    obtain ⟨citation, hmem, hkey⟩ := mem_citedChannels.mp hcited
    intro hempty
    exact (channelView_isEmpty key citations).mp hempty citation hmem hkey
  rw [recommendGroup, if_neg hsamples]
  cases (shownGroup citations key).rule <;> exact ⟨_, _, rfl⟩

theorem recommendGroups_counts {citations : List Citation} (hrules : RulesKnown citations)
    {keys : List ChannelKey} (hkeys : ∀ key ∈ keys, key ∈ citedChannels citations) (s : σ) :
    (recommendGroups distribution audience publication (keys.map (shownGroup citations)) s).1.map
        (fun item => (item.channel, item.citingAnswers))
      = keys.map fun key => (key, (answersOf key citations).length) := by
  induction keys generalizing s with
  | nil => rfl
  | cons key rest ih =>
    have hcited := hkeys key mem_cons_self
    obtain ⟨status, s', hgroup⟩ := recommendGroup_cited distribution audience publication hcited s
    have hrest := ih (fun other hmem => hkeys other (mem_cons_of_mem key hmem)) s'
    have hchannel := recommendation_channel hrules hcited distribution audience status
    have hcount : ((shownGroup citations key).recommendation distribution audience
        status).citingAnswers = (answersOf key citations).length := channelView_length key citations
    have hrun : (recommendGroups distribution audience publication
          (shownGroup citations key :: rest.map (shownGroup citations)) s).1
        = (shownGroup citations key).recommendation distribution audience status
          :: (recommendGroups distribution audience publication (rest.map (shownGroup citations)) s').1 := by
      simp only [recommendGroups, bind, StateT.bind, hgroup]
      rfl
    rw [map_cons, hrun, map_cons, map_cons, hrest, hchannel, hcount]

/-- The channels of a page with the number of answers that cite them, as a reader is shown them. -/
theorem recommendSources_counts [UrlParser] (page : CitationInsightPage) (s : σ) :
    (recommendSources page distribution audience publication s).1.items.map
        (fun item => (item.channel, item.citingAnswers))
      = (citedChannels (shownCitations audience page.observedSources)).map fun key =>
          (key, (answersOf key (shownCitations audience page.observedSources)).length) := by
  have hgrouped := Grouped.page audience page.observedSources
  rw [← recommendGroups_counts distribution audience publication
    (shownCitations_rules audience page.observedSources) (fun key hmem => hmem) s,
    ← hgrouped.recommended]
  rfl

end Counts

theorem shownCitations_sublist [UrlParser] (sources : List ObservedSource) :
    (shownCitations .optimization sources).Sublist (shownCitations .human sources) := by
  have hall : RecommendationAudience.human.shows = fun _ => true := funext shows_human
  have hurl (host : String) (url : ObservedUrl) :
      (url.citations .optimization host).Sublist (url.citations .human host) := by
    rw [ObservedUrl.citations, ObservedUrl.citations, hall, filter_true]
    exact filter_sublist.map _
  exact List.Sublist.flatMap_right _ fun source _ => List.Sublist.flatMap_right _ fun url _ => hurl source.host url

theorem answersOf_length_le {citations citations' : List Citation} (h : citations.Sublist citations') :
    (answersOf key citations).length ≤ (answersOf key citations').length := by
  refine (nodup_dedup _).length_le_of_subset ?_
  intro id hid
  obtain ⟨citation, hmem, hkey, hsample⟩ := mem_answersOf.mp hid
  exact mem_answersOf.mpr ⟨citation, h.subset hmem, hkey, hsample⟩

/-! ### Held-out questions -/

/-- An optimizer reads a page as if the samples of other questions were not there: two pages that agree without them
give the same recommendations and ask the lookup about the same channels. For each channel it is told how many answers
to optimization questions cite it, which is never more than a person is told. -/
theorem recommendSources_heldOut [UrlParser] :
    (∀ {σ : Type} (page page' : CitationInsightPage) (distribution : DistributionScope)
      (publication : String → String → StateM σ ChannelPublicationStatus),
      page.nextAfter = page'.nextAfter →
      optimizationSources page.observedSources = optimizationSources page'.observedSources →
      recommendSources page distribution .optimization publication
          = recommendSources page' distribution .optimization publication
        ∧ ∀ s, channelsAsked page distribution .optimization publication s
            = channelsAsked page' distribution .optimization publication s)
    ∧ ∀ {σ τ : Type} (page : CitationInsightPage) (distribution : DistributionScope)
        (publication : String → String → StateM σ ChannelPublicationStatus)
        (publication' : String → String → StateM τ ChannelPublicationStatus) (s : σ) (t : τ),
        let items := (recommendSources page distribution .optimization publication s).1.items
        (items.map SourceChannelRecommendation.channel).Nodup
          ∧ (∀ key count,
              (key, count) ∈ items.map (fun item => (item.channel, item.citingAnswers))
                ↔ count = (answersOf key (shownCitations .optimization page.observedSources)).length ∧ 0 < count)
          ∧ ∀ item ∈ items,
              ∃ seen ∈ (recommendSources page distribution .human publication' t).1.items,
                seen.channel = item.channel ∧ item.citingAnswers ≤ seen.citingAnswers := by
  refine ⟨?_, ?_⟩
  · intro σ page page' distribution publication hnext hsources
    have hshown : shownCitations .optimization page.observedSources
        = shownCitations .optimization page'.observedSources := by
      rw [shownCitations_optimization, shownCitations_optimization, hsources]
    refine ⟨recommendSources_eq_of_shown hnext hshown distribution publication, ?_⟩
    intro s
    rw [channelsAsked, channelsAsked, recommendSources_eq_of_shown hnext hshown]
  · intro σ τ page distribution publication publication' s t items
    have hcounts := recommendSources_counts distribution .optimization publication page s
    have hhuman := recommendSources_counts distribution .human publication' page t
    have hsublist := shownCitations_sublist page.observedSources
    refine ⟨?_, ?_, ?_⟩
    · have hchannels := congrArg (List.map Prod.fst) hcounts
      rw [List.map_map, List.map_map, show (Prod.fst ∘ fun key : ChannelKey =>
        (key, (answersOf key (shownCitations .optimization page.observedSources)).length)) = id from rfl,
        List.map_id] at hchannels
      show (List.map (Prod.fst ∘ fun item => (item.channel, item.citingAnswers)) items).Nodup
      rw [hchannels]
      exact citedChannels_nodup _
    · intro key count
      rw [hcounts, List.mem_map]
      constructor
      · rintro ⟨_, hcited, heq⟩
        obtain ⟨rfl, rfl⟩ := Prod.mk.inj heq
        obtain ⟨citation, hmem, hkey⟩ := mem_citedChannels.mp hcited
        exact ⟨rfl, length_pos_of_mem (mem_answersOf.mpr ⟨citation, hmem, hkey, rfl⟩)⟩
      · rintro ⟨rfl, hpos⟩
        obtain ⟨_, hid⟩ := exists_mem_of_length_pos hpos
        obtain ⟨citation, hmem, hkey, -⟩ := mem_answersOf.mp hid
        exact ⟨key, mem_citedChannels.mpr ⟨citation, hmem, hkey⟩, rfl⟩
    · intro item hitem
      have hentry : (item.channel, item.citingAnswers) ∈ items.map fun item => (item.channel, item.citingAnswers) :=
        mem_map.mpr ⟨item, hitem, rfl⟩
      rw [hcounts] at hentry
      obtain ⟨key, hcited, heq⟩ := mem_map.mp hentry
      obtain ⟨hchannel, hcount⟩ := Prod.mk.inj heq
      obtain ⟨citation, hmem, hkey⟩ := mem_citedChannels.mp hcited
      have hshown : (key, (answersOf key (shownCitations .human page.observedSources)).length)
          ∈ (recommendSources page distribution .human publication' t).1.items.map
              fun item => (item.channel, item.citingAnswers) := by
        rw [hhuman]
        exact mem_map.mpr ⟨key, mem_citedChannels.mpr ⟨citation, hsublist.subset hmem, hkey⟩, rfl⟩
      obtain ⟨seen, hseen, heq'⟩ := mem_map.mp hshown
      obtain ⟨hchannel', hcount'⟩ := Prod.mk.inj heq'
      refine ⟨seen, hseen, hchannel'.trans hchannel, ?_⟩
      rw [← hcount, hcount']
      exact answersOf_length_le hsublist

namespace Sample

/-- A parser that takes every text for the address of a host. -/
@[reducible]
def bareHosts : UrlParser where
  parse s := some { scheme := "https", host := some s, username := "", password := none, path := "/" }
  join _ _ := none

def citingSample (target : Nat) (purpose : QuestionPurpose) : CitationSample where
  planId := uuid 20
  targetId := uuid target
  attemptId := uuid 40
  provider := "provider"
  model := "model"
  surface := "web"
  searchMode := "search"
  market := "US"
  language := "en"
  questionSetVersion := "1"
  questionPurpose := some purpose
  scheduledAt := 0
  observedAt := 1
  receivedAt := 2
  analysis := none

def citedSource (host : String) (samples : List CitationSample) : ObservedSource where
  host
  citingAnswers := samples.length
  samples
  urls := [{ url := host, citingAnswers := samples.length, samples }]

def citationPage (sources : List ObservedSource) : CitationInsightPage where
  scope := "returned_plans_only"
  planIds := [uuid 20, uuid 21]
  nextAfter := some (uuid 21)
  coverage :=
    { planned := 3, pending := 0, observedLive := 3, groundedSavedAnalysis := 0
      observedUnverified := 0, observedWithoutCitations := 0, refused := 0, missing := 0
      otherCompleted := 0, fixture := 0 }
  invalidCitationUrls := 0
  observedSources := sources

/-- A page with answers to evaluation questions on two more hosts, one of them of the same channel. -/
def fullPage : CitationInsightPage :=
  citationPage
    [citedSource "example.org" [citingSample 31 .frozenEvaluation],
      citedSource "twitter.com" [citingSample 31 .frozenEvaluation],
      citedSource "x.com" [citingSample 30 .optimization, citingSample 31 .frozenEvaluation]]

def optimizationPage : CitationInsightPage :=
  citationPage [citedSource "x.com" [citingSample 30 .optimization]]

/-- A lookup that counts how often it is asked. -/
def countingLookup (platform _slot : String) : StateM Nat ChannelPublicationStatus := fun asked =>
  ({ connectorAvailability := platform, accountReady := true, reason := none }, asked + 1)

end Sample

open Sample in
theorem recommendSources_heldOut_sample :
    fullPage.observedSources ≠ optimizationPage.observedSources
      ∧ (@recommendSources Nat bareHosts fullPage .default .optimization countingLookup
          = @recommendSources Nat bareHosts optimizationPage .default .optimization countingLookup
        ∧ ∀ s, @channelsAsked Nat bareHosts fullPage .default .optimization countingLookup s
            = @channelsAsked Nat bareHosts optimizationPage .default .optimization countingLookup s) :=
  ⟨by decide, (@recommendSources_heldOut bareHosts).1 fullPage optimizationPage .default countingLookup rfl (by decide)⟩

end GeoMaster
