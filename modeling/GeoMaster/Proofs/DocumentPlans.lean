import GeoMaster.Domain.KnowledgeSources
import GeoMaster.Proofs.SemanticFingerprints
import GeoMaster.Proofs.TextLocators

/-!
# Plans of documents

A plan has one item for each combination of the values of its four dimensions. The values of a dimension are a set
once they are trimmed, so the order, the repetition and the padding in which they are given leave the plan as it is.
The key of an item is the digest of a text from which its combination can be read back.
-/

namespace GeoMaster

open Except Text List

/-! ### The values of a dimension -/

/-- Values given in another order, more than once, or with white space around them. -/
inductive Presents : List String → List String → Prop where
  | permuted {values values' : List String} (h : values.Perm values') : Presents values values'
  | repeated {value : String} {values : List String} (h : value ∈ values) : Presents values (value :: values)
  | padded {before after : String} (value : String) (values : List String) (hbefore : isBlank before = true)
      (hafter : isBlank after = true) : Presents (value :: values) ((before ++ value ++ after) :: values)
  | symm {values values' : List String} (h : Presents values values') : Presents values' values
  | trans {values values' values'' : List String} (h : Presents values values') (h' : Presents values' values'') :
      Presents values values''

theorem trimmed_append_blanks {chars blanks : List Char} (h : ∀ c ∈ blanks, isWhitespace c = true) :
    trimmed (chars ++ blanks) = trimmed chars := by
  induction blanks using List.reverseRecOn with
  | nil => rw [append_nil]
  | append_singleton blanks c ih =>
    rw [← List.append_assoc, trimmed_append_blank (h c (by simp))]
    exact ih fun d hd => h d (mem_append_left _ hd)

/-- White space around a text is trimmed. -/
theorem trim_padded {before value after : String} (hbefore : isBlank before = true) (hafter : isBlank after = true) :
    trim (before ++ value ++ after) = trim value := by
  rw [← String.toList_inj, toList_trim, toList_trim, String.toList_append, String.toList_append,
    trimmed_append_blanks (all_eq_true.mp hafter)]
  unfold trimmed
  rw [dropWhile_append_of_pos (all_eq_true.mp hbefore)]

theorem Presents.mem_trim {values values' : List String} (h : Presents values values') (text : String) :
    text ∈ values.map trim ↔ text ∈ values'.map trim := by
  induction h with
  | permuted h => exact (h.map trim).mem_iff
  | repeated h =>
    rw [List.map_cons, List.mem_cons]
    exact ⟨.inr, fun htext => htext.elim (fun heq => heq ▸ mem_map_of_mem h) id⟩
  | padded value values hbefore hafter => rw [List.map_cons, List.map_cons, trim_padded hbefore hafter]
  | symm _ ih => exact ih.symm
  | trans _ _ ih ih' => exact ih.trans ih'

theorem Presents.normalizedDimension_eq {values values' : List String} (h : Presents values values') (fallback : String) :
    normalizedDimension values fallback = normalizedDimension values' fallback := by
  have hvalues : (((values.map trim).filter (· ≠ "")).insertionSort (· ≤ ·)).dedup
      = (((values'.map trim).filter (· ≠ "")).insertionSort (· ≤ ·)).dedup := by
    refine sorted_dedup_eq.mpr fun text => ?_
    rw [List.mem_filter, List.mem_filter, h.mem_trim]
  simp only [normalizedDimension, hvalues]

theorem nodup_normalizedDimension (values : List String) (fallback : String) :
    (normalizedDimension values fallback).Nodup := by
  simp only [normalizedDimension]
  split
  · exact nodup_singleton _
  · exact nodup_dedup _

/-! ### Combinations -/

namespace DocumentScope

/-- The values of the dimension of question clusters. -/
def resolvedKeys (scope : DocumentScope) : List String :=
  (scope.questionClusters.filter fun cluster => cluster.state = .resolved).map QuestionClusterScope.key

/-- A combination of the values of the dimensions. -/
structure Has (scope : DocumentScope) (d : DocumentDimensions) : Prop where
  market : d.market ∈ normalizedDimension scope.markets "default"
  language : d.language ∈ normalizedDimension scope.languages "default"
  contentType : d.contentType ∈ normalizedDimension scope.contentTypes "company_profile"
  questionCluster : d.questionCluster ∈ normalizedDimension scope.resolvedKeys "general"

/-- The values of every dimension are given in another way. -/
structure Presents (scope scope' : DocumentScope) : Prop where
  markets : GeoMaster.Presents scope.markets scope'.markets
  languages : GeoMaster.Presents scope.languages scope'.languages
  contentTypes : GeoMaster.Presents scope.contentTypes scope'.contentTypes
  questionClusters : GeoMaster.Presents scope.resolvedKeys scope'.resolvedKeys

variable {scope scope' : DocumentScope} {d : DocumentDimensions}

theorem mem_documentDimensions : d ∈ documentDimensions scope ↔ scope.Has d := by
  simp only [documentDimensions, mem_flatMap, mem_map]
  constructor
  · rintro ⟨_, hmarket, _, hlanguage, _, htype, _, hcluster, rfl⟩
    exact ⟨hmarket, hlanguage, htype, hcluster⟩
  · intro h
    exact ⟨_, h.market, _, h.language, _, h.contentType, _, h.questionCluster, rfl⟩

theorem Presents.documentDimensions_eq (h : scope.Presents scope') :
    documentDimensions scope = documentDimensions scope' := by
  have hclusters := h.questionClusters.normalizedDimension_eq "general"
  simp only [resolvedKeys] at hclusters
  simp only [documentDimensions, h.markets.normalizedDimension_eq, h.languages.normalizedDimension_eq,
    h.contentTypes.normalizedDimension_eq, hclusters]

/-- Lists that carry the values they come from do not overlap. -/
theorem nodup_flatMap {α β : Type} {l : List α} {f : α → List β} (label : β → α) (hl : l.Nodup)
    (hf : ∀ x ∈ l, (f x).Nodup) (hlabel : ∀ x, ∀ y ∈ f x, label y = x) : (l.flatMap f).Nodup := by
  refine List.nodup_flatMap.mpr ⟨hf, hl.imp fun hne => ?_⟩
  intro y hy hy'
  exact hne ((hlabel _ y hy).symm.trans (hlabel _ y hy'))

/-- No combination is planned twice. -/
theorem nodup_documentDimensions (scope : DocumentScope) : (documentDimensions scope).Nodup := by
  refine nodup_flatMap DocumentDimensions.market (nodup_normalizedDimension ..) (fun _ _ => ?_) (by grind)
  refine nodup_flatMap DocumentDimensions.language (nodup_normalizedDimension ..) (fun _ _ => ?_) (by grind)
  refine nodup_flatMap DocumentDimensions.contentType (nodup_normalizedDimension ..) (fun _ _ => ?_) (by grind)
  exact (nodup_normalizedDimension ..).map fun _ _ h => congrArg DocumentDimensions.questionCluster h

end DocumentScope

/-! ### Keys -/

/-- The text that is digested for a combination. -/
def DocumentDimensions.text (d : DocumentDimensions) : String :=
  Json.toText (.array [.string d.market, .string d.language, .string d.contentType, .string d.questionCluster])

theorem DocumentDimensions.text_injective : Function.Injective DocumentDimensions.text := by
  rintro ⟨⟩ ⟨⟩ h
  have hplain (texts : List String) : (Json.array (texts.map .string)).Plain := Json.plain_array fun _ _ => .string _
  have hjson := (hplain [_, _, _, _]).toText_inj (hplain [_, _, _, _]) h
  simpa using hjson

theorem manifestCoverage_sum (items : List DocumentManifestItem) :
    (manifestCoverage items).planned + (manifestCoverage items).blocked + (manifestCoverage items).deferred
      + (manifestCoverage items).notApplicable = items.length := by
  induction items with
  | nil => rfl
  | cons item rest ih =>
    simp only [manifestCoverage, filter_cons, length_cons] at ih ⊢
    cases item.state <;> simp <;> omega

section Plans

variable [Sha256] {used : DocumentDimensions → Prop} {d d' : DocumentDimensions}

/-- No two texts of combinations in use have one digest. -/
def DistinctCombinations (used : DocumentDimensions → Prop) : Prop :=
  ∀ d d', used d → used d' → sha256Hex (bytes d.text) = sha256Hex (bytes d'.text) → d.text = d'.text

theorem DistinctCombinations.documentKey_eq (h : DistinctCombinations used) (hd : used d) (hd' : used d') :
    d.documentKey = d'.documentKey ↔ d = d' := by
  refine ⟨fun hkey => DocumentDimensions.text_injective (h d d' hd hd' ?_), fun h => h ▸ rfl⟩
  exact String.append_right_inj ("project:") |>.mp hkey

/-! ### Plans -/

/-- An item for a combination. -/
structure DocumentManifestItem.PlannedFor (item : DocumentManifestItem) (d : DocumentDimensions) : Prop where
  documentKey : item.documentKey = d.documentKey
  market : item.market = d.market
  language : item.language = d.language
  contentType : item.contentType = d.contentType

/-- One item for each combination, in the order of the keys, each counted once. -/
structure DocumentManifest.Plans (manifest : DocumentManifest) (scope : DocumentScope) : Prop where
  expected : manifest.expectedCount = some (manifest.items.length : Int)
  sorted : (manifest.items.map (·.documentKey)).Pairwise (· < ·)
  planned : ∀ d, scope.Has d → ∃! item, item ∈ manifest.items ∧ item.PlannedFor d
  nothingElse : ∀ item ∈ manifest.items, ∃! d, scope.Has d ∧ item.PlannedFor d
  total : manifest.coverage.total = manifest.items.length
  coverage : manifest.coverage.planned + manifest.coverage.blocked + manifest.coverage.deferred
    + manifest.coverage.notApplicable = manifest.items.length

theorem plannedItem_plannedFor (manifestId releaseId : Uuid) (refs : List Uuid) (d : DocumentDimensions) :
    (plannedItem manifestId releaseId refs d).PlannedFor d :=
  ⟨rfl, rfl, rfl, rfl⟩

variable {scope : TenantScope} {release : KnowledgeRelease} {manifestId : Uuid} {documentScope : DocumentScope}
  {refs : List Uuid} {manifest : DocumentManifest}

/-- The items of the plan are those of the combinations, sorted by their keys. -/
theorem plannedManifest_parts (h : plannedManifest scope release manifestId documentScope refs = .ok manifest) :
    manifest.expectedCount = some ((documentDimensions documentScope).length : Int)
      ∧ manifest.items = ((documentDimensions documentScope).map
          (plannedItem manifestId release.knowledgeReleaseId refs)).insertionSort (fun a b =>
            a.documentKey ≤ b.documentKey)
      ∧ manifest.coverage = manifestCoverage manifest.items := by
  simp only [plannedManifest, eq_ok_iff] at h
  obtain ⟨_, -, -, -, -, -, -, -, rfl⟩ := h
  exact ⟨rfl, rfl, rfl⟩

theorem plannedManifest_plans (hfree : DistinctCombinations used) (hused : ∀ d, documentScope.Has d → used d)
    (h : plannedManifest scope release manifestId documentScope refs = .ok manifest) :
    manifest.Plans documentScope := by
  obtain ⟨hcount, hitems, hcoverage⟩ := plannedManifest_parts h
  let make := plannedItem manifestId release.knowledgeReleaseId refs
  let before (a b : DocumentManifestItem) : Prop := a.documentKey ≤ b.documentKey
  have hperm : manifest.items.Perm ((documentDimensions documentScope).map make) := hitems ▸ perm_insertionSort before _
  have hmem : ∀ item, item ∈ manifest.items ↔ ∃ d, documentScope.Has d ∧ make d = item := fun item => by
    rw [hperm.mem_iff, mem_map]
    simp only [DocumentScope.mem_documentDimensions]
  have hkey : ∀ d d', documentScope.Has d → documentScope.Has d' → (make d).documentKey = d'.documentKey → d = d' :=
    fun d d' hd hd' => (hfree.documentKey_eq (hused d hd) (hused d' hd')).mp
  have hlength : manifest.items.length = (documentDimensions documentScope).length := by
    rw [hperm.length_eq, List.length_map]
  refine ⟨by rw [hlength, hcount], ?_, fun d hd => ?_, fun item hitem => ?_, by rw [hcoverage]; rfl, ?_⟩
  · have hle : (manifest.items.map (·.documentKey)).Pairwise (· ≤ ·) := by
      have : Std.Total before := ⟨fun _ _ => le_total _ _⟩
      have : IsTrans _ before := ⟨fun _ _ _ => le_trans⟩
      rw [hitems, pairwise_map]
      exact pairwise_insertionSort before _
    have hnodup : (manifest.items.map (·.documentKey)).Nodup := by
      refine (hperm.map _).nodup_iff.mpr ?_
      rw [List.map_map]
      refine (DocumentScope.nodup_documentDimensions documentScope).map_on fun d hd d' hd' => ?_
      exact hkey d d' (DocumentScope.mem_documentDimensions.mp hd) (DocumentScope.mem_documentDimensions.mp hd')
    exact (hle.and hnodup).imp fun h => lt_of_le_of_ne h.1 h.2
  · refine ⟨make d, ⟨(hmem _).mpr ⟨d, hd, rfl⟩, plannedItem_plannedFor ..⟩, ?_⟩
    rintro item ⟨hitem, hfor⟩
    obtain ⟨d', hd', rfl⟩ := (hmem item).mp hitem
    rw [hkey d' d hd' hd hfor.documentKey]
  · obtain ⟨d, hd, rfl⟩ := (hmem item).mp hitem
    exact ⟨d, ⟨hd, plannedItem_plannedFor ..⟩, fun d' ⟨hd', hfor⟩ => (hkey d d' hd hd' hfor.documentKey).symm⟩
  · rw [hcoverage]
    exact manifestCoverage_sum _

end Plans

/-! ### The plan of a scope that names nothing -/

namespace Sample

attribute [local instance] secureHash

def emptyScope : DocumentScope :=
  { allActiveProducts := false, excludedProductIds := [], markets := [], languages := [], contentTypes := []
    questionClusters := [] }

def firstRelease : KnowledgeRelease :=
  { knowledgeReleaseId := uuid 4, operatorId := ⟨uuid 1⟩, tenantId := ⟨uuid 2⟩, projectId := ⟨uuid 3⟩, sequence := 1
    previousReleaseId := none, sourceVersionRefs := [], factRevisionRefs := [], indexBuildId := ""
    pipelineVersions := ⟨"", "", "", none⟩, contentHash := "", coverage := ⟨0, 0, 0, []⟩, createdAt := 0 }

end Sample

end GeoMaster
