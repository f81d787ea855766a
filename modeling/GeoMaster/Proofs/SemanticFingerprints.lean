import GeoMaster.Domain.ContentReuse
import GeoMaster.Proofs.JsonValues
import GeoMaster.Proofs.ReportOrder

/-!
# Identity of semantic inputs

The fingerprint of a semantic input is the digest of the text of its canonical form. The text determines the form,
because no two values of one type have the same JSON, and the form determines the input up to the order and the
repetition of its sources and its clusters.
-/

namespace GeoMaster

open Except List Option Json

theorem Uuid.json_injective : Function.Injective Uuid.json := fun _ _ h =>
  Uuid.toString_injective (string.inj h)

namespace Json

variable {α : Type} {f : α → Json}

theorem nullable_injective (hf : Function.Injective f) (hnull : ∀ x, f x ≠ .null) : Function.Injective (nullable f) := by
  rintro (_ | x) (_ | y) h
  · rfl
  · exact absurd h.symm (hnull y)
  · exact absurd h (hnull x)
  · rw [hf h]

theorem nullable_plain (hf : ∀ x, (f x).Plain) (o : Option α) : (nullable f o).Plain := by
  cases o with
  | none => exact .null
  | some x => exact hf x

end Json

/-! ### Locators -/

namespace ChunkLocator

variable (locator : ChunkLocator)

theorem members_nodup : ("kind" :: locator.members.map Prod.fst).Nodup := by
  cases locator <;> simp [members]

theorem json_plain : locator.json.Plain := by
  have hu32 (n : UInt32) : (Json.u32 n).Plain := .posInt _
  have hbox (box : List Int32) : Json.Plain (.array (box.map fun n => .ofInt n.toInt)) :=
    plain_array fun n _ => ofInt_plain (by have := n.le_toInt; omega)
  refine .object (optionalFields_forall ?_)
  cases locator <;>
    simp [members, Uuid.json, Json.Plain.string, Json.Plain.bool, hu32, hbox, plain_array fun _ _ => Json.Plain.string _]
  rintro _ (⟨-, rfl⟩ | ⟨-, rfl⟩) <;> exact .bool _

theorem json_injective : Function.Injective json := by
  intro a b h
  have hfields := object.inj h
  have hkind : a.kind = b.kind := string.inj (Prod.mk.inj (List.cons.inj hfields).1).2
  have hkeys : a.members.map Prod.fst = b.members.map Prod.fst := by
    cases a <;> cases b <;> first | (simp [kind] at hkind; done) | simp only [members, List.map]
  have hmembers := optionalFields_inj (.of_eq (List.cons.inj hfields).2) hkeys (nodup_cons.mp a.members_nodup).2
  have hu32 {n m : UInt32} : Json.u32 n = Json.u32 m ↔ n = m := u32_injective.eq_iff
  have hmap {α : Type} {f : α → Json} (hf : Function.Injective f) {o o' : Option α} : o.map f = o'.map f ↔ o = o' :=
    (map_injective hf).eq_iff
  have hstrings : Function.Injective string := fun _ _ => string.inj
  have hbools : Function.Injective bool := fun _ _ => bool.inj
  have hint : Function.Injective fun n : Int32 => Json.ofInt n.toInt := fun n m hnm => Int32.toInt_inj.mp
    (ofInt_inj (by have := n.le_toInt; have := n.toInt_lt; omega) (by have := m.le_toInt; have := m.toInt_lt; omega) hnm)
  have hbox : Function.Injective fun box : List Int32 => array (box.map fun n => .ofInt n.toInt) :=
    fun _ _ hboxes => map_injective_iff.mpr hint (array.inj hboxes)
  cases a <;> cases b <;> first
    | rfl
    | (simp [kind] at hkind; done)
    | simpa [members, hu32, hmap u32_injective, hmap hstrings, hmap hbools, hmap hbox,
        (Uuid.json_injective).eq_iff, (map_injective_iff.mpr hstrings).eq_iff] using hmembers

end ChunkLocator

/-! ### Evidence and scopes -/

theorem EvidenceRef.json_plain (reference : EvidenceRef) : reference.json.Plain := by
  refine .object (optionalFields_forall ?_)
  simp [Uuid.json, Json.Plain.string, reference.locator.json_plain]

theorem EvidenceRef.json_injective : Function.Injective EvidenceRef.json := by
  rintro ⟨version, chunk, locator⟩ ⟨version', chunk', locator'⟩ h
  have hmembers := optionalFields_inj (.of_eq (object.inj h)) (by simp only [List.map]) (by simp)
  simpa [(Uuid.json_injective).eq_iff, (map_injective Uuid.json_injective).eq_iff,
    (ChunkLocator.json_injective).eq_iff] using hmembers

theorem ContentEvidence.json_plain (evidence : ContentEvidence) : evidence.json.Plain := by
  refine .object ?_
  simp [Json.Plain.string, evidence.reference.json_plain]

theorem ContentEvidence.json_injective : Function.Injective ContentEvidence.json := by
  rintro ⟨reference, quote⟩ ⟨reference', quote'⟩ h
  simpa [json, (EvidenceRef.json_injective).eq_iff] using h

theorem TenantScope.json_plain (scope : TenantScope) : scope.json.Plain := by
  refine .object (optionalFields_forall ?_)
  simp [Uuid.json, Json.Plain.string]

theorem TenantScope.json_injective : Function.Injective TenantScope.json := by
  rintro ⟨⟨operator⟩, ⟨tenant⟩, project⟩ ⟨⟨operator'⟩, ⟨tenant'⟩, project'⟩ h
  have hmembers := optionalFields_inj (.of_eq (object.inj h)) (by simp only [List.map]) (by simp)
  have hproject : Function.Injective fun project : ProjectId => project.asUuid.json := fun ⟨_⟩ ⟨_⟩ heq =>
    congrArg ProjectId.mk (Uuid.json_injective heq)
  simpa [(Uuid.json_injective).eq_iff, (map_injective hproject).eq_iff] using hmembers

/-! ### The canonical form -/

/-- Sorted lists without repetitions are equal when they have the same members. -/
theorem sorted_dedup_eq {α : Type} [DecidableEq α] {r : α → α → Prop} [DecidableRel r] [IsTrans α r] [Std.Total r]
    [Std.Antisymm r] {l l' : List α} :
    (l.insertionSort r).dedup = (l'.insertionSort r).dedup ↔ ∀ x, x ∈ l ↔ x ∈ l' := by
  constructor
  · intro h x
    rw [← mem_insertionSort r, ← mem_dedup, h, mem_dedup, mem_insertionSort]
  · intro h
    refine List.Perm.eq_of_pairwise' (r := r) ?_ ?_
      ((perm_ext_iff_of_nodup (nodup_dedup _) (nodup_dedup _)).mpr fun x => ?_)
    · exact (pairwise_insertionSort r l).sublist (dedup_sublist _)
    · exact (pairwise_insertionSort r l').sublist (dedup_sublist _)
    · rw [mem_dedup, mem_insertionSort, h, mem_dedup, mem_insertionSort]

namespace ContentSemanticDescriptor

variable {a b ca cb : ContentSemanticDescriptor}

/-- Two inputs differ at most in the order and the repetition of their sources and their clusters. -/
def SameInput (a b : ContentSemanticDescriptor) : Prop :=
  (∀ id, id ∈ a.sourceVersionIds ↔ id ∈ b.sourceVersionIds) ∧
    (∀ cluster, cluster ∈ a.questionClusters ↔ cluster ∈ b.questionClusters) ∧
      { a with sourceVersionIds := [], questionClusters := [] } =
        { b with sourceVersionIds := [], questionClusters := [] }

theorem json_plain (self : ContentSemanticDescriptor) : self.json.Plain := by
  refine .object ?_
  have huuid (id : Uuid) : id.json.Plain := .string _
  simp only [forall_mem_cons]
  simp [Json.Plain.string, Json.u32, Json.ofNat, Json.Plain.posInt, self.scope.json_plain,
    plain_array fun id _ => huuid id, Json.nullable_plain huuid,
    plain_array fun e _ => ContentEvidence.json_plain e, plain_array fun _ _ => Json.Plain.string _,
    Json.nullable_plain Json.Plain.string]

theorem json_injective : Function.Injective json := by
  intro a b h
  have hstring := Json.nullable_injective (fun _ _ => string.inj) (fun _ => nofun)
  have hproduct := Json.nullable_injective Uuid.json_injective (fun _ => nofun)
  have hids := map_injective_iff.mpr Uuid.json_injective
  have hevidence := map_injective_iff.mpr ContentEvidence.json_injective
  have hclusters : Function.Injective (List.map string) := map_injective_iff.mpr fun _ _ => string.inj
  simp only [json, object.injEq, List.cons.injEq, Prod.mk.injEq, true_and, and_true,
    u32_injective.eq_iff, (TenantScope.json_injective).eq_iff, string.injEq, array.injEq, hstring.eq_iff, hproduct.eq_iff,
    hids.eq_iff, hevidence.eq_iff, hclusters.eq_iff] at h
  cases a
  cases b
  simpa using h

theorem canonical_lists {ids : List Uuid} {clusters : List String} (hids : ∀ id, id ∈ a.sourceVersionIds ↔ id ∈ ids)
    (hclusters : ∀ cluster, cluster ∈ a.questionClusters ↔ cluster ∈ clusters) :
    canonical { a with sourceVersionIds := ids, questionClusters := clusters } = a.canonical := by
  have hempty : a.sourceVersionIds = [] ↔ ids = [] := by
    simp only [eq_nil_iff_forall_not_mem, hids]
  simp only [canonical, parts, sortedIds, sorted_dedup_eq.mpr hids, sorted_dedup_eq.mpr hclusters, hids, hempty]
  congr

theorem SameInput.canonical (h : SameInput a b) : a.canonical = b.canonical := by
  obtain ⟨hids, hclusters, hrest⟩ := h
  have hb : b = { a with sourceVersionIds := b.sourceVersionIds, questionClusters := b.questionClusters } :=
    congrArg (fun d => { d with sourceVersionIds := b.sourceVersionIds, questionClusters := b.questionClusters })
      hrest.symm
  rw [hb, canonical_lists hids hclusters]

theorem canonical_eq (h : a.canonical = .ok ca) :
    ca = { a with
      sourceVersionIds := sortedIds a.sourceVersionIds
      questionClusters := (a.questionClusters.insertionSort (· ≤ ·)).dedup } := by
  simp only [canonical, eq_ok_iff] at h
  obtain ⟨_, _, rfl⟩ := h
  rfl

theorem canonical_same (h : a.canonical = .ok ca) : SameInput a ca := by
  rw [canonical_eq h]
  refine ⟨fun id => ?_, fun cluster => ?_, rfl⟩
  · exact (mem_dedup.trans (mem_insertionSort _)).symm
  · exact (mem_dedup.trans (mem_insertionSort _)).symm

theorem canonical_eq_iff (ha : a.canonical = .ok ca) (hb : b.canonical = .ok cb) : ca = cb ↔ SameInput a b := by
  constructor
  · rintro rfl
    obtain ⟨hids, hclusters, hrest⟩ := canonical_same ha
    obtain ⟨hids', hclusters', hrest'⟩ := canonical_same hb
    exact ⟨fun id => (hids id).trans (hids' id).symm, fun cluster => (hclusters cluster).trans (hclusters' cluster).symm,
      hrest.trans hrest'.symm⟩
  · intro h
    have hsame := h.canonical
    rw [ha, hb] at hsame
    exact ok.inj hsame

/-! ### The fingerprint -/

theorem fingerprint_eq [Sha256] (h : a.canonical = .ok ca) :
    a.fingerprint = .ok (sha256Hex (Text.bytes ca.json.toText)) := by
  rw [fingerprint, h]
  rfl

/-- Two accepted inputs have one fingerprint exactly when they are the same input, unless the digest collides on the
texts of their canonical forms. -/
theorem fingerprint_exact [Sha256] (a b ca cb : ContentSemanticDescriptor) (ha : a.canonical = .ok ca)
    (hb : b.canonical = .ok cb)
    (hfree : sha256Hex (Text.bytes ca.json.toText) = sha256Hex (Text.bytes cb.json.toText) →
      Text.bytes ca.json.toText = Text.bytes cb.json.toText) :
    ca.canonical = .ok ca ∧ a.fingerprint.isOk ∧ (a.fingerprint = b.fingerprint ↔ a.canonical = b.canonical) ∧
      (a.canonical = b.canonical ↔ SameInput a b) := by
  have hsame : a.canonical = b.canonical ↔ ca = cb := by
    rw [ha, hb, ok.injEq]
  refine ⟨(canonical_same ha).canonical ▸ ha, by rw [fingerprint_eq ha]; rfl, ?_, hsame.trans (canonical_eq_iff ha hb)⟩
  rw [hsame, fingerprint_eq ha, fingerprint_eq hb]
  constructor
  · intro h
    have htext := Text.bytes_injective (hfree (ok.inj h))
    exact json_injective (ca.json_plain.toText_inj cb.json_plain htext)
  · rintro rfl
    rfl

/-! ### An input in two orders -/

namespace Sample

open GeoMaster.Sample

attribute [local instance] secureHash

def input (sources : List Uuid) (clusters : List String) : ContentSemanticDescriptor where
  version := 1
  scope := GeoMaster.Sample.scope
  documentKey := "faq"
  contentType := "article"
  productId := none
  market := "de"
  language := "de"
  plannerVersion := "p1"
  sourceVersionIds := sources
  evidence := [⟨⟨uuid 8, some (uuid 9), .manual⟩, "quote"⟩]
  brandName := none
  productName := none
  targetAudience := none
  objective := none
  questionClusters := clusters
  briefTitle := "Title"
  briefObjective := "Objective"
  generationPolicyVersion := "g1"
  evidencePolicyVersion := "e1"
  checkPolicyVersion := "c1"
  repairPolicyVersion := "r1"
  outputSchemaVersion := "o1"
  generationPolicyRevision := "1"

theorem fingerprint_exact_reordered :
    (input [uuid 8, uuid 7] ["b", "a", "b"]).fingerprint = (input [uuid 7, uuid 8, uuid 7] ["a", "b"]).fingerprint := by
  have hfirst : (input [uuid 8, uuid 7] ["b", "a", "b"]).canonical = .ok (input [uuid 7, uuid 8] ["a", "b"]) := by
    decide +kernel
  have hsecond : (input [uuid 7, uuid 8, uuid 7] ["a", "b"]).canonical = .ok (input [uuid 7, uuid 8] ["a", "b"]) := by
    decide +kernel
  have hexact := fingerprint_exact _ _ _ _ hfirst hsecond fun _ => rfl
  exact hexact.2.2.1.mpr (hfirst.trans hsecond.symm)

end Sample

end ContentSemanticDescriptor

end GeoMaster
