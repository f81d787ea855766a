import GeoMaster.Domain.DistributionCalls
import GeoMaster.Lib.Owned
import GeoMaster.Proofs.Identifiers

/-!
# The cells of a frozen manifest

A frozen manifest lists each document and each placement once, so a number below the expected count names one
pair, every pair has one number, and different cells have different identities as long as the texts behind
these do not collide.
-/

namespace GeoMaster

open Except List AList Nat

/-! ### What freezing guarantees -/

theorem checkPlacements_ok {seen : List (String × String)} {placements : List PlatformPlacement}
    {u : Unit} (h : checkPlacements seen placements = .ok u) :
    (placements.map PlatformPlacement.key).Nodup ∧ ∀ place ∈ placements, place.key ∉ seen := by
  induction placements generalizing seen with
  | nil => simp
  | cons _ _ ih =>
    simp only [checkPlacements, eq_ok_iff, not_or] at h
    obtain ⟨_, ⟨-, -, -, hnew⟩, hrest⟩ := h
    obtain ⟨hnodup, hseen⟩ := ih hrest
    refine ⟨?_, ?_⟩
    · rw [map_cons, nodup_cons]
      refine ⟨fun hmem => ?_, hnodup⟩
      obtain ⟨other, hother, hkey⟩ := mem_map.mp hmem
      exact hseen other hother (hkey ▸ mem_cons_self)
    · intro other hother
      rcases mem_cons.mp hother with rfl | hother
      · exact hnew
      · exact fun hmem => hseen other hother (mem_cons_of_mem _ hmem)

variable {items : AssocMap Uuid ContentHandoffItem} {manifest : DistributionManifest}

theorem handoffById_keyed {found : AssocMap Uuid ContentHandoffItem}
    {list : List ContentHandoffItem} (hfound : AssocMap.Keyed ContentHandoffItem.itemId found)
    (h : handoffById found list = .ok items) : AssocMap.Keyed ContentHandoffItem.itemId items := by
  induction list generalizing found with
  | nil =>
    obtain rfl := pure_eq_ok.mp h
    exact hfound
  | cons _ _ ih =>
    simp only [handoffById, bind_eq_ok] at h
    obtain ⟨_, -, hrest⟩ := h
    exact ih (hfound.insert rfl) hrest

/-- What a document of the roster is, and that it was taken from the handoff. -/
structure RosterDocument (items : AssocMap Uuid ContentHandoffItem) (document : DistributionDocument) : Prop where
  taken : document.documentItemId ∈ items
  revision : document.status = .ready ↔ document.contentRevisionId.isSome

theorem freezeRoster_ok {planned : List DocumentManifestItem}
    {roster : List DistributionDocument} (hitems : AssocMap.Keyed ContentHandoffItem.itemId items)
    (h : freezeRoster items planned = .ok roster) :
    (roster.map DistributionDocument.documentItemId).Nodup ∧ ∀ document ∈ roster, RosterDocument items document := by
  induction planned generalizing items roster with
  | nil =>
    obtain rfl := pure_eq_ok.mp h
    simp
  | cons plan _ ih =>
    simp only [freezeRoster, eq_ok_iff, not_or, not_not] at h
    obtain ⟨item, hitem, _, ⟨-, hrevision⟩, _, hrest, rfl⟩ := h
    have hid : item.itemId = plan.documentManifestItemId := hitems _ _ hitem
    have herased : AssocMap.Keyed ContentHandoffItem.itemId (items.erase plan.documentManifestItemId) := by
      intro k v hk
      rw [AssocMap.lookup_erase] at hk
      split at hk
      · simp at hk
      · exact hitems k v hk
    obtain ⟨hnodup, hroster⟩ := ih herased hrest
    refine ⟨?_, ?_⟩
    · rw [map_cons, nodup_cons]
      refine ⟨fun hmem => ?_, hnodup⟩
      obtain ⟨other, hother, hkey⟩ := mem_map.mp hmem
      have htaken := (hroster other hother).taken
      rw [hkey, hid, mem_erase] at htaken
      exact htaken.1 rfl
    · intro document hdocument
      rcases mem_cons.mp hdocument with rfl | hdocument
      · refine ⟨?_, hrevision⟩
        rw [hid]
        exact lookup_isSome.mp (by rw [hitem]; rfl)
      · exact ⟨(mem_erase.mp (hroster document hdocument).taken).2, (hroster document hdocument).revision⟩

/-- What freezing guarantees of a manifest and nothing later changes. -/
structure FrozenManifest (manifest : DistributionManifest) : Prop where
  placed : manifest.platformScope ≠ []
  placements : (manifest.platformScope.map PlatformPlacement.key).Nodup
  documents : (manifest.documentRoster.map DistributionDocument.documentItemId).Nodup
  count : manifest.expectedCount = manifest.documentRoster.length * manifest.platformScope.length
  capacity : manifest.expectedCount < 2 ^ 64
  revisions : ∀ document ∈ manifest.documentRoster, document.status = .ready ↔ document.contentRevisionId.isSome

theorem freezeDistribution_ok [Sha256] [InstantJson] {scope : TenantScope} {input : FreezeDistribution} (h : freezeDistribution scope input = .ok manifest) :
    FrozenManifest manifest ∧ manifest.expansionCursor = 0 ∧ manifest.complete = decide (manifest.expectedCount = 0)
      ∧ scope.projectId = some manifest.projectId
      ∧ manifest.cycleId = input.cycleId ∧ manifest.revision = input.revision := by
  simp only [freezeDistribution, eq_ok_iff] at h
  obtain ⟨_, hscope, _, -, _, hmatching, _, -, _, hplacements, items, hitems, roster, hroster, _, hcapacity, rfl⟩ := h
  have hmatches : input.matching = true := not_not.mp hmatching
  have hplaced : input.placements ≠ [] := by
    simp only [FreezeDistribution.matching, decide_eq_true_eq] at hmatches
    exact hmatches.2.2.2.1
  have hkeyed := handoffById_keyed AssocMap.Keyed.empty hitems
  obtain ⟨hnodup, hdocuments⟩ := freezeRoster_ok hkeyed hroster
  have hperm := perm_insertionSort PlatformPlacement.le input.placements
  refine ⟨⟨?_, ?_, hnodup, rfl, not_le.mp hcapacity,
      fun document hdocument => (hdocuments document hdocument).revision⟩,
    rfl, rfl, ?_, rfl, rfl⟩
  · intro hempty
    rw [show input.placements.insertionSort PlatformPlacement.le = [] from hempty] at hperm
    exact hplaced (nil_perm.mp hperm)
  · exact (hperm.map PlatformPlacement.key).nodup_iff.mpr (checkPlacements_ok hplacements).1
  · simpa [checkScope] using hscope

theorem FrozenManifest.congr {manifest' : DistributionManifest}
    (h : FrozenManifest manifest) (hplacements : manifest'.platformScope = manifest.platformScope)
    (hroster : manifest'.documentRoster = manifest.documentRoster)
    (hcount : manifest'.expectedCount = manifest.expectedCount) : FrozenManifest manifest' where
  placed := by rw [hplacements]; exact h.placed
  placements := by rw [hplacements]; exact h.placements
  documents := by rw [hroster]; exact h.documents
  count := by rw [hplacements, hroster, hcount]; exact h.count
  capacity := by rw [hcount]; exact h.capacity
  revisions := by rw [hroster]; exact h.revisions

/-! ### Cells -/

section Cells

variable {manifest : DistributionManifest} {n n' : Nat} {document document' : DistributionDocument}
  {placement placement' : PlatformPlacement}

theorem place_eq_some :
    manifest.place n = some (document, placement)
      ↔ manifest.documentRoster[n / manifest.platformScope.length]? = some document
        ∧ manifest.platformScope[n % manifest.platformScope.length]? = some placement := by
  unfold DistributionManifest.place
  cases manifest.documentRoster[n / manifest.platformScope.length]? <;>
    cases manifest.platformScope[n % manifest.platformScope.length]? <;> simp

theorem place_mem (h : manifest.place n = some (document, placement)) :
    document ∈ manifest.documentRoster ∧ placement ∈ manifest.platformScope := by
  obtain ⟨hdocument, hplacement⟩ := (place_eq_some).mp h
  exact ⟨mem_of_getElem? hdocument, mem_of_getElem? hplacement⟩

/-- Every number below the expected count is a cell. -/
theorem FrozenManifest.exists_place (hm : FrozenManifest manifest) (hn : n < manifest.expectedCount) :
    ∃ document placement, manifest.place n = some (document, placement) := by
  have hwidth : 0 < manifest.platformScope.length := length_pos_iff.mpr hm.placed
  have hrow : n / manifest.platformScope.length < manifest.documentRoster.length := by
    rw [hm.count] at hn
    exact Nat.div_lt_of_lt_mul (by rwa [Nat.mul_comm])
  have hcolumn := mod_lt n hwidth
  exact ⟨_, _, (place_eq_some).mpr ⟨List.getElem?_eq_getElem hrow, List.getElem?_eq_getElem hcolumn⟩⟩

/-- No number from the expected count on is a cell. -/
theorem FrozenManifest.lt_of_place (hm : FrozenManifest manifest)
    (h : manifest.place n = some (document, placement)) : n < manifest.expectedCount := by
  obtain ⟨hdocument, -⟩ := (place_eq_some).mp h
  obtain ⟨hrow, -⟩ := List.getElem?_eq_some_iff.mp hdocument
  have hwidth : 0 < manifest.platformScope.length := length_pos_iff.mpr hm.placed
  rw [hm.count]
  exact (div_lt_iff_lt_mul hwidth).mp hrow

/-- A position in a list whose images are pairwise different is known by its image. -/
theorem getElem?_inj_of_nodup_map {α β : Type} {f : α → β} {l : List α} (hl : (l.map f).Nodup)
    {i j : Nat} {a b : α} (hi : l[i]? = some a) (hj : l[j]? = some b) (hab : f a = f b) :
    i = j := by
  have hlt : i < (l.map f).length := by
    rw [length_map]
    exact (List.getElem?_eq_some_iff.mp hi).1
  apply (List.getElem?_inj hlt hl).mp
  rw [List.getElem?_map, List.getElem?_map, hi, hj]
  exact congrArg some hab

/-- A pair of a document and a placement has one number. -/
theorem FrozenManifest.place_injective (hm : FrozenManifest manifest)
    (h : manifest.place n = some (document, placement)) (h' : manifest.place n' = some (document', placement'))
    (hdocument : document.documentItemId = document'.documentItemId)
    (hplacement : placement.key = placement'.key) : n = n' := by
  obtain ⟨hrow, hcolumn⟩ := (place_eq_some).mp h
  obtain ⟨hrow', hcolumn'⟩ := (place_eq_some).mp h'
  have hdiv := getElem?_inj_of_nodup_map hm.documents hrow hrow' hdocument
  have hmod := getElem?_inj_of_nodup_map hm.placements hcolumn hcolumn' hplacement
  rw [← div_add_mod n manifest.platformScope.length, hdiv, hmod, div_add_mod]

/-- Every pair of a document and a placement has a number. -/
theorem FrozenManifest.place_of_mem (hm : FrozenManifest manifest) (hdocument : document ∈ manifest.documentRoster)
    (hplacement : placement ∈ manifest.platformScope) :
    ∃ n, n < manifest.expectedCount ∧ manifest.place n = some (document, placement) := by
  obtain ⟨row, hrow⟩ := List.getElem?_of_mem hdocument
  obtain ⟨column, hcolumn⟩ := List.getElem?_of_mem hplacement
  have hlt : column < manifest.platformScope.length := (List.getElem?_eq_some_iff.mp hcolumn).1
  have hplace : manifest.place (row * manifest.platformScope.length + column) = some (document, placement) := by
    refine (place_eq_some).mpr ⟨?_, ?_⟩
    · rw [Nat.mul_comm, Nat.mul_add_div (Nat.zero_lt_of_lt hlt), Nat.div_eq_of_lt hlt, Nat.add_zero, hrow]
    · rw [Nat.mul_comm, Nat.mul_add_mod, Nat.mod_eq_of_lt hlt, hcolumn]
  exact ⟨_, hm.lt_of_place hplace, hplace⟩

theorem FrozenManifest.find_placement (hm : FrozenManifest manifest) (hplacement : placement ∈ manifest.platformScope) :
    (manifest.platformScope.find? fun other =>
      other.platformId = placement.platformId && other.placementSlot = placement.placementSlot)
      = some placement := by
  have hsome : (manifest.platformScope.find? fun other =>
      other.platformId = placement.platformId && other.placementSlot = placement.placementSlot).isSome := by
    rw [List.find?_isSome]
    exact ⟨placement, hplacement, by simp⟩
  obtain ⟨found, hfound⟩ := Option.isSome_iff_exists.mp hsome
  have htest := List.find?_some hfound
  simp only [Bool.and_eq_true, decide_eq_true_eq] at htest
  have hkey : found.key = placement.key := Prod.ext htest.1 htest.2
  rw [hfound, inj_on_of_nodup_map hm.placements (mem_of_find?_eq_some hfound) hplacement hkey]

variable [Sha256]

variable {cell : DistributionTarget} {manifest' : DistributionManifest}

theorem distributionCell_eq_some :
    distributionCell manifest n = some cell
      ↔ ∃ document placement, manifest.place n = some (document, placement)
        ∧ cell = cellOf manifest.manifestId n document placement := by
  simp [distributionCell, eq_comm]

theorem ordinal_of_cell (h : distributionCell manifest n = some cell) :
    cell.ordinal = n ∧ cell.manifestId = manifest.manifestId := by
  obtain ⟨_, _, -, rfl⟩ := distributionCell_eq_some.mp h
  exact ⟨rfl, rfl⟩

omit [Sha256] in
theorem targetParts_injective {id id' : Uuid}
    (h : targetParts id document placement = targetParts id' document' placement') :
    id = id' ∧ document.documentItemId = document'.documentItemId ∧ placement.key = placement'.key := by
  simp only [targetParts, List.cons.injEq, and_true] at h
  obtain ⟨hid, hdocument, hplatform, hslot⟩ := h
  exact ⟨Uuid.toString_injective hid, Uuid.toString_injective hdocument, Prod.ext hplatform hslot⟩

/-- A manifest whose cells' texts are among some texts. -/
def CellsUsed (used : List String → Prop) (manifest : DistributionManifest) : Prop :=
  ∀ document ∈ manifest.documentRoster, ∀ placement ∈ manifest.platformScope,
    used (targetParts manifest.manifestId document placement)

theorem cell_injective {used : List String → Prop} (hfree : CollisionFree used)
    {cell' : DistributionTarget} (hused : CellsUsed used manifest) (hused' : CellsUsed used manifest')
    (h : distributionCell manifest n = some cell) (h' : distributionCell manifest' n' = some cell')
    (hid : cell.targetId = cell'.targetId) :
    manifest.manifestId = manifest'.manifestId ∧ (FrozenManifest manifest → manifest' = manifest → n = n') := by
  obtain ⟨_, _, hplace, rfl⟩ := distributionCell_eq_some.mp h
  obtain ⟨_, _, hplace', rfl⟩ := distributionCell_eq_some.mp h'
  obtain ⟨hdocument, hplacement⟩ := place_mem hplace
  obtain ⟨hdocument', hplacement'⟩ := place_mem hplace'
  have hparts := hfree.identity _ _ (hused _ hdocument _ hplacement) (hused' _ hdocument' _ hplacement') hid
  obtain ⟨hmanifest, hd, hp⟩ := targetParts_injective hparts
  refine ⟨hmanifest, fun hm hsame => ?_⟩
  rw [hsame] at hplace'
  exact hm.place_injective hplace hplace' hd hp

/-- The cell of a number does not depend on how far the manifest was expanded. -/
theorem distributionCell_congr (hid : manifest'.manifestId = manifest.manifestId)
    (hplacements : manifest'.platformScope = manifest.platformScope)
    (hroster : manifest'.documentRoster = manifest.documentRoster) :
    distributionCell manifest' = distributionCell manifest := by
  funext n
  simp only [distributionCell, DistributionManifest.place, hid, hplacements, hroster]

end Cells

end GeoMaster
