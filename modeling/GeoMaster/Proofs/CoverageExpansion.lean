import GeoMaster.Proofs.CoverageShape

/-!
# Expansion loses and invents nothing

A page is committed exactly when it is the next one, a page that was committed before is answered again
without a change, and every other page is refused. Readers that follow `next_ordinal` see each target that was
there at their first page once and in order, however the targets move and however many pages are committed in
the meantime.
-/

namespace GeoMaster

open Op Except AssocMap List Option Nat

open MemoryDistributionRepository

/-! ### Lists numbered by an interval -/

theorem map_insertionSort_eq_range' {α : Type} {number : α → Nat} {l : List α} {a b : Nat}
    (hnodup : (l.map number).Nodup) (hmem : ∀ n, n ∈ l.map number ↔ a ≤ n ∧ n < b) :
    (l.insertionSort fun x y => number x ≤ number y).map number = List.range' a (b - a) := by
  have htrans : IsTrans α fun x y => number x ≤ number y := ⟨fun _ _ _ => le_trans⟩
  have htotal : Std.Total fun x y : α => number x ≤ number y := ⟨fun x y => le_total _ _⟩
  have hperm := (perm_insertionSort (fun x y => number x ≤ number y) l).map number
  have hsorted : ((l.insertionSort fun x y => number x ≤ number y).map number).Pairwise (· ≤ ·) :=
    pairwise_map.mpr (pairwise_insertionSort _ l)
  have hrange : (List.range' a (b - a)).Pairwise (· ≤ ·) := List.Pairwise.imp le_of_lt pairwise_lt_range'
  refine List.Perm.eq_of_pairwise (fun x y _ _ => Nat.le_antisymm) hsorted hrange ?_
  refine hperm.trans ((perm_ext_iff_of_nodup hnodup nodup_range').mpr fun n => ?_)
  rw [hmem, mem_range'_1]
  omega

theorem take_range'_min (a n k : Nat) : (List.range' a n).take k = List.range' a (min k n) := by
  rcases le_total n k with h | h
  · rw [take_range'_of_length_le h, min_eq_right h]
  · rw [take_range'_of_length_ge h, min_eq_left h]

/-! ### Growth -/

/-- A manifest that was only expanded. -/
structure ManifestGrown (manifest manifest' : DistributionManifest) : Prop where
  cursor : manifest.expansionCursor ≤ manifest'.expansionCursor
  rest : manifest' = { manifest with
    expansionCursor := manifest'.expansionCursor
    complete := manifest'.complete }

theorem ManifestGrown.refl (manifest : DistributionManifest) : ManifestGrown manifest manifest :=
  ⟨le_rfl, rfl⟩

theorem ManifestGrown.trans {m₁ m₂ m₃ : DistributionManifest} (h : ManifestGrown m₁ m₂)
    (h' : ManifestGrown m₂ m₃) : ManifestGrown m₁ m₃ := by
  refine ⟨h.cursor.trans h'.cursor, ?_⟩
  have h₂ := h.rest
  have h₃ := h'.rest
  rw [h₂] at h₃
  exact h₃

/-- No manifest was lost or changed but by expansion, and no version of a target. -/
structure CoverageGrown (s s' : MemoryDistributionState) : Prop where
  manifests : ∀ key manifest, s.manifests.lookup key = some manifest →
    ∃ manifest', s'.manifests.lookup key = some manifest' ∧ ManifestGrown manifest manifest'
  histories : ∀ key history, s.histories.lookup key = some history →
    ∃ history', s'.histories.lookup key = some history' ∧ History.Grows history history'

theorem CoverageGrown.refl (s : MemoryDistributionState) : CoverageGrown s s where
  manifests _ manifest h := ⟨manifest, h, .refl _⟩
  histories _ history h := ⟨history, h, .refl _⟩

theorem CoverageGrown.trans {s₁ s₂ s₃ : MemoryDistributionState} (h : CoverageGrown s₁ s₂)
    (h' : CoverageGrown s₂ s₃) : CoverageGrown s₁ s₃ where
  manifests key manifest hm := by
    obtain ⟨m₂, hm₂, hgrown⟩ := h.manifests key manifest hm
    obtain ⟨m₃, hm₃, hgrown'⟩ := h'.manifests key m₂ hm₂
    exact ⟨m₃, hm₃, hgrown.trans hgrown'⟩
  histories key history hh := by
    obtain ⟨h₂, hh₂, hgrown⟩ := h.histories key history hh
    obtain ⟨h₃, hh₃, hgrown'⟩ := h'.histories key h₂ hh₂
    exact ⟨h₃, hh₃, hgrown.trans hgrown'⟩

section Reads

variable {s : MemoryDistributionState} {afterOrdinal : Option Nat} {history : TargetHistory} {id : Uuid} {scope : TenantScope}

theorem mem_scopedHistories :
    history ∈ scopedHistories s scope ↔ ∃ targetId, s.histories.lookup (scope.storageKey, targetId) = some history := by
  simp only [scopedHistories, List.mem_map, List.mem_filter, decide_eq_true_eq]
  constructor
  · rintro ⟨⟨⟨_, targetId⟩, h⟩, ⟨hmem, rfl⟩, rfl⟩
    exact ⟨targetId, AList.mem_lookup_iff.mpr hmem⟩
  · rintro ⟨targetId, h⟩
    exact ⟨⟨(scope.storageKey, targetId), history⟩, ⟨AList.mem_lookup_iff.mp h, rfl⟩, rfl⟩

/-- Where a page after an ordinal begins. -/
def pageStart (afterOrdinal : Option Nat) : Nat :=
  afterOrdinal.elim 0 (· + 1)

theorem pageStart_le {n : Nat} : pageStart afterOrdinal ≤ n ↔ ∀ cursor ∈ afterOrdinal, cursor < n := by
  cases afterOrdinal with
  | none => simp [pageStart]
  | some cursor => simp [pageStart, succ_le_iff]

/-- All targets after an ordinal, in order. -/
def targetsAfter (s : MemoryDistributionState) (scope : TenantScope) (id : Uuid)
    (afterOrdinal : Option Nat) : List DistributionTarget :=
  sortByOrdinal
    (((scopedHistories s scope).filter fun history =>
      history.last.target.manifestId = id ∧ ∀ cursor ∈ afterOrdinal, cursor < history.last.target.ordinal).map
      fun history => history.last.target)

/-- A listed target is the last version of a stored history. -/
theorem mem_targetsAfter {target : DistributionTarget} (h : target ∈ targetsAfter s scope id afterOrdinal) :
    ∃ history ∈ scopedHistories s scope, history.last.target = target ∧ target.manifestId = id := by
  rw [targetsAfter, sortByOrdinal, mem_insertionSort] at h
  obtain ⟨history, hmem, rfl⟩ := mem_map.mp h
  rw [List.mem_filter, decide_eq_true_eq] at hmem
  exact ⟨history, hmem.1, rfl, hmem.2.1⟩

theorem listTargets_eq_ok {limit : Nat} {page : DistributionTargetPage} :
    listTargets s scope id afterOrdinal limit = .ok page
      ↔ 0 < limit ∧ ∃ manifest, s.manifests.lookup (scope.storageKey, id) = some manifest
        ∧ scope.projectId = some manifest.projectId
        ∧ page =
          { manifestId := id
            rows := (targetsAfter s scope id afterOrdinal).take limit
            nextOrdinal :=
              (((targetsAfter s scope id afterOrdinal).take limit).getLast?.map (·.ordinal)).filter
                fun ordinal => ordinal + 1 < manifest.expansionCursor
            expectedCount := manifest.expectedCount } := by
  simp only [listTargets, eq_ok_iff, scopedManifest_eq_ok, targetsAfter, Nat.pos_iff_ne_zero]
  constructor
  · rintro ⟨_, hlimit, manifest, ⟨hm, hproject⟩, rfl⟩
    exact ⟨hlimit, manifest, hm, hproject, rfl⟩
  · rintro ⟨hlimit, manifest, hm, hproject, rfl⟩
    exact ⟨(), hlimit, manifest, ⟨hm, hproject⟩, rfl⟩

end Reads

section Expansion

variable [Sha256] {used : List String → Prop} {s s' : MemoryDistributionState} (hfree : CollisionFree used)

include hfree in
theorem CoverageShape.grown {read : DateTime → Prop} (hs : CoverageShape used s)
    (h : CoverageChange used read s s') : CoverageGrown s s' := by
  cases h with
  | kept hmanifests hhistories =>
    exact ⟨fun key m hm => ⟨m, by rw [← hmanifests.lookup_eq, hm], .refl _⟩,
      fun key h hh => ⟨h, by rw [← hhistories.lookup_eq, hh], .refl _⟩⟩
  | frozen _ _ _ _ _ _ hnew hmanifests hhistories =>
    refine ⟨fun key m hm => ⟨m, ?_, .refl _⟩, fun key h hh => ⟨h, by rw [hhistories, hh], .refl _⟩⟩
    rw [hmanifests, AList.lookup_insert_ne, hm]
    rintro rfl
    rw [hnew] at hm
    simp at hm
  | @expanded _ _ _ _ _ _ hstored _ hroster hmanifests hhistories =>
    refine ⟨fun key m hm => ?_, fun key h hh => ⟨h, ?_, .refl _⟩⟩
    · rw [hmanifests, lookup_insert]
      split
      · rename_i hkey
        rw [hkey, hstored] at hm
        obtain rfl := some.inj hm
        exact ⟨_, rfl, ⟨le_add_right _ _, rfl⟩⟩
      · exact ⟨m, hm, .refl _⟩
    · rw [hhistories, recordRows_other, hh]
      intro row hrow hkey
      obtain ⟨_, hi⟩ := List.getElem?_of_mem hrow
      rw [← hkey, hs.no_history hfree hstored (le_add_right _ _) (cell_of_matchesRoster hroster hi)] at hh
      simp at hh
  | @moved key _ _ _ _ hstored _ _ hmanifests hhistories =>
    refine ⟨fun key m hm => ⟨m, by rw [hmanifests, hm], .refl _⟩, fun key' h hh => ?_⟩
    rw [hhistories, lookup_insert]
    split
    · rename_i hkey
      rw [hkey, hstored] at hh
      obtain rfl := some.inj hh
      exact ⟨_, rfl, .push _ _⟩
    · exact ⟨h, hh, .refl _⟩

include hfree in
theorem coverageGrown_run [UrlParser] [InstantJson] {events : List DistributionEvent} (hs : CoverageShape used s)
    (h : (distributionMachine.restrict (DigestsOnly used)).Run s events s') : CoverageGrown s s' :=
  h.relates (R := CoverageGrown) (fun _ _ _ hs hstep => hs.step hfree hstep) .refl
    (fun _ _ _ => .trans) (fun _ _ _ hs hstep => hs.grown hfree (step_coverage hstep)) hs

/-! ### The cells that were expanded -/

variable {afterOrdinal : Option Nat} {history : TargetHistory} {id : Uuid} {manifest : DistributionManifest}
  {scope : TenantScope}

/-- The targets of a manifest are the cells below its cursor, each with a history of its own. -/
structure ExpandedExactly (s : MemoryDistributionState) (scope : TenantScope)
    (manifest : DistributionManifest) : Prop where
  bound : manifest.expansionCursor ≤ manifest.expectedCount
  pairs : ∀ document ∈ manifest.documentRoster, ∀ placement ∈ manifest.platformScope,
    ∃! n, n < manifest.expectedCount ∧ manifest.place n = some (document, placement)
  cells : ∀ n, n < manifest.expectedCount ↔ (distributionCell manifest n).isSome
  distinct : ∀ n n' cell cell', distributionCell manifest n = some cell →
    distributionCell manifest n' = some cell' → cell.targetId = cell'.targetId → n = n'
  targets : ∀ targetId,
    (∃ history, s.histories.lookup (scope.storageKey, targetId) = some history
        ∧ history.last.target.manifestId = manifest.manifestId)
      ↔ ∃ n cell, n < manifest.expansionCursor ∧ distributionCell manifest n = some cell ∧ cell.targetId = targetId
  histories : ∀ targetId history, s.histories.lookup (scope.storageKey, targetId) = some history →
    history.last.target.manifestId = manifest.manifestId →
    distributionCell manifest history.first.target.ordinal = some history.first.target ∧ history.first.target.targetId
      = targetId ∧ history.entries.map (fun v => v.target.version) = List.range' 1 history.entries.length
      ∧ history.entries.Pairwise (fun v v' => v.recordedAt < v'.recordedAt) ∧ ∀ v ∈ history.entries, SameCell
      history.first.target v.target
  complete : manifest.complete = true
    ↔ ∀ n < manifest.expectedCount, ∃ cell, distributionCell manifest n = some cell
      ∧ (s.histories.lookup (scope.storageKey, cell.targetId)).isSome

/-- A history counts its versions from one, each later than the one before. -/
theorem StoredHistory.numbered {k : String} {targetId : Uuid} (h : StoredHistory s k targetId history) :
    history.entries.map (fun v => v.target.version) = List.range' 1 history.entries.length
      ∧ history.entries.Pairwise fun v v' => v.recordedAt < v'.recordedAt := by
  obtain ⟨_, -, -, hcell⟩ := h.origin
  obtain ⟨_, _, -, hfirst⟩ := distributionCell_eq_some.mp hcell
  have hone : history.first.target.version = 1 := congrArg DistributionTarget.version hfirst
  have hnumbered : history.Chain fun v v' => v'.target.version = v.target.version + 1 :=
    h.chain.imp fun _ _ hnext => hnext.version
  have hversions := hnumbered.numbered
  rw [hone] at hversions
  have htimes : history.Chain fun v v' => v.recordedAt < v'.recordedAt := h.chain.imp fun _ _ hnext => hnext.later
  have htrans : IsTrans DistributionTargetVersion fun v v' => v.recordedAt < v'.recordedAt :=
    ⟨fun _ _ _ => Int.lt_trans⟩
  exact ⟨hversions, isChain_iff_pairwise.mp htimes⟩

section

variable (hs : CoverageShape used s) (hstored : s.manifests.lookup (scope.storageKey, id) = some manifest)

include hs

/-- Histories of one scope that begin with one cell are one history. -/
theorem CoverageShape.history_unique {k : String} {targetId targetId' : Uuid}
    {history' : TargetHistory} (h : s.histories.lookup (k, targetId) = some history)
    (h' : s.histories.lookup (k, targetId') = some history')
    (hmanifest : history.first.target.manifestId = history'.first.target.manifestId)
    (hordinal : history.first.target.ordinal = history'.first.target.ordinal) : targetId = targetId' := by
  have hstored := hs.histories _ _ _ h
  have hstored' := hs.histories _ _ _ h'
  obtain ⟨_, hm, -, hcell⟩ := hstored.origin
  obtain ⟨_, hm', -, hcell'⟩ := hstored'.origin
  rw [← hmanifest, hm] at hm'
  obtain rfl := some.inj hm'
  rw [← hordinal, hcell] at hcell'
  rw [← hstored.keyed, ← hstored'.keyed, some.inj hcell']

/-- The histories of a manifest that meet a condition have different ordinals. -/
theorem CoverageShape.ordinals_nodup (keep : TargetHistory → Bool) :
    (((scopedHistories s scope).filter fun history =>
      history.first.target.manifestId = id && keep history).map fun history => history.first.target.ordinal).Nodup := by
  rw [scopedHistories, List.filter_map, List.map_map]
  have hentries : s.histories.entries.Nodup := s.histories.nodupKeys.nodup
  refine List.Nodup.map_on ?_ ((hentries.filter _).filter _)
  rintro ⟨⟨k, targetId⟩, history⟩ hmem ⟨⟨k', targetId'⟩, history'⟩ hmem' hordinal
  simp only [List.mem_filter, Function.comp_apply, Bool.and_eq_true, decide_eq_true_eq] at hmem hmem'
  obtain ⟨⟨hentry, rfl⟩, hid, -⟩ := hmem
  obtain ⟨⟨hentry', rfl⟩, hid', -⟩ := hmem'
  have hlookup := AList.mem_lookup_iff.mpr hentry
  have hlookup' := AList.mem_lookup_iff.mpr hentry'
  obtain rfl := hs.history_unique hlookup hlookup' (hid.trans hid'.symm) hordinal
  rw [hlookup'] at hlookup
  rw [some.inj hlookup]

theorem CoverageShape.sameCell (h : history ∈ scopedHistories s scope)
    {v : DistributionTargetVersion} (hv : v ∈ history.entries) : SameCell history.first.target v.target := by
  obtain ⟨_, hhistory⟩ := mem_scopedHistories.mp h
  exact (hs.histories _ _ _ hhistory).sameCell hv

include hstored

/-- The ordinals of the histories of a manifest that meet a condition. -/
theorem CoverageShape.mem_ordinals (keep : TargetHistory → Bool) (n : Nat) :
    n ∈ (((scopedHistories s scope).filter fun history =>
      history.first.target.manifestId = id && keep history).map fun history => history.first.target.ordinal)
      ↔ n < manifest.expansionCursor ∧ ∃ cell history, distributionCell manifest n = some cell ∧ s.histories.lookup
        (scope.storageKey, cell.targetId) = some history ∧ history.first.target = cell ∧ keep history = true := by
  simp only [List.mem_map, List.mem_filter, Bool.and_eq_true, decide_eq_true_eq, mem_scopedHistories]
  constructor
  · rintro ⟨history, ⟨⟨_, hhistory⟩, hid, hkeep⟩, rfl⟩
    have hshape := hs.histories _ _ _ hhistory
    obtain ⟨_, hm', hlt, hcell⟩ := hshape.origin
    rw [hid, hstored] at hm'
    obtain rfl := some.inj hm'
    exact ⟨hlt, _, history, hcell, by rw [hshape.keyed, hhistory], rfl, hkeep⟩
  · rintro ⟨_, _, history, hcell, hhistory, rfl, hkeep⟩
    obtain ⟨hordinal, hmanifest⟩ := ordinal_of_cell hcell
    have hkeyed := (hs.manifests _ _ _ hstored).keyed
    exact ⟨history, ⟨⟨_, hhistory⟩, hmanifest.trans hkeyed, hkeep⟩, hordinal⟩

include hfree in
theorem CoverageShape.expandedExactly : ExpandedExactly s scope manifest := by
  have hm := hs.manifests _ _ _ hstored
  have hsame {targetId : Uuid} {history : TargetHistory}
      (hhistory : s.histories.lookup (scope.storageKey, targetId) = some history)
      (hmember : history.last.target.manifestId = manifest.manifestId) :
      history.first.target.ordinal < manifest.expansionCursor
        ∧ distributionCell manifest history.first.target.ordinal = some history.first.target := by
    have hshape := hs.histories _ _ _ hhistory
    obtain ⟨origin, horigin, hlt, hcell⟩ := hshape.origin
    rw [← (hshape.sameCell history.last_mem).manifestId, hmember, hm.keyed, hstored] at horigin
    obtain rfl := some.inj horigin
    exact ⟨hlt, hcell⟩
  constructor
  case bound => exact hm.bound
  case pairs =>
    intro document hdocument placement hplacement
    obtain ⟨n, hlt, hplace⟩ := hm.frozen.place_of_mem hdocument hplacement
    refine ⟨n, ⟨hlt, hplace⟩, ?_⟩
    rintro n' ⟨-, hplace'⟩
    exact hm.frozen.place_injective hplace' hplace rfl rfl
  case cells =>
    intro n
    constructor
    · intro hlt
      obtain ⟨document, placement, hplace⟩ := hm.frozen.exists_place hlt
      rw [distributionCell_eq_some.mpr ⟨document, placement, hplace, rfl⟩]
      rfl
    · intro hcell
      obtain ⟨_, hcell⟩ := isSome_iff_exists.mp hcell
      obtain ⟨_, _, hplace, -⟩ := distributionCell_eq_some.mp hcell
      exact hm.frozen.lt_of_place hplace
  case distinct =>
    intro n n' cell cell' hcell hcell' hid
    exact (cell_injective hfree hm.used hm.used hcell hcell' hid).2 hm.frozen rfl
  case targets =>
    intro targetId
    constructor
    · rintro ⟨history, hhistory, hmember⟩
      obtain ⟨hlt, hcell⟩ := hsame hhistory hmember
      exact ⟨_, _, hlt, hcell, (hs.histories _ _ _ hhistory).keyed⟩
    · rintro ⟨n, cell, hlt, hcell, rfl⟩
      obtain ⟨history, hhistory, hfirst⟩ := hs.expanded _ _ _ n cell hstored hlt hcell
      refine ⟨history, hhistory, ?_⟩
      rw [((hs.histories _ _ _ hhistory).sameCell history.last_mem).manifestId, hfirst]
      exact (ordinal_of_cell hcell).2
  case histories =>
    intro targetId history hhistory hmember
    have hshape := hs.histories _ _ _ hhistory
    obtain ⟨hversions, htimes⟩ := hshape.numbered
    exact ⟨(hsame hhistory hmember).2, hshape.keyed, hversions, htimes, fun v hv => hshape.sameCell hv⟩
  case complete =>
    rw [hm.complete, decide_eq_true_eq]
    constructor
    · intro hall n hn
      obtain ⟨document, placement, hplace⟩ := hm.frozen.exists_place hn
      have hcell := distributionCell_eq_some.mpr ⟨document, placement, hplace, rfl⟩
      obtain ⟨_, hhistory, -⟩ := hs.expanded _ _ _ n _ hstored (by omega) hcell
      exact ⟨_, hcell, by rw [hhistory]; rfl⟩
    · intro hall
      refine Nat.le_antisymm hm.bound (Nat.le_of_not_lt fun hlt => ?_)
      -- The cell at the cursor would have no history yet.
      obtain ⟨_, hcell, hhistory⟩ := hall _ hlt
      rw [hs.no_history hfree hstored le_rfl hcell] at hhistory
      simp at hhistory

theorem CoverageShape.targetsAfter_ordinals (afterOrdinal : Option Nat) :
    (targetsAfter s scope id afterOrdinal).map DistributionTarget.ordinal
      = List.range' (pageStart afterOrdinal) (manifest.expansionCursor - pageStart afterOrdinal) := by
  let keep : TargetHistory → Bool := fun history => pageStart afterOrdinal ≤ history.first.target.ordinal
  have hfilter : ((scopedHistories s scope).filter fun history =>
      history.last.target.manifestId = id ∧ ∀ cursor ∈ afterOrdinal, cursor < history.last.target.ordinal)
      = (scopedHistories s scope).filter fun history =>
        history.first.target.manifestId = id && keep history := by
    refine filter_congr fun history hhistory => ?_
    have hsame := hs.sameCell hhistory history.last_mem
    simp only [keep, pageStart_le, hsame.manifestId, hsame.ordinal, Bool.decide_and]
  have hordinals : (((scopedHistories s scope).filter fun history =>
      history.first.target.manifestId = id && keep history).map
        fun history => history.last.target).map DistributionTarget.ordinal
      = ((scopedHistories s scope).filter fun history =>
        history.first.target.manifestId = id && keep history).map fun history => history.first.target.ordinal := by
    rw [List.map_map]
    refine map_congr_left fun history hhistory => ?_
    exact (hs.sameCell (mem_of_mem_filter hhistory) history.last_mem).ordinal
  rw [targetsAfter, sortByOrdinal, hfilter]
  apply map_insertionSort_eq_range'
  · rw [hordinals]
    exact hs.ordinals_nodup keep
  · intro n
    rw [hordinals, hs.mem_ordinals hstored keep]
    constructor
    · rintro ⟨hlt, _, history, hcell, -, hfirst, hkeep⟩
      rw [← (ordinal_of_cell hcell).1, ← hfirst]
      refine ⟨of_decide_eq_true hkeep, ?_⟩
      rw [hfirst, (ordinal_of_cell hcell).1]
      exact hlt
    · rintro ⟨hle, hlt⟩
      have hm := hs.manifests _ _ _ hstored
      obtain ⟨document, placement, hplace⟩ := hm.frozen.exists_place (hlt.trans_le hm.bound)
      have hcell := distributionCell_eq_some.mpr ⟨document, placement, hplace, rfl⟩
      obtain ⟨history, hhistory, hfirst⟩ := hs.expanded _ _ _ n _ hstored hlt hcell
      refine ⟨hlt, _, history, hcell, hhistory, hfirst, ?_⟩
      simp only [keep, hfirst, decide_eq_true_eq]
      exact hle

/-- What one page shows: the next cells in order, and whether there are more. -/
theorem CoverageShape.page {limit : Nat} {page : DistributionTargetPage}
    (h : listTargets s scope id afterOrdinal limit = .ok page) :
    ∃ n, page.rows.map DistributionTarget.ordinal = List.range' (pageStart afterOrdinal) n
      ∧ (page.nextOrdinal = none → manifest.expansionCursor ≤ pageStart afterOrdinal + n)
      ∧ ∀ ordinal, page.nextOrdinal = some ordinal →
        ordinal + 1 = pageStart afterOrdinal + n ∧ ordinal + 1 < manifest.expansionCursor
          ∧ pageStart afterOrdinal ≤ ordinal := by
  obtain ⟨_, _, hm', -, rfl⟩ := listTargets_eq_ok.mp h
  rw [hstored] at hm'
  obtain rfl := some.inj hm'
  have hrows : ((targetsAfter s scope id afterOrdinal).take limit).map DistributionTarget.ordinal
      = List.range' (pageStart afterOrdinal) (min limit (manifest.expansionCursor - pageStart afterOrdinal)) := by
    rw [map_take, hs.targetsAfter_ordinals hstored afterOrdinal, take_range'_min]
  refine ⟨min limit (manifest.expansionCursor - pageStart afterOrdinal), hrows, ?_⟩
  have hlast : ((targetsAfter s scope id afterOrdinal).take limit).getLast?.map (·.ordinal)
      = (List.range' (pageStart afterOrdinal)
        (min limit (manifest.expansionCursor - pageStart afterOrdinal))).getLast? := by
    rw [← hrows, List.getLast?_map]
  simp only [hlast, List.getLast?_range']
  by_cases hempty : min limit (manifest.expansionCursor - pageStart afterOrdinal) = 0
  · simp only [hempty, if_true]
    refine ⟨fun _ => by omega, fun ordinal hnext => by simp at hnext⟩
  · simp only [hempty, if_false, filter_some, decide_eq_true_eq]
    constructor
    · intro hnone
      split at hnone
      · simp at hnone
      · omega
    · intro ordinal hsome
      split at hsome
      · have hordinal := some.inj hsome
        omega
      · simp at hsome

/-- A scope whose key finds a manifest is the scope of its project. -/
theorem CoverageShape.project : scope.projectId = some manifest.projectId := by
  obtain ⟨_, hkey, hproject⟩ := (hs.manifests _ _ _ hstored).scope
  rw [← TenantScope.storageKey_injective hkey]
  exact hproject

end

/-! ### Pages -/

/-- The pages of a reader who follows the next ordinal, while any calls are made between two pages. -/
inductive Pages [UrlParser] [InstantJson] (used : List String → Prop) (scope : TenantScope)
    (id : Uuid) : MemoryDistributionState → Option Nat → List DistributionTarget → Prop where
  /-- The last page. -/
  | last {s : MemoryDistributionState} {afterOrdinal : Option Nat} {limit : Nat} {page : DistributionTargetPage}
      (hpage : listTargets s scope id afterOrdinal limit = .ok page)
      (hnext : page.nextOrdinal = none) : Pages used scope id s afterOrdinal page.rows
  /-- A page, and the ones after it. -/
  | more {s s' : MemoryDistributionState} {afterOrdinal : Option Nat} {limit ordinal : Nat}
      {page : DistributionTargetPage} {rest : List DistributionTarget}
      (hpage : listTargets s scope id afterOrdinal limit = .ok page) (hnext : page.nextOrdinal = some ordinal)
      (hmeanwhile : (distributionMachine.restrict (DigestsOnly used)).Reachable s s')
      (hrest : Pages used scope id s' (some ordinal) rest) :
      Pages used scope id s afterOrdinal (page.rows ++ rest)

omit [Sha256] in
theorem ManifestGrown.cells [Sha256] {manifest' : DistributionManifest} (h : ManifestGrown manifest manifest') :
    distributionCell manifest' = distributionCell manifest := by
  rw [h.rest]
  exact distributionCell_congr rfl rfl rfl

include hfree in
/-- The pages show every cell from the first one on, and at least all that were expanded. -/
theorem Pages.ordinals [UrlParser] [InstantJson] {rows : List DistributionTarget}
    (h : Pages used scope id s afterOrdinal rows) (hs : CoverageShape used s)
    (hstored : s.manifests.lookup (scope.storageKey, id) = some manifest) :
    ∃ n, rows.map DistributionTarget.ordinal = List.range' (pageStart afterOrdinal) n
      ∧ manifest.expansionCursor ≤ pageStart afterOrdinal + n := by
  induction h generalizing manifest with
  | last hpage hnext =>
    obtain ⟨n, hrows, hlast, -⟩ := hs.page hstored hpage
    exact ⟨n, hrows, hlast hnext⟩
  | more hpage hnext hmeanwhile _ ih =>
    obtain ⟨n, hrows, -, hmore⟩ := hs.page hstored hpage
    obtain ⟨hordinal, -, -⟩ := hmore _ hnext
    obtain ⟨_, hrun⟩ := hmeanwhile
    obtain ⟨_, hstored', hgrown⟩ := (coverageGrown_run hfree hs hrun).manifests _ _ hstored
    have hs' := hrun.invariant (fun _ _ _ hs hstep => hs.step hfree hstep) hs
    obtain ⟨n', hrows', hle⟩ := ih hs' hstored'
    refine ⟨n + n', ?_, ?_⟩
    · rw [map_append, hrows, hrows', show pageStart (some _) = _ from hordinal]
      exact range'_append_1 ..
    · have hcursor := hgrown.cursor
      rw [show pageStart (some _) = _ from hordinal] at hle
      omega

include hfree in
/-- Every row a reader sees is a version of the cell of its ordinal. -/
theorem Pages.cells [UrlParser] [InstantJson] {rows : List DistributionTarget}
    (h : Pages used scope id s afterOrdinal rows) (hs : CoverageShape used s)
    (hstored : s.manifests.lookup (scope.storageKey, id) = some manifest) {row : DistributionTarget}
    (hrow : row ∈ rows) : ∃ cell, distributionCell manifest row.ordinal = some cell ∧ SameCell cell row := by
  have hshown {s : MemoryDistributionState} {manifest : DistributionManifest} {afterOrdinal : Option Nat}
      {limit : Nat} {page : DistributionTargetPage} (hs : CoverageShape used s)
      (hstored : s.manifests.lookup (scope.storageKey, id) = some manifest)
      (hpage : listTargets s scope id afterOrdinal limit = .ok page) (hrow : row ∈ page.rows) :
      ∃ cell, distributionCell manifest row.ordinal = some cell ∧ SameCell cell row := by
    obtain ⟨-, _, -, -, rfl⟩ := listTargets_eq_ok.mp hpage
    obtain ⟨history, hmem, rfl, hid⟩ := mem_targetsAfter (mem_of_mem_take hrow)
    have hsame := hs.sameCell hmem history.last_mem
    obtain ⟨_, hlookup⟩ := mem_scopedHistories.mp hmem
    obtain ⟨origin, horigin, -, hcell⟩ := (hs.histories _ _ _ hlookup).origin
    rw [← hsame.manifestId, hid, hstored] at horigin
    obtain rfl := some.inj horigin
    exact ⟨_, by rw [hsame.ordinal]; exact hcell, hsame⟩
  induction h generalizing manifest with
  | last hpage hnext => exact hshown hs hstored hpage hrow
  | more hpage _ hmeanwhile _ ih =>
    rcases mem_append.mp hrow with hrow | hrow
    · exact hshown hs hstored hpage hrow
    · obtain ⟨_, hrun⟩ := hmeanwhile
      obtain ⟨_, hstored', hgrown⟩ := (coverageGrown_run hfree hs hrun).manifests _ _ hstored
      have hs' := hrun.invariant (fun _ _ _ hs hstep => hs.step hfree hstep) hs
      rw [← hgrown.cells]
      exact ih hs' hstored' hrow

/-! ### Commits -/

section Commits

variable {scope : TenantScope} {id : Uuid} {manifest : DistributionManifest}

/-- When a page is committed, and what is returned and left. -/
theorem CoverageShape.commit (hs : CoverageShape used s)
    (hstored : s.manifests.lookup (scope.storageKey, id) = some manifest)
    (hproject : scope.projectId = some manifest.projectId) {cursor : Nat}
    {rows : List DistributionTarget} {clock : Nat → DateTime} {reply : DistributionManifest} :
    (commitExpansionPage scope id cursor rows clock).Returns s reply s'
      ↔ rows ≠ [] ∧ cursor + rows.length ≤ manifest.expectedCount ∧ matchesRoster manifest cursor rows = true
        ∧ ((cursor + rows.length ≤ manifest.expansionCursor ∧ reply = manifest ∧ s' = s)
          ∨ (cursor = manifest.expansionCursor
            ∧ reply = { manifest with
              expansionCursor := cursor + rows.length
              complete := cursor + rows.length = manifest.expectedCount }
            ∧ s' = (recordRows scope clock 0 rows s).insertManifest (scope.storageKey, id) reply)) := by
  constructor
  · intro h
    obtain ⟨_, hm', -, hrows, hbound, hroster, hdone⟩ := commitExpansionPage_returns h
    rw [hstored] at hm'
    obtain rfl := some.inj hm'
    refine ⟨hrows, hbound, hroster, ?_⟩
    rcases hdone with ⟨-, hlast, -, hreply, hs'⟩ | hnext
    · exact .inl ⟨hlast, hreply, hs'⟩
    · exact .inr hnext
  · rintro ⟨hrows, _, hroster, hdone⟩
    have hlength : 0 < rows.length := length_pos_iff.mpr hrows
    have hcapacity := (hs.manifests _ _ _ hstored).frozen.capacity
    simp only [commitExpansionPage, returns_iff, scopedManifest_eq_ok]
    refine ⟨(), s, ⟨hrows, rfl⟩, s, s, ⟨rfl, rfl⟩, manifest, s, ⟨⟨hstored, hproject⟩, rfl⟩, (), s,
      ⟨by omega, rfl⟩, (), s, ⟨?_, rfl⟩, ?_⟩
    · rintro (hlarge | hdiffers)
      · omega
      · exact hdiffers hroster
    · rcases hdone with ⟨hlast, hreply, hs'⟩ | ⟨hcursor, hreply, hs'⟩
      · have hcursor : manifest.expansionCursor ≠ cursor := by omega
        -- The rows are cells below the cursor, so each began a history.
        have hdone : alreadyCommitted s scope rows = true := by
          refine all_eq_true.mpr fun row hrow => ?_
          obtain ⟨i, hi⟩ := List.getElem?_of_mem hrow
          have hlt := (List.getElem?_eq_some_iff.mp hi).1
          obtain ⟨_, hhistory, hfirst⟩ := hs.expanded _ _ _ (cursor + i) row hstored
            (by omega) (cell_of_matchesRoster hroster hi)
          rw [hhistory]
          exact decide_eq_true hfirst
        rw [if_pos hcursor]
        simp only [returns_iff]
        exact ⟨(), s, ⟨fun h => h ⟨hlast, hdone⟩, rfl⟩, hreply.symm, hs'.symm⟩
      · rw [if_neg fun hdiffers => hdiffers hcursor.symm]
        simp only [returns_iff]
        rw [hreply] at hs'
        exact ⟨(), _, rfl, hreply.symm, hs'.symm⟩

theorem matchesRoster_congr {manifest' : DistributionManifest} {cursor : Nat}
    {rows : List DistributionTarget} (h : distributionCell manifest' = distributionCell manifest) :
    matchesRoster manifest' cursor rows = matchesRoster manifest cursor rows := by
  simp only [matchesRoster, h]

end Commits

/-! ### Every manifest is expanded exactly -/

include hfree in
/-- Expansion loses and invents nothing. The targets of a stored manifest are the cells below its cursor; a
page is committed when it is the next one, answered again without a change when it was committed before, and
refused without a change otherwise; a reader gets the targets in order, each once, and comes to an end. -/
theorem coverageExpansion_exact [UrlParser] [InstantJson] {events : List DistributionEvent}
    (hrun : (distributionMachine.restrict (DigestsOnly used)).Run .empty events s) {scope : TenantScope} {id : Uuid}
    {manifest : DistributionManifest} (hstored : s.manifests.lookup (scope.storageKey, id) = some manifest) :
    ExpandedExactly s scope manifest
      ∧ (∀ cursor rows clock, rows ≠ [] → matchesRoster manifest cursor rows = true →
        cursor + rows.length ≤ manifest.expansionCursor →
        (commitExpansionPage scope id cursor rows clock).Returns s manifest s)
      ∧ (∀ cursor rows clock, rows ≠ [] → matchesRoster manifest cursor rows = true →
        cursor = manifest.expansionCursor → cursor + rows.length ≤ manifest.expectedCount →
        ∃ reply s', (commitExpansionPage scope id cursor rows clock).Returns s reply s'
          ∧ reply.expansionCursor = cursor + rows.length)
      ∧ (∀ cursor rows clock,
        ¬ (rows ≠ [] ∧ matchesRoster manifest cursor rows = true
          ∧ (cursor + rows.length ≤ manifest.expansionCursor
            ∨ cursor = manifest.expansionCursor ∧ cursor + rows.length ≤ manifest.expectedCount)) →
        ∃ err, (commitExpansionPage scope id cursor rows clock).Fails s err s)
      ∧ (∀ s₁ s₂ before later cursor rows clock clock' reply,
        (distributionMachine.restrict (DigestsOnly used)).Run .empty before s₁ →
        (commitExpansionPage scope id cursor rows clock).Returns s₁ reply s₂ →
        (distributionMachine.restrict (DigestsOnly used)).Run s₂ later s →
        (commitExpansionPage scope id cursor rows clock').Returns s manifest s)
      ∧ (∀ afterOrdinal limit, 0 < limit →
        ∃ page, listTargets s scope id afterOrdinal limit = .ok page
          ∧ ∀ ordinal, page.nextOrdinal = some ordinal →
            pageStart afterOrdinal ≤ ordinal ∧ ordinal + 1 < manifest.expectedCount)
      ∧ ∀ rows, Pages used scope id s none rows →
        ∃ n, manifest.expansionCursor ≤ n ∧ rows.map DistributionTarget.ordinal = List.range n
          ∧ ∀ row ∈ rows, ∃ cell, distributionCell manifest row.ordinal = some cell ∧ SameCell cell row := by
  have hs := coverageShape_run hfree hrun
  have hproject := hs.project hstored
  have hbound := (hs.manifests _ _ _ hstored).bound
  refine ⟨hs.expandedExactly hfree hstored, ?replay, ?next, ?refused, ?replayed, ?progress, ?pages⟩
  case replay =>
    intro cursor rows clock hrows hroster hlast
    exact (hs.commit hstored hproject).mpr ⟨hrows, hlast.trans hbound, hroster, .inl ⟨hlast, rfl, rfl⟩⟩
  case next =>
    intro cursor rows clock hrows hroster hcursor hlast
    exact ⟨_, _, (hs.commit hstored hproject).mpr ⟨hrows, hlast, hroster, .inr ⟨hcursor, rfl, rfl⟩⟩, rfl⟩
  case refused =>
    intro cursor rows clock hother
    rcases returns_or_fails (commitExpansionPage scope id cursor rows clock) s with
      ⟨reply, s', hreturns⟩ | ⟨err, s', hfails⟩
    · obtain ⟨hrows, hlast, hroster, hdone⟩ := (hs.commit hstored hproject).mp hreturns
      refine absurd ⟨hrows, hroster, ?_⟩ hother
      rcases hdone with ⟨hle, -, -⟩ | ⟨hcursor, -, -⟩
      · exact .inl hle
      · exact .inr ⟨hcursor, hlast⟩
    · obtain rfl := (commitExpansionPage_atomic scope id cursor rows clock).failed s err s' hfails
      exact ⟨err, hfails⟩
  case replayed =>
    intro s₁ s₂ before later cursor rows clock clock' reply hbefore hreturns hlater
    have hs₁ := coverageShape_run hfree hbefore
    have hstep : (distributionMachine.restrict (DigestsOnly used)).step s₁
        (.call (.commitExpansionPage scope id cursor rows clock) (.ok (.manifest reply))) s₂ := by
      refine ⟨fun text htext => (by cases htext), ?_⟩
      exact reply_returns.mpr ⟨reply, hreturns, rfl⟩
    obtain ⟨m₁, hm₁, -, -, -, -, -⟩ := commitExpansionPage_returns hreturns
    obtain ⟨hrows, _, hroster, hdone⟩ := (hs₁.commit hm₁ (hs₁.project hm₁)).mp hreturns
    have hcommitted : ∃ m₂, s₂.manifests.lookup (scope.storageKey, id) = some m₂
        ∧ cursor + rows.length ≤ m₂.expansionCursor := by
      rcases hdone with ⟨hle, -, rfl⟩ | ⟨-, hreply, rfl⟩
      · exact ⟨m₁, hm₁, hle⟩
      · refine ⟨reply, AList.lookup_insert _, ?_⟩
        rw [hreply]
    have hs₂ := hs₁.step hfree hstep
    obtain ⟨_, hm₂, hle⟩ := hcommitted
    obtain ⟨_, hm₂', hgrown⟩ := (hs₁.grown hfree (step_coverage hstep)).manifests _ _ hm₁
    obtain ⟨_, hm, hgrown'⟩ := (coverageGrown_run hfree hs₂ hlater).manifests _ _ hm₂
    rw [hm₂] at hm₂'
    rw [hstored] at hm
    obtain rfl := some.inj hm₂'
    obtain rfl := some.inj hm
    have hcells := (hgrown.trans hgrown').cells
    exact (hs.commit hstored hproject).mpr
      ⟨hrows, (hle.trans hgrown'.cursor).trans hbound, by rw [matchesRoster_congr hcells, hroster],
        .inl ⟨hle.trans hgrown'.cursor, rfl, rfl⟩⟩
  case progress =>
    intro afterOrdinal limit hlimit
    refine ⟨_, listTargets_eq_ok.mpr ⟨hlimit, manifest, hstored, hproject, rfl⟩, ?_⟩
    intro ordinal hnext
    obtain ⟨_, -, -, hmore⟩ := hs.page hstored (listTargets_eq_ok.mpr ⟨hlimit, manifest, hstored, hproject, rfl⟩)
    obtain ⟨-, _, hle⟩ := hmore ordinal hnext
    exact ⟨hle, by omega⟩
  case pages =>
    intro rows hpages
    obtain ⟨n, hrows, hle⟩ := hpages.ordinals hfree hs hstored
    refine ⟨n, by simpa [pageStart] using hle, ?_, fun row hrow =>
      hpages.cells hfree hs hstored hrow⟩
    rw [hrows]
    exact (range_eq_range' ..).symm

end Expansion

namespace Sample

def twoPlacements : FreezeDistribution :=
  coverageInput (uuid 10) (uuid 100) [placement "zhihu" false, placement "weibo" false]

theorem frozen_twoPlacements : (frozen twoPlacements).isSome = true := by
  decide +kernel

def twoCells : DistributionManifest :=
  (frozen twoPlacements).get frozen_twoPlacements

/-- Two cells are frozen and the first one is expanded. -/
def firstExpanded : List DistributionCall :=
  [.freeze scope twoPlacements 5,
    .commitExpansionPage scope twoCells.manifestId 0 (@distributionCell secureHash twoCells 0).toList fun _ => 6]

theorem firstExpanded_allowed :
    Calls.Allowed runSecure
      (@DigestsOnly secureHash noLinks freezeInstant (· ∈ cellTexts twoCells)) .empty firstExpanded :=
  ⟨fun _ htext => mem_cellTexts frozen_twoPlacements htext, fun _ htext => (by cases htext), trivial⟩

end Sample

open Sample

theorem coverageExpansion_exact_sample :
    ∃ manifest : DistributionManifest, manifest.expansionCursor = 1
      ∧ @ExpandedExactly secureHash (Calls.after runSecure .empty firstExpanded)
        scope manifest := by
  let key := (scope.storageKey, twoCells.manifestId)
  have hfree : @CollisionFree secureHash (· ∈ cellTexts twoCells) :=
    @collisionFree_of_nodup secureHash _ (by decide +kernel)
  have hrun := runSecure_allowed firstExpanded .empty firstExpanded_allowed
  have hexpanded :
      ((Calls.after runSecure .empty firstExpanded).manifests.lookup key).map
        DistributionManifest.expansionCursor = some 1 := by
    decide +kernel
  obtain ⟨manifest, hlookup, hcursor⟩ := map_eq_some_iff.mp hexpanded
  exact ⟨manifest, hcursor, (@coverageExpansion_exact secureHash _ _ hfree noLinks
    freezeInstant _ hrun _ _ _ hlookup).1⟩

end GeoMaster
