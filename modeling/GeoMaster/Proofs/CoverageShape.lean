import GeoMaster.Proofs.CoverageCells
import GeoMaster.Proofs.DistributionEffects

/-!
# The shape of the coverage

The manifests and the target histories of a reachable state fit together: the histories are exactly those of
the cells below each expansion cursor, each begins with its cell, and each later version is one number and at
least one instant later and keeps the cell. `CoverageChange` is all a step does to the two maps.
-/

namespace GeoMaster

open AssocMap List MemoryDistributionState History

open MemoryDistributionRepository

/-! ### What is written -/

/-- Two versions of one cell. -/
structure SameCell (target target' : DistributionTarget) : Prop where
  targetId : target'.targetId = target.targetId
  manifestId : target'.manifestId = target.manifestId
  ordinal : target'.ordinal = target.ordinal
  documentItemId : target'.documentItemId = target.documentItemId
  contentRevisionId : target'.contentRevisionId = target.contentRevisionId
  platformId : target'.platformId = target.platformId
  placementSlot : target'.placementSlot = target.placementSlot

theorem SameCell.trans {t₁ t₂ t₃ : DistributionTarget} (h : SameCell t₁ t₂) (h' : SameCell t₂ t₃) : SameCell t₁ t₃ where
  targetId := h'.targetId.trans h.targetId
  manifestId := h'.manifestId.trans h.manifestId
  ordinal := h'.ordinal.trans h.ordinal
  documentItemId := h'.documentItemId.trans h.documentItemId
  contentRevisionId := h'.contentRevisionId.trans h.contentRevisionId
  platformId := h'.platformId.trans h.platformId
  placementSlot := h'.placementSlot.trans h.placementSlot

theorem SameCell.refl (target : DistributionTarget) : SameCell target target := by
  constructor <;> rfl

theorem sameCell_putOff (old : DistributionTarget) (reason : String) : SameCell old (putOff old reason) := by
  constructor <;> rfl

theorem sameCell_boundTarget (old : DistributionTarget) (variantId accountId intentId : Uuid)
    (previous : Option PublicationIntent) : SameCell old (boundTarget old variantId accountId previous intentId) := by
  constructor <;> rfl

section Frames

variable (s : MemoryDistributionState)

@[simp]
theorem keepVariant_coverage (key : String × Uuid) (variant : ChannelVariant) :
    (s.keepVariant key variant).manifests = s.manifests ∧ (s.keepVariant key variant).histories = s.histories := by
  unfold keepVariant
  split <;> exact ⟨rfl, rfl⟩

@[simp]
theorem keepRevision_coverage (key : String × Uuid) (revision : ContentRevision) :
    (s.keepRevision key revision).manifests = s.manifests ∧ (s.keepRevision key revision).histories = s.histories := by
  unfold keepRevision
  split <;> exact ⟨rfl, rfl⟩

theorem storePublication_coverage (scope : TenantScope) (previous : Option PublicationIntent)
    (intent : PublicationIntent) (command : PublicationCommand) (variant : ChannelVariant)
    (revision : ContentRevision) :
    (storePublication scope previous intent command variant revision s).manifests = s.manifests
      ∧ (storePublication scope previous intent command variant revision s).histories = s.histories := by
  unfold storePublication
  cases previous with
  | some prior => simp
  | none => simp [insertIntent, insertCommand]

theorem keepOrigin_coverage (scope : TenantScope) (request : ContentDistributionRequest) (intent : PublicationIntent) :
    (keepOrigin scope request intent s).manifests = s.manifests
      ∧ (keepOrigin scope request intent s).histories = s.histories := by
  unfold keepOrigin keepRequest
  split
  · split <;> exact ⟨rfl, rfl⟩
  · exact ⟨rfl, rfl⟩

theorem recordRows_manifests (scope : TenantScope) (clock : Nat → DateTime) (i : Nat) (rows : List DistributionTarget) :
    (recordRows scope clock i rows s).manifests = s.manifests := by
  induction rows generalizing i s with
  | nil => rfl
  | cons _ _ ih => exact ih _ _

theorem recordRows_other (scope : TenantScope) (clock : Nat → DateTime) (i : Nat) (rows : List DistributionTarget)
    {key : String × Uuid} (hother : ∀ row ∈ rows, (scope.storageKey, row.targetId) ≠ key) :
    (recordRows scope clock i rows s).histories.lookup key = s.histories.lookup key := by
  induction rows generalizing i s with
  | nil => rfl
  | cons row _ ih =>
    have hrest := ih (appendVersion (scope.storageKey, row.targetId) row (clock i) s) (i + 1)
      fun other hmem => hother other (mem_cons_of_mem _ hmem)
    refine hrest.trans ?_
    exact AList.lookup_insert_ne (Ne.symm (hother row mem_cons_self))

theorem recordRows_new (scope : TenantScope) (clock : Nat → DateTime) (i : Nat)
    (rows : List DistributionTarget) (hnodup : (rows.map DistributionTarget.targetId).Nodup)
    (hnew : ∀ row ∈ rows, s.histories.lookup (scope.storageKey, row.targetId) = none)
    {row : DistributionTarget} (hrow : row ∈ rows) :
    ∃ j, (recordRows scope clock i rows s).histories.lookup (scope.storageKey, row.targetId)
      = some (.start { recordedAt := clock j, target := row }) := by
  induction rows generalizing i s with
  | nil => simp at hrow
  | cons head rest ih =>
    rw [map_cons, nodup_cons] at hnodup
    have hhead : ∀ other ∈ rest, other.targetId ≠ head.targetId := fun other hother hsame =>
      hnodup.1 (hsame ▸ mem_map_of_mem hother)
    rcases mem_cons.mp hrow with rfl | hrow
    · refine ⟨i, ?_⟩
      have hothers : ∀ other ∈ rest, (scope.storageKey, other.targetId) ≠ (scope.storageKey, row.targetId) :=
        fun other hother hkey => hhead other hother (congrArg Prod.snd hkey)
      have hkept := recordRows_other (appendVersion (scope.storageKey, row.targetId) row (clock i) s) scope clock
        (i + 1) rest hothers
      refine hkept.trans ?_
      simp [appendVersion, insertHistory, hnew row mem_cons_self]
    · refine ih _ (i + 1) hnodup.2 (fun other hother => ?_) hrow
      have hne : (scope.storageKey, other.targetId) ≠ (scope.storageKey, head.targetId) :=
        fun hkey => hhead other hother (congrArg Prod.snd hkey)
      exact (AList.lookup_insert_ne hne).trans (hnew other (mem_cons_of_mem _ hother))

end Frames

/-! ### What a step does to the coverage -/

/-- The times a call reads for the records of the coverage. -/
def DistributionCall.Reads : DistributionCall → DateTime → Prop
  | .freeze _ _ now, t => t = now
  | .commitExpansionPage _ _ _ _ clock, t => ∃ i, t = clock i
  | .materialize _ _ clock, t => t = clock.recordedAt
  | .materializeRich _ _ _ clock, t => t = clock.recordedAt
  | _, _ => False

theorem DistributionCall.reads_of_coverage {call : DistributionCall} {scope : TenantScope}
    {prepared : PreparedDistribution} {bindings : List ContentMediaBinding}
    {clock : MaterializeClock} (h : call.coverage = some (scope, prepared, bindings, clock)) :
    call.Reads clock.recordedAt := by
  cases call <;> simp_all [DistributionCall.coverage, DistributionCall.Reads]

variable [Sha256]

/-- What a step does to the manifests and the histories, with the times it reads. -/
inductive CoverageChange (used : List String → Prop) (read : DateTime → Prop)
    (s s' : MemoryDistributionState) : Prop where
  /-- Nothing, or the maps are listed in another order. -/
  | kept (hmanifests : AssocMap.SameEntries s.manifests s'.manifests)
      (hhistories : AssocMap.SameEntries s.histories s'.histories)
  /-- A manifest is added. -/
  | frozen {k : String} {manifest : DistributionManifest} (hfrozen : FrozenManifest manifest)
      (hcursor : manifest.expansionCursor = 0) (hcomplete : manifest.complete = decide (manifest.expectedCount = 0))
      (hscope : ∃ scope : TenantScope, scope.storageKey = k ∧ scope.projectId = some manifest.projectId)
      (hsealed : read manifest.sealedAt) (hused : CellsUsed used manifest)
      (hnew : s.manifests.lookup (k, manifest.manifestId) = none)
      (hmanifests : s'.manifests = s.manifests.insert (k, manifest.manifestId) manifest)
      (hhistories : s'.histories = s.histories)
  /-- A page of cells is added. -/
  | expanded {scope : TenantScope} {id : Uuid} {rows : List DistributionTarget}
      {clock : Nat → DateTime} {manifest : DistributionManifest} (hread : ∀ i, read (clock i))
      (hstored : s.manifests.lookup (scope.storageKey, id) = some manifest)
      (hbound : manifest.expansionCursor + rows.length ≤ manifest.expectedCount)
      (hroster : matchesRoster manifest manifest.expansionCursor rows = true)
      (hmanifests : s'.manifests = s.manifests.insert (scope.storageKey, id)
        { manifest with
          expansionCursor := manifest.expansionCursor + rows.length
          complete := manifest.expansionCursor + rows.length = manifest.expectedCount })
      (hhistories : s'.histories = (recordRows scope clock 0 rows s).histories)
  /-- A target gets a version more. -/
  | moved {key : String × Uuid} {history : TargetHistory} {target : DistributionTarget} {now : DateTime}
      (hread : read now) (hstored : s.histories.lookup key = some history)
      (hcell : SameCell history.last.target target) (hversion : target.version = history.last.target.version + 1)
      (hmanifests : s'.manifests = s.manifests)
      (hhistories : s'.histories = s.histories.insert key
        (history.push { recordedAt := TargetHistory.recordedAt history now, target }))

variable {read : DateTime → Prop} {history : TargetHistory} {k : String} {id : Uuid}

theorem CoverageChange.of_eq {used : List String → Prop}
    {s s' : MemoryDistributionState} (hmanifests : s'.manifests = s.manifests)
    (hhistories : s'.histories = s.histories) : CoverageChange used read s s' :=
  .kept (hmanifests ▸ .refl _) (hhistories ▸ .refl _)

theorem recordChange_coverage {used : List String → Prop} {s s₁ : MemoryDistributionState}
    {key : String × Uuid} {next : DistributionTarget} {now : DateTime} (hread : read now)
    (hstored : s.histories.lookup key = some history) (hcell : SameCell history.last.target next)
    (hversion : next.version = history.last.target.version)
    (hsame : s₁.manifests = s.manifests ∧ s₁.histories = s.histories) :
    CoverageChange used read s (recordChange key history.last.target next now s₁) := by
  unfold recordChange
  split
  · exact .of_eq hsame.1 hsame.2
  · have hstored₁ : s₁.histories.lookup key = some history := by rw [hsame.2, hstored]
    have hnext : SameCell history.last.target { next with version := next.version + 1 } :=
      hcell.trans (by constructor <;> rfl)
    refine .moved hread hstored hnext ?_ hsame.1 ?_
    · exact congrArg (· + 1) hversion
    · show s₁.histories.insert key _ = _
      rw [hstored₁, hsame.2]

variable {used : List String → Prop} {s s' : MemoryDistributionState}

theorem DistributionEffect.coverage [UrlParser] [InstantJson] {call : DistributionCall}
    {reply : DistributionReply} (h : DistributionEffect used s call reply s') :
    CoverageChange used call.Reads s s' := by
  cases h with
  | stored => exact .of_eq rfl rfl
  | @frozen scope _ now manifest hfrozen hnew hused =>
    obtain ⟨hm, hcursor, hcomplete, hproject, -, -⟩ := freezeDistribution_ok hfrozen
    have hsealed : FrozenManifest { manifest with sealedAt := now } := hm.congr rfl rfl rfl
    exact .frozen hsealed hcursor hcomplete ⟨scope, rfl, hproject⟩ rfl hused hnew rfl rfl
  | expanded hstored _ hbound hroster hexpanded =>
    refine .expanded (fun i => ⟨i, rfl⟩) hstored hbound hroster ?_ rfl
    rw [← hexpanded, ← recordRows_manifests s]
    rfl
  | putOff hcall hfound =>
    exact recordChange_coverage (DistributionCall.reads_of_coverage hcall) hfound.expanded
      (sameCell_putOff _ _) rfl ⟨rfl, rfl⟩
  | bound hcall hfound _ _ _ hbinds =>
    rw [hbinds.after]
    exact recordChange_coverage (DistributionCall.reads_of_coverage hcall) hfound.expanded
      (sameCell_boundTarget _ _ _ _ _) rfl (storePublication_coverage _ _ _ _ _ _ _)
  | originated _ horiginates =>
    rw [horiginates.after]
    obtain ⟨hmanifests, hhistories⟩ := keepOrigin_coverage _ _ _ _
    obtain ⟨hmanifests', hhistories'⟩ := storePublication_coverage _ _ _ _ _ _ _
    exact .of_eq (hmanifests.trans hmanifests') (hhistories.trans hhistories')
  | verified => exact .of_eq rfl rfl

/-- The times a step reads. -/
def DistributionEvent.Reads : DistributionEvent → DateTime → Prop
  | .call call _, t => call.Reads t
  | .reorder, _ => False

theorem step_coverage [UrlParser] [InstantJson] {e : DistributionEvent}
    (h : (distributionMachine.restrict (DigestsOnly used)).step s e s') :
    CoverageChange used (DistributionEvent.Reads e) s s' := by
  rcases step_distributionEffect h with ⟨-, hreordered⟩ | ⟨call, err, rfl, rfl⟩ | ⟨call, reply, rfl, heffect⟩
  · exact .kept hreordered.manifests hreordered.histories
  · exact .of_eq rfl rfl
  · exact heffect.coverage

/-! ### The invariant -/

/-- One version and the next. -/
structure NextVersion (v v' : DistributionTargetVersion) : Prop where
  later : v.recordedAt < v'.recordedAt
  version : v'.target.version = v.target.version + 1
  cell : SameCell v.target v'.target

/-- A manifest as it is stored under a key. -/
structure StoredManifest (used : List String → Prop) (k : String) (id : Uuid)
    (manifest : DistributionManifest) : Prop where
  keyed : manifest.manifestId = id
  frozen : FrozenManifest manifest
  bound : manifest.expansionCursor ≤ manifest.expectedCount
  complete : manifest.complete = decide (manifest.expansionCursor = manifest.expectedCount)
  used : CellsUsed used manifest
  scope : ∃ scope : TenantScope, scope.storageKey = k ∧ scope.projectId = some manifest.projectId

/-- A history as it is stored under a key. -/
structure StoredHistory (s : MemoryDistributionState) (k : String) (targetId : Uuid)
    (history : TargetHistory) : Prop where
  keyed : history.first.target.targetId = targetId
  chain : history.Chain NextVersion
  origin : ∃ manifest, s.manifests.lookup (k, history.first.target.manifestId) = some manifest
    ∧ history.first.target.ordinal < manifest.expansionCursor
    ∧ distributionCell manifest history.first.target.ordinal = some history.first.target

/-- The manifests and the histories fit together. -/
structure CoverageShape (used : List String → Prop) (s : MemoryDistributionState) : Prop where
  manifests : ∀ k id manifest, s.manifests.lookup (k, id) = some manifest → StoredManifest used k id manifest
  histories : ∀ k id history, s.histories.lookup (k, id) = some history → StoredHistory s k id history
  expanded : ∀ k id manifest n cell, s.manifests.lookup (k, id) = some manifest →
    n < manifest.expansionCursor → distributionCell manifest n = some cell →
    ∃ history, s.histories.lookup (k, cell.targetId) = some history ∧ history.first.target = cell

theorem CoverageShape.empty : CoverageShape used .empty where
  manifests k id manifest h := by simp [MemoryDistributionState.empty] at h
  histories k id history h := by simp [MemoryDistributionState.empty] at h
  expanded k id manifest n cell h := by simp [MemoryDistributionState.empty] at h

theorem StoredHistory.sameCell (h : StoredHistory s k id history) {v : DistributionTargetVersion}
    (hv : v ∈ history.entries) : SameCell history.first.target v.target := by
  have hcell := h.chain.imp (S := fun v v' => SameCell v.target v'.target) fun _ _ hnext => hnext.cell
  rw [history.entries_eq_cons] at hv
  rcases mem_cons.mp hv with rfl | hv
  · exact .refl _
  · have : IsTrans DistributionTargetVersion fun v v' => SameCell v.target v'.target := ⟨fun _ _ _ => .trans⟩
    exact hcell.first_rel hv

theorem StoredHistory.push (h : StoredHistory s k id history)
    {target : DistributionTarget} (now : DateTime) (hcell : SameCell history.last.target target)
    (hversion : target.version = history.last.target.version + 1) :
    StoredHistory s k id (history.push { recordedAt := TargetHistory.recordedAt history now, target }) where
  keyed := by rw [first_push]; exact h.keyed
  chain := by
    refine h.chain.push ⟨?_, hversion, hcell⟩
    show history.last.recordedAt < max now (history.last.recordedAt + 1)
    exact Int.lt_of_lt_of_le (Int.lt_succ _) (Int.le_max_right _ _)
  origin := by rw [first_push]; exact h.origin

theorem StoredHistory.mono (h : StoredHistory s k id history)
    (hgrow : ∀ id manifest, s.manifests.lookup (k, id) = some manifest →
      ∃ manifest', s'.manifests.lookup (k, id) = some manifest' ∧ manifest.expansionCursor ≤ manifest'.expansionCursor
        ∧ distributionCell manifest' = distributionCell manifest) :
    StoredHistory s' k id history where
  keyed := h.keyed
  chain := h.chain
  origin := by
    obtain ⟨_, hstored, hlt, hcell⟩ := h.origin
    obtain ⟨manifest', hstored', hle, hsame⟩ := hgrow _ _ hstored
    exact ⟨manifest', hstored', hlt.trans_le hle, by rw [hsame]; exact hcell⟩

/-! ### Each change keeps it -/

theorem CoverageShape.kept (hs : CoverageShape used s) (hmanifests : AssocMap.SameEntries s.manifests s'.manifests)
    (hhistories : AssocMap.SameEntries s.histories s'.histories) : CoverageShape used s' where
  manifests k id manifest h := hs.manifests k id manifest (by rw [hmanifests.lookup_eq, h])
  histories k id history h := by
    refine (hs.histories k id history (by rw [hhistories.lookup_eq, h])).mono fun id m hm => ?_
    exact ⟨m, by rw [← hmanifests.lookup_eq, hm], le_rfl, rfl⟩
  expanded k id manifest n cell h hn hcell := by
    obtain ⟨history, hhistory, hfirst⟩ := hs.expanded k id manifest n cell (by rw [hmanifests.lookup_eq, h]) hn hcell
    exact ⟨history, by rw [← hhistories.lookup_eq, hhistory], hfirst⟩

theorem CoverageShape.frozen (hs : CoverageShape used s) {k : String} {manifest : DistributionManifest}
    (hm : StoredManifest used k manifest.manifestId manifest) (hcursor : manifest.expansionCursor = 0)
    (hnew : s.manifests.lookup (k, manifest.manifestId) = none)
    (hmanifests : s'.manifests = s.manifests.insert (k, manifest.manifestId) manifest)
    (hhistories : s'.histories = s.histories) : CoverageShape used s' where
  manifests k' id m h := by
    rw [hmanifests, lookup_insert] at h
    split at h
    · rename_i hkey
      obtain ⟨rfl, rfl⟩ := Prod.mk.inj hkey
      obtain rfl := Option.some.inj h
      exact hm
    · exact hs.manifests k' id m h
  histories k' id history h := by
    rw [hhistories] at h
    refine (hs.histories k' id history h).mono fun id' m hstored => ⟨m, ?_, le_rfl, rfl⟩
    have hne : (k', id') ≠ (k, manifest.manifestId) := by
      intro hkey
      rw [hkey, hnew] at hstored
      simp at hstored
    rw [hmanifests, AList.lookup_insert_ne hne, hstored]
  expanded k' id m n cell h hn hcell := by
    rw [hmanifests, lookup_insert] at h
    split at h
    · obtain rfl := Option.some.inj h
      omega
    · rw [hhistories]
      exact hs.expanded k' id m n cell h hn hcell

theorem CoverageShape.moved (hs : CoverageShape used s) {key : String × Uuid} {history : TargetHistory}
    {target : DistributionTarget} {now : DateTime} (hstored : s.histories.lookup key = some history)
    (hcell : SameCell history.last.target target) (hversion : target.version = history.last.target.version + 1)
    (hmanifests : s'.manifests = s.manifests)
    (hhistories : s'.histories = s.histories.insert key
      (history.push { recordedAt := TargetHistory.recordedAt history now, target })) :
    CoverageShape used s' where
  manifests k id m h := hs.manifests k id m (by rw [← hmanifests, h])
  histories k id history' h := by
    have hmono : ∀ id manifest, s.manifests.lookup (k, id) = some manifest →
        ∃ manifest', s'.manifests.lookup (k, id) = some manifest' ∧ manifest.expansionCursor ≤ manifest'.expansionCursor
          ∧ distributionCell manifest' = distributionCell manifest :=
      fun id m hm => ⟨m, by rw [hmanifests, hm], le_rfl, rfl⟩
    rw [hhistories, lookup_insert] at h
    split at h
    · rename_i hkey
      obtain rfl := Option.some.inj h
      rw [← hkey] at hstored
      exact ((hs.histories k id history hstored).push now hcell hversion).mono hmono
    · exact (hs.histories k id history' h).mono hmono
  expanded k id m n cell h hn hcellAt := by
    rw [hmanifests] at h
    obtain ⟨history', hhistory', hfirst⟩ := hs.expanded k id m n cell h hn hcellAt
    rw [hhistories, lookup_insert]
    split
    · rename_i hkey
      rw [hkey, hstored] at hhistory'
      obtain rfl := Option.some.inj hhistory'
      exact ⟨_, rfl, by rw [first_push]; exact hfirst⟩
    · exact ⟨history', hhistory', hfirst⟩

theorem cell_of_matchesRoster {manifest : DistributionManifest} {cursor i : Nat} {rows : List DistributionTarget}
    {row : DistributionTarget} (h : matchesRoster manifest cursor rows = true) (hrow : rows[i]? = some row) :
    distributionCell manifest (cursor + i) = some row := by
  have hall := all_eq_true.mp h (row, i) (mem_zipIdx_iff_getElem?.mpr hrow)
  exact (of_decide_eq_true hall).symm

section Expanded

variable {k : String} {id : Uuid} {manifest : DistributionManifest}
  {rows : List DistributionTarget} (hfree : CollisionFree used)

include hfree

theorem rows_nodup (hm : StoredManifest used k id manifest)
    (hroster : matchesRoster manifest manifest.expansionCursor rows = true) :
    (rows.map DistributionTarget.targetId).Nodup := by
  rw [nodup_iff_getElem?_ne_getElem?]
  intro i j hij hj hsame
  rw [length_map] at hj
  rw [List.getElem?_map, List.getElem?_map, List.getElem?_eq_getElem (hij.trans hj),
    List.getElem?_eq_getElem hj] at hsame
  have hcell := cell_of_matchesRoster hroster (List.getElem?_eq_getElem (hij.trans hj))
  have hcell' := cell_of_matchesRoster hroster (List.getElem?_eq_getElem hj)
  have hn := (cell_injective hfree hm.used hm.used hcell hcell' (Option.some.inj hsame)).2 hm.frozen rfl
  omega

theorem CoverageShape.no_history (hs : CoverageShape used s) (hstored : s.manifests.lookup (k, id) = some manifest)
    {n : Nat} {cell : DistributionTarget} (hn : manifest.expansionCursor ≤ n)
    (hcell : distributionCell manifest n = some cell) : s.histories.lookup (k, cell.targetId) = none := by
  cases hfound : s.histories.lookup (k, cell.targetId) with
  | none => rfl
  | some history =>
    have hhistory := hs.histories _ _ _ hfound
    obtain ⟨_, hstored', _, hcell'⟩ := hhistory.origin
    have hm := hs.manifests _ _ _ hstored
    have hm' := hs.manifests _ _ _ hstored'
    obtain ⟨hsame, hordinal⟩ := cell_injective hfree hm.used hm'.used hcell hcell' hhistory.keyed.symm
    have hid : history.first.target.manifestId = id := by
      rw [← hm'.keyed, ← hsame, hm.keyed]
    rw [hid, hstored] at hstored'
    obtain rfl := Option.some.inj hstored'
    have hn' := hordinal hm.frozen rfl
    omega

theorem CoverageShape.expandedPage (hs : CoverageShape used s) {scope : TenantScope} {clock : Nat → DateTime}
    {expanded : DistributionManifest} (hstored : s.manifests.lookup (scope.storageKey, id) = some manifest)
    (hbound : manifest.expansionCursor + rows.length ≤ manifest.expectedCount)
    (hroster : matchesRoster manifest manifest.expansionCursor rows = true)
    (hexpanded : expanded = { manifest with
      expansionCursor := manifest.expansionCursor + rows.length
      complete := manifest.expansionCursor + rows.length = manifest.expectedCount })
    (hmanifests : s'.manifests = s.manifests.insert (scope.storageKey, id) expanded)
    (hhistories : s'.histories = (recordRows scope clock 0 rows s).histories) :
    CoverageShape used s' := by
  have hm := hs.manifests _ _ _ hstored
  have hcells : distributionCell expanded = distributionCell manifest := by
    subst hexpanded
    exact distributionCell_congr rfl rfl rfl
  have hcursor : expanded.expansionCursor = manifest.expansionCursor + rows.length := by
    rw [hexpanded]
  have hnodup := rows_nodup hfree hm hroster
  have hnew : ∀ row ∈ rows, s.histories.lookup (scope.storageKey, row.targetId) = none := by
    intro row hrow
    obtain ⟨_, hi⟩ := List.getElem?_of_mem hrow
    exact hs.no_history hfree hstored (Nat.le_add_right _ _) (cell_of_matchesRoster hroster hi)
  have hkept : ∀ key history, s.histories.lookup key = some history → s'.histories.lookup key = some history := by
    intro key history hhistory
    rw [hhistories, recordRows_other, hhistory]
    intro row hrow hkey
    rw [← hkey, hnew row hrow] at hhistory
    simp at hhistory
  have hgrow : ∀ k' id' m, s.manifests.lookup (k', id') = some m →
      ∃ m', s'.manifests.lookup (k', id') = some m' ∧ m.expansionCursor ≤ m'.expansionCursor
        ∧ distributionCell m' = distributionCell m := by
    intro k' id' m hmanifest
    rw [hmanifests, lookup_insert]
    split
    · rename_i hkey
      rw [hkey, hstored] at hmanifest
      obtain rfl := Option.some.inj hmanifest
      exact ⟨expanded, rfl, by omega, hcells⟩
    · exact ⟨m, hmanifest, le_rfl, rfl⟩
  refine ⟨?_, ?_, ?_⟩
  · intro k' id' m h
    rw [hmanifests, lookup_insert] at h
    split at h
    · rename_i hkey
      obtain ⟨rfl, rfl⟩ := Prod.mk.inj hkey
      obtain rfl := Option.some.inj h
      subst hexpanded
      exact ⟨hm.keyed, hm.frozen.congr rfl rfl rfl, hbound, rfl, hm.used, hm.scope⟩
    · exact hs.manifests k' id' m h
  · intro k' targetId history h
    by_cases hrow : ∃ row ∈ rows, (scope.storageKey, row.targetId) = (k', targetId)
    · obtain ⟨row, hrow, hkey⟩ := hrow
      obtain ⟨rfl, rfl⟩ := Prod.mk.inj hkey
      obtain ⟨_, hstart⟩ := recordRows_new s scope clock 0 rows hnodup hnew hrow
      rw [hhistories, hstart] at h
      obtain rfl := Option.some.inj h
      obtain ⟨_, hi⟩ := List.getElem?_of_mem hrow
      have hcell := cell_of_matchesRoster hroster hi
      obtain ⟨hordinal, hmanifestId⟩ := ordinal_of_cell hcell
      refine ⟨rfl, .start, expanded, ?_, ?_, ?_⟩
      · rw [first_start, hmanifestId, hm.keyed, hmanifests]
        exact AList.lookup_insert _
      · rw [first_start, hordinal, hcursor]
        have := (List.getElem?_eq_some_iff.mp hi).1
        omega
      · rw [first_start, hordinal, hcells]
        exact hcell
    · rw [hhistories, recordRows_other _ _ _ _ _ fun row hmem hkey => hrow ⟨row, hmem, hkey⟩] at h
      exact (hs.histories k' targetId history h).mono fun id' m hmanifest => hgrow k' id' m hmanifest
  · intro k' id' m n cell h hn hcell
    rw [hmanifests, lookup_insert] at h
    split at h
    · rename_i hkey
      obtain ⟨rfl, rfl⟩ := Prod.mk.inj hkey
      obtain rfl := Option.some.inj h
      rw [hcells] at hcell
      by_cases hold : n < manifest.expansionCursor
      · obtain ⟨history, hhistory, hfirst⟩ := hs.expanded _ _ _ n cell hstored hold hcell
        exact ⟨history, hkept _ _ hhistory, hfirst⟩
      · -- The cell is one of the rows of this page.
        have hi : n - manifest.expansionCursor < rows.length := by omega
        have hrow := cell_of_matchesRoster hroster (List.getElem?_eq_getElem hi)
        have hsum : manifest.expansionCursor + (n - manifest.expansionCursor) = n := by omega
        rw [hsum, hcell] at hrow
        have hmem : cell ∈ rows := by
          rw [Option.some.inj hrow]
          exact getElem_mem hi
        obtain ⟨_, hstart⟩ := recordRows_new s scope clock 0 rows hnodup hnew hmem
        exact ⟨_, by rw [hhistories, hstart], rfl⟩
    · obtain ⟨history, hhistory, hfirst⟩ := hs.expanded k' id' m n cell h hn hcell
      exact ⟨history, hkept _ _ hhistory, hfirst⟩

theorem CoverageShape.change {read : DateTime → Prop} (hs : CoverageShape used s)
    (h : CoverageChange used read s s') : CoverageShape used s' := by
  cases h with
  | kept hmanifests hhistories => exact hs.kept hmanifests hhistories
  | frozen hfrozen hcursor hcomplete hscope _ hused hnew hmanifests hhistories =>
    refine hs.frozen ⟨rfl, hfrozen, by omega, ?_, hused, hscope⟩ hcursor hnew hmanifests hhistories
    rw [hcomplete, hcursor]
    exact decide_eq_decide.mpr eq_comm
  | expanded _ hstored hbound hroster hmanifests hhistories =>
    exact hs.expandedPage hfree hstored hbound hroster rfl hmanifests hhistories
  | moved _ hstored hcell hversion hmanifests hhistories => exact hs.moved hstored hcell hversion hmanifests hhistories

theorem CoverageShape.step [UrlParser] [InstantJson] {e : DistributionEvent} (hs : CoverageShape used s)
    (h : (distributionMachine.restrict (DigestsOnly used)).step s e s') : CoverageShape used s' :=
  hs.change hfree (step_coverage h)

theorem coverageShape_run [UrlParser] [InstantJson] {events : List DistributionEvent}
    (h : (distributionMachine.restrict (DigestsOnly used)).Run .empty events s) : CoverageShape used s :=
  h.invariant (fun _ _ _ hs hstep => hs.step hfree hstep) .empty

end Expanded

end GeoMaster
