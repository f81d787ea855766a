import GeoMaster.Proofs.CoverageExpansion
import GeoMaster.Proofs.PublishableCells

/-!
# What a report reads of the past

`cycle_inputs` picks the manifest of the highest revision that was sealed by a cutoff and lists its targets as
they were at the cutoff. `SeenAlike` relates two states in which a cutoff shows the same; a step that reads only
later times keeps it. Two manifests can share a revision of a cycle, since the identity of a manifest is drawn
from its documents too; where nobody freezes one revision for two rosters, the answer is settled.
-/

namespace GeoMaster

open Except AssocMap List Option Nat DistributionTarget TargetHistory

open MemoryDistributionRepository

/-! ### What a cutoff shows -/

/-- Two states in which a cutoff shows the same manifests and the same versions. -/
structure SeenAlike (cutoff : DateTime) (s s' : MemoryDistributionState) : Prop where
  manifests : ∀ key m, s.manifests.lookup key = some m → m.sealedAt ≤ cutoff →
    ∃ m', s'.manifests.lookup key = some m' ∧ ManifestGrown m m'
  known : ∀ key m', s'.manifests.lookup key = some m' → m'.sealedAt ≤ cutoff →
    ∃ m, s.manifests.lookup key = some m ∧ ManifestGrown m m'
  histories : ∀ key,
    ((s'.histories.lookup key).bind fun history => versionAt history cutoff)
      = (s.histories.lookup key).bind fun history => versionAt history cutoff

variable {cutoff : DateTime} {s s' s'' : MemoryDistributionState}

theorem ManifestGrown.sealedAt {m m' : DistributionManifest} (h : ManifestGrown m m') : m'.sealedAt = m.sealedAt := by
  rw [h.rest]

theorem SeenAlike.refl (s : MemoryDistributionState) : SeenAlike cutoff s s where
  manifests _ m h _ := ⟨m, h, .refl m⟩
  known _ m h _ := ⟨m, h, .refl m⟩
  histories _ := rfl

theorem SeenAlike.trans (h : SeenAlike cutoff s s') (h' : SeenAlike cutoff s' s'') : SeenAlike cutoff s s'' where
  manifests key m hm hsealed := by
    obtain ⟨m', hm', hgrown⟩ := h.manifests key m hm hsealed
    obtain ⟨m'', hm'', hgrown'⟩ := h'.manifests key m' hm' (by rw [hgrown.sealedAt]; exact hsealed)
    exact ⟨m'', hm'', hgrown.trans hgrown'⟩
  known key m'' hm'' hsealed := by
    obtain ⟨m', hm', hgrown'⟩ := h'.known key m'' hm'' hsealed
    obtain ⟨m, hm, hgrown⟩ := h.known key m' hm' (by rw [← hgrown'.sealedAt]; exact hsealed)
    exact ⟨m, hm, hgrown.trans hgrown'⟩
  histories key := (h'.histories key).trans (h.histories key)

theorem appendVersion_seen (key key' : String × Uuid) (target : DistributionTarget)
    {now : DateTime} (hlate : cutoff < now) :
    (((appendVersion key target now s).histories.lookup key').bind fun history => versionAt history cutoff)
      = (s.histories.lookup key').bind fun history => versionAt history cutoff := by
  rw [show (appendVersion key target now s).histories = s.histories.insert key _ from rfl, lookup_insert]
  split
  · rename_i hkey
    subst hkey
    cases s.histories.lookup key' with
    | none => exact History.asOf_start_later hlate
    | some history =>
      refine History.asOf_push_later ?_
      show cutoff < max now (history.last.recordedAt + 1)
      exact hlate.trans_le (Int.le_max_left _ _)
  · rfl

theorem recordRows_seen (scope : TenantScope) {clock : Nat → DateTime}
    (hlate : ∀ i, cutoff < clock i) (rows : List DistributionTarget) (key : String × Uuid) :
    (((recordRows scope clock 0 rows s).histories.lookup key).bind fun history => versionAt history cutoff)
      = (s.histories.lookup key).bind fun history => versionAt history cutoff := by
  generalize 0 = i
  induction rows generalizing i s with
  | nil => rfl
  | cons row _ ih =>
    have hrest := ih (s := appendVersion (scope.storageKey, row.targetId) row (clock i) s) (i + 1)
    exact hrest.trans (appendVersion_seen _ _ _ (hlate i))

section Changes

variable [Sha256] {used : List String → Prop}

theorem CoverageChange.seenAlike {read : DateTime → Prop} (h : CoverageChange used read s s')
    (hlate : ∀ t, read t → cutoff < t) : SeenAlike cutoff s s' := by
  cases h with
  | kept hmanifests hhistories =>
    refine ⟨fun key m hm _ => ⟨m, ?_, .refl m⟩, fun key m hm _ => ⟨m, ?_, .refl m⟩, fun key => ?_⟩
    · rw [← hmanifests.lookup_eq, hm]
    · rw [hmanifests.lookup_eq, hm]
    · rw [hhistories.lookup_eq]
  | @frozen _ manifest _ _ _ _ hsealed _ hnew hmanifests hhistories =>
    refine ⟨fun key m hm _ => ⟨m, ?_, .refl m⟩, fun key m hm hseen => ⟨m, ?_, .refl m⟩, fun key => by rw [hhistories]⟩
    · rw [hmanifests, AList.lookup_insert_ne, hm]
      rintro rfl
      rw [hnew] at hm
      simp at hm
    · rw [hmanifests, lookup_insert] at hm
      split at hm
      · -- The new manifest is sealed after the cutoff.
        obtain rfl := some.inj hm
        exact absurd hseen (Int.not_le.mpr (hlate _ hsealed))
      · exact hm
  | @expanded scope _ rows _ manifest hread hstored _ _ hmanifests hhistories =>
    refine ⟨fun key m hm _ => ?_, fun key m hm _ => ?_, fun key => ?_⟩
    · rw [hmanifests, lookup_insert]
      split
      · rename_i hkey
        rw [hkey, hstored] at hm
        obtain rfl := some.inj hm
        exact ⟨_, rfl, le_add_right _ _, rfl⟩
      · exact ⟨m, hm, .refl m⟩
    · rw [hmanifests, lookup_insert] at hm
      split at hm
      · rename_i hkey
        obtain rfl := some.inj hm
        exact ⟨manifest, by rw [hkey, hstored], le_add_right _ _, rfl⟩
      · exact ⟨m, hm, .refl m⟩
    · rw [hhistories]
      exact recordRows_seen scope (fun i => hlate _ (hread i)) rows key
  | @moved key history _ now hread hstored _ _ hmanifests hhistories =>
    refine ⟨fun key m hm _ => ⟨m, by rw [hmanifests, hm], .refl m⟩,
      fun key m hm _ => ⟨m, by rw [← hmanifests, hm], .refl m⟩, fun key' => ?_⟩
    rw [hhistories, lookup_insert]
    split
    · rename_i hkey
      rw [hkey, hstored]
      refine History.asOf_push_later ?_
      show cutoff < max now (history.last.recordedAt + 1)
      exact (hlate now hread).trans_le (Int.le_max_left _ _)
    · rfl

theorem seenAlike_run [UrlParser] [InstantJson] {events : List DistributionEvent}
    (h : (distributionMachine.restrict (DigestsOnly used)).Run s events s')
    (hlate : ∀ e ∈ events, ∀ t, DistributionEvent.Reads e t → cutoff < t) : SeenAlike cutoff s s' := by
  induction h with
  | refl => exact .refl s
  | @tail _ _ _ e _ hstep ih =>
    have hbefore := ih fun e' he' => hlate e' (mem_append_left _ he')
    have hlast := hlate e (mem_append_right _ mem_cons_self)
    exact hbefore.trans ((step_coverage hstep).seenAlike hlast)

end Changes

/-! ### The targets at a cutoff -/

/-- The versions of a manifest's targets in force at a cutoff, in the order of the map. -/
def targetsAt (s : MemoryDistributionState) (scope : TenantScope) (id : Uuid) (cutoff : DateTime) :
    List DistributionTarget :=
  (((scopedHistories s scope).filterMap fun history =>
    versionAt history cutoff).filter fun version => version.target.manifestId = id).map (·.target)

theorem mem_targetsAt {scope : TenantScope} {id : Uuid} {target : DistributionTarget} :
    target ∈ targetsAt s scope id cutoff
      ↔ target.manifestId = id ∧ ∃ targetId v,
        ((s.histories.lookup (scope.storageKey, targetId)).bind fun history =>
          versionAt history cutoff) = some v ∧ v.target = target := by
  simp only [targetsAt, List.mem_map, List.mem_filter, List.mem_filterMap, mem_scopedHistories,
    decide_eq_true_eq, Option.bind_eq_some_iff]
  constructor
  · rintro ⟨v, ⟨⟨history, ⟨targetId, hlookup⟩, hversion⟩, hid⟩, rfl⟩
    exact ⟨hid, targetId, v, ⟨history, hlookup, hversion⟩, rfl⟩
  · rintro ⟨hid, targetId, v, ⟨history, hlookup, hversion⟩, rfl⟩
    exact ⟨v, ⟨⟨history, ⟨targetId, hlookup⟩, hversion⟩, hid⟩, rfl⟩

/-- Reading numbers through a selection that keeps them. -/
theorem map_filter_filterMap {α β γ : Type} {f : α → Option β} {p : β → Bool} {q : α → Bool} {g : β → γ} {g' : α → γ}
    {l : List α} (hkept : ∀ a ∈ l, ∀ b, f a = some b → p b = q a ∧ g b = g' a) :
    ((l.filterMap f).filter p).map g = (l.filter fun a => q a && (f a).isSome).map g' := by
  induction l with
  | nil => rfl
  | cons a l ih =>
    have hrest := ih fun a' ha' => hkept a' (mem_cons_of_mem _ ha')
    cases hfa : f a with
    | none => simp [hfa, hrest]
    | some b =>
      obtain ⟨hp, hg⟩ := hkept a mem_cons_self b hfa
      cases hq : q a <;> simp [hfa, hp, hq, hg, hrest]

theorem sortByOrdinal_perm {targets targets' : List DistributionTarget} (hperm : targets.Perm targets')
    (hnodup : (targets.map ordinal).Nodup) : sortByOrdinal targets = sortByOrdinal targets' := by
  let le : DistributionTarget → DistributionTarget → Prop := fun a b => a.ordinal ≤ b.ordinal
  have htrans : IsTrans DistributionTarget le := ⟨fun _ _ _ => le_trans⟩
  have htotal : Std.Total le := ⟨fun _ _ => le_total _ _⟩
  have hsorted := pairwise_insertionSort le targets
  have hsorted' := pairwise_insertionSort le targets'
  refine List.Perm.eq_of_pairwise ?_ hsorted hsorted' ?_
  · intro a b ha hb hab hba
    have ha' := (mem_insertionSort le).mp ha
    have hb' := hperm.mem_iff.mpr ((mem_insertionSort le).mp hb)
    exact inj_on_of_nodup_map hnodup ha' hb' (le_antisymm hab hba)
  · exact ((perm_insertionSort le targets).trans hperm).trans (perm_insertionSort le targets').symm

theorem denseFrom_range' {bound i n : Nat} {targets : List DistributionTarget}
    (hordinals : targets.map ordinal = List.range' i n) (hbound : i + n ≤ bound) : denseFrom bound i targets = n := by
  induction targets generalizing i n with
  | nil =>
    cases n with
    | zero => rfl
    | succ n => simp [range'_succ] at hordinals
  | cons target _ ih =>
    cases n with
    | zero => simp at hordinals
    | succ n =>
      rw [map_cons, range'_succ, List.cons.injEq] at hordinals
      obtain ⟨_, hrest⟩ := hordinals
      have hin : target.ordinal < bound ∧ i = target.ordinal := by omega
      rw [denseFrom, if_pos hin, ih hrest (by omega)]

theorem denseFrom_le_length (bound i : Nat) (targets : List DistributionTarget) :
    denseFrom bound i targets ≤ targets.length := by
  induction targets generalizing i with
  | nil => rfl
  | cons _ _ ih =>
    rw [denseFrom]
    split
    · exact succ_le_succ (ih _)
    · exact zero_le _

/-- Different ordinals below a bound are one dense run up to it when there are that many. -/
theorem denseFrom_eq_bound {bound : Nat} {targets : List DistributionTarget} (hnodup : (targets.map ordinal).Nodup)
    (hbelow : ∀ n ∈ targets.map ordinal, n < bound) :
    denseFrom bound 0 (sortByOrdinal targets) = bound ↔ targets.length = bound := by
  have hsub : (targets.map ordinal).Subperm (List.range bound) :=
    subperm_of_subset hnodup fun n hn => mem_range.mpr (hbelow n hn)
  have hle : targets.length ≤ bound := by
    have hlength := hsub.length_le
    rwa [length_map, length_range] at hlength
  constructor
  · intro hdense
    have hshort := denseFrom_le_length bound 0 (sortByOrdinal targets)
    rw [sortByOrdinal, length_insertionSort] at hshort
    rw [sortByOrdinal] at hdense
    omega
  · intro hfull
    have hperm : (targets.map ordinal).Perm (List.range bound) :=
      hsub.perm_of_length_le (by rw [length_range, length_map, hfull])
    have hsorted := map_insertionSort_eq_range' (a := 0) (b := bound) hnodup fun n => by
      rw [hperm.mem_iff, mem_range]
      omega
    exact denseFrom_range' hsorted (by omega)

section Targets

variable [Sha256] {used : List String → Prop} {scope : TenantScope} {id : Uuid}

theorem CoverageShape.targetsAt_ordinals (hs : CoverageShape used s) (scope : TenantScope)
    (id : Uuid) (cutoff : DateTime) :
    (targetsAt s scope id cutoff).map ordinal
      = ((scopedHistories s scope).filter fun history =>
        history.first.target.manifestId = id
          && (versionAt history cutoff).isSome).map fun history => history.first.target.ordinal := by
  rw [targetsAt, List.map_map]
  refine map_filter_filterMap fun history hhistory v hv => ?_
  have hsame := hs.sameCell hhistory (History.asOf_mem hv).1
  refine ⟨?_, hsame.ordinal⟩
  rw [hsame.manifestId]

theorem CoverageShape.targetsAt_nodup (hs : CoverageShape used s) (scope : TenantScope) (id : Uuid)
    (cutoff : DateTime) : ((targetsAt s scope id cutoff).map ordinal).Nodup := by
  rw [hs.targetsAt_ordinals]
  exact hs.ordinals_nodup _

theorem CoverageShape.targetsAt_below (hs : CoverageShape used s) {manifest : DistributionManifest}
    (hstored : s.manifests.lookup (scope.storageKey, id) = some manifest) :
    ∀ n ∈ (targetsAt s scope id cutoff).map ordinal, n < manifest.expectedCount := by
  intro n hn
  rw [hs.targetsAt_ordinals] at hn
  have hcursor := ((hs.mem_ordinals hstored _ n).mp hn).1
  exact hcursor.trans_le (hs.manifests _ _ _ hstored).bound

theorem SeenAlike.targets (h : SeenAlike cutoff s s') (hs : CoverageShape used s) (hs' : CoverageShape used s') :
    sortByOrdinal (targetsAt s' scope id cutoff) = sortByOrdinal (targetsAt s scope id cutoff) := by
  have hnodup := hs'.targetsAt_nodup scope id cutoff
  have hold := hs.targetsAt_nodup scope id cutoff
  refine sortByOrdinal_perm ?_ hnodup
  refine (perm_ext_iff_of_nodup hnodup.of_map hold.of_map).mpr fun target => ?_
  simp only [mem_targetsAt, h.histories]

end Targets

/-! ### The manifest at a cutoff -/

/-- A manifest of a cycle that was sealed by a cutoff. -/
structure SealedBy (s : MemoryDistributionState) (scope : TenantScope) (cycle : Uuid)
    (cutoff : DateTime) (m : DistributionManifest) : Prop where
  stored : s.manifests.lookup (scope.storageKey, m.manifestId) = some m
  ofCycle : m.cycleId = cycle
  sealedAt : m.sealedAt ≤ cutoff

/-- A manifest of the highest revision among those. -/
structure HighestSealed (s : MemoryDistributionState) (scope : TenantScope) (cycle : Uuid) (cutoff : DateTime)
    (m : DistributionManifest) : Prop extends SealedBy s scope cycle cutoff m where
  highest : ∀ m', SealedBy s scope cycle cutoff m' → m'.revision ≤ m.revision

theorem maxByRevision_eq_none {l : List DistributionManifest} : maxByRevision l = none ↔ l = [] := by
  cases l with
  | nil => simp [maxByRevision]
  | cons m rest =>
    rw [maxByRevision]
    constructor
    · intro h
      split at h
      · simp at h
      · split at h <;> simp at h
    · simp

theorem maxByRevision_eq_some {l : List DistributionManifest} {best : DistributionManifest}
    (h : maxByRevision l = some best) : best ∈ l ∧ ∀ m ∈ l, m.revision ≤ best.revision := by
  induction l generalizing best with
  | nil => simp [maxByRevision] at h
  | cons m rest ih =>
    rw [maxByRevision] at h
    cases hrest : maxByRevision rest with
    | none =>
      rw [hrest] at h
      obtain rfl := some.inj h
      rw [maxByRevision_eq_none.mp hrest]
      simp
    | some last =>
      obtain ⟨hmem, hhighest⟩ := ih hrest
      rw [hrest] at h
      by_cases hle : m.revision ≤ last.revision
      · simp only [hle, if_true] at h
        obtain rfl := some.inj h
        exact ⟨mem_cons_of_mem _ hmem, forall_mem_cons.mpr ⟨hle, hhighest⟩⟩
      · simp only [hle, if_false] at h
        obtain rfl := some.inj h
        refine ⟨mem_cons_self, forall_mem_cons.mpr ⟨le_rfl, fun m' hm' => ?_⟩⟩
        have hlast := hhighest m' hm'
        omega

section Manifests

variable [Sha256] {used : List String → Prop} {scope : TenantScope} {cycle : Uuid} {m : DistributionManifest}

theorem CoverageShape.mem_cycleManifests (hs : CoverageShape used s) :
    m ∈ cycleManifests s scope cycle (fun manifest => manifest.sealedAt ≤ cutoff)
      ↔ SealedBy s scope cycle cutoff m := by
  simp only [cycleManifests, List.mem_map, List.mem_filter, decide_eq_true_eq]
  constructor
  · rintro ⟨⟨⟨_, _⟩, _⟩, ⟨hmem, rfl, -, hcycle, hsealed⟩, rfl⟩
    have hlookup := AList.mem_lookup_iff.mpr hmem
    exact ⟨by rw [(hs.manifests _ _ _ hlookup).keyed]; exact hlookup, hcycle, hsealed⟩
  · intro h
    exact ⟨⟨(scope.storageKey, m.manifestId), m⟩,
      ⟨AList.mem_lookup_iff.mp h.stored, rfl, hs.project h.stored, h.ofCycle, h.sealedAt⟩, rfl⟩

theorem CoverageShape.sealedManifest_some (hs : CoverageShape used s)
    (h : sealedManifest s scope cycle cutoff = some m) : HighestSealed s scope cycle cutoff m := by
  obtain ⟨hmem, hhighest⟩ := maxByRevision_eq_some h
  exact ⟨hs.mem_cycleManifests.mp hmem, fun m' hm' => hhighest m' (hs.mem_cycleManifests.mpr hm')⟩

theorem CoverageShape.sealedManifest_none (hs : CoverageShape used s) :
    sealedManifest s scope cycle cutoff = none ↔ ∀ m, ¬ SealedBy s scope cycle cutoff m := by
  rw [sealedManifest, maxByRevision_eq_none, eq_nil_iff_forall_not_mem]
  exact forall_congr' fun m => not_congr hs.mem_cycleManifests

omit [Sha256] in
theorem SeenAlike.sealedBy {m' : DistributionManifest} (h : SeenAlike cutoff s s')
    (hm : SealedBy s scope cycle cutoff m) (hm' : s'.manifests.lookup (scope.storageKey, m.manifestId) = some m') :
    ManifestGrown m m' ∧ SealedBy s' scope cycle cutoff m' := by
  obtain ⟨_, hm'', hgrown⟩ := h.manifests _ _ hm.stored hm.sealedAt
  rw [hm'] at hm''
  obtain rfl := some.inj hm''
  have hid : m'.manifestId = m.manifestId := by rw [hgrown.rest]
  have hcycle : m'.cycleId = m.cycleId := by rw [hgrown.rest]
  exact ⟨hgrown, by rw [hid, hm'], hcycle.trans hm.ofCycle, hgrown.sealedAt.trans_le hm.sealedAt⟩

omit [Sha256] in
theorem SeenAlike.highestSealed {m' : DistributionManifest} (h : SeenAlike cutoff s s')
    (hm : HighestSealed s scope cycle cutoff m) (hm' : s'.manifests.lookup (scope.storageKey, m.manifestId) = some m') :
    HighestSealed s' scope cycle cutoff m' := by
  obtain ⟨hgrown, hsealed⟩ := h.sealedBy hm.toSealedBy hm'
  refine ⟨hsealed, fun other hother => ?_⟩
  obtain ⟨old, hold, hgrew⟩ := h.known _ _ hother.stored hother.sealedAt
  have hrevision : m'.revision = m.revision := by rw [hgrown.rest]
  have hrevision' : other.revision = old.revision := by rw [hgrew.rest]
  have hid : old.manifestId = other.manifestId := by rw [hgrew.rest]
  have hcycle : old.cycleId = other.cycleId := by rw [hgrew.rest]
  rw [hrevision, hrevision']
  refine hm.highest old ⟨by rw [hid, hold], hcycle.trans hother.ofCycle, ?_⟩
  rw [← hgrew.sealedAt]
  exact hother.sealedAt

end Manifests

/-! ### One manifest for a revision -/

/-- A step does not freeze a revision of a cycle that is frozen for another roster. -/
def KeepsRevisions (s : MemoryDistributionState) : DistributionEvent → Prop
  | .call (.freeze scope input _) _ => ∀ id stored,
    s.manifests.lookup (scope.storageKey, id) = some stored → stored.cycleId = input.cycleId →
    stored.revision = input.revision →
      stored.documentManifestId = input.documentManifest.manifestId
        ∧ stored.documentManifestRevision = input.documentManifest.revision
  | _ => True

/-- What the identity of a manifest is drawn from. -/
def manifestParts (k : String) (m : DistributionManifest) : List String :=
  [k, m.cycleId.toString, toString m.revision, m.documentManifestId.toString, toString m.documentManifestRevision]

section Once

variable [Sha256] {used : List String → Prop}

/-- Every manifest has the identity of its parts, and every revision of a cycle has one manifest. -/
structure FrozenOnce (s : MemoryDistributionState) : Prop where
  identified : ∀ k id m, s.manifests.lookup (k, id) = some m → id = identity (manifestParts k m)
  once : ∀ k id id' m m', s.manifests.lookup (k, id) = some m → s.manifests.lookup (k, id') = some m' → m.cycleId
    = m'.cycleId → m.revision = m'.revision → id = id'

theorem FrozenOnce.empty : FrozenOnce .empty where
  identified k id m h := by simp [MemoryDistributionState.empty] at h
  once k id id' m m' h := by simp [MemoryDistributionState.empty] at h

theorem FrozenOnce.of_grown (hs : FrozenOnce s)
    (hgrown : ∀ key m', s'.manifests.lookup key = some m' →
      ∃ m, s.manifests.lookup key = some m ∧ ManifestGrown m m') : FrozenOnce s' where
  identified k id m' h := by
    obtain ⟨m, hm, hgrew⟩ := hgrown _ _ h
    have hparts : manifestParts k m' = manifestParts k m := by
      rw [hgrew.rest]
      rfl
    rw [hparts]
    exact hs.identified k id m hm
  once k id id' m₁ m₂ h₁ h₂ hcycle hrevision := by
    obtain ⟨old₁, hold₁, hgrew₁⟩ := hgrown _ _ h₁
    obtain ⟨old₂, hold₂, hgrew₂⟩ := hgrown _ _ h₂
    rw [hgrew₁.rest, hgrew₂.rest] at hcycle hrevision
    exact hs.once k id id' old₁ old₂ hold₁ hold₂ hcycle hrevision

theorem freezeDistribution_parts [InstantJson] {scope : TenantScope} {input : FreezeDistribution}
    {m : DistributionManifest} (h : freezeDistribution scope input = .ok m) :
    m.manifestId = distributionManifestId scope input.cycleId input.revision input.documentManifest ∧ m.cycleId
      = input.cycleId ∧ m.revision = input.revision ∧ m.documentManifestId = input.documentManifest.manifestId
      ∧ m.documentManifestRevision = input.documentManifest.revision := by
  simp only [freezeDistribution, eq_ok_iff] at h
  obtain ⟨_, -, _, -, _, -, _, -, _, -, _, -, _, -, _, -, rfl⟩ := h
  exact ⟨rfl, rfl, rfl, rfl, rfl⟩

theorem FrozenOnce.freeze [InstantJson] (hs : FrozenOnce s) {scope : TenantScope} {input : FreezeDistribution}
    {now : DateTime} {m : DistributionManifest} (hfrozen : freezeDistribution scope input = .ok m)
    (hnew : s.manifests.lookup (scope.storageKey, m.manifestId) = none)
    (hkeeps : ∀ id stored, s.manifests.lookup (scope.storageKey, id) = some stored →
      stored.cycleId = input.cycleId → stored.revision = input.revision →
        stored.documentManifestId = input.documentManifest.manifestId
          ∧ stored.documentManifestRevision = input.documentManifest.revision) :
    FrozenOnce (s.insertManifest (scope.storageKey, m.manifestId) { m with sealedAt := now }) := by
  obtain ⟨hid, hcycle, hrevision, hdocuments, hdocumentsRevision⟩ := freezeDistribution_parts hfrozen
  have hlookup (key : String × Uuid) :
      (s.insertManifest (scope.storageKey, m.manifestId) { m with sealedAt := now }).manifests.lookup key
        = if key = (scope.storageKey, m.manifestId) then some { m with sealedAt := now }
          else s.manifests.lookup key := lookup_insert _ _ _ _
  have hdrawn : m.manifestId = identity (manifestParts scope.storageKey m) := by
    rw [hid, manifestParts, hcycle, hrevision, hdocuments, hdocumentsRevision]
    rfl
  -- A stored manifest of the revision would be this one.
  have hother : ∀ id stored, s.manifests.lookup (scope.storageKey, id) = some stored →
      stored.cycleId = m.cycleId → stored.revision = m.revision → False := by
    intro id stored hstored hsameCycle hsameRevision
    have hsame := hkeeps id stored hstored (hsameCycle.trans hcycle) (hsameRevision.trans hrevision)
    have hsameId : id = m.manifestId := by
      rw [hs.identified _ _ _ hstored, hdrawn, manifestParts, manifestParts, hsameCycle,
        hsameRevision, hsame.1, hsame.2, hdocuments, hdocumentsRevision]
    rw [hsameId, hnew] at hstored
    simp at hstored
  refine ⟨fun k id m' h => ?_, fun k id id' m₁ m₂ h₁ h₂ hsameCycle hsameRevision => ?_⟩
  · rw [hlookup] at h
    split at h
    · rename_i hkey
      obtain ⟨rfl, rfl⟩ := Prod.mk.inj hkey
      obtain rfl := some.inj h
      exact hdrawn
    · exact hs.identified k id m' h
  · rw [hlookup] at h₁ h₂
    split at h₁
    · rename_i hkey₁
      obtain ⟨rfl, rfl⟩ := Prod.mk.inj hkey₁
      obtain rfl := some.inj h₁
      split at h₂
      · rename_i hkey₂
        exact (Prod.mk.inj hkey₂).2.symm
      · exact (hother id' m₂ h₂ hsameCycle.symm hsameRevision.symm).elim
    · split at h₂
      · rename_i hkey₂
        obtain ⟨rfl, rfl⟩ := Prod.mk.inj hkey₂
        obtain rfl := some.inj h₂
        exact (hother id m₁ h₁ hsameCycle hsameRevision).elim
      · exact hs.once k id id' m₁ m₂ h₁ h₂ hsameCycle hsameRevision

theorem FrozenOnce.step [UrlParser] [InstantJson] {e : DistributionEvent} (hs : FrozenOnce s)
    (h : (distributionMachine.restrict (DigestsOnly used)).step s e s')
    (hkeeps : KeepsRevisions s e) : FrozenOnce s' := by
  have hsame (hmanifests : s'.manifests = s.manifests) : FrozenOnce s' :=
    hs.of_grown fun key m hm => ⟨m, by rw [← hmanifests, hm], .refl m⟩
  rcases step_distributionEffect h with ⟨-, hreordered⟩ | ⟨call, err, -, rfl⟩ | ⟨call, reply, rfl, heffect⟩
  · exact hs.of_grown fun key m hm => ⟨m, by rw [hreordered.manifests.lookup_eq, hm], .refl m⟩
  · exact hs
  · cases heffect with
    | stored => exact hs
    | frozen hfrozen hnew => exact hs.freeze hfrozen hnew hkeeps
    | @expanded scope id rows clock manifest expanded hstored _ _ _ hexpanded =>
      refine hs.of_grown fun key m' hm' => ?_
      rw [show ((recordRows scope clock 0 rows s).insertManifest (scope.storageKey, id)
          expanded).manifests = (recordRows scope clock 0 rows s).manifests.insert
            (scope.storageKey, id) expanded from rfl,
        recordRows_manifests, lookup_insert] at hm'
      split at hm'
      · rename_i hkey
        obtain rfl := some.inj hm'
        rw [hexpanded]
        exact ⟨manifest, by rw [hkey, hstored], le_add_right _ _, rfl⟩
      · exact ⟨m', hm', .refl m'⟩
    | putOff =>
      refine hsame ?_
      unfold recordChange
      split <;> rfl
    | bound _ _ _ _ _ hbinds =>
      refine hsame ?_
      rw [hbinds.after]
      unfold recordChange
      split
      · exact (storePublication_coverage _ _ _ _ _ _ _).1
      · exact (storePublication_coverage _ _ _ _ _ _ _).1
    | originated hcall horiginates =>
      refine hsame ?_
      rw [horiginates.after]
      exact (keepOrigin_coverage _ _ _ _).1.trans (storePublication_coverage _ _ _ _ _ _ _).1
    | verified => exact hsame rfl

end Once

/-! ### What the two reads return -/

section Reads

variable [Sha256] {used : List String → Prop} {scope : TenantScope} {cycle : Uuid} {m m' : DistributionManifest}

/-- A manifest as it was at a cutoff that shows some targets. -/
def manifestAt (m : DistributionManifest) (targets : List DistributionTarget) : DistributionManifest :=
  { m with
    expansionCursor := denseFrom m.expectedCount 0 targets
    complete := denseFrom m.expectedCount 0 targets = m.expectedCount }

omit [Sha256] in
/-- Growth is not seen at a cutoff. -/
theorem ManifestGrown.manifestAt_eq (h : ManifestGrown m m') (targets : List DistributionTarget) :
    manifestAt m' targets = manifestAt m targets := by
  rw [h.rest]
  rfl

/-- The targets of the manifest that the first read picks, as the second read finds them. -/
theorem CoverageShape.cycleInputs_some (hs' : CoverageShape used s')
    (hpicked : sealedManifest s scope cycle cutoff = some m)
    (hm' : s'.manifests.lookup (scope.storageKey, m.manifestId) = some m')
    (hgrown : ManifestGrown m m') (hsealed : m.sealedAt ≤ cutoff) :
    cycleInputs s s' scope cycle cutoff = .ok
      { manifest := some (manifestAt m (sortByOrdinal (targetsAt s' scope m.manifestId cutoff)))
        targets := sortByOrdinal (targetsAt s' scope m.manifestId cutoff)
        temporallyComplete :=
          (sortByOrdinal (targetsAt s' scope m.manifestId cutoff)).length = m.expectedCount } := by
  have hscoped : scopedManifest s' scope m.manifestId = .ok m' := scopedManifest_eq_ok.mpr ⟨hm', hs'.project hm'⟩
  have hvisible : ¬ cutoff < m'.sealedAt := by
    rw [hgrown.sealedAt]
    exact Int.not_lt.mpr hsealed
  have hsnapshot : asOf s' scope m.manifestId cutoff = .ok
      { manifest := manifestAt m' (sortByOrdinal (targetsAt s' scope m.manifestId cutoff))
        targets := sortByOrdinal (targetsAt s' scope m.manifestId cutoff)
        asOf := cutoff } := by
    rw [asOf, hscoped]
    simp only [eq_ok_iff]
    exact ⟨m', rfl, (), hvisible, rfl⟩
  rw [hgrown.manifestAt_eq] at hsnapshot
  simp only [cycleInputs, hpicked, hsnapshot]
  rfl

/-- What a report reads of a cycle at a cutoff. -/
inductive HistoricalInputs (s s' : MemoryDistributionState) (scope : TenantScope) (cycle : Uuid)
    (cutoff : DateTime) : DistributionCycleInputs → Prop where
  /-- Nothing was sealed. -/
  | nothing (hnothing : ∀ m, ¬ SealedBy s scope cycle cutoff m) :
      HistoricalInputs s s' scope cycle cutoff { manifest := none, targets := [], temporallyComplete := false }
  /-- The manifest of the highest revision with its targets at the cutoff. -/
  | sealed {m manifest : DistributionManifest} {targets : List DistributionTarget}
      (hpicked : HighestSealed s scope cycle cutoff m)
      (hmanifest : manifest = { m with
        expansionCursor := manifest.expansionCursor
        complete := manifest.complete })
      (htargets : ∀ target, target ∈ targets ↔ target.manifestId = m.manifestId
        ∧ ∃ targetId v, ((s'.histories.lookup (scope.storageKey, targetId)).bind fun history =>
          versionAt history cutoff) = some v ∧ v.target = target)
      (hordered : targets.Pairwise fun target target' => target.ordinal < target'.ordinal) :
      HistoricalInputs s s' scope cycle cutoff
        { manifest := some manifest, targets, temporallyComplete := manifest.complete }

omit [Sha256] in
theorem sortByOrdinal_pairwise {targets : List DistributionTarget} (hnodup : (targets.map ordinal).Nodup) :
    (sortByOrdinal targets).Pairwise fun target target' => target.ordinal < target'.ordinal := by
  let le : DistributionTarget → DistributionTarget → Prop := fun a b => a.ordinal ≤ b.ordinal
  have htrans : IsTrans DistributionTarget le := ⟨fun _ _ _ => le_trans⟩
  have htotal : Std.Total le := ⟨fun _ _ => le_total _ _⟩
  have hsorted := pairwise_insertionSort le targets
  have hperm := (perm_insertionSort le targets).map ordinal
  have hdistinct := pairwise_map.mp (hperm.nodup_iff.mpr hnodup)
  exact hsorted.imp₂ (fun _ _ hle hne => lt_of_le_of_ne hle hne) hdistinct

theorem CoverageShape.historicalInputs (hs : CoverageShape used s) (hs' : CoverageShape used s')
    (hgrown : CoverageGrown s s') :
    ∃ inputs, cycleInputs s s' scope cycle cutoff = .ok inputs ∧ HistoricalInputs s s' scope cycle cutoff inputs := by
  cases hpicked : sealedManifest s scope cycle cutoff with
  | none =>
    refine ⟨_, ?_, .nothing (hs.sealedManifest_none.mp hpicked)⟩
    simp only [cycleInputs, hpicked]
    rfl
  | some m =>
    have hhighest := hs.sealedManifest_some hpicked
    obtain ⟨m', hm', hgrew⟩ := hgrown.manifests _ _ hhighest.stored
    have hread := hs'.cycleInputs_some hpicked hm' hgrew hhighest.sealedAt
    have hnodup := hs'.targetsAt_nodup scope m.manifestId cutoff
    have hcount : m'.expectedCount = m.expectedCount := by rw [hgrew.rest]
    -- The flag of the snapshot counts the dense run, the other one all targets.
    have hcomplete : decide ((sortByOrdinal (targetsAt s' scope m.manifestId cutoff)).length = m.expectedCount)
        = (manifestAt m (sortByOrdinal (targetsAt s' scope m.manifestId cutoff))).complete := by
      refine decide_eq_decide.mpr ?_
      rw [← hcount, denseFrom_eq_bound hnodup (hs'.targetsAt_below hm')]
      rw [sortByOrdinal, length_insertionSort]
    rw [hcomplete] at hread
    refine ⟨_, hread, .sealed hhighest rfl (fun target => ?_) (sortByOrdinal_pairwise hnodup)⟩
    rw [sortByOrdinal, mem_insertionSort]
    exact mem_targetsAt

/-- Reads after the cutoff agree. -/
theorem SeenAlike.cycleInputs_eq {s₁ s₂ : MemoryDistributionState} (h₁ : SeenAlike cutoff s s₁)
    (h₂ : SeenAlike cutoff s₁ s₂) (hs : CoverageShape used s) (hs₁ : CoverageShape used s₁)
    (hs₂ : CoverageShape used s₂) (honce : FrozenOnce s₁) :
    cycleInputs s₁ s₂ scope cycle cutoff = cycleInputs s s scope cycle cutoff := by
  cases hpicked : sealedManifest s scope cycle cutoff with
  | none =>
    have hnone : sealedManifest s₁ scope cycle cutoff = none := by
      refine hs₁.sealedManifest_none.mpr fun m₁ hm₁ => ?_
      obtain ⟨m, hm, hgrown⟩ := h₁.known _ _ hm₁.stored hm₁.sealedAt
      have hid : m.manifestId = m₁.manifestId := by rw [hgrown.rest]
      have hcycle : m.cycleId = m₁.cycleId := by rw [hgrown.rest]
      refine hs.sealedManifest_none.mp hpicked m ⟨by rw [hid, hm], hcycle.trans hm₁.ofCycle, ?_⟩
      rw [← hgrown.sealedAt]
      exact hm₁.sealedAt
    simp only [cycleInputs, hpicked, hnone]
  | some m =>
    have hhighest := hs.sealedManifest_some hpicked
    obtain ⟨m₁, hm₁, hgrown₁⟩ := h₁.manifests _ _ hhighest.stored hhighest.sealedAt
    have hhighest₁ := h₁.highestSealed hhighest hm₁
    obtain ⟨_, hm₂, hgrown₂⟩ := h₂.manifests _ _ hhighest₁.stored hhighest₁.sealedAt
    have hid₁ : m₁.manifestId = m.manifestId := by rw [hgrown₁.rest]
    have hcount₁ : m₁.expectedCount = m.expectedCount := by rw [hgrown₁.rest]
    -- The manifest that is picked later is this one, since its revision has no other manifest.
    have hpicked₁ : sealedManifest s₁ scope cycle cutoff = some m₁ := by
      cases hfound : sealedManifest s₁ scope cycle cutoff with
      | none => exact (hs₁.sealedManifest_none.mp hfound m₁ hhighest₁.toSealedBy).elim
      | some other =>
        have hother := hs₁.sealedManifest_some hfound
        have hrevision : other.revision = m₁.revision :=
          Int.le_antisymm (hhighest₁.highest _ hother.toSealedBy) (hother.highest _ hhighest₁.toSealedBy)
        have hsame := honce.once _ _ _ _ _ hother.stored hhighest₁.stored
          (hother.ofCycle.trans hhighest₁.ofCycle.symm) hrevision
        have hstored := hother.stored
        rw [hsame, hhighest₁.stored] at hstored
        exact hstored.symm
    rw [hs₂.cycleInputs_some hpicked₁ hm₂ hgrown₂ hhighest₁.sealedAt,
      hs.cycleInputs_some hpicked hhighest.stored (.refl m) hhighest.sealedAt, hid₁, hcount₁,
      (h₁.trans h₂).targets hs hs₂, hgrown₁.manifestAt_eq]

/-- The past does not change, in every run that freezes each revision of a cycle for one roster. A report of a
cycle shows the one manifest of the highest revision that was sealed by its cutoff, and its two reads return
the same however much is recorded after the cutoff before and between them. -/
theorem cycleInputs_historical [UrlParser] [InstantJson] (hfree : CollisionFree used) {events : List DistributionEvent}
    (hrun : (distributionMachine.restrict fun s e => DigestsOnly used s e ∧ KeepsRevisions s e).Run .empty events s) :
    (∀ (scope : TenantScope) id id' m m', s.manifests.lookup (scope.storageKey, id) = some m →
      s.manifests.lookup (scope.storageKey, id') = some m' → m.cycleId = m'.cycleId →
      m.revision = m'.revision → id = id')
      ∧ ∀ scope cycle cutoff,
        (∀ later s',
          (distributionMachine.restrict fun s e => DigestsOnly used s e ∧ KeepsRevisions s e).Run s later s' →
          ∃ inputs, cycleInputs s s' scope cycle cutoff = .ok inputs ∧ HistoricalInputs s s' scope cycle cutoff inputs)
        ∧ ∀ before between s₁ s₂,
          (distributionMachine.restrict fun s e => DigestsOnly used s e ∧ KeepsRevisions s e).Run s before s₁ →
          (distributionMachine.restrict fun s e => DigestsOnly used s e ∧ KeepsRevisions s e).Run s₁ between s₂ →
          (∀ e ∈ before ++ between, ∀ t, DistributionEvent.Reads e t → cutoff < t) →
          cycleInputs s₁ s₂ scope cycle cutoff = cycleInputs s s scope cycle cutoff := by
  let ok : MemoryDistributionState → DistributionEvent → Prop := fun s e =>
    DigestsOnly used s e ∧ KeepsRevisions s e
  have hdigests {s s' : MemoryDistributionState} {events : List DistributionEvent}
      (h : (distributionMachine.restrict ok).Run s events s') :
      (distributionMachine.restrict (DigestsOnly used)).Run s events s' :=
    h.restrict_imp fun _ _ hok => hok.1
  have honceRun {s s' : MemoryDistributionState} {events : List DistributionEvent}
      (h : (distributionMachine.restrict ok).Run s events s') (hs : FrozenOnce s) : FrozenOnce s' :=
    Machine.Run.invariant (M := distributionMachine.restrict ok)
      (fun _ _ _ hs hstep => hs.step ⟨hstep.1.1, hstep.2⟩ hstep.1.2) h hs
  have hshapeRun {s s' : MemoryDistributionState} {events : List DistributionEvent}
      (h : (distributionMachine.restrict ok).Run s events s') (hs : CoverageShape used s) : CoverageShape used s' :=
    Machine.Run.invariant (M := distributionMachine.restrict (DigestsOnly used))
      (fun _ _ _ hs hstep => hs.step hfree hstep) (hdigests h) hs
  have hs := coverageShape_run hfree (hdigests hrun)
  have honce := honceRun hrun .empty
  refine ⟨fun scope => honce.once scope.storageKey, fun scope cycle cutoff => ⟨?_, ?_⟩⟩
  · intro later s' hlater
    exact hs.historicalInputs (hshapeRun hlater hs) (coverageGrown_run hfree hs (hdigests hlater))
  · intro before between s₁ s₂ hbefore hbetween hlate
    have hs₁ := hshapeRun hbefore hs
    have h₁ : SeenAlike cutoff s s₁ :=
      seenAlike_run (hdigests hbefore) fun e he => hlate e (mem_append_left _ he)
    have h₂ : SeenAlike cutoff s₁ s₂ :=
      seenAlike_run (hdigests hbetween) fun e he => hlate e (mem_append_right _ he)
    exact h₁.cycleInputs_eq h₂ hs hs₁ (hshapeRun hbetween hs₁) (honceRun hbefore honce)

end Reads

namespace Sample

theorem onlineCalls_revisions :
    Calls.Allowed runSecure
      (fun s e => @DigestsOnly secureHash noLinks freezeInstant (· ∈ onlineTexts) s e
        ∧ KeepsRevisions s e) .empty (onlineCalls.take 2) := by
  obtain ⟨⟨hfreeze, -⟩, ⟨hexpand, -⟩, -⟩ := onlineCalls_allowed
  refine ⟨⟨hfreeze, fun id stored hstored => ?_⟩, ⟨hexpand, trivial⟩, trivial⟩
  simp [MemoryDistributionState.empty] at hstored

/-- The calls after the coverage is expanded. -/
theorem onlineMaterialize_revisions :
    Calls.Allowed runSecure
      (fun s e => @DigestsOnly secureHash noLinks freezeInstant (· ∈ onlineTexts) s e
        ∧ KeepsRevisions s e) onlineExpanded (onlineCalls.drop 2) := by
  obtain ⟨-, -, ⟨hpublish, -⟩, -⟩ := onlineCalls_allowed
  exact ⟨⟨hpublish, trivial⟩, trivial⟩

end Sample

open Sample

theorem cycleInputs_historical_sample :
    cycleInputs (Calls.after runSecure onlineExpanded (onlineCalls.drop 2))
        (Calls.after runSecure onlineExpanded (onlineCalls.drop 2)) scope (uuid 10) 6
      = cycleInputs onlineExpanded onlineExpanded scope (uuid 10) 6 := by
  have hrun := runSecure_allowed (onlineCalls.take 2) .empty onlineCalls_revisions
  have hlater := runSecure_allowed
    (onlineCalls.drop 2) onlineExpanded onlineMaterialize_revisions
  have hpast := ((@cycleInputs_historical _ secureHash _ noLinks freezeInstant
    onlineTexts_free _ hrun).2 scope (uuid 10) 6).2
  refine hpast _ _ _ _ hlater .refl ?_
  intro e he t ht
  rw [append_nil] at he
  obtain rfl := mem_singleton.mp he
  obtain rfl : t = 7 := ht
  decide

namespace Sample

def otherInput : FreezeDistribution :=
  coverageInput (uuid 10) (uuid 200) [placement "zhihu" false]

theorem other_frozen : (frozen otherInput).isSome = true := by
  decide +kernel

def otherManifest : DistributionManifest :=
  (frozen otherInput).get other_frozen

/-- One revision of a cycle is frozen for two rosters. -/
def twoRosters : List DistributionCall :=
  onlineCalls.take 1 ++ [.freeze scope otherInput 6]

end Sample

/-- A cycle has two manifests of one revision. -/
theorem revision_frozen_twice :
    ∃ events s id id' m m',
      (@distributionMachine secureHash noLinks freezeInstant).Run .empty events s
        ∧ s.manifests.lookup (scope.storageKey, id) = some m ∧ s.manifests.lookup (scope.storageKey, id')
        = some m' ∧ m.cycleId = m'.cycleId ∧ m.revision = m'.revision ∧ id ≠ id' := by
  have hrun := Calls.run_trace_all runSecure MemoryDistributionState.Reordered twoRosters .empty
  have hmanifests :
      ((Calls.after runSecure .empty twoRosters).manifests.lookup
          (scope.storageKey, onlineManifest.manifestId)).map
            (fun m => (m.cycleId, m.revision)) = some (uuid 10, 1)
        ∧ ((Calls.after runSecure .empty twoRosters).manifests.lookup
          (scope.storageKey, otherManifest.manifestId)).map
            (fun m => (m.cycleId, m.revision)) = some (uuid 10, 1)
        ∧ onlineManifest.manifestId ≠ otherManifest.manifestId := by
    decide +kernel
  obtain ⟨hfirst, hsecond, hdistinct⟩ := hmanifests
  obtain ⟨m, hm, hfields⟩ := map_eq_some_iff.mp hfirst
  obtain ⟨m', hm', hfields'⟩ := map_eq_some_iff.mp hsecond
  obtain ⟨hcycle, hrevision⟩ := Prod.mk.inj (hfields.trans hfields'.symm)
  exact ⟨_, _, _, _, m, m', hrun, hm, hm', hcycle, hrevision, hdistinct⟩

end GeoMaster
