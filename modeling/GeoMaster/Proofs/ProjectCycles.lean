import GeoMaster.Lib.History
import GeoMaster.Proofs.ProjectSteps

/-!
# The life of a project

A project is started once and from then on has a chain of cycles: the first has no predecessor, each of the others
follows the one before it with a window that begins where that one's ended, and the project names the last. What a cycle
holds is fixed, and the settings are those of its configuration revision. This needs nothing of a run but that new
identifiers are new.

That no two projects of a tenant share a slug needs more. An edit compares the slug as it was sent and stores it trimmed,
so a run keeps the slugs apart where no accepted edit asks for a slug that is taken only once it is trimmed.
-/

namespace GeoMaster

open Except AssocMap List Option Calls

open MemoryProjectRepository

/-! ### Reading what was written -/

section Lookups

variable (s : MemoryProjectRepository)

@[simp]
theorem putProject_projects (id id' : ProjectId) (project : Project) :
    (putProject id project s).state.projects.lookup id'
      = if id' = id then some project else s.state.projects.lookup id' :=
  lookup_insert _ _ _ _

@[simp]
theorem putProject_cycles (id : ProjectId) (project : Project) :
    (putProject id project s).state.cycles = s.state.cycles :=
  rfl

@[simp]
theorem putStart_projects (id : ProjectId) (record : MemoryStartRecord) :
    (putStart id record s).state.projects = s.state.projects :=
  rfl

@[simp]
theorem putStart_starts (id id' : ProjectId) (record : MemoryStartRecord) :
    (putStart id record s).state.starts.lookup id' = if id' = id then some record else s.state.starts.lookup id' :=
  lookup_insert _ _ _ _

@[simp]
theorem putStart_cycles (id : ProjectId) (record : MemoryStartRecord) :
    (putStart id record s).state.cycles = s.state.cycles :=
  rfl

@[simp]
theorem putCycle_projects (record : MemoryCycleRecord) : (putCycle record s).state.projects = s.state.projects :=
  rfl

@[simp]
theorem putCycle_starts (record : MemoryCycleRecord) : (putCycle record s).state.starts = s.state.starts :=
  rfl

@[simp]
theorem putCycle_cycles (record : MemoryCycleRecord) (cycleId : Uuid) :
    (putCycle record s).state.cycles.lookup cycleId
      = if cycleId = record.view.cycleId then some record else s.state.cycles.lookup cycleId :=
  lookup_insert _ _ _ _

end Lookups

/-! ### Chains of cycles -/

/-- A cycle comes right after another one. -/
structure Follows (cycle next : MemoryCycleRecord) : Prop where
  predecessor : next.previousCycleId = some cycle.view.cycleId
  adjacent : next.view.reportWindowStartAt = cycle.view.reportWindowEndAt

/-- The cycles of a project, oldest first. -/
structure CycleChain (s : MemoryProjectRepository) (id : ProjectId) (project : Project)
    (cycles : List MemoryCycleRecord) : Prop where
  members : ∀ cycle, cycle ∈ cycles ↔ s.state.cycles.lookup cycle.view.cycleId = some cycle ∧ cycle.projectId = id
  distinct : (cycles.map fun cycle => cycle.view.cycleId).Nodup
  first : ∀ cycle ∈ cycles.head?, cycle.previousCycleId = none
  linked : cycles.IsChain Follows
  windows : ∀ cycle ∈ cycles, cycle.view.reportWindowStartAt < cycle.view.reportWindowEndAt
  current : project.currentCycleId = cycles.getLast?.map fun cycle => cycle.view.cycleId
  config : project.currentConfigRevisionId = cycles.getLast?.map MemoryCycleRecord.configRevisionId

namespace CycleChain

variable {s s' : MemoryProjectRepository} {id : ProjectId} {project project' : Project}
  {cycles : List MemoryCycleRecord}

/-- The windows of a chain come one after the other. -/
theorem disjoint (h : CycleChain s id project cycles) :
    cycles.Pairwise fun cycle later =>
      cycle.view.reportWindowEndAt ≤ later.view.reportWindowStartAt := by
  have hstrict : cycles.IsChain fun cycle later =>
      cycle.view.reportWindowEndAt ≤ later.view.reportWindowStartAt
        ∧ later.view.reportWindowStartAt < later.view.reportWindowEndAt :=
    h.linked.imp_of_mem_imp fun cycle later _ hlater hfollows => ⟨hfollows.adjacent.ge, h.windows later hlater⟩
  have htrans : Trans
      (fun cycle later : MemoryCycleRecord =>
        cycle.view.reportWindowEndAt ≤ later.view.reportWindowStartAt
          ∧ later.view.reportWindowStartAt < later.view.reportWindowEndAt)
      (fun cycle later : MemoryCycleRecord =>
        cycle.view.reportWindowEndAt ≤ later.view.reportWindowStartAt
          ∧ later.view.reportWindowStartAt < later.view.reportWindowEndAt)
      (fun cycle later : MemoryCycleRecord =>
        cycle.view.reportWindowEndAt ≤ later.view.reportWindowStartAt
          ∧ later.view.reportWindowStartAt < later.view.reportWindowEndAt) :=
    ⟨fun hab hbc => ⟨hab.1.trans (hab.2.le.trans hbc.1), hbc.2⟩⟩
  exact hstrict.pairwise.imp fun hpair => hpair.1

/-- No two cycles of a chain have one predecessor, and only one has none. -/
theorem successor_unique (h : CycleChain s id project cycles) :
    ∀ cycle ∈ cycles, ∀ other ∈ cycles, cycle.previousCycleId = other.previousCycleId → cycle = other := by
  have hprevious (i : Nat) (hi : i < cycles.length) :
      cycles[i].previousCycleId = if hpos : 0 < i then some cycles[i - 1].view.cycleId else none := by
    cases i with
    | zero => exact h.first _ (by rw [List.head?_eq_getElem?, List.getElem?_eq_getElem hi]; rfl)
    | succ i => exact ((isChain_iff_getElem.mp h.linked) i (by omega)).predecessor
  intro cycle hcycle other hother heq
  obtain ⟨i, hi, rfl⟩ := mem_iff_getElem.mp hcycle
  obtain ⟨j, hj, rfl⟩ := mem_iff_getElem.mp hother
  rw [hprevious i hi, hprevious j hj] at heq
  have hindex : i = j := by
    by_cases hipos : 0 < i <;> by_cases hjpos : 0 < j
    · rw [dif_pos hipos, dif_pos hjpos, some_inj] at heq
      have hilt : i - 1 < (cycles.map fun cycle => cycle.view.cycleId).length := by simp; omega
      have hjlt : j - 1 < (cycles.map fun cycle => cycle.view.cycleId).length := by simp; omega
      have hids : (cycles.map fun cycle => cycle.view.cycleId)[i - 1]
          = (cycles.map fun cycle => cycle.view.cycleId)[j - 1] := by
        simpa using heq
      have := (List.Nodup.getElem_inj_iff h.distinct).mp hids
      omega
    · rw [dif_pos hipos, dif_neg hjpos] at heq
      cases heq
    · rw [dif_neg hipos, dif_pos hjpos] at heq
      cases heq
    · omega
  subst hindex
  rfl

/-- The chain of a project only depends on its cycles and on the cycle it names. -/
theorem congr (h : CycleChain s id project cycles)
    (hcycles : ∀ cycleId, s'.state.cycles.lookup cycleId = s.state.cycles.lookup cycleId)
    (hcurrent : project'.currentCycleId = project.currentCycleId)
    (hconfig : project'.currentConfigRevisionId = project.currentConfigRevisionId) : CycleChain s' id project' cycles :=
  { h with
    members := fun cycle => by rw [hcycles, h.members]
    current := hcurrent.trans h.current
    config := hconfig.trans h.config }

variable {record : MemoryCycleRecord}

/-- A new cycle of another project is not in the chain. -/
theorem other (h : CycleChain s id project cycles)
    (hnew : s.state.cycles.lookup record.view.cycleId = none) (hid : record.projectId ≠ id)
    (hcycles : ∀ cycleId, s'.state.cycles.lookup cycleId
      = if cycleId = record.view.cycleId then some record else s.state.cycles.lookup cycleId) :
    CycleChain s' id project cycles :=
  { h with
    members := by
      intro cycle
      rw [hcycles, h.members]
      by_cases hkey : cycle.view.cycleId = record.view.cycleId
      · rw [if_pos hkey, hkey, hnew]
        refine ⟨fun hfound => (nomatch hfound.1), fun hfound => ?_⟩
        rw [some_inj.mp hfound.1] at hid
        exact absurd hfound.2 hid
      · rw [if_neg hkey] }

/-- A project without cycles. -/
theorem empty (hnone : ∀ cycleId cycle, s.state.cycles.lookup cycleId = some cycle →
      cycle.projectId ≠ id) (hcurrent : project.currentCycleId = none)
    (hconfig : project.currentConfigRevisionId = none) : CycleChain s id project [] where
  members cycle := ⟨fun hmem => (nomatch hmem), fun hfound => absurd hfound.2 (hnone _ cycle hfound.1)⟩
  distinct := nodup_nil
  first := by simp
  linked := .nil
  windows := by simp
  current := hcurrent
  config := hconfig

/-- A new cycle after the last one. -/
theorem append (h : CycleChain s id project cycles)
    (hnew : s.state.cycles.lookup record.view.cycleId = none) (hid : record.projectId = id)
    (hcycles : ∀ cycleId, s'.state.cycles.lookup cycleId
      = if cycleId = record.view.cycleId then some record else s.state.cycles.lookup cycleId)
    (hfirst : cycles = [] → record.previousCycleId = none)
    (hfollows : ∀ last ∈ cycles.getLast?, Follows last record)
    (hwindow : record.view.reportWindowStartAt < record.view.reportWindowEndAt)
    (hcurrent : project'.currentCycleId = some record.view.cycleId)
    (hconfig : project'.currentConfigRevisionId = some record.configRevisionId) :
    CycleChain s' id project' (cycles ++ [record]) where
  members cycle := by
    rw [hcycles, mem_append, mem_singleton, h.members]
    by_cases hkey : cycle.view.cycleId = record.view.cycleId
    · rw [if_pos hkey, hkey, hnew]
      constructor
      · rintro (⟨hfound, -⟩ | rfl)
        · cases hfound
        · exact ⟨rfl, hid⟩
      · exact fun hfound => .inr (some_inj.mp hfound.1).symm
    · rw [if_neg hkey]
      refine ⟨fun hmem => ?_, .inl⟩
      rcases hmem with hold | rfl
      · exact hold
      · exact absurd rfl hkey
  distinct := by
    rw [map_append, nodup_append]
    refine ⟨h.distinct, nodup_singleton _, ?_⟩
    intro cycleId hmem cycleId' hmem' heq
    obtain ⟨cycle, hcycle, rfl⟩ := mem_map.mp hmem
    have hfound := ((h.members cycle).mp hcycle).1
    rw [heq, mem_singleton.mp hmem', hnew] at hfound
    cases hfound
  first := by
    cases cycles with
    | nil =>
      intro cycle hcycle
      obtain rfl := some_inj.mp hcycle
      exact hfirst rfl
    | cons cycle rest => exact h.first
  linked := by
    refine h.linked.append (.singleton _) ?_
    intro last hlast next hnext
    obtain rfl := some_inj.mp hnext
    exact hfollows last hlast
  windows cycle hmem := by
    rcases mem_append.mp hmem with hold | hnew'
    · exact h.windows cycle hold
    · rw [mem_singleton.mp hnew']
      exact hwindow
  current := by rw [List.getLast?_concat, hcurrent]; rfl
  config := by rw [List.getLast?_concat, hconfig]; rfl

theorem getLast_eq (h : CycleChain s id project cycles) {cycleId : Uuid} {cycle : MemoryCycleRecord}
    (hcurrent : project.currentCycleId = some cycleId) (hfound : s.state.cycles.lookup cycleId = some cycle) :
    cycles.getLast? = some cycle := by
  rw [h.current] at hcurrent
  obtain ⟨last, hlast, rfl⟩ := map_eq_some_iff.mp hcurrent
  have hmem := (h.members last).mp (mem_of_getLast? hlast)
  rw [hlast, ← hfound, hmem.1]

end CycleChain

/-! ### Invariants -/

/-- Settings go by their configuration revision. -/
def ConfigsAgree (s : MemoryProjectRepository) : Prop :=
  ∀ cycleId cycleId' cycle cycle', s.state.cycles.lookup cycleId = some cycle → s.state.cycles.lookup cycleId' = some
    cycle' → cycle.configRevisionId = cycle'.configRevisionId → cycle.settings = cycle'.settings

structure ProjectsSound (s : MemoryProjectRepository) : Prop where
  quiet : s.failNextStart = false
  keyed : ∀ id project, s.state.projects.lookup id = some project → project.id = id
  cycleKeyed : ∀ cycleId cycle, s.state.cycles.lookup cycleId = some cycle → cycle.view.cycleId = cycleId
  owned : ∀ cycleId cycle, s.state.cycles.lookup cycleId = some cycle → (s.state.projects.lookup cycle.projectId).isSome
  unstarted : ∀ id, s.state.starts.lookup id = none →
    ∀ cycleId cycle, s.state.cycles.lookup cycleId = some cycle → cycle.projectId ≠ id
  chains : ∀ id project, s.state.projects.lookup id = some project → ∃ cycles, CycleChain s id project cycles
  configs : ConfigsAgree s

/-- New identifiers are new. -/
def FreshProjectIds (s : MemoryProjectRepository) : ProjectEvent → Prop
  | .call (.create _ _ id _) _ => s.state.projects.lookup id = none
  | .call (.start _ _ _ ids _) _ | .call (.scheduleNextCycle _ _ _ ids _) _ =>
    s.state.cycles.lookup ids.cycleId = none
      ∧ ∀ cycleId cycle, s.state.cycles.lookup cycleId = some cycle → cycle.configRevisionId ≠ ids.configRevisionId
  | _ => True

theorem ConfigsAgree.insert {s s' : MemoryProjectRepository} (h : ConfigsAgree s) {record : MemoryCycleRecord}
    (hcycles : ∀ cycleId, s'.state.cycles.lookup cycleId
      = if cycleId = record.view.cycleId then some record else s.state.cycles.lookup cycleId)
    (hrecord : ∀ cycleId cycle, s.state.cycles.lookup cycleId = some cycle →
      cycle.configRevisionId = record.configRevisionId → cycle.settings = record.settings) :
    ConfigsAgree s' := by
  intro cycleId cycleId' cycle cycle' hfound hfound' hconfig
  rw [hcycles] at hfound hfound'
  split at hfound <;> split at hfound'
  · rw [← some_inj.mp hfound, ← some_inj.mp hfound']
  · obtain rfl := some_inj.mp hfound
    exact (hrecord cycleId' cycle' hfound' hconfig.symm).symm
  · obtain rfl := some_inj.mp hfound'
    exact hrecord cycleId cycle hfound hconfig
  · exact h cycleId cycleId' cycle cycle' hfound hfound' hconfig

/-- One project gets a new cycle and names it. -/
structure AddsCycle (s s' : MemoryProjectRepository) (id : ProjectId) (current project : Project)
    (record : MemoryCycleRecord) : Prop where
  found : s.state.projects.lookup id = some current
  fresh : s.state.cycles.lookup record.view.cycleId = none
  projects : ∀ id', s'.state.projects.lookup id' = if id' = id then some project else s.state.projects.lookup id'
  starts : ∀ id', s'.state.starts.lookup id' = none → s.state.starts.lookup id' = none ∧ id' ≠ id
  cycles : ∀ cycleId, s'.state.cycles.lookup cycleId
    = if cycleId = record.view.cycleId then some record else s.state.cycles.lookup cycleId
  quiet : s'.failNextStart = s.failNextStart
  ofProject : project.id = id
  ofRecord : record.projectId = id
  window : record.view.reportWindowStartAt < record.view.reportWindowEndAt
  current : project.currentCycleId = some record.view.cycleId
  config : project.currentConfigRevisionId = some record.configRevisionId

section Invariants

variable {s s' : MemoryProjectRepository}

namespace ProjectsSound

theorem start : ProjectsSound MemoryProjectRepository.default where
  quiet := rfl
  keyed id project h := by simp [MemoryProjectRepository.default] at h
  cycleKeyed cycleId cycle h := by simp [MemoryProjectRepository.default] at h
  owned cycleId cycle h := by simp [MemoryProjectRepository.default] at h
  unstarted id _ cycleId cycle h := by simp [MemoryProjectRepository.default] at h
  chains id project h := by simp [MemoryProjectRepository.default] at h
  configs cycleId cycleId' cycle cycle' h := by simp [MemoryProjectRepository.default] at h

theorem reordered (h : ProjectsSound s) (hsame : s.Reordered s') : ProjectsSound s' where
  quiet := hsame.failNextStart.trans h.quiet
  keyed id project hfound := h.keyed id project (by rwa [hsame.projects] at hfound)
  cycleKeyed cycleId cycle hfound := h.cycleKeyed cycleId cycle (by rwa [hsame.cycles] at hfound)
  owned cycleId cycle hfound := by
    rw [hsame.projects]
    exact h.owned cycleId cycle (by rwa [hsame.cycles] at hfound)
  unstarted id hnone cycleId cycle hfound :=
    h.unstarted id (by rwa [hsame.starts] at hnone) cycleId cycle (by rwa [hsame.cycles] at hfound)
  chains id project hfound := by
    obtain ⟨cycles, hchain⟩ := h.chains id project (by rwa [hsame.projects] at hfound)
    exact ⟨cycles, hchain.congr hsame.cycles rfl rfl⟩
  configs cycleId cycleId' cycle cycle' hfound hfound' :=
    h.configs cycleId cycleId' cycle cycle' (by rwa [hsame.cycles] at hfound) (by rwa [hsame.cycles] at hfound')

variable {id : ProjectId} {project current : Project}

theorem storesProject (h : ProjectsSound s) (hid : project.id = id)
    (hchain : ∃ cycles, CycleChain s id project cycles) : ProjectsSound (putProject id project s) where
  quiet := h.quiet
  keyed id' project' hfound := by
    rw [putProject_projects] at hfound
    split at hfound
    · rename_i hkey
      rw [← some_inj.mp hfound, hid, hkey]
    · exact h.keyed id' project' hfound
  cycleKeyed := h.cycleKeyed
  owned cycleId cycle hfound := by
    rw [putProject_projects]
    split
    · rfl
    · exact h.owned cycleId cycle hfound
  unstarted := h.unstarted
  chains id' project' hfound := by
    rw [putProject_projects] at hfound
    split at hfound
    · rename_i hkey
      obtain ⟨cycles, hchain⟩ := hchain
      rw [← some_inj.mp hfound, hkey]
      exact ⟨cycles, hchain.congr (fun _ => rfl) rfl rfl⟩
    · obtain ⟨cycles, hold⟩ := h.chains id' project' hfound
      exact ⟨cycles, hold.congr (fun _ => rfl) rfl rfl⟩
  configs := h.configs

theorem addsCycle (h : ProjectsSound s) {record : MemoryCycleRecord} (hadds : AddsCycle s s' id current project record)
    (hfirst : ∀ cycles, CycleChain s id current cycles → cycles = [] → record.previousCycleId = none)
    (hfollows : ∀ cycles, CycleChain s id current cycles → ∀ last ∈ cycles.getLast?, Follows last record)
    (hsettings : ∀ cycleId cycle, s.state.cycles.lookup cycleId = some cycle →
      cycle.configRevisionId = record.configRevisionId → cycle.settings = record.settings) :
    ProjectsSound s' where
  quiet := hadds.quiet.trans h.quiet
  keyed id' project' hlook := by
    rw [hadds.projects] at hlook
    split at hlook
    · rename_i hkey
      rw [← some_inj.mp hlook, hadds.ofProject, hkey]
    · exact h.keyed id' project' hlook
  cycleKeyed cycleId cycle hlook := by
    rw [hadds.cycles] at hlook
    split at hlook
    · rename_i hkey
      rw [← some_inj.mp hlook, hkey]
    · exact h.cycleKeyed cycleId cycle hlook
  owned cycleId cycle hlook := by
    rw [hadds.projects]
    split
    · rfl
    · rename_i hother
      rw [hadds.cycles] at hlook
      split at hlook
      · rw [← some_inj.mp hlook] at hother
        exact absurd hadds.ofRecord hother
      · exact h.owned cycleId cycle hlook
  unstarted id' hnone cycleId cycle hlook := by
    obtain ⟨hold, hother⟩ := hadds.starts id' hnone
    rw [hadds.cycles] at hlook
    split at hlook
    · rw [← some_inj.mp hlook, hadds.ofRecord]
      exact hother.symm
    · exact h.unstarted id' hold cycleId cycle hlook
  chains id' project' hlook := by
    rw [hadds.projects] at hlook
    split at hlook
    · rename_i hkey
      rw [← some_inj.mp hlook, hkey]
      obtain ⟨cycles, hchain⟩ := h.chains id current hadds.found
      exact ⟨_, hchain.append hadds.fresh hadds.ofRecord hadds.cycles (hfirst cycles hchain)
        (hfollows cycles hchain) hadds.window hadds.current hadds.config⟩
    · rename_i hother
      obtain ⟨cycles, hchain⟩ := h.chains id' project' hlook
      exact ⟨cycles, hchain.other hadds.fresh (hadds.ofRecord ▸ Ne.symm hother) hadds.cycles⟩
  configs := h.configs.insert hadds.cycles hsettings

/-- A project that has not been started has no cycles. -/
theorem chain_nil (h : ProjectsSound s) (hnew : s.state.starts.lookup id = none)
    {cycles : List MemoryCycleRecord} (hchain : CycleChain s id current cycles) : cycles = [] := by
  refine eq_nil_iff_forall_not_mem.mpr fun cycle hmem => ?_
  have hcycle := (hchain.members cycle).mp hmem
  exact h.unstarted id hnew _ cycle hcycle.1 hcycle.2

end ProjectsSound

end Invariants

section Effects

variable [TimezoneNames] [ClockText] {s s' : MemoryProjectRepository}

variable {project : Project}

theorem successorSettings_config {predecessor : MemoryCycleRecord} {ids : CycleIds}
    {settings : ProjectSettings} {configRevisionId : Uuid}
    (h : successorSettings project predecessor ids = .ok (settings, configRevisionId)) :
    configRevisionId = ids.configRevisionId
      ∨ configRevisionId = predecessor.configRevisionId ∧ settings = predecessor.settings := by
  simp only [successorSettings] at h
  split at h
  case isTrue =>
    obtain ⟨_, -, hpure⟩ := bind_eq_ok.mp h
    cases pure_eq_ok.mp hpure
    exact .inl rfl
  case isFalse hsame =>
    cases pure_eq_ok.mp h
    exact .inr ⟨rfl, not_not.mp hsame⟩

variable {call : ProjectCall} {id : ProjectId} {reply : Except AppError ProjectReply}

/-- What a call does keeps the invariants, when new identifiers are new. -/
theorem ProjectsSound.effect (h : ProjectsSound s) (hfresh : FreshProjectIds s (.call call reply))
    (heffect : ProjectEffect s call reply s') : ProjectsSound s' := by
  cases heffect with
  | refused => exact h
  | restarted => exact h
  | found => exact h
  | created hid _ _ hcycle hconfig =>
    refine h.storesProject hid ⟨[], .empty ?_ hcycle hconfig⟩
    intro cycleId cycle hfound heq
    have howned := h.owned cycleId cycle hfound
    rw [heq, show s.state.projects.lookup _ = none from hfresh] at howned
    cases howned
  | @updated _ id _ _ current patched hvisible _ hpatched =>
    have hkept := (ProjectPatch.applyTo_ok hpatched).kept
    obtain ⟨cycles, hchain⟩ := h.chains id current hvisible.1
    refine h.storesProject ?_ ⟨cycles, hchain.congr (fun _ => rfl) ?_ ?_⟩
    · show patched.id = id
      rw [hkept]
      exact h.keyed id current hvisible.1
    · show patched.currentCycleId = _
      rw [hkept]
    · show patched.currentConfigRevisionId = _
      rw [hkept]
  | @started _ id command ids now current settings window record hvisible _ hnew _ hwindow =>
    have hadds : AddsCycle s
        (putCycle (firstCycle id ids settings window)
          (putStart id record (putProject id (current.started ids command.operationId now) s)))
        id current (current.started ids command.operationId now)
        (firstCycle id ids settings window) :=
      { found := hvisible.1
        fresh := hfresh.1
        projects := fun id' => by simp
        starts := fun id' hnone => by
          rw [putCycle_starts, putStart_starts] at hnone
          split at hnone
          · cases hnone
          · exact ⟨hnone, ‹_›⟩
        cycles := fun cycleId => by simp
        quiet := rfl
        ofProject := h.keyed id current hvisible.1
        ofRecord := rfl
        window := previousCalendarWeekWindow_lt hwindow
        current := rfl
        config := rfl }
    refine h.addsCycle hadds (fun _ _ _ => rfl) ?_ ?_
    · intro cycles hchain last hlast
      rw [h.chain_nil hnew hchain] at hlast
      cases hlast
    · exact fun cycleId cycle hfound heq => absurd heq (hfresh.2 cycleId cycle hfound)
  | @advanced _ id predecessorCycleId ids now project predecessor settings configRevisionId window hvisible
      hpredecessor hproject hcurrent hwindow hsettings =>
    have hadjacent := nextCalendarWeekWindow_adjacent hwindow
    have hadds : AddsCycle s
        (putProject id (project.advanced ids configRevisionId now)
          (putCycle (nextCycle id predecessorCycleId predecessor ids settings configRevisionId window) s))
        id project (project.advanced ids configRevisionId now)
        (nextCycle id predecessorCycleId predecessor ids settings configRevisionId window) :=
      { found := hvisible.1
        fresh := hfresh.1
        projects := fun id' => by simp
        starts := fun id' hnone => by
          refine ⟨hnone, ?_⟩
          rintro rfl
          exact h.unstarted id' hnone predecessorCycleId predecessor hpredecessor hproject
        cycles := fun cycleId => by simp
        quiet := rfl
        ofProject := h.keyed id project hvisible.1
        ofRecord := rfl
        window := hadjacent.2
        current := rfl
        config := rfl }
    have hlast (cycles : List MemoryCycleRecord) (hchain : CycleChain s id project cycles) :
        cycles.getLast? = some predecessor :=
      hchain.getLast_eq hcurrent hpredecessor
    refine h.addsCycle hadds ?_ ?_ ?_
    · intro cycles hchain hnil
      have hsome := hlast cycles hchain
      rw [hnil] at hsome
      cases hsome
    · intro cycles hchain last hmem
      obtain rfl := some_inj.mp ((hlast cycles hchain).symm.trans hmem)
      exact ⟨by rw [h.cycleKeyed predecessorCycleId _ hpredecessor]; rfl, hadjacent.1⟩
    · intro cycleId cycle hfound heq
      rcases successorSettings_config hsettings with hnew | ⟨hsame, hkept⟩
      · exact absurd (heq.trans hnew) (hfresh.2 cycleId cycle hfound)
      · rw [show (nextCycle id predecessorCycleId predecessor ids settings configRevisionId
          window).settings = predecessor.settings from hkept]
        exact h.configs cycleId predecessorCycleId cycle predecessor hfound hpredecessor (heq.trans hsame)

/-! ### What lasts -/

/-- Cycles and starts stay as they are. -/
structure ProjectsLast (s s' : MemoryProjectRepository) : Prop where
  cycles : ∀ cycleId cycle, s.state.cycles.lookup cycleId = some cycle → s'.state.cycles.lookup cycleId = some cycle
  starts : ∀ id record, s.state.starts.lookup id = some record → s'.state.starts.lookup id = some record

omit [TimezoneNames] [ClockText] in
theorem ProjectsLast.refl (s : MemoryProjectRepository) : ProjectsLast s s :=
  ⟨fun _ _ h => h, fun _ _ h => h⟩

omit [TimezoneNames] [ClockText] in
theorem ProjectsLast.trans {s'' : MemoryProjectRepository} (h : ProjectsLast s s')
    (h' : ProjectsLast s' s'') : ProjectsLast s s'' :=
  ⟨fun _ _ hfound => h'.cycles _ _ (h.cycles _ _ hfound), fun _ _ hfound => h'.starts _ _ (h.starts _ _ hfound)⟩

theorem ProjectEffect.lasts (hfresh : FreshProjectIds s (.call call reply)) (heffect : ProjectEffect s call reply s') :
    ProjectsLast s s' := by
  cases heffect with
  | refused => exact .refl s
  | restarted => exact .refl s
  | found => exact .refl s
  | created => exact ⟨fun _ _ h => h, fun _ _ h => h⟩
  | updated => exact ⟨fun _ _ h => h, fun _ _ h => h⟩
  | started _ _ hnew =>
    refine ⟨fun cycleId cycle hfound => ?_, fun id record hfound => ?_⟩
    · rw [putCycle_cycles, if_neg]
      · exact hfound
      · rintro rfl
        exact absurd (hfound.symm.trans hfresh.1) (some_ne_none cycle)
    · rw [putCycle_starts, putStart_starts, if_neg]
      · exact hfound
      · rintro rfl
        exact absurd (hfound.symm.trans hnew) (some_ne_none record)
  | advanced =>
    refine ⟨fun cycleId cycle hfound => ?_, fun _ _ h => h⟩
    rw [putProject_cycles, putCycle_cycles, if_neg]
    · exact hfound
    · rintro rfl
      exact absurd (hfound.symm.trans hfresh.1) (some_ne_none cycle)

/-! ### Slugs -/

/-- No two projects of a tenant have one slug. -/
def SlugsApart (s : MemoryProjectRepository) : Prop :=
  ∀ id id' project project', s.state.projects.lookup id = some project → s.state.projects.lookup id' = some project' →
    project.operatorId = project'.operatorId → project.tenantId = project'.tenantId →
    project.slug = project'.slug → id = id'

/-- No edit that would be accepted asks for a slug that is free as it is sent and taken once it is trimmed. -/
def SlugsKept (s : MemoryProjectRepository) : ProjectEvent → Prop
  | .call (.update scope id expectedRevision patch _) _ =>
    ∀ raw ∈ patch.slug, ∀ current, Visible s scope id current → current.revision = expectedRevision →
      (∃ patched, patch.applyTo current = .ok patched) → ¬ slugTaken s.state scope.operatorId scope.tenantId id raw
      = true → ¬ slugTaken s.state scope.operatorId scope.tenantId id (Text.trim raw) = true
  | _ => True

omit [TimezoneNames] [ClockText] in
theorem slugTaken_iff (h : ProjectsSound s) {operatorId : OperatorId} {tenantId : TenantId} {slug : String} :
    slugTaken s.state operatorId tenantId id slug = true
      ↔ ∃ id' project, s.state.projects.lookup id' = some project ∧ project.operatorId = operatorId
          ∧ project.tenantId = tenantId ∧ project.slug = slug ∧ id' ≠ id := by
  simp only [slugTaken, List.any_eq_true, mem_values, decide_eq_true_eq]
  constructor
  · rintro ⟨project, ⟨id', hfound⟩, hoperator, htenant, hslug, hid⟩
    exact ⟨id', project, hfound, hoperator, htenant, hslug, h.keyed id' project hfound ▸ hid⟩
  · rintro ⟨id', project, hfound, hoperator, htenant, hslug, hid⟩
    exact ⟨project, ⟨id', hfound⟩, hoperator, htenant, hslug, (h.keyed id' project hfound).symm ▸ hid⟩

omit [TimezoneNames] [ClockText] in
theorem SlugsApart.storesProject (hapart : SlugsApart s) (h : ProjectsSound s)
    (hfree : ¬ slugTaken s.state project.operatorId project.tenantId id project.slug = true) :
    SlugsApart (putProject id project s) := by
  have hother (id' : ProjectId) (project' : Project) (hid : id' ≠ id)
      (hfound : s.state.projects.lookup id' = some project') (hoperator : project'.operatorId = project.operatorId)
      (htenant : project'.tenantId = project.tenantId) (hslug : project'.slug = project.slug) : False :=
    hfree ((slugTaken_iff h).mpr ⟨id', project', hfound, hoperator, htenant, hslug, hid⟩)
  intro id₁ id₂ project₁ project₂ hfound₁ hfound₂ hoperator htenant hslug
  rw [putProject_projects] at hfound₁ hfound₂
  by_cases h₁ : id₁ = id <;> by_cases h₂ : id₂ = id
  · rw [h₁, h₂]
  · rw [if_pos h₁, some_inj] at hfound₁
    rw [if_neg h₂] at hfound₂
    subst hfound₁
    exact (hother id₂ project₂ h₂ hfound₂ hoperator.symm htenant.symm hslug.symm).elim
  · rw [if_neg h₁] at hfound₁
    rw [if_pos h₂, some_inj] at hfound₂
    subst hfound₂
    exact (hother id₁ project₁ h₁ hfound₁ hoperator htenant hslug).elim
  · rw [if_neg h₁] at hfound₁
    rw [if_neg h₂] at hfound₂
    exact hapart id₁ id₂ project₁ project₂ hfound₁ hfound₂ hoperator htenant hslug

omit [TimezoneNames] [ClockText] in
theorem SlugsApart.not_taken (hapart : SlugsApart s) (h : ProjectsSound s) {current : Project}
    (hfound : s.state.projects.lookup id = some current) :
    ¬ slugTaken s.state current.operatorId current.tenantId id current.slug = true := by
  intro htaken
  obtain ⟨id', project, hfound', hoperator, htenant, hslug, hid⟩ := (slugTaken_iff h).mp htaken
  exact hid (hapart id' id project current hfound' hfound hoperator htenant hslug)

theorem SlugsApart.effect (hapart : SlugsApart s) (h : ProjectsSound s) (hkept : SlugsKept s (.call call reply))
    (heffect : ProjectEffect s call reply s') : SlugsApart s' := by
  cases heffect with
  | refused => exact hapart
  | restarted => exact hapart
  | found => exact hapart
  | created _ _ _ _ _ hslug => exact hapart.storesProject h hslug
  | @updated _ id patch _ current patched hvisible hslug hpatched =>
    have hpatch := ProjectPatch.applyTo_ok hpatched
    obtain ⟨hoperator, htenant, -⟩ := of_decide_eq_true hvisible.2
    refine hapart.storesProject h ?_
    show ¬ slugTaken s.state patched.operatorId patched.tenantId id patched.slug = true
    rw [show patched.operatorId = current.operatorId by rw [hpatch.kept],
      show patched.tenantId = current.tenantId by rw [hpatch.kept], hpatch.slug]
    cases hraw : patch.slug with
    | none => exact hapart.not_taken h hvisible.1
    | some raw =>
      rw [hoperator, htenant]
      exact hkept raw hraw current hvisible rfl ⟨patched, hpatched⟩ (hslug raw hraw)
  | @started _ id command ids now current _ _ _ hvisible =>
    have hfree := hapart.not_taken h hvisible.1
    have hstored : SlugsApart (putProject id (current.started ids command.operationId now) s) :=
      hapart.storesProject h hfree
    exact hstored
  | @advanced _ id _ ids now project _ _ configRevisionId _ hvisible =>
    have hfree := hapart.not_taken h hvisible.1
    have hstored : SlugsApart (putProject id (project.advanced ids configRevisionId now) s) :=
      hapart.storesProject h hfree
    exact hstored

/-! ### Replies -/

/-- One project changes, and its revision grows by one. -/
structure RevisionGrows (s s' : MemoryProjectRepository) (id : ProjectId) : Prop where
  grows : ∃ project project', s.state.projects.lookup id = some project
    ∧ s'.state.projects.lookup id = some project' ∧ project'.revision = project.revision + 1
  others : ∀ other, other ≠ id → s'.state.projects.lookup other = s.state.projects.lookup other

/-- What a call may do to the projects and the starts. -/
def CallOutcome (s : MemoryProjectRepository) :
    ProjectCall → Except AppError ProjectReply → MemoryProjectRepository → Prop
  | _, .error _, s' => s' = s
  | .create _ _ id _, .ok (.created project), s' =>
    s.state.projects.lookup id = none ∧ s'.state.projects.lookup id = some project ∧ project.revision = 1
      ∧ ∀ other, other ≠ id → s'.state.projects.lookup other = s.state.projects.lookup other
  | .update _ id _ _ _, .ok (.updated update), s' =>
    RevisionGrows s s' id ∧ s'.state.projects.lookup id = some update.project
      ∧ update.project.revision = update.previousRevision + 1
  | .start _ id command _ _, .ok (.started acceptance), s' =>
    (s' = s ∧ ∃ record, s.state.starts.lookup id = some record ∧ StartRecordOf command acceptance record)
      ∨ RevisionGrows s s' id ∧ s.state.starts.lookup id = none
        ∧ ∃ record, s'.state.starts.lookup id = some record ∧ StartRecordOf command acceptance record
  | .scheduleNextCycle _ id _ _ _, .ok (.cycle view), s' =>
    (s' = s ∨ RevisionGrows s s' id)
      ∧ ∃ cycle, s'.state.cycles.lookup view.cycleId = some cycle ∧ cycle.view = view ∧ cycle.projectId = id
  | _, _, _ => False

theorem ProjectEffect.outcome (h : ProjectsSound s) (hfresh : FreshProjectIds s (.call call reply))
    (heffect : ProjectEffect s call reply s') : CallOutcome s call reply s' := by
  cases heffect with
  | refused call error => cases call <;> rfl
  | @created _ _ _ _ _ _ _ hrevision =>
    refine ⟨hfresh, ?_, hrevision, fun other hother => ?_⟩
    · rw [putProject_projects, if_pos rfl]
    · rw [putProject_projects, if_neg hother]
  | @updated _ _ _ _ current patched hvisible _ hpatched =>
    have hrevision : patched.revision = current.revision := by
      rw [(ProjectPatch.applyTo_ok hpatched).kept]
    refine ⟨⟨⟨current, _, hvisible.1, by rw [putProject_projects, if_pos rfl], ?_⟩, fun other hother => ?_⟩,
      by rw [putProject_projects, if_pos rfl], ?_⟩
    · show patched.revision + 1 = current.revision + 1
      rw [hrevision]
    · rw [putProject_projects, if_neg hother]
    · show patched.revision + 1 = current.revision + 1
      rw [hrevision]
  | @restarted _ _ _ _ _ _ record _ hrecord hsame => exact .inl ⟨rfl, record, hrecord, hsame⟩
  | @started _ _ command ids now current _ _ record hvisible _ hnew _ _ hrecord =>
    refine .inr ⟨⟨⟨current, current.started ids command.operationId now, hvisible.1, ?_, rfl⟩,
      fun other hother => ?_⟩, hnew, record, ?_, hrecord⟩
    · rw [putCycle_projects, putStart_projects, putProject_projects, if_pos rfl]
    · rw [putCycle_projects, putStart_projects, putProject_projects, if_neg hother]
    · rw [putCycle_starts, putStart_starts, if_pos rfl]
  | @found _ _ _ _ _ existing hexisting =>
    rw [successorOf] at hexisting
    obtain ⟨cycleId, hfound⟩ := mem_values.mp (mem_of_find?_eq_some hexisting)
    have hmatches := List.find?_some hexisting
    rw [decide_eq_true_iff] at hmatches
    refine ⟨.inl rfl, existing, ?_, rfl, hmatches.1⟩
    rw [h.cycleKeyed cycleId existing hfound, hfound]
  | @advanced _ id predecessorCycleId ids now project predecessor settings configRevisionId window hvisible =>
    refine ⟨.inr ⟨⟨project, project.advanced ids configRevisionId now, hvisible.1, ?_, rfl⟩, fun other hother => ?_⟩,
      nextCycle id predecessorCycleId predecessor ids settings configRevisionId window, ?_, rfl, rfl⟩
    · rw [putProject_projects, if_pos rfl]
    · rw [putProject_projects, if_neg hother, putCycle_projects]
    · rw [putProject_cycles, putCycle_cycles]
      exact if_pos rfl

/-! ### Starting again -/

variable [Sha256]

/-- The request of a start, from a scope that sees the project. -/
def SameStart (s : MemoryProjectRepository) (scope : TenantScope) (id : ProjectId)
    (command : ProjectStartCommand) (record : MemoryStartRecord) : Prop :=
  (∃ current, Visible s scope id current) ∧ record.idempotencyKeyHash = command.idempotencyKeyHash
    ∧ record.requestHash = command.requestHash

/-- A project that was started answers its own request again and refuses every other one. -/
theorem start_again (hquiet : s.failNextStart = false) {record : MemoryStartRecord}
    (hrecord : s.state.starts.lookup id = some record) (scope : TenantScope) (command : ProjectStartCommand)
    (ids : CycleIds) (now : DateTime) :
    (SameStart s scope id command record →
      (MemoryProjectRepository.start scope id command ids now).run s = (.ok record.view.acceptance, s))
    ∧ (¬ SameStart s scope id command record →
      ∃ e, (MemoryProjectRepository.start scope id command ids now).run s = (.error e, s)) := by
  constructor
  · rintro ⟨⟨current, hvisible⟩, hkey, hrequest⟩
    have hreturns : (MemoryProjectRepository.start scope id command ids now).Returns s record.view.acceptance s := by
      refine Op.returns_bind.mpr ⟨current, s, visibleProject_returns.mpr ⟨hvisible, rfl⟩, ?_⟩
      refine Op.returns_bind.mpr ⟨some record, s, Op.returns_read.mpr ⟨hrecord, rfl⟩, ?_⟩
      simp [hkey, hrequest]
    exact hreturns
  · intro hother
    cases hrun : (MemoryProjectRepository.start scope id command ids now).run s with
    | mk reply s' =>
      cases reply with
      | error e => exact ⟨e, by rw [start_failed hquiet hrun]⟩
      | ok acceptance =>
        exfalso
        have heffect := start_effect hquiet hrun
        generalize hcall : ProjectCall.start scope id command ids now = call at heffect
        cases heffect with
        | restarted hvisible hfound hsame =>
          cases hcall
          obtain rfl := some_inj.mp (hrecord.symm.trans hfound)
          exact hother ⟨⟨_, hvisible⟩, hsame.key, hsame.request⟩
        | started _ _ hnew =>
          cases hcall
          rw [hrecord] at hnew
          cases hnew

/-! ### Runs -/

/-- New identifiers are new, and no accepted edit asks for a slug that is taken only once it is trimmed. -/
def ProjectRunOk (s : MemoryProjectRepository) (e : ProjectEvent) : Prop :=
  FreshProjectIds s e ∧ SlugsKept s e

theorem projectMachine_step {e : ProjectEvent} (h : ProjectsSound s) (hapart : SlugsApart s)
    (hstep : (projectMachine.restrict ProjectRunOk).step s e s') :
    ProjectsSound s' ∧ SlugsApart s' ∧ ProjectsLast s s' := by
  obtain ⟨⟨hfresh, hkept⟩, hstep⟩ := hstep
  cases e with
  | reorder =>
    have hsame : s.Reordered s' := hstep
    refine ⟨h.reordered hsame, ?_, fun _ _ hfound => by rwa [hsame.cycles], fun _ _ hfound => by rwa [hsame.starts]⟩
    intro id id' project project' hfound hfound'
    rw [hsame.projects] at hfound hfound'
    exact hapart id id' project project' hfound hfound'
  | call call reply =>
    have heffect := run_projectEffect h.quiet hstep
    exact ⟨h.effect hfresh heffect, hapart.effect h hkept heffect, heffect.lasts hfresh⟩

theorem projectMachine_run {events : List ProjectEvent} (h : ProjectsSound s) (hapart : SlugsApart s)
    (hr : (projectMachine.restrict ProjectRunOk).Run s events s') :
    ProjectsSound s' ∧ SlugsApart s' ∧ ProjectsLast s s' := by
  induction hr with
  | refl => exact ⟨h, hapart, .refl s⟩
  | tail _ hstep ih =>
    obtain ⟨hsound, hslugs, hlasts⟩ := ih
    obtain ⟨hsound', hslugs', hlasts'⟩ := projectMachine_step hsound hslugs hstep
    exact ⟨hsound', hslugs', hlasts.trans hlasts'⟩

/-- What holds of the projects of a state that was reached. -/
structure ProjectLifecycle (s : MemoryProjectRepository) : Prop where
  slugs : SlugsApart s
  chains : ∀ id project, s.state.projects.lookup id = some project →
    ∃ cycles, CycleChain s id project cycles
      ∧ (cycles.Pairwise fun cycle later => cycle.view.reportWindowEndAt ≤ later.view.reportWindowStartAt)
      ∧ ∀ cycle ∈ cycles, ∀ other ∈ cycles, cycle.previousCycleId = other.previousCycleId → cycle = other
  owned : ∀ cycleId cycle, s.state.cycles.lookup cycleId = some cycle → (s.state.projects.lookup cycle.projectId).isSome
  configs : ConfigsAgree s
  startedOnce : ∀ id record, s.state.starts.lookup id = some record →
    ∀ scope command ids now,
      (SameStart s scope id command record →
        (MemoryProjectRepository.start scope id command ids now).run s = (.ok record.view.acceptance, s))
      ∧ (¬ SameStart s scope id command record →
        ∃ e, (MemoryProjectRepository.start scope id command ids now).run s = (.error e, s))

/-- Every state of a run is sound, what it stores stays, and each of its calls changes what it may and nothing when it
fails. -/
theorem projectLifecycle_run {events : List ProjectEvent}
    (hr : (projectMachine.restrict ProjectRunOk).Run MemoryProjectRepository.default events s) :
    ProjectLifecycle s
    ∧ (∀ events' s', (projectMachine.restrict ProjectRunOk).Run s events' s' → ProjectsLast s s')
    ∧ ∀ call reply s', (projectMachine.restrict ProjectRunOk).step s (.call call reply) s' →
        CallOutcome s call reply s' := by
  have hstart : SlugsApart MemoryProjectRepository.default := by
    intro id id' project project' hfound
    simp [MemoryProjectRepository.default] at hfound
  obtain ⟨hsound, hslugs, -⟩ := projectMachine_run .start hstart hr
  refine ⟨?_, ?_, ?_⟩
  · constructor
    case slugs => exact hslugs
    case chains =>
      intro id project hfound
      obtain ⟨cycles, hchain⟩ := hsound.chains id project hfound
      exact ⟨cycles, hchain, hchain.disjoint, hchain.successor_unique⟩
    case owned => exact hsound.owned
    case configs => exact hsound.configs
    case startedOnce =>
      exact fun id record hrecord scope command ids now =>
        start_again hsound.quiet hrecord scope command ids now
  · exact fun events' s' hr' => (projectMachine_run hsound hslugs hr').2.2
  · intro call reply s' hstep
    obtain ⟨⟨hfresh, -⟩, hstep⟩ := hstep
    exact (run_projectEffect hsound.quiet hstep).outcome hsound hfresh

end Effects

/-! ### Sample runs -/

namespace Sample

/-- Settings that are complete enough to start. -/
def startable : ProjectSettings :=
  { ProjectSettings.default with
    brandName := "Brand"
    market := "US"
    language := "en"
    initialSources :=
      [{ kind := .text, value := "About", visibility := .internal, versionRef := none
         contentHash := none }] }

def tenant : TenantScope :=
  { operatorId := ⟨uuid 1⟩, tenantId := ⟨uuid 2⟩, projectId := none }

def createdAs (id : Nat) (slug : String) : ProjectCall :=
  .create tenant { slug := some slug, displayName := "Project", settings := startable } ⟨uuid id⟩ 0

def renamedTo (id : Nat) (slug : String) : ProjectCall :=
  .update tenant ⟨uuid id⟩ 1 { ProjectPatch.default with slug := some slug } 1

section

attribute [local instance] secureHash threeClocks

@[reducible]
def shanghai : TimezoneNames :=
  oneZone forward

attribute [local instance] shanghai

def startOf (id : Nat) : ProjectCall :=
  .start tenant ⟨uuid id⟩
    { expectedRevision := 1
      idempotencyKeyHash := "key"
      requestHash := startRequestHash ⟨uuid id⟩ 1 (settingsHash startable)
      settingsHash := settingsHash startable
      operationId := uuid 50 }
    { cycleId := uuid 51, configRevisionId := uuid 52, documentManifestId := uuid 53
      distributionManifestId := uuid 54 } 2

/-- Two projects of a tenant, one of them given another slug and the other one started. -/
def twoProjects : List ProjectCall :=
  [createdAs 10 "first", createdAs 11 "second", renamedTo 11 "other", startOf 10]

/-- Two projects of a tenant, and a slug that is sent with blanks around it. -/
def paddedSlug : List ProjectCall :=
  [createdAs 10 "first", createdAs 11 "second", renamedTo 11 " first "]

theorem paddedSlug_shared :
    ∃ events s, projectMachine.Run MemoryProjectRepository.default events s ∧ ¬ SlugsApart s := by
  refine ⟨_, _, run_trace_all ProjectCall.run MemoryProjectRepository.Reordered paddedSlug
    MemoryProjectRepository.default, ?_⟩
  intro hapart
  let stored (id : Nat) : Option Project :=
    (after ProjectCall.run MemoryProjectRepository.default paddedSlug).state.projects.lookup ⟨uuid id⟩
  let named (project : Project) : OperatorId × TenantId × String :=
    (project.operatorId, project.tenantId, project.slug)
  have hfirst : (stored 10).map named = some (⟨uuid 1⟩, ⟨uuid 2⟩, "first") := by decide +kernel
  have hsecond : (stored 11).map named = some (⟨uuid 1⟩, ⟨uuid 2⟩, "first") := by decide +kernel
  obtain ⟨first, hfound, hnamed⟩ := map_eq_some_iff.mp hfirst
  obtain ⟨second, hfound', hnamed'⟩ := map_eq_some_iff.mp hsecond
  have hsame : named first = named second := hnamed.trans hnamed'.symm
  have hids := hapart ⟨uuid 10⟩ ⟨uuid 11⟩ first second hfound hfound' (congrArg Prod.fst hsame)
    (congrArg (fun name => name.2.1) hsame) (congrArg (fun name => name.2.2) hsame)
  exact absurd hids (by decide)

/-- No slug of the first run has blanks around it, and its identifiers are new. -/
theorem twoProjects_allowed :
    Calls.Allowed ProjectCall.run ProjectRunOk MemoryProjectRepository.default twoProjects := by
  refine ⟨⟨?_, trivial⟩, ⟨?_, trivial⟩, ⟨trivial, ?_⟩, ⟨?_, trivial⟩, trivial⟩
  · show AList.lookup _ _ = none
    decide +kernel
  · show AList.lookup _ _ = none
    decide +kernel
  · intro raw hraw current _ _ _ _
    obtain rfl := some_inj.mp hraw
    decide +kernel
  · have hnone : (after ProjectCall.run MemoryProjectRepository.default
        (twoProjects.take 3)).state.cycles.entries = [] := by
      decide +kernel
    have hlookup (cycleId : Uuid) : (after ProjectCall.run MemoryProjectRepository.default
        (twoProjects.take 3)).state.cycles.lookup cycleId = none := by
      rw [AList.lookup, hnone, dlookup_nil]
    refine ⟨hlookup _, fun cycleId cycle hfound => ?_⟩
    exact absurd (hfound.symm.trans (hlookup cycleId)) (some_ne_none cycle)

theorem projectLifecycle_run_sample :
    ProjectLifecycle (Calls.after ProjectCall.run MemoryProjectRepository.default twoProjects) :=
  (projectLifecycle_run (Calls.run_trace twoProjects MemoryProjectRepository.default twoProjects_allowed)).1

end

end Sample

end GeoMaster
