import GeoMaster.Domain.ProjectSerpSettings
import GeoMaster.Proofs.ReportAccounting

/-!
# Credentials of the search sources

A save that is accepted moves the revision of its source by one and stores new credentials under that revision, so no
credential is ever written twice and the active one is always there. `SerpSound` is the invariant, `SerpLast` what
every later store still has. A client that follows the cursor of the listing, while others save, reads no source twice
and misses none that was there.
-/

namespace GeoMaster

open Except AssocMap List Option Paging

open Op

variable {s s' : MemoryProjectSerpSettingsRepository}

/-! ### Keys -/

/-- A source key the repository takes. -/
def ValidSourceKey (sourceKey : String) : Prop :=
  ¬ (Text.isBlank sourceKey ∨ Text.len sourceKey > 128 ∨ sourceKey.toList.any Text.isControl)

/-- The key of a source in a project. -/
def sourceKeyIn (scope : TenantScope) (project : ProjectId) (sourceKey : String) : ProjectSerpSettingsCursor :=
  { operatorId := scope.operatorId.asUuid, tenantId := scope.tenantId.asUuid
    projectId := project.asUuid, sourceKey }

variable {after : Option String} {expected : Int} {key : ProjectSerpSettingsCursor} {limits : List Nat}
  {records : List ProjectSerpSettingsRecord} {row : ProjectSerpSettingsRecord} {scope : TenantScope}
  {write : ProjectSerpSettingsWrite}

variable {sourceKey : String} {reply : Except AppError SerpSettingsReply} {e : SerpSettingsEvent}
  {entry : ProjectSerpSettingsCursor × ProjectSerpSettingsRecord}
  {between : MemoryProjectSerpSettingsRepository → MemoryProjectSerpSettingsRepository → Prop}

theorem projectSerpSettingsKey_eq_ok :
    projectSerpSettingsKey scope sourceKey = .ok key ↔
      ∃ project, scope.projectId = some project ∧ ValidSourceKey sourceKey
        ∧ sourceKeyIn scope project sourceKey = key := by
  simp only [projectSerpSettingsKey, eq_ok_iff, exists_const, ValidSourceKey, sourceKeyIn]

theorem projectSerpSettingsKey_sourceKey (h : projectSerpSettingsKey scope sourceKey = .ok key) :
    key.sourceKey = sourceKey := by
  obtain ⟨_, _, _, rfl⟩ := projectSerpSettingsKey_eq_ok.mp h
  rfl

/-! ### One save -/

/-- The revision of a source, zero before its first save. -/
def MemoryProjectSerpSettingsRepository.revisionOf (s : MemoryProjectSerpSettingsRepository)
    (key : ProjectSerpSettingsCursor) : Int :=
  (s.rows.lookup key).elim 0 (·.revision)

/-- The credentials that a write asks to store. -/
def ProjectSerpSettingsWrite.credential (write : ProjectSerpSettingsWrite) (revision : Int) :
    Option ProjectSerpCredentialRecord :=
  write.encryptedCredentials.map fun bytes =>
    { sourceKey := write.sourceKey, credentialRevision := revision, encryptedCredentials := bytes }

/-- What an accepted save did. -/
structure SavedSettings (s : MemoryProjectSerpSettingsRepository) (expected : Int)
    (write : ProjectSerpSettingsWrite) (key : ProjectSerpSettingsCursor)
    (row : ProjectSerpSettingsRecord) (s' : MemoryProjectSerpSettingsRepository) : Prop where
  current : s.revisionOf key = expected
  nonnegative : 0 ≤ expected
  revision : row.revision = s.revisionOf key + 1
  named : row.sourceKey = key.sourceKey
  asked : row.enabled = write.enabled ∧ row.protocolDefaults = write.protocolDefaults ∧ row.provider = write.provider
  ready : row.enabled = true → row.activeCredentialRevision.isSome
  active : row.activeCredentialRevision
    = if write.encryptedCredentials.isSome then some row.revision
      else (s.rows.lookup key).bind (·.activeCredentialRevision)
  rows : ∀ other, s'.rows.lookup other = if other = key then some row else s.rows.lookup other
  credentials : ∀ other r, s'.credentials.lookup (other, r)
    = if other = key ∧ r = row.revision ∧ write.encryptedCredentials.isSome then
        write.credential row.revision
      else s.credentials.lookup (other, r)

/-- The record that `apply` returns, and the checks that it passed. -/
theorem ProjectSerpSettingsWrite.apply_ok {prior : Option ProjectSerpSettingsRecord}
    (h : write.apply expected prior = .ok row) :
    (0 ≤ expected ∧ prior.elim 0 (·.revision) = expected)
      ∧ (row.revision = expected + 1 ∧ row.sourceKey = write.sourceKey)
      ∧ (row.enabled = write.enabled ∧ row.protocolDefaults = write.protocolDefaults ∧ row.provider = write.provider)
      ∧ (row.enabled = true → row.activeCredentialRevision.isSome)
      ∧ row.activeCredentialRevision
        = if write.encryptedCredentials.isSome then some (expected + 1)
          else prior.bind (·.activeCredentialRevision) := by
  unfold ProjectSerpSettingsWrite.apply at h
  obtain ⟨_, hexpected, h⟩ := bind_eq_ok.mp h
  obtain ⟨_, henabled, h⟩ := bind_eq_ok.mp h
  rw [failIf_eq_ok] at hexpected henabled
  obtain rfl := pure_eq_ok.mp h
  refine ⟨⟨?_, ?_⟩, ⟨rfl, rfl⟩, ⟨rfl, rfl, rfl⟩, ?_, rfl⟩
  · exact Int.not_lt.mp fun hlt => hexpected (.inl hlt)
  · by_contra hne
    exact hexpected (.inr (.inr hne))
  · intro hon
    by_contra hnone
    exact henabled ⟨hon, by simpa using hnone⟩

theorem save_returns (h : Returns (MemoryProjectSerpSettingsRepository.save scope expected write) s row s') :
    ∃ key, projectSerpSettingsKey scope write.sourceKey = .ok key ∧ SavedSettings s expected write key row s' := by
  unfold MemoryProjectSerpSettingsRepository.save at h
  obtain ⟨_, _, hvalid, h⟩ := returns_bind.mp h
  obtain ⟨-, rfl⟩ := returns_lift.mp hvalid
  obtain ⟨key, _, hcall, h⟩ := returns_bind.mp h
  obtain ⟨hkey, rfl⟩ := returns_lift.mp hcall
  obtain ⟨_, _, hprior, h⟩ := returns_bind.mp h
  obtain ⟨rfl, rfl⟩ := returns_read.mp hprior
  obtain ⟨next, _, happly, h⟩ := returns_bind.mp h
  obtain ⟨hnext, rfl⟩ := returns_lift.mp happly
  obtain ⟨⟨hpositive, hcurrent⟩, ⟨hrevision, hsame⟩, hasked, hready, hactive⟩ := ProjectSerpSettingsWrite.apply_ok hnext
  have hcurrent : s.revisionOf key = expected := hcurrent
  have hnamed : next.sourceKey = key.sourceKey := hsame.trans (projectSerpSettingsKey_sourceKey hkey).symm
  have hnext : next.revision = s.revisionOf key + 1 := by rw [hrevision, hcurrent]
  refine ⟨key, hkey, ?_⟩
  cases hbytes : write.encryptedCredentials with
  | none =>
    rw [hbytes] at h
    obtain ⟨_, _, hrows, h⟩ := returns_bind.mp h
    obtain rfl := returns_modify.mp hrows
    obtain ⟨rfl, rfl⟩ := returns_pure.mp h
    refine ⟨hcurrent, hpositive, hnext, hnamed, hasked, hready,
      by rw [hactive, hrevision], fun other => lookup_insert .., ?_⟩
    intro other r
    simp [hbytes]
  | some bytes =>
    rw [hbytes] at h
    obtain ⟨_, _, hstored, h⟩ := returns_bind.mp h
    obtain rfl := returns_modify.mp hstored
    obtain ⟨_, _, hrows, h⟩ := returns_bind.mp h
    obtain rfl := returns_modify.mp hrows
    obtain ⟨rfl, rfl⟩ := returns_pure.mp h
    refine ⟨hcurrent, hpositive, hnext, hnamed, hasked, hready,
      by rw [hactive, hrevision], fun other => lookup_insert .., ?_⟩
    intro other r
    show (s.credentials.insert (key, expected + 1) _).lookup (other, r) = _
    rw [lookup_insert]
    simp only [Prod.mk.injEq, hbytes, isSome_some, and_true, hrevision,
      ProjectSerpSettingsWrite.credential, map_some, hsame]

/-! ### The other calls -/

namespace MemoryProjectSerpSettingsRepository

theorem get_readOnly (scope : TenantScope) (sourceKey : String) : ReadOnly (get scope sourceKey) :=
  ReadOnly.lift.bind fun _ => ReadOnly.read

theorem checkCursor_readOnly (scope : TenantScope) (after : Option String) : ReadOnly (checkCursor scope after) := by
  cases after with
  | none => exact ReadOnly.pure
  | some after => exact ReadOnly.lift.bind fun _ => ReadOnly.read.bind fun _ => ReadOnly.failIf

theorem list_readOnly (scope : TenantScope) (after : Option String) (limit : Nat) : ReadOnly (list scope after limit) :=
  ReadOnly.lift.bind fun _ => ReadOnly.lift.bind fun _ =>
    (checkCursor_readOnly scope after).bind fun _ => ReadOnly.read.bind fun _ => ReadOnly.pure

theorem getCredential_readOnly (scope : TenantScope) (sourceKey : String) (revision : Int) :
    ReadOnly (getCredential scope sourceKey revision) :=
  ReadOnly.lift.bind fun _ => ReadOnly.lift.bind fun _ => ReadOnly.read

theorem listDispatchSources_readOnly (after : Option ProjectSerpSettingsCursor) (limit : Nat) :
    ReadOnly (listDispatchSources after limit) :=
  ReadOnly.lift.bind fun _ => ReadOnly.read.bind fun _ => ReadOnly.failIf.bind fun _ =>
    ReadOnly.read.bind fun _ => ReadOnly.pure

theorem save_atomic (scope : TenantScope) (expected : Int) (write : ProjectSerpSettingsWrite) :
    Atomic (save scope expected write) := by
  unfold save
  refine Atomic.bind .lift fun _ => Atomic.bind .lift fun _ => Atomic.bind .read fun _ =>
    Atomic.bind .lift fun _ => Total.atomic ?_
  cases write.encryptedCredentials with
  | none => exact Total.modify.bind fun _ => Total.pure
  | some _ => exact Total.modify.bind fun _ => Total.modify.bind fun _ => Total.pure

variable {sourceKey : String}

theorem getCredential_returns {revision : Int}
    {found : Option ProjectSerpCredentialRecord} (h : Returns (getCredential scope sourceKey revision) s found s') :
    ∃ key, projectSerpSettingsKey scope sourceKey = .ok key ∧ found = s.credentials.lookup (key, revision) := by
  obtain ⟨_, _, haad, h⟩ := returns_bind.mp h
  obtain ⟨-, rfl⟩ := returns_lift.mp haad
  obtain ⟨key, _, hcall, h⟩ := returns_bind.mp h
  obtain ⟨hkey, rfl⟩ := returns_lift.mp hcall
  obtain ⟨rfl, -⟩ := returns_read.mp h
  exact ⟨key, hkey, rfl⟩

theorem get_returns {found : Option ProjectSerpSettingsRecord} (h : Returns (get scope sourceKey) s found s') :
    ∃ key, projectSerpSettingsKey scope sourceKey = .ok key ∧ found = s.rows.lookup key := by
  obtain ⟨key, _, hcall, h⟩ := returns_bind.mp h
  obtain ⟨hkey, rfl⟩ := returns_lift.mp hcall
  obtain ⟨rfl, -⟩ := returns_read.mp h
  exact ⟨key, hkey, rfl⟩

end MemoryProjectSerpSettingsRepository

/-- What one call does: only an accepted save changes the store, and it was not stale. -/
def SerpOutcome (s : MemoryProjectSerpSettingsRepository) :
    SerpSettingsCall → Except AppError SerpSettingsReply → MemoryProjectSerpSettingsRepository → Prop
  | .save scope expected write, .ok (.saved row), s' =>
    ∃ key, projectSerpSettingsKey scope write.sourceKey = .ok key ∧ SavedSettings s expected write key row s'
  | .getCredential scope sourceKey revision, .ok (.credential found), s' =>
    s' = s ∧ ∃ key, projectSerpSettingsKey scope sourceKey = .ok key ∧ found = s.credentials.lookup (key, revision)
  | .get scope sourceKey, .ok (.found found), s' =>
    s' = s ∧ ∃ key, projectSerpSettingsKey scope sourceKey = .ok key ∧ found = s.rows.lookup key
  | _, _, s' => s' = s

theorem SerpSettingsCall.run_atomic (call : SerpSettingsCall) : Atomic call.run := by
  cases call with
  | get scope sourceKey =>
    exact ((MemoryProjectSerpSettingsRepository.get_readOnly scope sourceKey).bind fun _ => ReadOnly.pure).atomic
  | list scope after limit =>
    exact ((MemoryProjectSerpSettingsRepository.list_readOnly scope after limit).bind fun _ => ReadOnly.pure).atomic
  | save scope expected write =>
    exact (MemoryProjectSerpSettingsRepository.save_atomic scope expected write).bind_total fun _ => Total.pure
  | getCredential scope sourceKey revision =>
    exact ((MemoryProjectSerpSettingsRepository.getCredential_readOnly scope sourceKey
      revision).bind fun _ => ReadOnly.pure).atomic
  | listDispatchSources after limit =>
    exact ((MemoryProjectSerpSettingsRepository.listDispatchSources_readOnly after limit).bind
      fun _ => ReadOnly.pure).atomic

theorem serpSettings_outcome {call : SerpSettingsCall}
    (h : serpSettingsMachine.step s (.call call reply) s') : SerpOutcome s call reply s' := by
  have hrun : call.run.run s = (reply, s') := h
  cases reply with
  | error e =>
    have hsame : s' = s := call.run_atomic.failed s e s' hrun
    cases call <;> exact hsame
  | ok reply =>
    have hreturns : Returns call.run s reply s' := hrun
    cases call with
    | get scope sourceKey =>
      obtain ⟨_, _, hget, hreply⟩ := returns_bind.mp hreturns
      obtain ⟨rfl, rfl⟩ := returns_pure.mp hreply
      exact ⟨(MemoryProjectSerpSettingsRepository.get_readOnly scope sourceKey).returns hget,
        MemoryProjectSerpSettingsRepository.get_returns hget⟩
    | list scope after limit =>
      obtain ⟨_, _, hlist, hreply⟩ := returns_bind.mp hreturns
      obtain ⟨rfl, rfl⟩ := returns_pure.mp hreply
      exact (MemoryProjectSerpSettingsRepository.list_readOnly scope after limit).returns hlist
    | save =>
      obtain ⟨_, _, hsave, hreply⟩ := returns_bind.mp hreturns
      obtain ⟨rfl, rfl⟩ := returns_pure.mp hreply
      exact save_returns hsave
    | getCredential scope sourceKey revision =>
      obtain ⟨_, _, hget, hreply⟩ := returns_bind.mp hreturns
      obtain ⟨rfl, rfl⟩ := returns_pure.mp hreply
      exact ⟨(MemoryProjectSerpSettingsRepository.getCredential_readOnly scope sourceKey revision).returns hget,
        MemoryProjectSerpSettingsRepository.getCredential_returns hget⟩
    | listDispatchSources after limit =>
      obtain ⟨_, _, hlist, hreply⟩ := returns_bind.mp hreturns
      obtain ⟨rfl, rfl⟩ := returns_pure.mp hreply
      exact (MemoryProjectSerpSettingsRepository.listDispatchSources_readOnly after limit).returns hlist

theorem serpSettings_step (h : serpSettingsMachine.step s e s') :
    s' = s ∨ ∃ scope expected write key row, projectSerpSettingsKey scope write.sourceKey = .ok key
      ∧ SavedSettings s expected write key row s' := by
  cases e with
  | reorder => exact h.elim
  | call call reply =>
    have houtcome := serpSettings_outcome h
    unfold SerpOutcome at houtcome
    split at houtcome
    case h_1 =>
      obtain ⟨key, hkey, hsaved⟩ := houtcome
      exact .inr ⟨_, _, _, key, _, hkey, hsaved⟩
    case h_2 => exact .inl houtcome.1
    case h_3 => exact .inl houtcome.1
    case h_4 => exact .inl houtcome

/-! ### The invariant -/

structure SerpSound (s : MemoryProjectSerpSettingsRepository) : Prop where
  keyed : ∀ key row, s.rows.lookup key = some row →
    row.sourceKey = key.sourceKey ∧ ValidSourceKey key.sourceKey ∧ 0 < row.revision
  /-- The active credentials are stored. -/
  active : ∀ key row r, s.rows.lookup key = some row → row.activeCredentialRevision = some r →
    r ≤ row.revision ∧ (s.credentials.lookup (key, r)).isSome
  ready : ∀ key row, s.rows.lookup key = some row → row.enabled = true → row.activeCredentialRevision.isSome
  /-- No credentials lie ahead of the settings. -/
  stored : ∀ key r credential, s.credentials.lookup (key, r) = some credential →
    credential.sourceKey = key.sourceKey ∧ credential.credentialRevision = r ∧ 0 < r ∧ r ≤ s.revisionOf key

/-- What every later store still has. -/
structure SerpLast (s s' : MemoryProjectSerpSettingsRepository) : Prop where
  credentials : ∀ key r credential, s.credentials.lookup (key, r) = some credential →
    s'.credentials.lookup (key, r) = some credential
  rows : ∀ key, (s.rows.lookup key).isSome → (s'.rows.lookup key).isSome
  revision : ∀ key, s.revisionOf key ≤ s'.revisionOf key

theorem SerpLast.refl (s : MemoryProjectSerpSettingsRepository) : SerpLast s s :=
  ⟨fun _ _ _ h => h, fun _ h => h, fun _ => le_rfl⟩

theorem SerpLast.trans {s'' : MemoryProjectSerpSettingsRepository} (h : SerpLast s s')
    (h' : SerpLast s' s'') : SerpLast s s'' where
  credentials key r credential hlook := h'.credentials key r credential (h.credentials key r credential hlook)
  rows key hsome := h'.rows key (h.rows key hsome)
  revision key := (h.revision key).trans (h'.revision key)

theorem SavedSettings.revisionOf (h : SavedSettings s expected write key row s') (other : ProjectSerpSettingsCursor) :
    s'.revisionOf other = if other = key then s.revisionOf key + 1 else s.revisionOf other := by
  unfold MemoryProjectSerpSettingsRepository.revisionOf
  rw [h.rows]
  by_cases hother : other = key
  · rw [if_pos hother, if_pos hother]
    exact h.revision
  · rw [if_neg hother, if_neg hother]

/-- The slot an accepted save writes credentials to was empty. -/
theorem SavedSettings.fresh (hs : SerpSound s) (h : SavedSettings s expected write key row s') :
    s.credentials.lookup (key, row.revision) = none := by
  cases hlook : s.credentials.lookup (key, row.revision) with
  | none => rfl
  | some credential =>
    obtain ⟨-, -, -, hle⟩ := hs.stored _ _ _ hlook
    rw [h.revision] at hle
    omega

theorem SavedSettings.last {expected : Int} {write : ProjectSerpSettingsWrite}
    {key : ProjectSerpSettingsCursor} {row : ProjectSerpSettingsRecord} (hs : SerpSound s)
    (h : SavedSettings s expected write key row s') : SerpLast s s' where
  credentials other r credential hlook := by
    rw [h.credentials, if_neg]
    · exact hlook
    · rintro ⟨rfl, rfl, -⟩
      rw [h.fresh hs] at hlook
      cases hlook
  rows other hsome := by
    rw [h.rows]
    by_cases hother : other = key
    · rw [if_pos hother]
      rfl
    · rwa [if_neg hother]
  revision other := by
    rw [h.revisionOf]
    split_ifs with hother
    · rw [hother]
      omega
    · exact le_rfl

theorem SavedSettings.sound (hs : SerpSound s) (hkey : projectSerpSettingsKey scope write.sourceKey = .ok key)
    (h : SavedSettings s expected write key row s') : SerpSound s' := by
  have hlast := h.last hs
  constructor
  case keyed =>
    intro other found hlook
    rw [h.rows] at hlook
    split_ifs at hlook with hother
    · obtain rfl := some.inj hlook
      obtain ⟨_, _, hvalid, rfl⟩ := projectSerpSettingsKey_eq_ok.mp hkey
      refine ⟨hother ▸ h.named, hother ▸ hvalid, ?_⟩
      have hcurrent := h.current
      have hnonnegative := h.nonnegative
      rw [h.revision]
      omega
    · exact hs.keyed other found hlook
  case active =>
    intro other found r hlook hactive
    rw [h.rows] at hlook
    split_ifs at hlook with hother
    · obtain rfl := some.inj hlook
      subst hother
      rw [h.active] at hactive
      split_ifs at hactive with hnew
      · obtain rfl := some.inj hactive
        refine ⟨le_rfl, ?_⟩
        rw [h.credentials, if_pos ⟨rfl, rfl, hnew⟩]
        simpa [ProjectSerpSettingsWrite.credential] using hnew
      · -- The credentials that are kept were active before.
        obtain ⟨prior, hprior, hactive⟩ := bind_eq_some_iff.mp hactive
        obtain ⟨_, hsome⟩ := hs.active _ _ _ hprior hactive
        have hrevision : s.revisionOf other = prior.revision := by
          rw [MemoryProjectSerpSettingsRepository.revisionOf, hprior]
          rfl
        refine ⟨by rw [h.revision, hrevision]; omega, ?_⟩
        obtain ⟨_, hcredential⟩ := isSome_iff_exists.mp hsome
        rw [hlast.credentials _ _ _ hcredential]
        rfl
    · obtain ⟨hle, hsome⟩ := hs.active other found r hlook hactive
      obtain ⟨_, hcredential⟩ := isSome_iff_exists.mp hsome
      refine ⟨hle, ?_⟩
      rw [hlast.credentials _ _ _ hcredential]
      rfl
  case ready =>
    intro other found hlook henabled
    rw [h.rows] at hlook
    split_ifs at hlook with hother
    · obtain rfl := some.inj hlook
      exact h.ready henabled
    · exact hs.ready other found hlook henabled
  case stored =>
    intro other r credential hlook
    rw [h.credentials] at hlook
    split_ifs at hlook with hnew
    · obtain ⟨rfl, rfl, -⟩ := hnew
      obtain ⟨_, -, rfl⟩ := map_eq_some_iff.mp hlook
      have hcurrent := h.current
      have hnonnegative := h.nonnegative
      have hrevision := h.revision
      refine ⟨(projectSerpSettingsKey_sourceKey hkey).symm, rfl, by omega, ?_⟩
      rw [h.revisionOf, if_pos rfl]
      omega
    · obtain ⟨hnamed, hrevision, hpositive, hle⟩ := hs.stored other r credential hlook
      exact ⟨hnamed, hrevision, hpositive, hle.trans (hlast.revision other)⟩

theorem SerpSound.start : SerpSound .default := by
  constructor
  all_goals
    intros
    contradiction

theorem SerpSound.step (hs : SerpSound s) (h : serpSettingsMachine.step s e s') : SerpSound s' := by
  rcases serpSettings_step h with rfl | ⟨_, _, _, _, _, hkey, hsaved⟩
  · exact hs
  · exact hsaved.sound hs hkey

theorem SerpSound.run (hs : SerpSound s) {history : List SerpSettingsEvent}
    (h : serpSettingsMachine.Run s history s') : SerpSound s' :=
  h.invariant (fun _ _ _ hsound hstep => hsound.step hstep) hs

theorem SerpLast.run (hs : SerpSound s) {history : List SerpSettingsEvent}
    (h : serpSettingsMachine.Run s history s') : SerpLast s s' := by
  refine h.relates (fun _ _ _ hsound hstep => hsound.step hstep) SerpLast.refl (fun _ _ _ h₁ h₂ => h₁.trans h₂) ?_ hs
  intro s e s' hsound hstep
  rcases serpSettings_step hstep with rfl | ⟨_, _, _, _, _, _, hsaved⟩
  · exact .refl _
  · exact hsaved.last hsound

/-! ### Following the cursor -/

/-- The cursor of an entry within its project. -/
def listedUnder (entry : ProjectSerpSettingsCursor × ProjectSerpSettingsRecord) : String :=
  entry.1.sourceKey

/-- The records of a project: those that are stored under its keys. -/
def StoredIn (s : MemoryProjectSerpSettingsRepository) (scope : TenantScope) (sourceKey : String)
    (row : ProjectSerpSettingsRecord) : Prop :=
  ∃ key, projectSerpSettingsKey scope sourceKey = .ok key ∧ s.rows.lookup key = some row

/-- A client that reads page after page, each behind the last record of the one before, until a page is not filled.
The pages have given sizes, and between two of them the store may change. -/
inductive Followed (scope : TenantScope)
    (between : MemoryProjectSerpSettingsRepository → MemoryProjectSerpSettingsRepository → Prop) :
    MemoryProjectSerpSettingsRepository → Option String → List Nat →
      List ProjectSerpSettingsRecord → MemoryProjectSerpSettingsRepository → Prop where
  | last {s s' : MemoryProjectSerpSettingsRepository} {after : Option String} {limit : Nat}
      {records : List ProjectSerpSettingsRecord} :
      Returns (MemoryProjectSerpSettingsRepository.list scope after limit) s records s' →
      records.length < limit → Followed scope between s after [limit] records s'
  | next {s s₁ s₂ s' : MemoryProjectSerpSettingsRepository} {after : Option String} {limit : Nat}
      {limits : List Nat} {records rest : List ProjectSerpSettingsRecord} {row : ProjectSerpSettingsRecord} :
      Returns (MemoryProjectSerpSettingsRepository.list scope after limit) s records s₁ →
      records.getLast? = some row → between s₁ s₂ →
      Followed scope between s₂ (some row.sourceKey) limits rest s' →
      Followed scope between s after (limit :: limits) (records ++ rest) s'

theorem checkCursor_returns {u : Unit} :
    Returns (MemoryProjectSerpSettingsRepository.checkCursor scope after) s u s' ↔
      (∀ cursor ∈ after, ∃ row, StoredIn s scope cursor row) ∧ s = s' := by
  cases after with
  | none =>
    rw [MemoryProjectSerpSettingsRepository.checkCursor, returns_pure]
    simp
  | some after =>
    rw [MemoryProjectSerpSettingsRepository.checkCursor]
    simp only [returns_iff, mem_def, Option.some.injEq, forall_eq', StoredIn]
    constructor
    · rintro ⟨key, _, ⟨hkey, rfl⟩, _, _, ⟨rfl, rfl⟩, hstored, rfl⟩
      obtain ⟨row, hrow⟩ := isSome_iff_exists.mp (not_not.mp hstored)
      exact ⟨⟨row, key, hkey, hrow⟩, rfl⟩
    · rintro ⟨⟨_, key, hkey, hrow⟩, rfl⟩
      exact ⟨key, s, ⟨hkey, rfl⟩, _, s, ⟨rfl, rfl⟩, by rw [hrow]; exact not_not.mpr rfl, rfl⟩

theorem validSourceKey_scope : ValidSourceKey "scope" := by
  unfold ValidSourceKey
  decide

theorem list_returns {limit : Nat} :
    Returns (MemoryProjectSerpSettingsRepository.list scope after limit) s records s' ↔
      (1 ≤ limit ∧ limit ≤ 100) ∧ (∀ cursor ∈ after, ∃ row, StoredIn s scope cursor row)
      ∧ (∃ project, scope.projectId = some project
        ∧ (Paging.page listedUnder after limit
            (s.projectRows (sourceKeyIn scope project "scope"))).map Prod.snd = records)
      ∧ s = s' := by
  unfold MemoryProjectSerpSettingsRepository.list
  simp only [returns_iff, checkCursor_returns, limitValid, failIf_eq_ok, projectSerpSettingsKey_eq_ok, not_not]
  constructor
  · rintro ⟨_, _, ⟨hlimit, rfl⟩, _, _, ⟨⟨project, hproject, -, rfl⟩, rfl⟩, _, _, ⟨hcursor, rfl⟩, _, _,
      ⟨rfl, rfl⟩, rfl, rfl⟩
    exact ⟨hlimit, hcursor, ⟨project, hproject, rfl⟩, rfl⟩
  · rintro ⟨hlimit, hcursor, ⟨project, hproject, rfl⟩, rfl⟩
    exact ⟨(), s, ⟨hlimit, rfl⟩, _, s, ⟨⟨project, hproject, validSourceKey_scope, rfl⟩, rfl⟩, (), s,
      ⟨hcursor, rfl⟩, _, s, ⟨rfl, rfl⟩, rfl, rfl⟩

/-- Keys of one project are ordered as their sources. -/
theorem sourceKey_lt {a b : ProjectSerpSettingsCursor} (hoperator : a.operatorId = b.operatorId)
    (htenant : a.tenantId = b.tenantId) (hproject : a.projectId = b.projectId) (h : a < b) :
    a.sourceKey < b.sourceKey := by
  have hfields : a.fields < b.fields := h
  simp only [ProjectSerpSettingsCursor.fields, hoperator, htenant, hproject] at hfields
  rcases Prod.Lex.toLex_lt_toLex.mp hfields with hlt | ⟨-, hlt⟩
  · exact absurd hlt (lt_irrefl _)
  rcases Prod.Lex.toLex_lt_toLex.mp hlt with hlt | ⟨-, hlt⟩
  · exact absurd hlt (lt_irrefl _)
  rcases Prod.Lex.toLex_lt_toLex.mp hlt with hlt | ⟨-, hlt⟩
  · exact absurd hlt (lt_irrefl _)
  · exact hlt

theorem projectRows_mem {project : ProjectId} :
    entry ∈ s.projectRows (sourceKeyIn scope project "scope") ↔
      s.rows.lookup entry.1 = some entry.2 ∧ entry.1 = sourceKeyIn scope project entry.1.sourceKey := by
  obtain ⟨⟨_, _, _, _⟩, _⟩ := entry
  rw [MemoryProjectSerpSettingsRepository.projectRows, mem_filter, mem_inKeyOrder, decide_eq_true_eq]
  simp [sourceKeyIn]

theorem projectRows_sorted (scope : TenantScope) (project : ProjectId) :
    Paging.Sorted listedUnder (s.projectRows (sourceKeyIn scope project "scope")) := by
  have hle : (inKeyOrder s.rows).Pairwise fun a b => a.1 ≤ b.1 := by
    have : Std.Total fun a b : ProjectSerpSettingsCursor × ProjectSerpSettingsRecord => a.1 ≤ b.1 :=
      ⟨fun a b => le_total a.1 b.1⟩
    have : IsTrans (ProjectSerpSettingsCursor × ProjectSerpSettingsRecord) fun a b => a.1 ≤ b.1 :=
      ⟨fun _ _ _ => le_trans⟩
    exact pairwise_insertionSort _ _
  have hne : (inKeyOrder s.rows).Pairwise fun a b => a.1 ≠ b.1 := pairwise_map.mp (inKeyOrder_keys_nodup s.rows)
  have hlt := (hle.and hne).sublist
    (filter_sublist (p := fun entry : ProjectSerpSettingsCursor × ProjectSerpSettingsRecord =>
      decide (entry.1.operatorId = (sourceKeyIn scope project "scope").operatorId
        ∧ entry.1.tenantId = (sourceKeyIn scope project "scope").tenantId
        ∧ entry.1.projectId = (sourceKeyIn scope project "scope").projectId)))
  refine hlt.imp_of_mem ?_
  intro a b ha hb hab
  obtain ⟨-, hka⟩ := projectRows_mem.mp ha
  obtain ⟨-, hkb⟩ := projectRows_mem.mp hb
  refine sourceKey_lt ?_ ?_ ?_ (lt_of_le_of_ne hab.1 hab.2)
  all_goals
    rw [hka, hkb]
    rfl

theorem storedIn_iff {project : ProjectId} (hproject : scope.projectId = some project) (hs : SerpSound s) :
    StoredIn s scope sourceKey row ↔
      (sourceKeyIn scope project sourceKey, row) ∈ s.projectRows (sourceKeyIn scope project "scope") := by
  rw [projectRows_mem]
  constructor
  · rintro ⟨_, hkey, hlook⟩
    obtain ⟨_, hother, -, rfl⟩ := projectSerpSettingsKey_eq_ok.mp hkey
    obtain rfl := some.inj (hproject.symm.trans hother)
    exact ⟨hlook, rfl⟩
  · rintro ⟨hlook, -⟩
    obtain ⟨-, hvalid, -⟩ := hs.keyed _ _ hlook
    exact ⟨_, projectSerpSettingsKey_eq_ok.mpr ⟨project, hproject, hvalid, rfl⟩, hlook⟩

/-- Following the cursor is walking through the sorted rows of the project, whatever holds of the store each time. -/
theorem Followed.walk {project : ProjectId}
    (holds : MemoryProjectSerpSettingsRepository → Prop) (hproject : scope.projectId = some project)
    (hsound : ∀ s, holds s → SerpSound s) (hbetween : ∀ s s', holds s → between s s' → holds s')
    (h : Followed scope between s after limits records s') (hs : holds s) :
    ∃ steps, records = (Paging.walk listedUnder after steps).map Prod.snd
      ∧ Paging.Ended listedUnder after steps ∧ steps.map Prod.snd = limits ∧ holds s'
      ∧ ∀ step ∈ steps, ∃ s₁, holds s₁ ∧ step.1 = s₁.projectRows (sourceKeyIn scope project "scope") := by
  induction h with
  | @last s _ _ limit _ hlist hshort =>
    obtain ⟨-, -, ⟨_, hother, rfl⟩, rfl⟩ := list_returns.mp hlist
    obtain rfl := some.inj (hproject.symm.trans hother)
    refine ⟨[(s.projectRows (sourceKeyIn scope project "scope"), limit)], ?_, ?_, rfl, hs, ?_⟩
    · rw [Paging.walk, Paging.walk, append_nil]
    · rwa [length_map] at hshort
    · rintro step hstep
      obtain rfl := mem_singleton.mp hstep
      exact ⟨s, hs, rfl⟩
  | @next s _ s₂ _ after limit _ _ _ _ hlist hlast hbetween' _ ih =>
    obtain ⟨-, -, ⟨_, hother, rfl⟩, rfl⟩ := list_returns.mp hlist
    obtain rfl := some.inj (hproject.symm.trans hother)
    obtain ⟨steps, rfl, hended, hlimits, hend, hsteps⟩ := ih (hbetween s s₂ hs hbetween')
    rw [List.getLast?_map] at hlast
    obtain ⟨entry, hentry, rfl⟩ := map_eq_some_iff.mp hlast
    -- The cursor is the key of the last entry.
    have hkeyed : entry.2.sourceKey = listedUnder entry := by
      have hmem := (mem_of_mem_page (mem_of_getLast? hentry)).1
      exact ((hsound s hs).keyed _ _ (projectRows_mem.mp hmem).1).1
    have hnext : Paging.next listedUnder after (Paging.page listedUnder after limit
        (s.projectRows (sourceKeyIn scope project "scope"))) = some entry.2.sourceKey := by
      rw [Paging.next, hentry, hkeyed]
      rfl
    refine ⟨(s.projectRows (sourceKeyIn scope project "scope"), limit) :: steps, ?_, ?_, ?_, hend, ?_⟩
    · rw [Paging.walk, hnext, map_append]
    · cases steps with
      | nil => exact hended.elim
      | cons second later =>
        rw [Paging.Ended, hnext]
        exact hended
        exact cons_ne_nil _ _
    · rw [List.map_cons, hlimits]
    · exact forall_mem_cons.mpr ⟨⟨s, hs, rfl⟩, hsteps⟩

/-- What a client reads that follows the cursor. -/
structure ReadAll (scope : TenantScope) (s : MemoryProjectSerpSettingsRepository)
    (records : List ProjectSerpSettingsRecord) : Prop where
  /-- No source is read twice. -/
  once : records.Pairwise fun a b => a.sourceKey < b.sourceKey
  /-- A record that is read was stored then. -/
  genuine : ∀ row ∈ records, ∃ s₁, serpSettingsMachine.Reachable s s₁ ∧ StoredIn s₁ scope row.sourceKey row
  /-- The sources that were there are all read. -/
  every : ∀ sourceKey row, StoredIn s scope sourceKey row → ∃ read ∈ records, read.sourceKey = sourceKey

theorem Followed.project
    (h : Followed scope between s after limits records s') : ∃ project, scope.projectId = some project := by
  cases h with
  | last hlist _ =>
    obtain ⟨-, -, ⟨project, hproject, -⟩, -⟩ := list_returns.mp hlist
    exact ⟨project, hproject⟩
  | next hlist =>
    obtain ⟨-, -, ⟨project, hproject, -⟩, -⟩ := list_returns.mp hlist
    exact ⟨project, hproject⟩

theorem Followed.readAll (hs : SerpSound s)
    (h : Followed scope serpSettingsMachine.Reachable s none limits records s') : ReadAll scope s records := by
  obtain ⟨project, hproject⟩ := h.project
  obtain ⟨steps, rfl, hended, -, -, hsteps⟩ := h.walk (fun s₁ => serpSettingsMachine.Reachable s s₁) hproject
    (fun s₁ ⟨_, hrun⟩ => hs.run hrun) (fun s₁ s₂ ⟨_, hrun⟩ ⟨_, hrun'⟩ => ⟨_, hrun.append hrun'⟩) ⟨[], .refl⟩
  have hsorted : ∀ step ∈ steps, Paging.Sorted listedUnder step.1 := by
    intro step hstep
    obtain ⟨_, -, heq⟩ := hsteps step hstep
    exact heq ▸ projectRows_sorted scope project
  have hgenuine : ∀ entry ∈ Paging.walk listedUnder none steps, entry.2.sourceKey = listedUnder entry
      ∧ ∃ s₁, serpSettingsMachine.Reachable s s₁ ∧ StoredIn s₁ scope entry.2.sourceKey entry.2 := by
    intro entry hentry
    obtain ⟨-, step, hstep, hmem⟩ := mem_walk hentry
    obtain ⟨s₁, ⟨history, hrun⟩, heq⟩ := hsteps step hstep
    rw [heq] at hmem
    have hs₁ := hs.run hrun
    obtain ⟨hlook, hkey⟩ := projectRows_mem.mp hmem
    have hkeyed : entry.2.sourceKey = listedUnder entry := (hs₁.keyed _ _ hlook).1
    refine ⟨hkeyed, s₁, ⟨history, hrun⟩, (storedIn_iff hproject hs₁).mpr ?_⟩
    rw [hkeyed, listedUnder, ← hkey]
    exact hmem
  constructor
  case once =>
    refine pairwise_map.mpr ((walk_sorted hsorted).imp_of_mem ?_)
    intro a b ha hb hlt
    rwa [(hgenuine a ha).1, (hgenuine b hb).1]
  case genuine =>
    intro row hrow
    obtain ⟨entry, hentry, rfl⟩ := mem_map.mp hrow
    exact (hgenuine entry hentry).2
  case every =>
    intro sourceKey row hstored
    have hthere : ∀ step ∈ steps, ∃ entry ∈ step.1, listedUnder entry = sourceKey := by
      intro step hstep
      obtain ⟨_, ⟨_, hrun⟩, heq⟩ := hsteps step hstep
      obtain ⟨key, hkey, hlook⟩ := hstored
      obtain ⟨_, hlater⟩ := isSome_iff_exists.mp ((SerpLast.run hs hrun).rows key (by rw [hlook]; rfl))
      rw [heq]
      exact ⟨_, (storedIn_iff hproject (hs.run hrun)).mp ⟨key, hkey, hlater⟩, rfl⟩
    obtain ⟨entry, hentry, hkey⟩ := walk_complete hsorted hthere (by simp) hended
    exact ⟨entry.2, mem_map_of_mem hentry, (hgenuine entry hentry).1.trans hkey⟩

/-- What a client reads while nobody saves: every record, and none twice. -/
theorem Followed.readExactly (hs : SerpSound s) (h : Followed scope Eq s none limits records s') :
    s' = s ∧ (∀ row, row ∈ records ↔ ∃ sourceKey, StoredIn s scope sourceKey row)
      ∧ records.Pairwise fun a b => a.sourceKey < b.sourceKey := by
  obtain ⟨project, hproject⟩ := h.project
  obtain ⟨steps, rfl, hended, -, hend, hsteps⟩ := h.walk (fun s₁ => s₁ = s) hproject
    (fun s₁ heq => heq ▸ hs) (fun s₁ s₂ heq (hsame : s₁ = s₂) => hsame ▸ heq) rfl
  have hrows : steps = (steps.map Prod.snd).map fun limit =>
      (s.projectRows (sourceKeyIn scope project "scope"), limit) := by
    rw [List.map_map]
    refine (map_id steps).symm.trans (map_congr_left ?_)
    intro step hstep
    obtain ⟨_, rfl, heq⟩ := hsteps step hstep
    rw [← heq]
    rfl
  have hsorted := projectRows_sorted (s := s) scope project
  rw [hrows] at hended
  have hwalk := walk_const hsorted hended
  rw [← hrows, beyond_none] at hwalk
  rw [hwalk]
  have hkeyed : ∀ entry ∈ s.projectRows (sourceKeyIn scope project "scope"),
      entry.2.sourceKey = listedUnder entry := fun entry hmem =>
    (hs.keyed _ _ (projectRows_mem.mp hmem).1).1
  refine ⟨hend, ?_, ?_⟩
  · intro row
    rw [List.mem_map]
    constructor
    · rintro ⟨entry, hmem, rfl⟩
      obtain ⟨-, hkey⟩ := projectRows_mem.mp hmem
      refine ⟨entry.1.sourceKey, (storedIn_iff hproject hs).mpr ?_⟩
      rw [← hkey]
      exact hmem
    · rintro ⟨_, hstored⟩
      exact ⟨_, (storedIn_iff hproject hs).mp hstored, rfl⟩
  · refine pairwise_map.mpr (hsorted.imp_of_mem ?_)
    intro a b ha hb hlt
    rwa [hkeyed a ha, hkeyed b hb]

/-- The cursor behind a page is the source of its last record. -/
theorem next_sourceKey {project : ProjectId} (hs : SerpSound s) {limit : Nat}
    (hlast : (Paging.page listedUnder after limit
      (s.projectRows (sourceKeyIn scope project "scope"))).getLast? = some entry) :
    Paging.next listedUnder after (Paging.page listedUnder after limit
        (s.projectRows (sourceKeyIn scope project "scope"))) = some entry.2.sourceKey
      ∧ entry ∈ s.projectRows (sourceKeyIn scope project "scope")
      ∧ entry.2.sourceKey = entry.1.sourceKey := by
  have hmem := (mem_of_mem_page (mem_of_getLast? hlast)).1
  have hkeyed := (hs.keyed _ _ (projectRows_mem.mp hmem).1).1
  refine ⟨?_, hmem, hkeyed⟩
  rw [Paging.next, hlast, hkeyed]
  rfl

/-- A client that keeps following comes to the end, whatever the sizes of the pages. -/
theorem followed_ends {project : ProjectId} (hproject : scope.projectId = some project) (hs : SerpSound s) (n : Nat)
    (hafter : ∀ cursor ∈ after, ∃ row, StoredIn s scope cursor row)
    (hrest : (beyond listedUnder after (s.projectRows (sourceKeyIn scope project "scope"))).length = n)
    {limits : Nat → Nat} (hlimits : ∀ i, 1 ≤ limits i ∧ limits i ≤ 100) :
    ∃ pages records, Followed scope Eq s after ((List.range pages).map limits) records s := by
  induction n using Nat.strong_induction_on generalizing after limits with
  | h n ih =>
    have hlist : Returns (MemoryProjectSerpSettingsRepository.list scope after (limits 0)) s
        ((Paging.page listedUnder after (limits 0)
          (s.projectRows (sourceKeyIn scope project "scope"))).map Prod.snd) s :=
      list_returns.mpr ⟨hlimits 0, hafter, ⟨project, hproject, rfl⟩, rfl⟩
    by_cases hshort : (Paging.page listedUnder after (limits 0)
        (s.projectRows (sourceKeyIn scope project "scope"))).length < limits 0
    · exact ⟨1, _, .last hlist (by rwa [length_map])⟩
    · have hlength := hshort
      rw [Paging.page, length_take, hrest] at hlength
      have hpositive := (hlimits 0).1
      obtain ⟨entry, hlast⟩ : ∃ entry, (Paging.page listedUnder after (limits 0)
          (s.projectRows (sourceKeyIn scope project "scope"))).getLast? = some entry := by
        refine isSome_iff_exists.mp (List.getLast?_isSome.mpr ?_)
        intro hempty
        rw [hempty] at hshort
        exact hshort hpositive
      obtain ⟨hnext, hmem, hkeyed⟩ := next_sourceKey hs hlast
      have hstored : StoredIn s scope entry.2.sourceKey entry.2 := by
        refine (storedIn_iff hproject hs).mpr ?_
        rw [hkeyed, ← (projectRows_mem.mp hmem).2]
        exact hmem
      have hless : (beyond listedUnder (some entry.2.sourceKey)
          (s.projectRows (sourceKeyIn scope project "scope"))).length < n := by
        rw [← hnext, beyond_next (projectRows_sorted scope project), length_drop, hrest]
        omega
      obtain ⟨pages, _, hfollowed⟩ := ih _ hless (fun cursor hcursor => ⟨entry.2, some.inj hcursor ▸ hstored⟩) rfl
        fun i => hlimits (i + 1)
      have hrow : ((Paging.page listedUnder after (limits 0)
          (s.projectRows (sourceKeyIn scope project "scope"))).map Prod.snd).getLast? = some entry.2 := by
        rw [List.getLast?_map, hlast]
        rfl
      have hfirst := Followed.next hlist hrow rfl hfollowed
      have hsizes : (List.range (pages + 1)).map limits
          = limits 0 :: (List.range pages).map fun i => limits (i + 1) := by
        rw [List.range_succ_eq_map, List.map_cons, List.map_map]
        rfl
      exact ⟨pages + 1, _, hsizes ▸ hfirst⟩

/-- What holds of a listing that follows the cursor, whatever the sizes of its pages. -/
structure SerpListing (s : MemoryProjectSerpSettingsRepository) : Prop where
  /-- Others may save in between. -/
  shared : ∀ scope limits records s',
    Followed scope serpSettingsMachine.Reachable s none limits records s' → ReadAll scope s records
  /-- Nobody saves in between: the listing is the records of the project, each once. -/
  alone : ∀ scope limits records s', Followed scope Eq s none limits records s' →
    s' = s ∧ (∀ row, row ∈ records ↔ ∃ sourceKey, StoredIn s scope sourceKey row)
      ∧ records.Pairwise fun a b => a.sourceKey < b.sourceKey
  /-- The end is reached. -/
  ends : ∀ scope : TenantScope, scope.projectId.isSome → ∀ limits : Nat → Nat,
    (∀ i, 1 ≤ limits i ∧ limits i ≤ 100) →
      ∃ pages records, Followed scope Eq s none ((List.range pages).map limits) records s
  /-- A cursor is never refused later. -/
  resumes : ∀ scope sourceKey row limit s', StoredIn s scope sourceKey row → 1 ≤ limit → limit ≤ 100 →
    serpSettingsMachine.Reachable s s' →
      ∃ records, Returns (MemoryProjectSerpSettingsRepository.list scope (some sourceKey) limit) s' records s'

theorem SerpSound.listing (hs : SerpSound s) : SerpListing s where
  shared _ _ _ _ h := h.readAll hs
  alone _ _ _ _ h := h.readExactly hs
  ends scope hsome limits hlimits := by
    obtain ⟨_, hproject⟩ := isSome_iff_exists.mp hsome
    exact followed_ends hproject hs _ (by simp) rfl hlimits
  resumes scope sourceKey row limit s' hstored hone hhundred := by
    rintro ⟨_, hrun⟩
    obtain ⟨key, hkey, hlook⟩ := hstored
    obtain ⟨project, hproject, -, -⟩ := projectSerpSettingsKey_eq_ok.mp hkey
    obtain ⟨later, hlater⟩ := isSome_iff_exists.mp ((SerpLast.run hs hrun).rows key (by rw [hlook]; rfl))
    refine ⟨_, list_returns.mpr ⟨⟨hone, hhundred⟩, ?_, ⟨project, hproject, rfl⟩, rfl⟩⟩
    intro cursor hcursor
    obtain rfl := some.inj hcursor
    exact ⟨later, key, hkey, hlater⟩

/-! ### Stale saves -/

/-- A save whose expected revision is not that of the source is refused, and it changes nothing. -/
theorem save_stale (hkey : projectSerpSettingsKey scope write.sourceKey = .ok key)
    (hstale : s.revisionOf key ≠ expected) (hvalid : write.validate scope expected = .ok ()) :
    Fails (MemoryProjectSerpSettingsRepository.save scope expected write) s searchRevisionChanged s := by
  have happly : write.apply expected (s.rows.lookup key) = .error searchRevisionChanged := by
    unfold ProjectSerpSettingsWrite.apply Except.failIf
    rw [if_pos (.inr (.inr hstale))]
    rfl
  unfold MemoryProjectSerpSettingsRepository.save
  refine fails_bind.mpr (.inr ⟨(), s, returns_lift.mpr ⟨hvalid, rfl⟩, ?_⟩)
  refine fails_bind.mpr (.inr ⟨key, s, returns_lift.mpr ⟨hkey, rfl⟩, ?_⟩)
  refine fails_bind.mpr (.inr ⟨_, s, returns_read.mpr ⟨rfl, rfl⟩, ?_⟩)
  exact fails_bind.mpr (.inl (fails_lift.mpr ⟨happly, rfl⟩))

/-- The revision that a caller expected is not the one of its source. -/
def Stale (s : MemoryProjectSerpSettingsRepository) (scope : TenantScope) (expected : Int)
    (write : ProjectSerpSettingsWrite) : Prop :=
  ∀ key, projectSerpSettingsKey scope write.sourceKey = .ok key → s.revisionOf key ≠ expected

theorem step_stale (hstale : Stale s scope expected write)
    (h : serpSettingsMachine.step s (.call (.save scope expected write) reply) s') :
    s' = s ∧ (∃ error, reply = .error error)
      ∧ (write.validate scope expected = .ok () → reply = .error searchRevisionChanged) := by
  have hrun : (SerpSettingsCall.save scope expected write).run.run s = (reply, s') := h
  cases reply with
  | error e =>
    refine ⟨SerpSettingsCall.run_atomic _ |>.failed s e s' hrun, ⟨e, rfl⟩, fun hvalid => ?_⟩
    obtain ⟨key, hkey, -⟩ := bind_eq_ok.mp hvalid
    have hfails : Fails (SerpSettingsCall.save scope expected write).run s searchRevisionChanged s :=
      fails_bind.mpr (.inl (save_stale hkey (hstale key hkey) hvalid))
    exact (Prod.mk.inj (hrun.symm.trans hfails)).1
  | ok saved =>
    have hreturns : Returns (SerpSettingsCall.save scope expected write).run s saved s' := hrun
    obtain ⟨_, _, hsave, -⟩ := returns_bind.mp hreturns
    obtain ⟨key, hkey, hsaved⟩ := save_returns hsave
    exact absurd hsaved.current (hstale key hkey)

/-! ### Runs -/

/-- In every run the active credentials of a source are stored under a revision that is not ahead of its settings, and
settings that are enabled have some. A save is accepted only under the current revision, which it raises by one;
credentials once stored stay as they are; and a client that follows the cursor of the listing reads every source. -/
theorem serpSettings_run {history : List SerpSettingsEvent} (h : serpSettingsMachine.Run .default history s) :
    SerpSound s ∧ SerpListing s
      ∧ (∀ call reply s', serpSettingsMachine.step s (.call call reply) s' → SerpOutcome s call reply s')
      ∧ (∀ scope expected write reply s', Stale s scope expected write →
        serpSettingsMachine.step s (.call (.save scope expected write) reply) s' →
          s' = s ∧ (∃ error, reply = .error error)
            ∧ (write.validate scope expected = .ok () → reply = .error searchRevisionChanged))
      ∧ ∀ later s', serpSettingsMachine.Run s later s' → SerpLast s s' := by
  have hs := SerpSound.start.run h
  exact ⟨hs, hs.listing, fun _ _ _ hstep => serpSettings_outcome hstep,
    fun _ _ _ _ _ hstale hstep => step_stale hstale hstep, fun _ _ hlater => SerpLast.run hs hlater⟩

namespace Sample

/-- Settings without a query, as they are stored. -/
def serpDefaults : SerpProtocol where
  query := ""
  engine := .google
  surface := .thirdPartyApi
  source := "dataforseo"
  sourceLocationCode := "2276"
  country := "DE"
  city := none
  language := "de"
  device := .desktop
  operatingSystem := "windows"
  requestedDepth := 10
  maxPages := 1
  priority := 1
  login := "unspecified"
  personalization := "unspecified"
  protocolVersion := serpProtocolVersion
  connectorVersion := "1"

def serpScope : TenantScope where
  operatorId := ⟨⟨1⟩⟩
  tenantId := ⟨⟨2⟩⟩
  projectId := some ⟨⟨3⟩⟩

def serpWrite (enabled : Bool) (bytes : Option (List UInt8)) : ProjectSerpSettingsWrite where
  sourceKey := "google-de"
  provider := .dataforseo
  enabled := enabled
  protocolDefaults := serpDefaults
  encryptedCredentials := bytes

/-- Credentials, settings that keep them, a stale save, and other credentials. -/
def serpCalls : List SerpSettingsCall :=
  [.save serpScope 0 (serpWrite false (some [1])), .save serpScope 1 (serpWrite true none),
    .save serpScope 1 (serpWrite true (some [9])), .save serpScope 2 (serpWrite true (some [2])),
    .list serpScope none 1]

def serpAfter : MemoryProjectSerpSettingsRepository :=
  Calls.after SerpSettingsCall.run .default serpCalls

/-- The stale save is refused, and the first credentials are still there under the third settings. -/
theorem serpSettings_run_sample :
    (SerpSound serpAfter ∧ SerpListing serpAfter)
      ∧ (∀ key, projectSerpSettingsKey serpScope "google-de" = .ok key →
        serpAfter.revisionOf key = 3 ∧ (serpAfter.credentials.lookup (key, 1)).map (·.encryptedCredentials) = some [1]
          ∧ (serpAfter.credentials.lookup (key, 2)).isNone ∧ (serpAfter.credentials.lookup (key, 3)).map
          (·.encryptedCredentials) = some [2]) := by
  have hrun := serpSettings_run (Calls.run_trace_all SerpSettingsCall.run (fun _ _ => False) serpCalls .default)
  refine ⟨⟨hrun.1, hrun.2.1⟩, ?_⟩
  intro key hkey
  have hkey : key = sourceKeyIn serpScope ⟨⟨3⟩⟩ "google-de" := by
    obtain ⟨_, hproject, -, rfl⟩ := projectSerpSettingsKey_eq_ok.mp hkey
    obtain rfl := some.inj hproject
    rfl
  subst hkey
  decide +kernel

end Sample

end GeoMaster
