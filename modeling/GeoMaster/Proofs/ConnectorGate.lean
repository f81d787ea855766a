import GeoMaster.Domain.ConnectorCapabilities

/-!
# The connector gate

A connector is available only where the settings of the operator are enabled and a stored proof of that very operator,
connector and version proves the format. Settings that were accepted as enabled stay available for their formats and
their version, since proofs are never taken back. The settings and the proofs are read one after the other, with other
calls between the two reads, so both statements are about the settings of one state and the proofs of a later one.
-/

namespace GeoMaster

open Op AssocMap List Option ConnectorVerification

/-! ### Resolving a connector -/

section Resolution

variable {settings : Option ConnectorSettings} {verifications : List ConnectorVerification}
  {deployedVersion contentType : String}

theorem laterProof_eq (best : Option ConnectorVerification) (v : ConnectorVerification) :
    laterProof best v = some v ∨ laterProof best v = best := by
  cases best with
  | none => exact .inl rfl
  | some b =>
    unfold laterProof
    by_cases hlater : b.verifiedAt < v.verifiedAt ∨ (b.verifiedAt = v.verifiedAt ∧ b.verificationId ≤ v.verificationId)
    · exact .inl (if_pos hlater)
    · exact .inr (if_neg hlater)

variable {v proof : ConnectorVerification}

theorem latestProof_mem (h : latestProof verifications = some v) : v ∈ verifications := by
  have hfold : ∀ (rest : List ConnectorVerification) (best : Option ConnectorVerification),
      rest.foldl laterProof best = some v → best = some v ∨ v ∈ rest := by
    intro rest
    induction rest with
    | nil => exact fun _ hbest => .inl hbest
    | cons w _ ih =>
      intro best hrest
      rcases ih _ hrest with hlater | hmem
      · rcases laterProof_eq best w with hw | hbest
        · rw [hw] at hlater
          exact .inr (some.inj hlater ▸ mem_cons_self)
        · exact .inl (hbest ▸ hlater)
      · exact .inr (mem_cons_of_mem w hmem)
  rcases hfold verifications none h with hnone | hmem
  · cases hnone
  · exact hmem

theorem latestProof_ne_none (h : v ∈ verifications) : latestProof verifications ≠ none := by
  have hsome : ∀ (rest : List ConnectorVerification) (best : Option ConnectorVerification),
      best ≠ none → rest.foldl laterProof best ≠ none := by
    intro rest
    induction rest with
    | nil => exact fun _ hbest => hbest
    | cons w _ ih =>
      intro best hbest
      apply ih
      rcases laterProof_eq best w with hw | hsame
      · rw [hw]
        exact some_ne_none w
      · rwa [hsame]
  cases verifications with
  | nil => cases h
  | cons w rest => exact hsome rest _ (some_ne_none w)

/-- What a proof has to show. -/
def ProvesFormat (deployedVersion contentType : String) (proof : ConnectorVerification) : Prop :=
  proof.connectorVersion = deployedVersion ∧ proof.contentType = contentType

/-- The deployed version is one a proof names, and no fixture. -/
def KnownVersion (verifications : List ConnectorVerification) (deployedVersion : String) : Prop :=
  validLabel deployedVersion = true ∧ isFixtureVersion deployedVersion = false
    ∧ ∃ proof ∈ verifications, proof.connectorVersion = deployedVersion

theorem knownVersion_iff :
    KnownVersion verifications deployedVersion
      ↔ ¬ (¬ validLabel deployedVersion ∨ isFixtureVersion deployedVersion
        ∨ ¬ verifications.any fun v => v.connectorVersion = deployedVersion) := by
  simp [KnownVersion]

/-- The proofs a connector is resolved by. -/
def formatProofs (verifications : List ConnectorVerification)
    (deployedVersion contentType : String) : List ConnectorVerification :=
  verifications.filter fun v => v.connectorVersion = deployedVersion ∧ v.contentType = contentType

theorem mem_formatProofs :
    proof ∈ formatProofs verifications deployedVersion contentType
      ↔ proof ∈ verifications ∧ ProvesFormat deployedVersion contentType proof := by
  simp [formatProofs, ProvesFormat]

/-- What a connector with settings resolves to, one condition after the other. -/
theorem resolveConnector_some (current : ConnectorSettings) :
    resolveConnector (some current) verifications deployedVersion contentType
      = if contentType = richMarkdownFormat then
          ⟨.unsupportedContentType, some current, none⟩
        else if ¬ current.enabled then ⟨.disabled, some current, none⟩
        else if ¬ validLabel deployedVersion ∨ isFixtureVersion deployedVersion
            ∨ ¬ verifications.any fun v => v.connectorVersion = deployedVersion then
          ⟨.versionMismatch, some current, none⟩
        else if contentType ∉ current.contentTypes then
          ⟨.unsupportedContentType, some current, none⟩
        else
          match latestProof (formatProofs verifications deployedVersion contentType) with
          | some proof => ⟨.available, some current, some proof.verificationId⟩
          | none => ⟨.unsupportedContentType, some current, none⟩ :=
  rfl

/-- An available connector has enabled settings, and the proof it selects proves the format. -/
theorem resolveConnector_available
    (h : (resolveConnector settings verifications deployedVersion contentType).availability = .available) :
    ∃ current proof, settings = some current ∧ current.enabled = true
      ∧ contentType ∈ current.contentTypes ∧ proof ∈ verifications
      ∧ ProvesFormat deployedVersion contentType proof
      ∧ (resolveConnector settings verifications deployedVersion contentType).verificationId
        = some proof.verificationId := by
  cases settings with
  | none => cases h
  | some current =>
    rw [resolveConnector_some] at h ⊢
    by_cases hrich : contentType = richMarkdownFormat
    · rw [if_pos hrich] at h
      cases h
    rw [if_neg hrich] at h ⊢
    by_cases henabled : current.enabled = true
    case neg =>
      rw [if_pos henabled] at h
      cases h
    rw [if_neg (not_not.mpr henabled)] at h ⊢
    by_cases hknown : KnownVersion verifications deployedVersion
    case neg =>
      rw [knownVersion_iff, not_not] at hknown
      rw [if_pos hknown] at h
      cases h
    rw [if_neg (knownVersion_iff.mp hknown)] at h ⊢
    by_cases hlisted : contentType ∈ current.contentTypes
    case neg =>
      rw [if_pos hlisted] at h
      cases h
    rw [if_neg (not_not.mpr hlisted)] at h ⊢
    cases hlatest : latestProof (formatProofs verifications deployedVersion contentType) with
    | none =>
      rw [hlatest] at h
      cases h
    | some proof =>
      obtain ⟨hmem, hproves⟩ := mem_formatProofs.mp (latestProof_mem hlatest)
      exact ⟨current, proof, rfl, henabled, hlisted, hmem, hproves, rfl⟩

/-- Enabled settings are available for a listed plain format that is proved for a known version. -/
theorem resolveConnector_of_proof {current : ConnectorSettings}
    (hplain : contentType ≠ richMarkdownFormat) (henabled : current.enabled = true)
    (hknown : KnownVersion verifications deployedVersion) (hlisted : contentType ∈ current.contentTypes)
    (hmem : proof ∈ verifications) (hproves : ProvesFormat deployedVersion contentType proof) :
    (resolveConnector (some current) verifications deployedVersion contentType).availability = .available := by
  rw [resolveConnector_some, if_neg hplain, if_neg (not_not.mpr henabled),
    if_neg (knownVersion_iff.mp hknown), if_neg (not_not.mpr hlisted)]
  cases hlatest : latestProof (formatProofs verifications deployedVersion contentType) with
  | none => exact absurd hlatest (latestProof_ne_none (mem_formatProofs.mpr ⟨hmem, hproves⟩))
  | some latest => rfl

end Resolution

/-! ### What a call does -/

namespace MemoryConnectorState

theorem history_pushProof (s : MemoryConnectorState) (slot slot' : ConnectorSlot) (proof : ConnectorVerification) :
    (s.pushProof slot proof).history slot' = if slot' = slot then s.history slot ++ [proof] else s.history slot' := by
  unfold pushProof history
  rw [lookup_insert]
  by_cases hslot : slot' = slot
  · rw [if_pos hslot, if_pos hslot]
    rfl
  · rw [if_neg hslot, if_neg hslot]

theorem lookup_setSettings (s : MemoryConnectorState) (slot slot' : ConnectorSlot) (settings : ConnectorSettings) :
    (s.setSettings slot settings).settings.lookup slot'
      = if slot' = slot then some settings else s.settings.lookup slot' :=
  lookup_insert _ _ _ _

theorem revision_setSettings (s : MemoryConnectorState) (slot slot' : ConnectorSlot) (settings : ConnectorSettings) :
    (s.setSettings slot settings).revision slot' = if slot' = slot then settings.revision else s.revision slot' := by
  unfold revision
  rw [lookup_setSettings]
  by_cases hslot : slot' = slot
  · rw [if_pos hslot, if_pos hslot]
    rfl
  · rw [if_neg hslot, if_neg hslot]

section Calls

variable [UrlParser] [UrlFragments]

/-- What an accepted configuration passed. -/
structure Accepted (s : MemoryConnectorState) (slot : ConnectorSlot) (expectedRevision : Int)
    (enabled : Bool) (contentTypes : List String) (deployedVersion : String) : Prop where
  key : slot.2.validate = .ok ()
  revision : s.revision slot = expectedRevision
  settings : validateConnectorSettings enabled contentTypes (s.history slot) deployedVersion = .ok ()

variable {operator : OperatorId} {s s' : MemoryConnectorState}

theorem configure_returns {key : ConnectorKey} {expectedRevision : Int}
    {enabled : Bool} {contentTypes : List String} {deployedVersion : String} {settings : ConnectorSettings}
    (h : (configure operator key expectedRevision enabled contentTypes deployedVersion).Returns s settings s') :
    s.Accepted (operator, key) expectedRevision enabled contentTypes deployedVersion ∧ settings
      = ⟨key, expectedRevision + 1, enabled, contentTypes⟩ ∧ s' = s.setSettings (operator, key) settings := by
  unfold configure at h
  simp only [returns_iff, not_or, not_not] at h
  obtain ⟨_, _, ⟨hkey, rfl⟩, _, _, ⟨rfl, rfl⟩, _, _, ⟨⟨-, -, hrevision⟩, rfl⟩, _, _, ⟨rfl, rfl⟩, _, _,
    ⟨hsettings, rfl⟩, _, _, hset, rfl, rfl⟩ := h
  rw [← hrevision]
  exact ⟨⟨hkey, rfl, hsettings⟩, rfl, hset.symm⟩

theorem configure_atomic (operator : OperatorId) (key : ConnectorKey) (expectedRevision : Int)
    (enabled : Bool) (contentTypes : List String) (deployedVersion : String) :
    (configure operator key expectedRevision enabled contentTypes deployedVersion).Atomic := by
  refine .bind .lift fun _ => .bind .read fun _ => .bind .failIf fun _ => .bind .read fun _ => .bind .lift fun _ => ?_
  exact (Op.Total.modify.bind fun _ => Op.Total.pure).atomic

theorem insertVerification_returns {proof : ConnectorVerification} {u : Unit} (h : (insertVerification operator proof).Returns s u s') :
    proof.validate = .ok () ∧ proof.verificationId ∉ s.ids ∧ s' = s.pushProof (operator, proof.key) proof := by
  unfold insertVerification at h
  simp only [returns_iff] at h
  obtain ⟨_, _, ⟨hproof, rfl⟩, _, _, ⟨rfl, rfl⟩, _, _, ⟨hnew, rfl⟩, hpush⟩ := h
  exact ⟨hproof, by simpa using hnew, hpush.symm⟩

theorem insertVerification_atomic (operator : OperatorId) (proof : ConnectorVerification) :
    (insertVerification operator proof).Atomic :=
  .bind .lift fun _ => .bind .read fun _ => .bind .failIf fun _ => Op.Total.modify.atomic

end Calls

end MemoryConnectorState

/-! ### What a step does -/

section Steps

variable [UrlParser] [UrlFragments]

/-- The steps of the repository: a refused call changes nothing, an accepted one stores its settings or its proof. -/
inductive ConnectorStep (s : MemoryConnectorState) : ConnectorEvent → MemoryConnectorState → Prop where
  | reorder {s' : MemoryConnectorState} (hsame : SameConnectors s s') : ConnectorStep s .reorder s'
  | refused (call : ConnectorCall) (e : AppError) : ConnectorStep s (.call call (.error e)) s
  | configured {operator : OperatorId} {key : ConnectorKey} {expectedRevision : Int}
      {enabled : Bool} {contentTypes : List String} {deployedVersion : String}
      (haccepted : s.Accepted (operator, key) expectedRevision enabled contentTypes deployedVersion) :
      ConnectorStep s
        (.call (.configure operator key expectedRevision enabled contentTypes deployedVersion)
          (.ok (some ⟨key, expectedRevision + 1, enabled, contentTypes⟩)))
        (s.setSettings (operator, key) ⟨key, expectedRevision + 1, enabled, contentTypes⟩)
  | proved {operator : OperatorId} {proof : ConnectorVerification}
      (hvalid : proof.validate = .ok ()) (hnew : proof.verificationId ∉ s.ids) :
      ConnectorStep s (.call (.insertVerification operator proof) (.ok none)) (s.pushProof (operator, proof.key) proof)

theorem ConnectorCall.run_atomic (call : ConnectorCall) : call.run.Atomic := by
  cases call with
  | configure => exact (MemoryConnectorState.configure_atomic _ _ _ _ _ _).bind_total fun _ => .pure
  | insertVerification operator proof =>
    exact (MemoryConnectorState.insertVerification_atomic _ _).bind_total fun _ => .pure

variable {contentType deployedVersion : String} {e : ConnectorEvent} {h : List ConnectorEvent} {operator : OperatorId}
  {s s' : MemoryConnectorState}

theorem connectorStep (h : connectorMachine.step s e s') : ConnectorStep s e s' := by
  cases e with
  | reorder => exact .reorder h
  | call call reply =>
    have hrun : call.run.run s = (reply, s') := h
    cases reply with
    | error e =>
      rw [call.run_atomic.failed s e s' hrun]
      exact .refused call e
    | ok reply =>
      have hreturns : call.run.Returns s reply s' := hrun
      cases call with
      | configure =>
        obtain ⟨_, _, hconfigure, hpure⟩ := returns_bind.mp hreturns
        obtain ⟨rfl, rfl⟩ := returns_pure.mp hpure
        obtain ⟨haccepted, rfl, rfl⟩ := MemoryConnectorState.configure_returns hconfigure
        exact .configured haccepted
      | insertVerification operator proof =>
        obtain ⟨_, _, hinsert, hpure⟩ := returns_bind.mp hreturns
        obtain ⟨rfl, rfl⟩ := returns_pure.mp hpure
        obtain ⟨hvalid, hnew, rfl⟩ := MemoryConnectorState.insertVerification_returns hinsert
        exact .proved hvalid hnew

/-! ### Proofs -/

/-- Every proof is valid and stored under its own connector, and no two proofs have one identity. -/
structure ProofsShaped (s : MemoryConnectorState) : Prop where
  placed : ∀ slot, ∀ proof ∈ s.history slot, proof.key = slot.2 ∧ proof.validate = .ok ()
  known : ∀ slot, ∀ proof ∈ s.history slot, proof.verificationId ∈ s.ids
  distinct : ∀ slot, ((s.history slot).map ConnectorVerification.verificationId).Nodup
  apart : ∀ slot slot', ∀ proof ∈ s.history slot, ∀ proof' ∈ s.history slot',
    proof.verificationId = proof'.verificationId → slot = slot'

theorem ProofsShaped.default : ProofsShaped .default where
  placed _ _ hmem := nomatch hmem
  known _ _ hmem := nomatch hmem
  distinct _ := nodup_nil
  apart _ _ _ hmem := nomatch hmem

theorem ProofsShaped.push (hs : ProofsShaped s) {proof : ConnectorVerification} (hvalid : proof.validate = .ok ())
    (hnew : proof.verificationId ∉ s.ids) : ProofsShaped (s.pushProof (operator, proof.key) proof) := by
  have hmem : ∀ slot, ∀ other ∈ (s.pushProof (operator, proof.key) proof).history slot,
      other ∈ s.history slot ∨ (other = proof ∧ slot = (operator, proof.key)) := by
    intro slot other hother
    rw [MemoryConnectorState.history_pushProof] at hother
    by_cases hslot : slot = (operator, proof.key)
    · rw [if_pos hslot, ← hslot] at hother
      rcases mem_append.mp hother with hold | hlast
      · exact .inl hold
      · exact .inr ⟨mem_singleton.mp hlast, hslot⟩
    · rw [if_neg hslot] at hother
      exact .inl hother
  constructor
  case placed =>
    intro slot other hother
    rcases hmem slot other hother with hold | ⟨rfl, rfl⟩
    · exact hs.placed slot other hold
    · exact ⟨rfl, hvalid⟩
  case known =>
    intro slot other hother
    rcases hmem slot other hother with hold | ⟨rfl, rfl⟩
    · exact mem_cons_of_mem _ (hs.known slot other hold)
    · exact mem_cons_self
  case distinct =>
    intro slot
    rw [MemoryConnectorState.history_pushProof]
    by_cases hslot : slot = (operator, proof.key)
    · rw [if_pos hslot, map_append, map_singleton, nodup_append]
      refine ⟨hs.distinct _, nodup_singleton _, ?_⟩
      rintro id hid _ hlast rfl
      obtain ⟨other, hother, rfl⟩ := mem_map.mp hid
      exact hnew (mem_singleton.mp hlast ▸ hs.known _ other hother)
    · rw [if_neg hslot]
      exact hs.distinct slot
  case apart =>
    intro slot slot' other hother other' hother' hid
    rcases hmem slot other hother with hold | ⟨rfl, rfl⟩ <;> rcases hmem slot' other' hother' with hold' | ⟨rfl, rfl⟩
    · exact hs.apart slot slot' other hold other' hold' hid
    · exact absurd (hid ▸ hs.known slot other hold) hnew
    · exact absurd (hid ▸ hs.known slot' other' hold') hnew
    · rfl

theorem ProofsShaped.step (hs : ProofsShaped s) (h : connectorMachine.step s e s') : ProofsShaped s' := by
  cases connectorStep h with
  | refused => exact hs
  | configured => exact ⟨hs.placed, hs.known, hs.distinct, hs.apart⟩
  | proved hvalid hnew => exact hs.push hvalid hnew
  | reorder hsame =>
    obtain ⟨-, hhistory, hids⟩ := hsame
    constructor
    case placed =>
      intro slot proof hmem
      rw [hhistory] at hmem
      exact hs.placed slot proof hmem
    case known =>
      intro slot proof hmem
      rw [hhistory] at hmem
      exact (hids _).mpr (hs.known slot proof hmem)
    case distinct =>
      intro slot
      rw [hhistory]
      exact hs.distinct slot
    case apart =>
      intro slot slot' proof hmem proof' hmem' hid
      rw [hhistory] at hmem hmem'
      exact hs.apart slot slot' proof hmem proof' hmem' hid

theorem proofsShaped_run (hrun : connectorMachine.Run .default h s) : ProofsShaped s :=
  hrun.invariant (fun _ _ _ hs hstep => hs.step hstep) .default

/-- The proofs of every connector were stored before, in the same order, or are newer. -/
def ProofsGrown (s s' : MemoryConnectorState) : Prop :=
  ∀ slot, s.history slot <+: s'.history slot

theorem proofsGrown_step (h : connectorMachine.step s e s') : ProofsGrown s s' := by
  intro slot
  cases connectorStep h with
  | reorder hsame => exact hsame.2.1 slot ▸ prefix_refl _
  | refused => exact prefix_refl _
  | configured => exact prefix_refl _
  | proved =>
    rw [MemoryConnectorState.history_pushProof]
    split
    case isTrue hslot =>
      rw [hslot]
      exact prefix_append _ _
    case isFalse => exact prefix_refl _

theorem proofsGrown_run (hrun : connectorMachine.Run s h s') : ProofsGrown s s' :=
  hrun.relates (fun _ _ _ _ _ => trivial) (fun _ _ => prefix_refl _) (fun _ _ _ h₁ h₂ slot => (h₁ slot).trans (h₂ slot))
    (fun _ _ _ _ hstep => proofsGrown_step hstep) trivial

/-! ### Settings -/

/-- An accepted configuration of a connector. -/
def configures (slot : ConnectorSlot) : ConnectorEvent → Bool
  | .call (.configure operator key _ _ _ _) (.ok _) => (operator, key) = slot
  | _ => false

/-- An accepted configuration adds one to the revision, and no other step changes the settings. -/
theorem settings_step (h : connectorMachine.step s e s') (slot : ConnectorSlot) :
    s'.revision slot = s.revision slot + (if configures slot e then 1 else 0)
      ∧ (configures slot e = false → s'.settings.lookup slot = s.settings.lookup slot) := by
  cases connectorStep h with
  | reorder hsame =>
    have hsettings := hsame.1 slot
    refine ⟨?_, fun _ => hsettings⟩
    unfold MemoryConnectorState.revision
    rw [hsettings]
    exact (Int.add_zero _).symm
  | refused call e =>
    have hother : configures slot (.call call (.error e)) = false := by cases call <;> rfl
    rw [hother]
    exact ⟨(Int.add_zero _).symm, fun _ => rfl⟩
  | proved => exact ⟨(Int.add_zero _).symm, fun _ => rfl⟩
  | @configured operator key _ _ _ _ haccepted =>
    rw [MemoryConnectorState.revision_setSettings, MemoryConnectorState.lookup_setSettings]
    by_cases hslot : slot = (operator, key)
    · subst hslot
      simp [configures, haccepted.revision]
    · simp [configures, hslot, Ne.symm hslot]

theorem revision_run (hrun : connectorMachine.Run s h s') (slot : ConnectorSlot) :
    s'.revision slot = s.revision slot + h.countP (configures slot) := by
  induction hrun with
  | refl => simp
  | @tail _ _ _ _ _ hstep ih =>
    rw [(settings_step hstep slot).1, ih, countP_append, countP_singleton]
    split <;> omega

variable {slot : ConnectorSlot} {key : ConnectorKey} {r : ConnectorResolution} {expectedRevision : Int}
  {contentTypes : List String}

theorem settings_run (hrun : connectorMachine.Run s h s')
    (hnone : h.countP (configures slot) = 0) : s'.settings.lookup slot = s.settings.lookup slot := by
  induction hrun with
  | refl => rfl
  | @tail _ _ _ e _ hstep ih =>
    rw [countP_append, Nat.add_eq_zero_iff, countP_eq_zero, countP_eq_zero] at hnone
    have hother : configures slot e = false := by simpa using hnone.2 e (mem_singleton.mpr rfl)
    rw [(settings_step hstep slot).2 hother, ih (countP_eq_zero.mpr hnone.1)]

/-! ### The gate -/

omit [UrlParser] [UrlFragments] in
theorem resolve_eq_ok :
    resolve operator key deployedVersion contentType s s' = .ok r
      ↔ key.validate = .ok ()
        ∧ resolveConnector (s.settings.lookup (operator, key)) (s'.history (operator, key))
          deployedVersion contentType = r := by
  unfold resolve MemoryConnectorState.getSettings MemoryConnectorState.getHistory
  cases hkey : key.validate with
  | error e => simp [Op.run, bind, Op.lift, Except.bind]
  | ok u => simp [Op.run, bind, Op.lift, Op.read, Except.bind, pure, Except.pure]

/-- What an available connector has: enabled settings of the operator that list the format, and a selected proof that
is stored for that operator and connector and no other, is valid, and proves the format for the version. -/
structure Opened (s s' : MemoryConnectorState) (slot : ConnectorSlot)
    (deployedVersion contentType : String) (selected : Option Uuid) : Prop where
  settings : ∃ current, s.settings.lookup slot = some current ∧ current.enabled = true
    ∧ contentType ∈ current.contentTypes
  proof : ∃ proof ∈ s'.history slot, selected = some proof.verificationId ∧ proof.key = slot.2
    ∧ proof.validate = .ok () ∧ ProvesFormat deployedVersion contentType proof
    ∧ ∀ slot', ∀ other ∈ s'.history slot', other.verificationId = proof.verificationId → slot' = slot ∧ other = proof

theorem ProofsShaped.opened (hs' : ProofsShaped s')
    (h : resolve operator key deployedVersion contentType s s' = .ok r) (havailable : r.availability = .available) :
    Opened s s' (operator, key) deployedVersion contentType r.verificationId := by
  obtain ⟨-, rfl⟩ := resolve_eq_ok.mp h
  obtain ⟨current, proof, hsettings, henabled, hlisted, hmem, hproves, hselected⟩ :=
    resolveConnector_available havailable
  obtain ⟨hkey, hvalid⟩ := hs'.placed _ proof hmem
  refine ⟨⟨current, hsettings, henabled, hlisted⟩, proof, hmem, hselected, hkey, hvalid, hproves, ?_⟩
  intro slot' other hother hid
  obtain rfl := hs'.apart _ _ other hother proof hmem hid
  exact ⟨rfl, inj_on_of_nodup_map (hs'.distinct _) hother hmem hid⟩

/-- Accepted as enabled, a format of the settings is proved for the deployed version. -/
theorem MemoryConnectorState.Accepted.proves (h : s.Accepted slot expectedRevision true contentTypes deployedVersion)
    (hlisted : contentType ∈ contentTypes) :
    contentType ≠ richMarkdownFormat ∧ KnownVersion (s.history slot) deployedVersion
      ∧ ∃ proof ∈ s.history slot, ProvesFormat deployedVersion contentType proof := by
  have hsettings := h.settings
  simp only [validateConnectorSettings, Except.eq_ok_iff, not_and, not_or, not_exists, not_not] at hsettings
  obtain ⟨_, -, hproved⟩ := hsettings
  obtain ⟨hplain, -, hlabel, hlive, hproofs⟩ := hproved trivial
  obtain ⟨proof, hmem, hproof⟩ := any_eq_true.mp (hproofs contentType hlisted)
  simp only [Bool.and_eq_true, decide_eq_true_eq] at hproof
  obtain ⟨⟨hversion, htype⟩, -⟩ := hproof
  refine ⟨fun hrich => hplain (hrich ▸ hlisted), ⟨hlabel, ?_, proof, hmem, hversion⟩, proof, hmem, hversion, htype⟩
  simpa using hlive

/-- Settings accepted as enabled are available from then on, until the connector is configured again. -/
theorem accepted_stays {s₁ s₂ s₃ : MemoryConnectorState} {settings : Option ConnectorSettings}
    (hstep : connectorMachine.step s
      (.call (.configure operator key expectedRevision true contentTypes deployedVersion)
        (.ok settings)) s₁) {h' : List ConnectorEvent} (hrun : connectorMachine.Run s₁ h s₂)
    (hnone : h.countP (configures (operator, key)) = 0) (hrun' : connectorMachine.Run s₂ h' s₃)
    (hlisted : contentType ∈ contentTypes) :
    ∃ r, resolve operator key deployedVersion contentType s₂ s₃ = .ok r ∧ r.availability = .available := by
  cases connectorStep hstep with
  | configured haccepted =>
    refine ⟨_, resolve_eq_ok.mpr ⟨haccepted.key, rfl⟩, ?_⟩
    obtain ⟨hplain, ⟨hlabel, hlive, known, hknown, hversion⟩, _, hmem, hproves⟩ := haccepted.proves hlisted
    -- the history of the accepting state is a prefix of the one that is read
    have hgrown : s.history (operator, key) <+: s₃.history (operator, key) :=
      (proofsGrown_run hrun (operator, key)).trans (proofsGrown_run hrun' (operator, key))
    rw [settings_run hrun hnone, MemoryConnectorState.lookup_setSettings, if_pos rfl]
    exact resolveConnector_of_proof hplain rfl
      ⟨hlabel, hlive, known, hgrown.subset hknown, hversion⟩ hlisted (hgrown.subset hmem) hproves

/-- The gate in a state a run reaches, and in every state that follows it. -/
structure ConnectorGate (h : List ConnectorEvent) (s : MemoryConnectorState) : Prop where
  shaped : ProofsShaped s
  grown : ∀ h' s', connectorMachine.Run s h' s' → ProofsGrown s s'
  counted : ∀ slot, s.revision slot = h.countP (configures slot)
  stale : ∀ operator key expectedRevision enabled contentTypes deployedVersion,
    expectedRevision ≠ s.revision (operator, key) →
    ∃ e, (MemoryConnectorState.configure operator key expectedRevision enabled contentTypes
      deployedVersion).run s = (.error e, s)
  opened : ∀ h' s', connectorMachine.Run s h' s' →
    ∀ operator key deployedVersion contentType r, resolve operator key deployedVersion contentType s s' = .ok r →
      r.availability = .available → Opened s s' (operator, key) deployedVersion contentType r.verificationId
  stays : ∀ operator key expectedRevision contentTypes deployedVersion settings s₁,
    connectorMachine.step s
      (.call (.configure operator key expectedRevision true contentTypes deployedVersion) (.ok settings)) s₁ →
    ∀ h₁ s₂ h₂ s₃, connectorMachine.Run s₁ h₁ s₂ →
      h₁.countP (configures (operator, key)) = 0 → connectorMachine.Run s₂ h₂ s₃ →
      ∀ contentType ∈ contentTypes, ∃ r,
        resolve operator key deployedVersion contentType s₂ s₃ = .ok r ∧ r.availability = .available

/-- Every run keeps the gate. -/
theorem connectorGate {h : List ConnectorEvent} {s : MemoryConnectorState}
    (hrun : connectorMachine.Run .default h s) : ConnectorGate h s where
  shaped := proofsShaped_run hrun
  grown _ _ hrun' := proofsGrown_run hrun'
  counted slot := by
    have hcount := revision_run hrun slot
    rwa [show MemoryConnectorState.default.revision slot = 0 from rfl, Int.zero_add] at hcount
  stale operator key expectedRevision enabled contentTypes deployedVersion hstale := by
    rcases returns_or_fails (MemoryConnectorState.configure operator key expectedRevision enabled
      contentTypes deployedVersion) s with ⟨settings, s', hreturns⟩ | ⟨e, s', hfails⟩
    · obtain ⟨haccepted, -, -⟩ := MemoryConnectorState.configure_returns hreturns
      exact absurd haccepted.revision.symm hstale
    · have hsame :=
        (MemoryConnectorState.configure_atomic operator key expectedRevision enabled contentTypes
          deployedVersion).failed s e s' hfails
      rw [hsame] at hfails
      exact ⟨e, hfails⟩
  opened _ _ hrun' _ _ _ _ _ hresolve havailable := (proofsShaped_run (hrun.append hrun')).opened hresolve havailable
  stays _ _ _ _ _ _ _ hstep _ _ _ _ hrun₁ hnone hrun₂ _ hlisted := accepted_stays hstep hrun₁ hnone hrun₂ hlisted

end Steps

/-! ### Sample values -/

namespace Sample

/-- Every address of the samples is this one. -/
@[reducible] def postParser : UrlParser :=
  ⟨fun url =>
    if url = "https://example.com/posts/100" then
      some ⟨"https", some "example.com", "", none, "/posts/100"⟩
    else none, fun _ _ => none⟩

@[reducible] def noFragments : UrlFragments :=
  ⟨fun _ => none⟩

def connectorKey : ConnectorKey :=
  ⟨"creator", "primary"⟩

def postHash : String :=
  "bbbbbbbbbbbbbbbbbbbbbbbbbbbbbbbbbbbbbbbbbbbbbbbbbbbbbbbbbbbbbbbb"

/-- A post that was published and read back. -/
def postOutcome (status : ChannelOutcomeStatus) : ChannelOutcome :=
  { status, detail := none, occurredAt := DateTime.seconds 1, rawAnswer := none, citations := []
    publicUrl := some "https://example.com/posts/100", screenshotRef := none
    connectorVersion := some "live.v1"
    runnerEvidence :=
      [.object
        [("kind", .string "public_readback"), ("url", .string "https://example.com/posts/100"),
          ("content_matched", .bool true), ("owned_by_account", .bool true),
          ("expected_sha256", .string postHash), ("readback_sha256", .string postHash)]]
    fixture := false }

def postProof : ConnectorVerification :=
  { verificationId := uuid 7, key := connectorKey, connectorVersion := "live.v1"
    contentType := "article", publicationReceipt := postOutcome .published
    publicReadback := postOutcome .verified, verifiedAt := DateTime.seconds 2 }

/-- A connector is proved, and then enabled. -/
def connectorCalls : List ConnectorCall :=
  [.insertVerification ⟨uuid 1⟩ postProof, .configure ⟨uuid 1⟩ connectorKey 0 true ["article"] "live.v1"]

def runConnector : ConnectorCall → Op MemoryConnectorState AppError (Option ConnectorSettings) :=
  @ConnectorCall.run postParser noFragments

theorem connectorGate_sample :
    @ConnectorGate postParser noFragments (Calls.trace runConnector .default connectorCalls)
        (Calls.after runConnector .default connectorCalls)
      ∧ (resolve ⟨uuid 1⟩ connectorKey "live.v1" "article" (Calls.after runConnector .default connectorCalls)
          (Calls.after runConnector .default connectorCalls)).map (·.availability)
        = .ok .available :=
  ⟨@connectorGate postParser noFragments _ _
    (Calls.run_trace_all runConnector SameConnectors connectorCalls .default), by decide +kernel⟩

end Sample

end GeoMaster
