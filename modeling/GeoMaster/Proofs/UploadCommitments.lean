import GeoMaster.Proofs.KnowledgeShape

/-!
# Committed upload sessions

A session is committed by one of two calls, and each of them leaves a receipt in a map of its own. What is
committed stays as it is along every run in which no call finds a committed session past its time before it
asks for the state of the session.
-/

namespace GeoMaster

open Except AssocMap Calls

namespace MemoryKnowledgeRepository

/-! ### The maps of the sessions -/

/-- The sessions, their receipts and their objects. -/
structure UploadMaps where
  sessions : AssocMap Uuid UploadSession
  uploadCompletions : AssocMap (Uuid × String) ImportAcceptance
  attachmentCompletions : AssocMap Uuid String
  storedObjects : AssocMap Uuid StoredObject
  objectBytes : AssocMap Uuid (List UInt8)

def uploadMaps (s : MemoryState) : UploadMaps where
  sessions := s.uploadSessions
  uploadCompletions := s.uploadCompletions
  attachmentCompletions := s.attachmentCompletions
  storedObjects := s.storedObjects
  objectBytes := s.objectBytes

theorem uploadMaps_storeEnded (p : Parser) (jobId operationId : Uuid) (parse : ParseState p) (operation : Operation)
    (a : ImportAcceptance) (s : MemoryState) :
    uploadMaps (storeEnded p jobId operationId parse operation a s) = uploadMaps s :=
  rfl

theorem uploadMaps_insertRelease (key : String) (release : KnowledgeRelease) (s : MemoryState) :
    uploadMaps (s.insertRelease key release) = uploadMaps s :=
  rfl

/-! ### What a call does to the sessions -/

/-- The two ways to commit a session. -/
inductive CompletionMode where
  | imported
  | attachment

/-- The session a call completes, and how. -/
def completes : KnowledgeCall → Option (Uuid × CompletionMode)
  | .completeUpload _ id _ _ _ => some (id, .imported)
  | .completeAttachmentUpload _ id _ _ => some (id, .attachment)
  | _ => none

/-- What a call does to the sessions and their receipts. -/
inductive SessionChange (s s' : MemoryState) : KnowledgeCall → Prop where
  | same (call : KnowledgeCall) (sessions : s'.uploadSessions = s.uploadSessions)
      (uploads : s'.uploadCompletions = s.uploadCompletions)
      (attachments : s'.attachmentCompletions = s.attachmentCompletions) : SessionChange s s' call
  | created (call : KnowledgeCall) (id : Uuid) (session : UploadSession)
      (unused : s.uploadSessions.lookup id = none) (uncommitted : session.state ≠ .committed)
      (announced : 0 < session.expectedSize ∧ session.expectedSize ≤ maxUploadBytes)
      (sessions : s'.uploadSessions = s.uploadSessions.insert id session)
      (uploads : s'.uploadCompletions = s.uploadCompletions)
      (attachments : s'.attachmentCompletions = s.attachmentCompletions) : SessionChange s s' call
  | moved (call : KnowledgeCall) (id : Uuid) (session session' : UploadSession)
      (found : s.uploadSessions.lookup id = some session) (before : session.state ≠ .committed)
      (after : session'.state ≠ .committed) (size : session'.expectedSize = session.expectedSize)
      (sessions : s'.uploadSessions = s.uploadSessions.insert id session')
      (uploads : s'.uploadCompletions = s.uploadCompletions)
      (attachments : s'.attachmentCompletions = s.attachmentCompletions) : SessionChange s s' call
  | imported (scope : TenantScope) (id : Uuid) (idempotencyKey : String) (completion : CompletionInputs)
      (fresh : ImportInputs) (session session' : UploadSession) (hash : String) (acceptance : ImportAcceptance)
      (found : s.uploadSessions.lookup id = some session) (before : session.state ≠ .committed)
      (after : session'.state = .committed) (size : session'.expectedSize = session.expectedSize)
      (sessions : s'.uploadSessions = s.uploadSessions.insert id session')
      (uploads : s'.uploadCompletions = s.uploadCompletions.insert (id, hash) acceptance)
      (attachments : s'.attachmentCompletions = s.attachmentCompletions) :
      SessionChange s s' (.completeUpload scope id idempotencyKey completion fresh)
  | attached (scope : TenantScope) (id : Uuid) (idempotencyKey : String)
      (completion : CompletionInputs) (session session' : UploadSession) (hash : String)
      (found : s.uploadSessions.lookup id = some session) (before : session.state ≠ .committed)
      (after : session'.state = .committed) (size : session'.expectedSize = session.expectedSize)
      (sessions : s'.uploadSessions = s.uploadSessions.insert id session')
      (uploads : s'.uploadCompletions = s.uploadCompletions)
      (attachments : s'.attachmentCompletions = s.attachmentCompletions.insert id hash) :
      SessionChange s s' (.completeAttachmentUpload scope id idempotencyKey completion)

theorem validateUpload_size {command : UploadSessionCommand} (h : validateUpload command = .ok ()) :
    0 < command.expectedSize ∧ command.expectedSize ≤ maxUploadBytes := by
  by_contra hsize
  have hbad : command.expectedSize = 0 ∨ maxUploadBytes < command.expectedSize := by omega
  simp [validateUpload, failIf, hbad] at h

variable {call : KnowledgeCall} {s s' : MemoryState}

theorem SessionChange.of_uploadMaps (h : uploadMaps s' = uploadMaps s) : SessionChange s s' call :=
  .same call (congrArg UploadMaps.sessions h) (congrArg UploadMaps.uploadCompletions h)
    (congrArg UploadMaps.attachmentCompletions h)

/-- What an import brings is an object, with or without its bytes. -/
theorem Brought.sessions {scope : TenantScope} {objectId : Uuid} (h : Brought scope objectId s s') :
    s'.uploadSessions = s.uploadSessions ∧ s'.uploadCompletions = s.uploadCompletions
      ∧ s'.attachmentCompletions = s.attachmentCompletions := by
  cases h <;> exact ⟨rfl, rfl, rfl⟩

section

variable [Sha256]

/-- A call that finds a committed session past its time and looks at the clock first. -/
def Reopens (s : MemoryState) (call : KnowledgeCall) : Prop :=
  ∃ id session now, s.uploadSessions.lookup id = some session ∧ session.state = .committed
    ∧ session.expiresAt ≤ now ∧ ChecksExpiry s id session now call

/-- An import apart from its object leaves the sessions and the objects alone. -/
theorem Imported.uploadMaps {scope : TenantScope} {fresh : ImportInputs}
    {a : ImportAcceptance} (h : Imported scope fresh s a s') :
    MemoryKnowledgeRepository.uploadMaps s' = MemoryKnowledgeRepository.uploadMaps s := by
  cases h <;> rfl

variable {r : Except AppError KnowledgeReply}

theorem KnowledgeEffect.sessions (h : KnowledgeEffect s call r s') (hfresh : ∀ id ∈ call.newIds, s.Unused id)
    (hkept : ¬ Reopens s call) : SessionChange s s' call := by
  cases h with
  | same => exact .of_uploadMaps rfl
  | sessionCreated _ _ id _ _ _ valid =>
    have hunused := (hfresh id (by simp [KnowledgeCall.newIds])).uploadSessions
    exact .created _ id _ hunused (by simp [newSession]) (validateUpload_size valid) rfl rfl rfl
  | contentPut _ id _ _ session found _ uncommitted =>
    exact .moved _ id session session.upload found uncommitted (by simp [UploadSession.upload]) rfl rfl rfl rfl
  | sessionExpired _ id session now _ found checks past =>
    have huncommitted : session.state ≠ .committed := fun hcommitted =>
      hkept ⟨id, session, now, found, hcommitted, past, checks⟩
    exact .moved _ id session session.expire found huncommitted (by simp [UploadSession.expire]) rfl rfl rfl rfl
  | contentRejected _ id session _ found _ uncommitted =>
    exact .moved _ id session session.fail found uncommitted (by simp [UploadSession.fail]) rfl rfl rfl rfl
  | uploadCompleted scope id key completion fresh _ session _ a object s₁ _ found _ uncommitted _ _ _ _ imported =>
    have hmaps := imported.uploadMaps
    have hsessions : s₁.uploadSessions = s.uploadSessions := congrArg UploadMaps.sessions hmaps
    have huploads : s₁.uploadCompletions = s.uploadCompletions := congrArg UploadMaps.uploadCompletions hmaps
    refine .imported scope id key completion fresh session
      { session.commit object.objectId with operationId := a.operation.map Operation.id }
      (keyHash key) (reportUpload id object.objectId a) found uncommitted rfl rfl ?_ ?_ ?_
    · exact congrArg (AList.insert id _) hsessions
    · exact congrArg (AList.insert _ _) huploads
    · exact congrArg UploadMaps.attachmentCompletions hmaps
  | attachmentCompleted scope id key completion _ session _ object _ found _ uncommitted =>
    exact .attached scope id key completion session (session.commit object.objectId) (keyHash key)
      found uncommitted rfl rfl rfl rfl rfl
  | itemImported _ _ _ _ _ _ _ _ _ _ brought imported =>
    obtain ⟨hsessions, huploads, hattachments⟩ := brought.sessions
    have hmaps := imported.uploadMaps
    exact .same _ ((congrArg UploadMaps.sessions hmaps).trans hsessions)
      ((congrArg UploadMaps.uploadCompletions hmaps).trans huploads)
      ((congrArg UploadMaps.attachmentCompletions hmaps).trans hattachments)
  | revised _ _ _ _ _ _ _ _ _ _ _ _ _ _ _ _ _ _ stored =>
    refine .of_uploadMaps ?_
    rw [stored]
    rfl
  | finished _ _ _ _ _ _ _ _ _ _ _ _ _ _ _ _ _ _ _ _ _ _ _ stored =>
    refine .of_uploadMaps ?_
    rw [uploadMaps_storeEnded, uploadMaps_insertRelease, stored]
    rfl
  | finishedEmpty => exact .of_uploadMaps (uploadMaps_storeEnded ..)
  | failed => exact .of_uploadMaps (uploadMaps_storeEnded ..)
  | _ => exact .of_uploadMaps rfl

theorem KnowledgeEffect.objects (h : KnowledgeEffect s call r s') (hfresh : ∀ id ∈ call.newIds, s.Unused id) :
    AssocMap.Extends s.storedObjects s'.storedObjects ∧ AssocMap.Extends s.objectBytes s'.objectBytes := by
  have hsame {s' : MemoryState} (hmaps : uploadMaps s' = uploadMaps s) :
      AssocMap.Extends s.storedObjects s'.storedObjects ∧ AssocMap.Extends s.objectBytes s'.objectBytes := by
    have hobjects : s'.storedObjects = s.storedObjects := congrArg UploadMaps.storedObjects hmaps
    have hbytes : s'.objectBytes = s.objectBytes := congrArg UploadMaps.objectBytes hmaps
    rw [hobjects, hbytes]
    exact ⟨.refl _, .refl _⟩
  cases h with
  | sessionCreated => exact ⟨.refl _, .refl _⟩
  | contentPut => exact ⟨.refl _, .refl _⟩
  | sessionExpired => exact ⟨.refl _, .refl _⟩
  | contentRejected => exact ⟨.refl _, .refl _⟩
  | uploadCompleted _ _ _ completion _ _ _ content _ object s₁ _ _ _ _ _ _ _ made imported =>
    have hunused := unused_first hfresh
    have hobjects : s₁.storedObjects = s.storedObjects.insert object.objectId object :=
      congrArg UploadMaps.storedObjects imported.uploadMaps
    have hbytes : s₁.objectBytes = s.objectBytes := congrArg UploadMaps.objectBytes imported.uploadMaps
    constructor
    · show AssocMap.Extends s.storedObjects s₁.storedObjects
      rw [hobjects]
      exact .insert (.refl _) (made ▸ hunused.storedObjects) _
    · show AssocMap.Extends s.objectBytes (s₁.objectBytes.insert object.objectId content)
      rw [hbytes]
      exact .insert (.refl _) (made ▸ hunused.objectBytes) _
  | attachmentCompleted _ _ _ completion _ _ _ _ _ _ _ _ _ _ made =>
    have hunused := unused_first hfresh
    exact ⟨.insert (.refl _) (made ▸ hunused.storedObjects) _, .insert (.refl _) (made ▸ hunused.objectBytes) _⟩
  | itemImported _ _ _ objectId _ _ s₀ s₁ _ _ brought imported =>
    have hunused := unused_first hfresh
    have hobjects : s₁.storedObjects = s₀.storedObjects := congrArg UploadMaps.storedObjects imported.uploadMaps
    have hbytes : s₁.objectBytes = s₀.objectBytes := congrArg UploadMaps.objectBytes imported.uploadMaps
    show AssocMap.Extends s.storedObjects s₁.storedObjects ∧ AssocMap.Extends s.objectBytes s₁.objectBytes
    rw [hobjects, hbytes]
    cases brought with
    | nothing => exact ⟨.refl _, .refl _⟩
    | page _ _ id =>
      exact ⟨.insert (.refl _) (id ▸ hunused.storedObjects) _, .insert (.refl _) (id ▸ hunused.objectBytes) _⟩
    | stored object found => exact ⟨.again (.refl _) found, .refl _⟩
  | revised _ _ _ _ _ _ _ _ _ _ _ _ _ _ _ _ _ _ stored =>
    refine hsame ?_
    rw [stored]
    rfl
  | finished _ _ _ _ _ _ _ _ _ _ _ _ _ _ _ _ _ _ _ _ _ _ _ stored =>
    refine hsame ?_
    rw [uploadMaps_storeEnded, uploadMaps_insertRelease, stored]
    rfl
  | finishedEmpty => exact hsame (uploadMaps_storeEnded ..)
  | failed => exact hsame (uploadMaps_storeEnded ..)
  | _ => exact hsame rfl

end

/-! ### What stays -/

/-- Committed sessions are as they were, with their receipts, and so are all objects. -/
structure CommittedKept (s s' : MemoryState) : Prop where
  sessions : ∀ id session, s.uploadSessions.lookup id = some session → session.state = .committed →
    s'.uploadSessions.lookup id = some session
  uploads : ∀ id session hash, s.uploadSessions.lookup id = some session → session.state = .committed →
    s'.uploadCompletions.lookup (id, hash) = s.uploadCompletions.lookup (id, hash)
  attachments : ∀ id session, s.uploadSessions.lookup id = some session → session.state = .committed →
    s'.attachmentCompletions.lookup id = s.attachmentCompletions.lookup id
  objects : AssocMap.Extends s.storedObjects s'.storedObjects
  bytes : AssocMap.Extends s.objectBytes s'.objectBytes

theorem CommittedKept.refl (s : MemoryState) : CommittedKept s s where
  sessions _ _ h _ := h
  uploads _ _ _ _ _ := rfl
  attachments _ _ _ _ := rfl
  objects := .refl _
  bytes := .refl _

theorem CommittedKept.trans {s'' : MemoryState} (h : CommittedKept s s') (h' : CommittedKept s' s'') :
    CommittedKept s s'' where
  sessions id session hsession hcommitted :=
    h'.sessions id session (h.sessions id session hsession hcommitted) hcommitted
  uploads id session hash hsession hcommitted :=
    (h'.uploads id session hash (h.sessions id session hsession hcommitted) hcommitted).trans
      (h.uploads id session hash hsession hcommitted)
  attachments id session hsession hcommitted :=
    (h'.attachments id session (h.sessions id session hsession hcommitted) hcommitted).trans
      (h.attachments id session hsession hcommitted)
  objects := h.objects.trans h'.objects
  bytes := h.bytes.trans h'.bytes

variable {id : Uuid} {session : UploadSession}

/-- A committed session is none that is under a key with an uncommitted one. -/
theorem committed_ne {id' : Uuid} {session' : UploadSession} (hfound : s.uploadSessions.lookup id = some session)
    (huncommitted : session.state ≠ .committed) (hfound' : s.uploadSessions.lookup id' = some session')
    (hcommitted : session'.state = .committed) : id' ≠ id := by
  rintro rfl
  rw [hfound] at hfound'
  exact huncommitted (Option.some.inj hfound' ▸ hcommitted)

theorem SessionChange.kept (h : SessionChange s s' call) (hobjects : AssocMap.Extends s.storedObjects s'.storedObjects)
    (hbytes : AssocMap.Extends s.objectBytes s'.objectBytes) : CommittedKept s s' := by
  cases h with
  | same _ sessions uploads attachments =>
    exact
      { sessions := fun id session hfound _ => by rw [sessions, hfound]
        uploads := fun id session hash _ _ => by rw [uploads]
        attachments := fun id session _ _ => by rw [attachments]
        objects := hobjects
        bytes := hbytes }
  | created _ id session unused _ _ sessions uploads attachments =>
    have hne {id' : Uuid} {session' : UploadSession}
        (hfound : s.uploadSessions.lookup id' = some session') : id' ≠ id := by
      rintro rfl
      rw [unused] at hfound
      simp at hfound
    exact
      { sessions := fun id' session' hfound _ => by
          rw [sessions, AList.lookup_insert_ne (hne hfound), hfound]
        uploads := fun id session hash _ _ => by rw [uploads]
        attachments := fun id session _ _ => by rw [attachments]
        objects := hobjects
        bytes := hbytes }
  | moved _ id session _ found before _ _ sessions uploads attachments =>
    exact
      { sessions := fun id' session' hfound hcommitted => by
          rw [sessions, AList.lookup_insert_ne (committed_ne found before hfound hcommitted), hfound]
        uploads := fun id session hash _ _ => by rw [uploads]
        attachments := fun id session _ _ => by rw [attachments]
        objects := hobjects
        bytes := hbytes }
  | imported _ _ _ _ _ _ _ _ _ found before _ _ sessions uploads attachments =>
    constructor
    case sessions =>
      intro id' session' hfound hcommitted
      rw [sessions, AList.lookup_insert_ne (committed_ne found before hfound hcommitted), hfound]
    case uploads =>
      intro id' session' hash' hfound hcommitted
      have hne := committed_ne found before hfound hcommitted
      rw [uploads, AList.lookup_insert_ne fun h => hne (Prod.mk.inj h).1]
    case attachments => intro id' session' _ _; rw [attachments]
    case objects => exact hobjects
    case bytes => exact hbytes
  | attached _ _ _ _ _ _ _ found before _ _ sessions uploads attachments =>
    constructor
    case sessions =>
      intro id' session' hfound hcommitted
      rw [sessions, AList.lookup_insert_ne (committed_ne found before hfound hcommitted), hfound]
    case uploads => intro id' session' hash' _ _; rw [uploads]
    case attachments =>
      intro id' session' hfound hcommitted
      rw [attachments, AList.lookup_insert_ne (committed_ne found before hfound hcommitted)]
    case objects => exact hobjects
    case bytes => exact hbytes

/-- Receipts belong to committed sessions, and what a session announced has a valid size. -/
structure UploadShape (s : MemoryState) : Prop where
  uploads : ∀ id hash a, s.uploadCompletions.lookup (id, hash) = some a →
    ∃ session, s.uploadSessions.lookup id = some session ∧ session.state = .committed
  attachments : ∀ id hash, s.attachmentCompletions.lookup id = some hash →
    ∃ session, s.uploadSessions.lookup id = some session ∧ session.state = .committed
  sizes : ∀ id session, s.uploadSessions.lookup id = some session →
    0 < session.expectedSize ∧ session.expectedSize ≤ maxUploadBytes

theorem SessionChange.shape (h : SessionChange s s' call) (hs : UploadShape s) (hkept : CommittedKept s s') :
    UploadShape s' := by
  have huploads {id : Uuid} {hash : String} {a : ImportAcceptance}
      (ha : s.uploadCompletions.lookup (id, hash) = some a) :
      ∃ session, s'.uploadSessions.lookup id = some session ∧ session.state = .committed := by
    obtain ⟨session, hfound, hcommitted⟩ := hs.uploads id hash a ha
    exact ⟨session, hkept.sessions id session hfound hcommitted, hcommitted⟩
  have hattachments {id : Uuid} {hash : String} (ha : s.attachmentCompletions.lookup id = some hash) :
      ∃ session, s'.uploadSessions.lookup id = some session ∧ session.state = .committed := by
    obtain ⟨session, hfound, hcommitted⟩ := hs.attachments id hash ha
    exact ⟨session, hkept.sessions id session hfound hcommitted, hcommitted⟩
  have hsizes {id : Uuid} {next : UploadSession} (hnext : 0 < next.expectedSize ∧ next.expectedSize ≤ maxUploadBytes)
      (hsessions : s'.uploadSessions = s.uploadSessions.insert id next) (id' : Uuid) (session : UploadSession)
      (hfound : s'.uploadSessions.lookup id' = some session) :
      0 < session.expectedSize ∧ session.expectedSize ≤ maxUploadBytes := by
    rw [hsessions, lookup_insert] at hfound
    split at hfound
    · exact Option.some.inj hfound ▸ hnext
    · exact hs.sizes id' session hfound
  cases h with
  | same _ sessions uploads attachments =>
    exact
      { uploads := fun id hash a ha => huploads (uploads ▸ ha)
        attachments := fun id hash ha => hattachments (attachments ▸ ha)
        sizes := fun id session hfound => hs.sizes id session (sessions ▸ hfound) }
  | created _ id _ _ _ announced sessions uploads attachments =>
    exact
      { uploads := fun id hash a ha => huploads (uploads ▸ ha)
        attachments := fun id hash ha => hattachments (attachments ▸ ha)
        sizes := hsizes announced sessions }
  | moved _ id session _ found _ _ size sessions uploads attachments =>
    exact
      { uploads := fun id hash a ha => huploads (uploads ▸ ha)
        attachments := fun id hash ha => hattachments (attachments ▸ ha)
        sizes := hsizes (size ▸ hs.sizes id session found) sessions }
  | imported _ id _ _ _ session next hash _ found _ after size sessions uploads attachments =>
    refine ⟨fun id' hash' a' ha => ?_, fun id hash ha => hattachments (attachments ▸ ha),
      hsizes (size ▸ hs.sizes id session found) sessions⟩
    by_cases hid : id' = id
    · subst hid
      exact ⟨next, by rw [sessions, AList.lookup_insert], after⟩
    · rw [uploads, AList.lookup_insert_ne fun h => hid (Prod.mk.inj h).1] at ha
      exact huploads ha
  | attached _ id _ _ session next hash found _ after size sessions uploads attachments =>
    refine ⟨fun id hash a ha => huploads (uploads ▸ ha), fun id' hash' ha => ?_,
      hsizes (size ▸ hs.sizes id session found) sessions⟩
    by_cases hid : id' = id
    · subst hid
      exact ⟨next, by rw [sessions, AList.lookup_insert], after⟩
    · rw [attachments, AList.lookup_insert_ne hid] at ha
      exact hattachments ha

/-! ### Commitments -/

/-- A step that commits a session. -/
def Commits (id : Uuid) (s s' : MemoryState) : Prop :=
  (∀ session, s.uploadSessions.lookup id = some session → session.state ≠ .committed)
    ∧ ∃ session, s'.uploadSessions.lookup id = some session ∧ session.state = .committed

/-- A session has the receipt of one way to commit it. -/
def CommittedBy (s : MemoryState) (id : Uuid) : CompletionMode → Prop
  | .imported => ∃ hash a, s.uploadCompletions.lookup (id, hash) = some a
  | .attachment => ∃ hash, s.attachmentCompletions.lookup id = some hash

/-- A session has the receipt of one way to commit it and of no other. -/
def CommittedOnlyBy (s : MemoryState) (id : Uuid) (mode : CompletionMode) : Prop :=
  ∀ mode', CommittedBy s id mode' ↔ mode' = mode

theorem CommittedKept.onlyBy (h : CommittedKept s s') {mode : CompletionMode}
    (hfound : s.uploadSessions.lookup id = some session) (hcommitted : session.state = .committed)
    (hmode : CommittedOnlyBy s id mode) : CommittedOnlyBy s' id mode := by
  intro mode'
  rw [← hmode mode']
  cases mode' with
  | imported =>
    simp only [CommittedBy, fun hash => h.uploads id session hash hfound hcommitted]
  | attachment => simp only [CommittedBy, h.attachments id session hfound hcommitted]

/-- A session without a receipt is committed by the call that completes it, in one way. -/
theorem SessionChange.commits (h : SessionChange s s' call) (hs : UploadShape s) (hid : Commits id s s') :
    ∃ mode, completes call = some (id, mode) ∧ CommittedOnlyBy s' id mode := by
  obtain ⟨hbefore, committed, hcommitted, hstate⟩ := hid
  have huploads {hash : String} {a : ImportAcceptance} : s.uploadCompletions.lookup (id, hash) ≠ some a := by
    intro ha
    obtain ⟨session, hfound, hsession⟩ := hs.uploads id hash a ha
    exact hbefore session hfound hsession
  have hattachments {hash : String} : s.attachmentCompletions.lookup id ≠ some hash := by
    intro ha
    obtain ⟨session, hfound, hsession⟩ := hs.attachments id hash ha
    exact hbefore session hfound hsession
  -- The session that was written is the one that is committed now, for no other has changed.
  have hkey {id' : Uuid} {next : UploadSession}
      (hsessions : s'.uploadSessions = s.uploadSessions.insert id' next) : id = id' := by
    by_contra hne
    rw [hsessions, AList.lookup_insert_ne hne] at hcommitted
    exact hbefore committed hcommitted hstate
  have hnext {id' : Uuid} {next : UploadSession} (hnot : next.state ≠ .committed)
      (hsessions : s'.uploadSessions = s.uploadSessions.insert id' next) : False := by
    obtain rfl := hkey hsessions
    rw [hsessions, AList.lookup_insert] at hcommitted
    exact hnot (Option.some.inj hcommitted ▸ hstate)
  cases h with
  | same call sessions =>
    rw [sessions] at hcommitted
    exact absurd hstate (hbefore committed hcommitted)
  | created _ _ _ _ uncommitted _ sessions => exact (hnext uncommitted sessions).elim
  | moved _ _ _ _ _ _ after _ sessions => exact (hnext after sessions).elim
  | imported _ _ _ _ _ _ _ hash a _ _ _ _ sessions uploads attachments =>
    obtain rfl := hkey sessions
    refine ⟨.imported, rfl, fun mode' => ?_⟩
    cases mode' with
    | imported => exact ⟨fun _ => rfl, fun _ => ⟨hash, a, by rw [uploads, AList.lookup_insert]⟩⟩
    | attachment =>
      refine ⟨?_, fun h => by simp at h⟩
      rintro ⟨_, hhash⟩
      exact absurd (attachments ▸ hhash) hattachments
  | attached _ _ _ _ _ _ hash _ _ _ _ sessions uploads attachments =>
    obtain rfl := hkey sessions
    refine ⟨.attachment, rfl, fun mode' => ?_⟩
    cases mode' with
    | imported =>
      refine ⟨?_, fun h => by simp at h⟩
      rintro ⟨_, _, ha⟩
      exact absurd (uploads ▸ ha) huploads
    | attachment => exact ⟨fun _ => rfl, fun _ => ⟨hash, by rw [attachments, AList.lookup_insert]⟩⟩

section

variable [Sha256]

variable {scope : TenantScope} {object : StoredObject}

theorem getAttachmentObjectBytes_committed {id : Uuid} {session : UploadSession} {content : List UInt8}
    (hshape : StoreShape s) (hobject : s.storedObjects.lookup object.objectId = some object)
    (hbytes : s.objectBytes.lookup object.objectId = some content)
    (hsession : s.uploadSessions.lookup id = some session) (hstate : session.state = .committed)
    (hcommitted : session.committedObjectId = some object.objectId)
    (hreceipt : (s.attachmentCompletions.lookup id).isSome)
    (hvisible : inScope scope session = true) (hscope : inScope scope object = true)
    (hverified : AttachmentObjectBytes.verified object content = .ok ⟨object, content⟩)
    (hobjectState : object.state = .committed) :
    (getAttachmentObjectBytes scope object.objectId object.objectVersion object.sha256).run s
      = (.ok (some ⟨object, content⟩), s) := by
  have hkey : session.uploadSessionId = id := hshape.sessions id session hsession
  have hattached : isCommittedAttachment scope object.objectId s = true := by
    have hstored : (s.attachmentCompletions.lookup session.uploadSessionId).isSome := by
      rw [hkey, hreceipt]
    refine List.any_eq_true.mpr ⟨session, mem_values.mpr ⟨id, hsession⟩, ?_⟩
    simp [hstate, hcommitted, hstored, hvisible]
  obtain ⟨_, hproject⟩ := inScope_project hvisible
  have hreturns : Op.Returns
      (getAttachmentObjectBytes scope object.objectId object.objectVersion object.sha256) s
        (some ⟨object, content⟩) s := by
    simp [getAttachmentObjectBytes, requireProject, hproject, hobject, hscope, hobjectState,
      hattached, hbytes, hverified, Option.filter]
  exact hreturns

/-- The attachment a call commits, with its bytes and its session. -/
structure AttachmentStored (s s' : MemoryState) (scope : TenantScope) (id : Uuid)
    (object : StoredObject) (content : List UInt8) (session : UploadSession) : Prop where
  received : s.uploadBytes.lookup id = some content
  objectStored : s'.storedObjects.lookup object.objectId = some object
  bytesStored : s'.objectBytes.lookup object.objectId = some content
  sessionStored : s'.uploadSessions.lookup id = some session
  committed : session.state = .committed
  named : session.committedObjectId = some object.objectId
  receipt : (s'.attachmentCompletions.lookup id).isSome
  sessionScope : inScope scope session = true
  objectScope : inScope scope object = true
  objectState : object.state = .committed
  verified : AttachmentObjectBytes.verified object content = .ok ⟨object, content⟩

theorem attachment_stored {id : Uuid} {key : String}
    {completion : CompletionInputs} {filename : String} (hs : UploadShape s)
    (heffect : KnowledgeEffect s (.completeAttachmentUpload scope id key completion)
      (.ok (.attachment object filename)) s') (hid : Commits id s s') :
    ∃ content session, AttachmentStored s s' scope id object content session := by
  generalize hcall : KnowledgeCall.completeAttachmentUpload scope id key completion = call at heffect
  generalize hreply : (ok (.attachment object filename) : Except AppError KnowledgeReply) = r at heffect
  cases heffect with
  | same =>
    obtain ⟨hbefore, session, hsession, hcommitted⟩ := hid
    exact absurd hcommitted (hbefore session hsession)
  | attachmentCompleted _ _ _ _ _ session content _ project found visible _ received announced made =>
    obtain ⟨rfl, rfl, rfl, rfl⟩ := KnowledgeCall.completeAttachmentUpload.inj hcall
    obtain ⟨rfl, rfl⟩ := KnowledgeReply.attachment.inj (ok.inj hreply)
    obtain ⟨_, _⟩ := hs.sizes id session found
    refine ⟨content, session.commit object.objectId, ?_⟩
    constructor
    case received => exact received
    case objectStored => exact AList.lookup_insert _
    case bytesStored => exact AList.lookup_insert _
    case sessionStored => exact AList.lookup_insert _
    case committed => rfl
    case named => rfl
    case receipt => exact Option.isSome_iff_exists.mpr ⟨_, AList.lookup_insert _⟩
    case sessionScope => exact visible
    case objectScope => rw [made]; exact inScope_iff.mpr (scope_eq project)
    case objectState => rw [made]; rfl
    case verified =>
      have hsize : object.actualSize = session.expectedSize := by rw [made]; rfl
      have hdigest : object.sha256 = sha256Hex content := by rw [made]; rfl
      have hstate : object.state = .committed := by rw [made]; rfl
      have hlength := announced.1
      refine if_neg ?_
      rw [hsize, hdigest, hstate]
      rintro (h | h | h | h | h)
      · exact h rfl
      · omega
      · omega
      · exact h hlength
      · exact h rfl
  | _ => simp at hcall hreply

end

/-! ### Runs -/

theorem uploadShape_default : UploadShape MemoryState.default where
  uploads id hash a ha := by simp [MemoryState.default] at ha
  attachments id hash ha := by simp [MemoryState.default] at ha
  sizes id session hsession := by simp [MemoryState.default] at hsession

theorem committedKept_reordered (h : s.Reordered s') : CommittedKept s s' := by
  have hrest := h.rest
  have huploads : s'.uploadCompletions = s.uploadCompletions := by rw [hrest]
  have hattachments : s'.attachmentCompletions = s.attachmentCompletions := by rw [hrest]
  have hobjects : s'.storedObjects = s.storedObjects := by rw [hrest]
  have hbytes : s'.objectBytes = s.objectBytes := by rw [hrest]
  exact
    { sessions := fun id session hfound _ => by rw [← h.uploadSessions.lookup_eq, hfound]
      uploads := fun id session hash _ _ => by rw [huploads]
      attachments := fun id session _ _ => by rw [hattachments]
      objects := hobjects ▸ .refl _
      bytes := hbytes ▸ .refl _ }

theorem UploadShape.reordered (hs : UploadShape s) (h : s.Reordered s') : UploadShape s' := by
  have hsessions := h.uploadSessions.lookup_eq
  have hrest := h.rest
  have huploads : s'.uploadCompletions = s.uploadCompletions := by rw [hrest]
  have hattachments : s'.attachmentCompletions = s.attachmentCompletions := by rw [hrest]
  constructor
  case uploads =>
    intro id hash a ha
    rw [huploads] at ha
    rw [← hsessions]
    exact hs.uploads id hash a ha
  case attachments =>
    intro id hash ha
    rw [hattachments] at ha
    rw [← hsessions]
    exact hs.attachments id hash ha
  case sizes =>
    intro id session hsession
    rw [← hsessions] at hsession
    exact hs.sizes id session hsession

section

variable [Sha256] [CsvChunks]

/-- The call of a step finds no committed session past its time before it asks for the state. -/
def Timely (s : MemoryState) : KnowledgeEvent → Prop
  | .call call _ => ¬ Reopens s call
  | .reorder => True

/-- The repository with calls of that kind only. -/
abbrev timelyMachine (profiles : ParserProfiles) : Machine MemoryState KnowledgeEvent :=
  (knowledgeMachine profiles).restrict fun s e => FreshKnowledgeIds s e ∧ Timely s e

variable {profiles : ParserProfiles} {s s' : MemoryState} {e : KnowledgeEvent}

/-- The shapes of the store and of its uploads. -/
def UploadsShaped (s : MemoryState) : Prop :=
  StoreShape s ∧ UploadShape s

theorem uploads_step (hs : UploadsShaped s) (h : (timelyMachine profiles).step s e s') :
    CommittedKept s s' ∧ UploadsShaped s' ∧ ∀ id, Commits id s s' → ∃ call r mode,
      e = .call call r ∧ completes call = some (id, mode) ∧ CommittedOnlyBy s' id mode := by
  obtain ⟨⟨hnew, htimely⟩, hrun⟩ := h
  have hstep : (freshMachine profiles).step s e s' := ⟨hnew, hrun⟩
  have hshape := storeShape_step hs.1 hstep
  rcases step_effect hs.1 hstep with ⟨rfl, hreordered⟩ | ⟨call, r, rfl, hfresh, heffect⟩
  · refine ⟨committedKept_reordered hreordered, ⟨hshape, hs.2.reordered hreordered⟩, ?_⟩
    rintro id ⟨hbefore, session, hsession, hcommitted⟩
    rw [← hreordered.uploadSessions.lookup_eq] at hsession
    exact absurd hcommitted (hbefore session hsession)
  · have hchange := heffect.sessions hfresh htimely
    obtain ⟨hobjects, hbytes⟩ := heffect.objects hfresh
    have hkept := hchange.kept hobjects hbytes
    refine ⟨hkept, ⟨hshape, hchange.shape hs.2 hkept⟩, fun id hid => ?_⟩
    obtain ⟨mode, hcompletes, honly⟩ := hchange.commits hs.2 hid
    exact ⟨call, r, mode, rfl, hcompletes, honly⟩

variable {h : List KnowledgeEvent}

theorem uploads_run (hrun : (timelyMachine profiles).Run MemoryState.default h s) : UploadsShaped s :=
  Machine.Run.invariant (fun _ _ _ hs hstep => (uploads_step hs hstep).2.1) hrun
    ⟨storeShape_default, uploadShape_default⟩

theorem committedKept_run (hs : UploadsShaped s) (hrun : (timelyMachine profiles).Run s h s') : CommittedKept s s' :=
  Machine.Run.relates (fun _ _ _ hs hstep => (uploads_step hs hstep).2.1) CommittedKept.refl
    (fun _ _ _ => CommittedKept.trans) (fun _ _ _ hs hstep => (uploads_step hs hstep).1) hrun hs

end

end MemoryKnowledgeRepository

open MemoryKnowledgeRepository

/-- Commitments of upload sessions are final in all runs of a machine. -/
structure CommitmentsFinal [Sha256] (M : Machine MemoryState KnowledgeEvent) : Prop where
  /-- A committed session stays committed, with the same object. -/
  stays : ∀ h s h' s' id session, M.Run MemoryState.default h s → M.Run s h' s' →
    s.uploadSessions.lookup id = some session → session.state = .committed →
    ∃ session', s'.uploadSessions.lookup id = some session' ∧ session'.state = .committed
      ∧ session'.committedObjectId = session.committedObjectId
  /-- What commits a session is a completion of it, and from then on it has the receipt of this way to
  complete it and of no other, and is not committed again. -/
  once : ∀ h s e s' h' s'' id, M.Run MemoryState.default h s → M.step s e s' → M.Run s' h' s'' → Commits id s s' →
    (∃ call r mode, e = .call call r ∧ completes call = some (id, mode) ∧ CommittedOnlyBy s'' id mode)
    ∧ ∀ e' s''', M.step s'' e' s''' → ¬ Commits id s'' s'''
  /-- The bytes of a committed attachment can be read from then on. -/
  bytes : ∀ h s scope id key completion object filename s' h' s'', M.Run MemoryState.default h s →
    M.step s (.call (.completeAttachmentUpload scope id key completion) (.ok (.attachment object filename))) s' →
    M.Run s' h' s'' → Commits id s s' →
    ∃ content, s.uploadBytes.lookup id = some content
      ∧ (getAttachmentObjectBytes scope object.objectId object.objectVersion object.sha256).run s''
        = (.ok (some ⟨object, content⟩), s'')

/-- Commitments are final in every run in which no call finds a committed session past its time before it
asks for the state of the session. -/
theorem uploadCommitments_final [Sha256] [CsvChunks] (profiles : ParserProfiles) :
    CommitmentsFinal (timelyMachine profiles) where
  stays h s h' s' id session hrun hrun' hfound hcommitted := by
    have hkept := committedKept_run (uploads_run hrun) hrun'
    exact ⟨session, hkept.sessions id session hfound hcommitted, hcommitted, rfl⟩
  once h s e s' h' s'' id hrun hstep hrun' hid := by
    obtain ⟨-, hs', hcommits⟩ := uploads_step (uploads_run hrun) hstep
    obtain ⟨call, r, mode, rfl, hcompletes, honly⟩ := hcommits id hid
    obtain ⟨-, session, hfound, hcommitted⟩ := hid
    have hkept := committedKept_run hs' hrun'
    refine ⟨⟨call, r, mode, rfl, hcompletes, hkept.onlyBy hfound hcommitted honly⟩, ?_⟩
    rintro e' s''' - ⟨hbefore, -⟩
    exact hbefore session (hkept.sessions id session hfound hcommitted) hcommitted
  bytes h s scope id key completion object filename s' h' s'' hrun hstep hrun' hid := by
    have hs := uploads_run hrun
    have hs' := (uploads_step hs hstep).2.1
    have heffect := run_effect hs.1 hstep.2
    obtain ⟨content, session, hstored⟩ := attachment_stored hs.2 heffect hid
    have hkept := committedKept_run hs' hrun'
    have hshape := (Machine.Run.invariant (fun _ _ _ hs hstep => (uploads_step hs hstep).2.1) hrun' hs').1
    refine ⟨content, hstored.received, ?_⟩
    refine getAttachmentObjectBytes_committed hshape (hkept.objects _ _ hstored.objectStored)
      (hkept.bytes _ _ hstored.bytesStored) (hkept.sessions id session hstored.sessionStored hstored.committed)
      hstored.committed hstored.named ?_ hstored.sessionScope hstored.objectScope hstored.verified hstored.objectState
    rw [hkept.attachments id session hstored.sessionStored hstored.committed]
    exact hstored.receipt

namespace Sample

/-- The image is completed as an attachment. -/
def completedAttachment : KnowledgeCall :=
  .completeAttachmentUpload scope (uuid 10) "complete-1" (completionInputs 20 0)

/-- The events up to the completion. -/
def receivedTrace : List KnowledgeEvent :=
  trace (@run uploadSha256 noTables noParsers) MemoryState.default imageReceived

/-- The state the completion finds. -/
def received : MemoryState :=
  Calls.after (@run uploadSha256 noTables noParsers) MemoryState.default imageReceived

/-- The object the completion makes. -/
def imageObject : StoredObject :=
  { objectId := uuid 20, operatorId := scope.operatorId, tenantId := scope.tenantId
    projectId := ⟨uuid 3⟩, objectVersion := 1, backend := "memory"
    opaqueKey := "memory-object/" ++ (uuid 21).toString, actualSize := 3
    detectedMediaType := "image/png", sha256 := imageDigest, state := .committed, createdAt := 0 }

/-- The state the completion leaves. -/
def attached : MemoryState :=
  ((@run uploadSha256 noTables noParsers completedAttachment).run received).2

/-- Content for the same session, when its time is over. -/
def latePut : KnowledgeCall :=
  .putUploadContent scope (uuid 10) image (DateTime.seconds uploadSessionTtlSeconds)

/-- The attachment a reply contains. -/
def attachmentOf (r : Except AppError KnowledgeReply) : Option (StoredObject × String) :=
  match r with
  | .ok (.attachment object filename) => some (object, filename)
  | _ => none

theorem eq_of_attachmentOf {r : Except AppError KnowledgeReply} {object : StoredObject}
    {filename : String} (h : attachmentOf r = some (object, filename)) :
    r = .ok (.attachment object filename) := by
  unfold attachmentOf at h
  split at h
  · obtain ⟨rfl, rfl⟩ := Prod.mk.inj (Option.some.inj h)
    rfl
  · simp at h

variable {s : MemoryState}

theorem not_reopens {call : KnowledgeCall}
    (h : (values s.uploadSessions).all (fun session => session.state ≠ .committed) = true) :
    ¬ @Reopens uploadSha256 s call := by
  rintro ⟨id, session, _, hfound, hcommitted, -⟩
  have hstate := List.all_eq_true.mp h session (mem_values.mpr ⟨id, hfound⟩)
  simp [hcommitted] at hstate

theorem receivedTrace_run : (@timelyMachine uploadSha256 noTables noParsers).Run
    MemoryState.default receivedTrace received := by
  refine run_trace _ _ ⟨⟨?_, not_reopens ?_⟩, ⟨?_, not_reopens ?_⟩, trivial⟩
  all_goals decide +kernel

theorem completedAttachment_step : (@timelyMachine uploadSha256 noTables noParsers).step received
    (.call completedAttachment (.ok (.attachment imageObject "photo.png"))) attached := by
  refine ⟨⟨by decide +kernel, not_reopens (by decide +kernel)⟩, Prod.ext ?_ rfl⟩
  exact eq_of_attachmentOf (by decide +kernel)

/-- The state of the session, if it is there. -/
def sessionState (s : MemoryState) : Option UploadSessionState :=
  (s.uploadSessions.lookup (uuid 10)).map UploadSession.state

theorem exists_of_sessionState {state : UploadSessionState} (h : sessionState s = some state) :
    ∃ session, s.uploadSessions.lookup (uuid 10) = some session ∧ session.state = state :=
  Option.map_eq_some_iff.mp h

/-- The session after the late content. -/
def reopened : MemoryState :=
  ((@run uploadSha256 noTables noParsers latePut).run attached).2

/-- The session before its completion, after it, and after the late content. -/
theorem session_states :
    (sessionState received = some .uploaded ∧ received.uploadBytes.lookup (uuid 10) = some image)
      ∧ sessionState attached = some .committed ∧ sessionState reopened = some .expired := by
  decide +kernel

theorem completedAttachment_commits : Commits (uuid 10) received attached := by
  obtain ⟨⟨hbefore, -⟩, hafter, -⟩ := session_states
  refine ⟨fun session hsession hcommitted => ?_, exists_of_sessionState hafter⟩
  simp [sessionState, hsession, hcommitted] at hbefore

end Sample

open Sample

/-- The image that was completed as an attachment can be read. -/
theorem uploadCommitments_final_image :
    (@getAttachmentObjectBytes uploadSha256 scope imageObject.objectId
        imageObject.objectVersion imageObject.sha256).run attached
      = (.ok (some ⟨imageObject, image⟩), attached) := by
  have hfinal := @uploadCommitments_final uploadSha256 noTables noParsers
  obtain ⟨_, hcontent, hread⟩ := @CommitmentsFinal.bytes uploadSha256 _ hfinal _ _ _ _ _
    _ _ _ _ _ _ receivedTrace_run completedAttachment_step .refl completedAttachment_commits
  rw [session_states.1.2] at hcontent
  obtain rfl := Option.some.inj hcontent
  exact hread

/-- Content that comes for a committed session when its time is over takes the commitment back. -/
theorem committed_session_expires :
    (@freshMachine uploadSha256 noTables noParsers).Run MemoryState.default
      (receivedTrace ++ [.call completedAttachment (.ok (.attachment imageObject "photo.png"))])
      attached
    ∧ (@freshMachine uploadSha256 noTables noParsers).Run attached
      (Calls.trace (@run uploadSha256 noTables noParsers) attached
        [latePut]) reopened
    ∧ sessionState attached = some .committed
    ∧ sessionState reopened = some .expired
    ∧ ¬ @CommitmentsFinal uploadSha256 (@freshMachine uploadSha256 noTables noParsers) := by
  have hreceived : (@freshMachine uploadSha256 noTables noParsers).Run
      MemoryState.default receivedTrace received :=
    run_trace _ _ (by decide +kernel)
  have hattached := hreceived.tail ⟨completedAttachment_step.1.1, completedAttachment_step.2⟩
  have hreopened : (@freshMachine uploadSha256 noTables noParsers).Run
      attached (trace (@run uploadSha256 noTables noParsers)
        attached [latePut]) reopened :=
    run_trace [latePut] _ (by decide +kernel)
  obtain ⟨-, hbefore, hafter⟩ := session_states
  refine ⟨hattached, hreopened, hbefore, hafter, fun hfinal => ?_⟩
  obtain ⟨_, hsession, hcommitted⟩ := exists_of_sessionState hbefore
  obtain ⟨_, hsession', hcommitted', -⟩ := @CommitmentsFinal.stays uploadSha256 _ hfinal
    _ _ _ _ _ _ hattached hreopened hsession hcommitted
  simp [sessionState, hsession', hcommitted'] at hafter

end GeoMaster
