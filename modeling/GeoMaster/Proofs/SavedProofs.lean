import GeoMaster.Domain.SavedPublications
import GeoMaster.Proofs.ConnectorGate

/-!
# Proofs of saved publications

What is read off a saved attempt meets every condition of a proof but one: the version may be one that is not trusted by
its name. `attemptVerification_saved` checks the conditions of a saved proof, and `validate_iff_trusted` says which saved
proofs the repository takes. From a proof that is taken the connector can be enabled (`configure_of_proof`).
-/

namespace GeoMaster

open Op Except List String ConnectorVerification Text

/-- Digests are hexadecimal, of 64 digits. -/
def HexDigests [Sha256] : Prop :=
  ∀ bytes, len (sha256Hex bytes) = 64 ∧ (sha256Hex bytes).toList.all isAsciiHexdigit = true

theorem stableUuid_isNil [Sha256] (value : String) : (stableUuid value).isNil = false := by
  have hbit : (stableUuid value).bits.getLsbD 63 = true := by
    unfold stableUuid
    simp
  have hne : stableUuid value ≠ Uuid.nil := by
    intro h
    rw [h] at hbit
    simp [Uuid.nil] at hbit
  simpa [Uuid.isNil] using hne

namespace SavedProofs

theorem validLabel_plainText : validLabel plainTextArticleFormat = true := by
  decide +kernel

theorem plainText_ne_rich : plainTextArticleFormat ≠ richMarkdownFormat := by
  decide

theorem isPublicUrl_of_article [UrlParser] [UrlFragments] [UrlQueries] {article : FrozenArticle} {raw : String}
    (h : isArticleUrl article raw = true) : isPublicUrl raw = true := by
  unfold isArticleUrl at h
  unfold isPublicUrl
  cases hparse : UrlParser.parse raw with
  | none =>
    rw [hparse] at h
    cases h
  | some url =>
    rw [hparse] at h
    simp only [Bool.and_eq_true] at h ⊢
    exact h.1

/-! ### The repository -/

section Repository

variable [UrlParser] [UrlFragments]

variable {operator : OperatorId} {proof : ConnectorVerification} {s : MemoryConnectorState}

open MemoryConnectorState in
/-- A proof that the repository takes is stored for its connector. -/
theorem insertVerification_of_valid (hvalid : proof.validate = .ok ()) (hnew : proof.verificationId ∉ s.ids) :
    (insertVerification operator proof).Returns s () (s.pushProof (operator, proof.key) proof) := by
  unfold insertVerification
  simp only [returns_iff]
  exact ⟨(), s, ⟨hvalid, rfl⟩, _, s, ⟨rfl, rfl⟩, (), s, ⟨by simpa using hnew, rfl⟩, rfl⟩

open MemoryConnectorState in
/-- A proof that does not pass its checks is refused, and nothing changes. -/
theorem insertVerification_of_invalid (hinvalid : proof.validate ≠ .ok ()) :
    ∃ e, (insertVerification operator proof).Fails s e s := by
  rcases returns_or_fails (insertVerification operator proof) s with ⟨_, s', hreturns⟩ | ⟨e, s', hfails⟩
  · exact absurd (insertVerification_returns hreturns).1 hinvalid
  · have hsame := (insertVerification_atomic operator proof).failed s e s' hfails
    exact ⟨e, hsame ▸ hfails⟩

open MemoryConnectorState in
/-- A connector that is proved for the deployed version can be enabled for the format of the proof. -/
theorem configure_of_proof (hstored : proof ∈ s.history (operator, proof.key)) (hvalid : proof.validate = .ok ())
    (hkey : proof.key.validate = .ok ()) (hformat : validLabel proof.contentType = true)
    (hplain : proof.contentType ≠ richMarkdownFormat) (hversion : validLabel proof.connectorVersion = true)
    (hlive : ¬ isFixtureVersion proof.connectorVersion = true) (hcounted : 0 ≤ s.revision (operator, proof.key))
    (hleft : s.revision (operator, proof.key) ≠ 2 ^ 31 - 1) :
    ∃ s', (configure operator proof.key (s.revision (operator, proof.key)) true [proof.contentType]
        proof.connectorVersion).Returns s
      ⟨proof.key, s.revision (operator, proof.key) + 1, true, [proof.contentType]⟩ s' := by
  have hsettings : validateConnectorSettings true [proof.contentType] (s.history (operator, proof.key))
      proof.connectorVersion = .ok () := by
    have hfound : ∃ v ∈ s.history (operator, proof.key), v.connectorVersion = proof.connectorVersion
        ∧ v.contentType = proof.contentType ∧ v.validate.isOk = true :=
      ⟨proof, hstored, rfl, rfl, by rw [hvalid]; rfl⟩
    unfold validateConnectorSettings
    rw [bind_eq_ok]
    refine ⟨(), failIf_eq_ok.mpr ?_, failIf_eq_ok.mpr ?_⟩
    · simp [hformat]
    · simpa [hplain.symm, hversion, hlive] using hfound
  unfold configure
  simp only [returns_iff]
  refine ⟨_, (), s, ⟨hkey, rfl⟩, _, s, ⟨rfl, rfl⟩, (), s, ⟨?_, rfl⟩, _, s, ⟨rfl, rfl⟩, (), s, ⟨hsettings, rfl⟩, (),
    _, rfl, rfl, rfl⟩
  rintro (hnegative | hfull | hstale)
  · exact absurd hcounted (not_le.mpr hnegative)
  · exact hleft hfull
  · exact hstale rfl

end Repository

/-! ### The checks of a proof -/

section Saved

variable [Sha256] {target : ChannelTarget} {attempt : ChannelAttempt} {article : FrozenArticle}
  {outcome : ChannelOutcome} {receivedAt : DateTime}

theorem isSavedPublication_iff :
    isSavedPublication target attempt article outcome receivedAt = true
      ↔ attempt.targetId = target.targetId ∧ outcome.fixture = false ∧ outcome.status = .verified
        ∧ attempt.claimedAt.timestampMicros ≤ outcome.occurredAt.timestampMicros ∧ outcome.occurredAt.timestampMicros
        ≤ receivedAt.timestampMicros ∧ validLabel article.platform = true ∧ validLabel article.placementSlot = true ∧ ¬
        isBlank article.title = true ∧ ¬ isBlank article.body = true ∧ sha256Hex (Text.bytes article.body)
        = article.bodySha256 := by
  rw [isSavedPublication, decide_eq_true_eq]

theorem provesReadback_of_owned (hdigests : HexDigests) {publicUrl : Option String} {proof : Json}
    {placementSlot title body : String}
    (h : isOwnedReadback publicUrl (plainTextPublicationReadbackHash placementSlot title body) proof = true) :
    provesReadback publicUrl proof = true := by
  rw [isOwnedReadback, decide_eq_true_eq] at h
  obtain ⟨hkind, hurl, hmatched, howned, hexpected, hread⟩ := h
  obtain ⟨hlength, hhex⟩ : len (plainTextPublicationReadbackHash placementSlot title body) = 64
      ∧ (plainTextPublicationReadbackHash placementSlot title body).toList.all isAsciiHexdigit = true :=
    hdigests _
  unfold provesReadback
  rw [hkind, hurl, hmatched, howned, hexpected, hread]
  simp only [Option.any_some, hlength, hhex, decide_true, Bool.and_self]

end Saved

variable [Sha256] [InstantText] [UrlParser] [UrlFragments] [UrlQueries] {target : ChannelTarget}
  {attempt : ChannelAttempt} {article : FrozenArticle} {outcome : ChannelOutcome} {version : String}
  {receivedAt : DateTime}

theorem isProved_iff :
    isProved attempt article outcome version = true
      ↔ validLabel version = true ∧ ¬ isFixtureVersion version = true
        ∧ (outcome.runnerEvidence.filter isRunnerReceipt).length = 1
        ∧ (outcome.runnerEvidence.filter isRunnerReceipt).any
          (isLiveReceipt attempt.attemptId version outcome.occurredAt) = true
        ∧ (outcome.runnerEvidence.filter (isOwnedReadback outcome.publicUrl
          (plainTextPublicationReadbackHash article.placementSlot article.title article.body))).length = 1
        ∧ outcome.publicUrl.any (isArticleUrl article) = true := by
  rw [isProved, decide_eq_true_eq]

/-- What an attempt that is proved gives passes all checks but the one of the version's name. -/
theorem attemptVerification_validateInner (hdigests : HexDigests)
    (hsaved : isSavedPublication target attempt article outcome receivedAt = true)
    (hversion : outcome.connectorVersion = some version)
    (hproved : isProved attempt article outcome version = true) (legacyVersionPolicy : Bool) :
    (attemptVerification attempt article outcome version).validateInner legacyVersionPolicy = .ok ()
      ↔ (legacyVersionPolicy = true → trustedVersion version = true) := by
  obtain ⟨-, hfixture, hstatus, -, -, hplatform, hslot, -⟩ := isSavedPublication_iff.mp hsaved
  obtain ⟨hlabel, hlive, -, -, hreadback, hurl⟩ := isProved_iff.mp hproved
  obtain ⟨_, hraw, harticle⟩ := (Option.any_eq_true _ _).mp hurl
  obtain ⟨readback, hreadback⟩ := List.length_eq_one_iff.mp hreadback
  have hmem := List.mem_filter.mp (hreadback ▸ List.mem_singleton.mpr rfl)
  have hkey : (attemptVerification attempt article outcome version).key.validate = .ok () := by
    unfold ConnectorKey.validate
    rw [failIf_eq_ok]
    simp [attemptVerification, hplatform, hslot]
  have hreceipt : outcome.publicUrl.filter (fun url => isPublicUrl url) = outcome.publicUrl := by
    rw [hraw, Option.filter_some, if_pos (isPublicUrl_of_article harticle)]
  have hfound : outcome.runnerEvidence.any (provesReadback outcome.publicUrl) = true :=
    List.any_eq_true.mpr ⟨readback, hmem.1, provesReadback_of_owned hdigests hmem.2⟩
  have hnil : (attemptVerification attempt article outcome version).verificationId.isNil = false := stableUuid_isNil _
  unfold validateInner
  rw [hkey]
  simp only [eq_ok_iff, not_or, not_and, not_not]
  constructor
  · rintro ⟨_, -, _, -, _, ⟨-, htrusted, -⟩, -⟩ hlegacy
    exact htrusted hlegacy
  · intro htrusted
    refine ⟨(), trivial, (), plainText_ne_rich, (), ⟨Bool.not_eq_true _ ▸ hnil, htrusted, fun _ => ⟨hlabel, hlive⟩,
      validLabel_plainText, ?_, ?_, fun _ => hstatus, hstatus, lt_irrefl _, lt_irrefl _, hversion, hversion⟩, ?_⟩
    · exact Bool.not_eq_true _ ▸ hfixture
    · exact Bool.not_eq_true _ ▸ hfixture
    · show ¬ (outcome.publicUrl.filter (fun url => isPublicUrl url)).isNone = true
        ∧ outcome.publicUrl.filter (fun url => isPublicUrl url) = outcome.publicUrl
        ∧ outcome.runnerEvidence.any (provesReadback outcome.publicUrl) = true
      rw [hreceipt]
      exact ⟨by simp [hraw], rfl, hfound⟩

/-- The proof of a saved attempt is taken exactly where its version is trusted by its name. -/
theorem validate_iff_trusted (hdigests : HexDigests)
    (hsaved : isSavedPublication target attempt article outcome receivedAt = true)
    (hversion : outcome.connectorVersion = some version) (hproved : isProved attempt article outcome version = true) :
    (attemptVerification attempt article outcome version).validate = .ok () ↔ trustedVersion version = true := by
  rw [validate, attemptVerification_validateInner hdigests hsaved hversion hproved true]
  exact ⟨fun h => h rfl, fun h _ => h⟩

theorem attemptVerification_saved (hdigests : HexDigests)
    (hsaved : isSavedPublication target attempt article outcome receivedAt = true)
    (hversion : outcome.connectorVersion = some version) (hproved : isProved attempt article outcome version = true) :
    (attemptVerification attempt article outcome version).validateSaved = .ok () := by
  rw [validateSaved, attemptVerification_validateInner hdigests hsaved hversion hproved false]
  exact fun h => absurd h Bool.false_ne_true

/-! ### What is read off an attempt -/

/-- An attempt that proves its connector: its frozen text, its outcome and its version. -/
structure Proves (target : ChannelTarget) (attempt : ChannelAttempt) (article : FrozenArticle)
    (outcome : ChannelOutcome) (receivedAt : DateTime) (version : String) : Prop where
  frozen : target.input.frozenArticle = some article
  finished : attempt.outcome = some outcome
  received : attempt.receivedAt = some receivedAt
  saved : isSavedPublication target attempt article outcome receivedAt = true
  versioned : outcome.connectorVersion = some version
  proved : isProved attempt article outcome version = true

theorem Proves.result (hdigests : HexDigests) (h : Proves target attempt article outcome receivedAt version) :
    savedPublicationVerification target attempt = .ok (some (attemptVerification attempt article outcome version)) := by
  have hsaved := attemptVerification_saved hdigests h.saved h.versioned h.proved
  unfold savedPublicationVerification
  simp only [h.frozen, h.finished, h.received, h.saved, h.versioned, h.proved, if_true, hsaved]
  rfl

/-- An attempt proves its connector, or nothing is read off it. -/
theorem savedPublicationVerification_cases (hdigests : HexDigests) (target : ChannelTarget) (attempt : ChannelAttempt) :
    savedPublicationVerification target attempt = .ok none
      ∨ ∃ article outcome receivedAt version, Proves target attempt article outcome receivedAt version
        ∧ savedPublicationVerification target attempt
          = .ok (some (attemptVerification attempt article outcome version)) := by
  by_cases hproves : ∃ article outcome receivedAt version, Proves target attempt article outcome receivedAt version
  · obtain ⟨article, outcome, receivedAt, version, h⟩ := hproves
    exact .inr ⟨article, outcome, receivedAt, version, h, h.result hdigests⟩
  · refine .inl ?_
    unfold savedPublicationVerification
    split
    · rename_i article outcome receivedAt harticle houtcome hreceived
      split
      · rename_i hsaved
        split
        · rename_i version hversion
          split
          · rename_i hproved
            exact absurd ⟨article, outcome, receivedAt, version, harticle, houtcome, hreceived, hsaved, hversion,
              hproved⟩ hproves
          · rfl
        · rfl
      · rfl
    · rfl

/-- What a proof that is read off an attempt rests on: one receipt, of this live execution, and one readback of the
frozen text under the public address. -/
structure ReadOff (target : ChannelTarget) (attempt : ChannelAttempt) (article : FrozenArticle)
    (outcome : ChannelOutcome) (proof : ConnectorVerification) : Prop where
  frozen : target.input.frozenArticle = some article
  body : sha256Hex (Text.bytes article.body) = article.bodySha256
  finished : attempt.outcome = some outcome
  version : outcome.connectorVersion = some proof.connectorVersion
  receipt : ∃ receipt, outcome.runnerEvidence.filter isRunnerReceipt = [receipt]
    ∧ isLiveReceipt attempt.attemptId proof.connectorVersion outcome.occurredAt receipt = true
  readback : ∃ readback, outcome.runnerEvidence.filter (isOwnedReadback outcome.publicUrl
    (plainTextPublicationReadbackHash article.placementSlot article.title article.body)) = [readback]
  address : ∃ raw, outcome.publicUrl = some raw ∧ isArticleUrl article raw = true
  stored : proof.publicationReceipt = outcome ∧ proof.publicReadback = outcome

theorem Proves.readOff (h : Proves target attempt article outcome receivedAt version) :
    ReadOff target attempt article outcome (attemptVerification attempt article outcome version) where
  frozen := h.frozen
  body := (isSavedPublication_iff.mp h.saved).2.2.2.2.2.2.2.2.2
  finished := h.finished
  version := h.versioned
  receipt := by
    obtain ⟨-, -, hone, hlive, -⟩ := isProved_iff.mp h.proved
    obtain ⟨receipt, hreceipt⟩ := List.length_eq_one_iff.mp hone
    rw [hreceipt, List.any_cons, List.any_nil, Bool.or_false] at hlive
    exact ⟨receipt, hreceipt, hlive⟩
  readback := List.length_eq_one_iff.mp (isProved_iff.mp h.proved).2.2.2.2.1
  address := (Option.any_eq_true _ _).mp (isProved_iff.mp h.proved).2.2.2.2.2
  stored := ⟨rfl, rfl⟩

open MemoryConnectorState in
/-- Reading a proof off a saved attempt never fails, and what is read off rests on the evidence of this attempt. A
repository without it takes the proof exactly where its version is trusted by its name, and then the connector can be
enabled for the proved format, unless its revisions are used up. -/
theorem savedProofs_accepted (hdigests : HexDigests) (target : ChannelTarget) (attempt : ChannelAttempt) :
    (∃ result, savedPublicationVerification target attempt = .ok result)
      ∧ ∀ proof, savedPublicationVerification target attempt = .ok (some proof) →
        (∃ article outcome, ReadOff target attempt article outcome proof)
          ∧ ∀ operator h s, connectorMachine.Run .default h s → proof.verificationId ∉ s.ids →
            (trustedVersion proof.connectorVersion = true →
              ∃ s', (insertVerification operator proof).Returns s () s'
                ∧ (s'.revision (operator, proof.key) ≠ 2 ^ 31 - 1 →
                  ∃ settings s'', (configure operator proof.key (s'.revision (operator, proof.key)) true
                      [proof.contentType] proof.connectorVersion).Returns s' settings s''
                    ∧ settings.enabled = true ∧ settings.contentTypes = [proof.contentType]))
            ∧ (trustedVersion proof.connectorVersion = false →
              ∃ e, (insertVerification operator proof).Fails s e s) := by
  rcases savedPublicationVerification_cases hdigests target attempt with
    hnone | ⟨article, outcome, receivedAt, version, hproves, hsome⟩
  · refine ⟨⟨none, hnone⟩, fun proof hproof => ?_⟩
    rw [hnone] at hproof
    cases hproof
  refine ⟨⟨_, hsome⟩, fun proof hproof => ?_⟩
  rw [hsome] at hproof
  cases hproof
  refine ⟨⟨article, outcome, hproves.readOff⟩, fun operator h s hrun hnew => ⟨fun htrusted => ?_, fun huntrusted => ?_⟩⟩
  · have hvalid := (validate_iff_trusted hdigests hproves.saved hproves.versioned hproves.proved).mpr htrusted
    refine ⟨_, insertVerification_of_valid hvalid hnew, fun hleft => ?_⟩
    obtain ⟨hlabel, hlive, -⟩ := isProved_iff.mp hproves.proved
    obtain ⟨-, -, -, -, -, hplatform, hslot, -⟩ := isSavedPublication_iff.mp hproves.saved
    -- The settings of a run have as many revisions as they were accepted.
    have hcounted : 0 ≤ s.revision (operator, (attemptVerification attempt article outcome version).key) := by
      rw [revision_run hrun]
      exact Int.add_nonneg (le_refl 0) (Int.natCast_nonneg _)
    have hkey : (attemptVerification attempt article outcome version).key.validate = .ok () := by
      unfold ConnectorKey.validate
      rw [failIf_eq_ok]
      simp [attemptVerification, hplatform, hslot]
    obtain ⟨s'', hconfigured⟩ := configure_of_proof
      (s := s.pushProof (operator, (attemptVerification attempt article outcome version).key)
        (attemptVerification attempt article outcome version))
      (by
        rw [history_pushProof, if_pos rfl]
        exact mem_append_right _ (mem_singleton.mpr rfl))
      hvalid hkey validLabel_plainText plainText_ne_rich hlabel hlive hcounted hleft
    exact ⟨_, s'', hconfigured, rfl, rfl⟩
  · refine insertVerification_of_invalid fun hvalid => ?_
    have htrusted := (validate_iff_trusted hdigests hproves.saved hproves.versioned hproves.proved).mp hvalid
    change trustedVersion version = false at huntrusted
    rw [htrusted] at huntrusted
    cases huntrusted

end SavedProofs

/-! ### Sample attempts -/

namespace Sample

/-- One second after the epoch. -/
@[reducible] def secondText : InstantText :=
  ⟨fun text => if text = "1970-01-01T00:00:01Z" then some (DateTime.seconds 1) else none⟩

@[reducible] def noQueries : UrlQueries :=
  ⟨fun _ => none⟩

attribute [local instance] secureHash secondText postParser noFragments noQueries

theorem hexDigests_secureHash : HexDigests := by
  intro bytes
  obtain ⟨hlength, hdigits⟩ := SecureHash.digits_sha256 bytes
  have hplain : ∀ digit, digit < 16 → (Nat.digitChar digit).utf8Size = 1
      ∧ isAsciiHexdigit (Nat.digitChar digit) = true := by
    decide
  have hbytes : ∀ chars : List Char, (∀ c ∈ chars, ∃ digit, digit < 16 ∧ c = Nat.digitChar digit) →
      (String.ofList chars).utf8ByteSize = chars.length := by
    intro chars
    induction chars with
    | nil => simp
    | cons _ _ ih =>
      intro h
      rw [forall_mem_cons] at h
      obtain ⟨⟨digit, hdigit, hc⟩, hrest⟩ := h
      rw [ofList_cons, utf8ByteSize_append, utf8ByteSize_singleton, hc, (hplain digit hdigit).1, ih hrest, length_cons]
      omega
  constructor
  · have hsize := hbytes _ hdigits
    rw [ofList_toList, hlength] at hsize
    exact hsize
  · rw [List.all_eq_true]
    intro c hc
    obtain ⟨digit, hdigit, rfl⟩ := hdigits c hc
    exact (hplain digit hdigit).2

def savedTarget : ChannelTarget where
  targetId := uuid 11
  input := .publish
    { sourceId := uuid 12, sourceVersionId := uuid 13, platform := "creator", placementSlot := "primary"
      accountId := uuid 14, title := "Title", body := "Body", bodySha256 := sha256Hex (Text.bytes "Body") }

def savedHash : String :=
  plainTextPublicationReadbackHash "primary" "Title" "Body"

/-- The text with this digest under its address. -/
def savedReadback (hash : String) : Json :=
  .object
    [("kind", .string "public_readback"), ("url", .string "https://example.com/posts/100"),
      ("content_matched", .bool true), ("owned_by_account", .bool true), ("expected_sha256", .string hash),
      ("readback_sha256", .string hash)]

def savedReceipt (version : String) : Json :=
  .object
    [("kind", .string "runner_receipt"), ("schema_version", .string "geo.runner.receipt.v1"),
      ("provenance", .string "live"), ("execution_id", .string (uuid 15).toString),
      ("connector_version", .string version), ("occurred_at", .string "1970-01-01T00:00:01Z")]

/-- An article that was published by some version and read back. -/
def savedOutcome (version : String) : ChannelOutcome where
  status := .verified
  detail := none
  occurredAt := DateTime.seconds 1
  rawAnswer := none
  citations := []
  publicUrl := some "https://example.com/posts/100"
  screenshotRef := none
  connectorVersion := some version
  runnerEvidence := [savedReadback savedHash, savedReceipt version]
  fixture := false

def savedAttempt (version : String) : ChannelAttempt where
  attemptId := uuid 15
  targetId := uuid 11
  claimedAt := DateTime.seconds 1
  outcome := some (savedOutcome version)
  receivedAt := some (DateTime.seconds 1)

def savedArticle : FrozenArticle where
  platform := "creator"
  placementSlot := "primary"
  title := "Title"
  body := "Body"
  bodySha256 := sha256Hex (Text.bytes "Body")

/-- What the sample attempt of a version gives. -/
def savedProof (version : String) : ConnectorVerification :=
  attemptVerification (savedAttempt version) savedArticle (savedOutcome version) version

/-- The sample attempt proves its version, whatever it is called, as long as it is no fixture. -/
theorem isProved_savedAttempt {version : String} (hlabel : validLabel version = true)
    (hlive : isFixtureVersion version = false)
    (harticle : isArticleUrl savedArticle "https://example.com/posts/100" = true) :
    isProved (savedAttempt version) savedArticle (savedOutcome version) version = true := by
  rw [SavedProofs.isProved_iff]
  have hread : isOwnedReadback (savedOutcome version).publicUrl savedHash (savedReadback savedHash) = true := by
    rw [isOwnedReadback, decide_eq_true_eq]
    exact ⟨rfl, rfl, rfl, rfl, rfl, rfl⟩
  have hreceipt : isOwnedReadback (savedOutcome version).publicUrl savedHash (savedReceipt version) = false := by
    rw [isOwnedReadback, decide_eq_false_iff_not]
    rintro ⟨hkind, -⟩
    have hname : (savedReceipt version).str "kind" = some "runner_receipt" := rfl
    rw [hname] at hkind
    exact absurd hkind (by decide)
  have hrunner : isLiveReceipt (uuid 15) version (DateTime.seconds 1) (savedReceipt version) = true := by
    rw [isLiveReceipt, decide_eq_true_eq]
    exact ⟨rfl, rfl, rfl, rfl, rfl⟩
  have hreceipts : (savedOutcome version).runnerEvidence.filter isRunnerReceipt = [savedReceipt version] := rfl
  have hreadbacks : (savedOutcome version).runnerEvidence.filter
      (isOwnedReadback (savedOutcome version).publicUrl savedHash) = [savedReadback savedHash] := by
    show [savedReadback savedHash, savedReceipt version].filter _ = _
    rw [filter_cons_of_pos hread, filter_cons_of_neg (by rw [hreceipt]; exact Bool.false_ne_true)]
    rfl
  refine ⟨hlabel, by rw [hlive]; exact Bool.false_ne_true, ?_, ?_, ?_, ?_⟩
  · rw [hreceipts, List.length_singleton]
  · rw [hreceipts, List.any_cons, List.any_nil, Bool.or_false]
    exact hrunner
  · show ((savedOutcome version).runnerEvidence.filter
      (isOwnedReadback (savedOutcome version).publicUrl savedHash)).length = 1
    rw [hreadbacks, List.length_singleton]
  · exact harticle

theorem savedAttempt_proves {version : String} (hlabel : validLabel version = true)
    (hlive : isFixtureVersion version = false) :
    SavedProofs.Proves savedTarget (savedAttempt version) savedArticle (savedOutcome version)
      (DateTime.seconds 1) version := by
  refine ⟨rfl, rfl, rfl, ?_, rfl, isProved_savedAttempt hlabel hlive (by decide +kernel)⟩
  rw [SavedProofs.isSavedPublication_iff]
  refine ⟨rfl, rfl, rfl, le_refl _, le_refl _, ?_, ?_, ?_, ?_, rfl⟩ <;> decide +kernel

open MemoryConnectorState in
/-- The proof of a version that is trusted by its name enables its connector. -/
theorem savedProofs_accepted_sample :
    ∃ s' settings s'', (insertVerification ⟨uuid 1⟩ (savedProof "live.v1")).Returns .default () s'
      ∧ (configure ⟨uuid 1⟩ (savedProof "live.v1").key (s'.revision (⟨uuid 1⟩, (savedProof "live.v1").key)) true
        ["plain_text_article.v1"] "live.v1").Returns s' settings s''
      ∧ settings.enabled = true := by
  obtain ⟨-, haccepted⟩ := SavedProofs.savedProofs_accepted hexDigests_secureHash savedTarget (savedAttempt "live.v1")
  obtain ⟨-, hrepository⟩ := haccepted (savedProof "live.v1")
    ((savedAttempt_proves (by decide +kernel) (by decide +kernel)).result hexDigests_secureHash)
  obtain ⟨htrusted, -⟩ := hrepository ⟨uuid 1⟩ [] .default .refl not_mem_nil
  obtain ⟨s', hinsert, hconfigure⟩ := htrusted (by decide +kernel)
  obtain ⟨-, -, hpushed⟩ := insertVerification_returns hinsert
  -- No settings were made yet.
  have hrevision : s'.revision (⟨uuid 1⟩, (savedProof "live.v1").key) = 0 := by
    rw [hpushed]
    rfl
  obtain ⟨settings, s'', hconfigured, henabled, -⟩ := hconfigure (by rw [hrevision]; decide)
  exact ⟨s', settings, s'', hinsert, hconfigured, henabled⟩

open MemoryConnectorState in
/-- The proof of a version that is called unverified is read off, and a repository without it does not take it. -/
theorem savedProof_unverified :
    ∃ proof : ConnectorVerification,
      savedPublicationVerification savedTarget (savedAttempt "live_unverified.source_derived.v1") = .ok (some proof)
        ∧ proof.verificationId ∉ MemoryConnectorState.default.ids
        ∧ ∃ e, (insertVerification ⟨uuid 1⟩ proof).Fails .default e .default := by
  have hproves := @savedAttempt_proves "live_unverified.source_derived.v1" (by decide +kernel) (by decide +kernel)
  refine ⟨_, hproves.result hexDigests_secureHash, not_mem_nil,
    SavedProofs.insertVerification_of_invalid fun hvalid => ?_⟩
  have htrusted :=
    (SavedProofs.validate_iff_trusted hexDigests_secureHash hproves.saved hproves.versioned hproves.proved).mp hvalid
  exact absurd htrusted (by decide +kernel)

end Sample

end GeoMaster
