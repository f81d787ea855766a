import GeoMaster.Lib.Numbered
import GeoMaster.Proofs.QuestionRegistry

/-!
# Question sets and the held-out split

A call either answers with the version its key already has, or builds a version, files it, and remembers the key.
`QuestionShape` is what holds of every registry that calls can reach: identities apart from each other, one in
five of them for evaluation, and sets whose versions are numbered, linked, and made of questions of the
identities.
-/

namespace GeoMaster

open Op Except List Option Calls History

open QuestionProjectState

/-! ### What is stored -/

section Stored

variable [UnicodeText]

/-- A version as it is stored in a set. -/
structure StoredVersion (identities : List QuestionIdentity) (setId : Uuid) (version : QuestionSetVersion) : Prop where
  questionSetId : version.questionSetId = setId
  questions : (version.questions.map QuestionRevision.questionId).Nodup
  texts : (version.questions.map fun revision => normalizeQuestionText revision.text).Nodup
  belong : AllBelong identities version.questions
  evaluation : version.evaluationCount = version.questions.countP fun question => question.purpose = .frozenEvaluation
  optimization : version.optimizationCount = version.questions.countP fun question => question.purpose = .optimization

/-- A version and the one after it. -/
structure NextQuestionVersion (version next : QuestionSetVersion) : Prop where
  revision : next.revision = version.revision + 1
  parentVersionId : next.parentVersionId = some version.id

/-- A set as it is stored. -/
structure StoredSet (identities : List QuestionIdentity) (set : QuestionSetRecord) : Prop where
  firstRevision : set.versions.first.revision = 1
  firstParent : set.versions.first.parentVersionId = none
  chain : set.versions.Chain NextQuestionVersion
  versions : ∀ version ∈ set.versions.entries, StoredVersion identities set.id version

/-- The identities and the sets of a registry fit together. -/
structure QuestionShape (s : QuestionProjectState) : Prop where
  registry : Registry s.identities
  enrolled : s.enrolledCount = s.identities.length
  evaluation : (s.identities.countP fun identity => identity.purpose = .frozenEvaluation) = divCeil s.enrolledCount 5
  sets : ∀ set ∈ s.sets, StoredSet s.identities set

theorem QuestionShape.new (seed : Uuid) : QuestionShape (.new seed) where
  registry := .nil
  enrolled := rfl
  evaluation := by simp [QuestionProjectState.new, divCeil]
  sets set h := by simp [QuestionProjectState.new] at h

variable {l l' : List QuestionIdentity}

end Stored

/-! ### Growth -/

/-- A set that got at most more versions. -/
structure SetGrown (set set' : QuestionSetRecord) : Prop where
  id : set'.id = set.id
  versions : set.versions.Grows set'.versions

theorem SetGrown.refl (set : QuestionSetRecord) : SetGrown set set :=
  ⟨rfl, .refl _⟩

/-- What a registry keeps: the identities with their aliases and purposes, and the versions of the sets. -/
structure QuestionsGrown (s s' : QuestionProjectState) : Prop where
  seed : s'.seed = s.seed
  identities : ∀ identity ∈ s.identities, ∃ identity' ∈ s'.identities, KeepsIdentity identity identity'
  sets : ∀ set ∈ s.sets, ∃ set' ∈ s'.sets, SetGrown set set'

theorem QuestionsGrown.refl (s : QuestionProjectState) : QuestionsGrown s s where
  seed := rfl
  identities identity h := ⟨identity, h, .refl identity⟩
  sets set h := ⟨set, h, .refl set⟩

theorem QuestionsGrown.trans {s s' s'' : QuestionProjectState} (h : QuestionsGrown s s')
    (h' : QuestionsGrown s' s'') : QuestionsGrown s s'' where
  seed := h'.seed.trans h.seed
  identities identity hmem := by
    obtain ⟨identity', hmem', hkeeps⟩ := h.identities identity hmem
    obtain ⟨identity'', hmem'', hkeeps'⟩ := h'.identities identity' hmem'
    exact ⟨identity'', hmem'', hkeeps.trans hkeeps'⟩
  sets set hmem := by
    obtain ⟨set', hmem', hgrown⟩ := h.sets set hmem
    obtain ⟨set'', hmem'', hgrown'⟩ := h'.sets set' hmem'
    exact ⟨set'', hmem'', hgrown'.id.trans hgrown.id, hgrown.versions.trans hgrown'.versions⟩

/-! ### Building a version -/

section Build

variable [Sha256] [UnicodeText] {s candidate : QuestionProjectState} {draws : QuestionDraws}
  {setId : Uuid} {revision : Nat} {name : String} {drafts : List QuestionDraft}
  {base : Option QuestionSetVersion} {now : DateTime} {version : QuestionSetVersion}

/-- What is built: a version of a set, and the registry with its questions enrolled. -/
structure BuiltVersion (s : QuestionProjectState) (setId : Uuid) (revision : Nat) (base : Option QuestionSetVersion)
    (draws : QuestionDraws) (candidate : QuestionProjectState) (version : QuestionSetVersion) : Prop where
  keeps : ∃ added, KeepsIdentities (s.identities ++ added) candidate.identities
  registry : Registry candidate.identities
  enrolled : candidate.enrolledCount = candidate.identities.length
  evaluation : (candidate.identities.countP fun identity => identity.purpose = .frozenEvaluation)
    = divCeil candidate.enrolledCount 5
  rest : candidate = { s with
    enrolledCount := candidate.enrolledCount
    identities := candidate.identities }
  id : version.id = draws.versionId
  revision : version.revision = revision
  parentVersionId : version.parentVersionId = base.map QuestionSetVersion.id
  stored : StoredVersion candidate.identities setId version

variable {l : List QuestionIdentity}

omit [Sha256] in
/-- The drafts of a command are well resolved among the identities with the new ones. -/
theorem wellResolved {resolved : List (Option Uuid)} (added : List QuestionIdentity)
    (hnodup : (drafts.map fun draft => normalizeQuestionText draft.text).Nodup)
    (hresolved : List.Forall₂ (fun item id => ResolvedIn l item.2 id)
      (drafts.zip (drafts.map fun draft => normalizeQuestionText draft.text)) resolved)
    (hadded : ∀ a ∈ added, ∃ text ∈ newTexts
      (drafts.map fun draft => normalizeQuestionText draft.text) resolved, a.aliases = [text]) :
    WellResolved (l ++ added)
      ((drafts.zip (drafts.map fun draft => normalizeQuestionText draft.text)).zip resolved) := by
  let norms := drafts.map fun draft => normalizeQuestionText draft.text
  have hitems : drafts.zip norms = drafts.map fun draft => (draft, normalizeQuestionText draft.text) := by
    have hpairs := zip_map' (f := fun draft => draft)
      (g := fun draft : QuestionDraft => normalizeQuestionText draft.text) (l := drafts)
    rwa [List.map_id'] at hpairs
  obtain ⟨hlength, hall⟩ := forall₂_iff_zip.mp hresolved
  have hfirst : ((drafts.zip norms).zip resolved).map Prod.fst = drafts.zip norms := map_fst_zip hlength.le
  have hnorms : ((drafts.zip norms).zip resolved).map (fun item => item.1.2) = norms := by
    calc ((drafts.zip norms).zip resolved).map (fun item => item.1.2)
        = (((drafts.zip norms).zip resolved).map Prod.fst).map Prod.snd := by
          rw [List.map_map]
          rfl
      _ = norms := by
          rw [hfirst, hitems, List.map_map]
          rfl
  refine ⟨fun item hitem => ?_, ?_, fun item hitem id hid a ha hna => ?_⟩
  · have hmem : item.1 ∈ drafts.zip norms := by
      rw [← hfirst]
      exact mem_map_of_mem hitem
    rw [hitems] at hmem
    obtain ⟨_, -, heq⟩ := mem_map.mp hmem
    rw [← heq]
  · show (((drafts.zip norms).zip resolved).map fun item => item.1.2).Nodup
    rw [hnorms]
    exact hnodup
  · have hitem' : (item.1, some id) ∈ (drafts.zip norms).zip resolved := by
      rw [← hid]
      exact hitem
    rcases mem_append.mp ha with hold | hnew
    · exact (hall hitem').2 a hold hna
    · -- The text would be both new and resolved.
      obtain ⟨text, htext, haliases⟩ := hadded a hnew
      rw [haliases, mem_singleton] at hna
      have hpairs : norms.zip resolved = ((drafts.zip norms).zip resolved).map fun item => (item.1.2, item.2) := by
        have hsecond : norms = (drafts.zip norms).map Prod.snd := by
          rw [hitems, List.map_map]
          rfl
        conv_lhs => rw [hsecond]
        rw [zip_map_left]
        rfl
      have hopen := mem_newTexts.mp htext
      rw [show drafts.map (fun draft => normalizeQuestionText draft.text) = norms from rfl, hpairs] at hopen
      obtain ⟨other, hother, heq⟩ := mem_map.mp hopen
      obtain ⟨hnorm, hnone⟩ := Prod.mk.inj heq
      have hsame : other = item :=
        inj_on_of_nodup_map (by rw [hnorms]; exact hnodup) hother hitem (hnorm.trans hna.symm)
      rw [hsame, hid] at hnone
      simp at hnone

omit [Sha256] in
theorem RevisedQuestions.storedVersion {usedIds : List Uuid} {l' : List QuestionIdentity}
    {items : List ResolvedDraft} {revisions : List QuestionRevision}
    (h : RevisedQuestions usedIds l l' items revisions) (hitems : WellResolved l items)
    (hset : version.questionSetId = setId) (hquestions : version.questions = revisions)
    (hevaluation : version.evaluationCount = revisions.countP fun question => question.purpose = .frozenEvaluation)
    (hoptimization : version.optimizationCount = revisions.length - version.evaluationCount) :
    StoredVersion l' setId version := by
  subst hquestions
  have hboth := length_eq_countP_add_countP (fun question : QuestionRevision => question.purpose = .frozenEvaluation)
    (l := version.questions)
  have hother : (version.questions.countP fun question =>
      ¬ decide (question.purpose = QuestionPurpose.frozenEvaluation) = true)
      = version.questions.countP fun question => question.purpose = .optimization := by
    refine countP_congr fun question _ => ?_
    cases question.purpose <;> simp
  refine ⟨hset, h.distinct, ?_, h.belong, hevaluation, by omega⟩
  rw [h.texts]
  exact hitems.distinct

omit [Sha256] [UnicodeText] in
/-- A fifth more is at most one more each. -/
theorem divCeil_add_le (n k : Nat) : divCeil (n + k) 5 ≤ divCeil n 5 + k := by
  unfold divCeil
  omega

omit [Sha256] [UnicodeText] in
theorem divCeil_mono {n m : Nat} (h : n ≤ m) : divCeil n 5 ≤ divCeil m 5 := by
  unfold divCeil
  omega

theorem QuestionShape.buildVersion_ok (hs : QuestionShape s) (hfresh : FreshQuestionDraws s draws)
    (hbase : ∀ old ∈ base, AllBelong s.identities old.questions) (hsize : drafts.length ≤ maxSetQuestions)
    (h : s.buildVersion draws setId revision name drafts base now = .ok (candidate, version)) :
    BuiltVersion s setId revision base draws candidate version := by
  simp only [buildVersion, eq_ok_iff, not_not] at h
  obtain ⟨_, hnodup, resolved, hresolve, _, -, ⟨identities, _⟩, hrevised, heq⟩ := h
  obtain ⟨rfl, rfl⟩ := Prod.mk.inj heq
  have hresolved := hs.registry.resolveDrafts_ok hresolve
  set texts := newTexts (drafts.map fun draft => normalizeQuestionText draft.text) resolved
  have hlow := divCeil_mono (Nat.le_add_right s.enrolledCount texts.length)
  have hhigh := divCeil_add_le s.enrolledCount texts.length
  have htexts : texts.Nodup := newTexts_nodup _ _
  have hlength : texts.length ≤ maxSetQuestions := by
    have hle := length_newTexts_le (drafts.map fun draft => normalizeQuestionText draft.text) resolved
    rw [length_map] at hle
    exact hle.trans hsize
  -- A new text has no identity yet.
  have hnew : ∀ text ∈ texts, ∀ a ∈ s.identities, text ∉ a.aliases := by
    intro text htext
    have hopen := mem_newTexts.mp htext
    obtain ⟨-, hall⟩ := forall₂_iff_zip.mp hresolved
    have hnorms : (drafts.zip (drafts.map fun draft => normalizeQuestionText draft.text)).map
        Prod.snd = drafts.map fun draft => normalizeQuestionText draft.text :=
      map_snd_zip (by simp)
    rw [← hnorms, zip_map_left] at hopen
    obtain ⟨⟨_, _⟩, hitem, hpair⟩ := mem_map.mp hopen
    obtain ⟨rfl, rfl⟩ := Prod.mk.inj hpair
    exact hall hitem
  have hregistry := hs.registry.enroll s.seed (divCeil (s.enrolledCount + texts.length) 5 - divCeil s.enrolledCount 5)
    (fun i hi j hj => hfresh.distinct i (hi.trans_le hlength) j (hj.trans_le hlength))
    (fun a ha i hi => hfresh.identity a ha i (hi.trans_le hlength)) htexts hnew
  have hitems := wellResolved
    (enroll s.seed draws (divCeil (s.enrolledCount + texts.length) 5 - divCeil s.enrolledCount 5)
      texts) hnodup hresolved fun a ha => by
        obtain ⟨text, _, htext, -, haliases⟩ := mem_enroll ha
        exact ⟨text, mem_of_getElem? htext, haliases⟩
  have hdone := reviseQuestions_ok hregistry hitems
    (fun old hold question hquestion => by
      obtain ⟨identity, hidentity, hbelongs⟩ := hbase old hold question hquestion
      exact ⟨identity, mem_append_left _ hidentity, hbelongs⟩) hrevised
  have henrolled : s.enrolledCount + texts.length = identities.length := by
    rw [← hdone.keeps.length_eq, length_append, length_enroll, hs.enrolled]
  have hevaluation : (identities.countP fun identity => identity.purpose = .frozenEvaluation)
      = divCeil (s.enrolledCount + texts.length) 5 := by
    rw [hdone.keeps.countP, countP_append, countP_enroll htexts (by omega), hs.evaluation]
    omega
  exact ⟨⟨_, hdone.keeps⟩, hdone.registry, henrolled, hevaluation, rfl, rfl, rfl, rfl,
    hdone.storedVersion hitems rfl rfl rfl rfl⟩

end Build

/-! ### Sets -/

variable {sets : List QuestionSetRecord} {set : QuestionSetRecord}

theorem mem_pushVersion {setId : Uuid} {version : QuestionSetVersion} (h : set ∈ pushVersion setId version sets) :
    set ∈ sets ∨ ∃ old, sets.find? (fun set => set.id = setId) = some old
      ∧ set = { old with versions := old.versions.push version } := by
  induction sets with
  | nil => simp [pushVersion] at h
  | cons first _ ih =>
    rw [pushVersion] at h
    by_cases hid : first.id = setId
    · rw [if_pos hid] at h
      rcases mem_cons.mp h with rfl | h
      · exact .inr ⟨first, List.find?_cons_of_pos (by simpa using hid), rfl⟩
      · exact .inl (mem_cons_of_mem _ h)
    · rw [if_neg hid] at h
      rcases mem_cons.mp h with rfl | h
      · exact .inl mem_cons_self
      · rw [List.find?_cons_of_neg (by simpa using hid)]
        exact (ih h).imp_left (mem_cons_of_mem _)

theorem pushVersion_grown (setId : Uuid) (version : QuestionSetVersion) (h : set ∈ sets) :
    ∃ set' ∈ pushVersion setId version sets, SetGrown set set' := by
  induction sets with
  | nil => simp at h
  | cons _ _ ih =>
    rw [pushVersion]
    rcases mem_cons.mp h with rfl | hrest
    · split
      · exact ⟨_, mem_cons_self, rfl, .push _ _⟩
      · exact ⟨set, mem_cons_self, .refl set⟩
    · split
      · exact ⟨set, mem_cons_of_mem _ hrest, .refl set⟩
      · obtain ⟨set', hmem, hgrown⟩ := ih hrest
        exact ⟨set', mem_cons_of_mem _ hmem, hgrown⟩

/-! ### What a call does -/

section Calls

variable [Sha256] [UnicodeText] {s s' : QuestionProjectState} {version : QuestionSetVersion}

/-- What a call that returned did. -/
inductive QuestionEffect (s : QuestionProjectState) :
    QuestionCall → QuestionSetVersion → QuestionProjectState → Prop where
  /-- The key was used for the same change. -/
  | replayed {call : QuestionCall} {version : QuestionSetVersion}
      (hreplay : s.replay call.key call.hash = .ok (some version)) :
      QuestionEffect s call version s
  /-- A set is created with its first version. -/
  | created {command : CreateQuestionSet} {draws : QuestionDraws} {now : DateTime}
      {candidate : QuestionProjectState} {version : QuestionSetVersion}
      (hnew : s.replay command.idempotencyKey (createQuestionRequestHash command) = .ok none)
      (hsize : command.questions.length ≤ maxSetQuestions)
      (hbuilt : s.buildVersion draws draws.setId 1 command.name command.questions none now = .ok (candidate, version)) :
      QuestionEffect s (.createSet command draws now) version
        (candidate.publish (candidate.sets ++ [{ id := draws.setId, versions := .start version }])
          command.idempotencyKey (createQuestionRequestHash command) version)
  /-- A set gets one version more. -/
  | revised {setId : Uuid} {command : ReviseQuestionSet} {draws : QuestionDraws} {now : DateTime}
      {set : QuestionSetRecord} {candidate : QuestionProjectState} {version : QuestionSetVersion}
      (hnew : s.replay command.idempotencyKey (reviseQuestionRequestHash setId command) = .ok none)
      (hsize : command.questions.length ≤ maxSetQuestions)
      (hset : s.sets.find? (fun set => set.id = setId) = some set)
      (hbuilt : s.buildVersion draws setId (set.versions.last.revision + 1) command.name
        command.questions (some set.versions.last) now = .ok (candidate, version)) :
      QuestionEffect s (.reviseSet setId command draws now) version
        (candidate.publish (pushVersion setId version candidate.sets) command.idempotencyKey
          (reviseQuestionRequestHash setId command) version)

variable {call : QuestionCall} {candidate : QuestionProjectState} {hash key : String} {set : QuestionSetRecord}
  {setId : Uuid} {sets : List QuestionSetRecord}

variable {drafts : List QuestionDraft} {revision : Nat} {base : Option QuestionSetVersion} {versionId : Uuid}
  {e : QuestionEvent} {l : List QuestionIdentity}

omit [Sha256] in
theorem validateCommand_size {name : String}
    (h : validateCommand key name drafts = .ok ()) : drafts.length ≤ maxSetQuestions := by
  simp only [validateCommand, eq_ok_iff] at h
  obtain ⟨_, -, _, -, _, hsize, -⟩ := h
  exact Nat.le_of_not_lt fun hlarge => hsize (.inr hlarge)

theorem run_questionEffect (h : call.run.Returns s version s') : QuestionEffect s call version s' := by
  cases call with
  | createSet =>
    obtain ⟨_, _, ⟨rfl, rfl⟩, replayed, _, hreplay, h⟩ := by
      simpa only [QuestionCall.run, createSet, returns_bind, returns_read] using h
    obtain ⟨hfound, rfl⟩ := returns_lift.mp hreplay
    cases replayed with
    | some old =>
      obtain ⟨rfl, rfl⟩ := returns_pure.mp h
      exact .replayed hfound
    | none =>
      simp only [returns_iff] at h
      obtain ⟨_, _, ⟨hvalid, rfl⟩, _, _, ⟨-, rfl⟩, ⟨candidate, built⟩, _, ⟨hbuilt, rfl⟩, _, _, rfl, rfl, rfl⟩ := h
      exact .created hfound (validateCommand_size hvalid) hbuilt
  | reviseSet =>
    obtain ⟨_, _, ⟨rfl, rfl⟩, replayed, _, hreplay, h⟩ := by
      simpa only [QuestionCall.run, reviseSet, returns_bind, returns_read] using h
    obtain ⟨hfound, rfl⟩ := returns_lift.mp hreplay
    cases replayed with
    | some old =>
      obtain ⟨rfl, rfl⟩ := returns_pure.mp h
      exact .replayed hfound
    | none =>
      simp only [returns_iff] at h
      obtain ⟨_, _, ⟨hvalid, rfl⟩, set, _, ⟨hset, rfl⟩, _, _, ⟨-, rfl⟩, _, _, ⟨-, rfl⟩,
        ⟨candidate, built⟩, _, ⟨hbuilt, rfl⟩, _, _, rfl, rfl, rfl⟩ := h
      exact .revised hfound (validateCommand_size hvalid) hset hbuilt

theorem questionCall_atomic (call : QuestionCall) : call.run.Atomic := by
  cases call with
  | createSet =>
    refine .bind .read fun s => .bind .lift fun replayed => ?_
    cases replayed with
    | some version => exact Op.ReadOnly.pure.atomic
    | none =>
      exact .bind .lift fun _ => .bind .failIf fun _ => .bind .lift fun _ =>
        (Op.Total.bind .modify fun _ => .pure).atomic
  | reviseSet =>
    refine .bind .read fun s => .bind .lift fun replayed => ?_
    cases replayed with
    | some version => exact Op.ReadOnly.pure.atomic
    | none =>
      exact .bind .lift fun _ => .bind .okOr fun _ => .bind .failIf fun _ => .bind .failIf fun _ =>
        .bind .lift fun _ => (Op.Total.bind .modify fun _ => .pure).atomic

/-! ### Each call keeps the shape -/

omit [Sha256] in
theorem BuiltVersion.first {draws : QuestionDraws} (h : BuiltVersion s setId 1 none draws candidate version) :
    StoredSet candidate.identities { id := setId, versions := .start version } where
  firstRevision := h.revision
  firstParent := h.parentVersionId
  chain := .start
  versions v hv := by
    obtain rfl := mem_singleton.mp hv
    exact h.stored

omit [Sha256] in
theorem BuiltVersion.next {draws : QuestionDraws} {candidate : QuestionProjectState} {set : QuestionSetRecord}
    (h : BuiltVersion s set.id (set.versions.last.revision + 1) (some set.versions.last) draws
      candidate version) (hset : StoredSet candidate.identities set) :
    StoredSet candidate.identities { set with versions := set.versions.push version } where
  firstRevision := by rw [first_push]; exact hset.firstRevision
  firstParent := by rw [first_push]; exact hset.firstParent
  chain := hset.chain.push ⟨h.revision, h.parentVersionId⟩
  versions v hv := by
    rcases mem_append.mp hv with hv | hv
    · exact hset.versions v hv
    · obtain rfl := mem_singleton.mp hv
      exact h.stored

omit [Sha256] in
theorem BuiltVersion.stored_set {draws : QuestionDraws} (h : BuiltVersion s setId revision base draws candidate version)
    (hset : StoredSet s.identities set) : StoredSet candidate.identities set := by
  obtain ⟨added, hkeeps⟩ := h.keeps
  refine { hset with versions := fun v hv => ?_ }
  have hstored := hset.versions v hv
  have hwider : AllBelong (s.identities ++ added) v.questions := fun question hquestion => by
    obtain ⟨identity, hidentity, hbelongs⟩ := hstored.belong question hquestion
    exact ⟨identity, mem_append_left _ hidentity, hbelongs⟩
  exact { hstored with belong := hwider.kept hkeeps }

omit [Sha256] in
/-- Filing what was built keeps the shape and everything that is there. -/
theorem BuiltVersion.publish {draws : QuestionDraws} (h : BuiltVersion s setId revision base draws candidate version)
    (hstored : ∀ set ∈ sets, StoredSet candidate.identities set)
    (hgrown : ∀ set ∈ s.sets, ∃ set' ∈ sets, SetGrown set set') :
    QuestionShape (candidate.publish sets key hash version)
      ∧ QuestionsGrown s (candidate.publish sets key hash version) := by
  refine ⟨⟨h.registry, h.enrolled, h.evaluation, hstored⟩, ⟨?_, fun identity hidentity => ?_, hgrown⟩⟩
  · show candidate.seed = s.seed
    rw [h.rest]
  · obtain ⟨_, hkeeps⟩ := h.keeps
    exact hkeeps.forward (mem_append_left _ hidentity)

theorem QuestionShape.effect (hs : QuestionShape s) (hfresh : FreshQuestionDraws s call.draws)
    (h : QuestionEffect s call version s') : QuestionShape s' ∧ QuestionsGrown s s' := by
  cases h with
  | replayed => exact ⟨hs, .refl s⟩
  | @created _ _ _ candidate _ hnew hsize hbuilt =>
    have hb := hs.buildVersion_ok hfresh (by simp) hsize hbuilt
    have hsets : candidate.sets = s.sets := by rw [hb.rest]
    rw [hsets]
    refine hb.publish (fun set hset => ?_) fun set hset => ⟨set, mem_append_left _ hset, .refl set⟩
    rcases mem_append.mp hset with hold | hnew
    · exact hb.stored_set (hs.sets set hold)
    · obtain rfl := mem_singleton.mp hnew
      exact hb.first
  | @revised setId _ _ _ set candidate version _ hsize hset hbuilt =>
    have hmem := mem_of_find?_eq_some hset
    have hid : set.id = setId := by simpa using List.find?_some hset
    subst hid
    have hold := hs.sets set hmem
    have hb := hs.buildVersion_ok hfresh (fun old hold' => by
      obtain rfl := some.inj hold'
      exact (hold.versions _ set.versions.last_mem).belong) hsize hbuilt
    have hsets : candidate.sets = s.sets := by rw [hb.rest]
    rw [hsets]
    refine hb.publish (fun other hother => ?_) fun other hother => pushVersion_grown set.id version hother
    rcases mem_pushVersion hother with hkept | ⟨pushed, hpushed, rfl⟩
    · exact hb.stored_set (hs.sets other hkept)
    · rw [hset] at hpushed
      obtain rfl := some.inj hpushed
      exact hb.next (hb.stored_set hold)

/-! ### Replays -/

omit [Sha256] [UnicodeText] in
theorem getVersion_eq_ok :
    s.getVersion setId versionId = .ok version
      ↔ ∃ set, s.sets.find? (fun set => set.id = setId) = some set
        ∧ set.versions.entries.find? (fun version => version.id = versionId) = some version := by
  simp only [getVersion, eq_ok_iff]

omit [Sha256] [UnicodeText] in
theorem replay_eq_some :
    s.replay key hash = .ok (some version)
      ↔ ∃ entry, s.idempotency.find? (fun entry => entry.key = key) = some entry ∧ entry.requestHash = hash
        ∧ s.getVersion entry.questionSetId entry.versionId = .ok version := by
  unfold replay
  cases hfind : s.idempotency.find? fun entry => entry.key = key with
  | none => simp
  | some entry =>
    simp only [eq_ok_iff, Option.some.injEq, not_not]
    constructor
    · rintro ⟨_, hhash, _, hversion, rfl⟩
      exact ⟨entry, rfl, hhash, hversion⟩
    · rintro ⟨_, rfl, hhash, hversion⟩
      exact ⟨(), hhash, version, hversion, rfl⟩

omit [Sha256] [UnicodeText] in
theorem replay_eq_none (h : s.replay key hash = .ok none) :
    s.idempotency.find? (fun entry => entry.key = key) = none := by
  unfold replay at h
  cases hfind : s.idempotency.find? fun entry => entry.key = key with
  | none => rfl
  | some entry =>
    rw [hfind] at h
    simp only [eq_ok_iff] at h
    obtain ⟨_, -, _, -, hv⟩ := h
    simp at hv

omit [Sha256] [UnicodeText] in
theorem find?_pushVersion (setId : Uuid) (version : QuestionSetVersion) {id : Uuid}
    (h : sets.find? (fun set => set.id = id) = some set) :
    ∃ set', (pushVersion setId version sets).find? (fun set => set.id = id) = some set' ∧ set.versions.Grows
      set'.versions ∧ (id = setId → set' = { set with versions := set.versions.push version }) := by
  induction sets with
  | nil => simp at h
  | cons first _ ih =>
    rw [pushVersion]
    by_cases hfirst : first.id = id
    · rw [List.find?_cons_of_pos (by simpa using hfirst)] at h
      obtain rfl := some.inj h
      split
      · exact ⟨_, List.find?_cons_of_pos (by simpa using hfirst), .push _ _, fun _ => rfl⟩
      · rename_i hother
        refine ⟨first, List.find?_cons_of_pos (by simpa using hfirst), .refl _, fun hsame => ?_⟩
        exact absurd (hfirst.trans hsame) hother
    · rw [List.find?_cons_of_neg (by simpa using hfirst)] at h
      split
      · rename_i hpushed
        refine ⟨set, ?_, .refl _, fun hsame => ?_⟩
        · rw [List.find?_cons_of_neg (by simpa using hfirst)]
          exact h
        · exact absurd (hpushed.trans hsame.symm) hfirst
      · rw [List.find?_cons_of_neg (by simpa using hfirst)]
        exact ih h

omit [Sha256] [UnicodeText] in
/-- A version that is found in a set is found when the set has grown. -/
theorem find?_grown {versions versions' : History QuestionSetVersion} (hgrown : versions.Grows versions')
    (h : versions.entries.find? (fun version => version.id = versionId) = some version) :
    versions'.entries.find? (fun version => version.id = versionId) = some version := by
  obtain ⟨_, hlater⟩ := hgrown
  rw [← hlater, List.find?_append, h, some_or]

omit [Sha256] [UnicodeText] in
/-- Filing a version keeps the answers to the keys that are known. -/
theorem replay_publish {key' hash' : String} {filed : QuestionSetVersion}
    (hreplay : s.replay key hash = .ok (some version)) (hkeys : candidate.idempotency = s.idempotency)
    (hsets : ∀ setId set, s.sets.find? (fun set => set.id = setId) = some set →
      ∃ set', sets.find? (fun set => set.id = setId) = some set' ∧ set.versions.Grows set'.versions) :
    (candidate.publish sets key' hash' filed).replay key hash = .ok (some version) := by
  obtain ⟨entry, hentry, hhash, hversion⟩ := replay_eq_some.mp hreplay
  obtain ⟨set, hset, hfound⟩ := getVersion_eq_ok.mp hversion
  obtain ⟨set', hset', hgrown⟩ := hsets _ set hset
  refine replay_eq_some.mpr ⟨entry, ?_, hhash, getVersion_eq_ok.mpr ⟨set', hset', find?_grown hgrown hfound⟩⟩
  show (candidate.idempotency ++ _).find? _ = some entry
  rw [hkeys, List.find?_append, hentry, some_or]

omit [Sha256] [UnicodeText] in
theorem replay_filed (hnew : s.replay key hash = .ok none) (hkeys : candidate.idempotency = s.idempotency)
    (hset : sets.find? (fun set => set.id = version.questionSetId) = some set)
    (hversion : set.versions.entries.find? (fun v => v.id = version.id) = some version) :
    (candidate.publish sets key hash version).replay key hash = .ok (some version) := by
  refine replay_eq_some.mpr
    ⟨{ key, requestHash := hash, questionSetId := version.questionSetId, versionId := version.id },
      ?_, rfl, getVersion_eq_ok.mpr ⟨set, hset, hversion⟩⟩
  show (candidate.idempotency ++ _).find? _ = _
  rw [hkeys, List.find?_append, replay_eq_none hnew]
  simp

theorem buildVersion_keeps {draws : QuestionDraws} {name : String} {now : DateTime}
    (h : s.buildVersion draws setId revision name drafts base now = .ok (candidate, version)) :
    candidate.sets = s.sets ∧ candidate.idempotency = s.idempotency
      ∧ version.questionSetId = setId ∧ version.id = draws.versionId := by
  simp only [buildVersion, eq_ok_iff] at h
  obtain ⟨_, -, _, -, _, -, _, -, heq⟩ := h
  obtain ⟨rfl, rfl⟩ := Prod.mk.inj heq
  exact ⟨rfl, rfl, rfl, rfl⟩

theorem QuestionEffect.replay_kept {old : QuestionSetVersion} (h : QuestionEffect s call version s')
    (hreplay : s.replay key hash = .ok (some old)) : s'.replay key hash = .ok (some old) := by
  cases h with
  | replayed => exact hreplay
  | created _ _ hbuilt =>
    obtain ⟨hsets, hkeys, -, -⟩ := buildVersion_keeps hbuilt
    refine replay_publish hreplay hkeys fun setId set hset => ⟨set, ?_, .refl _⟩
    rw [hsets, List.find?_append, hset, some_or]
  | revised _ _ _ hbuilt =>
    obtain ⟨hsets, hkeys, -, -⟩ := buildVersion_keeps hbuilt
    refine replay_publish hreplay hkeys fun _ set hfound => ?_
    rw [hsets]
    obtain ⟨set', hset', hgrown, -⟩ := find?_pushVersion _ _ hfound
    exact ⟨set', hset', hgrown⟩

theorem QuestionEffect.answers (h : QuestionEffect s call version s') (hfresh : FreshQuestionDraws s call.draws) :
    s'.replay call.key call.hash = .ok (some version) := by
  cases h with
  | replayed hreplay => exact hreplay
  | @created _ draws _ candidate version hnew _ hbuilt =>
    obtain ⟨hsets, hkeys, hsetId, -⟩ := buildVersion_keeps hbuilt
    let created : QuestionSetRecord := { id := draws.setId, versions := .start version }
    have hfound : (candidate.sets ++ [created]).find? (fun set => set.id = version.questionSetId) = some created := by
      have hunused : s.sets.find? (fun set => set.id = version.questionSetId) = none := by
        refine List.find?_eq_none.mpr fun set hset => ?_
        have hother : set.id ≠ draws.setId := hfresh.set set hset
        rw [hsetId]
        simpa using hother
      rw [hsets, List.find?_append, hunused, none_or, hsetId]
      exact List.find?_cons_of_pos (by simp [created])
    have honly : (start version).entries.find? (fun v => v.id = version.id)
        = some version := List.find?_cons_of_pos (by simp)
    exact replay_filed hnew hkeys hfound honly
  | @revised setId _ draws _ set _ version hnew _ hset hbuilt =>
    obtain ⟨hsets, hkeys, hsetId, hid⟩ := buildVersion_keeps hbuilt
    obtain ⟨_, hset', -, hpushed⟩ := find?_pushVersion setId version hset
    have hversions := hpushed rfl
    subst hversions
    refine replay_filed hnew hkeys (by rw [hsets, hsetId]; exact hset') ?_
    have hunused : set.versions.entries.find? (fun v => v.id = version.id) = none := by
      refine List.find?_eq_none.mpr fun v hv => ?_
      have hother : v.id ≠ draws.versionId := hfresh.version set (mem_of_find?_eq_some hset) v hv
      rw [hid]
      simpa using hother
    show (set.versions.entries ++ [version]).find? _ = _
    rw [List.find?_append, hunused, none_or]
    exact List.find?_cons_of_pos (by simp)

/-- A key that was used answers the same change with its version, and refuses any other. -/
theorem run_of_replay (hreplay : s.replay key hash = .ok (some version)) (hkey : call.key = key) :
    (call.hash = hash → call.run.run s = (.ok version, s))
      ∧ (call.hash ≠ hash → call.run.run s = (.error (.conflict
        "idempotency key was used for another question change"), s)) := by
  subst hkey
  obtain ⟨entry, hentry, hhash, -⟩ := replay_eq_some.mp hreplay
  have hother : call.hash ≠ hash → s.replay call.key call.hash = .error (.conflict
      "idempotency key was used for another question change") := by
    intro hne
    have hdiffers : entry.requestHash ≠ call.hash := fun hsame => hne (hsame.symm.trans hhash)
    simp only [replay, hentry, Except.failIf, if_pos hdiffers]
    rfl
  constructor
  · rintro rfl
    cases call with
    | createSet command =>
      have hrun : s.replay command.idempotencyKey (createQuestionRequestHash command) = .ok (some version) := hreplay
      simp only [QuestionCall.run, createSet, Op.run, bind, Op.read, Op.lift, hrun]
      rfl
    | reviseSet setId command =>
      have hrun : s.replay command.idempotencyKey (reviseQuestionRequestHash setId command)
        = .ok (some version) := hreplay
      simp only [QuestionCall.run, reviseSet, Op.run, bind, Op.read, Op.lift, hrun]
      rfl
  · intro hne
    have hrefused := hother hne
    cases call with
    | createSet command =>
      have hrun : s.replay command.idempotencyKey (createQuestionRequestHash command) = _ := hrefused
      simp only [QuestionCall.run, createSet, Op.run, bind, Op.read, Op.lift, hrun]
    | reviseSet setId command =>
      have hrun : s.replay command.idempotencyKey (reviseQuestionRequestHash setId command) = _ := hrefused
      simp only [QuestionCall.run, reviseSet, Op.run, bind, Op.read, Op.lift, hrun]

/-! ### Every run -/

theorem question_step (h : (questionMachine.restrict QuestionIdsFresh).step s e s') :
    (s' = s ∧ ∀ call version, e ≠ .call call (.ok version))
      ∨ ∃ call version, e = .call call (.ok version) ∧ FreshQuestionDraws s call.draws
        ∧ QuestionEffect s call version s' := by
  obtain ⟨hfresh, hstep⟩ := h
  cases e with
  | reorder => exact .inl ⟨hstep, by simp⟩
  | call call reply =>
    cases reply with
    | error err => exact .inl ⟨callMachine.step_failed (questionCall_atomic call) hstep, by simp⟩
    | ok version => exact .inr ⟨call, version, rfl, hfresh, run_questionEffect hstep⟩

theorem QuestionShape.step (hs : QuestionShape s) (h : (questionMachine.restrict QuestionIdsFresh).step s e s') :
    QuestionShape s' ∧ QuestionsGrown s s' := by
  rcases question_step h with ⟨rfl, -⟩ | ⟨call, version, -, hfresh, heffect⟩
  · exact ⟨hs, .refl s'⟩
  · exact hs.effect hfresh heffect

omit [Sha256] in
/-- Texts that are the same when normalized have one purpose, in whichever versions they are. -/
theorem QuestionShape.one_purpose (hs : QuestionShape s) {set' : QuestionSetRecord} {version' : QuestionSetVersion}
    {question question' : QuestionRevision} (hset : set ∈ s.sets) (hset' : set' ∈ s.sets)
    (hversion : version ∈ set.versions.entries) (hversion' : version' ∈ set'.versions.entries)
    (hquestion : question ∈ version.questions) (hquestion' : question' ∈ version'.questions)
    (htext : normalizeQuestionText question.text = normalizeQuestionText question'.text) :
    question.questionId = question'.questionId ∧ question.purpose = question'.purpose := by
  obtain ⟨_, hmem, hbelongs⟩ := ((hs.sets set hset).versions version hversion).belong question hquestion
  obtain ⟨_, hmem', hbelongs'⟩ := ((hs.sets set' hset').versions version' hversion').belong question' hquestion'
  have hreserved := hbelongs.reserved
  rw [htext] at hreserved
  obtain rfl := hs.registry.eq_of_alias hmem hmem' hreserved hbelongs'.reserved
  exact ⟨hbelongs.id.trans hbelongs'.id.symm, hbelongs.purpose.trans hbelongs'.purpose.symm⟩

omit [Sha256] in
theorem StoredSet.numbered (h : StoredSet l set) : NumberedList QuestionSetVersion.revision set.versions.entries := by
  have hchain := h.chain.imp (S := fun v v' => v'.revision = v.revision + 1) fun _ _ hnext => hnext.revision
  rw [NumberedList, hchain.numbered, h.firstRevision]

omit [Sha256] in
theorem StoredVersion.counts (h : StoredVersion l setId version) :
    version.optimizationCount + version.evaluationCount = version.questions.length := by
  have hboth := length_eq_countP_add_countP (fun question : QuestionRevision => question.purpose = .frozenEvaluation)
    (l := version.questions)
  have hother : (version.questions.countP fun question =>
      ¬ decide (question.purpose = QuestionPurpose.frozenEvaluation) = true)
      = version.questions.countP fun question => question.purpose = .optimization := by
    refine countP_congr fun question _ => ?_
    cases question.purpose <;> simp
  rw [h.optimization, h.evaluation]
  omega

/-- The held-out split never leaks. Identities share no alias and keep their aliases and their purpose, exactly one
in five is for evaluation, rounded up, and no text is ever asked for both purposes; the versions of a set are
numbered and linked and never change; a key answers its change for good, and a failing call changes nothing. -/
theorem questionRegistry_heldOut {seed : Uuid} {events : List QuestionEvent}
    (hrun : (questionMachine.restrict QuestionIdsFresh).Run (.new seed) events s) :
    Registry s.identities ∧ s.enrolledCount = s.identities.length
      ∧ (s.identities.countP fun identity => identity.purpose = .frozenEvaluation) = divCeil s.enrolledCount 5
      ∧ (∀ set ∈ s.sets, ∀ set' ∈ s.sets, ∀ version ∈ set.versions.entries,
        ∀ version' ∈ set'.versions.entries, ∀ question ∈ version.questions,
        ∀ question' ∈ version'.questions, normalizeQuestionText question.text = normalizeQuestionText question'.text →
          question.purpose = question'.purpose)
      ∧ (∀ set ∈ s.sets, StoredSet s.identities set ∧ NumberedList QuestionSetVersion.revision set.versions.entries
        ∧ ∀ version ∈ set.versions.entries,
          version.optimizationCount + version.evaluationCount = version.questions.length)
      ∧ (∀ later s', (questionMachine.restrict QuestionIdsFresh).Run s later s' → QuestionsGrown s s')
      ∧ (∀ call version, .call call (.ok version) ∈ events → ∀ again : QuestionCall,
        again.key = call.key →
          (again.hash = call.hash → again.run.run s = (.ok version, s))
            ∧ (again.hash ≠ call.hash → ∃ err, again.run.run s = (.error err, s)))
      ∧ ∀ (call : QuestionCall) err s', call.run.Fails s err s' → s' = s := by
  have hall : QuestionShape s ∧ ∀ call version, .call call (.ok version) ∈ events →
      s.replay call.key call.hash = .ok (some version) := by
    refine hrun.history (I := fun events s => QuestionShape s ∧ ∀ call version,
      .call call (.ok version) ∈ events → s.replay call.key call.hash = .ok (some version)) ?_
      ⟨.new seed, by simp⟩
    rintro events s e s' ⟨hs, hanswers⟩ hstep
    refine ⟨(hs.step hstep).1, fun call version hmem => ?_⟩
    rcases question_step hstep with ⟨rfl, hnone⟩ | ⟨made, filed, rfl, hfresh, heffect⟩
    · rcases mem_append.mp hmem with hold | hnew
      · exact hanswers call version hold
      · exact absurd (mem_singleton.mp hnew).symm (hnone call version)
    · rcases mem_append.mp hmem with hold | hnew
      · exact heffect.replay_kept (hanswers call version hold)
      · obtain ⟨rfl, hreply⟩ := CallEvent.call.inj (mem_singleton.mp hnew)
        obtain rfl := Except.ok.inj hreply
        exact heffect.answers hfresh
  obtain ⟨hs, hanswers⟩ := hall
  refine ⟨hs.registry, hs.enrolled, hs.evaluation, ?purposes, ?sets, ?grown, ?replays, ?failed⟩
  case purposes =>
    intro set hset set' hset' version hversion version' hversion' question hquestion question' hquestion' htext
    exact (hs.one_purpose hset hset' hversion hversion' hquestion hquestion' htext).2
  case sets =>
    intro set hset
    have hstored := hs.sets set hset
    exact ⟨hstored, hstored.numbered, fun version hversion =>
      (hstored.versions version hversion).counts⟩
  case grown =>
    intro later s' hlater
    exact hlater.relates (I := QuestionShape) (R := QuestionsGrown) (fun _ _ _ hs hstep => (hs.step hstep).1) .refl
      (fun _ _ _ => .trans) (fun _ _ _ hs hstep => (hs.step hstep).2) hs
  case replays =>
    intro call version hmem again hkey
    obtain ⟨hsame, hother⟩ := run_of_replay (hanswers call version hmem) hkey
    exact ⟨hsame, fun hne => ⟨_, hother hne⟩⟩
  case failed => exact fun call err s' hfails => (questionCall_atomic call).failed s err s' hfails

end Calls

namespace Sample

/-- The Unicode tables of the samples, which are written in ASCII. -/
@[reducible] def asciiText : UnicodeText :=
  ⟨id, fun c => [c.toLower]⟩

def question (text : String) : QuestionDraft :=
  { questionId := none, text, intent := "buy", productRefs := [], market := "global"
    language := "en", source := { kind := .faq, referenceId := none }, weight := 1 }

def draws : QuestionDraws :=
  { setId := uuid 1, identityId := fun i => uuid (100 + i), revisionId := fun i => uuid (200 + i)
    versionId := uuid 2 }

/-- A set of two questions is created. -/
def createQuestions : QuestionCall :=
  .createSet
    { idempotencyKey := "k", name := "Buyers"
      questions := [question "Which one?", question "How much?"] } draws 0

theorem draws_fresh (seed : Uuid) : FreshQuestionDraws (.new seed) draws where
  set set h := by simp [QuestionProjectState.new] at h
  version set h := by simp [QuestionProjectState.new] at h
  identity identity h := by simp [QuestionProjectState.new] at h
  distinct := by decide +kernel

end Sample

open Sample

theorem questionRegistry_heldOut_sample :
    ∃ s version, s.identities.length = 2 ∧ (s.identities.countP fun identity => identity.purpose = .frozenEvaluation)
      = 1 ∧ (@QuestionCall.run secureHash asciiText createQuestions).run s = (.ok version, s) := by
  let run : QuestionCall → QuestionOp QuestionSetVersion :=
    @QuestionCall.run secureHash asciiText
  let calls : List QuestionCall := [createQuestions]
  have hrun : ((@questionMachine secureHash asciiText).restrict QuestionIdsFresh).Run
      (.new (uuid 7)) (trace run (.new (uuid 7)) calls) (after run (.new (uuid 7)) calls) :=
    run_trace calls _ ⟨draws_fresh _, trivial⟩
  have hcreated : ((run createQuestions).run (.new (uuid 7))).1.toOption.isSome
      ∧ (after run (.new (uuid 7)) calls).enrolledCount = 2 := by
    decide +kernel
  obtain ⟨hreturned, hcount⟩ := hcreated
  obtain ⟨-, henrolled, hevaluation, -, -, -, hreplays, -⟩ :=
    @questionRegistry_heldOut secureHash asciiText _ _ _ hrun
  rw [hcount] at henrolled hevaluation
  cases hreply : ((run createQuestions).run (.new (uuid 7))).1 with
  | error err =>
    rw [hreply] at hreturned
    simp [Except.toOption] at hreturned
  | ok version =>
    have hmem : .call createQuestions (.ok version)
        ∈ trace run (.new (uuid 7)) calls := by
      rw [← hreply]
      exact mem_cons_self
    have hagain := (hreplays _ _ hmem createQuestions rfl).1 rfl
    exact ⟨_, version, henrolled.symm, hevaluation, hagain⟩

end GeoMaster
