import Mathlib.Data.List.Dedup
import GeoMaster.Domain.Questions

/-!
# Identities of questions

`Registry` says that the identities of a project share neither an ID nor an alias. Resolving drafts finds the one
identity a text belongs to, enrolling new texts adds identities of their own, and the revisions of a version
reserve their texts one after the other; all three keep the registry, and no identity loses an alias or changes
its purpose.
-/

namespace GeoMaster

open Except List Option

open QuestionProjectState

/-! ### The registry -/

/-- Two identities that are told apart by their IDs and by their aliases. -/
structure Apart (a b : QuestionIdentity) : Prop where
  id : a.id ≠ b.id
  aliases : a.aliases.Disjoint b.aliases

instance : Std.Symm Apart :=
  ⟨fun _ _ h => ⟨h.id.symm, disjoint_left.mpr fun _ hb ha => h.aliases ha hb⟩⟩

/-- Identities that are told apart from each other. -/
def Registry (identities : List QuestionIdentity) : Prop :=
  identities.Pairwise Apart

/-- An identity that at most reserved more aliases. -/
structure KeepsIdentity (a b : QuestionIdentity) : Prop where
  id : b.id = a.id
  purpose : b.purpose = a.purpose
  splitPolicyVersion : b.splitPolicyVersion = a.splitPolicyVersion
  aliases : a.aliases <+: b.aliases

theorem KeepsIdentity.refl (a : QuestionIdentity) : KeepsIdentity a a :=
  ⟨rfl, rfl, rfl, prefix_refl _⟩

theorem KeepsIdentity.trans {a b c : QuestionIdentity} (h : KeepsIdentity a b)
    (h' : KeepsIdentity b c) : KeepsIdentity a c where
  id := h'.id.trans h.id
  purpose := h'.purpose.trans h.purpose
  splitPolicyVersion := h'.splitPolicyVersion.trans h.splitPolicyVersion
  aliases := h.aliases.trans h'.aliases

/-- Identities that at most reserved more aliases, in their places. -/
def KeepsIdentities (l l' : List QuestionIdentity) : Prop :=
  List.Forall₂ KeepsIdentity l l'

variable {l l' l'' : List QuestionIdentity} {a b : QuestionIdentity} {id : Uuid} {norm : String}

theorem KeepsIdentities.refl (l : List QuestionIdentity) : KeepsIdentities l l :=
  forall₂_same.mpr fun a _ => .refl a

theorem KeepsIdentities.trans (h : KeepsIdentities l l') (h' : KeepsIdentities l' l'') : KeepsIdentities l l'' := by
  induction h generalizing l'' with
  | nil => exact h'
  | cons hab _ ih =>
    cases h' with
    | cons hbc hrest => exact .cons (hab.trans hbc) (ih hrest)

theorem KeepsIdentities.forward (h : KeepsIdentities l l') (ha : a ∈ l) : ∃ b ∈ l', KeepsIdentity a b := by
  induction h with
  | nil => simp at ha
  | cons hab _ ih =>
    rcases mem_cons.mp ha with rfl | ha
    · exact ⟨_, mem_cons_self, hab⟩
    · obtain ⟨b, hb, hkeeps⟩ := ih ha
      exact ⟨b, mem_cons_of_mem _ hb, hkeeps⟩

theorem KeepsIdentities.countP (h : KeepsIdentities l l') (purpose : QuestionPurpose) :
    (l'.countP fun identity => identity.purpose = purpose) = l.countP fun identity => identity.purpose = purpose := by
  induction h with
  | nil => rfl
  | cons hab _ ih => rw [countP_cons, countP_cons, ih, hab.purpose]

theorem Registry.eq_of_id (h : Registry l) (ha : a ∈ l) (hb : b ∈ l) (hid : a.id = b.id) : a = b := by
  by_contra hne
  exact (List.Pairwise.forall h ha hb hne).id hid

theorem Registry.eq_of_alias (h : Registry l) (ha : a ∈ l) (hb : b ∈ l) (hna : norm ∈ a.aliases)
    (hnb : norm ∈ b.aliases) : a = b := by
  by_contra hne
  exact (List.Pairwise.forall h ha hb hne).aliases hna hnb

/-! ### Reserving an alias -/

/-- An identity after it reserved a text. -/
def withAlias (norm : String) (identity : QuestionIdentity) : QuestionIdentity :=
  if norm ∈ identity.aliases then identity
  else { identity with aliases := identity.aliases ++ [norm] }

theorem keepsIdentity_withAlias (norm : String) (identity : QuestionIdentity) :
    KeepsIdentity identity (withAlias norm identity) := by
  unfold withAlias
  split
  · exact .refl _
  · exact ⟨rfl, rfl, rfl, prefix_append _ _⟩

theorem mem_withAlias {text : String} : text ∈ (withAlias norm a).aliases ↔ text ∈ a.aliases ∨ text = norm := by
  unfold withAlias
  split
  · rename_i hmem
    constructor
    · exact .inl
    · rintro (htext | rfl)
      · exact htext
      · exact hmem
  · simp

/-- The first identity with the ID reserves the text. -/
theorem reserveAlias_eq_map (h : Registry l) :
    reserveAlias id norm l = l.map fun a => if a.id = id then withAlias norm a else a := by
  induction l with
  | nil => rfl
  | cons a rest ih =>
    obtain ⟨hfirst, hrest⟩ := pairwise_cons.mp h
    rw [reserveAlias, map_cons]
    by_cases hid : a.id = id
    · have hothers : (rest.map fun b => if b.id = id then withAlias norm b else b) = rest := by
        refine (map_congr_left fun b hb => ?_).trans (map_id rest)
        rw [if_neg fun hsame => (hfirst b hb).id (hid.trans hsame.symm)]
        rfl
      rw [if_pos hid, if_pos hid, hothers]
      rfl
    · rw [if_neg hid, if_neg hid, ih hrest]

theorem reserveAlias_keeps (id : Uuid) (norm : String) (h : Registry l) :
    KeepsIdentities l (reserveAlias id norm l) := by
  rw [reserveAlias_eq_map h]
  refine forall₂_map_right_iff.mpr (forall₂_same.mpr fun a _ => ?_)
  split
  · exact keepsIdentity_withAlias norm a
  · exact .refl a

/-- Reserving a text that no other identity has keeps the registry. -/
theorem Registry.reserveAlias (h : Registry l)
    (hfree : ∀ a ∈ l, norm ∈ a.aliases → a.id = id) : Registry (reserveAlias id norm l) := by
  rw [reserveAlias_eq_map h]
  refine pairwise_map.mpr (List.Pairwise.imp_of_mem (fun {a b} ha hb hab => ?_) h)
  have hkeeps (c : QuestionIdentity) : (if c.id = id then withAlias norm c else c).id = c.id := by
    split
    · exact (keepsIdentity_withAlias norm c).id
    · rfl
  refine ⟨by rw [hkeeps, hkeeps]; exact hab.id, ?_⟩
  by_cases hida : a.id = id
  · rw [if_pos hida, if_neg fun hidb => hab.id (hida.trans hidb.symm)]
    intro text hta htb
    rcases mem_withAlias.mp hta with hta | rfl
    · exact hab.aliases hta htb
    · exact hab.id (hida.trans (hfree b hb htb).symm)
  · rw [if_neg hida]
    split
    · intro text hta htb
      rcases mem_withAlias.mp htb with htb | rfl
      · exact hab.aliases hta htb
      · exact hida (hfree a ha hta)
    · exact hab.aliases

/-- The texts an identity has after one was reserved. -/
theorem reserveAlias_backward (h : Registry l) (hb : b ∈ reserveAlias id norm l) :
    ∃ a ∈ l, b.id = a.id ∧ ∀ text ∈ b.aliases, text ∈ a.aliases ∨ text = norm := by
  rw [reserveAlias_eq_map h] at hb
  obtain ⟨a, ha, rfl⟩ := mem_map.mp hb
  refine ⟨a, ha, ?_⟩
  split
  · exact ⟨(keepsIdentity_withAlias norm a).id, fun text => mem_withAlias.mp⟩
  · exact ⟨rfl, fun text => .inl⟩

/-! ### Resolving -/

theorem aliasOwner_eq_none : aliasOwner l norm = none ↔ ∀ a ∈ l, norm ∉ a.aliases := by
  simp [aliasOwner]

theorem Registry.aliasOwner_eq_some (h : Registry l) (hfound : aliasOwner l norm = some id) :
    (∃ a ∈ l, a.id = id) ∧ ∀ a ∈ l, norm ∈ a.aliases → a.id = id := by
  obtain ⟨owner, hfind, hid⟩ := map_eq_some_iff.mp hfound
  have hmem := mem_reverse.mp (mem_of_find?_eq_some hfind)
  have hnorm : norm ∈ owner.aliases := by simpa using List.find?_some hfind
  refine ⟨⟨owner, hmem, hid⟩, fun a ha hna => ?_⟩
  rw [h.eq_of_alias ha hmem hna hnorm, hid]

/-- What a resolved draft tells about the registry. -/
def ResolvedIn (l : List QuestionIdentity) (norm : String) : Option Uuid → Prop
  | none => ∀ a ∈ l, norm ∉ a.aliases
  | some id => (∃ a ∈ l, a.id = id) ∧ ∀ a ∈ l, norm ∈ a.aliases → a.id = id

variable {base : Option QuestionSetVersion} {resolved : List (Option Uuid)}

theorem Registry.resolveDraft_ok (h : Registry l) {draft : QuestionDraft}
    {resolved : Option Uuid} (hok : resolveDraft l base draft norm = .ok resolved) : ResolvedIn l norm resolved := by
  unfold resolveDraft at hok
  cases hid : draft.questionId with
  | none =>
    rw [hid] at hok
    obtain rfl := pure_eq_ok.mp hok
    cases howner : aliasOwner l norm with
    | none => exact aliasOwner_eq_none.mp howner
    | some owner => exact h.aliasOwner_eq_some howner
  | some id =>
    rw [hid] at hok
    simp only [eq_ok_iff, not_not] at hok
    obtain ⟨_, -, _, hfree, _, hknown, rfl⟩ := hok
    refine ⟨hknown, fun a ha hna => ?_⟩
    cases howner : aliasOwner l norm with
    | none => exact absurd hna (aliasOwner_eq_none.mp howner a ha)
    | some owner =>
      have hsame : owner = id := by
        by_contra hne
        exact hfree ⟨owner, howner, hne⟩
      rw [← hsame]
      exact (h.aliasOwner_eq_some howner).2 a ha hna

theorem Registry.resolveDrafts_ok (h : Registry l) {items : List (QuestionDraft × String)}
    (hok : resolveDrafts l base items = .ok resolved) :
    List.Forall₂ (fun item id => ResolvedIn l item.2 id) items resolved := by
  induction items generalizing resolved with
  | nil =>
    obtain rfl := pure_eq_ok.mp hok
    exact .nil
  | cons _ _ ih =>
    simp only [resolveDrafts, eq_ok_iff] at hok
    obtain ⟨_, hid, _, hids, rfl⟩ := hok
    exact .cons (h.resolveDraft_ok hid) (ih hids)

/-! ### Enrolling -/

theorem mem_newTexts {normalized : List String} {text : String} :
    text ∈ newTexts normalized resolved ↔ (text, none) ∈ normalized.zip resolved := by
  simp only [newTexts, List.mem_insertionSort, List.mem_dedup, List.mem_map, List.mem_filter, decide_eq_true_eq]
  constructor
  · rintro ⟨⟨_, _⟩, ⟨hmem, rfl⟩, rfl⟩
    exact hmem
  · intro hmem
    exact ⟨(text, none), ⟨hmem, rfl⟩, rfl⟩

theorem newTexts_nodup (normalized : List String) (resolved : List (Option Uuid)) :
    (newTexts normalized resolved).Nodup :=
  (perm_insertionSort _ _).nodup_iff.mpr (nodup_dedup _)

theorem length_newTexts_le (normalized : List String) (resolved : List (Option Uuid)) :
    (newTexts normalized resolved).length ≤ normalized.length := by
  rw [newTexts, length_insertionSort]
  refine (dedup_sublist _).length_le.trans ?_
  rw [length_map]
  refine (length_filter_le _ _).trans ?_
  rw [length_zip]
  exact Nat.min_le_left _ _

/-- How many elements are among the first ones of a rearranged list. -/
theorem countP_mem_take {α : Type} [DecidableEq α] {l l' : List α} (hperm : l'.Perm l)
    (hnodup : l.Nodup) {n : Nat} (hn : n ≤ l.length) : l.countP (fun a => a ∈ l'.take n) = n := by
  have hsplit : l'.take n ++ l'.drop n = l' := take_append_drop n l'
  have hparts : (l'.take n ++ l'.drop n).Nodup := by
    rw [hsplit]
    exact hperm.nodup_iff.mpr hnodup
  have hdisjoint := disjoint_of_nodup_append hparts
  have htaken : (l'.take n).countP (fun a => a ∈ l'.take n) = n := by
    rw [countP_eq_length.mpr fun a ha => decide_eq_true ha, length_take, hperm.length_eq, Nat.min_eq_left hn]
  have hdropped : (l'.drop n).countP (fun a => a ∈ l'.take n) = 0 := by
    rw [countP_eq_zero]
    intro a ha htake
    exact hdisjoint (of_decide_eq_true htake) ha
  calc l.countP (fun a => a ∈ l'.take n) = l'.countP (fun a => a ∈ l'.take n) := (hperm.countP_eq _).symm
    _ = (l'.take n ++ l'.drop n).countP (fun a => a ∈ l'.take n) := by rw [hsplit]
    _ = n := by rw [List.countP_append, htaken, hdropped, Nat.add_zero]

section Enroll

variable [Sha256] {seed : Uuid} {draws : QuestionDraws} {slots : Nat} {texts : List String}

theorem length_enroll : (enroll seed draws slots texts).length = texts.length := by
  simp [enroll]

/-- As many identities as there are slots are for evaluation. -/
theorem countP_enroll (hnodup : texts.Nodup) (hslots : slots ≤ texts.length) :
    (enroll seed draws slots texts).countP (fun identity =>
      identity.purpose = QuestionPurpose.frozenEvaluation) = slots := by
  have hranked := perm_insertionSort (fun a b => splitRank seed a ≤ splitRank seed b) texts
  rw [enroll, countP_map]
  have hpurpose : ∀ e ∈ texts.zipIdx,
      ((fun identity : QuestionIdentity => decide (identity.purpose = QuestionPurpose.frozenEvaluation)) ∘
        fun (e : String × Nat) =>
          { id := draws.identityId e.2
            purpose :=
              if e.1 ∈ (texts.insertionSort fun a b => splitRank seed a ≤ splitRank seed b).take
                slots then QuestionPurpose.frozenEvaluation else .optimization
            splitPolicyVersion := questionSplitPolicyVersion
            aliases := [e.1] }) e = true
        ↔ ((fun text => decide (text ∈ (texts.insertionSort fun a b =>
          splitRank seed a ≤ splitRank seed b).take slots)) ∘ Prod.fst) e = true := by
    intro e _
    simp
  refine (countP_congr hpurpose).trans ?_
  rw [← countP_map, zipIdx_map_fst]
  exact countP_mem_take hranked hnodup hslots

theorem mem_enroll (ha : a ∈ enroll seed draws slots texts) :
    ∃ text i, texts[i]? = some text ∧ a.id = draws.identityId i ∧ a.aliases = [text] := by
  obtain ⟨⟨text, i⟩, hmem, rfl⟩ := mem_map.mp ha
  exact ⟨text, i, mem_zipIdx_iff_getElem?.mp hmem, rfl, rfl⟩

theorem enroll_registry
    (hdistinct : ∀ i < texts.length, ∀ j < texts.length,
      draws.identityId i = draws.identityId j → i = j) (hnodup : texts.Nodup) :
    Registry (enroll seed draws slots texts) := by
  refine pairwise_map.mpr (pairwise_iff_getElem.mpr fun i j hi hj hij => ?_)
  rw [length_zipIdx] at hi hj
  refine ⟨fun hsame => ?_, ?_⟩
  · simp only [List.getElem_zipIdx, Nat.zero_add] at hsame
    have hindex := hdistinct i hi j hj hsame
    omega
  · simp only [List.getElem_zipIdx, disjoint_singleton, mem_singleton]
    intro hsame
    have hindex := (List.Nodup.getElem_inj_iff hnodup).mp hsame
    omega

theorem Registry.enroll (h : Registry l) (seed : Uuid) (slots : Nat)
    (hdistinct : ∀ i < texts.length, ∀ j < texts.length, draws.identityId i = draws.identityId j → i = j)
    (hfresh : ∀ a ∈ l, ∀ i < texts.length, a.id ≠ draws.identityId i) (hnodup : texts.Nodup)
    (hnew : ∀ text ∈ texts, ∀ a ∈ l, text ∉ a.aliases) : Registry (l ++ enroll seed draws slots texts) := by
  refine pairwise_append.mpr ⟨h, enroll_registry hdistinct hnodup, fun a ha b hb => ?_⟩
  obtain ⟨text, i, htext, hid, haliases⟩ := mem_enroll hb
  refine ⟨by rw [hid]; exact hfresh a ha i (List.getElem?_eq_some_iff.mp htext).1, ?_⟩
  rw [haliases, disjoint_singleton]
  exact hnew text (mem_of_getElem? htext) a ha

end Enroll

/-! ### Revisions -/

section Revisions

variable [UnicodeText]

/-- A revision is a question of an identity. -/
structure Belongs (identity : QuestionIdentity) (revision : QuestionRevision) : Prop where
  id : revision.questionId = identity.id
  purpose : revision.purpose = identity.purpose
  splitPolicyVersion : revision.splitPolicyVersion = identity.splitPolicyVersion
  reserved : normalizeQuestionText revision.text ∈ identity.aliases

/-- Every revision of some is a question of an identity. -/
def AllBelong (l : List QuestionIdentity) (revisions : List QuestionRevision) : Prop :=
  ∀ revision ∈ revisions, ∃ identity ∈ l, Belongs identity revision

variable {revisions : List QuestionRevision} {base : Option QuestionSetVersion} {draft : QuestionDraft}
  {resolved : Option Uuid}

theorem AllBelong.kept (h : AllBelong l revisions) (hkeeps : KeepsIdentities l l') : AllBelong l' revisions := by
  intro revision hmem
  obtain ⟨_, ha, hbelongs⟩ := h revision hmem
  obtain ⟨b, hb, hab⟩ := hkeeps.forward ha
  exact ⟨b, hb, hbelongs.id.trans hab.id.symm, hbelongs.purpose.trans hab.purpose.symm,
    hbelongs.splitPolicyVersion.trans hab.splitPolicyVersion.symm, hab.aliases.subset hbelongs.reserved⟩

/-- Drafts with their normalized texts, each resolved to the owner of its text if there is one. -/
structure WellResolved (l : List QuestionIdentity) (items : List ResolvedDraft) : Prop where
  normalized : ∀ item ∈ items, item.1.2 = normalizeQuestionText item.1.1.text
  distinct : (items.map fun item => item.1.2).Nodup
  owned : ∀ item ∈ items, ∀ id, item.2 = some id → ∀ a ∈ l, item.1.2 ∈ a.aliases → a.id = id

/-- What the revisions of some drafts come to. -/
structure RevisedQuestions (usedIds : List Uuid) (l l' : List QuestionIdentity)
    (items : List ResolvedDraft) (revisions : List QuestionRevision) : Prop where
  keeps : KeepsIdentities l l'
  registry : Registry l'
  texts : revisions.map (fun revision => normalizeQuestionText revision.text) = items.map fun item => item.1.2
  unused : ∀ revision ∈ revisions, revision.questionId ∉ usedIds
  distinct : (revisions.map QuestionRevision.questionId).Nodup
  belong : AllBelong l' revisions

omit [UnicodeText] in
theorem unchanged_eq_some {old : QuestionRevision} (h : unchanged base id draft = some old) :
    (∃ version ∈ base, old ∈ version.questions) ∧ old.questionId = id ∧ old.text = draft.text := by
  obtain ⟨version, hversion, hfind⟩ := bind_eq_some_iff.mp h
  have hold := List.find?_some hfind
  simp only [decide_eq_true_eq] at hold
  exact ⟨⟨version, hversion, mem_of_find?_eq_some hfind⟩, hold.1, hold.2.1⟩

/-- The revision of a draft is of its identity, whether it is new or repeated. -/
theorem revision_belongs {identity : QuestionIdentity}
    (draft : QuestionDraft) (revisionId : Uuid) (hl : Registry l) (hmem : identity ∈ l)
    (hbase : ∀ version ∈ base, AllBelong l version.questions) :
    Belongs (withAlias (normalizeQuestionText draft.text) identity)
        ((unchanged base identity.id draft).getD (revisionOf revisionId identity draft))
      ∧ ((unchanged base identity.id draft).getD (revisionOf revisionId identity draft)).text = draft.text := by
  have hkept := keepsIdentity_withAlias (normalizeQuestionText draft.text) identity
  have hreserved : normalizeQuestionText draft.text ∈ (withAlias (normalizeQuestionText draft.text) identity).aliases :=
    mem_withAlias.mpr (.inr rfl)
  cases hunchanged : unchanged base identity.id draft with
  | none =>
    rw [getD_none]
    exact ⟨⟨hkept.id.symm, hkept.purpose.symm, hkept.splitPolicyVersion.symm, hreserved⟩, rfl⟩
  | some old =>
    obtain ⟨⟨version, hversion, hold⟩, hsameId, htext⟩ := unchanged_eq_some hunchanged
    obtain ⟨owner, howner, hbelongs⟩ := hbase version hversion old hold
    have hsame : owner = identity := hl.eq_of_id howner hmem (by rw [← hbelongs.id, hsameId])
    rw [hsame] at hbelongs
    rw [getD_some]
    refine ⟨⟨hbelongs.id.trans hkept.id.symm, hbelongs.purpose.trans hkept.purpose.symm,
      hbelongs.splitPolicyVersion.trans hkept.splitPolicyVersion.symm, ?_⟩, htext⟩
    rw [htext]
    exact hreserved

/-- Whoever has the text of a draft already is the identity the draft was resolved to. -/
theorem WellResolved.owner {rest : List ResolvedDraft}
    (hl : Registry l) (hitems : WellResolved l (((draft, norm), resolved) :: rest))
    (hid : (resolved <|> (l.find? fun identity => norm ∈ identity.aliases).map
      QuestionIdentity.id) = some id) : ∀ a ∈ l, norm ∈ a.aliases → a.id = id := by
  intro a ha hna
  cases resolved with
  | some known =>
    obtain rfl : known = id := some.inj hid
    exact hitems.owned _ mem_cons_self known rfl a ha hna
  | none =>
    obtain ⟨owner, howner, hownerId⟩ := map_eq_some_iff.mp hid
    have hhas : norm ∈ owner.aliases := by simpa using List.find?_some howner
    rw [hl.eq_of_alias ha (mem_of_find?_eq_some howner) hna hhas, hownerId]

theorem WellResolved.rest {rest : List ResolvedDraft} (hl : Registry l)
    (hitems : WellResolved l (((draft, norm), resolved) :: rest)) : WellResolved (reserveAlias id norm l) rest := by
  obtain ⟨hfresh, hdistinct⟩ := nodup_cons.mp hitems.distinct
  refine ⟨fun other hother => hitems.normalized other (mem_cons_of_mem _ hother), hdistinct,
    fun other hother known hknown b hb htext => ?_⟩
  obtain ⟨a, ha, hsame, hold⟩ := reserveAlias_backward hl hb
  rw [hsame]
  refine hitems.owned other (mem_cons_of_mem _ hother) known hknown a ha ?_
  rcases hold _ htext with hin | hnew
  · exact hin
  · exact absurd (List.mem_map.mpr ⟨other, hother, hnew⟩) hfresh

/-- The revisions of well resolved drafts. -/
theorem reviseQuestions_ok {draws : QuestionDraws} {i : Nat} {usedIds : List Uuid}
    {items : List ResolvedDraft} (hl : Registry l) (hitems : WellResolved l items)
    (hbase : ∀ version ∈ base, AllBelong l version.questions)
    (h : reviseQuestions base draws i usedIds l items = .ok (l', revisions)) :
    RevisedQuestions usedIds l l' items revisions := by
  induction items generalizing i usedIds l revisions with
  | nil =>
    obtain ⟨rfl, rfl⟩ := Prod.mk.inj (pure_eq_ok.mp h)
    exact ⟨.refl l, hl, rfl, by simp, by simp, by simp [AllBelong]⟩
  | cons item rest ih =>
    obtain ⟨⟨draft, norm⟩, _⟩ := item
    simp only [reviseQuestions, eq_ok_iff] at h
    obtain ⟨id, hid, _, hunused, identity, hfind, ⟨_, _⟩, hrest, heq⟩ := h
    obtain ⟨hlast, hrevisions⟩ := Prod.mk.inj heq
    subst hlast
    have hmem := mem_of_find?_eq_some hfind
    have hidentity : identity.id = id := by simpa using List.find?_some hfind
    subst hidentity
    obtain rfl : norm = normalizeQuestionText draft.text := hitems.normalized _ mem_cons_self
    have hkeeps := reserveAlias_keeps identity.id (normalizeQuestionText draft.text) hl
    have hdone := ih (hl.reserveAlias (hitems.owner hl hid)) (hitems.rest hl)
      (fun version hversion => (hbase version hversion).kept hkeeps) hrest
    obtain ⟨hbelongs, htext⟩ := revision_belongs draft (draws.revisionId i) hl hmem hbase
    generalize (unchanged base identity.id draft).getD
      (revisionOf (draws.revisionId i) identity draft) = revision at hrevisions hbelongs htext
    subst hrevisions
    have hquestion : revision.questionId = identity.id := by
      rw [hbelongs.id, (keepsIdentity_withAlias _ identity).id]
    have hstored : withAlias (normalizeQuestionText draft.text) identity
        ∈ reserveAlias identity.id (normalizeQuestionText draft.text) l := by
      rw [reserveAlias_eq_map hl]
      exact List.mem_map.mpr ⟨identity, hmem, if_pos rfl⟩
    have hfirst : AllBelong (reserveAlias identity.id (normalizeQuestionText draft.text) l) [revision] := by
      intro other hother
      obtain rfl := mem_singleton.mp hother
      exact ⟨_, hstored, hbelongs⟩
    refine ⟨hkeeps.trans hdone.keeps, hdone.registry, ?texts, ?unused, ?distinct, ?belong⟩
    case texts => rw [map_cons, map_cons, hdone.texts, htext]
    case unused =>
      refine forall_mem_cons.mpr ⟨by rw [hquestion]; exact hunused, fun other hother hused => ?_⟩
      exact hdone.unused other hother (mem_cons_of_mem _ hused)
    case distinct =>
      refine nodup_cons.mpr ⟨fun hother => ?_, hdone.distinct⟩
      obtain ⟨other, hmemOther, hsame⟩ := mem_map.mp hother
      refine hdone.unused other hmemOther ?_
      rw [hsame, hquestion]
      exact mem_cons_self
    case belong => exact forall_mem_cons.mpr ⟨hfirst.kept hdone.keeps _ (mem_singleton_self _), hdone.belong⟩

end Revisions

end GeoMaster
