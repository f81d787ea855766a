import GeoMaster.Proofs.LedgerInvariant

/-!
# A report as of a cutoff does not change

What `cycleInputs` returns for a cutoff depends on the plan of the cycle and on the attempts claimed
and received by the cutoff. `SameAsOf` relates two attempt lists that agree on those; a step whose
claim and receipt times lie after the cutoff keeps it, so the report of a cutoff stays the same over
every later run, from any ledger, reachable or not.

The rows of a report split the targets of its plan.
-/

namespace GeoMaster

open ChannelLedger MemoryChannelJobRepository MemoryCycle List Option

/-! ### Attempts that agree up to a cutoff -/

/-- The second attempt is the first, or the first with an outcome received after the cutoff. -/
structure SameAsOf (asOf : DateTime) (a b : ChannelAttempt) : Prop where
  claimedAt : b.claimedAt = a.claimedAt
  later : b = a ∨ (a.outcome = none ∧ ∃ at_, b.receivedAt = some at_ ∧ asOf < at_)

theorem SameAsOf.refl (asOf : DateTime) (a : ChannelAttempt) : SameAsOf asOf a a :=
  ⟨rfl, .inl rfl⟩

/-- The attempts that count at the cutoff agree. -/
def ListsSameAsOf (asOf : DateTime) (l l' : List ChannelAttempt) : Prop :=
  List.Forall₂ (SameAsOf asOf) (l.filter fun a => a.claimedAt ≤ asOf) (l'.filter fun a => a.claimedAt ≤ asOf)

theorem ListsSameAsOf.refl (asOf : DateTime) (l : List ChannelAttempt) : ListsSameAsOf asOf l l :=
  forall₂_same.mpr fun a _ => SameAsOf.refl asOf a

variable {asOf : DateTime} {a : ChannelAttempt} {l : List ChannelAttempt} {key : ProjectKey}

/-- An attempt claimed after the cutoff does not count. -/
theorem listsSameAsOf_append (l : List ChannelAttempt) (h : asOf < a.claimedAt) : ListsSameAsOf asOf l (l ++ [a]) := by
  unfold ListsSameAsOf
  have hlate : ([a].filter fun a => a.claimedAt ≤ asOf) = [] := by simpa using h
  rw [filter_append, hlate, append_nil]
  exact forall₂_same.mpr fun b _ => SameAsOf.refl asOf b

/-- An outcome received after the cutoff, for the open attempt that is found, does not count. -/
theorem listsSameAsOf_recordOutcome {attemptId : Uuid} {outcome : ChannelOutcome}
    {receivedAt : DateTime} (hlate : asOf < receivedAt)
    (hfind : l.find? (fun a => a.attemptId = attemptId) = some a) (hopen : a.outcome = none) :
    ListsSameAsOf asOf l (recordOutcome attemptId outcome receivedAt l) := by
  induction l with
  | nil => simp at hfind
  | cons b _ ih =>
    unfold recordOutcome
    by_cases hid : b.attemptId = attemptId
    · rw [if_pos hid]
      rw [List.find?_cons_of_pos (by simpa using hid)] at hfind
      obtain rfl := some.inj hfind
      unfold ListsSameAsOf
      by_cases hclaimed : b.claimedAt ≤ asOf
      · simp only [filter_cons, hclaimed, decide_true, if_true]
        refine List.Forall₂.cons ⟨rfl, .inr ⟨hopen, receivedAt, rfl, hlate⟩⟩ ?_
        exact forall₂_same.mpr fun c _ => SameAsOf.refl asOf c
      · simp only [filter_cons, hclaimed, decide_false, Bool.false_eq_true, if_false]
        exact forall₂_same.mpr fun c _ => SameAsOf.refl asOf c
    · rw [if_neg hid]
      rw [List.find?_cons_of_neg (by simpa using hid)] at hfind
      have hrest := ih hfind
      unfold ListsSameAsOf at hrest ⊢
      by_cases hclaimed : b.claimedAt ≤ asOf
      · simp only [filter_cons, hclaimed, decide_true, if_true]
        exact List.Forall₂.cons (SameAsOf.refl asOf b) hrest
      · simpa only [filter_cons, hclaimed, decide_false, Bool.false_eq_true, if_false] using hrest

theorem forall₂_getLast? {R : ChannelAttempt → ChannelAttempt → Prop}
    {l' : List ChannelAttempt} (h : List.Forall₂ R l l') :
    Option.Rel R l.getLast? l'.getLast? := by
  induction h with
  | nil => exact .none
  | cons hab htail ih =>
    cases htail with
    | nil => exact .some hab
    | cons hcd htail' => simpa only [List.getLast?_cons_cons] using ih

/-! ### Rows depend on the attempts that count -/

section Rows

variable {asOf : DateTime} {attempts attempts' : Attempts} {t : Uuid}

/-- The attempts of a target agree up to the cutoff. -/
def TargetSameAsOf (asOf : DateTime) (attempts attempts' : Attempts) (t : Uuid) : Prop :=
  ListsSameAsOf asOf ((attempts.lookup t).getD []) ((attempts'.lookup t).getD [])

theorem lastEligible_rel (h : TargetSameAsOf asOf attempts attempts' t) :
    Option.Rel (SameAsOf asOf) (lastEligible attempts t asOf) (lastEligible attempts' t asOf) :=
  forall₂_getLast? h

theorem attempted_eq (h : TargetSameAsOf asOf attempts attempts' t) :
    (lastEligible attempts' t asOf).isSome = (lastEligible attempts t asOf).isSome := by
  have hrel := lastEligible_rel h
  generalize lastEligible attempts t asOf = last at hrel
  generalize lastEligible attempts' t asOf = last' at hrel
  cases hrel <;> rfl

/-- What is read off an outcome known at the cutoff is the same: an attempt that has got its outcome
since had none that counted. -/
theorem known_bind_eq {β : Type} {f : ChannelAttempt → Option β}
    (hf : ∀ a, a.outcome = none → f a = none) (h : TargetSameAsOf asOf attempts attempts' t) :
    (knownAttempt attempts' t asOf).bind f = (knownAttempt attempts t asOf).bind f := by
  have hrel := lastEligible_rel h
  unfold knownAttempt
  generalize lastEligible attempts t asOf = last at hrel
  generalize lastEligible attempts' t asOf = last' at hrel
  cases hrel with
  | none => rfl
  | @some a b hab =>
    rcases hab.later with rfl | ⟨hopen, at_, hreceived, hlate⟩
    · rfl
    · have hb : (some b).filter (fun attempt => attempt.receivedAt.any fun at_ => at_ ≤ asOf) = none := by
        simpa [Option.filter, hreceived] using hlate
      rw [hb, bind_none]
      cases hfilter : (some a).filter fun attempt =>
          attempt.receivedAt.any fun at_ => at_ ≤ asOf with
      | none => rfl
      | some a' =>
        obtain ⟨heq, -⟩ := filter_eq_some_iff.mp hfilter
        obtain rfl := some.inj heq
        rw [bind_some, hf _ hopen]

theorem attemptEvidence_none (a : ChannelAttempt) (h : a.outcome = none) : attemptEvidence t a = none := by
  simp [attemptEvidence, h]

theorem publicationRow_eq (h : TargetSameAsOf asOf attempts attempts' t) (platform : String) :
    publicationRow attempts' asOf t platform = publicationRow attempts asOf t platform := by
  have houtcome := known_bind_eq (f := (·.outcome)) (fun a ha => ha) h
  have hevidence := known_bind_eq (f := attemptEvidence t) attemptEvidence_none h
  simp only [publicationRow, houtcome, hevidence, attempted_eq h]

theorem measurementRow_eq (h : TargetSameAsOf asOf attempts attempts' t) (input : MeasureInput) :
    measurementRow attempts' asOf t input = measurementRow attempts asOf t input := by
  have houtcome := known_bind_eq (f := (·.outcome)) (fun a ha => ha) h
  have hevidence := known_bind_eq (f := attemptEvidence t) attemptEvidence_none h
  simp only [measurementRow, houtcome, hevidence, attempted_eq h]

/-- The whole report depends on the attempts that count. -/
theorem frozenCycleInputs_eq (plan : ChannelPlan) (h : ∀ t, TargetSameAsOf asOf attempts attempts' t) :
    frozenCycleInputs plan attempts' asOf = frozenCycleInputs plan attempts asOf := by
  have hpublications : publicationRows attempts' asOf plan.targets = publicationRows attempts asOf plan.targets := by
    unfold publicationRows
    refine congrArg (List.filterMap · plan.targets) (funext fun x => ?_)
    rw [funext (publicationRow_eq (h x.targetId))]
  have hmeasurements : measurementRows attempts' asOf plan.targets = measurementRows attempts asOf plan.targets := by
    unfold measurementRows
    refine congrArg (List.filterMap · plan.targets) (funext fun x => ?_)
    rw [funext (measurementRow_eq (h x.targetId))]
  simp only [frozenCycleInputs, hpublications, hmeasurements]

end Rows

/-! ### Rows split the targets of the plan -/

/-- The rows of a report, against the targets of its plan: publications and measurements each list
their targets in the order of the plan, every target has a row in exactly one of the two lists, and
the expected counts add up. -/
structure SplitsPlan (plan : ChannelPlan) (inputs : ChannelCycleInputs) : Prop where
  rows : ∃ publications measurements, inputs.publications = some publications ∧ inputs.measurements = some measurements
    ∧ publications.map (·.targetId) = (plan.targets.filter fun x => x.input.isPublication).map (·.targetId)
    ∧ measurements.map (·.targetId) = (plan.targets.filter fun x => ! x.input.isPublication).map (·.targetId)
  counts : ∃ m₁ m₂ n₁ n₂, inputs.manifests = [m₁, m₂] ∧ m₁.expectedCount = some n₁
    ∧ m₂.expectedCount = some n₂ ∧ n₁ + n₂ = plan.targets.length

section Split

variable {asOf : DateTime} {attempts : Attempts}

theorem publicationRows_targetId (targets : List ChannelTarget) :
    (publicationRows attempts asOf targets).map (·.targetId)
      = (targets.filter fun x => x.input.isPublication).map (·.targetId) := by
  induction targets with
  | nil => rfl
  | cons x _ ih =>
    unfold publicationRows at ih ⊢
    cases hx : x.input <;>
      simpa [hx, ChannelTargetInput.platform, ChannelTargetInput.isPublication, publicationRow] using ih

theorem measurementRows_targetId (targets : List ChannelTarget) :
    (measurementRows attempts asOf targets).map (·.targetId)
      = (targets.filter fun x => ! x.input.isPublication).map (·.targetId) := by
  induction targets with
  | nil => rfl
  | cons x _ ih =>
    unfold measurementRows at ih ⊢
    cases hx : x.input <;>
      simpa [hx, ChannelTargetInput.measureInput, ChannelTargetInput.isPublication, measurementRow] using ih

theorem frozenCycleInputs_splits (plan : ChannelPlan) : SplitsPlan plan (frozenCycleInputs plan attempts asOf) where
  rows := ⟨_, _, rfl, rfl, publicationRows_targetId _, measurementRows_targetId _⟩
  counts := by
    refine ⟨_, _, _, _, rfl, rfl, rfl, ?_⟩
    have hp := congrArg List.length (@publicationRows_targetId asOf attempts plan.targets)
    have hm := congrArg List.length (@measurementRows_targetId asOf attempts plan.targets)
    rw [length_map, length_map] at hp hm
    rw [hp, hm]
    have hsplit := length_eq_length_filter_add (l := plan.targets) fun x => x.input.isPublication
    exact hsplit.symm

end Split

/-! ### Every run -/

/-- The plan of a cycle, when it was there at the cutoff. -/
def visiblePlan (l : ChannelLedger) (key : ProjectKey) (cycleId : Uuid) (asOf : DateTime) : Option ChannelPlan :=
  (entryOrDefault l ⟨key, .cycle cycleId⟩).plan.filter fun plan => plan.createdAt ≤ asOf

theorem cycleInputs_run (scope : TenantScope) (cycleId : Uuid) (asOf : DateTime)
    (l : ChannelLedger) (hkey : scopeKey scope = .ok key) :
    ((cycleInputs scope cycleId asOf).run l).1
      = .ok (match visiblePlan l key cycleId asOf with
          | some plan => frozenCycleInputs plan (entryOrDefault l ⟨key, .cycle cycleId⟩).attempts asOf
          | none => { manifests := [], publications := none, measurements := none }) := by
  have hret : ∃ inputs, Op.Returns (cycleInputs scope cycleId asOf) l inputs l ∧ inputs
      = (match visiblePlan l key cycleId asOf with
        | some plan => frozenCycleInputs plan (entryOrDefault l ⟨key, .cycle cycleId⟩).attempts asOf
        | none => { manifests := [], publications := none, measurements := none }) := by
    refine ⟨_, ?_, rfl⟩
    simp only [cycleInputs, Op.returns_iff, hkey]
    refine ⟨key, l, ⟨rfl, rfl⟩, _, l, ⟨rfl, rfl⟩, ?_⟩
    unfold visiblePlan entryOrDefault
    cases hl : l.lookup ⟨key, .cycle cycleId⟩ with
    | none => simp [MemoryCycle.default]
    | some c =>
      cases hp : c.plan with
      | none => simp [hp]
      | some plan => by_cases hcreated : plan.createdAt ≤ asOf <;> simp [hp, Option.filter, hcreated]
  obtain ⟨_, hret, rfl⟩ := hret
  rw [Op.Returns] at hret
  rw [hret]

/-- A step after the cutoff: what it claims and receives comes later, and it does not plan the cycle,
unless the cycle has its plan already. -/
structure AfterCutoff (scope : TenantScope) (cycleId : Uuid) (asOf : DateTime)
    (s : MemoryChannelJobRepository) (e : JobEvent) : Prop where
  claims : ∀ call at_, e.Did call → call.claimTime = some at_ → asOf < at_
  receipts : ∀ call at_, e.Did call → call.receivedTime = some at_ → asOf < at_
  plans : ∀ scope' plan key, e.Did (.createPlan scope' plan) → scopeKey scope' = .ok key → scopeKey scope = .ok key →
    plan.cycleId = cycleId → (entryOrDefault s.ledger ⟨key, .cycle cycleId⟩).plan.isSome = true

/-- Two entries that show the same at the cutoff. -/
structure EntrySameAsOf (asOf : DateTime) (c c' : MemoryCycle) : Prop where
  plan : c'.plan = c.plan
  attempts : ∀ t, TargetSameAsOf asOf c.attempts c'.attempts t

theorem EntrySameAsOf.refl (asOf : DateTime) (c : MemoryCycle) : EntrySameAsOf asOf c c :=
  ⟨rfl, fun _ => ListsSameAsOf.refl asOf _⟩

/-- Entries that show the same give the same report. -/
theorem cycleInputs_eq {scope : TenantScope} {cycleId : Uuid} (hkey : scopeKey scope = .ok key) {l l' : ChannelLedger}
    (h : EntrySameAsOf asOf (entryOrDefault l ⟨key, .cycle cycleId⟩) (entryOrDefault l' ⟨key, .cycle cycleId⟩)) :
    ((cycleInputs scope cycleId asOf).run l').1 = ((cycleInputs scope cycleId asOf).run l).1 := by
  have hplan : visiblePlan l' key cycleId asOf = visiblePlan l key cycleId asOf := by
    rw [visiblePlan, visiblePlan, h.plan]
  rw [cycleInputs_run scope cycleId asOf l' hkey, cycleInputs_run scope cycleId asOf l hkey, hplan]
  cases visiblePlan l key cycleId asOf with
  | none => rfl
  | some plan => exact congrArg Except.ok (frozenCycleInputs_eq plan h.attempts)

section Steps

variable [Sha256] [InstantText] {s : MemoryChannelJobRepository} {e : JobEvent}
  {scope : TenantScope} {key : ProjectKey} {cycleId : Uuid} {asOf : DateTime} {l' : ChannelLedger}

/-- A step after the cutoff changes nothing that the entry of the cycle shows. -/
theorem CycleEffect.sameAsOf {c c' : MemoryCycle} (h : CycleEffect s e ⟨key, .cycle cycleId⟩ c c')
    (hentry : c = entryOrDefault s.ledger ⟨key, .cycle cycleId⟩) (hkey : scopeKey scope = .ok key)
    (hlate : AfterCutoff scope cycleId asOf s e) : EntrySameAsOf asOf c c' := by
  have hkept : ∀ t, TargetSameAsOf asOf c.attempts c.attempts t := fun t => ListsSameAsOf.refl asOf _
  cases h with
  | planned scope' plan hcall hscope howner hnone =>
    have hid : plan.cycleId = cycleId := (ChannelOwner.cycle.inj howner).symm
    have hplanned := hlate.plans scope' plan key hcall hscope hkey hid
    rw [← hentry, hnone] at hplanned
    simp at hplanned
  | measured _ _ howner => simp at howner
  | claimed call _ _ _ a w _ hcall _ _ htime =>
    refine ⟨rfl, fun t => ?_⟩
    have hclaimed := hlate.claims call a.claimedAt hcall htime
    have hlist := attemptsOf_pushAttempt c a w t
    unfold attemptsOf at hlist
    unfold TargetSameAsOf
    rw [hlist]
    split
    · exact listsSameAsOf_append _ hclaimed
    · exact ListsSameAsOf.refl asOf _
  | finished _ _ _ _ _ at_ _ _ _ hcall _ hattempts hfind hopen =>
    refine ⟨rfl, fun u => ?_⟩
    have hreceived := hlate.receipts _ at_ hcall rfl
    unfold TargetSameAsOf
    rw [AssocMap.lookup_insert]
    split
    · next hu =>
      rw [hu, hattempts, getD_some, getD_some]
      exact listsSameAsOf_recordOutcome hreceived hfind hopen
    · exact ListsSameAsOf.refl asOf _
  | _ => exact ⟨rfl, hkept⟩

/-- A step after the cutoff changes nothing that the cycle shows. -/
theorem LedgerEffect.sameAsOf (h : LedgerEffect s e l') (hkey : scopeKey scope = .ok key)
    (hlate : AfterCutoff scope cycleId asOf s e) :
    EntrySameAsOf asOf (entryOrDefault s.ledger ⟨key, .cycle cycleId⟩) (entryOrDefault l' ⟨key, .cycle cycleId⟩) := by
  cases h with
  | same h =>
    rw [entryOrDefault, entryOrDefault, h]
    exact .refl asOf _
  | entry k c' h heffect =>
    by_cases hk : (⟨key, .cycle cycleId⟩ : ChannelScopeKey) = k
    · subst hk
      have hl : entryOrDefault l' ⟨key, .cycle cycleId⟩ = c' := entryOrDefault_of_lookup (by rw [h, if_pos rfl])
      rw [hl]
      exact heffect.sameAsOf rfl hkey hlate
    · have hl : entryOrDefault l' ⟨key, .cycle cycleId⟩ = entryOrDefault s.ledger ⟨key, .cycle cycleId⟩ := by
        rw [entryOrDefault, entryOrDefault, h, if_neg hk]
      rw [hl]
      exact .refl asOf _
  | expired now h =>
    rw [entryOrDefault, entryOrDefault, h]
    cases s.ledger.lookup ⟨key, .cycle cycleId⟩ with
    | none => exact .refl asOf _
    | some c => exact ⟨rfl, fun t => ListsSameAsOf.refl asOf _⟩

end Steps

/-- Over every run after the cutoff, from any state, the report of a cycle for the cutoff stays the
same; and in any state a report with a plan splits the targets of the plan. -/
theorem cycleInputs_stable [Sha256] [UrlParser] [InstantText] (scope : TenantScope)
    (cycleId : Uuid) (asOf : DateTime) (s : MemoryChannelJobRepository) :
    (∀ h s', (jobMachine.restrict (AfterCutoff scope cycleId asOf)).Run s h s' →
      ((cycleInputs scope cycleId asOf).run s'.ledger).1 = ((cycleInputs scope cycleId asOf).run s.ledger).1)
    ∧ ∀ key, scopeKey scope = .ok key →
      ∃ inputs, ((cycleInputs scope cycleId asOf).run s.ledger).1 = .ok inputs
        ∧ ∀ plan, visiblePlan s.ledger key cycleId asOf = some plan → SplitsPlan plan inputs := by
  refine ⟨fun h s' hr => ?_, fun key hkey => ⟨_, cycleInputs_run scope cycleId asOf s.ledger hkey,
    fun plan hplan => ?_⟩⟩
  · cases hkey : scopeKey scope with
    | error err =>
      -- Without a project every report is the same error.
      have herror (l : ChannelLedger) : ((cycleInputs scope cycleId asOf).run l).1 = .error err := by
        have hfails : Op.Fails (cycleInputs scope cycleId asOf) l err l := by
          simp [cycleInputs, hkey]
        rw [Op.Fails] at hfails
        rw [hfails]
      rw [herror, herror]
    | ok key =>
      induction hr with
      | refl => rfl
      | tail _ hstep ih =>
        have heffect := step_effect hstep.2
        rw [cycleInputs_eq hkey (heffect.sameAsOf hkey hstep.1), ih]
  · rw [hplan]
    exact frozenCycleInputs_splits plan

namespace Sample

/-- A plan with one publication. -/
def onePlan : ChannelPlan :=
  { planId := uuid 90, projectId := ⟨uuid 3⟩, cycleId := uuid 10, inputHash := "", revision := 1
    createdAt := 0
    targets :=
      [{ targetId := uuid 30
         input := .publish
          { sourceId := uuid 91, sourceVersionId := uuid 92, platform := "zhihu"
            placementSlot := "article", accountId := uuid 40, title := "T", body := "B"
            bodySha256 := "" } }] }

def planned : MemoryChannelJobRepository :=
  @after sha256 urlParser instantText MemoryChannelJobRepository.default [.createPlan scope onePlan]

/-- A claim after the cutoff 4. -/
def lateClaim : List JobCall :=
  [.claim none scope (uuid 30) (uuid 50) 5]

theorem lateClaim_after :
    @Allowed sha256 urlParser instantText (AfterCutoff scope (uuid 10) 4) planned lateClaim := by
  refine ⟨⟨?_, ?_, ?_⟩, trivial⟩
  · rintro call at_ ⟨reply, heq⟩ htime
    cases heq
    obtain rfl := some.inj htime
    decide
  · rintro call at_ ⟨reply, heq⟩ htime
    cases heq
    simp [JobCall.receivedTime] at htime
  · rintro scope' plan key ⟨reply, heq⟩
    cases heq

end Sample

open Sample

theorem cycleInputs_stable_claim :
    ((cycleInputs scope (uuid 10) 4).run
        (@after sha256 urlParser instantText planned lateClaim).ledger).1
      = ((cycleInputs scope (uuid 10) 4).run planned.ledger).1
    ∧ ∃ inputs, ((cycleInputs scope (uuid 10) 4).run planned.ledger).1
        = .ok inputs ∧ SplitsPlan onePlan inputs := by
  have hstable := @cycleInputs_stable sha256 urlParser instantText
    scope (uuid 10) 4 planned
  have hrun := @run_trace sha256 urlParser instantText
    (AfterCutoff scope (uuid 10) 4) lateClaim planned lateClaim_after
  obtain ⟨inputs, hinputs, hsplit⟩ := hstable.2 project rfl
  exact ⟨hstable.1 _ _ hrun, inputs, hinputs, hsplit onePlan (by decide +kernel)⟩

end GeoMaster
