import GeoMaster.Proofs.CutoffStability

/-!
# What the optimizer may see

The projection for the optimizer is a function of the targets whose question is bound for
optimization and of their attempts: held-out questions, unbound measurements and publications have no
influence on it. Every observation in it comes from the last attempt of such a target, received by the
cutoff, with exactly one matching live proof.

The projection is refused for a plan of another project, so two plans have to agree on the project as
well.
-/

namespace GeoMaster

open Except List Option

/-- The target asks a question bound for optimization. -/
def forOptimization (x : ChannelTarget) : Bool :=
  x.input.measureInput.any fun input => input.questionBinding.any fun binding => binding.purpose = .optimization

theorem optimizationBinding_some {x : ChannelTarget} {input : MeasureInput}
    {binding : FrozenQuestionBinding} (h : optimizationBinding x = some (input, binding)) :
    x.input = .measure input ∧ input.questionBinding = some binding ∧ binding.purpose = .optimization := by
  unfold optimizationBinding at h
  split at h
  · next input' hinput =>
    split at h
    · next binding' hbinding =>
      split at h
      · next hpurpose =>
        simp only [Option.some.injEq, Prod.mk.injEq] at h
        obtain ⟨rfl, rfl⟩ := h
        exact ⟨hinput, hbinding, hpurpose.1⟩
      · simp at h
    · simp at h
  · simp at h

section Projection

variable [Sha256] [JsonText] [InstantText]

/-- Where an observation of the projection comes from. -/
structure ObservedFrom (x : ChannelTarget) (input : MeasureInput) (binding : FrozenQuestionBinding)
    (a : ChannelAttempt) (outcome : ChannelOutcome) (attempts : Attempts) (asOf : DateTime)
    (o : OptimizationEligibleObservation) : Prop where
  target : x.input = .measure input
  bound : input.questionBinding = some binding
  purpose : binding.purpose = .optimization
  last : ((attempts.lookup x.targetId).getD []).getLast? = some a
  received : a.outcome = some outcome ∧ ∃ at_, a.receivedAt = some at_ ∧ at_ ≤ asOf
  observed : outcome.status = .observed ∧ outcome.fixture = false
  oneProof : ∃ proof, outcome.runnerEvidence.filter (proofMatches x.targetId input a outcome)
    = [proof]
  observation : o =
    { targetId := x.targetId
      observationId := a.attemptId
      question := binding.reference
      protocolComparisonKey := input.comparisonKey }

variable {x : ChannelTarget} {attempts : Attempts} {asOf : DateTime}

theorem eligibleObservation_some
    {o : OptimizationEligibleObservation} (h : eligibleObservation attempts asOf x = some o) :
    ∃ input binding a outcome, ObservedFrom x input binding a outcome attempts asOf o := by
  simp only [eligibleObservation, bind_eq_bind, bind_eq_some_iff] at h
  obtain ⟨⟨input, binding⟩, hbinding, a, hlast, outcome, houtcome, h⟩ := h
  split at h
  · next hchecks =>
    obtain ⟨htimely, hproofs⟩ := hchecks
    obtain ⟨hinput, hbound, hpurpose⟩ := optimizationBinding_some hbinding
    simp only [timelyObservation, decide_eq_true_eq, Option.any_eq_true] at htimely
    obtain ⟨hfixture, hstatus, -, -, at_, hreceived, hinstants⟩ := htimely
    exact ⟨input, binding, a, outcome,
      { target := hinput
        bound := hbound
        purpose := hpurpose
        last := hlast
        received := ⟨houtcome, at_, hreceived, hinstants.2.2.2.1⟩
        observed := ⟨hstatus, by simpa using hfixture⟩
        oneProof := length_eq_one_iff.mp hproofs
        observation := (some.inj h).symm }⟩
  · simp at h

theorem eligibleObservation_none (h : forOptimization x = false) : eligibleObservation attempts asOf x = none := by
  cases ho : eligibleObservation attempts asOf x with
  | none => rfl
  | some o =>
    obtain ⟨_, _, _, _, hfrom⟩ := eligibleObservation_some ho
    simp [forOptimization, hfrom.target, ChannelTargetInput.measureInput, hfrom.bound, hfrom.purpose] at h

theorem observations_eq_filter (attempts : Attempts) (asOf : DateTime) (targets : List ChannelTarget) :
    targets.filterMap (eligibleObservation attempts asOf)
      = (targets.filter forOptimization).filterMap (eligibleObservation attempts asOf) := by
  rw [filterMap_filter]
  refine congrArg (List.filterMap · targets) (funext fun x => ?_)
  by_cases hx : forOptimization x = true
  · rw [if_pos hx]
  · rw [if_neg hx, eligibleObservation_none (by simpa using hx)]

theorem eligibleObservation_congr {attempts' : Attempts} (h : attempts'.lookup x.targetId = attempts.lookup x.targetId) :
    eligibleObservation attempts' asOf x = eligibleObservation attempts asOf x := by
  simp only [eligibleObservation, h]

/-- Two plans of one project and one cycle that agree on the targets for optimization and on their
attempts have the same projection; and every observation comes from such a target. -/
theorem optimizationProjection_noninterference (scope : TenantScope) (asOf : DateTime) :
    (∀ (plan plan' : ChannelPlan) (attempts attempts' : Attempts),
      plan'.projectId = plan.projectId → plan'.cycleId = plan.cycleId →
      plan'.targets.filter forOptimization = plan.targets.filter forOptimization →
      (∀ x ∈ plan.targets.filter forOptimization, attempts'.lookup x.targetId = attempts.lookup x.targetId) →
      optimizationEligibleProjection scope plan' attempts' asOf
        = optimizationEligibleProjection scope plan attempts asOf)
    ∧ ∀ (plan : ChannelPlan) (attempts : Attempts) (projection : OptimizationEligibleProjection),
      optimizationEligibleProjection scope plan attempts asOf = .ok projection →
      ∀ o ∈ projection.observations, ∃ x ∈ plan.targets, ∃ input binding a outcome,
        ObservedFrom x input binding a outcome attempts asOf o := by
  refine ⟨fun plan plan' attempts attempts' hproject hcycle htargets hattempts => ?_,
    fun plan attempts projection h o ho => ?_⟩
  · have hobservations : plan'.targets.filterMap (eligibleObservation attempts' asOf)
        = plan.targets.filterMap (eligibleObservation attempts asOf) := by
      rw [observations_eq_filter attempts', observations_eq_filter attempts, htargets]
      exact filterMap_congr fun x hx => eligibleObservation_congr (hattempts x hx)
    simp only [optimizationEligibleProjection, hproject, hcycle, hobservations]
  · simp only [optimizationEligibleProjection, eq_ok_iff] at h
    obtain ⟨_, -, rfl⟩ := h
    obtain ⟨x, hx, hobservation⟩ := mem_filterMap.mp ho
    exact ⟨x, hx, eligibleObservation_some hobservation⟩

end Projection

namespace Sample

@[reducible] def jsonText : JsonText :=
  ⟨fun _ => none⟩

/-- The sample plan, under another project. -/
def otherPlan : ChannelPlan :=
  { onePlan with projectId := ⟨uuid 4⟩ }

/-- The sample plan without its publication. -/
def emptyPlan : ChannelPlan :=
  { onePlan with targets := [] }

end Sample

open Sample

/-- A publication has no influence on the projection. -/
theorem optimizationProjection_noninterference_publication :
    @optimizationEligibleProjection sha256 jsonText instantText scope emptyPlan ∅ 4
      = @optimizationEligibleProjection sha256 jsonText instantText scope
        onePlan ∅ 4 :=
  (@optimizationProjection_noninterference sha256 jsonText instantText
    scope 4).1 onePlan emptyPlan ∅ ∅ rfl rfl (by decide) (fun _ _ => rfl)

/-- Plans that agree on the cycle, the targets and the attempts, and differ in the project, have
different projections. -/
theorem projection_depends_on_project : otherPlan.cycleId = onePlan.cycleId
    ∧ otherPlan.targets.filter forOptimization = onePlan.targets.filter forOptimization
    ∧ @optimizationEligibleProjection sha256 jsonText instantText scope otherPlan ∅ 4
      ≠ @optimizationEligibleProjection sha256 jsonText instantText scope
        onePlan ∅ 4 := by
  refine ⟨rfl, rfl, fun heq => ?_⟩
  have hforbidden : @optimizationEligibleProjection sha256 jsonText instantText scope
      otherPlan ∅ 4 = .error (.forbidden "optimization projection outside project scope") := rfl
  rw [hforbidden] at heq
  cases heq

end GeoMaster
