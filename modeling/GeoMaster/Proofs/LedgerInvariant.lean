import GeoMaster.Proofs.LedgerSteps

/-!
# The shape of the ledger

`MemoryCycle.Shape` is what every entry of a reachable ledger satisfies: a target has at most one
attempt, an attempt has its outcome exactly when it has been received, and only known targets have
attempts. `MemoryCycle.Grows` is what a step can do to an entry: targets, plans and received attempts
stay as they are.

Both hold for every run, whatever ids a caller puts into a plan.
-/

namespace GeoMaster

open AssocMap List Option

open ChannelLedger MemoryChannelJobRepository

/-! ### Recording an outcome -/

section RecordOutcome

variable {attemptId : Uuid} {outcome : ChannelOutcome} {receivedAt : DateTime}

theorem length_recordOutcome (attempts : List ChannelAttempt) :
    (recordOutcome attemptId outcome receivedAt attempts).length = attempts.length := by
  induction attempts with
  | nil => rfl
  | cons _ _ ih =>
    unfold recordOutcome
    split
    · rfl
    · rw [length_cons, ih, length_cons]

/-- An attempt of the new list is an old one, or the old one under the id with the outcome. -/
theorem mem_recordOutcome {attempts : List ChannelAttempt} {a : ChannelAttempt}
    (h : a ∈ recordOutcome attemptId outcome receivedAt attempts) :
    a ∈ attempts ∨ ∃ b ∈ attempts, b.attemptId = attemptId
      ∧ a = { b with outcome := some outcome, receivedAt := some receivedAt } := by
  induction attempts with
  | nil => simp [recordOutcome] at h
  | cons b _ ih =>
    unfold recordOutcome at h
    split at h
    · next hid =>
      rcases mem_cons.mp h with rfl | hmem
      · exact .inr ⟨b, mem_cons_self, hid, rfl⟩
      · exact .inl (mem_cons_of_mem _ hmem)
    · rcases mem_cons.mp h with rfl | hmem
      · exact .inl mem_cons_self
      · rcases ih hmem with hold | ⟨b', hb', heq⟩
        · exact .inl (mem_cons_of_mem _ hold)
        · exact .inr ⟨b', mem_cons_of_mem _ hb', heq⟩

/-- A list of one attempt, found under the id. -/
theorem recordOutcome_single {a : ChannelAttempt} (h : a.attemptId = attemptId) :
    recordOutcome attemptId outcome receivedAt [a]
      = [{ a with outcome := some outcome, receivedAt := some receivedAt }] := by
  simp [recordOutcome, h]

end RecordOutcome

namespace MemoryCycle

/-! ### Reading an entry after an update -/

section Updates

variable (c : MemoryCycle)

theorem attemptsOf_insert (targetId t : Uuid) (attempts : List ChannelAttempt) :
    attemptsOf { c with attempts := c.attempts.insert targetId attempts } t
      = if t = targetId then attempts else c.attemptsOf t := by
  unfold attemptsOf
  rw [lookup_insert]
  split <;> rfl

theorem attemptsOf_of_lookup {c : MemoryCycle} {targetId : Uuid} {attempts : List ChannelAttempt}
    (h : c.attempts.lookup targetId = some attempts) : c.attemptsOf targetId = attempts := by
  simp [attemptsOf, h]

@[simp]
theorem target_pushAttempt (attempt : ChannelAttempt) (w : Option PublicationWithdrawal)
    (t : Uuid) : (pushAttempt c attempt w).target t = c.target t :=
  rfl

theorem attemptsOf_pushAttempt (attempt : ChannelAttempt) (w : Option PublicationWithdrawal) (t : Uuid) :
    (pushAttempt c attempt w).attemptsOf t
      = if t = attempt.targetId then c.attemptsOf t ++ [attempt] else c.attemptsOf t := by
  unfold attemptsOf pushAttempt
  rw [lookup_insert]
  split
  · next h =>
    subst h
    rfl
  · rfl

theorem target_insertGenerated (x : ChannelTarget) (t : Uuid) :
    target { c with generated := c.generated.insert x.targetId x } t
      = if t = x.targetId then some x else c.target t := by
  unfold target
  rw [lookup_insert]
  split <;> rfl

/-- Where a target is looked for: among the generated ones, in the plan, in the measurement. -/
theorem target_eq_some_iff {c : MemoryCycle} {t : Uuid} {x : ChannelTarget} :
    c.target t = some x ↔ c.generated.lookup t = some x ∨ c.generated.lookup t = none ∧
      (c.planTargets.find? (fun y => y.targetId = t) = some x
        ∨ c.planTargets.find? (fun y => y.targetId = t) = none
          ∧ c.measurementTargets.find? (fun y => y.targetId = t) = some x) := by
  unfold target
  cases c.generated.lookup t with
  | some y => simp
  | none => cases c.planTargets.find? fun y => y.targetId = t <;> simp

theorem target_of_generated {c : MemoryCycle} {t : Uuid} {x : ChannelTarget}
    (h : c.generated.lookup t = some x) : c.target t = some x := by
  simp [target, h]

theorem generated_none_of_target {c : MemoryCycle} {t : Uuid} (h : c.target t = none) :
    c.generated.lookup t = none := by
  cases hg : c.generated.lookup t with
  | none => rfl
  | some x => simp [target, hg] at h

@[simp]
theorem target_default (t : Uuid) : default.target t = none := by
  simp [default, target, planTargets, measurementTargets]

@[simp]
theorem attemptsOf_default (t : Uuid) : default.attemptsOf t = [] := by
  simp [default, attemptsOf]

theorem mem_attemptsOf_of_attempt {c : MemoryCycle} {t id : Uuid} {a : ChannelAttempt}
    (h : c.attempt t id = some a) : a ∈ c.attemptsOf t ∧ a.attemptId = id := by
  unfold attempt at h
  exact ⟨mem_of_find?_eq_some h, by simpa using List.find?_some h⟩

end Updates

theorem mem_targets {c : MemoryCycle} {t : Uuid} {x : ChannelTarget} (ht : c.target t = some x) : x ∈ c.targets := by
  simp only [targets, mem_append, mem_values]
  rcases target_eq_some_iff.mp ht with hg | ⟨-, hplan | ⟨-, hmeasure⟩⟩
  · exact .inl (.inl ⟨t, hg⟩)
  · exact .inl (.inr (mem_of_find?_eq_some hplan))
  · exact .inr (mem_of_find?_eq_some hmeasure)

/-! ### The shape of an entry -/

/-- What holds of every stored entry. -/
structure Shape (k : ChannelScopeKey) (c : MemoryCycle) : Prop where
  cycleOwner : ∀ id, k.owner = .cycle id → c.measurement = none
  generated : ∀ t x, c.generated.lookup t = some x → x.targetId = t ∧ x.input.isGenerated = true
  planned : ∀ x ∈ c.planTargets, x.input.isGenerated = false
  measured : ∀ x ∈ c.measurementTargets, x.input.isMeasure = true
  known : ∀ t, c.attemptsOf t ≠ [] → (c.target t).isSome = true
  single : ∀ t, (c.attemptsOf t).length ≤ 1
  targetIds : ∀ t, ∀ a ∈ c.attemptsOf t, a.targetId = t
  paired : ∀ t, ∀ a ∈ c.attemptsOf t, a.outcome.isSome = a.receivedAt.isSome

theorem shape_default (k : ChannelScopeKey) : default.Shape k where
  cycleOwner _ _ := rfl
  generated t x h := by simp [default] at h
  planned x h := by simp [default, planTargets] at h
  measured x h := by simp [default, measurementTargets] at h
  known t h := by simp at h
  single t := by simp
  targetIds t a h := by simp at h
  paired t a h := by simp at h

namespace Shape

variable {k : ChannelScopeKey} {c : MemoryCycle}

/-- A generated target is in the map of the generated ones: plans and measurements hold none. -/
theorem lookup_of_isGenerated (h : c.Shape k) {t : Uuid} {x : ChannelTarget} (ht : c.target t = some x)
    (hgenerated : x.input.isGenerated = true) : c.generated.lookup t = some x := by
  rcases target_eq_some_iff.mp ht with hg | ⟨-, hplan | ⟨-, hmeasure⟩⟩
  · exact hg
  · have := h.planned x (mem_of_find?_eq_some hplan)
    simp [this] at hgenerated
  · have := h.measured x (mem_of_find?_eq_some hmeasure)
    cases hx : x.input <;> simp [hx, ChannelTargetInput.isMeasure, ChannelTargetInput.isGenerated] at this hgenerated

theorem attemptsOf_cases (h : c.Shape k) (t : Uuid) : c.attemptsOf t = [] ∨ ∃ a, c.attemptsOf t = [a] := by
  have hlen := h.single t
  rcases Nat.le_one_iff_eq_zero_or_eq_one.mp hlen with h0 | h1
  · exact .inl (length_eq_zero_iff.mp h0)
  · exact .inr (length_eq_one_iff.mp h1)

theorem attemptsOf_of_mem (h : c.Shape k) {t : Uuid} {a : ChannelAttempt}
    (ha : a ∈ c.attemptsOf t) : c.attemptsOf t = [a] := by
  rcases h.attemptsOf_cases t with h0 | ⟨b, h1⟩
  · simp [h0] at ha
  · rw [h1, mem_singleton] at ha
    rw [h1, ha]

theorem attempt_of_mem (h : c.Shape k) {t : Uuid} {a : ChannelAttempt}
    (ha : a ∈ c.attemptsOf t) : c.attempt t a.attemptId = some a := by
  unfold attempt
  rw [h.attemptsOf_of_mem ha]
  simp

end Shape

/-! ### What a step keeps of an entry -/

/-- An attempt keeps its identity, and all of itself once it has been received. -/
structure AttemptKept (a a' : ChannelAttempt) : Prop where
  attemptId : a'.attemptId = a.attemptId
  claimedAt : a'.claimedAt = a.claimedAt
  closed : a.outcome.isSome = true → a' = a

theorem AttemptKept.refl (a : ChannelAttempt) : AttemptKept a a :=
  ⟨rfl, rfl, fun _ => rfl⟩

theorem AttemptKept.trans {a b c : ChannelAttempt} (h : AttemptKept a b) (h' : AttemptKept b c) : AttemptKept a c where
  attemptId := h'.attemptId.trans h.attemptId
  claimedAt := h'.claimedAt.trans h.claimedAt
  closed hclosed := by
    obtain rfl := h.closed hclosed
    exact h'.closed hclosed

/-- What an entry never loses. -/
structure Grows (c c' : MemoryCycle) : Prop where
  target : ∀ t x, c.target t = some x → c'.target t = some x
  generated : ∀ t x, c.generated.lookup t = some x → c'.generated.lookup t = some x
  plan : ∀ p, c.plan = some p → c'.plan = some p
  attempt : ∀ t, ∀ a ∈ c.attemptsOf t, ∃ a' ∈ c'.attemptsOf t, AttemptKept a a'

theorem Grows.refl (c : MemoryCycle) : c.Grows c :=
  ⟨fun _ _ h => h, fun _ _ h => h, fun _ h => h, fun _ a h => ⟨a, h, .refl a⟩⟩

theorem Grows.trans {c d f : MemoryCycle} (h : c.Grows d) (h' : d.Grows f) : c.Grows f where
  target t x ht := h'.target t x (h.target t x ht)
  generated t x ht := h'.generated t x (h.generated t x ht)
  plan p hp := h'.plan p (h.plan p hp)
  attempt t a ha := by
    obtain ⟨b, hb, hab⟩ := h.attempt t a ha
    obtain ⟨b', hb', hbb'⟩ := h'.attempt t b hb
    exact ⟨b', hb', hab.trans hbb'⟩

end MemoryCycle

open MemoryCycle

section Shape

variable {k : ChannelScopeKey} {c : MemoryCycle}

/-- A new target under an id that the entry does not know yet. -/
theorem MemoryCycle.Shape.insertGenerated (hc : c.Shape k) {x : ChannelTarget}
    (hgenerated : x.input.isGenerated = true) :
    MemoryCycle.Shape k { c with generated := c.generated.insert x.targetId x } where
  cycleOwner := hc.cycleOwner
  generated t y h := by
    simp only [lookup_insert] at h
    split at h
    · next ht =>
      obtain rfl := some.inj h
      exact ⟨ht.symm, hgenerated⟩
    · exact hc.generated t y h
  planned := hc.planned
  measured := hc.measured
  known t h := by
    rw [target_insertGenerated]
    split
    · rfl
    · exact hc.known t h
  single := hc.single
  targetIds := hc.targetIds
  paired := hc.paired

theorem MemoryCycle.Shape.setPlan (hc : c.Shape k) {plan : ChannelPlan} (hnone : c.plan = none)
    (hgenerated : ∀ x ∈ plan.targets, x.input.isGenerated = false) :
    MemoryCycle.Shape k { c with plan := some plan } where
  cycleOwner := hc.cycleOwner
  generated := hc.generated
  planned := hgenerated
  measured := hc.measured
  known t h := by
    have hknown := hc.known t h
    obtain ⟨x, hx⟩ := isSome_iff_exists.mp hknown
    have hempty : c.planTargets = [] := by simp [planTargets, hnone]
    rcases target_eq_some_iff.mp hx with hg | ⟨hg, hrest⟩
    · exact isSome_iff_exists.mpr ⟨x, target_of_generated hg⟩
    · simp only [hempty, List.find?_nil, true_and, reduceCtorEq, false_or] at hrest
      cases hp : plan.targets.find? fun y => y.targetId = t with
      | some y => exact isSome_iff_exists.mpr ⟨y, target_eq_some_iff.mpr (.inr ⟨hg, .inl hp⟩)⟩
      | none => exact isSome_iff_exists.mpr ⟨x, target_eq_some_iff.mpr (.inr ⟨hg, .inr ⟨hp, hrest⟩⟩)⟩
  single := hc.single
  targetIds := hc.targetIds
  paired := hc.paired

theorem MemoryCycle.Shape.pushAttempt (hc : c.Shape k) {attempt : ChannelAttempt} {target : ChannelTarget}
    {withdrawal : Option PublicationWithdrawal} (htarget : c.target attempt.targetId = some target)
    (hnone : c.attemptsOf attempt.targetId = []) (houtcome : attempt.outcome = none)
    (hreceived : attempt.receivedAt = none) :
    (pushAttempt c attempt withdrawal).Shape k where
  cycleOwner := hc.cycleOwner
  generated := hc.generated
  planned := hc.planned
  measured := hc.measured
  known t h := by
    rw [attemptsOf_pushAttempt] at h
    split at h
    · next ht => simp [ht, htarget]
    · exact hc.known t h
  single t := by
    rw [attemptsOf_pushAttempt]
    split
    · next ht => simp [ht, hnone]
    · exact hc.single t
  targetIds t a h := by
    rw [attemptsOf_pushAttempt] at h
    split at h
    · next ht =>
      rw [ht, hnone, nil_append, mem_singleton] at h
      rw [h, ht]
    · exact hc.targetIds t a h
  paired t a h := by
    rw [attemptsOf_pushAttempt] at h
    split at h
    · next ht =>
      rw [ht, hnone, nil_append, mem_singleton] at h
      simp [h, houtcome, hreceived]
    · exact hc.paired t a h

/-- An outcome for the open attempt of a target. -/
theorem MemoryCycle.Shape.finish (hc : c.Shape k) {targetId attemptId : Uuid} {attempts : List ChannelAttempt}
    {outcome : ChannelOutcome} {receivedAt : DateTime} (hattempts : c.attempts.lookup targetId = some attempts) :
    MemoryCycle.Shape k
      { c with
        attempts := c.attempts.insert targetId (recordOutcome attemptId outcome receivedAt attempts) } := by
  have hlist := attemptsOf_of_lookup hattempts
  exact {
    cycleOwner := hc.cycleOwner
    generated := hc.generated
    planned := hc.planned
    measured := hc.measured
    known := by
      intro t h
      rw [attemptsOf_insert] at h
      refine hc.known t fun hnil => h ?_
      split
      · next ht =>
        rw [ht, hlist] at hnil
        simp [hnil, recordOutcome]
      · exact hnil
    single := by
      intro t
      rw [attemptsOf_insert]
      split
      · rw [length_recordOutcome, ← hlist]
        exact hc.single targetId
      · exact hc.single t
    targetIds := by
      intro t a ha
      rw [attemptsOf_insert] at ha
      split at ha
      · next ht =>
        rw [ht]
        rcases mem_recordOutcome ha with hold | ⟨b, hb, -, rfl⟩
        · exact hc.targetIds targetId a (hlist ▸ hold)
        · exact hc.targetIds targetId b (hlist ▸ hb)
      · exact hc.targetIds t a ha
    paired := by
      intro t a ha
      rw [attemptsOf_insert] at ha
      split at ha
      · rcases mem_recordOutcome ha with hold | ⟨b, hb, -, rfl⟩
        · exact hc.paired targetId a (hlist ▸ hold)
        · rfl
      · exact hc.paired t a ha }

end Shape

/-! ### What every step keeps -/

/-- What an entry knows, at most one entry of a project knows. -/
def KnownOnce (K : MemoryCycle → Uuid → Prop) (l : ChannelLedger) : Prop :=
  ∀ k c j d t, l.lookup k = some c → l.lookup j = some d → k.scope = j.scope → K c t → K d t → k = j

/-- The entry has a generated target under the id. -/
def MemoryCycle.HasGenerated (c : MemoryCycle) (t : Uuid) : Prop :=
  (c.generated.lookup t).isSome = true

/-- What holds of the ledger of every reachable state. -/
structure LedgerShape (l : ChannelLedger) : Prop where
  cycle : ∀ k c, l.lookup k = some c → c.Shape k
  generatedOnce : KnownOnce HasGenerated l

theorem LedgerShape.entryOrDefault {l : ChannelLedger} (h : LedgerShape l) (k : ChannelScopeKey) :
    (entryOrDefault l k).Shape k := by
  unfold ChannelLedger.entryOrDefault
  cases hk : l.lookup k with
  | none => exact shape_default k
  | some c => exact h.cycle k c hk

/-- No entry of the ledger is ever lost, and every entry only grows. -/
def LedgerGrows (l l' : ChannelLedger) : Prop :=
  ∀ k c, l.lookup k = some c → ∃ c', l'.lookup k = some c' ∧ c.Grows c'

theorem LedgerGrows.refl (l : ChannelLedger) : LedgerGrows l l :=
  fun _ c h => ⟨c, h, .refl c⟩

theorem LedgerGrows.trans {l l' l'' : ChannelLedger} (h : LedgerGrows l l')
    (h' : LedgerGrows l' l'') : LedgerGrows l l'' := by
  intro k c hk
  obtain ⟨c', hk', hc⟩ := h k c hk
  obtain ⟨c'', hk'', hc'⟩ := h' k c' hk'
  exact ⟨c'', hk'', hc.trans hc'⟩

/-- An attempt found under its id is still found under it. -/
theorem MemoryCycle.Grows.attempt_some {k : ChannelScopeKey} {c c' : MemoryCycle}
    (h : c.Grows c') (hc' : c'.Shape k) {t id : Uuid} {a : ChannelAttempt}
    (ha : c.attempt t id = some a) : ∃ a', c'.attempt t id = some a' ∧ AttemptKept a a' := by
  obtain ⟨hmem, rfl⟩ := mem_attemptsOf_of_attempt ha
  obtain ⟨a', hmem', hkept⟩ := h.attempt t a hmem
  have hfound := hc'.attempt_of_mem hmem'
  rw [hkept.attemptId] at hfound
  exact ⟨a', hfound, hkept⟩

/-- Giving up withdrawals keeps everything else of an entry. -/
theorem MemoryCycle.Shape.expireRows {k : ChannelScopeKey} {c : MemoryCycle} (hc : c.Shape k) (now : Uuid → DateTime) :
    (expireRows now c).Shape k :=
  { hc with }

theorem MemoryCycle.grows_expireRows (now : Uuid → DateTime) (c : MemoryCycle) : c.Grows (expireRows now c) :=
  { Grows.refl c with }

section Steps

variable [Sha256] [InstantText] {s : MemoryChannelJobRepository} {e : JobEvent}
  {k : ChannelScopeKey} {c c' : MemoryCycle} {l' : ChannelLedger}

theorem CycleEffect.shape (h : CycleEffect s e k c c') (hc : c.Shape k) : c'.Shape k := by
  cases h with
  | touched => exact hc
  | generated _ hgenerated => exact hc.insertGenerated hgenerated
  | planned _ _ _ _ _ hnone hgenerated => exact hc.setPlan hnone hgenerated
  | measured _ _ howner _ hmeasure =>
    refine { shape_default k with cycleOwner := ?_, measured := hmeasure, known := ?_ }
    · intro id hid
      simp [hid] at howner
    · intro t h
      exact absurd (attemptsOf_default t) h
  | claimed _ _ _ _ _ _ _ _ _ _ _ hx _ _ hnone ho hr => exact hc.pushAttempt hx hnone ho hr
  | finished _ _ _ _ _ _ _ _ _ _ _ hattempts => exact hc.finish hattempts
  | bound => exact { hc with }
  | registered => exact { hc with }
  | authorized => exact { hc with }
  | row => exact { hc with }

theorem CycleEffect.grows (h : CycleEffect s e k c c') (hc : c.Shape k)
    (hentry : c = ChannelLedger.entryOrDefault s.ledger k) : c.Grows c' := by
  cases h with
  | touched => exact .refl c
  | generated x _ _ hnew =>
    have hfresh : c.target x.targetId = none := by
      subst hentry
      unfold ChannelLedger.entryOrDefault
      cases hk : s.ledger.lookup k with
      | none => simp
      | some d => exact hnew k d hk rfl
    refine { Grows.refl c with target := ?_, generated := ?_ }
    · intro t y hy
      rw [target_insertGenerated, if_neg]
      · exact hy
      · rintro rfl
        simp [hfresh] at hy
    · intro t y hy
      rw [lookup_insert, if_neg]
      · exact hy
      · rintro rfl
        simp [generated_none_of_target hfresh] at hy
  | planned _ plan _ _ howner hnone =>
    have hplan : c.planTargets = [] := by simp [planTargets, hnone]
    have hmeasurement : c.measurementTargets = [] := by simp [measurementTargets, hc.cycleOwner _ howner]
    refine { Grows.refl c with target := ?_, plan := ?_ }
    · intro t y hy
      rcases target_eq_some_iff.mp hy with hg | ⟨-, hrest⟩
      · exact target_of_generated hg
      · simp [hplan, hmeasurement] at hrest
    · intro p hp
      simp [hnone] at hp
  | measured _ _ _ hfree =>
    have hdefault : c = MemoryCycle.default := by
      rw [hentry, ChannelLedger.entryOrDefault, hfree, getD_none]
    subst hdefault
    exact ⟨fun t x h => by simp at h, fun t x h => by simp [MemoryCycle.default] at h,
      fun p h => by simp [MemoryCycle.default] at h, fun t a h => by simp at h⟩
  | claimed =>
    refine { Grows.refl c with attempt := ?_ }
    intro t b hb
    refine ⟨b, ?_, .refl b⟩
    rw [attemptsOf_pushAttempt]
    split
    · exact mem_append_left _ hb
    · exact hb
  | finished _ _ _ id _ _ _ _ _ _ _ hattempts hfind hopen =>
    refine { Grows.refl c with attempt := ?_ }
    intro u b hb
    rw [attemptsOf_insert]
    split
    · next hu =>
      subst hu
      -- The one attempt of the target is the one found under the id.
      have hlist := attemptsOf_of_lookup hattempts
      have hsingle := hc.attemptsOf_of_mem hb
      rw [hlist] at hsingle
      rw [hsingle, List.find?_singleton] at hfind
      split at hfind
      · next hid =>
        obtain rfl := some.inj hfind
        rw [hsingle, recordOutcome_single (by simpa using hid)]
        exact ⟨_, mem_singleton.mpr rfl, rfl, rfl, fun h => by simp [hopen] at h⟩
      · simp at hfind
    · exact ⟨b, hb, .refl b⟩
  | bound => exact { Grows.refl c with }
  | registered => exact { Grows.refl c with }
  | authorized => exact { Grows.refl c with }
  | row => exact { Grows.refl c with }

/-- Where an attempt of the changed entry comes from: it is one of the old ones, with its outcome at
the latest now, or the step has just claimed it. -/
theorem CycleEffect.attempt_origin (h : CycleEffect s e k c c') {t : Uuid} {a : ChannelAttempt}
    (ha : a ∈ c'.attemptsOf t) :
    (∃ b ∈ c.attemptsOf t, b.attemptId = a.attemptId ∧ b.claimedAt = a.claimedAt)
      ∨ ((∃ call scope, e.Did call ∧ call.claims = some (scope, t, a.attemptId)
          ∧ scopeKey scope = .ok k.scope ∧ call.claimTime = some a.claimedAt)
        ∧ s.ledger.lookup k = some c ∧ (c.target t).isSome = true ∧ c.attemptsOf t = []
        ∧ a.outcome = none) := by
  cases h with
  | measured => exact absurd ha (by simp [attemptsOf, MemoryCycle.default])
  | claimed call scope _ _ _ _ hstored hcall hclaims hscope htime hx _ _ hnone ho =>
    rw [attemptsOf_pushAttempt] at ha
    split at ha
    · next ht =>
      subst ht
      rw [hnone, nil_append, mem_singleton] at ha
      subst ha
      exact .inr ⟨⟨call, scope, hcall, hclaims, hscope, htime⟩, hstored, by simp [hx], hnone, ho⟩
    · exact .inl ⟨a, ha, rfl, rfl⟩
  | finished _ _ _ _ _ _ _ _ _ _ _ hattempts =>
    rw [attemptsOf_insert] at ha
    split at ha
    · next ht =>
      rw [ht, attemptsOf_of_lookup hattempts]
      rcases mem_recordOutcome ha with hold | ⟨b', hb', -, rfl⟩
      · exact .inl ⟨a, hold, rfl, rfl⟩
      · exact .inl ⟨b', hb', rfl, rfl⟩
    · exact .inl ⟨a, ha, rfl, rfl⟩
  | _ => exact .inl ⟨a, ha, rfl, rfl⟩

/-- A property of entries that a step keeps for the one it changes and that giving up withdrawals
keeps holds of every entry after the step. -/
theorem LedgerEffect.forall_cycle {P : ChannelScopeKey → MemoryCycle → Prop} (h : LedgerEffect s e l')
    (hs : ∀ k c, s.ledger.lookup k = some c → P k c)
    (hentry : ∀ k c', CycleEffect s e k (ChannelLedger.entryOrDefault s.ledger k) c' → P k c')
    (hexpire : ∀ k c now, P k c → P k (expireRows now c)) : ∀ k c, l'.lookup k = some c → P k c := by
  intro k c hk
  cases h with
  | same h => exact hs k c (by rwa [← h])
  | entry j d h heffect =>
    rw [h] at hk
    split at hk
    · next hkj =>
      subst hkj
      obtain rfl := some.inj hk
      exact hentry k _ heffect
    · exact hs k c hk
  | expired now h =>
    rw [h] at hk
    obtain ⟨d, hd, rfl⟩ := map_eq_some_iff.mp hk
    exact hexpire k d (now k) (hs k d hd)

/-- What a step makes of a stored entry. -/
theorem LedgerEffect.forward (h : LedgerEffect s e l') (hk : s.ledger.lookup k = some c) :
    ∃ c', l'.lookup k = some c' ∧ (c' = c ∨ CycleEffect s e k c c' ∨ ∃ now, c' = expireRows now c) := by
  cases h with
  | same h => exact ⟨c, by rw [h, hk], .inl rfl⟩
  | entry j d h heffect =>
    by_cases hkj : k = j
    · subst hkj
      rw [entryOrDefault_of_lookup hk] at heffect
      exact ⟨d, by rw [h, if_pos rfl], .inr (.inl heffect)⟩
    · exact ⟨c, by rw [h, if_neg hkj, hk], .inl rfl⟩
  | expired now h => exact ⟨_, by rw [h, hk]; rfl, .inr (.inr ⟨now k, rfl⟩)⟩

theorem LedgerEffect.grows (h : LedgerEffect s e l') (hs : LedgerShape s.ledger) : LedgerGrows s.ledger l' := by
  intro k c hk
  obtain ⟨c', hk', rfl | heffect | ⟨now, rfl⟩⟩ := h.forward hk
  · exact ⟨c', hk', .refl c'⟩
  · exact ⟨c', hk', heffect.grows (hs.cycle k c hk) (entryOrDefault_of_lookup hk).symm⟩
  · exact ⟨_, hk', grows_expireRows now c⟩

/-- A step that lets an entry know only what no other entry of the project knew lets at most one
entry know it. -/
theorem LedgerEffect.known_once {K : MemoryCycle → Uuid → Prop} (h : LedgerEffect s e l')
    (hdefault : ∀ t, ¬ K MemoryCycle.default t) (hexpire : ∀ now c t, K (expireRows now c) t → K c t)
    (hnew : ∀ k c', CycleEffect s e k (ChannelLedger.entryOrDefault s.ledger k) c' → ∀ t, K c' t →
      K (ChannelLedger.entryOrDefault s.ledger k) t ∨ ∀ j d, s.ledger.lookup j = some d → j.scope = k.scope → ¬ K d t)
    (hs : KnownOnce K s.ledger) : KnownOnce K l' := by
  -- The changed entry and an entry that stays as it was.
  have hother {k : ChannelScopeKey} {c' : MemoryCycle}
      (heffect : CycleEffect s e k (ChannelLedger.entryOrDefault s.ledger k) c')
      {j : ChannelScopeKey} {d : MemoryCycle} {t : Uuid} (hj : s.ledger.lookup j = some d)
      (hscope : k.scope = j.scope) (hc : K c' t) (hd : K d t) : k = j := by
    rcases hnew k c' heffect t hc with hold | hfresh
    · cases hk : s.ledger.lookup k with
      | none =>
        rw [ChannelLedger.entryOrDefault, hk, getD_none] at hold
        exact absurd hold (hdefault t)
      | some c =>
        rw [entryOrDefault_of_lookup hk] at hold
        exact hs k c j d t hk hj hscope hold hd
    · exact absurd hd (hfresh j d hj hscope.symm)
  intro k c j d t hk hj hscope hc hd
  cases h with
  | same h =>
    rw [h] at hk hj
    exact hs k c j d t hk hj hscope hc hd
  | entry _ _ h heffect =>
    rw [h] at hk hj
    split at hk <;> split at hj
    · next hki hji => rw [hki, hji]
    · next hki hji =>
      subst hki
      obtain rfl := some.inj hk
      exact hother heffect hj hscope hc hd
    · next hki hji =>
      subst hji
      obtain rfl := some.inj hj
      exact (hother heffect hk hscope.symm hd hc).symm
    · exact hs k c j d t hk hj hscope hc hd
  | expired now h =>
    rw [h] at hk hj
    obtain ⟨c₀, hc₀, rfl⟩ := map_eq_some_iff.mp hk
    obtain ⟨d₀, hd₀, rfl⟩ := map_eq_some_iff.mp hj
    exact hs k c₀ j d₀ t hc₀ hd₀ hscope (hexpire _ _ t hc) (hexpire _ _ t hd)

/-- Where a generated target of an entry comes from: it was there before the step, or no entry of
the project knew its id. -/
theorem CycleEffect.generated_or_new (h : CycleEffect s e k c c') {t : Uuid} (ht : c'.HasGenerated t) :
    c.HasGenerated t ∨ ∀ j d, s.ledger.lookup j = some d → j.scope = k.scope → d.target t = none := by
  cases h with
  | generated _ _ _ hnew =>
    simp only [HasGenerated, lookup_insert] at ht
    split at ht
    · next htx =>
      subst htx
      exact .inr hnew
    · exact .inl ht
  | measured => simp [HasGenerated, MemoryCycle.default] at ht
  | _ => exact .inl ht

theorem LedgerEffect.shape (h : LedgerEffect s e l') (hs : LedgerShape s.ledger) : LedgerShape l' where
  cycle := h.forall_cycle hs.cycle (fun k _ hc => hc.shape (hs.entryOrDefault k)) fun _ _ now hc => hc.expireRows now
  generatedOnce := by
    refine h.known_once (fun t => ?_) (fun _ _ _ h => h) (fun k c' heffect t ht => ?_) hs.generatedOnce
    · simp [HasGenerated, MemoryCycle.default]
    · refine (heffect.generated_or_new ht).imp id fun hnew j d hj hscope hd => ?_
      have := generated_none_of_target (hnew j d hj hscope)
      simp [HasGenerated, this] at hd

end Steps

theorem ledgerShape_default : LedgerShape MemoryChannelJobRepository.default.ledger where
  cycle k c h := by simp [MemoryChannelJobRepository.default] at h
  generatedOnce k c j d t h := by simp [MemoryChannelJobRepository.default] at h

section Runs

variable [Sha256] [UrlParser] [InstantText] {s s' : MemoryChannelJobRepository} {h : List JobEvent}

theorem run_grows (hr : jobMachine.Run s h s') (hs : LedgerShape s.ledger) : LedgerGrows s.ledger s'.ledger :=
  hr.relates (I := fun s => LedgerShape s.ledger) (R := fun s s' => LedgerGrows s.ledger s'.ledger)
    (fun _ _ _ hs hstep => (step_effect hstep).shape hs) (fun _ => .refl _)
    (fun _ _ _ => LedgerGrows.trans) (fun _ _ _ hs hstep => (step_effect hstep).grows hs) hs

end Runs

/-! ### Values for concrete runs -/

end GeoMaster
