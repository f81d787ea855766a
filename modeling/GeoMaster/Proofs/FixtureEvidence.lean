import GeoMaster.Proofs.CoverageExpansion
import GeoMaster.Proofs.PublicationLedger
import GeoMaster.Proofs.PublishableCells

/-!
# Fixtures as evidence

A command says whether it was made for a fixture, but the identity of a publication does not. Where nobody asks
for a real publication that is already stored as a fixture's, real targets and requests are bound to real
commands only.
-/

namespace GeoMaster

open MemoryDistributionRepository List Option Calls

section Fixtures

variable [Sha256] [UrlParser]

/-- A call asks for a publication on a surface that is not a fixture. -/
inductive AsksReal (s : MemoryDistributionState) (call : DistributionCall) (scope : TenantScope) :
    List String → Prop where
  | coverage {prepared : PreparedDistribution} {bindings : List ContentMediaBinding} {clock : MaterializeClock}
      {manifest : DistributionManifest} {history : TargetHistory} {placement : PlatformPlacement}
      {revision : ContentRevision} {variant : ChannelVariant} {accountId : Uuid}
      (hcall : call.coverage = some (scope, prepared, bindings, clock)) (hready : prepared.deferReason = none)
      (haccount : prepared.accountId = some accountId) (hrevision : prepared.revision = some revision)
      (hfound : Materializes scope prepared s manifest history placement) (hreal : placement.fixture = false)
      (hvariant : materializedVariant scope revision placement bindings = .ok variant) :
      AsksReal s call scope (publicationParts scope variant placement.platformId placement.placementSlot accountId)
  | request {request : ContentDistributionRequest} {revision : ContentRevision} {now : DateTime}
      {variant : ChannelVariant} (hcall : call.Requests scope request revision now variant) :
      AsksReal s call scope (publicationParts scope variant request.platformId request.placementSlot request.accountId)

/-- A publication is stored with the command of a fixture. -/
def StoredFixture (s : MemoryDistributionState) (scope : TenantScope) (parts : List String) : Prop :=
  ∃ intent command, s.intents.lookup (scope.storageKey, digest parts) = some intent ∧ s.commands.lookup
    (scope.storageKey, publishCommandId intent.intentId) = some command ∧ command.fixture = true

/-- A step asks for no real publication that is stored as a fixture's. -/
def KeepsFixturesApart (s : MemoryDistributionState) : DistributionEvent → Prop
  | .call call _ => ∀ scope parts, AsksReal s call scope parts → ¬ StoredFixture s scope parts
  | .reorder => True

/-- The command of an intent is not a fixture's. -/
def RealCommand (s : MemoryDistributionState) (k : String) (intentId : Uuid) : Prop :=
  ∃ command, s.commands.lookup (k, publishCommandId intentId) = some command
    ∧ command.intentId = intentId ∧ command.fixture = false

variable {used : List String → Prop} {s s' : MemoryDistributionState} {scope : TenantScope}
  {revision : ContentRevision} {placement : PlatformPlacement} {variant : ChannelVariant}
  {candidate : PublicationIntent} {command : PublicationCommand}
  {previous : Option PublicationIntent} (hfree : CollisionFree used)

omit [UrlParser] in
theorem RealCommand.kept {k : String} {intentId : Uuid} (h : RealCommand s k intentId)
    (hkept : PublicationsKept s s') : RealCommand s' k intentId := by
  obtain ⟨command, hcommand, hreal⟩ := h
  exact ⟨command, hkept.commands _ _ hcommand, hreal⟩

theorem PublicationShape.published_real (hs : PublicationShape used s)
    (ho : Offered used s scope revision placement variant candidate command previous)
    (hcommands : s'.commands = (published s scope revision variant candidate command previous).commands)
    (hreal : previous = none → command.fixture = false)
    (hapart : ¬ StoredFixture s scope (candidate.parts scope.storageKey)) :
    RealCommand s' scope.storageKey (previous.getD candidate).intentId := by
  cases hprevious : previous with
  | some prior =>
    have hstored := ho.found.trans hprevious
    obtain ⟨command', hcommand, hid, -, -⟩ := (hs.intents _ _ _ hstored).outbox
    refine ⟨command', ?_, hid, ?_⟩
    · rw [hcommands, storePublication_commands, hprevious]
      exact hcommand
    · refine Bool.eq_false_iff.mpr fun hfixture => hapart ⟨prior, command', ?_, hcommand, hfixture⟩
      rw [← ho.keyed, hstored]
  | none =>
    have hnew := hreal hprevious
    obtain ⟨_, rfl⟩ := ho.outbox
    refine ⟨_, ?_, rfl, hnew⟩
    rw [hcommands, storePublication_commands, hprevious]
    exact AList.lookup_insert _

include hfree in
theorem bound_real (hc : CoverageShape used s) (hs : PublicationShape used s)
    {prepared : PreparedDistribution} {manifest : DistributionManifest} {history : TargetHistory}
    {accountId : Uuid} {bindings : List ContentMediaBinding} {clock : MaterializeClock}
    (hfound : Materializes scope prepared s manifest history placement)
    (hbinds : MemoryDistributionRepository.Binds scope (scope.storageKey, prepared.targetId) manifest placement
      history.last.target prepared.revision accountId bindings clock s s' revision variant candidate
      command previous)
    (hused : ∀ text,
      PublicationTexts (publicationParts scope variant placement.platformId placement.placementSlot accountId)
        text → used text)
    (hreal : placement.fixture = false)
    (hapart : ¬ StoredFixture s scope
      (publicationParts scope variant placement.platformId placement.placementSlot accountId)) :
    RealCommand s' scope.storageKey (previous.getD candidate).intentId := by
  have hb := hs.bindsPublication hfree hc hfound hbinds hused
  have hplaced := List.find?_some hfound.placed
  simp only [Bool.and_eq_true, decide_eq_true_eq] at hplaced
  obtain ⟨hplatform, hslot⟩ := hplaced
  obtain ⟨hcandidate, hcommand⟩ := Prod.mk.inj hbinds.identified
  refine hs.published_real hb.offered ?_ (fun _ => ?_) ?_
  · rw [hbinds.after]
    exact (recordChange_publications _ _ _ _ _).2.1
  · -- The placement of the target is the only one with its key.
    have hunique : manifest.fixtureAt history.last.target = false := by
      rw [DistributionManifest.fixtureAt, List.any_eq_false]
      intro other hother
      simp only [Bool.and_eq_true, decide_eq_true_eq, not_and, Bool.not_eq_true]
      rintro ⟨hotherPlatform, hotherSlot⟩
      have hkey : other.key = placement.key :=
        Prod.ext (hotherPlatform.trans hplatform.symm) (hotherSlot.trans hslot.symm)
      have hmember := List.mem_of_find?_eq_some hfound.placed
      have hfrozen := (hc.manifests _ _ _ hfound.stored).frozen
      rw [List.inj_on_of_nodup_map hfrozen.placements hother hmember hkey]
      exact hreal
    rw [← hcommand]
    exact hunique
  · have hparts : candidate.parts scope.storageKey
        = publicationParts scope variant placement.platformId placement.placementSlot accountId := by
      rw [← hcandidate, hplatform, hslot]
      rfl
    rwa [hparts]

theorem originated_real (hs : PublicationShape used s) {call : DistributionCall}
    {request : ContentDistributionRequest} {now : DateTime} (hcall : call.Requests scope request revision now variant)
    (h : Originates scope request revision variant now s s' candidate command previous)
    (hused : ∀ text,
      PublicationTexts (publicationParts scope variant request.platformId request.placementSlot request.accountId)
        text → used text)
    (hapart : ¬ StoredFixture s scope
      (publicationParts scope variant request.platformId request.placementSlot request.accountId)) :
    RealCommand s' scope.storageKey (previous.getD candidate).intentId := by
  obtain ⟨_, ho, -⟩ := offered_of_request hcall h hused
  obtain ⟨_, -, -, -, hidentity⟩ := prepareRequestPublicationIntent_ok h.identified
  obtain ⟨hcandidate, hcommand⟩ := Prod.mk.inj hidentity
  refine hs.published_real ho ?_ (fun _ => by rw [← hcommand]) ?_
  · rw [h.after]
    exact (keepOrigin_publications _ _ _ _).2.1
  · rw [← hcandidate]
    exact hapart

variable [InstantJson]

/-- Every target on a real placement is bound to real commands only. -/
def RealTargets (s : MemoryDistributionState) : Prop :=
  ∀ k targetId history manifest document placement, s.histories.lookup (k, targetId) = some history → s.manifests.lookup
    (k, history.first.target.manifestId) = some manifest → manifest.place history.first.target.ordinal = some
    (document, placement) → placement.fixture = false → ∀ v ∈ history.entries, ∀ id, v.target.publicationIntentId = some
    id → RealCommand s k id

include hfree in
theorem RealTargets.step {e : DistributionEvent} (hc : CoverageShape used s) (hs : PublicationShape used s)
    (hr : RealTargets s) (h : (distributionMachine.restrict (DigestsOnly used)).step s e s')
    (hapart : KeepsFixturesApart s e) : RealTargets s' := by
  intro k targetId history manifest document placement hstored hmanifest hplace hreal
  have hkept := (hs.step hfree hc h).2
  have hgrown := hc.grown hfree (step_coverage h)
  -- A manifest keeps its places, so what held of the history before still applies.
  have hbefore {old : TargetHistory} (hold : s.histories.lookup (k, targetId) = some old)
      (hfirst : history.first = old.first) :
      ∃ m, s.manifests.lookup (k, old.first.target.manifestId) = some m
        ∧ m.place old.first.target.ordinal = some (document, placement) := by
    obtain ⟨m, hm, -, -⟩ := (hc.histories _ _ _ hold).origin
    obtain ⟨_, hm', hgrew⟩ := hgrown.manifests _ _ hm
    rw [hfirst, hm'] at hmanifest
    obtain rfl := some.inj hmanifest
    refine ⟨m, hm, ?_⟩
    rw [hfirst, hgrew.rest] at hplace
    exact hplace
  cases step_targetChange hfree hc h hstored with
  | kept hold =>
    obtain ⟨m, hm, hplace'⟩ := hbefore hold rfl
    intro v hv id hid
    exact (hr k targetId history m document placement hold hm hplace' hreal v hv id hid).kept hkept
  | started hmanifest' hcell =>
    intro v hv id hid
    obtain rfl := mem_singleton.mp hv
    obtain ⟨_, _, -, rfl⟩ := distributionCell_eq_some.mp hcell
    simp [cellOf] at hid
  | @putOff old _ _ hold =>
    obtain ⟨m, hm, hplace'⟩ := hbefore hold (History.first_push ..)
    have hall := hr k targetId old m document placement hold hm hplace' hreal
    intro v hv id hid
    rcases mem_append.mp hv with hv | hv
    · exact (hall v hv id hid).kept hkept
    · obtain rfl := mem_singleton.mp hv
      exact (hall _ old.last_mem id hid).kept hkept
  | @bound call _ scope _ _ _ m old place _ _ _ _ _ _ _ hevent hkey htarget hcall hfound hready _ haccount hbinds
      hused =>
    subst hkey htarget hevent
    obtain ⟨m', hm', hplace'⟩ := hbefore hfound.expanded (History.first_push ..)
    have hall := hr _ _ old m' document placement hfound.expanded hm' hplace' hreal
    intro v hv id hid
    rcases mem_append.mp hv with hv | hv
    · exact (hall v hv id hid).kept hkept
    · obtain rfl := mem_singleton.mp hv
      obtain rfl := some.inj hid
      -- The placement the call found is the one the cell was frozen with.
      have hsame : place = placement := by
        have hshape := hc.histories _ _ _ hfound.expanded
        have hsameCell := hshape.sameCell old.last_mem
        obtain ⟨origin, horigin, -, hcell⟩ := hshape.origin
        rw [hm'] at horigin
        obtain rfl := some.inj horigin
        obtain ⟨_, _, hplace'', hfirst⟩ := distributionCell_eq_some.mp hcell
        rw [hplace'] at hplace''
        obtain ⟨rfl, rfl⟩ := Prod.mk.inj (some.inj hplace'')
        have hm := hc.manifests _ _ _ hfound.stored
        have hmanifestSame : m' = m := by
          have hid := hfound.member
          rw [hsameCell.manifestId, hm.keyed] at hid
          rw [hid, hfound.stored] at hm'
          exact (some.inj hm').symm
        have hfind := hm.frozen.find_placement (hmanifestSame ▸ (place_mem hplace').2)
        have hplaced := hfound.placed
        rw [hsameCell.platformId, hsameCell.placementSlot, hfirst] at hplaced
        rw [show (cellOf m'.manifestId old.first.target.ordinal document placement).platformId
            = placement.platformId from rfl,
          show (cellOf m'.manifestId old.first.target.ordinal document placement).placementSlot
            = placement.placementSlot from rfl, hfind] at hplaced
        exact (some.inj hplaced).symm
      subst hsame
      exact bound_real hfree hc hs hfound hbinds hused hreal
        (hapart scope _ (.coverage hcall hready haccount hbinds.given hfound hreal hbinds.rendered))

/-- A step gave a request its publication. -/
def DistributionEvent.GivesRequest (scope : TenantScope) (intent : PublicationIntent) : DistributionEvent → Prop
  | .call call (.ok (.intent given)) => given = intent ∧ ∃ request, call.request = some (scope, request)
  | _ => False

theorem PublicationShape.gives_real {e : DistributionEvent} (hs : PublicationShape used s)
    (h : (distributionMachine.restrict (DigestsOnly used)).step s e s') (hapart : KeepsFixturesApart s e)
    {intent : PublicationIntent} (hgives : DistributionEvent.GivesRequest scope intent e) :
    RealCommand s' scope.storageKey intent.intentId := by
  rcases step_distributionEffect h with ⟨rfl, -⟩ | ⟨call, err, rfl, rfl⟩ | ⟨call, reply, rfl, heffect⟩
  · exact hgives.elim
  · exact hgives.elim
  · cases heffect with
    | originated hcall horiginates hused =>
      obtain ⟨rfl, request, hrequest⟩ := hgives
      rw [hcall.request_eq] at hrequest
      obtain ⟨rfl, rfl⟩ := Prod.mk.inj (some.inj hrequest)
      exact originated_real hs hcall horiginates hused (hapart _ _ (.request hcall))
    | verified =>
      obtain ⟨-, request, hrequest⟩ := hgives
      simp [DistributionCall.request] at hrequest
    | _ => exact hgives.elim

include hfree in
/-- A fixture is never evidence of a real connector, in every run that keeps fixtures apart: each version of
a target on a real placement, and each request, is bound to an intent whose command is not a fixture's. -/
theorem realPublications_notFixtures {events : List DistributionEvent}
    (hrun : (distributionMachine.restrict fun s e =>
      DigestsOnly used s e ∧ KeepsFixturesApart s e).Run .empty events s) :
    (∀ (scope : TenantScope) targetId history manifest document placement,
      s.histories.lookup (scope.storageKey, targetId) = some history →
      s.manifests.lookup (scope.storageKey, history.last.target.manifestId) = some manifest →
      manifest.place history.last.target.ordinal = some (document, placement) →
      placement.fixture = false →
      ∀ v ∈ history.entries, ∀ id, v.target.publicationIntentId = some id → RealCommand s scope.storageKey id)
      ∧ (∀ e ∈ events, ∀ scope intent, DistributionEvent.GivesRequest scope intent e →
        RealCommand s scope.storageKey intent.intentId)
      ∧ ∀ k id, RealCommand s k id → ∀ commandId command, s.commands.lookup (k, commandId) = some command →
        command.intentId = id → command.fixture = false := by
  have hdigests : (distributionMachine.restrict (DigestsOnly used)).Run .empty events s :=
    hrun.restrict_imp fun _ _ hok => hok.1
  obtain ⟨hc, hs⟩ := publicationShape_run hfree hdigests
  have hall : (CoverageShape used s ∧ PublicationShape used s ∧ RealTargets s)
      ∧ ∀ e ∈ events, ∀ scope intent, DistributionEvent.GivesRequest scope intent e →
        RealCommand s scope.storageKey intent.intentId := by
    refine hrun.history (I := fun events s =>
      (CoverageShape used s ∧ PublicationShape used s ∧ RealTargets s)
        ∧ ∀ e ∈ events, ∀ scope intent, DistributionEvent.GivesRequest scope intent e →
          RealCommand s scope.storageKey intent.intentId) ?_ ⟨⟨.empty, .empty, ?_⟩, by simp⟩
    · rintro events s e s' ⟨⟨hc, hs, hr⟩, hgiven⟩ ⟨⟨hdigest, hapart⟩, hstep⟩
      have h : (distributionMachine.restrict (DigestsOnly used)).step s e s' := ⟨hdigest, hstep⟩
      refine ⟨⟨hc.step hfree h, (hs.step hfree hc h).1, hr.step hfree hc hs h hapart⟩, ?_⟩
      intro e' he' scope intent hgives
      rcases mem_append.mp he' with hold | hnew
      · exact (hgiven e' hold scope intent hgives).kept (hs.step hfree hc h).2
      · obtain rfl := mem_singleton.mp hnew
        exact hs.gives_real h hapart hgives
    · intro k targetId history manifest document placement h
      simp [MemoryDistributionState.empty] at h
  refine ⟨?_, hall.2, ?_⟩
  · intro scope targetId history manifest document placement hstored hmanifest hplace
    have hsame := (hc.histories _ _ _ hstored).sameCell history.last_mem
    rw [hsame.manifestId] at hmanifest
    rw [hsame.ordinal] at hplace
    exact hall.1.2.2 _ _ _ _ _ _ hstored hmanifest hplace
  · rintro k id ⟨real, hlookup, hid, hreal⟩ commandId command hcommand hsame
    have hcommandId := hs.command_unique hcommand
    rw [hsame] at hcommandId
    rw [hcommandId, hlookup] at hcommand
    rw [← some.inj hcommand, hreal]

end Fixtures

namespace Sample

/-- Nothing is published before the target is materialized. -/
theorem onlineExpanded_apart (scope' : TenantScope) (parts : List String) :
    ¬ @StoredFixture secureHash onlineExpanded scope' parts := by
  rintro ⟨_, -, hintent, -⟩
  have hmem := AList.mem_lookup_iff.mp hintent
  rw [onlineExpanded_holds.2] at hmem
  simp at hmem

theorem onlineCalls_apart :
    Calls.Allowed runSecure
      (fun s e => @DigestsOnly secureHash noLinks freezeInstant (· ∈ onlineTexts) s e
        ∧ @KeepsFixturesApart secureHash noLinks s e) .empty onlineCalls := by
  obtain ⟨⟨hfreeze, -⟩, ⟨hexpand, -⟩, ⟨hpublish, -⟩, -⟩ := onlineCalls_allowed
  refine ⟨⟨hfreeze, ?_⟩, ⟨hexpand, ?_⟩, ⟨hpublish, ?_⟩, trivial⟩
  · rintro _ _ hasks
    cases hasks with
    | coverage hcall => simp [DistributionCall.coverage] at hcall
    | request hcall => cases hcall
  · rintro _ _ hasks
    cases hasks with
    | coverage hcall => simp [DistributionCall.coverage] at hcall
    | request hcall => cases hcall
  · intro scope' parts _
    exact onlineExpanded_apart scope' parts

end Sample

open Sample

theorem realPublications_notFixtures_sample :
    ∃ id, @RealCommand secureHash
      (Calls.after runSecure .empty onlineCalls) scope.storageKey id := by
  have hrun := runSecure_allowed onlineCalls .empty onlineCalls_apart
  obtain ⟨hhistory, hmanifest⟩ := onlineCalls_published
  obtain ⟨history, hlookup, hfields⟩ := map_eq_some_iff.mp hhistory
  obtain ⟨manifest, hm, hplace⟩ := map_eq_some_iff.mp hmanifest
  simp only [Prod.mk.injEq] at hfields
  obtain ⟨hmanifestId, hordinal, -, hsome⟩ := hfields
  obtain ⟨id, hid⟩ := isSome_iff_exists.mp hsome
  exact ⟨id, (@realPublications_notFixtures secureHash noLinks _ _
    onlineTexts_free freezeInstant _ hrun).1 scope _ history manifest guide
      (placement "zhihu" false) hlookup (by rw [hmanifestId, hm]) (by rw [hordinal, hplace])
      rfl _ history.last_mem id hid⟩

namespace Sample

/-- The publication of the article. -/
def articleIntentId : Uuid :=
  @identity secureHash
    [@digest secureHash
      (publicationParts scope (articleVariant.get articleVariant_isSome) "zhihu" "article" (uuid 40))]

/-- The manifest of one cell in a cycle, where it can be frozen. -/
def cellOn (cycleId : Uuid) (fixture : Bool) : Option DistributionManifest :=
  frozen (coverageInput cycleId (uuid 100) [placement "zhihu" fixture])

theorem both_frozen : (cellOn (uuid 10) true).isSome = true ∧ (cellOn (uuid 11) false).isSome = true := by
  decide +kernel

theorem fixture_frozen : (cellOn (uuid 10) true).isSome = true :=
  both_frozen.1

theorem real_frozen : (cellOn (uuid 11) false).isSome = true :=
  both_frozen.2

def realManifest : DistributionManifest :=
  (cellOn (uuid 11) false).get real_frozen

def realCell : DistributionTarget :=
  @cellOf secureHash realManifest.manifestId 0 guide (placement "zhihu" false)

/-- A manifest of one cell is frozen and expanded in a cycle, and its target materialized. -/
def publishOn (cycleId : Uuid) (fixture : Bool) (manifest : DistributionManifest) : List DistributionCall :=
  let cell : DistributionTarget := @cellOf secureHash manifest.manifestId 0 guide (placement "zhihu" fixture)
  [.freeze scope (coverageInput cycleId (uuid 100) [placement "zhihu" fixture]) 5,
    .commitExpansionPage scope manifest.manifestId 0 [cell] fun _ => 6,
    .materialize scope (preparedArticle manifest.manifestId cell.targetId none) { createdAt := 7, recordedAt := 7 }]

/-- The article is published for a fixture and verified there, then published for a real placement. -/
def fixtureFirst : List DistributionCall :=
  publishOn (uuid 10) true ((cellOn (uuid 10) true).get fixture_frozen)
    ++ .recordIntentVerification scope articleIntentId .verified (uuid 90) :: publishOn (uuid 11) false realManifest

end Sample

/-- A target on a real placement is verified through the command of a fixture. -/
theorem fixture_verifies_real :
    ∃ events s history manifest command,
      (@distributionMachine secureHash noLinks freezeInstant).Run .empty events s
        ∧ s.histories.lookup (scope.storageKey, realCell.targetId) = some history
        ∧ s.manifests.lookup (scope.storageKey, history.last.target.manifestId) = some manifest
        ∧ manifest.place history.last.target.ordinal = some (guide, placement "zhihu" false)
        ∧ history.last.target.status = .reusedVerified
        ∧ history.last.target.publicationIntentId = some articleIntentId
        ∧ s.commands.lookup (scope.storageKey, @publishCommandId secureHash articleIntentId)
          = some command
        ∧ command.fixture = true := by
  have hrun := run_trace_all runSecure MemoryDistributionState.Reordered fixtureFirst .empty
  have hverified :
      ((after runSecure .empty fixtureFirst).histories.lookup
          (scope.storageKey, realCell.targetId)).map (fun history =>
            (history.last.target.manifestId, history.last.target.ordinal,
              history.last.target.status, history.last.target.publicationIntentId))
          = some (realManifest.manifestId, 0, .reusedVerified, some articleIntentId)
        ∧ ((after runSecure .empty fixtureFirst).manifests.lookup
          (scope.storageKey, realManifest.manifestId)).map (fun manifest => manifest.place 0)
          = some (some (guide, placement "zhihu" false))
        ∧ ((after runSecure .empty fixtureFirst).commands.lookup
          (scope.storageKey, @publishCommandId secureHash articleIntentId)).map
            PublicationCommand.fixture = some true := by
    decide +kernel
  obtain ⟨hhistory, hmanifest, hcommand⟩ := hverified
  obtain ⟨history, hlookup, hfields⟩ := map_eq_some_iff.mp hhistory
  obtain ⟨manifest, hm, hplace⟩ := map_eq_some_iff.mp hmanifest
  obtain ⟨command, hc, hfixture⟩ := map_eq_some_iff.mp hcommand
  simp only [Prod.mk.injEq] at hfields
  obtain ⟨hmanifestId, hordinal, hstatus, hintent⟩ := hfields
  refine ⟨_, _, history, manifest, command, hrun, hlookup, ?_, ?_, hstatus, hintent, hc, hfixture⟩
  · rw [hmanifestId, hm]
  · rw [hordinal, hplace]

end GeoMaster
