import Mathlib.Order.Interval.Finset.Nat
import GeoMaster.Domain.SerpObservations
import GeoMaster.Lib.Sorting

/-!
# Search targets

`Accepted` is what the check of an observation says about its results as a list in no order: `validate_iff` reads
it off the loop. From it the answer about the target follows in each case. What is not found was looked for among ranks
`1` to the depth, without a gap (`contiguousDepth_spec`), and what is found is listed by its ranks.
-/

namespace GeoMaster

open Except List Option Nat String

/-! ### Contiguous ranks -/

theorem contiguousDepth_le (ranks : Finset Nat) : contiguousDepth ranks ≤ ranks.card + 1 := by
  unfold contiguousDepth
  have hfront := takeWhile_prefix (fun rank => decide (rank ∈ ranks)) (l := List.range' 1 (ranks.card + 1))
  have h := hfront.length_le
  rw [length_range'] at h
  exact h

variable {ranks : Finset Nat}

theorem mem_of_le_contiguousDepth {rank : Nat} (hpos : 1 ≤ rank)
    (hle : rank ≤ contiguousDepth ranks) : rank ∈ ranks := by
  have hbound := contiguousDepth_le ranks
  unfold contiguousDepth at hle
  have hprefix := takeWhile_prefix (fun rank => decide (rank ∈ ranks)) (l := List.range' 1 (ranks.card + 1))
  have hindex : rank - 1 < (List.takeWhile (fun rank => decide (rank ∈ ranks))
      (List.range' 1 (ranks.card + 1))).length := by
    omega
  have hget := hprefix.getElem hindex
  have hmem := all_eq_true.mp all_takeWhile _ (getElem_mem hindex)
  rw [hget, getElem_range'] at hmem
  have hsame : 1 + 1 * (rank - 1) = rank := by omega
  rw [hsame] at hmem
  exact of_decide_eq_true hmem

/-- As many ranks as the depth counts are the ranks up to it. -/
theorem eq_Icc_of_card {matchable : Finset Nat} (hsub : matchable ⊆ ranks)
    (hcard : ranks.card = contiguousDepth matchable) : ranks = Finset.Icc 1 (contiguousDepth matchable) := by
  symm
  apply Finset.eq_of_subset_of_card_le
  · intro rank hrank
    rw [Finset.mem_Icc] at hrank
    exact hsub (mem_of_le_contiguousDepth hrank.1 hrank.2)
  · rw [hcard, card_Icc]
    omega

namespace SerpObservation

/-! ### What the check accepts -/

/-- The ranks of some results. -/
def ranksOf (results : List SerpResult) : Finset Nat :=
  (results.filterMap (·.organicRank)).toFinset

/-- The ranks of the results that have an address. -/
def matchableOf (results : List SerpResult) : Finset Nat :=
  ranksOf (results.filter (·.normalizedUrl.isSome))

theorem matchableOf_subset (results : List SerpResult) : matchableOf results ⊆ ranksOf results := by
  intro rank hrank
  rw [matchableOf, ranksOf, List.mem_toFinset] at hrank
  rw [ranksOf, List.mem_toFinset]
  obtain ⟨result, hmem, hresult⟩ := mem_filterMap.mp hrank
  exact mem_filterMap.mpr ⟨result, (mem_filter.mp hmem).1, hresult⟩

@[simp]
theorem ranksOf_cons (result : SerpResult) (results : List SerpResult) :
    ranksOf (result :: results) = result.organicRank.toFinset ∪ ranksOf results := by
  unfold ranksOf
  cases h : result.organicRank with
  | none => simp [h]
  | some rank =>
    rw [filterMap_cons_some h, toFinset_cons]
    rfl

@[simp]
theorem matchableOf_cons (result : SerpResult) (results : List SerpResult) :
    matchableOf (result :: results)
      = if result.normalizedUrl.isSome then result.organicRank.toFinset ∪ matchableOf results
        else matchableOf results := by
  unfold matchableOf
  cases h : result.normalizedUrl.isSome with
  | false => simp [h]
  | true => simp [h]

/-- What has been seen once more results are gone through. -/
def scanned (scan : RankScan) (results : List SerpResult) : RankScan where
  ranks := scan.ranks ∪ ranksOf results
  matchableRanks := scan.matchableRanks ∪ matchableOf results
  positions := scan.positions ∪ (results.map (·.position)).toFinset

theorem scanned_nil (scan : RankScan) : scanned scan [] = scan := by
  simp [scanned, ranksOf, matchableOf]

theorem scanned_cons (scan : RankScan) (result : SerpResult) (results : List SerpResult) :
    scanned (scanned scan [result]) results = scanned scan (result :: results) := by
  have hranks : ranksOf (result :: results) = ranksOf [result] ∪ ranksOf results := by
    rw [ranksOf_cons, ranksOf_cons]
    simp [ranksOf]
  have hmatchable : matchableOf (result :: results) = matchableOf [result] ∪ matchableOf results := by
    rw [matchableOf_cons, matchableOf_cons]
    split <;> simp [matchableOf, ranksOf]
  unfold scanned
  rw [hranks, hmatchable]
  simp [Finset.union_assoc]

theorem matchableRanks_scanned (results : List SerpResult) :
    (scanned .empty results).matchableRanks = matchableOf results :=
  Finset.empty_union _

variable {measurement : SerpMeasurement} {observation : SerpObservation} {result : SerpResult}
  {results : List SerpResult} {target : SerpTarget}

variable {results' : List SerpResult} {scan scan' : RankScan} {pagesReceived : Nat}

theorem ranksOf_perm (h : results.Perm results') : ranksOf results = ranksOf results' :=
  toFinset_eq_of_perm _ _ (h.filterMap _)

/-- The results have positions and ranks of their own, apart from those seen before. -/
structure Placed (scan : RankScan) (results : List SerpResult) : Prop where
  positions : (results.map (·.position)).Nodup
  newPositions : ∀ result ∈ results, result.position ∉ scan.positions
  ranks : (results.filterMap (·.organicRank)).Nodup
  newRanks : ∀ result ∈ results, ∀ rank ∈ result.organicRank, rank ∉ scan.ranks

theorem placed_cons :
    Placed scan (result :: results)
      ↔ (result.position ∉ scan.positions ∧ ∀ rank ∈ result.organicRank, rank ∉ scan.ranks)
        ∧ Placed (scanned scan [result]) results := by
  have hposition : ∀ position, position ∈ (scanned scan [result]).positions
      ↔ position ∈ scan.positions ∨ position = result.position := by
    simp [scanned, or_comm]
  have hrank : ∀ rank, rank ∈ (scanned scan [result]).ranks ↔ rank ∈ scan.ranks ∨ result.organicRank = some rank := by
    simp [scanned, ranksOf]
  constructor
  · rintro ⟨hpositions, hnew, hranks, hnewRanks⟩
    rw [map_cons, nodup_cons] at hpositions
    rw [forall_mem_cons] at hnew hnewRanks
    refine ⟨⟨hnew.1, hnewRanks.1⟩, hpositions.2, ?_, ?_, ?_⟩
    · intro other hother hseen
      rcases (hposition _).mp hseen with hseen | hseen
      · exact hnew.2 other hother hseen
      · exact hpositions.1 (mem_map.mpr ⟨other, hother, hseen⟩)
    · cases hown : result.organicRank with
      | none =>
        rw [filterMap_cons_none hown] at hranks
        exact hranks
      | some own =>
        rw [filterMap_cons_some hown, nodup_cons] at hranks
        exact hranks.2
    · intro other hother rank hmem hseen
      rcases (hrank rank).mp hseen with hseen | hseen
      · exact hnewRanks.2 other hother rank hmem hseen
      · rw [filterMap_cons_some hseen, nodup_cons] at hranks
        exact hranks.1 (mem_filterMap.mpr ⟨other, hother, hmem⟩)
  · rintro ⟨⟨hown, hownRank⟩, hpositions, hnew, hranks, hnewRanks⟩
    constructor
    · rw [map_cons, nodup_cons]
      refine ⟨fun hmem => ?_, hpositions⟩
      obtain ⟨other, hother, hsame⟩ := mem_map.mp hmem
      exact hnew other hother ((hposition _).mpr (.inr hsame))
    · rw [forall_mem_cons]
      exact ⟨hown, fun other hother hseen => hnew other hother ((hposition _).mpr (.inl hseen))⟩
    · cases hsome : result.organicRank with
      | none =>
        rw [filterMap_cons_none hsome]
        exact hranks
      | some rank =>
        rw [filterMap_cons_some hsome, nodup_cons]
        refine ⟨fun hmem => ?_, hranks⟩
        obtain ⟨other, hother, hsame⟩ := mem_filterMap.mp hmem
        exact hnewRanks other hother rank hsame ((hrank rank).mpr (.inr hsome))
    · rw [forall_mem_cons]
      exact ⟨hownRank, fun other hother rank hmem hseen =>
        hnewRanks other hother rank hmem ((hrank rank).mpr (.inl hseen))⟩

/-! ### The results that match -/

/-- A result matches a target that is normalized. -/
def isHit (target : SerpTarget) (result : SerpResult) : Bool :=
  match target with
  | .url wanted => result.normalizedUrl = some wanted
  | .host wanted includeSubdomains =>
    result.host.any fun resultHost =>
      resultHost = wanted || (includeSubdomains && Text.endsWith resultHost ("." ++ wanted))

/-- The rank under which a result counts for a target that is normalized. -/
def countedRank (target : SerpTarget) (result : SerpResult) : Option Nat :=
  if result.kind = .organic ∧ isHit target result = true then result.organicRank else none

/-- The ranks that count, in increasing order. -/
def countedRanks (target : SerpTarget) (results : List SerpResult) : List Nat :=
  (results.filterMap (countedRank target)).insertionSort (· ≤ ·)

theorem mem_countedRanks {rank : Nat} :
    rank ∈ countedRanks target results
      ↔ ∃ result ∈ results, result.kind = .organic ∧ isHit target result = true ∧ result.organicRank = some rank := by
  unfold countedRanks
  rw [(List.perm_insertionSort _ _).mem_iff, List.mem_filterMap]
  simp only [countedRank, Option.ite_none_right_eq_some, and_assoc]

theorem countedRanks_sorted (h : (results.filterMap (·.organicRank)).Nodup) :
    (countedRanks target results).Pairwise (· < ·) := by
  have hsub : (results.filterMap (countedRank target)).Sublist (results.filterMap (·.organicRank)) := by
    clear h
    induction results with
    | nil => exact List.Sublist.slnil
    | cons result _ ih =>
      by_cases hcounts : result.kind = .organic ∧ isHit target result = true
      · have hsame : countedRank target result = result.organicRank := if_pos hcounts
        cases hrank : result.organicRank with
        | none =>
          rw [filterMap_cons_none (hsame.trans hrank), filterMap_cons_none hrank]
          exact ih
        | some rank =>
          rw [filterMap_cons_some (hsame.trans hrank), filterMap_cons_some hrank]
          exact ih.cons_cons rank
      · have hnone : countedRank target result = none := if_neg hcounts
        rw [filterMap_cons_none hnone]
        cases hrank : result.organicRank with
        | none =>
          rw [filterMap_cons_none hrank]
          exact ih
        | some rank =>
          rw [filterMap_cons_some hrank]
          exact ih.cons rank
  have hnodup : (countedRanks target results).Nodup := (List.perm_insertionSort _ _).nodup_iff.mpr (hsub.nodup h)
  have hsorted : (countedRanks target results).Pairwise (· ≤ ·) := pairwise_insertionSort _ _
  exact (hsorted.and hnodup).imp fun hpair => lt_of_le_of_ne hpair.1 hpair.2

/-- Lists in increasing order with the same members are the same. -/
theorem eq_of_increasing {ranks ranks' : List Nat} (h : ranks.Pairwise (· < ·)) (h' : ranks'.Pairwise (· < ·))
    (hmem : ∀ rank, rank ∈ ranks ↔ rank ∈ ranks') : ranks = ranks' := by
  have hperm : ranks.Perm ranks' := (perm_ext_iff_of_nodup (h.imp ne_of_lt) (h'.imp ne_of_lt)).mpr hmem
  exact hperm.eq_of_pairwise (fun a b _ _ hab hba => absurd hab (lt_asymm hba)) h h'

theorem countedRanks_organic (target : SerpTarget) (results : List SerpResult) :
    countedRanks target (results.filter fun result => result.kind = .organic) = countedRanks target results := by
  unfold countedRanks
  congr 1
  induction results with
  | nil => rfl
  | cons result _ ih =>
    by_cases horganic : result.kind = .organic
    · rw [filter_cons_of_pos (by simp [horganic])]
      cases hcounted : countedRank target result with
      | none => rw [filterMap_cons_none hcounted, filterMap_cons_none hcounted, ih]
      | some rank => rw [filterMap_cons_some hcounted, filterMap_cons_some hcounted, ih]
    · have hnone : countedRank target result = none := if_neg fun h => horganic h.1
      rw [filter_cons_of_neg (by simp [horganic]), filterMap_cons_none hnone, ih]

theorem countedRanks_perm (h : results.Perm results') : countedRanks target results = countedRanks target results' :=
  Sorting.insertionSort_eq_of_perm (h.filterMap _) fun _ _ _ _ => le_antisymm

theorem endsWith_iff {s suffix : String} : Text.endsWith s suffix = true ↔ ∃ pre, s = pre ++ suffix := by
  unfold Text.endsWith
  rw [isSuffixOf_iff_suffix]
  constructor
  · rintro ⟨front, hfront⟩
    refine ⟨String.ofList front, toList_injective ?_⟩
    rw [toList_append, toList_ofList]
    exact hfront.symm
  · rintro ⟨front, rfl⟩
    rw [toList_append]
    exact ⟨front.toList, rfl⟩

/-- A host with subdomains matches itself and what ends with it at the boundary of a label. -/
theorem isHit_subdomains {wanted : String} :
    isHit (.host wanted true) result = true
      ↔ ∃ resultHost, result.host = some resultHost
        ∧ (resultHost = wanted ∨ ∃ labels, resultHost = labels ++ ("." ++ wanted)) := by
  simp only [isHit, Option.any_eq_true, Bool.or_eq_true, decide_eq_true_eq, Bool.true_and, endsWith_iff]

/-! ### The check -/

variable [UrlWriter]

/-- The results one by one: each is valid, on a page that was received. -/
def Sound (pagesReceived : Nat) (result : SerpResult) : Prop :=
  result.validate = .ok () ∧ ∀ page ∈ result.page, page ≤ pagesReceived

theorem scanResult_eq_ok :
    scanResult pagesReceived scan result = .ok scan'
      ↔ Sound pagesReceived result ∧ result.position ∉ scan.positions
        ∧ (∀ rank ∈ result.organicRank, rank ∉ scan.ranks) ∧ scan' = scanned scan [result] := by
  have hscanned : scanned scan [result] =
      { ranks := scan.ranks ∪ result.organicRank.toFinset
        matchableRanks :=
          if result.normalizedUrl.isSome then scan.matchableRanks ∪ result.organicRank.toFinset
          else scan.matchableRanks
        positions := insert result.position scan.positions } := by
    unfold scanned
    rw [ranksOf_cons, matchableOf_cons]
    split <;> simp [ranksOf, matchableOf, Finset.union_comm]
  rw [hscanned]
  unfold scanResult Sound
  simp only [eq_ok_iff, not_or, not_exists, not_and, not_lt, gt_iff_lt]
  constructor
  · rintro ⟨_, hvalid, _, ⟨hpage, hposition, hrank⟩, hsame⟩
    exact ⟨⟨hvalid, hpage⟩, hposition, hrank, hsame.symm⟩
  · rintro ⟨⟨hvalid, hpage⟩, hposition, hrank, hsame⟩
    exact ⟨(), hvalid, (), ⟨hpage, hposition, hrank⟩, hsame.symm⟩

/-- The loop accepts results that are sound, in places of their own, and collects their ranks. -/
theorem foldlM_scanResult :
    results.foldlM (scanResult pagesReceived) scan = .ok scan'
      ↔ (∀ result ∈ results, Sound pagesReceived result) ∧ Placed scan results ∧ scan' = scanned scan results := by
  induction results generalizing scan with
  | nil =>
    rw [foldlM_nil, pure_eq_ok, scanned_nil]
    constructor
    · rintro rfl
      exact ⟨by simp, ⟨by simp, by simp, by simp, by simp⟩, rfl⟩
    · exact fun h => h.2.2.symm
  | cons result results ih =>
    rw [foldlM_cons, bind_eq_ok, placed_cons, forall_mem_cons]
    constructor
    · rintro ⟨_, hstep, hrest⟩
      obtain ⟨hsound, hposition, hrank, rfl⟩ := scanResult_eq_ok.mp hstep
      obtain ⟨hall, hplaced, hsame⟩ := ih.mp hrest
      exact ⟨⟨hsound, hall⟩, ⟨⟨hposition, hrank⟩, hplaced⟩, hsame.trans (scanned_cons scan result results)⟩
    · rintro ⟨⟨hsound, hall⟩, ⟨⟨hposition, hrank⟩, hplaced⟩, hsame⟩
      refine ⟨scanned scan [result], scanResult_eq_ok.mpr ⟨hsound, hposition, hrank, rfl⟩, ?_⟩
      exact ih.mpr ⟨hall, hplaced, hsame.trans (scanned_cons scan result results).symm⟩

/-- What the check of an observation accepts. -/
structure Accepted (observation : SerpObservation) (measurement : SerpMeasurement) : Prop where
  protocol : measurement.protocol.validate = .ok ()
  target : measurement.checkTarget = .ok ()
  frame : observation.checkFrame measurement = .ok ()
  sound : ∀ result ∈ observation.results, Sound observation.coverage.pagesReceived result
  placed : Placed .empty observation.results
  depth : observation.coverage.observedOrganicDepth = contiguousDepth (matchableOf observation.results)
  completion : observation.coverage.checkCompletion observation.coverage.observedOrganicDepth = .ok ()
  outcome : observation.checkOutcome (scanned .empty observation.results)
    observation.coverage.observedOrganicDepth = .ok ()
  conditions : observation.checkConditions = .ok ()

theorem validate_iff : observation.validate measurement = .ok () ↔ Accepted observation measurement := by
  unfold validate
  simp only [eq_ok_iff, foldlM_scanResult, not_not]
  constructor
  · rintro ⟨_, hprotocol, _, htarget, _, hframe, scan, ⟨hsound, hplaced, rfl⟩, _, hdepth, _, hcompletion, _,
      houtcome, hconditions⟩
    rw [← hdepth] at hcompletion houtcome
    rw [matchableRanks_scanned] at hdepth
    exact ⟨hprotocol, htarget, hframe, hsound, hplaced, hdepth, hcompletion, houtcome, hconditions⟩
  · intro h
    have hdepth : observation.coverage.observedOrganicDepth
        = contiguousDepth (scanned .empty observation.results).matchableRanks := by
      rw [matchableRanks_scanned]
      exact h.depth
    refine ⟨(), h.protocol, (), h.target, (), h.frame, scanned .empty observation.results,
      ⟨h.sound, h.placed, rfl⟩, (), hdepth, (), ?_, (), ?_, h.conditions⟩
    · rw [← hdepth]
      exact h.completion
    · rw [← hdepth]
      exact h.outcome

/-! ### The order of the results -/

theorem Accepted.perm (h : Accepted observation measurement)
    (hperm : observation.results.Perm results') : Accepted { observation with results := results' } measurement where
  protocol := h.protocol
  target := h.target
  frame := by
    have hframe := h.frame
    unfold checkFrame at hframe ⊢
    rw [hperm.length_eq] at hframe
    exact hframe
  sound := fun result hmem => h.sound result (hperm.mem_iff.mpr hmem)
  placed :=
    { positions := (hperm.map _).nodup_iff.mp h.placed.positions
      newPositions := fun result hmem => h.placed.newPositions result (hperm.mem_iff.mpr hmem)
      ranks := (hperm.filterMap _).nodup_iff.mp h.placed.ranks
      newRanks := fun result hmem => h.placed.newRanks result (hperm.mem_iff.mpr hmem) }
  depth := by
    have hsame : matchableOf results' = matchableOf observation.results := ranksOf_perm (hperm.symm.filter _)
    show observation.coverage.observedOrganicDepth = contiguousDepth (matchableOf results')
    rw [hsame]
    exact h.depth
  completion := h.completion
  outcome := by
    have houtcome := h.outcome
    have hranks : (scanned .empty results').ranks = (scanned .empty observation.results).ranks :=
      congrArg (Finset.empty ∪ ·) (ranksOf_perm hperm.symm)
    have hnil : results' ≠ [] ↔ observation.results ≠ [] :=
      not_congr ⟨fun hsame => (hsame ▸ hperm).eq_nil, fun hsame => (hsame ▸ hperm).symm.eq_nil⟩
    unfold checkOutcome at houtcome ⊢
    simp only [failIf_eq_ok] at houtcome ⊢
    rw [hranks]
    simp only [hnil, ← hperm.mem_iff]
    exact houtcome
  conditions := h.conditions

theorem matches_eq {normalized : SerpTarget} (hvalid : result.validate = .ok ())
    (hnormalized : target.normalized = .ok normalized) : target.matches result = .ok (isHit normalized result) := by
  unfold SerpTarget.matches
  rw [hvalid, hnormalized]
  cases normalized <;> rfl

theorem foldlM_countResult {normalized : SerpTarget} {found : List Nat}
    (hvalid : ∀ result ∈ results, result.validate = .ok ()) (hnormalized : target.normalized = .ok normalized) :
    results.foldlM (countResult target) found = .ok (found ++ results.filterMap (countedRank normalized)) := by
  induction results generalizing found with
  | nil => simp [pure, Except.pure]
  | cons result results ih =>
    rw [forall_mem_cons] at hvalid
    have hstep : countResult target found result = .ok (found ++ (countedRank normalized result).toList) := by
      unfold countResult countedRank
      by_cases horganic : result.kind = .organic
      · rw [if_pos horganic, matches_eq hvalid.1 hnormalized]
        cases hhit : isHit normalized result with
        | true => simp [horganic, pure, Except.pure, bind, Except.bind]
        | false => simp [pure, Except.pure, bind, Except.bind]
      · rw [if_neg horganic, if_neg fun h => horganic h.1]
        simp [pure, Except.pure]
    rw [foldlM_cons, hstep]
    show results.foldlM (countResult target) _ = _
    rw [ih hvalid.2, List.append_assoc]
    cases hcounted : countedRank normalized result with
    | none => rw [filterMap_cons_none hcounted]; rfl
    | some rank => rw [filterMap_cons_some hcounted]; rfl

theorem targetMatch_eq {normalized : SerpTarget} (h : Accepted observation measurement)
    (htarget : measurement.target = some target) (hnormalized : target.normalized = .ok normalized) :
    observation.targetMatch measurement
      = .ok (if countedRanks normalized observation.results ≠ [] then
          .hit (countedRanks normalized observation.results)
        else if observation.status = .observed then
          .notFoundWithinDepth observation.coverage.observedOrganicDepth
        else .undetermined) := by
  unfold targetMatch
  rw [validate_iff.mpr h, htarget]
  show (observation.results.foldlM (countResult target) [] >>= _) = _
  rw [foldlM_countResult (fun result hmem => (h.sound result hmem).1) hnormalized]
  show (if countedRanks normalized observation.results ≠ [] then _ else _) = _
  split
  · rfl
  · split <;> rfl

theorem Accepted.normalized (h : Accepted observation measurement) (htarget : measurement.target = some target) :
    ∃ normalized, target.normalized = .ok normalized := by
  have hcheck := h.target
  unfold SerpMeasurement.checkTarget at hcheck
  rw [htarget] at hcheck
  cases hnormalized : target.normalized with
  | ok normalized => exact ⟨normalized, rfl⟩
  | error e =>
    simp only [hnormalized] at hcheck
    cases hcheck

/-! ### What is not found -/

theorem normalized_of_valid (h : result.validate = .ok ()) : result.normalized.map (·.1) = result.normalizedUrl := by
  unfold SerpResult.validate at h
  rw [failIf_eq_ok] at h
  simp only [not_or, not_not] at h
  exact h.1

theorem rank_of_valid {rank : Nat} (h : result.validate = .ok ()) (hrank : result.organicRank = some rank) :
    result.kind = .organic ∧ 1 ≤ rank := by
  unfold SerpResult.validate at h
  rw [failIf_eq_ok] at h
  simp only [not_or, not_not, not_and] at h
  obtain ⟨-, -, -, -, -, -, -, -, hzero, -, hkind, -⟩ := h
  constructor
  · by_contra hother
    rw [hrank] at hkind
    exact hkind hother rfl
  · rw [hrank] at hzero
    exact pos_of_ne_zero fun hsame => hzero (congrArg some hsame)

/-- An address that is kept is what the raw address normalizes to. -/
theorem normalizes_of_valid {address : String} (h : result.validate = .ok ())
    (haddress : result.normalizedUrl = some address) :
    ∃ raw host, result.rawUrl = some raw ∧ normalizeSerpUrl raw = .ok (address, host) := by
  have hnormalized := normalized_of_valid h
  rw [haddress] at hnormalized
  obtain ⟨⟨_, host⟩, hsome, rfl⟩ := map_eq_some_iff.mp hnormalized
  unfold SerpResult.normalized at hsome
  obtain ⟨raw, hraw, hparsed⟩ := bind_eq_some_iff.mp hsome
  refine ⟨raw, host, hraw, ?_⟩
  cases hresult : normalizeSerpUrl raw with
  | ok normalized =>
    rw [hresult] at hparsed
    cases hparsed
    rfl
  | error e =>
    rw [hresult] at hparsed
    cases hparsed

/-- The organic results are those of ranks `1` to the depth, each with an address, and none of them matches. The
depth is the requested one, or the provider says where the results end. -/
structure NotAmong (observation : SerpObservation) (target : SerpTarget) (depth : Nat) : Prop where
  ranks : ∀ rank, (∃ result ∈ observation.results, result.kind = .organic ∧ result.organicRank = some rank)
    ↔ 1 ≤ rank ∧ rank ≤ depth
  ranksOnce : (observation.results.filterMap (·.organicRank)).Nodup
  ranked : ∀ result ∈ observation.results, result.kind = .organic → result.organicRank.isSome
  addressed : ∀ result ∈ observation.results, result.kind = .organic →
    ∃ raw address host, result.rawUrl = some raw ∧ normalizeSerpUrl raw = .ok (address, host)
      ∧ result.normalizedUrl = some address
  unmatched : ∀ result ∈ observation.results, result.kind = .organic → target.matches result = .ok false
  reached : observation.coverage.requestedDepth ≤ depth
    ∨ observation.coverage.completion = .providerExhausted
      ∧ ∃ locator, observation.coverage.exhaustionEvidenceLocator = some locator
        ∧ Serp.label locator 1024 = true ∧ Text.startsWith locator "/" = true

/-- An observation that is complete covers the organic results up to its depth. -/
theorem Accepted.notAmong {normalized : SerpTarget} (h : Accepted observation measurement)
    (hobserved : observation.status = .observed) (hnormalized : target.normalized = .ok normalized)
    (hnone : countedRanks normalized observation.results = []) :
    NotAmong observation target observation.coverage.observedOrganicDepth := by
  have houtcome := h.outcome
  unfold checkOutcome at houtcome
  rw [failIf_eq_ok] at houtcome
  simp only [not_or, not_and, not_exists, Decidable.not_not, Bool.not_eq_true, Option.isNone_eq_false_iff] at houtcome
  obtain ⟨-, hgaps, hcomplete, -, -⟩ := houtcome
  have hcompleted : observation.complete = true := Bool.eq_true_of_not_eq_false (hcomplete hobserved)
  obtain ⟨hcard, hplaced⟩ := hgaps hcompleted
  -- As many ranks as the depth counts: they are the ranks up to it.
  have hranks : ranksOf observation.results = Finset.Icc 1 observation.coverage.observedOrganicDepth := by
    rw [h.depth]
    refine eq_Icc_of_card (matchableOf_subset _) ?_
    rw [← h.depth, ← hcard]
    exact congrArg Finset.card (Finset.empty_union _).symm
  have hvalid : ∀ result ∈ observation.results, result.validate = .ok () := fun result hmem => (h.sound result hmem).1
  constructor
  case ranks =>
    intro rank
    have hmem : rank ∈ ranksOf observation.results
        ↔ ∃ result ∈ observation.results, result.organicRank = some rank := by
      rw [ranksOf, List.mem_toFinset, List.mem_filterMap]
    rw [← Finset.mem_Icc, ← hranks, hmem]
    constructor
    · rintro ⟨result, hresult, -, hrank⟩
      exact ⟨result, hresult, hrank⟩
    · rintro ⟨result, hresult, hrank⟩
      exact ⟨result, hresult, (rank_of_valid (hvalid result hresult) hrank).1, hrank⟩
  case ranksOnce => exact h.placed.ranks
  case ranked => exact fun result hmem horganic => (hplaced result hmem horganic).1
  case addressed =>
    intro result hmem horganic
    obtain ⟨address, haddress⟩ := isSome_iff_exists.mp (hplaced result hmem horganic).2
    obtain ⟨raw, host, hraw, hsame⟩ := normalizes_of_valid (hvalid result hmem) haddress
    exact ⟨raw, address, host, hraw, hsame, haddress⟩
  case unmatched =>
    intro result hmem horganic
    rw [matches_eq (hvalid result hmem) hnormalized]
    cases hhit : isHit normalized result with
    | false => rfl
    | true =>
      obtain ⟨rank, hrank⟩ := isSome_iff_exists.mp (hplaced result hmem horganic).1
      have hcounted : rank ∈ countedRanks normalized observation.results :=
        mem_countedRanks.mpr ⟨result, hmem, horganic, hhit, hrank⟩
      rw [hnone] at hcounted
      cases hcounted
  case reached =>
    have hcompletion := h.completion
    unfold SerpCoverage.checkCompletion at hcompletion
    cases hkind : observation.coverage.completion with
    | requestedDepth =>
      simp only [hkind, failIf_eq_ok, not_lt] at hcompletion
      exact .inl hcompletion
    | providerExhausted =>
      simp only [hkind, failIf_eq_ok, not_not, Option.any_eq_true, Bool.and_eq_true] at hcompletion
      obtain ⟨locator, hlocator, hlabel, hslash⟩ := hcompletion
      exact .inr ⟨rfl, locator, hlocator, hlabel, hslash⟩
    | isPartial =>
      unfold complete at hcompleted
      rw [hkind] at hcompleted
      exact absurd hcompleted (by decide)

/-! ### The answer -/

theorem normalized_host {host : String} {includeSubdomains : Bool} {normalized : SerpTarget}
    (h : (SerpTarget.host host includeSubdomains).normalized = .ok normalized) :
    ∃ wanted, normalized = .host wanted includeSubdomains := by
  unfold SerpTarget.normalized at h
  simp only [eq_ok_iff] at h
  obtain ⟨_, -, parsed, -, rfl⟩ := h
  exact ⟨parsed.2, rfl⟩

/-- Absence is claimed only of a depth that was searched without a gap, and a hit lists the ranks of the organic
results that match. Neither the order of the results nor what is no organic result changes the answer. -/
theorem targetMatch_earned {observation : SerpObservation} {measurement : SerpMeasurement} {target : SerpTarget}
    (hvalid : observation.validate measurement = .ok ()) (htarget : measurement.target = some target) :
    (∀ depth, observation.targetMatch measurement = .ok (.notFoundWithinDepth depth) →
        NotAmong observation target depth)
      ∧ (∀ ranks, observation.targetMatch measurement = .ok (.hit ranks)
          ↔ ranks ≠ [] ∧ ranks.Pairwise (· < ·)
            ∧ ∀ rank, rank ∈ ranks ↔ ∃ result ∈ observation.results, result.kind = .organic
              ∧ target.matches result = .ok true ∧ result.organicRank = some rank)
      ∧ ((∀ depth, observation.targetMatch measurement ≠ .ok (.notFoundWithinDepth depth)) →
          (∀ ranks, observation.targetMatch measurement ≠ .ok (.hit ranks)) →
          observation.targetMatch measurement = .ok .undetermined)
      ∧ (∀ results', results'.filter (fun result => result.kind = .organic)
            = observation.results.filter (fun result => result.kind = .organic) →
          { observation with results := results' }.validate measurement = .ok () →
          { observation with results := results' }.targetMatch measurement = observation.targetMatch measurement)
      ∧ (∀ results', observation.results.Perm results' →
          { observation with results := results' }.targetMatch measurement = observation.targetMatch measurement)
      ∧ ∀ host, target = .host host true → ∃ wanted, target.normalized = .ok (.host wanted true)
          ∧ ∀ result ∈ observation.results, target.matches result = .ok true
            ↔ ∃ resultHost, result.host = some resultHost
              ∧ (resultHost = wanted ∨ ∃ labels, resultHost = labels ++ ("." ++ wanted)) := by
  have haccepted := validate_iff.mp hvalid
  obtain ⟨normalized, hnormalized⟩ := haccepted.normalized htarget
  have hanswer := targetMatch_eq haccepted htarget hnormalized
  have hmatches : ∀ result ∈ observation.results,
      target.matches result = .ok true ↔ isHit normalized result = true := by
    intro result hmem
    rw [matches_eq (haccepted.sound result hmem).1 hnormalized, Except.ok.injEq]
  have hranks : ∀ rank, rank ∈ countedRanks normalized observation.results
      ↔ ∃ result ∈ observation.results, result.kind = .organic
        ∧ target.matches result = .ok true ∧ result.organicRank = some rank := by
    intro rank
    rw [mem_countedRanks]
    refine exists_congr fun result => and_congr_right fun hmem => ?_
    rw [hmatches result hmem]
  refine ⟨?_, ?_, ?_, ?_, ?_, ?_⟩
  · intro depth hdepth
    rw [hanswer] at hdepth
    split at hdepth
    · cases hdepth
    · rename_i hnone
      split at hdepth
      · rename_i hobserved
        cases hdepth
        exact haccepted.notAmong hobserved hnormalized (Decidable.not_not.mp hnone)
      · cases hdepth
  · intro ranks
    rw [hanswer]
    constructor
    · intro hhit
      split at hhit
      · rename_i hsome
        cases hhit
        exact ⟨hsome, countedRanks_sorted haccepted.placed.ranks, hranks⟩
      · split at hhit <;> cases hhit
    · rintro ⟨hsome, hsorted, hmem⟩
      have hsame : ranks = countedRanks normalized observation.results :=
        eq_of_increasing hsorted (countedRanks_sorted haccepted.placed.ranks)
          fun rank => (hmem rank).trans (hranks rank).symm
      rw [← hsame, if_pos hsome]
  · intro hnotFound hnoHit
    rw [hanswer] at hnotFound hnoHit ⊢
    split
    · rename_i hsome
      rw [if_pos hsome] at hnoHit
      exact absurd rfl (hnoHit _)
    · rename_i hnone
      rw [if_neg hnone] at hnotFound
      split
      · rename_i hobserved
        rw [if_pos hobserved] at hnotFound
        exact absurd rfl (hnotFound _)
      · rfl
  · intro results' hsame hvalid'
    rw [hanswer, targetMatch_eq (validate_iff.mp hvalid') htarget hnormalized]
    show Except.ok (if countedRanks normalized results' ≠ [] then _ else _) = _
    rw [← countedRanks_organic normalized results', hsame, countedRanks_organic]
  · intro results' hperm
    rw [hanswer, targetMatch_eq (haccepted.perm hperm) htarget hnormalized]
    show Except.ok (if countedRanks normalized results' ≠ [] then _ else _) = _
    rw [← countedRanks_perm hperm]
  · rintro host rfl
    obtain ⟨wanted, rfl⟩ := normalized_host hnormalized
    refine ⟨wanted, hnormalized, fun result hmem => ?_⟩
    rw [hmatches result hmem]
    exact isHit_subdomains

end SerpObservation

/-! ### A sample search -/

namespace Sample

/-- Addresses of three hosts. -/
@[reducible] def threeHosts : UrlWriter where
  parse raw :=
    if raw = "https://b.example/" then some (page "b.example")
    else if raw = "https://a.example/" then some (page "a.example")
    else if raw = "https://shop.b.example/" then some (page "shop.b.example")
    else none
  join _ _ := none
  withoutFragment raw := raw
where
  page (host : String) : UrlParts :=
    { scheme := "https", host := some host, username := "", password := none, path := "/" }

attribute [local instance] threeHosts

def searchProtocol : SerpProtocol where
  query := "query"
  engine := .google
  surface := .thirdPartyApi
  source := "dataforseo"
  sourceLocationCode := "2276"
  country := "DE"
  city := none
  language := "de"
  device := .desktop
  operatingSystem := "windows"
  requestedDepth := 10
  maxPages := 1
  priority := 1
  login := "unspecified"
  personalization := "unspecified"
  protocolVersion := serpProtocolVersion
  connectorVersion := "1"

def searchMeasurement : SerpMeasurement where
  measurementId := uuid 1
  sourceKey := "source"
  protocol := searchProtocol
  target := some (.host "b.example" true)
  targetRuleVersion := serpTargetRuleVersion
  questionBinding := none
  scheduledAt := 0
  createdAt := 0
  state := .queued

def foundAt (kind : SerpResultKind) (host : String) (position : Nat) (rank : Option Nat) : SerpResult where
  kind := kind
  rawKind := "result"
  rawUrl := some ("https://" ++ host ++ "/")
  normalizedUrl := some ("https://" ++ host ++ "/")
  host := some host
  normalizationVersion := serpUrlRuleVersion
  title := none
  page := some 1
  position := position
  organicRank := rank
  absolutePosition := none
  locator := "/results"

/-- An advertisement of the target, and one organic result, after which the provider reports no more. -/
def searchObservation : SerpObservation where
  observationId := uuid 2
  measurementId := uuid 1
  attemptId := uuid 3
  rawEvidenceId := uuid 4
  rawSha256 := "0123456789abcdef0123456789abcdef0123456789abcdef0123456789abcdef"
  parserVersion := "1"
  providerObservedAt := none
  receivedAt := 5
  analyzedAt := 6
  status := .observed
  actualConditions := ⟨none, none, none, none, none, none⟩
  coverage :=
    { requestedDepth := 10, observedOrganicDepth := 1, pagesReceived := 1, completion := .providerExhausted
      truncated := false, exhaustionEvidenceLocator := some "/end" }
  results := [foundAt .advertisement "shop.b.example" 1 none, foundAt .organic "a.example" 2 (some 1)]
  sourceLimitations := []

theorem searchObservation_valid : searchObservation.validate searchMeasurement = .ok () := by
  decide +kernel

theorem targetMatch_earned_sample :
    searchObservation.targetMatch searchMeasurement = .ok (.notFoundWithinDepth 1)
      ∧ searchObservation.NotAmong (.host "b.example" true) 1 := by
  have hanswer : searchObservation.targetMatch searchMeasurement = .ok (.notFoundWithinDepth 1) := by
    decide +kernel
  exact ⟨hanswer, (SerpObservation.targetMatch_earned searchObservation_valid rfl).1 1 hanswer⟩

end Sample

end GeoMaster
