import GeoMaster.Domain.ObservationExtraction
import GeoMaster.Lib.Paging
import GeoMaster.Lib.Sorting

/-!
# The backfill scan

A scan reads the captures page by page behind a cursor, so it ends, and what it has read so far is a first part
of the sources behind the cursor. Of that part it keeps the sources without an intent. Intents are only added
while a scan runs and between two scans, so a source that was left out has an intent from then on.
-/

namespace GeoMaster

open Op Except AssocMap List Option Nat Paging

/-! ### The sources of a store -/

/-- The place of a source in a scan. -/
def ObservationCaptureSourceItem.place (source : ObservationCaptureSourceItem) : Nat :=
  source.captureId.bits.toNat

/-- What a scan returns of a source. -/
def ObservationCaptureSourceItem.item (source : ObservationCaptureSourceItem) : ObservationExtractionBackfillItem :=
  { scope := source.scope, captureId := source.captureId }

theorem Uuid.le_iff_toNat {a b : Uuid} : a ≤ b ↔ a.bits.toNat ≤ b.bits.toNat :=
  BitVec.le_def

theorem Uuid.lt_iff_toNat {a b : Uuid} : a < b ↔ a.bits.toNat < b.bits.toNat :=
  BitVec.lt_def

namespace MemoryObservationCaptureRepository

variable {captures : MemoryObservationCaptureRepository} {asOf : DateTime}

/-- Every capture is stored under its identifier. -/
def Keyed (captures : MemoryObservationCaptureRepository) : Prop :=
  ∀ id stored, captures.lookup id = some stored → stored.2.input.captureId = id

/-- What a scan of captures reports. -/
def sourceItem (stored : TenantScope × ObservationCapture) : ObservationCaptureSourceItem :=
  { scope := stored.1, captureId := stored.2.input.captureId }

/-- All sources stored by the cutoff, in the order of a scan. -/
def sources (captures : MemoryObservationCaptureRepository) (asOf : DateTime) : List ObservationCaptureSourceItem :=
  (((values captures).filter (isFound asOf none)).map sourceItem).insertionSort fun a b => a.captureId ≤ b.captureId

instance : Std.Total fun a b : ObservationCaptureSourceItem => a.captureId ≤ b.captureId where
  total a b := BitVec.le_total a.captureId.bits b.captureId.bits

instance : IsTrans ObservationCaptureSourceItem fun a b => a.captureId ≤ b.captureId where
  trans _ _ _ hab hbc := BitVec.le_trans hab hbc

variable {source : ObservationCaptureSourceItem}

theorem mem_sources :
    source ∈ captures.sources asOf
      ↔ ∃ stored ∈ values captures, isFound asOf none stored = true ∧ sourceItem stored = source := by
  rw [sources, (List.perm_insertionSort _ _).mem_iff, List.mem_map]
  simp only [List.mem_filter, and_assoc]

/-- The sources stand in the order of their places, no place twice. -/
theorem sorted_sources (hkeyed : captures.Keyed) :
    Paging.Sorted ObservationCaptureSourceItem.place (captures.sources asOf) := by
  have hids : ((values captures).map fun stored => stored.2.input.captureId).Nodup := by
    rw [map_values_of_keyed hkeyed]
    exact AList.keys_nodup _
  have hnodup : ((values captures).filter (isFound asOf none)).Pairwise fun a b =>
      a.2.input.captureId ≠ b.2.input.captureId :=
    (pairwise_map.mp hids).filter _
  have hapart : (captures.sources asOf).Pairwise fun a b => a.captureId ≠ b.captureId := by
    refine (List.Perm.pairwise_iff (fun h => h.symm) (perm_insertionSort _ _)).mpr ?_
    exact pairwise_map.mpr hnodup
  have hordered : (captures.sources asOf).Pairwise fun a b => a.captureId ≤ b.captureId := pairwise_insertionSort _ _
  refine (hapart.and hordered).imp fun {a b} h => ?_
  refine lt_of_le_of_ne (Uuid.le_iff_toNat.mp h.2) fun hplace => h.1 ?_
  have hbits : a.captureId.bits = b.captureId.bits := BitVec.eq_of_toNat_eq hplace
  show (⟨a.captureId.bits⟩ : Uuid) = ⟨b.captureId.bits⟩
  rw [hbits]

theorem scanSources_eq {limit : Nat} (hlow : 1 ≤ limit) (hhigh : limit ≤ 100) (after : Option Uuid) :
    captures.scanSources asOf after limit
      = .ok (Paging.page ObservationCaptureSourceItem.place (after.map fun id => id.bits.toNat) limit
          (captures.sources asOf)) := by
  have hfilter : (((values captures).filter (isFound asOf after)).map sourceItem)
      = (((values captures).filter (isFound asOf none)).map sourceItem).filter fun source =>
        decide (∀ cursor ∈ after.map fun id => id.bits.toNat, cursor < source.place) := by
    rw [List.filter_map, List.filter_filter]
    congr 1
    refine filter_congr fun stored _ => ?_
    cases after with
    | none => simp [isFound]
    | some id =>
      have hbehind : (∀ cursor ∈ (some id).map fun id => id.bits.toNat, cursor < (sourceItem stored).place)
          ↔ id < stored.2.input.captureId := by
        rw [Uuid.lt_iff_toNat]
        simp [ObservationCaptureSourceItem.place, sourceItem]
      rw [Bool.eq_iff_iff]
      simp only [isFound, Option.all_some, Option.all_none, Bool.and_eq_true, decide_eq_true_eq,
        Function.comp_apply, hbehind]
      constructor
      · rintro ⟨⟨⟨hstored, hafter⟩, hordinal⟩, hphase⟩
        exact ⟨hafter, ⟨⟨hstored, trivial⟩, hordinal⟩, hphase⟩
      · rintro ⟨hafter, ⟨⟨hstored, -⟩, hordinal⟩, hphase⟩
        exact ⟨⟨⟨hstored, hafter⟩, hordinal⟩, hphase⟩
  have hpage : ((((values captures).filter (isFound asOf after)).map sourceItem).insertionSort
      fun a b => a.captureId ≤ b.captureId)
      = beyond ObservationCaptureSourceItem.place (after.map fun id => id.bits.toNat) (captures.sources asOf) := by
    rw [hfilter, ← Sorting.filter_insertionSort]
    rfl
  simp only [scanSources, eq_ok_iff, validateObservationExtractionPageSize]
  exact ⟨(), not_not.mpr ⟨hlow, hhigh⟩, congrArg (List.take limit) hpage⟩

end MemoryObservationCaptureRepository

/-! ### Stores while a scan runs -/

open MemoryObservationCaptureRepository (sources Keyed sourceItem isFound)

/-- The two stores as scans find them, one time after the other: every capture has its own identifier, no capture
is stored by the cutoff any more, and no intent goes away. -/
structure BackfillWorld (asOf : DateTime) where
  captures : Nat → MemoryObservationCaptureRepository
  records : Nat → MemoryObservationExtractionRepository
  keyed : ∀ time, (captures time).Keyed
  settled : ∀ time (stored : TenantScope × ObservationCapture), stored.2.receipt.storedAt ≤ asOf →
    (stored ∈ values (captures time) ↔ stored ∈ values (captures 0))
  grows : ∀ time source, (records time).hasIntent source = true → (records (time + 1)).hasIntent source = true

namespace BackfillWorld

variable {asOf : DateTime} (w : BackfillWorld asOf)

/-- The sources stored by the cutoff. -/
def sources : List ObservationCaptureSourceItem :=
  (w.captures 0).sources asOf

theorem sorted : Paging.Sorted ObservationCaptureSourceItem.place w.sources :=
  MemoryObservationCaptureRepository.sorted_sources (w.keyed 0)

/-- They are the same at all times. -/
theorem sources_eq (time : Nat) : (w.captures time).sources asOf = w.sources := by
  have hmem (source : ObservationCaptureSourceItem) : source ∈ (w.captures time).sources asOf ↔ source ∈ w.sources := by
    rw [sources, MemoryObservationCaptureRepository.mem_sources, MemoryObservationCaptureRepository.mem_sources]
    refine exists_congr fun stored => and_congr_left fun h => w.settled time stored ?_
    simp only [isFound, Bool.and_eq_true, decide_eq_true_eq] at h
    exact h.1.1.1.1
  have hsorted := @MemoryObservationCaptureRepository.sorted_sources _ asOf (w.keyed time)
  have hnodup {l : List ObservationCaptureSourceItem}
      (h : Paging.Sorted ObservationCaptureSourceItem.place l) : l.Nodup :=
    h.imp fun hlt heq => absurd (congrArg _ heq) hlt.ne
  have hperm := (perm_ext_iff_of_nodup (hnodup hsorted) (hnodup w.sorted)).mpr hmem
  refine hperm.eq_of_pairwise ?_ hsorted w.sorted
  exact fun a b _ _ hab hba => absurd (hab.trans hba) (lt_irrefl _)

/-- A source has an intent at some time. -/
def Queued (time : Nat) (source : ObservationCaptureSourceItem) : Prop :=
  (w.records time).hasIntent source = true

variable {w}

variable {source : ObservationCaptureSourceItem} {front kept : List ObservationCaptureSourceItem} {after : Option Uuid}

theorem Queued.mono {time later : Nat} (hle : time ≤ later) (h : w.Queued time source) : w.Queued later source := by
  induction hle with
  | refl => exact h
  | step _ ih => exact w.grows _ source ih

/-- A part of the sources that has been looked at from one time to another, and what was kept of it. -/
structure Visited (w : BackfillWorld asOf) (time later : Nat)
    (front kept : List ObservationCaptureSourceItem) : Prop where
  sublist : kept.Sublist front
  unqueued : ∀ source ∈ kept, ¬ w.Queued time source
  queued : ∀ source ∈ front, source ∉ kept → w.Queued later source

theorem Visited.until {time middle later : Nat} (hle : middle ≤ later)
    (h : w.Visited time middle front kept) : w.Visited time later front kept :=
  { h with queued := fun source hsource hnot => (h.queued source hsource hnot).mono hle }

theorem Visited.append {time middle later : Nat} {front' kept' : List ObservationCaptureSourceItem}
    (hle : time ≤ middle) (hle' : middle ≤ later) (h : w.Visited time middle front kept)
    (h' : w.Visited middle later front' kept') : w.Visited time later (front ++ front') (kept ++ kept') where
  sublist := h.sublist.append h'.sublist
  unqueued source hsource := by
    rcases mem_append.mp hsource with hsource | hsource
    · exact h.unqueued source hsource
    · exact fun hqueued => h'.unqueued source hsource (hqueued.mono hle)
  queued source hsource hnot := by
    rw [List.mem_append, not_or] at hnot
    rcases mem_append.mp hsource with hsource | hsource
    · exact (h.queued source hsource hnot.1).mono hle'
    · exact h'.queued source hsource hnot.2

/-- One look at some sources. -/
theorem Visited.filter (time : Nat) (front : List ObservationCaptureSourceItem) :
    w.Visited time time front (front.filter fun source => !(w.records time).hasIntent source) where
  sublist := filter_sublist
  unqueued source hsource := by
    rw [List.mem_filter, Bool.not_eq_true'] at hsource
    exact ne_true_of_eq_false hsource.2
  queued source hsource hnot := by
    rw [List.mem_filter, not_and, Bool.not_eq_true', Bool.not_eq_false] at hnot
    exact hnot hsource

/-! ### One scan -/

open MemoryObservationExtractionRepository

variable {limit : Nat} {items : List ObservationExtractionBackfillItem}

/-- The sources of a page that are kept. -/
def fresh (records : MemoryObservationExtractionRepository) (front : List ObservationCaptureSourceItem) :
    List ObservationCaptureSourceItem :=
  front.filter fun source => !records.hasIntent source

/-- The sources of one page are kept up to its end, or until the scan's own page is full. -/
theorem takeSources_spec (records : MemoryObservationExtractionRepository)
    (read : List ObservationCaptureSourceItem) (cursor : Option Uuid) (hitems : items.length < limit) :
    (∃ front back, read = front ++ back ∧ (fresh records front).getLast? = front.getLast? ∧ front ≠ []
      ∧ (items ++ (fresh records front).map ObservationCaptureSourceItem.item).length = limit
      ∧ takeSources records limit read cursor items
        = .full (items ++ (fresh records front).map ObservationCaptureSourceItem.item))
    ∨ ((items ++ (fresh records read).map ObservationCaptureSourceItem.item).length < limit
      ∧ takeSources records limit read cursor items
        = .behind ((read.getLast?.map (·.captureId)).or cursor)
          (items ++ (fresh records read).map ObservationCaptureSourceItem.item)) := by
  induction read generalizing cursor items with
  | nil => exact .inr ⟨by simpa [fresh] using hitems, by simp [takeSources, fresh]⟩
  | cons source rest ih =>
    have hlast : (((source :: rest).getLast?.map (·.captureId)).or cursor)
        = (rest.getLast?.map (·.captureId)).or (some source.captureId) := by
      cases rest with
      | nil => rfl
      | cons next others =>
        rw [List.getLast?_cons_cons, List.getLast?_eq_some_getLast (cons_ne_nil next others)]
        rfl
    rw [takeSources, hlast]
    by_cases hintent : records.hasIntent source = true
    · have hfresh (front : List ObservationCaptureSourceItem) :
          fresh records (source :: front) = fresh records front := by
        simp [fresh, hintent]
      rw [if_pos hintent]
      rcases ih (some source.captureId) hitems with ⟨front, back, rfl, hend, hne, hfull, heq⟩ | ⟨hless, heq⟩
      · refine .inl ⟨source :: front, back, rfl, ?_, by simp, by rw [hfresh]; exact hfull, by rw [hfresh]; exact heq⟩
        rw [hfresh, hend]
        obtain ⟨_, _, rfl⟩ := exists_cons_of_ne_nil hne
        rw [List.getLast?_cons_cons]
      · exact .inr ⟨by rw [hfresh]; exact hless, by rw [hfresh]; exact heq⟩
    · have hfresh (front : List ObservationCaptureSourceItem) :
          fresh records (source :: front) = source :: fresh records front := by
        simp [fresh, hintent]
      have hitem (front : List ObservationCaptureSourceItem) :
          items ++ (fresh records (source :: front)).map ObservationCaptureSourceItem.item
            = items ++ [source.item] ++ (fresh records front).map ObservationCaptureSourceItem.item := by
        rw [hfresh, map_cons, append_assoc, singleton_append]
      rw [if_neg hintent]
      by_cases hfull : (items ++ [source.item]).length = limit
      · refine .inl ⟨[source], rest, rfl, by rw [hfresh]; rfl, by simp, ?_, ?_⟩
        · rw [hitem]
          simpa [fresh] using hfull
        · rw [hitem]
          show (if (items ++ [source.item]).length = limit then _ else _) = _
          rw [if_pos hfull]
          simp [fresh, ObservationCaptureSourceItem.item]
      · have hless : (items ++ [source.item]).length < limit := by
          rw [length_append, length_singleton] at hfull ⊢
          omega
        have hstep : (let items := items ++ [{ scope := source.scope, captureId := source.captureId }]
            if items.length = limit then ScanProgress.full items
            else takeSources records limit rest (some source.captureId) items)
            = takeSources records limit rest (some source.captureId) (items ++ [source.item]) :=
          if_neg hfull
        rw [hstep]
        rcases ih (some source.captureId) hless with ⟨front, back, rfl, hend, -, hfull, heq⟩ | ⟨hless, heq⟩
        · refine .inl ⟨source :: front, back, rfl, ?_, by simp, by rw [hitem]; exact hfull, by rw [hitem]; exact heq⟩
          rw [hfresh, List.getLast?_cons, List.getLast?_cons, hend]
        · exact .inr ⟨by rw [hitem]; exact hless, by rw [hitem]; exact heq⟩

variable {cursor : Option Uuid} {rounds time later : Nat}

/-- A cursor as a place. -/
def placeOf (cursor : Option Uuid) : Option Nat :=
  cursor.map fun id => id.bits.toNat

/-- The sources behind a cursor. -/
def remaining (w : BackfillWorld asOf) (cursor : Option Uuid) : List ObservationCaptureSourceItem :=
  beyond ObservationCaptureSourceItem.place (placeOf cursor) w.sources

/-- One page of sources. -/
def page (w : BackfillWorld asOf) (cursor : Option Uuid) (limit : Nat) : List ObservationCaptureSourceItem :=
  (w.remaining cursor).take limit

/-- The cursor behind some sources. -/
def cursorBehind (front : List ObservationCaptureSourceItem) (cursor : Option Uuid) : Option Uuid :=
  (front.getLast?.map (·.captureId)).or cursor

theorem remaining_cursorBehind {back : List ObservationCaptureSourceItem}
    (h : w.remaining cursor = front ++ back) : w.remaining (cursorBehind front cursor) = back := by
  have hpage : Paging.page ObservationCaptureSourceItem.place (placeOf cursor) front.length w.sources = front := by
    rw [Paging.page]
    show (w.remaining cursor).take front.length = front
    rw [h, take_left']
    rfl
  have hnext : placeOf (cursorBehind front cursor)
      = Paging.next ObservationCaptureSourceItem.place (placeOf cursor) front := by
    rw [cursorBehind, Paging.next, placeOf, placeOf]
    cases front.getLast? <;> rfl
  have hbehind := @beyond_next _ _ _ _ (placeOf cursor) _ front.length w.sorted
  rw [hpage, ← hnext] at hbehind
  rw [remaining, hbehind]
  show (w.remaining cursor).drop front.length = back
  rw [h, drop_left']
  rfl

theorem page_append_drop (w : BackfillWorld asOf) (cursor : Option Uuid) (limit : Nat) :
    w.remaining cursor = w.page cursor limit ++ (w.remaining cursor).drop limit :=
  (take_append_drop limit _).symm

theorem scanRounds_succ (hlow : 1 ≤ limit) (hhigh : limit ≤ 100) :
    scanRounds w.captures w.records asOf limit (rounds + 1) time cursor items
      = match takeSources (w.records time) limit (w.page cursor limit) cursor items with
        | .full items => some (.ok items, time + 1)
        | .behind cursor' items =>
          if (w.page cursor limit).length < limit then some (.ok items, time + 1)
          else scanRounds w.captures w.records asOf limit rounds (time + 1) cursor' items := by
  rw [scanRounds, MemoryObservationCaptureRepository.scanSources_eq hlow hhigh, w.sources_eq]
  rfl

/-- What a scan has done when it is over: it has looked at a first part of the sources behind its cursor, up to
the end of them or up to the last one it returns. -/
structure ScanDone (w : BackfillWorld asOf) (limit time later : Nat) (cursor : Option Uuid)
    (before after : List ObservationExtractionBackfillItem) : Prop where
  time_le : time ≤ later
  looked : ∃ front back kept, w.remaining cursor = front ++ back ∧ w.Visited time later front kept
    ∧ after = before ++ kept.map ObservationCaptureSourceItem.item
    ∧ (after.length < limit ∧ back = [] ∨ after.length = limit ∧ kept.getLast? = front.getLast? ∧ front ≠ [])

theorem scanRounds_done (hlow : 1 ≤ limit) (hhigh : limit ≤ 100) (hitems : items.length < limit)
    {outcome : Except AppError (List ObservationExtractionBackfillItem)}
    (h : scanRounds w.captures w.records asOf limit rounds time cursor items = some (outcome, later)) :
    ∃ after, outcome = .ok after ∧ w.ScanDone limit time later cursor items after := by
  induction rounds generalizing time cursor items with
  | zero => cases h
  | succ rounds ih =>
    rw [scanRounds_succ hlow hhigh] at h
    have hrest := w.page_append_drop cursor limit
    rcases takeSources_spec (w.records time) (w.page cursor limit) cursor hitems with
      ⟨front, back, hpage, hend, hne, hfull, heq⟩ | ⟨hless, heq⟩
    · -- the scan's own page is full
      rw [heq] at h
      obtain ⟨rfl, rfl⟩ := Prod.mk.inj (some.inj h)
      refine ⟨_, rfl, le_succ time, front, back ++ (w.remaining cursor).drop limit, fresh (w.records time) front,
        ?_, (Visited.filter time front).until (le_succ time), rfl, .inr ⟨hfull, hend, hne⟩⟩
      rw [← append_assoc, ← hpage]
      exact hrest
    · rw [heq] at h
      by_cases hshort : (w.page cursor limit).length < limit
      · -- there are no more sources
        have hall : (w.remaining cursor).drop limit = [] := by
          rw [page, length_take] at hshort
          exact drop_eq_nil_of_le (by omega)
        have h : some (ok (items ++ (fresh (w.records time) (w.page cursor limit)).map
            ObservationCaptureSourceItem.item), time + 1) = some (outcome, later) := by
          rw [← h]
          exact (if_pos hshort).symm
        obtain ⟨rfl, rfl⟩ := Prod.mk.inj (some.inj h)
        refine ⟨_, rfl, le_succ time, w.page cursor limit, [], fresh (w.records time) (w.page cursor limit),
          ?_, (Visited.filter time _).until (le_succ time), rfl, .inl ⟨hless, rfl⟩⟩
        rw [append_nil]
        rw [hall, append_nil] at hrest
        exact hrest
      · -- one more round, behind the page
        have h : scanRounds w.captures w.records asOf limit rounds (time + 1)
            (cursorBehind (w.page cursor limit) cursor)
            (items ++ (fresh (w.records time) (w.page cursor limit)).map ObservationCaptureSourceItem.item)
            = some (outcome, later) := by
          rw [← h]
          exact (if_neg hshort).symm
        obtain ⟨_, rfl, hle, front, back, kept, hsplit, hvisited, rfl, hend⟩ := ih hless h
        rw [remaining_cursorBehind hrest] at hsplit
        refine ⟨_, rfl, (le_succ time).trans hle, w.page cursor limit ++ front, back,
          fresh (w.records time) (w.page cursor limit) ++ kept, ?_,
          ((Visited.filter time _).until (le_succ time)).append (le_succ time) hle hvisited, ?_, ?_⟩
        · rw [append_assoc, ← hsplit]
          exact hrest
        · rw [map_append, append_assoc]
        · refine hend.imp_right fun ⟨hfull, hlast, hne⟩ => ⟨hfull, ?_, by simp [hne]⟩
          rw [List.getLast?_append, List.getLast?_append, hlast, List.getLast?_eq_some_getLast hne]
          rfl

theorem exists_scanRounds (hlow : 1 ≤ limit) (hhigh : limit ≤ 100) (hitems : items.length < limit)
    (hrounds : (w.remaining cursor).length < rounds) :
    ∃ result, scanRounds w.captures w.records asOf limit rounds time cursor items = some result := by
  induction rounds generalizing time cursor items with
  | zero => exact absurd hrounds (not_lt_zero _)
  | succ rounds ih =>
    rw [scanRounds_succ hlow hhigh]
    rcases takeSources_spec (w.records time) (w.page cursor limit) cursor hitems with
      ⟨_, _, -, -, -, -, heq⟩ | ⟨hless, heq⟩
    · rw [heq]
      exact ⟨_, rfl⟩
    · rw [heq]
      by_cases hshort : (w.page cursor limit).length < limit
      · exact ⟨_, if_pos hshort⟩
      · have hfewer : (w.remaining (cursorBehind (w.page cursor limit) cursor)).length < rounds := by
          rw [remaining_cursorBehind (w.page_append_drop cursor limit), length_drop]
          rw [page, length_take] at hshort
          omega
        obtain ⟨result, hresult⟩ := ih hless hfewer
        exact ⟨result, (if_neg hshort).trans hresult⟩

theorem scanRounds_mono {result : Except AppError (List ObservationExtractionBackfillItem) × Nat}
    (h : scanRounds w.captures w.records asOf limit rounds time cursor items = some result) {more : Nat}
    (hle : rounds ≤ more) : scanRounds w.captures w.records asOf limit more time cursor items = some result := by
  induction rounds generalizing time cursor items more with
  | zero => cases h
  | succ rounds ih =>
    obtain ⟨more, rfl⟩ := exists_eq_succ_of_ne_zero (by omega : more ≠ 0)
    rw [scanRounds] at h ⊢
    split at h
    · exact h
    · split at h
      · exact h
      · split at h
        · next hshort => exact (if_pos hshort).trans h
        · next hshort => exact (if_neg hshort).trans (ih h (le_of_succ_le_succ hle))

/-! ### Scan after scan -/

/-- A scan that starts at some time returns a page, however many rounds it is given beyond those it needs. -/
def Scans (w : BackfillWorld asOf) (time : Nat) (after : Option Uuid) (limit : Nat)
    (page : List ObservationExtractionBackfillItem) (later : Nat) : Prop :=
  ∃ rounds, ∀ more, rounds ≤ more →
    scanUnqueuedSources w.captures w.records more time asOf after limit = some (.ok page, later)

theorem scanUnqueuedSources_eq (hlow : 1 ≤ limit) (hhigh : limit ≤ 100) :
    scanUnqueuedSources w.captures w.records rounds time asOf cursor limit
      = scanRounds w.captures w.records asOf limit rounds time cursor [] := by
  have hvalid : validateObservationExtractionPageSize limit = .ok () := by
    rw [validateObservationExtractionPageSize, failIf_eq_ok]
    exact not_not.mpr ⟨hlow, hhigh⟩
  rw [scanUnqueuedSources, hvalid]

theorem exists_scans (w : BackfillWorld asOf) (hlow : 1 ≤ limit) (hhigh : limit ≤ 100) (time : Nat)
    (after : Option Uuid) : ∃ page later, w.Scans time after limit page later := by
  have hitems : ([] : List ObservationExtractionBackfillItem).length < limit := hlow
  obtain ⟨⟨_, later⟩, hresult⟩ := @exists_scanRounds asOf w limit [] after _ time hlow hhigh hitems (lt_succ_self _)
  obtain ⟨page, rfl, -⟩ := scanRounds_done hlow hhigh hitems hresult
  refine ⟨page, later, (w.remaining after).length.succ, fun more hmore => ?_⟩
  rw [scanUnqueuedSources_eq hlow hhigh]
  exact scanRounds_mono hresult hmore

theorem Scans.done (hlow : 1 ≤ limit) (hhigh : limit ≤ 100) {page : List ObservationExtractionBackfillItem}
    (h : w.Scans time cursor limit page later) : w.ScanDone limit time later cursor [] page := by
  obtain ⟨rounds, hrounds⟩ := h
  have hresult := hrounds rounds le_rfl
  rw [scanUnqueuedSources_eq hlow hhigh] at hresult
  have hitems : ([] : List ObservationExtractionBackfillItem).length < limit := hlow
  obtain ⟨_, hafter, _⟩ := scanRounds_done hlow hhigh hitems hresult
  rwa [ok.inj hafter]

/-- The place of an item that is returned. -/
def itemPlace (item : ObservationExtractionBackfillItem) : Nat :=
  item.captureId.bits.toNat

/-- The cursor behind a page that was returned. -/
def behindPage (page : List ObservationExtractionBackfillItem) (after : Option Uuid) : Option Uuid :=
  (page.getLast?.map (·.captureId)).or after

/-- What one scan does: its page is full or nothing remains, it goes forward, it returns sources without an
intent, and it leaves out no other ones up to the end of its page. -/
structure PageSpec (w : BackfillWorld asOf) (limit time later : Nat) (after : Option Uuid)
    (page : List ObservationExtractionBackfillItem) : Prop where
  time_le : time ≤ later
  length_le : page.length ≤ limit
  ordered : page.Pairwise fun a b => itemPlace a < itemPlace b
  forward : ∀ item ∈ page, ∀ cursor ∈ placeOf after, cursor < itemPlace item
  unqueued : ∀ item ∈ page, ∃ source ∈ w.sources, source.item = item ∧ ¬ w.Queued time source
  complete : ∀ source ∈ w.remaining after, source.item ∈ page ∨ w.Queued later source
    ∨ page.length = limit ∧ source ∈ w.remaining (behindPage page after)

theorem ScanDone.pageSpec {page : List ObservationExtractionBackfillItem}
    (h : w.ScanDone limit time later cursor [] page) : w.PageSpec limit time later cursor page := by
  obtain ⟨hle, front, back, kept, hsplit, hvisited, rfl, hend⟩ := h
  rw [nil_append] at hend ⊢
  have hfront : ∀ source ∈ front, source ∈ w.sources ∧ ∀ place ∈ placeOf cursor, place < source.place := by
    intro source hsource
    refine mem_beyond.mp ?_
    show source ∈ w.remaining cursor
    rw [hsplit]
    exact mem_append_left back hsource
  have hkept : ∀ source ∈ kept, source ∈ front := fun source hsource => hvisited.sublist.mem hsource
  have hsorted : kept.Pairwise fun a b => a.place < b.place := by
    have hremaining : (w.remaining cursor).Pairwise fun a b => a.place < b.place := Paging.Sorted.beyond w.sorted _
    rw [hsplit] at hremaining
    exact (pairwise_append.mp hremaining).1.sublist hvisited.sublist
  constructor
  · exact hle
  · rcases hend with ⟨hless, -⟩ | ⟨hfull, -⟩
    · exact hless.le
    · exact hfull.le
  · exact pairwise_map.mpr hsorted
  · intro item hitem
    obtain ⟨source, hsource, rfl⟩ := mem_map.mp hitem
    exact (hfront source (hkept source hsource)).2
  · intro item hitem
    obtain ⟨source, hsource, rfl⟩ := mem_map.mp hitem
    exact ⟨source, (hfront source (hkept source hsource)).1, rfl, hvisited.unqueued source hsource⟩
  · intro source hsource
    rw [hsplit, List.mem_append] at hsource
    by_cases hsource_kept : source ∈ kept
    · exact .inl (mem_map_of_mem hsource_kept)
    · rcases hsource with hsource | hsource
      · exact .inr (.inl (hvisited.queued source hsource hsource_kept))
      · rcases hend with ⟨-, rfl⟩ | ⟨hfull, hlast, hne⟩
        · cases hsource
        · -- a full page ends where the look ended
          refine .inr (.inr ⟨hfull, ?_⟩)
          have hcursor : behindPage (kept.map ObservationCaptureSourceItem.item) cursor
              = cursorBehind front cursor := by
            rw [behindPage, cursorBehind, ← hlast, List.getLast?_map, Option.map_map]
            rfl
          rw [hcursor, remaining_cursorBehind hsplit]
          exact hsource

/-- Scan after scan, each behind the last item that was returned; time may pass between them. A scan comes with
its limit and its page. -/
inductive Backfill (w : BackfillWorld asOf) :
    Nat → Option Uuid → List (Nat × List ObservationExtractionBackfillItem) → Nat → Prop where
  | done (time : Nat) (after : Option Uuid) : Backfill w time after [] time
  | scan {time start middle later limit : Nat} {after : Option Uuid} {page : List ObservationExtractionBackfillItem}
      {scans : List (Nat × List ObservationExtractionBackfillItem)} (hstart : time ≤ start) (hlow : 1 ≤ limit)
      (hhigh : limit ≤ 100) (hscan : w.Scans start after limit page middle)
      (hrest : Backfill w middle (behindPage page after) scans later) :
      Backfill w time after ((limit, page) :: scans) later

/-- All items that some scans returned. -/
def returned (scans : List (Nat × List ObservationExtractionBackfillItem)) : List ObservationExtractionBackfillItem :=
  scans.flatMap Prod.snd

/-- What a run of scans does. -/
structure RunSpec (w : BackfillWorld asOf) (time later : Nat) (after : Option Uuid)
    (scans : List (Nat × List ObservationExtractionBackfillItem)) : Prop where
  time_le : time ≤ later
  length_le : ∀ scan ∈ scans, scan.2.length ≤ scan.1
  ordered : (returned scans).Pairwise fun a b => itemPlace a < itemPlace b
  forward : ∀ item ∈ returned scans, ∀ cursor ∈ placeOf after, cursor < itemPlace item
  unqueued : ∀ item ∈ returned scans, ∃ source ∈ w.sources, source.item = item ∧ ¬ w.Queued time source
  complete : (∃ scan ∈ scans, scan.2.length < scan.1) →
    ∀ source ∈ w.remaining after, source.item ∈ returned scans ∨ w.Queued later source

theorem le_behindPage {page : List ObservationExtractionBackfillItem}
    (hordered : page.Pairwise fun a b => itemPlace a < itemPlace b)
    {item : ObservationExtractionBackfillItem} (hitem : item ∈ page) :
    ∃ place ∈ placeOf (behindPage page after), itemPlace item ≤ place := by
  obtain ⟨front, last, rfl⟩ := eq_nil_or_concat' page |>.resolve_left (ne_nil_of_mem hitem)
  have hcursor : placeOf (behindPage (front ++ [last]) after) = some (itemPlace last) := by
    rw [behindPage, List.getLast?_concat]
    rfl
  refine ⟨itemPlace last, hcursor, ?_⟩
  rw [pairwise_append] at hordered
  rcases mem_append.mp hitem with hitem | hitem
  · exact (hordered.2.2 item hitem last mem_cons_self).le
  · rw [mem_singleton.mp hitem]

/-- A cursor never goes back. -/
theorem behindPage_le {page : List ObservationExtractionBackfillItem}
    (hforward : ∀ item ∈ page, ∀ cursor ∈ placeOf after, cursor < itemPlace item) {cursor : Nat}
    (hcursor : cursor ∈ placeOf after) : ∃ place ∈ placeOf (behindPage page after), cursor ≤ place := by
  cases hlast : page.getLast? with
  | none => exact ⟨cursor, by rw [behindPage, hlast]; exact hcursor, le_rfl⟩
  | some last =>
    refine ⟨itemPlace last, by rw [behindPage, hlast]; rfl, ?_⟩
    exact (hforward last (mem_of_getLast? hlast) cursor hcursor).le

theorem Backfill.runSpec {scans : List (Nat × List ObservationExtractionBackfillItem)}
    (h : w.Backfill time after scans later) : w.RunSpec time later after scans := by
  induction h with
  | done time after => exact ⟨le_rfl, by simp, .nil, by simp [returned], by simp [returned], by simp⟩
  | @scan time _ _ _ limit _ page scans hstart hlow hhigh hscan _ ih =>
    have hpage := (hscan.done hlow hhigh).pageSpec
    have hreturned : returned ((limit, page) :: scans) = page ++ returned scans := rfl
    constructor
    · exact hstart.trans (hpage.time_le.trans ih.time_le)
    · exact forall_mem_cons.mpr ⟨hpage.length_le, ih.length_le⟩
    · rw [hreturned, pairwise_append]
      refine ⟨hpage.ordered, ih.ordered, fun a ha b hb => ?_⟩
      obtain ⟨place, hplace, hle⟩ := le_behindPage hpage.ordered ha
      exact hle.trans_lt (ih.forward b hb place hplace)
    · intro item hitem cursor hcursor
      rw [hreturned, mem_append] at hitem
      rcases hitem with hitem | hitem
      · exact hpage.forward item hitem cursor hcursor
      · obtain ⟨place, hplace, hle⟩ := behindPage_le hpage.forward hcursor
        exact hle.trans_lt (ih.forward item hitem place hplace)
    · intro item hitem
      rw [hreturned, mem_append] at hitem
      -- an intent from before would still be there
      have hearlier {moment : Nat} (hle : time ≤ moment)
          (hfound : ∃ source ∈ w.sources, source.item = item ∧ ¬ w.Queued moment source) :
          ∃ source ∈ w.sources, source.item = item ∧ ¬ w.Queued time source := by
        obtain ⟨source, hsource, hitem, hunqueued⟩ := hfound
        exact ⟨source, hsource, hitem, fun hqueued => hunqueued (hqueued.mono hle)⟩
      rcases hitem with hitem | hitem
      · exact hearlier hstart (hpage.unqueued item hitem)
      · exact hearlier (hstart.trans hpage.time_le) (ih.unqueued item hitem)
    · rintro ⟨scan, hscan_mem, hshort⟩ source hsource
      rw [hreturned, mem_append]
      rcases hpage.complete source hsource with hin | hqueued | ⟨hfull, hbehind⟩
      · exact .inl (.inl hin)
      · exact .inr (hqueued.mono ih.time_le)
      · rcases mem_cons.mp hscan_mem with rfl | hscan_mem
        · exact absurd hshort (hfull ▸ lt_irrefl _)
        · exact (ih.complete ⟨scan, hscan_mem, hshort⟩ source hbehind).imp_left .inr

theorem remaining_none : w.remaining none = w.sources :=
  beyond_none

/-- A source capture that was stored by the cutoff. -/
def IsSource (w : BackfillWorld asOf) (source : ObservationCaptureSourceItem) : Prop :=
  ∃ stored ∈ values (w.captures 0), stored.2.receipt.storedAt ≤ asOf ∧ stored.2.input.ordinal = 0
    ∧ stored.2.input.snapshot.isSource = true ∧ source = sourceItem stored

theorem mem_sources_iff : source ∈ w.sources ↔ w.IsSource source := by
  rw [sources, MemoryObservationCaptureRepository.mem_sources]
  refine exists_congr fun stored => and_congr_right fun _ => ?_
  simp only [isFound, Option.all_none, Bool.and_true, Bool.and_eq_true, decide_eq_true_eq]
  constructor
  · rintro ⟨⟨⟨hstored, hordinal⟩, hphase⟩, hsource⟩
    exact ⟨hstored, hordinal, hphase, hsource.symm⟩
  · rintro ⟨hstored, hordinal, hphase, hsource⟩
    exact ⟨⟨⟨hstored, hordinal⟩, hphase⟩, hsource.symm⟩

/-- The backfill scan loses nothing. Every scan returns. Scans from the start return source captures stored by the
cutoff that had no intent, in increasing order and none twice; and when a page was shorter than its limit, every
source capture has been returned or has an intent. -/
theorem backfill_complete (w : BackfillWorld asOf) :
    (∀ time after limit, 1 ≤ limit → limit ≤ 100 → ∃ page later, w.Scans time after limit page later)
    ∧ ∀ scans later, w.Backfill 0 none scans later → (∀ scan ∈ scans, scan.2.length ≤ scan.1)
      ∧ ((returned scans).Pairwise fun a b => a.captureId < b.captureId)
      ∧ (∀ item ∈ returned scans, ∃ source, w.IsSource source ∧ source.item = item ∧ ¬ w.Queued 0 source)
      ∧ ((∃ scan ∈ scans, scan.2.length < scan.1) →
        ∀ source, w.IsSource source → source.item ∈ returned scans ∨ w.Queued later source) := by
  refine ⟨fun time after limit hlow hhigh => w.exists_scans hlow hhigh time after, fun scans later hrun => ?_⟩
  have hspec := hrun.runSpec
  refine ⟨hspec.length_le, hspec.ordered.imp Uuid.lt_iff_toNat.mpr, fun item hitem => ?_, ?_⟩
  · obtain ⟨source, hsource, hitem, hunqueued⟩ := hspec.unqueued item hitem
    exact ⟨source, mem_sources_iff.mp hsource, hitem, hunqueued⟩
  · intro hshort source hsource
    refine hspec.complete hshort source ?_
    rw [remaining_none]
    exact mem_sources_iff.mpr hsource

end BackfillWorld

/-! ### What saving a capture does to the world -/

namespace MemoryObservationCaptureRepository

variable [Sha256] [JsonText] [InstantJson] {jobs : ChannelLedger} {scope : TenantScope}
  {input : ObservationCaptureInput} {now : DateTime} {captures captures' : MemoryObservationCaptureRepository}
  {receipt : ObservationCaptureReceipt}

/-- A capture is saved under its own identifier at the time it is saved, or it was there before. -/
theorem save_effect (h : (save jobs scope input now).Returns captures receipt captures') :
    captures' = captures
      ∨ captures.lookup input.captureId = none ∧ receipt.storedAt = now
        ∧ captures' = captures.insert input.captureId (scope, { input, receipt }) := by
  simp only [save, returns_iff] at h
  obtain ⟨_, _, ⟨-, rfl⟩, _, _, ⟨-, rfl⟩, _, _, ⟨-, rfl⟩, _, _, ⟨-, rfl⟩, _, _, ⟨rfl, rfl⟩, h⟩ := h
  cases hprior : (id captures).lookup input.captureId with
  | some prior =>
    rw [hprior] at h
    simp only [returns_iff] at h
    obtain ⟨_, _, ⟨-, rfl⟩, -, rfl⟩ := h
    exact .inl rfl
  | none =>
    rw [hprior] at h
    simp only [returns_iff] at h
    obtain ⟨_, _, ⟨-, rfl⟩, _, _, ⟨-, rfl⟩, _, _, rfl, rfl, rfl⟩ := h
    exact .inr ⟨hprior, rfl, rfl⟩

/-- Saving keeps the identifiers, and what was stored before it. -/
theorem save_settled (h : (save jobs scope input now).Returns captures receipt captures')
    (hkeyed : captures.Keyed) {asOf : DateTime} (hlate : asOf < now) :
    captures'.Keyed ∧ ∀ stored : TenantScope × ObservationCapture, stored.2.receipt.storedAt ≤ asOf →
      (stored ∈ values captures' ↔ stored ∈ values captures) := by
  rcases save_effect h with rfl | ⟨hfree, hstored, rfl⟩
  · exact ⟨hkeyed, fun stored _ => Iff.rfl⟩
  · constructor
    · intro id stored hlookup
      rw [lookup_insert] at hlookup
      split at hlookup
      · next hid => rw [← some.inj hlookup, hid]
      · exact hkeyed id stored hlookup
    · intro stored hearly
      rw [mem_values, mem_values]
      refine exists_congr fun id => ?_
      rw [lookup_insert]
      split
      · next hid =>
        subst hid
        rw [hfree]
        refine iff_of_false (fun heq => ?_) (by simp)
        rw [← some.inj heq] at hearly
        exact absurd hearly (not_le.mpr (hstored ▸ hlate))
      · exact Iff.rfl

end MemoryObservationCaptureRepository

/-! ### A sample scan -/

namespace Sample

/-- A source that was stored at time 1. -/
def storedSource (id : Nat) : TenantScope × ObservationCapture :=
  (scope,
    { input :=
        { captureId := uuid id, targetId := uuid 6, attemptId := uuid 7, accountId := uuid 5
          runnerSessionId := uuid 8, originalIdentity := none, ordinal := 0, observedAt := 1
          snapshot := .source "null" "digest", ownedConversation := none, completion := none }
      receipt := { captureId := uuid id, schemaVersion := 1, digestSha256 := "digest", storedAt := 1 } })

/-- An intent about a source. -/
def storedIntent (id source : Nat) : StoredExtraction :=
  { scope
    intent :=
      { intentId := uuid id
        request :=
          { targetId := uuid 6, attemptId := uuid 7, sourceCaptureId := some (uuid source)
            sourceEvidenceIndex := none, manualRevisionId := none, sourceSha256 := "digest"
            promptVersion := "prompt", parserVersion := "parser", policyVersion := "policy" }
        intentKey := "key", state := .completed, createdAt := 2, startedAt := none
        responseReceivedAt := none, finishedAt := none, response := none, completion := none
        interruption := none }
    claimToken := none }

def fourSources : MemoryObservationCaptureRepository :=
  (((AList.insert (uuid 4) (storedSource 4) ∅).insert (uuid 3) (storedSource 3)).insert (uuid 2)
    (storedSource 2)).insert (uuid 1) (storedSource 1)

theorem fourSources_keyed : fourSources.Keyed := by
  have hentries : ∀ entry ∈ fourSources.entries, entry.2.2.input.captureId = entry.1 := by decide +kernel
  exact fun id stored hlookup => hentries ⟨id, stored⟩ (AList.mem_lookup_iff.mp hlookup)

def twoIntents : MemoryObservationExtractionRepository :=
  (AList.insert (uuid 21) (storedIntent 21 1) ∅).insert (uuid 22) (storedIntent 22 3)

/-- Four sources, two of them with an intent. -/
def fourWorld : BackfillWorld 10 where
  captures _ := fourSources
  records _ := twoIntents
  keyed _ := fourSources_keyed
  settled _ _ _ := Iff.rfl
  grows _ _ h := h

example :
    MemoryObservationExtractionRepository.scanUnqueuedSources fourWorld.captures fourWorld.records 3 0 10 none 2
      = some (.ok [{ scope, captureId := uuid 2 }, { scope, captureId := uuid 4 }], 2) := by
  decide +kernel

theorem fourWorld_scans : ∃ page later, fourWorld.Scans 0 none 2 page later :=
  (BackfillWorld.backfill_complete fourWorld).1 0 none 2 (by decide) (by decide)

end Sample

end GeoMaster
