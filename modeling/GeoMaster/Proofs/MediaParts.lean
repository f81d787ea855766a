import GeoMaster.Domain.RichTransport

/-!
# Delivered media

Until a request is settled every buffer is held: it is a chunk that waits, the bytes of a part, or nothing but zeros. So
a rejection finds all of them. A resolution compares every key of the declared items with one part, but only the last
item of a key is compared; the others are right when the items of one key agree.
-/

namespace GeoMaster

open List Option

namespace RichTransport

open AssocMap DeepseekEvidence

/-! ### Buffers -/

variable {which : List Nat} {buffers : List (List UInt8)} {i : Nat} {b : List UInt8}

theorem zeroed_of_mem (h : (zeroed which buffers)[i]? = some b) (hi : i ∈ which) : ∀ x ∈ b, x = 0 := by
  rw [zeroed, List.getElem?_mapIdx, map_eq_some_iff] at h
  obtain ⟨old, -, rfl⟩ := h
  rw [if_pos hi]
  exact fun x => eq_of_mem_replicate

theorem zeroed_of_not_mem (hi : i ∉ which) : (zeroed which buffers)[i]? = buffers[i]? := by
  rw [zeroed, List.getElem?_mapIdx]
  simp [hi]

theorem length_zeroed : (zeroed which buffers).length = buffers.length :=
  length_mapIdx

theorem fail_of_none {s : Upload} {error : RunnerError} (hs : s.settled = none) :
    s.fail error =
      { s with
        settled := some (.rejected error)
        buffers := zeroed ((values s.parts).map MediaPart.bytes ++ s.pendingChunks) s.buffers } := by
  rw [Upload.fail, hs]
  rfl

/-! ### Compared values -/

section

variable {a b : JsValue} {text : String} {n : Int} {buffers : List (List UInt8)} {item item' : Json} {p : MediaPart}

theorem isText_of_strictEq (h : a.strictEq b = true) (hb : b.isText text = true) : a.isText text = true := by
  unfold JsValue.strictEq at h
  split at h <;> simp_all [JsValue.isText, JsValue.asString]

theorem strictEq_of_isText (ha : a.isText text = true) (hb : b.isText text = true) : a.strictEq b = true := by
  simp only [JsValue.isText, decide_eq_true_eq] at ha hb
  unfold JsValue.asString at ha hb
  split at ha <;> split at hb <;> simp_all [JsValue.strictEq]

theorem strictEq_of_isNumber (ha : a.isNumber n = true) (hb : b.isNumber n = true) : a.strictEq b = true := by
  unfold JsValue.isNumber at ha hb
  split at ha <;> split at hb <;> simp_all [JsValue.strictEq]

/-- Two items declare one digest, one length and one type. -/
def Agrees (item item' : Json) : Prop :=
  (part (part item "object") "sha256").strictEq (part (part item' "object") "sha256") = true
    ∧ (part item "byte_len").strictEq (part item' "byte_len") = true
    ∧ (part item "media_type").strictEq (part item' "media_type") = true

theorem partMatches_of_agrees (h : Agrees item item') (hmatches : partMatches buffers item' p = true) :
    partMatches buffers item p = true := by
  rw [partMatches, Bool.and_eq_true, Bool.and_eq_true] at hmatches ⊢
  exact ⟨⟨isText_of_strictEq h.1 hmatches.1.1, JsValue.isNumber_of_strictEq h.2.1 hmatches.1.2⟩, isText_of_strictEq h.2.2 hmatches.2⟩

theorem agrees_of_partMatches (h : partMatches buffers item p = true) (h' : partMatches buffers item' p = true) :
    Agrees item item' := by
  rw [partMatches, Bool.and_eq_true, Bool.and_eq_true] at h h'
  exact ⟨strictEq_of_isText h.1.1 h'.1.1, strictEq_of_isNumber h.1.2 h'.1.2, strictEq_of_isText h.2 h'.2⟩

end

variable [LowerCase] {items : List Json}

theorem expectedMedia_some {acc expected : AssocMap MediaKey Json} (h : expectedMedia acc items = some (some expected)) :
    (∀ k ∈ acc, k ∈ expected) ∧ (∀ item ∈ items, ∃ k ∈ expected, itemKey item = some (some k))
      ∧ ∀ k item, expected.lookup k = some item → acc.lookup k = some item ∨ item ∈ items ∧ itemKey item = some (some k) := by
  induction items generalizing acc with
  | nil =>
    cases h
    exact ⟨fun _ => id, nofun, fun _ _ => .inl⟩
  | cons item rest ih =>
    rw [expectedMedia] at h
    split at h
    · cases h
    · cases h
    · next mediaKey hkey =>
      obtain ⟨hacc, hitems, hlast⟩ := ih h
      refine ⟨fun k hk => hacc k ((AList.mem_insert _).mpr (.inr hk)), fun other hmem => ?_, fun k other hk => ?_⟩
      · rcases mem_cons.mp hmem with rfl | hmem
        · exact ⟨mediaKey, hacc _ ((AList.mem_insert _).mpr (.inl rfl)), hkey⟩
        · exact hitems other hmem
      · rcases hlast k other hk with hold | ⟨hmem, hother⟩
        · rw [lookup_insert] at hold
          split at hold
          · next hsame =>
            cases hold
            exact .inr ⟨mem_cons_self, by rw [hsame, hkey]⟩
          · exact .inl hold
        · exact .inr ⟨mem_cons_of_mem _ hmem, hother⟩

/-! ### Before the settlement -/

variable [Sha256] {s : Upload} {e : UploadEvent} {k : MediaKey} {p : MediaPart} {error : RunnerError}
  {item item' : Json} {metadata : JsValue} {media : List MediaPart} {parse : String → Option Json}

def MediaPart.key (p : MediaPart) : MediaKey :=
  RichTransport.key p.objectId p.objectVersion

/-- The parts under their keys, each with the digest of its bytes. -/
def Delivered (s : Upload) : Prop :=
  ∀ k p, s.parts.lookup k = some p → p.key = k ∧ ∃ b, s.buffers[p.bytes]? = some b ∧ p.sha256 = sha256Hex b

/-- A request that is not settled. -/
structure Pending (s : Upload) : Prop where
  delivered : Delivered s
  apart : ∀ k p, s.parts.lookup k = some p → p.bytes ∉ s.pendingChunks
  held : ∀ i b, s.buffers[i]? = some b →
    (∀ x ∈ b, x = 0) ∨ i ∈ s.pendingChunks ∨ ∃ k p, s.parts.lookup k = some p ∧ p.bytes = i
  allocated : ∀ i ∈ s.pendingChunks, i < s.buffers.length
  reading : ∀ p, s.current = some p → s.parts.lookup (key p.objectId p.objectVersion) = none
    ∧ (∀ i ∈ p.chunks, i ∈ s.pendingChunks) ∧ (p.chunks.flatMap fun i => s.buffers[i]?.getD []) = p.hashed

theorem Pending.start : Pending start where
  delivered _ _ h := by cases h
  apart _ _ h := by cases h
  held _ _ h := by cases h
  allocated _ h := by cases h
  reading _ h := by cases h

/-- A rejection finds every buffer. -/
theorem Pending.allZero (h : Pending s) {b : List UInt8}
    (hb : b ∈ zeroed ((values s.parts).map MediaPart.bytes ++ s.pendingChunks) s.buffers) : ∀ x ∈ b, x = 0 := by
  obtain ⟨i, hi⟩ := List.getElem?_of_mem hb
  by_cases hwhich : i ∈ (values s.parts).map MediaPart.bytes ++ s.pendingChunks
  · exact zeroed_of_mem hi hwhich
  · have hkept : (zeroed _ s.buffers)[i]? = s.buffers[i]? := zeroed_of_not_mem hwhich
    rw [mem_append, not_or] at hwhich
    rcases h.held i b (hkept.symm.trans hi) with hzero | hpending | ⟨k, p, hp, rfl⟩
    · exact hzero
    · exact absurd hpending hwhich.2
    · exact absurd (mem_map_of_mem (mem_values.mpr ⟨k, hp⟩)) hwhich.1

theorem Pending.chunk (h : Pending s) (chunk : List UInt8) (total : Nat) {o : OpenPart} (ho : s.current = some o) :
    Pending
      { s with
        total
        pendingChunks := s.pendingChunks ++ [s.buffers.length]
        buffers := s.buffers ++ [chunk]
        current := some { o with chunks := o.chunks ++ [s.buffers.length], hashed := o.hashed ++ chunk } } := by
  have hold : ∀ {i : Nat} {b : List UInt8}, s.buffers[i]? = some b → (s.buffers ++ [chunk])[i]? = some b := fun hb => by
    rwa [List.getElem?_append_left (List.getElem?_eq_some_iff.mp hb).1]
  obtain ⟨hfresh, hchunks, hhashed⟩ := h.reading o ho
  refine ⟨fun k p hp => ?_, fun k p hp hmem => ?_, fun i b hb => ?_, fun i hi => ?_, fun p hp => ?_⟩
  · obtain ⟨hk, b, hb, hdigest⟩ := h.delivered k p hp
    exact ⟨hk, b, hold hb, hdigest⟩
  · -- The new buffer is no part's.
    obtain ⟨-, b, hb, -⟩ := h.delivered k p hp
    rcases mem_append.mp hmem with hmem | hmem
    · exact h.apart k p hp hmem
    · rw [mem_singleton.mp hmem, List.getElem?_eq_none le_rfl] at hb
      cases hb
  · rw [mem_append, mem_singleton]
    by_cases hi : i < s.buffers.length
    · rw [List.getElem?_append_left hi] at hb
      exact (h.held i b hb).imp_right (·.imp_left .inl)
    · have hlt := (List.getElem?_eq_some_iff.mp hb).1
      rw [length_append, length_singleton] at hlt
      exact .inr (.inl (.inr (by omega)))
  · rw [length_append, length_singleton]
    rcases mem_append.mp hi with hi | hi
    · exact (h.allocated i hi).trans (Nat.lt_succ_self _)
    · rw [mem_singleton.mp hi]
      exact Nat.lt_succ_self _
  · cases hp
    refine ⟨hfresh, fun i hi => ?_, ?_⟩
    · rw [mem_append] at hi ⊢
      exact hi.imp_left (hchunks i)
    · rw [flatMap_append, ← hhashed]
      congr 1
      · refine flatMap_congr fun i hi => ?_
        rw [List.getElem?_append_left (h.allocated i (hchunks i hi))]
      · simp

/-- A part is complete: its chunks are zeroed, and its bytes are a new buffer. -/
theorem Pending.ended (h : Pending s) (hs : s.settled = none) : Pending (receive parse s .ended) := by
  rw [receive]
  cases ho : s.current with
  | none => exact h
  | some o =>
    simp only [hs, isSome_none, Bool.false_eq_true, if_false]
    obtain ⟨hfresh, hchunks, hhashed⟩ := h.reading o ho
    have hlast : (zeroed o.chunks s.buffers ++ [o.hashed])[s.buffers.length]? = some o.hashed := by
      rw [← length_zeroed, List.getElem?_concat_length]
    have hstored : ∀ k p, s.parts.lookup k = some p →
        p.bytes ∉ o.chunks ∧ (zeroed o.chunks s.buffers ++ [o.hashed])[p.bytes]? = s.buffers[p.bytes]? := by
      intro k p hp
      obtain ⟨-, b, hb, -⟩ := h.delivered k p hp
      have hapart : p.bytes ∉ o.chunks := fun hmem => h.apart k p hp (hchunks _ hmem)
      refine ⟨hapart, ?_⟩
      rw [List.getElem?_append_left (by rw [length_zeroed]; exact (List.getElem?_eq_some_iff.mp hb).1),
        zeroed_of_not_mem hapart]
    -- What is concatenated is what was hashed.
    rw [hhashed]
    refine ⟨fun k p hp => ?_, fun k p hp hmem => ?_, fun i b hb => ?_, fun i hi => ?_, fun p hp => by cases hp⟩
    · rw [lookup_insert] at hp
      split at hp
      · next hk =>
        cases hp
        exact ⟨hk.symm, o.hashed, hlast, rfl⟩
      · obtain ⟨hk, b, hb, hdigest⟩ := h.delivered k p hp
        exact ⟨hk, b, (hstored k p hp).2.trans hb, hdigest⟩
    · have hpending := (mem_filter.mp hmem).1
      rw [lookup_insert] at hp
      split at hp
      · cases hp
        exact absurd (h.allocated _ hpending) (Nat.lt_irrefl _)
      · exact h.apart k p hp hpending
    · by_cases hi : i < s.buffers.length
      · rw [List.getElem?_append_left (by rwa [length_zeroed])] at hb
        by_cases hchunk : i ∈ o.chunks
        · exact .inl (zeroed_of_mem hb hchunk)
        · rw [zeroed_of_not_mem hchunk] at hb
          -- A chunk of another part still waits, and no part loses its buffer to the new one: its key was free.
          refine (h.held i b hb).imp_right (·.imp (fun hmem => ?_) fun ⟨k, p, hp, hbytes⟩ => ⟨k, p, ?_, hbytes⟩)
          · exact mem_filter.mpr ⟨hmem, by simpa using hchunk⟩
          · rw [lookup_insert, if_neg fun hk => by rw [hk, hfresh] at hp; cases hp]
            exact hp
      · have hlt := (List.getElem?_eq_some_iff.mp hb).1
        rw [length_append, length_zeroed, length_singleton] at hlt
        refine .inr (.inr ⟨_, _, AList.lookup_insert _, ?_⟩)
        show s.buffers.length = i
        omega
    · rw [length_append, length_zeroed]
      exact (h.allocated i (mem_filter.mp hi).1).trans (Nat.lt_succ_self _)

/-! ### The settlement -/

/-- What a resolution has compared. -/
structure Handed (s : Upload) (metadata : JsValue) (media : List MediaPart) : Prop where
  delivered : Delivered s
  media : media = values s.parts
  compared : ∃ items expected, mediaItems metadata = some items ∧ expectedMedia ∅ items = some (some expected)
    ∧ s.parts.entries.length = expected.entries.length
    ∧ ∀ k item, expected.lookup k = some item → ∃ p, s.parts.lookup k = some p ∧ partMatches s.buffers item p = true

/-- A request before and after its settlement. -/
structure Sound (s : Upload) : Prop where
  pending : s.settled = none → Pending s
  handed : ∀ metadata media, s.settled = some (.resolved metadata media) → Handed s metadata media

/-- A step that may have rejected the request. -/
structure Stepped (t : Upload) : Prop extends Sound t where
  zeros : ∀ error, t.settled = some (.rejected error) → ∀ b ∈ t.buffers, ∀ x ∈ b, x = 0

theorem Stepped.of_pending (h : Pending s) (hs : s.settled = none) : Stepped s where
  pending _ := h
  handed _ _ h := by rw [hs] at h; cases h
  zeros _ h := by rw [hs] at h; cases h

theorem Stepped.of_rejected (hs : s.settled = some (.rejected error)) (h : ∀ b ∈ s.buffers, ∀ x ∈ b, x = 0) :
    Stepped s where
  pending h := by rw [hs] at h; cases h
  handed _ _ h := by rw [hs] at h; cases h
  zeros _ _ := h

theorem Stepped.fail (h : Pending s) (hs : s.settled = none) : Stepped (s.fail error) := by
  rw [fail_of_none hs]
  exact .of_rejected rfl fun b => h.allZero

theorem Stepped.finish (h : Pending s) (hs : s.settled = none) : Stepped s.finish := by
  simp only [Upload.finish, hs, isSome_none, Bool.false_eq_true, if_false]
  split
  · exact .fail h hs
  · next items hitems =>
    split
    · exact .of_pending h hs
    · exact .fail h hs
    · next expected hexpected =>
      split
      · exact .fail h hs
      · next hlength =>
        split
        · next hall =>
          refine ⟨⟨fun h => (by cases h), fun metadata media hmedia => ?_⟩, fun _ h => by cases h⟩
          cases hmedia
          refine ⟨h.delivered, rfl, items, expected, hitems, hexpected, not_not.mp hlength, fun k item hk => ?_⟩
          exact (any_eq_true _ _).mp (all_eq_true.mp hall ⟨k, item⟩ (AList.mem_lookup_iff.mp hk))
        · exact .fail h hs

/-- One event, before the settlement. -/
theorem Stepped.receive (h : Pending s) (hs : s.settled = none) : Stepped (receive parse s e) := by
  cases e with
  | field =>
    rw [RichTransport.receive]
    split
    · exact .fail h hs
    · split
      · exact .fail h hs
      · exact .of_pending ⟨h.delivered, h.apart, h.held, h.allocated, h.reading⟩ hs
  | file name filename mime =>
    rw [RichTransport.receive]
    have hfail : Stepped { s.fail invalid with current := none } := by
      rw [fail_of_none hs]
      exact .of_rejected rfl fun b => h.allZero
    split
    · exact hfail
    · split
      · exact hfail
      · next hrefused =>
        refine .of_pending ⟨h.delivered, h.apart, h.held, h.allocated, fun p hp => ?_⟩ hs
        cases hp
        exact ⟨AList.lookup_eq_none.mpr fun hmem => hrefused (.inr (.inr (.inr hmem))), nofun, rfl⟩
  | data chunk =>
    rw [RichTransport.receive]
    cases ho : s.current with
    | none => exact .of_pending h hs
    | some o =>
      have hchunk := h.chunk chunk (s.total + chunk.length) ho
      dsimp only
      split
      · -- The chunk that is too much is one of those that wait, so the rejection finds it too.
        rw [fail_of_none (by exact hs)]
        exact .of_rejected rfl fun b => hchunk.allZero
      · refine .of_pending ?_ hs
        rwa [length_append, length_singleton, Nat.add_sub_cancel]
  | ended => exact .of_pending (h.ended hs) (by rw [RichTransport.receive]; split <;> simp [hs])
  | finish => exact .finish h hs
  | _ => exact .fail h hs

/-- One event, after the settlement. -/
theorem receive_settled (hs : s.settled.isSome = true) :
    (receive parse s e).settled = s.settled ∧ (receive parse s e).parts = s.parts
      ∧ ∃ more, (receive parse s e).buffers = s.buffers ++ more := by
  have hfail : ∀ error, s.fail error = s := fun _ => if_pos hs
  cases e with
  | field => rw [receive]; split <;> [skip; split] <;> simp [hfail]
  | file => rw [receive]; split <;> [skip; split] <;> simp [hfail]
  | data => rw [receive]; split <;> [skip; (dsimp only; split)] <;> simp [Upload.fail, hs]
  | ended => rw [receive]; split <;> simp [hs]
  | finish => simp [receive, Upload.finish, hs]
  | _ => simp [receive, hfail]

theorem Sound.receive (h : Sound s) : Sound (receive parse s e) := by
  cases hs : s.settled with
  | none => exact (Stepped.receive (h.pending hs) hs).toSound
  | some settlement =>
    obtain ⟨hsettled, hparts, more, hbuffers⟩ := @receive_settled _ _ s e parse (by rw [hs]; rfl)
    refine ⟨fun hnone => (by rw [hsettled, hs] at hnone; cases hnone), fun metadata media hmedia => ?_⟩
    rw [hsettled] at hmedia
    obtain ⟨hdelivered, hvalues, items, expected, hitems, hexpected, hlength, hcompared⟩ := h.handed metadata media hmedia
    have hkept : ∀ k p, s.parts.lookup k = some p →
        (RichTransport.receive parse s e).buffers[p.bytes]? = s.buffers[p.bytes]? := by
      intro k p hp
      obtain ⟨-, b, hb, -⟩ := hdelivered k p hp
      rw [hbuffers, List.getElem?_append_left (List.getElem?_eq_some_iff.mp hb).1]
    refine ⟨fun k p hp => ?_, by rw [hparts, hvalues], items, expected, hitems, hexpected, by rw [hparts, hlength],
      fun k item hk => ?_⟩
    · rw [hparts] at hp
      rw [hkept k p hp]
      exact hdelivered k p hp
    · obtain ⟨p, hp, hmatches⟩ := hcompared k item hk
      refine ⟨p, by rw [hparts, hp], ?_⟩
      rwa [partMatches, hkept k p hp]

theorem Sound.run {events : List UploadEvent} (h : Sound s) : Sound (events.foldl (RichTransport.receive parse) s) := by
  induction events generalizing s with
  | nil => exact h
  | cons e events ih => exact ih h.receive

/-! ### The declared items -/

/-- Items that name one object, ignoring case, and one version agree. -/
def Agreed (items : List Json) : Prop :=
  ∀ item ∈ items, ∀ item' ∈ items, itemKey item = itemKey item' → Agrees item item'

/-- No two parts of one key; a part for every item, with its digest, length and type; an item for every part, and the
part's digest is the one of its bytes. -/
def ExactMedia (buffers : List (List UInt8)) (items : List Json) (media : List MediaPart) : Prop :=
  (media.map MediaPart.key).Nodup
    ∧ (∀ item ∈ items, ∃ p ∈ media, itemKey item = some (some p.key) ∧ partMatches buffers item p = true)
    ∧ ∀ p ∈ media, (∃ item ∈ items, itemKey item = some (some p.key))
      ∧ ∃ b, buffers[p.bytes]? = some b ∧ p.sha256 = sha256Hex b

/-- The parts of a resolution are the declared media exactly when items of one key agree. -/
theorem Handed.exact_iff (h : Handed s metadata media) :
    ∃ items, mediaItems metadata = some items ∧ (ExactMedia s.buffers items media ↔ Agreed items) := by
  obtain ⟨hdelivered, rfl, items, expected, hitems, hexpected, hlength, hcompared⟩ := h
  refine ⟨items, hitems, ?_⟩
  obtain ⟨-, hkeyed, hlast⟩ := expectedMedia_some hexpected
  have hkey : ∀ p ∈ values s.parts, s.parts.lookup p.key = some p := by
    intro p hp
    obtain ⟨k, hk⟩ := mem_values.mp hp
    rwa [(hdelivered k p hk).1]
  have hnodup : ((values s.parts).map MediaPart.key).Nodup := by
    rw [map_values_of_keyed fun k p hp => (hdelivered k p hp).1]
    exact s.parts.keys_nodup
  constructor
  · -- Two items of one key have the same part, and both match it.
    rintro ⟨-, hfound, -⟩ item hitem item' hitem' hsame
    obtain ⟨p, hp, hpkey, hmatches⟩ := hfound item hitem
    obtain ⟨p', hp', hpkey', hmatches'⟩ := hfound item' hitem'
    rw [hsame, hpkey'] at hpkey
    cases inj_on_of_nodup_map hnodup hp hp' (by simpa using hpkey.symm)
    exact agrees_of_partMatches hmatches hmatches'
  · refine fun hagreed => ⟨hnodup, fun item hitem => ?_, fun p hp => ?_⟩
    · obtain ⟨k, hk, hitemKey⟩ := hkeyed item hitem
      obtain ⟨last, hk⟩ := isSome_iff_exists.mp (AList.lookup_isSome.mpr hk)
      obtain ⟨p, hp, hmatches⟩ := hcompared k last hk
      -- The part was compared with the last item of the key only.
      obtain ⟨hlastMem, hlastKey⟩ := (hlast k last hk).resolve_left (by simp)
      refine ⟨p, mem_values.mpr ⟨k, hp⟩, ?_, ?_⟩
      · rw [hitemKey, (hdelivered k p hp).1]
      · exact partMatches_of_agrees (hagreed item hitem last hlastMem (hitemKey.trans hlastKey.symm)) hmatches
    · -- The expected keys are keys of parts, and there are as many of both.
      have hsub : expected.keys ⊆ s.parts.keys := by
        intro k hk
        obtain ⟨item, hitem⟩ := isSome_iff_exists.mp (AList.lookup_isSome.mpr (AList.mem_keys.mpr hk))
        obtain ⟨p, hp, -⟩ := hcompared k item hitem
        exact AList.mem_keys.mp (AList.lookup_isSome.mp (isSome_of_eq_some hp))
      have hperm := (subperm_of_subset expected.keys_nodup hsub).perm_of_length_le (by simp [AList.keys, List.keys, hlength])
      have hexpectedKey : p.key ∈ expected.keys :=
        hperm.mem_iff.mpr (AList.mem_keys.mp (AList.lookup_isSome.mp (isSome_of_eq_some (hkey p hp))))
      obtain ⟨item, hitem⟩ := isSome_iff_exists.mp (AList.lookup_isSome.mpr (AList.mem_keys.mpr hexpectedKey))
      exact ⟨⟨item, (hlast _ item hitem).resolve_left (by simp)⟩, (hdelivered _ p (hkey p hp)).2⟩

/-- Over every run of events: the parts of a resolution are the declared media exactly when items of one key agree, and
a rejection leaves nothing but zeros. -/
theorem multipart_resolves_declared_media (parse : String → Option Json) (events : List UploadEvent) :
    let s := events.foldl (receive parse) start
    (∀ metadata media, s.settled = some (.resolved metadata media) →
        ∃ items, mediaItems metadata = some items ∧ (ExactMedia s.buffers items media ↔ Agreed items))
      ∧ ∀ e error, s.settled = none → (receive parse s e).settled = some (.rejected error) →
        ∀ b ∈ (receive parse s e).buffers, ∀ x ∈ b, x = 0 := by
  have hsound : Sound (events.foldl (receive parse) start) :=
    Sound.run ⟨fun _ => Pending.start, fun _ _ h => by cases h⟩
  exact ⟨fun metadata media h => (hsound.handed metadata media h).exact_iff,
    fun e error hs => (Stepped.receive (hsound.pending hs) hs).zeros error⟩

end RichTransport

/-! ### Two items of one object -/

namespace Sample

open RichTransport

/-- SHA-256 on the bytes that are uploaded below. -/
@[reducible] def imageSha256 : Sha256 :=
  ⟨fun bytes =>
    if bytes = [1, 2, 3] then "039058c6f2c0cb492c533b0a4d14ef77cc0f78abccced5287d84a1a2011cfb81" else ""⟩

@[reducible] def asciiLower : LowerCase :=
  ⟨fun text => String.ofList (text.toList.map Char.toLower)⟩

attribute [local instance] imageSha256 asciiLower

def imageId : String :=
  "00000000-0000-4000-8000-000000000001"

def declaredImage (sha256 : String) : Json :=
  .object
    [("object",
        .object [("object_id", .string imageId), ("object_version", .number (.posInt 1)), ("sha256", .string sha256)]),
      ("byte_len", .number (.posInt 3)), ("media_type", .string "image/png")]

/-- The digest of other bytes, and the one of the bytes that are delivered. -/
def declaredTwice : List Json :=
  [declaredImage "0000000000000000000000000000000000000000000000000000000000000000",
    declaredImage "039058c6f2c0cb492c533b0a4d14ef77cc0f78abccced5287d84a1a2011cfb81"]

def richMetadata : Json :=
  .object [("payload", .object [("media", .array declaredTwice)])]

def richUpload : Upload :=
  [.field "metadata" "" false false "7bit" "application/json", .file ("media_" ++ imageId ++ "_1") none "image/png",
    .data [1, 2, 3], .ended, .finish].foldl (receive fun _ => some richMetadata) start

theorem declared_digest_never_compared :
    ∃ media, richUpload.settled = some (.resolved (some richMetadata) media)
      ∧ mediaItems (some richMetadata) = some declaredTwice ∧ ¬ ExactMedia richUpload.buffers declaredTwice media := by
  have hsettled : richUpload.settled = some (.resolved (some richMetadata)
      [⟨imageId, 1, "image/png", "039058c6f2c0cb492c533b0a4d14ef77cc0f78abccced5287d84a1a2011cfb81", 1⟩]) := by
    decide +kernel
  refine ⟨_, hsettled, by decide +kernel, fun hexact => ?_⟩
  obtain ⟨p, hp, -, hmatches⟩ := hexact.2.1 _ mem_cons_self
  cases mem_singleton.mp hp
  exact absurd hmatches (by decide +kernel)

end Sample

end GeoMaster
