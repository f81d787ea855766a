import GeoMaster.Domain.ReportRepository
import GeoMaster.Lib.Delimited
import GeoMaster.Proofs.Identifiers

/-!
# The identity of a report

The identity of a report is drawn from one text, in which the scope, the project, the cycle, the window, the cutoff,
the manifests and the revision stand one behind the other. Each of these shows where it ends, so the text
determines all of them.
-/

namespace GeoMaster

open List Nat String ReportManifestRef Delimited

/-! ### Texts of parts -/

theorem Uuid.toString_delimited : Delimited fun u : Uuid => u.toString.toList :=
  of_length (fun _ _ h => Uuid.toString_injective (toList_inj.mp h))
    (fun u v => by rw [u.length_toString, v.length_toString])

theorem digits_injective : Function.Injective fun n : Nat => (toString n).toList := by
  intro n m h
  have hdigits : Nat.toDigits 10 n = Nat.toDigits 10 m := by
    rw [← toList_repr, ← toList_repr]
    exact h
  rw [← ofDigitChars_toDigits (b := 10) (n := n) (by decide) (by decide), hdigits,
    ofDigitChars_toDigits (by decide) (by decide)]

theorem not_mem_digits {c : Char} (hc : c.isDigit = false) (n : Nat) : c ∉ (toString n).toList := by
  intro hmem
  have hdigits : (toString n).toList = Nat.toDigits 10 n := toList_repr
  rw [hdigits] at hmem
  rw [isDigit_of_mem_toDigits (by decide) (by decide) hmem] at hc
  cases hc

/-- The text of an instant ends with the name of its zone, and no other part of it has the last letter of that
name. -/
class LawfulInstantDisplay [InstantDisplay] : Prop where
  injective : ∀ t t', InstantDisplay.text t = InstantDisplay.text t' → t = t'
  closed : ∀ t, ∃ body, (InstantDisplay.text t).toList = body ++ ['C'] ∧ 'C' ∉ body

theorem InstantDisplay.delimited [InstantDisplay] [LawfulInstantDisplay] :
    Delimited fun t : DateTime => (InstantDisplay.text t).toList := by
  intro t t' r r' h
  obtain ⟨_, hbody, hfree⟩ := LawfulInstantDisplay.closed t
  obtain ⟨_, hbody', hfree'⟩ := LawfulInstantDisplay.closed t'
  simp only [hbody, hbody', List.append_assoc, List.singleton_append] at h
  obtain ⟨hhead, hrest⟩ := eq_of_append_cons hfree hfree' h
  have htext : (InstantDisplay.text t).toList = (InstantDisplay.text t').toList := by
    rw [hbody, hbody', hhead]
  exact ⟨LawfulInstantDisplay.injective t t' (toList_inj.mp htext), hrest⟩

/-! ### Manifest references -/

/-- A reference as it is written: the numbers are 64 bits wide. -/
abbrev WrittenManifest : Type :=
  ReportManifestKind × Uuid × UInt64 × Bool × Option UInt64

def ReportManifestRef.written (reference : ReportManifestRef) : WrittenManifest :=
  (reference.kind, reference.manifestId, UInt64.ofNat reference.revision.toNat, reference.sealed,
    reference.expectedCount.map UInt64.ofNat)

/-- The numbers of a reference have the range of their types, and the revision is positive. -/
structure ReportManifestRef.InRange (reference : ReportManifestRef) : Prop where
  positive : 0 < reference.revision
  revision : reference.revision < 2 ^ 63
  expectedCount : ∀ n ∈ reference.expectedCount, n < 2 ^ 64

theorem UInt64.ofNat_inj_of_lt {n m : Nat} (hn : n < 2 ^ 64) (hm : m < 2 ^ 64)
    (h : UInt64.ofNat n = UInt64.ofNat m) : n = m := by
  have hnat := congrArg UInt64.toNat h
  rwa [UInt64.toNat_ofNat_of_lt' hn, UInt64.toNat_ofNat_of_lt' hm] at hnat

theorem ReportManifestRef.written_inj {reference reference' : ReportManifestRef} (hrange : reference.InRange)
    (hrange' : reference'.InRange) (h : reference.written = reference'.written) : reference = reference' := by
  obtain ⟨_, _, revision, _, expectedCount⟩ := reference
  obtain ⟨_, _, revision', _, expectedCount'⟩ := reference'
  simp only [written, Prod.mk.injEq] at h
  obtain ⟨rfl, rfl, hrevision, rfl, hexpected⟩ := h
  have hpos : 0 < revision := hrange.positive
  have hpos' : 0 < revision' := hrange'.positive
  have hlt : revision < 2 ^ 63 := hrange.revision
  have hlt' : revision' < 2 ^ 63 := hrange'.revision
  have hnat := UInt64.ofNat_inj_of_lt (by omega) (by omega) hrevision
  have hsame : revision = revision' := by omega
  have hcount : expectedCount = expectedCount' := by
    cases expectedCount with
    | none => cases expectedCount' <;> simp_all
    | some n =>
      cases expectedCount' with
      | none => simp at hexpected
      | some m =>
        have hn : n < 2 ^ 64 := hrange.expectedCount n rfl
        have hm : m < 2 ^ 64 := hrange'.expectedCount m rfl
        exact congrArg some (UInt64.ofNat_inj_of_lt hn hm (Option.some.inj hexpected))
  rw [hsame, hcount]

/-- The field `"key":` with what follows it up to a closing character. -/
def fieldText (before : String) (text : List Char) (close : Char) : List Char :=
  before.toList ++ (text ++ [close])

def boolText (b : Bool) : List Char :=
  if b then "true".toList else "false".toList

def countText : Option UInt64 → List Char
  | none => "null".toList
  | some n => (toString n.toNat).toList

/-- The text of a reference, field by field. -/
def writtenText (m : WrittenManifest) : List Char :=
  ['\x7b'] ++ (fieldText "\"kind\":\"" m.1.text.toList '"'
    ++ (fieldText ",\"manifest_id\":\"" m.2.1.toString.toList '"'
      ++ (fieldText ",\"revision\":" (toString m.2.2.1.toNat).toList ','
        ++ (fieldText "\"sealed\":" (boolText m.2.2.2.1) ','
          ++ fieldText "\"expected_count\":" (countText m.2.2.2.2) '\x7d'))))

/-- A text that needs no escapes is quoted as it is. -/
theorem Json.quote_plain {s : String} (h : ∀ c ∈ s.toList, Json.escapeChar c = [c]) :
    Json.quote s = '"' :: (s.toList ++ ['"']) := by
  have hplain : ∀ l : List Char, (∀ c ∈ l, Json.escapeChar c = [c]) → l.flatMap Json.escapeChar = l := by
    intro l
    induction l with
    | nil => intro _; rfl
    | cons c l ih =>
      intro hl
      rw [flatMap_cons, hl c mem_cons_self, ih fun c hc => hl c (mem_cons_of_mem _ hc)]
      rfl
  unfold Json.quote
  rw [hplain s.toList h]
  rfl

theorem escapeChar_hexDigit : ∀ n < 16, Json.escapeChar (hexDigit n) = [hexDigit n] := by
  decide

theorem Uuid.escapeChar_toString (u : Uuid) : ∀ c ∈ u.toString.toList, Json.escapeChar c = [c] := by
  have hdigit : ∀ c ∈ u.hexDigits, Json.escapeChar c = [c] := by
    intro c hc
    obtain ⟨_, _, rfl⟩ := mem_map.mp hc
    exact escapeChar_hexDigit _ (mod_lt _ (by decide))
  intro c hc
  by_cases hhyphen : c = '-'
  · rw [hhyphen]
    decide
  · have hfiltered : c ∈ u.toString.toList.filter (· ≠ '-') := by
      rw [mem_filter]
      exact ⟨hc, by simpa using hhyphen⟩
    rw [u.filter_toString] at hfiltered
    exact hdigit c hfiltered

theorem ReportManifestRef.compact_json {reference : ReportManifestRef} (hpositive : 0 < reference.revision) :
    reference.json.compact = writtenText reference.written := by
  obtain ⟨kind, manifestId, revision, isSealed, expectedCount⟩ := reference
  have hkind : Json.quote kind.text = '"' :: (kind.text.toList ++ ['"']) := by cases kind <;> decide
  have hid := Json.quote_plain manifestId.escapeChar_toString
  have hrevision : ¬ revision < 0 := by
    have : 0 < revision := hpositive
    omega
  have hnumber : (Json.ofInt revision).compact = (toString (UInt64.ofNat revision.toNat).toNat).toList := by
    rw [Json.ofInt, if_neg hrevision]
    rfl
  have hcount : (Json.nullable Json.ofNat expectedCount).compact = countText (expectedCount.map UInt64.ofNat) := by
    cases expectedCount <;> rfl
  have hkind' : "\"kind\":\"".toList = Json.quote "kind" ++ [':', '"'] := by decide
  have hid' : ",\"manifest_id\":\"".toList = ',' :: Json.quote "manifest_id" ++ [':', '"'] := by decide
  have hrevision' : ",\"revision\":".toList = ',' :: Json.quote "revision" ++ [':'] := by decide
  have hsealed' : "\"sealed\":".toList = Json.quote "sealed" ++ [':'] := by decide
  have hcount' : "\"expected_count\":".toList = Json.quote "expected_count" ++ [':'] := by decide
  unfold writtenText fieldText
  rw [hkind', hid', hrevision', hsealed', hcount']
  cases isSealed <;>
    simp [json, Json.compact, Json.compactFields, Json.compactField, hnumber,
      hcount, Uuid.json, hkind, hid, written, boolText]

theorem fieldText_delimited {α : Type} (before : String) (enc : α → List Char) {close : Char}
    (hinj : Function.Injective enc) (hfree : ∀ a, close ∉ enc a) : Delimited fun a => fieldText before (enc a) close :=
  (of_closed hinj hfree).before before.toList

theorem countText_injective : Function.Injective countText := by
  have hnull : ∀ n : UInt64, "null".toList ≠ (toString n.toNat).toList := by
    intro n h
    have hmem : 'n' ∈ (toString n.toNat).toList := by
      rw [← h]
      decide
    exact not_mem_digits (by decide) _ hmem
  intro o o' h
  cases o with
  | none =>
    cases o' with
    | none => rfl
    | some n => exact absurd h (hnull n)
  | some n =>
    cases o' with
    | none => exact absurd h.symm (hnull n)
    | some m => exact congrArg some (UInt64.toNat_inj.mp (digits_injective h))

theorem writtenText_delimited : Delimited writtenText := by
  have hkind : Delimited fun kind : ReportManifestKind =>
      fieldText "\"kind\":\"" kind.text.toList '"' := by
    apply fieldText_delimited _ fun kind : ReportManifestKind => kind.text.toList
    · intro kind kind' h
      cases kind <;> cases kind' <;> first | rfl | exact absurd h (by decide)
    · intro kind
      cases kind <;> decide
  have hid : Delimited fun id : Uuid =>
      fieldText ",\"manifest_id\":\"" id.toString.toList '"' :=
    (Uuid.toString_delimited.after ['"']).before _
  have hrevision : Delimited fun n : UInt64 =>
      fieldText ",\"revision\":" (toString n.toNat).toList ',' := by
    apply fieldText_delimited _ fun n : UInt64 => (toString n.toNat).toList
    · intro n m h
      exact UInt64.toNat_inj.mp (digits_injective h)
    · intro n
      exact not_mem_digits (by decide) _
  have hsealed : Delimited fun b : Bool => fieldText "\"sealed\":" (boolText b) ',' := by
    apply fieldText_delimited
    · intro b b' h
      cases b <;> cases b' <;> first | rfl | exact absurd h (by decide)
    · intro b
      cases b <;> decide
  have hcount : Delimited fun o : Option UInt64 =>
      fieldText "\"expected_count\":" (countText o) '\x7d' := by
    apply fieldText_delimited _ _ countText_injective
    intro o
    cases o with
    | none => decide
    | some n => exact not_mem_digits (by decide) _
  exact (hkind.pair (hid.pair (hrevision.pair (hsealed.pair hcount)))).before ['\x7b']

/-! ### The manifests -/

theorem compactItems_eq (manifests : List ReportManifestRef)
    (hpositive : ∀ reference ∈ manifests, 0 < reference.revision) :
    Json.compactItems true (manifests.map json) = separated ',' writtenText (manifests.map written) := by
  have hrest : ∀ rest : List ReportManifestRef, (∀ reference ∈ rest, 0 < reference.revision) →
      Json.compactItems false (rest.map json) = following ',' writtenText (rest.map written) := by
    intro rest
    induction rest with
    | nil => intro _; rfl
    | cons reference _ ih =>
      intro hrest
      have htail := ih fun other hmem => hrest other (mem_cons_of_mem _ hmem)
      simp only [map_cons, Json.compactItems, htail, following, flatMap_cons,
        compact_json (hrest reference mem_cons_self)]
      simp
  cases manifests with
  | nil => rfl
  | cons reference rest =>
    have htail := hrest rest fun other hmem => hpositive other (mem_cons_of_mem _ hmem)
    simp only [map_cons, Json.compactItems, htail, separated, compact_json (hpositive reference mem_cons_self)]
    simp

/-- The text of the manifests. -/
def manifestsText (manifests : List WrittenManifest) : List Char :=
  ['['] ++ (separated ',' writtenText manifests ++ [']'])

theorem manifestsText_delimited : Delimited manifestsText := by
  have hlist := separated_closed writtenText_delimited ',' ']' (by decide) fun m => ⟨'\x7b', _, rfl, by decide⟩
  exact hlist.before ['[']

theorem toText_manifests (manifests : List ReportManifestRef)
    (hpositive : ∀ reference ∈ manifests, 0 < reference.revision) :
    (Json.array (manifests.map json)).toText.toList = manifestsText (manifests.map written) := by
  rw [Json.toText, toList_ofList, Json.compact, compactItems_eq manifests hpositive]
  simp [manifestsText]

theorem written_map_inj {manifests manifests' : List ReportManifestRef}
    (hrange : ∀ reference ∈ manifests, reference.InRange) (hrange' : ∀ reference ∈ manifests', reference.InRange)
    (h : manifests.map written = manifests'.map written) : manifests = manifests' := by
  induction manifests generalizing manifests' with
  | nil =>
    cases manifests' with
    | nil => rfl
    | cons _ _ => cases h
  | cons reference _ ih =>
    cases manifests' with
    | nil => cases h
    | cons reference' rest' =>
      obtain ⟨hhead, htail⟩ := List.cons.inj h
      rw [written_inj (hrange reference mem_cons_self) (hrange' reference' mem_cons_self) hhead,
        ih (fun other hmem => hrange other (mem_cons_of_mem _ hmem))
          (fun other hmem => hrange' other (mem_cons_of_mem _ hmem)) htail]

/-! ### The identity text -/

/-- What an identity text determines. -/
abbrev IdentityParts : Type :=
  Uuid × Uuid × Uuid × Uuid × DateTime × DateTime × DateTime × List WrittenManifest × Nat

section Identity

variable [InstantDisplay]

/-- What is left behind an identifier, and behind an instant. -/
def idThen {α : Type} (rest : α → List Char) (p : Uuid × α) : List Char :=
  (p.1.toString.toList ++ [':']) ++ rest p.2

def instantThen {α : Type} (rest : α → List Char) (p : DateTime × α) : List Char :=
  ((InstantDisplay.text p.1).toList ++ [':']) ++ rest p.2

def manifestsThenRevision (p : List WrittenManifest × Nat) : List Char :=
  (manifestsText p.1 ++ ":geo-report-v1:".toList) ++ (toString p.2).toList

/-- The parts in front of each other, as they are written. -/
def partsText : IdentityParts → List Char :=
  idThen (idThen (idThen (idThen (instantThen (instantThen (instantThen manifestsThenRevision))))))

omit [InstantDisplay] in
theorem idThen_injective {α : Type} {rest : α → List Char} (h : Function.Injective rest) :
    Function.Injective (idThen rest) :=
  (Uuid.toString_delimited.after [':']).pair_injective h

theorem instantThen_injective [LawfulInstantDisplay] {α : Type} {rest : α → List Char}
    (h : Function.Injective rest) : Function.Injective (instantThen rest) :=
  (InstantDisplay.delimited.after [':']).pair_injective h

omit [InstantDisplay] in
theorem manifestsThenRevision_injective : Function.Injective manifestsThenRevision :=
  (manifestsText_delimited.after ":geo-report-v1:".toList).pair_injective digits_injective

theorem partsText_injective [LawfulInstantDisplay] : Function.Injective partsText := by
  apply idThen_injective
  apply idThen_injective
  apply idThen_injective
  apply idThen_injective
  apply instantThen_injective
  apply instantThen_injective
  apply instantThen_injective
  exact manifestsThenRevision_injective

theorem toList_reportIdentityText (scope : TenantScope) (input : ReportReduceInput)
    (manifests : List ReportManifestRef) (revision : Nat)
    (hpositive : ∀ reference ∈ manifests, 0 < reference.revision) :
    (reportIdentityText scope input manifests revision).toList
      = partsText
        (scope.operatorId.asUuid, scope.tenantId.asUuid, input.projectId.asUuid, input.cycleId,
          input.reportWindowStartAt, input.reportWindowEndAt, input.cutoffAt,
          manifests.map written, revision) := by
  have hversion : ":geo-report-v1:".toList = ':' :: reportReducerVersion.toList ++ [':'] := by decide
  have hcolon : ":".toList = [':'] := by decide
  unfold reportIdentityText Text.join partsText
  simp only [idThen, instantThen, manifestsThenRevision]
  rw [toList_ofList, hversion, hcolon]
  simp only [map_cons, map_nil, List.intersperse, flatten_cons, flatten_nil, toText_manifests manifests hpositive]
  simp

theorem reportIdentityText_inj [LawfulInstantDisplay] {scope scope' : TenantScope} {input input' : ReportReduceInput}
    {manifests manifests' : List ReportManifestRef} {revision revision' : Nat}
    (hrange : ∀ reference ∈ manifests, reference.InRange) (hrange' : ∀ reference ∈ manifests', reference.InRange)
    (h : reportIdentityText scope input manifests revision = reportIdentityText scope' input' manifests' revision') :
    scope.operatorId = scope'.operatorId ∧ scope.tenantId = scope'.tenantId ∧ input.projectId = input'.projectId
      ∧ input.cycleId = input'.cycleId ∧ input.reportWindowStartAt = input'.reportWindowStartAt
      ∧ input.reportWindowEndAt = input'.reportWindowEndAt ∧ input.cutoffAt = input'.cutoffAt ∧ manifests = manifests'
      ∧ revision = revision' := by
  have hparts := congrArg String.toList h
  rw [toList_reportIdentityText _ _ _ _ fun reference hmem => (hrange reference hmem).positive,
    toList_reportIdentityText _ _ _ _ fun reference hmem => (hrange' reference hmem).positive]
    at hparts
  have hequal := partsText_injective hparts
  simp only [Prod.mk.injEq] at hequal
  obtain ⟨hoperator, htenant, hproject, hcycle, hstart, hend, hcutoff, hmanifests, hrevision⟩ := hequal
  refine ⟨?_, ?_, ?_, hcycle, hstart, hend, hcutoff, written_map_inj hrange hrange' hmanifests, hrevision⟩
  · exact congrArg OperatorId.mk hoperator
  · exact congrArg TenantId.mk htenant
  · exact congrArg ProjectId.mk hproject

end Identity

end GeoMaster
