import GeoMaster.Proofs.JsonText

/-!
# Texts of JSON values

The compact text of a value determines the value: its first character tells what it is, and each kind shows where it
ends, a number by the character behind it. A number is written in one way only, so a value with floats, or with a
signed number that is not negative, is left out.
-/

namespace GeoMaster

open List Delimited

namespace Json

/-- A value without floats whose signed numbers are negative. -/
inductive Plain : Json → Prop where
  | null : Plain .null
  | bool (b : Bool) : Plain (.bool b)
  | posInt (n : UInt64) : Plain (.number (.posInt n))
  | negInt {n : Int64} (h : n.toInt < 0) : Plain (.number (.negInt n))
  | string (s : String) : Plain (.string s)
  | array {items : List Json} (h : ∀ x ∈ items, Plain x) : Plain (.array items)
  | object {fields : List (String × Json)} (h : ∀ f ∈ fields, Plain f.2) : Plain (.object fields)

variable {v w : Json} {r r' : List Char}

/-- No digit stands in front. -/
def Ends (r : List Char) : Prop :=
  ∀ c ∈ r.head?, c.isDigit = false

/-- The kind of the value that a character begins. -/
def lead (c : Char) : Nat :=
  if c = 'n' then 0 else if c = 't' ∨ c = 'f' then 1 else if c.isDigit ∨ c = '-' then 2 else if c = '"' then 3
  else if c = '[' then 4 else if c = '\x7b' then 5 else 6

theorem digits_lead (n : Nat) : ∃ c cs, (toString n).toList = c :: cs ∧ c.isDigit = true := by
  have hdigits : (toString n).toList = Nat.toDigits 10 n := Nat.toList_repr
  obtain ⟨c, cs, hcs⟩ := List.exists_cons_of_ne_nil (Nat.toDigits_ne_nil : Nat.toDigits 10 n ≠ [])
  exact ⟨c, cs, hdigits.trans hcs, Nat.isDigit_of_mem_toDigits (by decide) (by decide) (hcs ▸ List.mem_cons_self)⟩

theorem lead_digit {c : Char} (h : c.isDigit = true) : lead c = 2 := by
  have hne (d : Char) (hd : d.isDigit = false) : c ≠ d := fun heq => by rw [heq, hd] at h; cases h
  simp [lead, h, hne 'n' rfl, hne 't' rfl, hne 'f' rfl]

theorem negative_text {n : Int64} (h : n.toInt < 0) :
    (toString n.toInt).toList = '-' :: (toString n.toInt.natAbs).toList := by
  obtain ⟨m, hm⟩ := Int.eq_negSucc_of_lt_zero h
  rw [hm]
  show ("-" ++ toString (m + 1)).toList = _
  rw [String.toList_append]
  rfl

theorem Plain.begins (hv : Plain v) : ∃ c cs, v.compact = c :: cs ∧ lead c = v.ctorIdx := by
  cases hv with
  | null => exact ⟨'n', _, rfl, rfl⟩
  | bool b => cases b <;> exact ⟨_, _, rfl, rfl⟩
  | posInt n =>
    obtain ⟨c, cs, htext, hdigit⟩ := digits_lead n.toNat
    exact ⟨c, cs, by rw [compact, numberText, htext], lead_digit hdigit⟩
  | negInt h => exact ⟨'-', _, by rw [compact, numberText, negative_text h], rfl⟩
  | string s => exact ⟨'"', _, rfl, rfl⟩
  | array h => exact ⟨'[', _, by rw [compact]; rfl, rfl⟩
  | object h => exact ⟨'\x7b', _, by rw [compact]; rfl, rfl⟩

theorem digits_read {n m : Nat} (hr : Ends r) (hr' : Ends r') (h : (toString n).toList ++ r = (toString m).toList ++ r') :
    n = m ∧ r = r' := by
  have hspan (k : Nat) {q : List Char} (hq : Ends q) :
      ((toString k).toList ++ q).takeWhile Char.isDigit = (toString k).toList := by
    have hall : ∀ c ∈ (toString k).toList, c.isDigit = true := by
      rw [show (toString k).toList = Nat.toDigits 10 k from Nat.toList_repr]
      exact fun c hc => Nat.isDigit_of_mem_toDigits (by decide) (by decide) hc
    rw [takeWhile_append_of_pos hall]
    cases q with
    | nil => simp
    | cons c q => simp [hq c rfl]
  have hdigits := hspan n hr
  rw [h, hspan m hr'] at hdigits
  obtain rfl := digits_injective hdigits.symm
  exact ⟨rfl, append_cancel_left h⟩

theorem compactItems_separated (items : List Json) : compactItems true items = separated ',' compact items := by
  have hrest (rest : List Json) : compactItems false rest = following ',' compact rest := by
    induction rest with
    | nil => rfl
    | cons _ _ ih => rw [compactItems, ih]; rfl
  cases items with
  | nil => rfl
  | cons x rest => rw [compactItems, hrest]; rfl

theorem compactFields_separated (fields : List (String × Json)) :
    compactFields true fields = separated ',' compactField fields := by
  have hrest (rest : List (String × Json)) : compactFields false rest = following ',' compactField rest := by
    induction rest with
    | nil => rfl
    | cons _ _ ih => rw [compactFields, ih]; rfl
  cases fields with
  | nil => rfl
  | cons x rest => rw [compactFields, hrest]; rfl

theorem Plain.same_kind (hv : Plain v) (hw : Plain w) (h : v.compact ++ r = w.compact ++ r') : v.ctorIdx = w.ctorIdx := by
  obtain ⟨_, _, hc, hlead⟩ := hv.begins
  obtain ⟨_, _, hd, hlead'⟩ := hw.begins
  rw [hc, hd] at h
  rw [← hlead, ← hlead', (List.cons.inj h).1]

theorem Plain.begins_open {close : Char} (hclose : lead close = 6) (hv : Plain v) :
    ∃ c cs, v.compact = c :: cs ∧ c ≠ close := by
  obtain ⟨c, cs, hc, hlead⟩ := hv.begins
  refine ⟨c, cs, hc, fun heq => ?_⟩
  rw [← heq, hlead] at hclose
  cases hv <;> cases hclose

theorem ends_closed {close : Char} (hclose : close.isDigit = false) (r : List Char) :
    Ends (',' :: r) ∧ Ends (close :: r) := by
  constructor <;> rintro _ ⟨⟩
  · rfl
  · exact hclose

/-- The text of a value in front of another text shows where it ends. -/
theorem Plain.read (hv : Plain v) : ∀ w, Plain w → ∀ r r', Ends r → Ends r' → v.compact ++ r = w.compact ++ r' →
    v = w ∧ r = r' := by
  induction hv with
  | null =>
    intro w hw r r' _ _ h
    have hkind := Plain.null.same_kind hw h
    cases hw with
    | null => exact ⟨rfl, append_cancel_left h⟩
    | _ => cases hkind
  | bool b =>
    intro w hw r r' _ _ h
    have hkind := (Plain.bool b).same_kind hw h
    cases hw with
    | bool b' =>
      cases b <;> cases b'
      · exact ⟨rfl, append_cancel_left h⟩
      · exact absurd (List.cons.inj h).1 (by decide)
      · exact absurd (List.cons.inj h).1 (by decide)
      · exact ⟨rfl, append_cancel_left h⟩
    | _ => cases hkind
  | posInt n =>
    intro w hw r r' hr hr' h
    have hkind := (Plain.posInt n).same_kind hw h
    obtain ⟨_, _, htext, hdigit⟩ := digits_lead n.toNat
    cases hw with
    | posInt m =>
      obtain ⟨hn, hrest⟩ := digits_read hr hr' h
      rw [UInt64.toNat_inj.mp hn]
      exact ⟨rfl, hrest⟩
    | negInt hneg =>
      rw [compact, compact, numberText, numberText, htext, negative_text hneg] at h
      rw [(List.cons.inj h).1] at hdigit
      cases hdigit
    | _ => cases hkind
  | @negInt n hneg =>
    intro w hw r r' hr hr' h
    have hkind := (Plain.negInt hneg).same_kind hw h
    cases hw with
    | posInt m =>
      obtain ⟨_, _, htext, hdigit⟩ := digits_lead m.toNat
      rw [compact, compact, numberText, numberText, htext, negative_text hneg] at h
      rw [← (List.cons.inj h).1] at hdigit
      cases hdigit
    | @negInt m hneg' =>
      rw [compact, compact, numberText, numberText, negative_text hneg, negative_text hneg'] at h
      obtain ⟨_, hrest⟩ := digits_read hr hr' (List.cons.inj h).2
      have hint : n.toInt = m.toInt := by omega
      rw [Int64.toInt_inj.mp hint]
      exact ⟨rfl, hrest⟩
    | _ => cases hkind
  | string s =>
    intro w hw r r' _ _ h
    have hkind := (Plain.string s).same_kind hw h
    cases hw with
    | string t =>
      obtain ⟨rfl, hrest⟩ := quote_delimited _ _ _ _ h
      exact ⟨rfl, hrest⟩
    | _ => cases hkind
  | @array _ hitems ih =>
    intro w hw r r' _ _ h
    have hkind := (Plain.array hitems).same_kind hw h
    cases hw with
    | @array items' hitems' =>
      have hbegin (x : Json) (hx : Plain x) : ∃ c cs, x.compact = c :: cs ∧ c ≠ ']' := hx.begins_open rfl
      simp only [compact, compactItems_separated, append_assoc, singleton_append] at h
      obtain ⟨rfl, hrest⟩ := separated_read (by decide) (ends_closed rfl) hbegin hitems hitems' ih (List.cons.inj h).2
      exact ⟨rfl, hrest⟩
    | _ => cases hkind
  | @object fields hfields ih =>
    intro w hw r r' _ _ h
    have hkind := (Plain.object hfields).same_kind hw h
    cases hw with
    | @object fields' hfields' =>
      have hbegin (f : String × Json) (_ : Plain f.2) : ∃ c cs, compactField f = c :: cs ∧ c ≠ '\x7d' := by
        cases f
        exact ⟨'"', _, rfl, by decide⟩
      have hread : ∀ f ∈ fields, ∀ g : String × Json, Plain g.2 → ∀ q q', Ends q → Ends q' →
          compactField f ++ q = compactField g ++ q' → f = g ∧ q = q' := by
        rintro ⟨key, x⟩ hf ⟨key', y⟩ hg q q' hq hq' heq
        simp only [compactField, append_assoc] at heq
        obtain ⟨rfl, hvalue⟩ := quote_delimited _ _ _ _ heq
        obtain ⟨rfl, hrest⟩ := ih _ hf y hg q q' hq hq' (append_cancel_left hvalue)
        exact ⟨rfl, hrest⟩
      simp only [compact, compactFields_separated, append_assoc, singleton_append] at h
      obtain ⟨rfl, hrest⟩ := separated_read (by decide) (ends_closed rfl) hbegin hfields hfields' hread (List.cons.inj h).2
      exact ⟨rfl, hrest⟩
    | _ => cases hkind

theorem Plain.toText_inj (hv : Plain v) (hw : Plain w) (h : v.toText = w.toText) : v = w := by
  have htext : v.compact ++ [] = w.compact ++ [] := by
    rw [String.ofList_inj.mp h]
  exact (hv.read w hw [] [] (fun _ hc => by cases hc) (fun _ hc => by cases hc) htext).1

/-! ### Numbers and lists -/

theorem ofNat_inj {n m : Nat} (hn : n < 2 ^ 64) (hm : m < 2 ^ 64) (h : ofNat n = ofNat m) : n = m :=
  UInt64.ofNat_inj_of_lt hn hm (JsonNumber.posInt.inj (Json.number.inj h))

theorem u32_injective : Function.Injective u32 := fun n m h =>
  UInt32.toNat_inj.mp (ofNat_inj (n.toNat_lt.trans (by decide)) (m.toNat_lt.trans (by decide)) h)

theorem ofInt_plain {n : Int} (h : -2 ^ 63 ≤ n) : Plain (ofInt n) := by
  rw [ofInt]
  split
  · next hneg =>
    refine .negInt ?_
    rw [Int64.toInt_ofInt_of_le (by omega) (by omega)]
    exact hneg
  · exact .posInt _

theorem ofInt_inj {n m : Int} (hn : -2 ^ 63 ≤ n ∧ n < 2 ^ 63) (hm : -2 ^ 63 ≤ m ∧ m < 2 ^ 63)
    (h : ofInt n = ofInt m) : n = m := by
  simp only [ofInt] at h
  split at h <;> split at h
  · have hint := congrArg Int64.toInt (JsonNumber.negInt.inj (Json.number.inj h))
    rwa [Int64.toInt_ofInt_of_le (by omega) (by omega), Int64.toInt_ofInt_of_le (by omega) (by omega)] at hint
  · cases h
  · cases h
  · have hnat := ofNat_inj (by omega) (by omega) h
    omega

theorem plain_array {α : Type} {f : α → Json} {items : List α} (hf : ∀ x ∈ items, Plain (f x)) :
    Plain (.array (items.map f)) := by
  refine .array fun x hx => ?_
  obtain ⟨y, hy, rfl⟩ := mem_map.mp hx
  exact hf y hy

/-! ### Members that are left out -/

/-- Members with the same keys, each once, are told apart although those without a value are left out and the others
are put into another order. -/
theorem optionalFields_inj : ∀ {ms ms' : List (String × Option Json)}, (optionalFields ms).Perm (optionalFields ms') →
    ms.map Prod.fst = ms'.map Prod.fst → (ms.map Prod.fst).Nodup → ms = ms'
  | [], [], _, _, _ => rfl
  | (key, value) :: ms, (key', value') :: ms', h, hkeys, hnodup => by
    obtain ⟨rfl, hrest⟩ := List.cons.inj hkeys
    obtain ⟨hfresh, hrests⟩ := nodup_cons.mp hnodup
    have habsent {ns : List (String × Option Json)} (hns : key ∉ ns.map Prod.fst) (x : Json) :
        (key, x) ∉ optionalFields ns := by
      intro hmem
      obtain ⟨⟨_, v⟩, hm, hx⟩ := mem_flatMap.mp hmem
      cases v with
      | none => cases hx
      | some v =>
        obtain ⟨rfl, -⟩ := Prod.mk.inj (mem_singleton.mp hx)
        exact hns (mem_map_of_mem hm)
    have hfresh' : key ∉ ms'.map Prod.fst := hrest ▸ hfresh
    cases value with
    | none =>
      cases value' with
      | none =>
        have htail : (optionalFields ms).Perm (optionalFields ms') := h
        rw [optionalFields_inj htail hrest hrests]
      | some v => exact absurd (h.mem_iff.mpr mem_cons_self) (habsent hfresh v)
    | some v =>
      cases value' with
      | none => exact absurd (h.mem_iff.mp mem_cons_self) (habsent hfresh' v)
      | some v' =>
        rcases mem_cons.mp (h.mem_iff.mp mem_cons_self) with hsame | hmem
        · obtain ⟨-, rfl⟩ := Prod.mk.inj hsame
          rw [optionalFields_inj (List.Perm.cons_inv h) hrest hrests]
        · exact absurd hmem (habsent hfresh' v)

theorem optionalFields_forall {P : Json → Prop} {ms : List (String × Option Json)} (h : ∀ m ∈ ms, ∀ x ∈ m.2, P x) :
    ∀ f ∈ optionalFields ms, P f.2 := by
  intro f hf
  obtain ⟨⟨_, value⟩, hm, hf⟩ := mem_flatMap.mp hf
  cases value with
  | none => cases hf
  | some x =>
    obtain rfl := mem_singleton.mp hf
    exact h _ hm x rfl

theorem ofFields_perm {fs gs : List (String × Json)} (h : ofFields fs = ofFields gs) : fs.Perm gs :=
  ((perm_insertionSort _ fs).symm.trans (.of_eq (Json.object.inj h))).trans (perm_insertionSort _ gs)

theorem ofFields_plain {fs : List (String × Json)} (h : ∀ f ∈ fs, Plain f.2) : Plain (ofFields fs) :=
  .object fun f hf => h f ((mem_insertionSort _).mp hf)

end Json

end GeoMaster
