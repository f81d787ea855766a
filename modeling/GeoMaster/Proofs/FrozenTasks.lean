import GeoMaster.Domain.DataForSeo
import GeoMaster.Proofs.JsonText
import Mathlib.Data.Nat.Digits.Defs

/-!
# Frozen search tasks

A request of valid fields is frozen to bytes that stand for it and for no other request. The escapes of the keyword are
undone by the reader of frozen bytes, which replaces twice over the whole text, and by the provider, which decodes from
left to right; both give the keyword back, whatever it looks like. The longest body has room below the size limit.
-/

namespace GeoMaster

open Json

/-! ### Replacing in a text -/

namespace Text

/-- What is replaced piece by piece is replaced in the whole, when no occurrence reaches over the end of a piece. -/
theorem replace_flatMap {part new s text : String} {f g : Char → List Char}
    (h : ∀ c rest, replaceIn part.toList new.toList 0 (f c ++ rest) = g c ++ replaceIn part.toList new.toList 0 rest)
    (hs : s.toList = text.toList.flatMap f) : (replace part new s).toList = text.toList.flatMap g := by
  rw [replace, String.toList_ofList, hs]
  induction text.toList with
  | nil => rfl
  | cons c _ ih => rw [List.flatMap_cons, h, ih, List.flatMap_cons]

theorem replaceIn_ne {c d : Char} {part new : List Char} (hne : c ≠ d) (rest : List Char) :
    replaceIn (d :: part) new 0 (c :: rest) = c :: replaceIn (d :: part) new 0 rest := by
  simp [replaceIn, List.isPrefixOf, hne.symm]

end Text

open Text Json

/-- A character of the keyword when only the percent signs are escaped. -/
def percentEscape (c : Char) : List Char :=
  if c = '%' then ['%', '2', '5'] else [c]

/-- The escape of a character of the keyword. -/
def keywordEscape (c : Char) : List Char :=
  if c = '+' then ['%', '2', 'B'] else percentEscape c

namespace DataForSeoTaskRequest

variable {request other : DataForSeoTaskRequest}

theorem encodedKeyword_toList (request : DataForSeoTaskRequest) :
    request.encodedKeyword.toList = request.keyword.toList.flatMap keywordEscape := by
  refine replace_flatMap (f := percentEscape) (fun c rest => ?_) (replace_flatMap (f := fun c => [c]) (fun c rest => ?_) ?_)
  · by_cases hplus : c = '+'
    · subst hplus; rfl
    by_cases hpercent : c = '%'
    · subst hpercent; rfl
    · simp [keywordEscape, percentEscape, hplus, hpercent, replaceIn_ne hplus]
  · by_cases hpercent : c = '%'
    · subst hpercent; rfl
    · simp [percentEscape, hpercent, replaceIn_ne hpercent]
  · simp

theorem replace_encodedKeyword (request : DataForSeoTaskRequest) :
    replace "%25" "%" (replace "%2B" "+" request.encodedKeyword) = request.keyword := by
  refine String.toList_inj.mp ((replace_flatMap (f := percentEscape) (g := fun c => [c]) (fun c rest => ?_)
    (replace_flatMap (f := keywordEscape) (fun c rest => ?_) request.encodedKeyword_toList)).trans (by simp))
  · by_cases hpercent : c = '%'
    · subst hpercent; rfl
    · simp [percentEscape, hpercent, replaceIn_ne hpercent]
  · by_cases hplus : c = '+'
    · subst hplus; rfl
    by_cases hpercent : c = '%'
    · subst hpercent; rfl
    · simp [keywordEscape, percentEscape, hplus, hpercent, replaceIn_ne hpercent]

/-! ### The body -/

/-- The rules of the fields. -/
@[mk_iff]
structure Valid (request : DataForSeoTaskRequest) : Prop where
  spoken : isBlank request.keyword = false
  keywordSize : request.keyword.length ≤ 700
  keywordPlain : ∀ c ∈ request.keyword.toList, isControl c = false
  located : request.locationCode ≠ 0
  language : request.languageCode ≠ ""
  languageSize : len request.languageCode ≤ 16
  letters : ∀ c ∈ request.languageCode.toList, ('a' ≤ c ∧ c ≤ 'z') ∨ ('A' ≤ c ∧ c ≤ 'Z') ∨ c = '-'
  tagged : request.tag ≠ ""
  tagSize : len request.tag ≤ 255
  tagPlain : ∀ c ∈ request.tag.toList, isControl c = false

theorem body_eq_some_iff {body : Json} : request.body = some body ↔ request.Valid ∧ body = .array [request.task] := by
  simp only [DataForSeoTaskRequest.body, Option.ite_none_left_eq_some, not_or, Bool.not_eq_true, not_lt, List.any_eq_false,
    List.all_eq_true, not_not, Bool.or_eq_true, Bool.and_eq_true, decide_eq_true_eq, or_assoc]
  rw [valid_iff, Option.some.injEq, eq_comm (a := body)]

theorem task_eq (request : DataForSeoTaskRequest) :
    request.task = .object
      [("depth", .ofNat 10), ("device", .string "desktop"), ("keyword", .string request.encodedKeyword),
        ("language_code", .string request.languageCode), ("location_code", .u32 request.locationCode),
        ("max_crawl_pages", .ofNat 1), ("os", .string "windows"), ("priority", .ofNat 1),
        ("tag", .string request.tag)] := by
  simp +decide [task, ofFields, List.insertionSort, List.orderedInsert]

theorem ofTask_task (request : DataForSeoTaskRequest) : ofTask request.task = some request := by
  simp [ofTask, task_eq, index, Json.get, asStr, asU64, u32, ofNat, replace_encodedKeyword]
  exact request.locationCode.toNat_lt

/-! ### The size of the body -/

theorem length_bytes (s : String) : (bytes s).length = len s :=
  rfl

theorem length_le_len (s : String) : s.length ≤ len s := by
  have hchars (chars : List Char) : chars.length ≤ (String.ofList chars).utf8ByteSize := by
    induction chars with
    | nil => simp
    | cons c =>
      have hc := c.utf8Size_pos
      rw [String.ofList_cons, String.utf8ByteSize_append, String.utf8ByteSize_singleton, List.length_cons]
      omega
  have h := hchars s.toList
  rwa [String.ofList_toList, String.length_toList] at h

theorem length_flatMap_le {f : Char → List Char} {n : Nat} {chars : List Char} (h : ∀ c ∈ chars, (f c).length ≤ n) :
    (chars.flatMap f).length ≤ n * chars.length := by
  induction chars with
  | nil => simp
  | cons _ _ ih =>
    rw [List.forall_mem_cons] at h
    have hrest := ih h.2
    rw [List.flatMap_cons, List.length_append, List.length_cons, Nat.mul_succ]
    omega

theorem length_escapeChar {c : Char} (h : isControl c = false) : (escapeChar c).length ≤ 2 := by
  have hlarge : ¬ c.toNat < 32 := by
    simp only [isControl, Bool.or_eq_false_iff, decide_eq_false_iff_not] at h
    exact h.1
  unfold escapeChar
  split_ifs <;> simp

theorem length_quote {s : String} (h : ∀ c ∈ s.toList, isControl c = false) : (quote s).length ≤ 2 * s.length + 2 := by
  have hchars : (s.toList.flatMap escapeChar).length ≤ 2 * s.toList.length :=
    length_flatMap_le fun c hc => length_escapeChar (h c hc)
  simp only [quote, List.length_append, List.length_singleton, String.length_toList] at hchars ⊢
  omega

theorem length_quote_encodedKeyword (h : ∀ c ∈ request.keyword.toList, isControl c = false) :
    (quote request.encodedKeyword).length ≤ 3 * request.keyword.length + 2 := by
  have hchars : (request.keyword.toList.flatMap fun c => (keywordEscape c).flatMap escapeChar).length
      ≤ 3 * request.keyword.toList.length := length_flatMap_le fun c hc => by
    unfold keywordEscape percentEscape
    split_ifs
    · decide
    · decide
    · simpa using (length_escapeChar (h c hc)).trans (by decide)
  simp only [quote, encodedKeyword_toList, List.flatMap_assoc, List.length_append, List.length_singleton,
    String.length_toList] at hchars ⊢
  omega

theorem length_numberText (n : Nat) : ((ofNat n).compact).length ≤ 20 := by
  rw [ofNat, compact, numberText, String.length_toList]
  exact Nat.repr_length _ 20 (by decide) ((UInt64.toNat_lt _).trans (by decide))

theorem Valid.languagePlain (h : request.Valid) : ∀ c ∈ request.languageCode.toList, isControl c = false := by
  intro c hc
  simp only [isControl, Bool.or_eq_false_iff, Bool.and_eq_false_iff, decide_eq_false_iff_not]
  rcases h.letters c hc with ⟨hlow, hhigh⟩ | ⟨hlow, hhigh⟩ | rfl
  · have hlow : 97 ≤ c.toNat := hlow
    have hhigh : c.toNat ≤ 122 := hhigh
    omega
  · have hlow : 65 ≤ c.toNat := hlow
    have hhigh : c.toNat ≤ 90 := hhigh
    omega
  · decide

/-- The longest body has room. -/
theorem Valid.bytes_le (h : request.Valid) : (bytes (array [request.task]).toText).length ≤ maxTaskBytes := by
  have hkeyword := length_quote_encodedKeyword h.keywordPlain
  have htag := length_quote h.tagPlain
  have hnumber := length_numberText request.locationCode.toNat
  have hlanguage := length_quote h.languagePlain
  have hnames : (["depth", "device", "desktop", "keyword", "language_code", "location_code", "max_crawl_pages", "os",
      "windows", "priority", "tag"].map fun name => (quote name).length).sum = 108 := by
    decide
  have hsize : (array [request.task]).compact.length ≤ 4096 := by
    have hletters := (length_le_len request.languageCode).trans h.languageSize
    have hmark := (length_le_len request.tag).trans h.tagSize
    have hwords := h.keywordSize
    simp only [task_eq, u32, compact, compactItems, compactFields, compactField, List.length_append] 
    -- the lengths are numbers from here on
    obtain ⟨number, hnumber⟩ : ∃ number : Nat → Nat, ∀ n, (ofNat n).compact.length = number n := ⟨_, fun _ => rfl⟩
    obtain ⟨size, hquote⟩ : ∃ size : String → Nat, ∀ s, (quote s).length = size s := ⟨_, fun _ => rfl⟩
    have hnumbers (n : Nat) : number n ≤ 20 := hnumber n ▸ length_numberText n
    have hone := hnumbers 1
    have hten := hnumbers 10
    have hcode := hnumbers request.locationCode.toNat
    simp [hnumber, hquote] at hnames hlanguage hkeyword htag ⊢
    omega
  have hbytes := Text.len_le (array [request.task]).toText
  rw [toText, String.toList_ofList, ← toText] at hbytes
  rw [length_bytes]
  exact hbytes.trans (Nat.mul_le_mul_left 4 hsize)

end DataForSeoTaskRequest

/-! ### Frozen bytes -/

/-- A byte that is a hexadecimal digit, as a number. -/
def hexByte (byte : UInt8) : Option Nat :=
  if 48 ≤ byte.toNat ∧ byte.toNat ≤ 57 then some (byte.toNat - 48)
  else if 65 ≤ byte.toNat ∧ byte.toNat ≤ 70 then some (byte.toNat - 55)
  else if 97 ≤ byte.toNat ∧ byte.toNat ≤ 102 then some (byte.toNat - 87)
  else none

/-- What the provider decodes: percent escapes are bytes, and a plus sign is a space. -/
def urlDecode : List UInt8 → List UInt8
  | [] => []
  | 0x25 :: high :: low :: rest =>
    match hexByte high, hexByte low with
    | some high, some low => UInt8.ofNat (16 * high + low) :: urlDecode rest
    | _, _ => 0x25 :: urlDecode (high :: low :: rest)
  | 0x2B :: rest => 0x20 :: urlDecode rest
  | byte :: rest => byte :: urlDecode rest

theorem urlDecode_append {plain : List UInt8} (h : ∀ byte ∈ plain, byte ≠ 0x25 ∧ byte ≠ 0x2B) (rest : List UInt8) :
    urlDecode (plain ++ rest) = plain ++ urlDecode rest := by
  induction plain with
  | nil => rfl
  | cons byte plain ih =>
    obtain ⟨⟨hpercent, hplus⟩, hrest⟩ := List.forall_mem_cons.mp h
    rw [List.cons_append, urlDecode.eq_def]
    split <;> simp_all

/-- The bytes of an escape stand for no other character. -/
theorem utf8EncodeChar_plain {c : Char} (hpercent : c ≠ '%') (hplus : c ≠ '+') :
    ∀ byte ∈ String.utf8EncodeChar c, byte ≠ 0x25 ∧ byte ≠ 0x2B := by
  intro byte hbyte
  have hpercent : c.val.toNat ≠ 37 := fun h => hpercent (Char.toNat_inj.mp h)
  have hplus : c.val.toNat ≠ 43 := fun h => hplus (Char.toNat_inj.mp h)
  suffices h : byte.toNat ≠ 37 ∧ byte.toNat ≠ 43 from ⟨fun heq => h.1 (heq ▸ rfl), fun heq => h.2 (heq ▸ rfl)⟩
  rw [String.utf8EncodeChar] at hbyte
  generalize c.val.toNat = n at hpercent hplus hbyte
  have hother (n : Nat) (h : 128 ≤ n % 256) : (UInt8.ofNat n).toNat ≠ 37 ∧ (UInt8.ofNat n).toNat ≠ 43 := by
    rw [UInt8.toNat_ofNat']
    omega
  split_ifs at hbyte <;> simp only [List.mem_cons, List.not_mem_nil, or_false] at hbyte
  · subst hbyte
    rw [UInt8.toNat_ofNat']
    omega
  · rcases hbyte with rfl | rfl <;> exact hother _ (by omega)
  · rcases hbyte with rfl | rfl | rfl <;> exact hother _ (by omega)
  · rcases hbyte with rfl | rfl | rfl | rfl <;> exact hother _ (by omega)

theorem bytes_eq (s : String) : bytes s = s.toList.flatMap String.utf8EncodeChar := by
  have h (chars : List Char) : bytes (String.ofList chars) = chars.flatMap String.utf8EncodeChar := by
    simp [bytes, String.toUTF8, List.utf8Encode]
  simpa using h s.toList

theorem urlDecode_encodedKeyword (request : DataForSeoTaskRequest) :
    urlDecode (bytes request.encodedKeyword) = bytes request.keyword := by
  rw [bytes_eq, bytes_eq, request.encodedKeyword_toList, List.flatMap_assoc]
  induction request.keyword.toList with
  | nil => rfl
  | cons c _ ih =>
    rw [List.flatMap_cons, List.flatMap_cons, ← ih]
    by_cases hplus : c = '+'
    · subst hplus; rfl
    by_cases hpercent : c = '%'
    · subst hpercent; rfl
    · simp [keywordEscape, percentEscape, hplus, hpercent, urlDecode_append (utf8EncodeChar_plain hpercent hplus)]

open DataForSeoTaskRequest

section

variable [Sha256] [JsonText]

theorem fromBytes_eq_some_iff {body : List UInt8} {task : DataForSeoPreparedTask} :
    DataForSeoPreparedTask.fromBytes body = some task ↔ body.length ≤ maxTaskBytes
      ∧ ∃ request : DataForSeoTaskRequest, request.Valid ∧ fromSlice body = some (.array [request.task])
        ∧ task = { body, requestSha256 := sha256Hex body, tag := request.tag } := by
  constructor
  · intro h
    simp [DataForSeoPreparedTask.fromBytes, Option.bind_eq_some_iff] at h
    obtain ⟨hbody, value, hread, items, hitems, h⟩ := h
    split at h
    · next frozen =>
      obtain ⟨request, -, h⟩ := Option.bind_eq_some_iff.mp h
      obtain ⟨hfrozen, h⟩ := Option.ite_none_right_eq_some.mp h
      obtain ⟨hvalid, rfl⟩ := body_eq_some_iff.mp hfrozen
      exact ⟨hbody, request, hvalid, hread, by simpa [hfrozen, eq_comm] using h⟩
    · cases h
  · rintro ⟨hbody, request, hvalid, hread, rfl⟩
    have hfrozen := body_eq_some_iff.mpr ⟨hvalid, rfl⟩
    simp [DataForSeoPreparedTask.fromBytes, hread, asArray, ofTask_task, hbody, hfrozen]

/-- The query the provider runs for a frozen body. -/
def frozenQuery (body : List UInt8) : Option (List UInt8) := do
  let value ← fromSlice body
  let [task] ← value.asArray | none
  let keyword ← (task.index "keyword").asStr
  pure (urlDecode (bytes keyword))

variable {request : DataForSeoTaskRequest} {task : DataForSeoPreparedTask}

attribute [local irreducible] toText

omit [Sha256] in
theorem fromSlice_bytes (text : String) : fromSlice (bytes text) = JsonText.parse text := by
  have hvalid : (⟨(bytes text).toArray⟩ : ByteArray).IsValidUTF8 := text.isValidUTF8
  rw [fromSlice, String.fromUTF8?, dif_pos hvalid]
  rfl

/-- What a request is frozen to. -/
def DataForSeoTaskRequest.frozen (request : DataForSeoTaskRequest) : DataForSeoPreparedTask :=
  let body := bytes (array [request.task]).toText
  { body, requestSha256 := sha256Hex body, tag := request.tag }

theorem DataForSeoTaskRequest.Valid.fromBytes (h : request.Valid)
    (hread : ∀ body, request.body = some body → JsonText.parse body.toText = some body) :
    DataForSeoPreparedTask.fromBytes request.frozen.body = some request.frozen := by
  have hparse := hread _ (body_eq_some_iff.mpr ⟨h, rfl⟩)
  exact fromBytes_eq_some_iff.mpr ⟨h.bytes_le, request, h, (fromSlice_bytes _).trans hparse, rfl⟩

theorem prepare_eq_some_iff (hread : ∀ body, request.body = some body → JsonText.parse body.toText = some body) :
    request.prepare = some task ↔ request.Valid ∧ task = request.frozen := by
  rw [prepare, Option.bind_eq_bind, Option.bind_eq_some_iff]
  constructor
  · rintro ⟨body, hbody, hbytes⟩
    obtain ⟨hvalid, rfl⟩ := body_eq_some_iff.mp hbody
    exact ⟨hvalid, Option.some.inj (hbytes.symm.trans (hvalid.fromBytes hread))⟩
  · rintro ⟨hvalid, rfl⟩
    exact ⟨_, body_eq_some_iff.mpr ⟨hvalid, rfl⟩, hvalid.fromBytes hread⟩

theorem frozenQuery_frozen (h : request.Valid)
    (hread : ∀ body, request.body = some body → JsonText.parse body.toText = some body) :
    frozenQuery request.frozen.body = some (bytes request.keyword) := by
  have hparse := (fromSlice_bytes _).trans (hread _ (body_eq_some_iff.mpr ⟨h, rfl⟩))
  rw [frozenQuery, frozen, hparse]
  simp [asArray, task_eq, index, Json.get, asStr, urlDecode_encodedKeyword]

end

namespace Sample

/-- A query that looks like its own escape. -/
def taxRequest : DataForSeoTaskRequest where
  keyword := "100%25 + tax"
  locationCode := 2840
  languageCode := "en"
  tag := "attempt-1"

def plainTaxRequest : DataForSeoTaskRequest :=
  { taxRequest with keyword := "100% + tax" }

@[reducible] def taxText : JsonText :=
  ⟨fun text => [array [taxRequest.task], .array [plainTaxRequest.task]].find? (·.toText = text)⟩

attribute [local instance] secureHash taxText

end Sample

end GeoMaster
