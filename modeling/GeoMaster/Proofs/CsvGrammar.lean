import GeoMaster.Domain.KnowledgeCsv

/-!
# The grammar of CSV

A text is a sequence of records separated by line ends, a record a sequence of fields separated by commas, and a field
is either bare or quoted. The guard accepts the texts of this grammar whose records have at most 256 fields and whose
fields are within the limit of a cell. The count of a cell starts with the separator before it, so only the first
field of a text may use the whole limit.
-/

namespace GeoMaster

open Except List Nat

namespace KnowledgeCsv

/-! ### The grammar -/

/-- A byte that ends a field that is not quoted. -/
def IsSeparator (byte : UInt8) : Prop :=
  byte = comma ∨ byte = carriageReturn ∨ byte = lineFeed

/-- A byte of a field without quotes. -/
def IsBare (byte : UInt8) : Prop :=
  byte ≠ quote ∧ ¬ IsSeparator byte

/-- What stands between the quotes of a field: an inner quote is doubled. -/
inductive Doubled : List UInt8 → Prop where
  | nil : Doubled []
  | plain {byte : UInt8} {rest : List UInt8} : byte ≠ quote → Doubled rest → Doubled (byte :: rest)
  | quote {rest : List UInt8} : Doubled rest → Doubled (quote :: quote :: rest)

inductive Field : List UInt8 → Prop where
  | bare {field : List UInt8} : (∀ byte ∈ field, IsBare byte) → Field field
  | quoted {body : List UInt8} : Doubled body → Field (quote :: (body ++ [quote]))

/-- The fields of a record, in their encoded form. -/
inductive Record : List (List UInt8) → List UInt8 → Prop where
  | one {field : List UInt8} : Field field → Record [field] field
  | more {field text : List UInt8} {fields : List (List UInt8)} :
      Field field → Record fields text → Record (field :: fields) (field ++ comma :: text)

inductive LineEnd : List UInt8 → Prop where
  | cr : LineEnd [carriageReturn]
  | lf : LineEnd [lineFeed]
  | crlf : LineEnd [carriageReturn, lineFeed]

/-- The records of a text. -/
inductive Table : List (List (List UInt8)) → List UInt8 → Prop where
  | one {fields : List (List UInt8)} {text : List UInt8} : Record fields text → Table [fields] text
  | more {fields : List (List UInt8)} {records : List (List (List UInt8))} {text lineEnd rest : List UInt8} :
      Record fields text → LineEnd lineEnd → Table records rest → Table (fields :: records) (text ++ lineEnd ++ rest)

/-- A text of the grammar within the limits: 256 fields in a record, 262144 bytes in a field. -/
def Accepts (text : List UInt8) : Prop :=
  ∃ records, Table records text
    ∧ ∀ record ∈ records, record.length ≤ maxColumns ∧ ∀ field ∈ record, field.length ≤ maxCellBytes

/-! ### One field -/

/-- What completes a field from a state on. -/
def Completes : State → List UInt8 → Prop
  | .start, text => Field text
  | .bare, text => ∀ byte ∈ text, IsBare byte
  | .quoted, text => ∃ body, Doubled body ∧ text = body ++ [quote]
  | .closed, text => text = [] ∨ ∃ body, Doubled body ∧ text = quote :: (body ++ [quote])

variable {state state' : State} {columns columns' cellBytes cellBytes' : Nat} {byte : UInt8} {text rest : List UInt8}

theorem step_bare (hbyte : IsBare byte) (hstate : state = .start ∨ state = .bare) :
    step state columns cellBytes byte = .ok (.bare, columns, cellBytes) := by
  obtain ⟨hquote, hseparator⟩ := hbyte
  have hcomma : byte ≠ comma := fun h => hseparator (.inl h)
  have hend : ¬ (byte = carriageReturn ∨ byte = lineFeed) := fun h => hseparator (.inr h)
  rcases hstate with rfl | rfl <;> simp [step, hquote, hcomma, hend]

theorem Completes.cons (h : Completes state (byte :: text)) :
    ∃ state', (∀ columns cellBytes, step state columns cellBytes byte = .ok (state', columns, cellBytes))
      ∧ Completes state' text := by
  cases state with
  | start =>
    generalize htext : byte :: text = field at h
    cases h with
    | bare hbare =>
      subst htext
      obtain ⟨hbyte, hrest⟩ := forall_mem_cons.mp hbare
      exact ⟨.bare, fun _ _ => step_bare hbyte (.inl rfl), hrest⟩
    | quoted hbody =>
      obtain ⟨rfl, rfl⟩ := List.cons.inj htext
      exact ⟨.quoted, fun _ _ => rfl, _, hbody, rfl⟩
  | bare =>
    obtain ⟨hbyte, hrest⟩ := forall_mem_cons.mp h
    exact ⟨.bare, fun _ _ => step_bare hbyte (.inr rfl), hrest⟩
  | quoted =>
    obtain ⟨_, hbody, htext⟩ := h
    cases hbody with
    | nil =>
      obtain ⟨rfl, rfl⟩ := List.cons.inj htext
      exact ⟨.closed, fun _ _ => rfl, .inl rfl⟩
    | plain hbyte hrest =>
      obtain ⟨rfl, rfl⟩ := List.cons.inj htext
      exact ⟨.quoted, fun _ _ => by simp [step, hbyte], _, hrest, rfl⟩
    | quote hrest =>
      obtain ⟨rfl, rfl⟩ := List.cons.inj htext
      exact ⟨.closed, fun _ _ => rfl, .inr ⟨_, hrest, rfl⟩⟩
  | closed =>
    obtain htext | ⟨body, hbody, htext⟩ := h
    · cases htext
    · obtain ⟨rfl, rfl⟩ := List.cons.inj htext
      exact ⟨.quoted, fun _ _ => rfl, body, hbody, rfl⟩

theorem not_completes_quoted_nil : ¬ Completes .quoted [] := by
  rintro ⟨_, -, htext⟩
  simp at htext

/-- A separator ends the field, unless it stands within quotes. -/
theorem step_separator (hbyte : IsSeparator byte) (hstate : state ≠ .quoted) {next : State × Nat × Nat} :
    step state columns cellBytes byte = .ok next
      ↔ (byte = comma → columns + 1 ≤ maxColumns) ∧ next = (.start, if byte = comma then columns + 1 else 1, 0) := by
  have hstep : step state columns cellBytes byte
      = if byte = comma then do
          failIf (columns + 1 > maxColumns) (.invalidRequest "CSV exceeds 256 columns")
          pure (.start, columns + 1, 0)
        else pure (.start, 1, 0) := by
    rcases hbyte with rfl | rfl | rfl <;> cases state <;> first | rfl | exact absurd rfl hstate
  rw [hstep]
  split
  · next hcomma =>
    simp only [eq_ok_iff, exists_and_left, exists_const, hcomma, forall_const, gt_iff_lt, not_lt]
    exact and_congr_right fun _ => eq_comm
  · next hcomma =>
    simp only [pure_eq_ok, hcomma, false_implies, true_and]
    exact eq_comm

/-- A byte within a field keeps the counts, and what completes the field after it completes it with the byte. -/
theorem step_within (h : step state columns cellBytes byte = .ok (state', columns', cellBytes')) :
    (IsSeparator byte ∧ state ≠ .quoted)
      ∨ columns' = columns ∧ cellBytes' = cellBytes ∧ ∀ text, Completes state' text → Completes state (byte :: text) := by
  by_cases hseparator : IsSeparator byte ∧ state ≠ .quoted
  · exact .inl hseparator
  · refine .inr ?_
    cases state with
    | quoted =>
      obtain ⟨rfl, rfl, rfl⟩ : (if byte = quote then State.closed else .quoted) = state' ∧ columns = columns'
          ∧ cellBytes = cellBytes' := by simpa [step] using h
      refine ⟨rfl, rfl, fun text hcompletes => ?_⟩
      split at hcompletes
      · next hquote =>
        rcases hcompletes with rfl | ⟨body, hbody, rfl⟩
        · exact ⟨[], .nil, by rw [hquote]; rfl⟩
        · exact ⟨_, .quote hbody, by rw [hquote]; rfl⟩
      · next hquote =>
        obtain ⟨_, hbody, rfl⟩ := hcompletes
        exact ⟨_, .plain hquote hbody, rfl⟩
    | start =>
      have hbare : ¬ IsSeparator byte := fun hbyte => hseparator ⟨hbyte, by simp⟩
      by_cases hquote : byte = quote
      · subst hquote
        obtain ⟨rfl, rfl, rfl⟩ : State.quoted = state' ∧ columns = columns' ∧ cellBytes = cellBytes' := by
          simpa [step] using h
        refine ⟨rfl, rfl, ?_⟩
        rintro _ ⟨body, hbody, rfl⟩
        exact .quoted hbody
      · rw [step_bare ⟨hquote, hbare⟩ (.inl rfl)] at h
        obtain ⟨rfl, rfl, rfl⟩ : State.bare = state' ∧ columns = columns' ∧ cellBytes = cellBytes' := by simpa using h
        exact ⟨rfl, rfl, fun text hcompletes => .bare (forall_mem_cons.mpr ⟨⟨hquote, hbare⟩, hcompletes⟩)⟩
    | bare =>
      have hbare : ¬ IsSeparator byte := fun hbyte => hseparator ⟨hbyte, by simp⟩
      by_cases hquote : byte = quote
      · simp [step, hquote, throw, throwThe, MonadExceptOf.throw] at h
      · rw [step_bare ⟨hquote, hbare⟩ (.inr rfl)] at h
        obtain ⟨rfl, rfl, rfl⟩ : State.bare = state' ∧ columns = columns' ∧ cellBytes = cellBytes' := by simpa using h
        exact ⟨rfl, rfl, fun text hcompletes => forall_mem_cons.mpr ⟨⟨hquote, hbare⟩, hcompletes⟩⟩
    | closed =>
      have hbare : ¬ IsSeparator byte := fun hbyte => hseparator ⟨hbyte, by simp⟩
      by_cases hquote : byte = quote
      · subst hquote
        obtain ⟨rfl, rfl, rfl⟩ : State.quoted = state' ∧ columns = columns' ∧ cellBytes = cellBytes' := by
          simpa [step] using h
        refine ⟨rfl, rfl, ?_⟩
        rintro _ ⟨body, hbody, rfl⟩
        exact .inr ⟨body, hbody, rfl⟩
      · have hcomma : byte ≠ comma := fun h => hbare (.inl h)
        have hend : ¬ (byte = carriageReturn ∨ byte = lineFeed) := fun h => hbare (.inr h)
        simp [step, hquote, hcomma, hend, throw, throwThe, MonadExceptOf.throw] at h

/-- What a field may be followed by: a separator and a text that is accepted after it. -/
def After (columns : Nat) : List UInt8 → Prop
  | [] => True
  | byte :: rest =>
    (byte = comma → columns + 1 ≤ maxColumns)
      ∧ validateFrom .start (if byte = comma then columns + 1 else 1) 1 rest = .ok ()

theorem validateFrom_cons :
    validateFrom state columns cellBytes (byte :: rest) = .ok ()
      ↔ ∃ state' columns' cellBytes', step state columns cellBytes byte = .ok (state', columns', cellBytes')
        ∧ cellBytes' + 1 ≤ maxCellBytes ∧ validateFrom state' columns' (cellBytes' + 1) rest = .ok () := by
  simp only [validateFrom, eq_ok_iff, Prod.exists, exists_and_left, exists_const, gt_iff_lt, not_lt]

/-- A field is accepted when it is within the limit, and what follows it is. -/
theorem validateFrom_field {field tail : List UInt8} (h : Completes state field)
    (htail : ∀ byte ∈ tail.head?, IsSeparator byte) (hbytes : cellBytes ≤ maxCellBytes) :
    validateFrom state columns cellBytes (field ++ tail) = .ok ()
      ↔ cellBytes + field.length ≤ maxCellBytes ∧ After columns tail := by
  induction field generalizing state cellBytes with
  | nil =>
    have hstate : state ≠ .quoted := fun heq => not_completes_quoted_nil (heq ▸ h)
    cases tail with
    | nil => simp [validateFrom, hstate, After, hbytes]
    | cons byte rest =>
      simp only [nil_append, validateFrom_cons, step_separator (htail byte rfl) hstate, Prod.mk.injEq, After,
        List.length_nil, Nat.add_zero, hbytes, true_and]
      constructor
      · rintro ⟨_, _, _, ⟨hcolumns, rfl, rfl, rfl⟩, -, hrest⟩
        exact ⟨hcolumns, hrest⟩
      · rintro ⟨hcolumns, hrest⟩
        exact ⟨_, _, _, ⟨hcolumns, rfl, rfl, rfl⟩, by decide, hrest⟩
  | cons _ _ ih =>
    obtain ⟨_, hstep, hrest⟩ := h.cons
    rw [cons_append, validateFrom_cons, length_cons]
    simp only [hstep, ok.injEq, Prod.mk.injEq]
    constructor
    · rintro ⟨_, _, _, ⟨rfl, rfl, rfl⟩, hlimit, hvalid⟩
      have hafter := (ih hrest hlimit).mp hvalid
      exact ⟨by omega, hafter.2⟩
    · rintro ⟨_, hafter⟩
      exact ⟨_, _, _, ⟨rfl, rfl, rfl⟩, by omega, (ih hrest (by omega)).mpr ⟨by omega, hafter⟩⟩

theorem field_of_validateFrom (h : validateFrom state columns cellBytes text = .ok ()) :
    ∃ field tail, text = field ++ tail ∧ Completes state field ∧ (∀ byte ∈ tail.head?, IsSeparator byte)
      ∧ ∀ byte rest, tail = byte :: rest → ∃ columns, validateFrom .start columns 1 rest = .ok () := by
  induction text generalizing state columns cellBytes with
  | nil =>
    refine ⟨[], [], rfl, ?_, by simp, by simp⟩
    cases state with
    | start => exact .bare (by simp)
    | bare => exact forall_mem_nil _
    | quoted => simp [validateFrom] at h
    | closed => exact .inl rfl
  | cons byte rest ih =>
    obtain ⟨state', columns', cellBytes', hstep, -, hrest⟩ := validateFrom_cons.mp h
    rcases step_within hstep with ⟨hseparator, hstate⟩ | ⟨-, -, hcompletes⟩
    · obtain ⟨-, hnext⟩ := (step_separator hseparator hstate).mp hstep
      obtain ⟨rfl, rfl, rfl⟩ : state' = .start ∧ columns' = (if byte = comma then columns + 1 else 1) ∧ cellBytes' = 0 := by
        simpa using hnext
      refine ⟨[], byte :: rest, rfl, ?_, by simpa using hseparator, ?_⟩
      · cases state with
        | start => exact .bare (by simp)
        | bare => exact forall_mem_nil _
        | quoted => exact absurd rfl hstate
        | closed => exact .inl rfl
      · rintro _ _ heq
        obtain ⟨-, rfl⟩ := List.cons.inj heq
        exact ⟨_, hrest⟩
    · obtain ⟨field, tail, rfl, hfield, htail⟩ := ih hrest
      exact ⟨byte :: field, tail, rfl, hcompletes field hfield, htail⟩

/-! ### Records and tables -/

variable {fields : List (List UInt8)} {records : List (List (List UInt8))}

theorem Record.ne_nil (h : Record fields text) : fields ≠ [] := by
  cases h <;> exact cons_ne_nil _ _

/-- A record is accepted when its fields are within their limits and are not too many, and what follows it is. -/
theorem validateFrom_record {tail : List UInt8} (h : Record fields text)
    (htail : ∀ byte ∈ tail.head?, byte = carriageReturn ∨ byte = lineFeed) (hbytes : cellBytes ≤ 1)
    (hcolumns : columns ≤ maxColumns) :
    validateFrom .start columns cellBytes (text ++ tail) = .ok ()
      ↔ columns + fields.length ≤ maxColumns + 1 ∧ (∀ field ∈ fields.head?, cellBytes + field.length ≤ maxCellBytes)
        ∧ (∀ field ∈ fields.tail, 1 + field.length ≤ maxCellBytes)
        ∧ ∀ byte rest, tail = byte :: rest → validateFrom .start 1 1 rest = .ok () := by
  have hlimit : cellBytes ≤ maxCellBytes := hbytes.trans (by decide)
  induction h generalizing columns cellBytes with
  | one hfield =>
    have hcompletes : Completes .start _ := hfield
    rw [validateFrom_field hcompletes (fun byte hbyte => .inr (htail byte hbyte)) hlimit]
    cases tail with
    | nil => simp [After]; omega
    | cons byte rest =>
      have hcomma : byte ≠ comma := by rcases htail byte rfl with rfl | rfl <;> decide
      simp [After, hcomma]
      omega
  | @more field _ fields hfield hrecord ih =>
    have hcompletes : Completes .start field := hfield
    rw [append_assoc, cons_append, validateFrom_field hcompletes (by simp [IsSeparator]) hlimit]
    obtain ⟨_, _, rfl⟩ := exists_cons_of_ne_nil hrecord.ne_nil
    simp only [After, if_pos, forall_const, length_cons, List.head?_cons, tail_cons, Option.mem_some_iff,
      forall_eq', forall_mem_cons] at ih ⊢
    constructor
    · rintro ⟨hfirst, hcolumns', hrest⟩
      have hrest := (ih le_rfl hcolumns' (by decide)).mp hrest
      exact ⟨by omega, hfirst, ⟨hrest.2.1, hrest.2.2.1⟩, hrest.2.2.2⟩
    · rintro ⟨_, hfirst, ⟨hnext, hothers⟩, hrest⟩
      exact ⟨hfirst, by omega, (ih le_rfl (by omega) (by decide)).mpr ⟨by omega, hnext, hothers, hrest⟩⟩

/-- What the guard demands of the records of a text: only the first field may have as many bytes as a cell may. -/
def Within (cellBytes : Nat) (records : List (List (List UInt8))) : Prop :=
  (∀ record ∈ records, record.length ≤ maxColumns)
    ∧ (∀ field ∈ records.flatten.head?, cellBytes + field.length ≤ maxCellBytes)
    ∧ ∀ field ∈ records.flatten.tail, 1 + field.length ≤ maxCellBytes

theorem within_one :
    Within 1 records ↔ (∀ record ∈ records, record.length ≤ maxColumns)
      ∧ ∀ field ∈ records.flatten, 1 + field.length ≤ maxCellBytes := by
  rw [Within]
  cases records.flatten <;> simp

theorem validateFrom_table (h : Table records text) (hbytes : cellBytes ≤ 1) :
    validateFrom .start 1 cellBytes text = .ok () ↔ Within cellBytes records := by
  induction h generalizing cellBytes with
  | @one _ _ hrecord =>
    have hiff := validateFrom_record hrecord (show ∀ byte ∈ [].head?, _ by simp) hbytes (show 1 ≤ maxColumns by decide)
    rw [List.append_nil] at hiff
    rw [hiff]
    simp [Within, Nat.add_comm 1]
  | @more fields records _ lineEnd rest hrecord hend _ ih =>
    obtain ⟨_, _, rfl⟩ := exists_cons_of_ne_nil hrecord.ne_nil
    -- what the line end leads to is accepted when the rest is
    have hnext (byte : UInt8) (tail : List UInt8) (heq : lineEnd ++ rest = byte :: tail) :
        validateFrom .start 1 1 tail = .ok () ↔ Within 1 records := by
      cases hend with
      | cr =>
        obtain ⟨-, rfl⟩ := List.cons.inj heq
        exact ih le_rfl
      | lf =>
        obtain ⟨-, rfl⟩ := List.cons.inj heq
        exact ih le_rfl
      | crlf =>
        obtain ⟨-, rfl⟩ := List.cons.inj heq
        have hempty : Completes .start [] := .bare (by simp)
        have hsep : ∀ byte ∈ (lineFeed :: rest).head?, IsSeparator byte := by simp [IsSeparator]
        have hline := @validateFrom_field _ 1 _ _ _ hempty hsep (show 1 ≤ maxCellBytes by decide)
        rw [nil_append] at hline
        have hrest : validateFrom .start 1 1 (lineFeed :: rest) = .ok () ↔ Within 1 records := by
          rw [hline, ← ih le_rfl]
          simp [After, show lineFeed ≠ comma by decide, show 1 ≤ maxCellBytes by decide]
        exact hrest
    obtain ⟨byte, tail, heq⟩ : ∃ byte tail, lineEnd ++ rest = byte :: tail := by cases hend <;> exact ⟨_, _, rfl⟩
    have hhead : ∀ byte ∈ (lineEnd ++ rest).head?, byte = carriageReturn ∨ byte = lineFeed := by cases hend <;> simp
    rw [append_assoc, validateFrom_record hrecord hhead hbytes (by decide)]
    have hafter : (∀ byte tail, lineEnd ++ rest = byte :: tail → validateFrom .start 1 1 tail = .ok ())
        ↔ Within 1 records :=
      ⟨fun h => (hnext byte tail heq).mp (h byte tail heq), fun h byte tail heq => (hnext byte tail heq).mpr h⟩
    rw [hafter, within_one]
    simp only [Within, flatten_cons, cons_append, List.head?_cons, tail_cons, Option.mem_some_iff,
      forall_eq', forall_mem_cons, forall_mem_append, length_cons]
    constructor
    · rintro ⟨hlength, hfirst, hothers, hrecords, hrest⟩
      exact ⟨⟨by omega, hrecords⟩, hfirst, hothers, hrest⟩
    · rintro ⟨⟨_, hrecords⟩, hfirst, hothers, hrest⟩
      exact ⟨by omega, hfirst, hothers, hrecords, hrest⟩

theorem Table.cons_field {field : List UInt8} {record : List (List UInt8)} (hfield : Field field)
    (h : Table (record :: records) text) : Table ((field :: record) :: records) (field ++ comma :: text) := by
  cases h with
  | one hrecord => exact .one (.more hfield hrecord)
  | more hrecord hend htable =>
    have hmore := Table.more (Record.more hfield hrecord) hend htable
    simpa only [append_assoc, cons_append] using hmore

theorem table_of_validateFrom (h : validateFrom .start columns cellBytes text = .ok ()) :
    ∃ record records, Table (record :: records) text := by
  induction hlength : text.length using Nat.strong_induction_on generalizing text columns cellBytes with
  | _ n ih =>
    obtain ⟨field, tail, rfl, hfield, htail, hrest⟩ := field_of_validateFrom h
    cases tail with
    | nil => exact ⟨[field], [], by simpa using Table.one (.one hfield)⟩
    | cons byte rest =>
      obtain ⟨_, hvalid⟩ := hrest byte rest rfl
      have hlt : rest.length < n := by
        rw [length_append, length_cons] at hlength
        omega
      obtain ⟨record, records, htable⟩ := ih rest.length hlt hvalid rfl
      rcases htail byte rfl with rfl | rfl | rfl
      · exact ⟨_, _, htable.cons_field hfield⟩
      · exact ⟨[field], record :: records, by simpa using Table.more (.one hfield) .cr htable⟩
      · exact ⟨[field], record :: records, by simpa using Table.more (.one hfield) .lf htable⟩

/-! ### The guard -/

/-- The guard decides the grammar and its limits exactly for the texts in which no field after the first one is as long
as a cell may be. -/
theorem validateCsv_iff (text : List UInt8) :
    (validateCsv text = .ok () ↔ Accepts text)
      ↔ ¬ ∃ records, Table records text
          ∧ (∀ record ∈ records, record.length ≤ maxColumns ∧ ∀ field ∈ record, field.length ≤ maxCellBytes)
          ∧ ∃ field ∈ records.flatten.tail, field.length = maxCellBytes := by
  constructor
  · rintro hiff ⟨records, htable, hlimits, field, hfield, hlong⟩
    obtain ⟨-, -, hothers⟩ := (validateFrom_table htable (zero_le 1)).mp (hiff.mpr ⟨records, htable, hlimits⟩)
    have := hothers field hfield
    omega
  · intro hnone
    constructor
    · intro hvalid
      obtain ⟨record, records, htable⟩ := table_of_validateFrom hvalid
      obtain ⟨hlengths, hfirst, hothers⟩ := (validateFrom_table htable (zero_le 1)).mp hvalid
      refine ⟨_, htable, fun r hr => ⟨hlengths r hr, fun field hfield => ?_⟩⟩
      have hmem : field ∈ (record :: records).flatten := mem_flatten.mpr ⟨r, hr, hfield⟩
      cases hflat : (record :: records).flatten with
      | nil => simp [hflat] at hmem
      | cons first rest =>
        rw [hflat] at hmem hfirst hothers
        rcases mem_cons.mp hmem with rfl | hmem
        · have := hfirst field rfl
          omega
        · have := hothers field hmem
          omega
    · rintro ⟨records, htable, hlimits⟩
      refine (validateFrom_table htable (zero_le 1)).mpr ⟨fun r hr => (hlimits r hr).1, fun field hfield => ?_,
        fun field hfield => ?_⟩
      · obtain ⟨r, hr, hmem⟩ := mem_flatten.mp (mem_of_mem_head? hfield)
        have := (hlimits r hr).2 field hmem
        omega
      · obtain ⟨r, hr, hmem⟩ := mem_flatten.mp (mem_of_mem_tail hfield)
        have := (hlimits r hr).2 field hmem
        have hshort : field.length ≠ maxCellBytes := fun hlong => hnone ⟨records, htable, hlimits, field, hfield, hlong⟩
        omega

/-- The second field of `a,bb…b` has as many bytes as a cell may have, and is refused. -/
theorem validateCsv_refuses : let text := 97 :: comma :: List.replicate maxCellBytes 98
    Accepts text ∧ validateCsv text ≠ .ok () := by
  have hfield : Field (List.replicate maxCellBytes 98) := .bare fun byte hbyte => by
    rw [(mem_replicate.mp hbyte).2]
    exact ⟨by decide, by unfold IsSeparator; decide⟩
  have hfirst : Field [97] := .bare fun byte hbyte => by
    rw [mem_singleton.mp hbyte]
    exact ⟨by decide, by unfold IsSeparator; decide⟩
  have htable : Table [[[97], List.replicate maxCellBytes 98]] (97 :: comma :: List.replicate maxCellBytes 98) :=
    .one (.more hfirst (.one hfield))
  refine ⟨⟨_, htable, ?_⟩, fun hvalid => ?_⟩
  · rintro record hrecord
    rw [mem_singleton.mp hrecord]
    refine ⟨by decide, fun field hmem => ?_⟩
    rcases mem_cons.mp hmem with rfl | hmem
    · decide
    · rw [mem_singleton.mp hmem, length_replicate]
  · obtain ⟨-, -, hothers⟩ := (validateFrom_table htable (zero_le 1)).mp hvalid
    have := hothers _ (mem_singleton_self _)
    rw [length_replicate] at this
    omega

end KnowledgeCsv

end GeoMaster
