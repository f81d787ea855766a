import GeoMaster.Proofs.ReportIdentity

/-!
# Texts of JSON objects

A quoted string shows where it ends, because a quote inside it is escaped. So the text of an object whose values are
strings determines its fields.
-/

namespace GeoMaster

namespace Json

/-- Read one character of a quoted string. -/
def unescape : List Char → Option (Char × List Char)
  | '\\' :: 'u' :: '0' :: '0' :: a :: b :: rest => some (Char.ofNat (16 * hexValue a + hexValue b), rest)
  | '\\' :: 'n' :: rest => some ('\n', rest)
  | '\\' :: 'r' :: rest => some ('\r', rest)
  | '\\' :: 't' :: rest => some ('\t', rest)
  | '\\' :: 'b' :: rest => some (Char.ofNat 8, rest)
  | '\\' :: 'f' :: rest => some (Char.ofNat 12, rest)
  | '\\' :: c :: rest => some (c, rest)
  | c :: rest => some (c, rest)
  | [] => none

theorem hexValue_hexDigit : ∀ n < 16, hexValue (hexDigit n) = n := by
  decide

theorem unescape_escapeChar (c : Char) (rest : List Char) : unescape (escapeChar c ++ rest) = some (c, rest) := by
  unfold escapeChar
  split_ifs with hquote hslash hnewline hreturn htab hback hfeed hcontrol
  · subst hquote; rfl
  · subst hslash; rfl
  · subst hnewline; rfl
  · subst hreturn; rfl
  · subst htab; rfl
  · rw [← Char.ofNat_toNat c, hback]; rfl
  · rw [← Char.ofNat_toNat c, hfeed]; rfl
  · have hhigh := hexValue_hexDigit (c.toNat / 16) (by omega)
    have hlow := hexValue_hexDigit (c.toNat % 16) (by omega)
    have hchar : Char.ofNat (16 * (c.toNat / 16) + c.toNat % 16) = c := by
      rw [Nat.div_add_mod]
      exact Char.ofNat_toNat c
    show some (Char.ofNat (16 * hexValue _ + hexValue _), rest) = _
    rw [hhigh, hlow, hchar]
  · show unescape (c :: rest) = _
    rw [unescape.eq_def]
    split <;> simp_all

theorem escapeChar_delimited : Delimited escapeChar := by
  intro c d r r' h
  have hread := unescape_escapeChar c r
  rw [h, unescape_escapeChar] at hread
  obtain ⟨hchar, hrest⟩ := Prod.mk.inj (Option.some.inj hread)
  exact ⟨hchar.symm, hrest.symm⟩

theorem escapeChar_begins (c : Char) : ∃ x xs, escapeChar c = x :: xs ∧ x ≠ '"' := by
  unfold escapeChar
  split_ifs with hquote
  case neg => exact ⟨c, [], rfl, hquote⟩
  all_goals exact ⟨'\\', _, rfl, by decide⟩

theorem quote_delimited : Delimited quote := by
  have hbody : Delimited fun l : List Char => l.flatMap escapeChar ++ ['"'] :=
    Delimited.flatMap_closed escapeChar_delimited '"' escapeChar_begins
  intro s t r r' h
  have happend : ['"'] ++ (s.toList.flatMap escapeChar ++ ['"'] ++ r)
      = ['"'] ++ (t.toList.flatMap escapeChar ++ ['"'] ++ r') := by
    simpa [quote] using h
  obtain ⟨hlist, hrest⟩ := hbody _ _ _ _ (List.append_cancel_left happend)
  exact ⟨String.toList_inj.mp hlist, hrest⟩

/-! ### Objects of strings -/

/-- An object whose values are strings. -/
def ofStrings (fields : List (String × String)) : Json :=
  .object (fields.map fun f => (f.1, .string f.2))

/-- The text of a field. -/
def stringField (f : String × String) : List Char :=
  quote f.1 ++ ([':'] ++ quote f.2)

theorem stringField_delimited : Delimited stringField :=
  quote_delimited.pair (quote_delimited.before [':'])

theorem compact_ofStrings (fields : List (String × String)) :
    (ofStrings fields).compact = ['\x7b'] ++ (Delimited.separated ',' stringField fields ++ ['\x7d']) := by
  have hfield (f : String × String) : compactField (f.1, .string f.2) = stringField f := by
    simp [compactField, compact, stringField]
  have hrest (rest : List (String × String)) :
      compactFields false (rest.map fun f => (f.1, .string f.2)) = Delimited.following ',' stringField rest := by
    induction rest with
    | nil => rfl
    | cons _ _ ih =>
      rw [List.map_cons, compactFields, hfield, ih]
      simp [Delimited.following]
  rw [ofStrings, compact]
  cases fields with
  | nil => rfl
  | cons f rest =>
    rw [List.map_cons, compactFields, hfield, hrest]
    simp [Delimited.separated]

theorem ofStrings_toText_injective : Function.Injective fun fields => (ofStrings fields).toText := by
  intro fields fields' h
  have hcompact : (ofStrings fields).compact = (ofStrings fields').compact := String.ofList_injective h
  rw [compact_ofStrings, compact_ofStrings] at hcompact
  have hclosed := Delimited.separated_closed stringField_delimited ',' '\x7d' (by decide) fun f =>
    ⟨'"', _, rfl, by decide⟩
  exact (hclosed.before ['\x7b']).injective hcompact

end Json

end GeoMaster
