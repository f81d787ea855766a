import GeoMaster.Domain.ProjectPages
import GeoMaster.Lib.Paging
import GeoMaster.Lib.Sorting
import GeoMaster.Proofs.Identifiers
import GeoMaster.Proofs.ProjectCycles
import Mathlib.Data.Prod.Lex

/-!
# Reading all pages of projects

A cursor is read back as it was written, and the pages of a list always come to an end. They are the list
itself exactly when the cursors, which keep milliseconds only, split it where the pages split it.
-/

namespace GeoMaster

open Op Except AssocMap List Option Nat MemoryProjectRepository Paging Text

/-! ### Reading a cursor back -/

theorem decimal_repr (n : Nat) : decimal n.repr.toList = some n := by
  have hdigits : n.repr.toList = Nat.toDigits 10 n := toList_repr
  have hall : (Nat.toDigits 10 n).all isAsciiDigit = true := by
    rw [List.all_eq_true]
    intro c hc
    have hdigit := isDigit_of_mem_toDigits (by decide) (by decide) hc
    have hrange : '0'.val ≤ c.val ∧ c.val ≤ '9'.val := by simpa [Char.isDigit] using hdigit
    simpa [isAsciiDigit, Char.le_def] using hrange
  have hvalue : (Nat.toDigits 10 n).foldl (fun n c => 10 * n + (c.toNat - 48)) 0 = n := ofDigitChars_ten_toDigits
  rw [hdigits, decimal, if_pos ⟨toDigits_ne_nil, hall⟩, hvalue]

theorem repr_digits (n : Nat) : ∀ c ∈ n.repr.toList, isAsciiDigit c = true := by
  have hdecimal := decimal_repr n
  rw [decimal] at hdecimal
  split at hdecimal
  · next h => exact all_eq_true.mp h.2
  · exact absurd hdecimal (by simp)

theorem parseI64_toString {n : Int} (hlow : -(2 ^ 63) ≤ n) (hhigh : n < 2 ^ 63) : parseI64 (toString n) = some n := by
  have hrange : decide (-(2 ^ 63) ≤ n ∧ n < 2 ^ 63) = true := decide_eq_true ⟨hlow, hhigh⟩
  cases n with
  | ofNat n =>
    have htext : (toString (Int.ofNat n)).toList = n.repr.toList := rfl
    rw [parseI64, htext]
    split
    · next digits heq => exact absurd (repr_digits n '-' (heq ▸ mem_cons_self)) (by decide)
    · next digits heq => exact absurd (repr_digits n '+' (heq ▸ mem_cons_self)) (by decide)
    · rw [decimal_repr]
      exact filter_some_pos hrange
  | negSucc n =>
    have htext : (toString (Int.negSucc n)).toList = '-' :: (n + 1).repr.toList := by
      show ("-" ++ (n + 1).repr).toList = _
      simp
    rw [parseI64, htext]
    simp only [decimal_repr]
    exact filter_some_pos hrange

namespace Uuid

theorem hexValue_hexDigit : ∀ a < 16, hexValue (hexDigit a) = a := by
  decide

theorem isAsciiHexdigit_hexDigit : ∀ a < 16, isAsciiHexdigit (hexDigit a) = true := by
  decide

/-- The first digits of an identifier are its value without the other ones. -/
theorem foldl_hexDigits (n : Nat) {m : Nat} (hm : m ≤ 32) (hn : n < 16 ^ 32) :
    ((List.range m).map fun i => hexDigit (n / 16 ^ (31 - i) % 16)).foldl
      (fun n c => 16 * n + hexValue c) 0 = n / 16 ^ (32 - m) := by
  induction m with
  | zero => exact (div_eq_of_lt hn).symm
  | succ m ih =>
    have hpow : (16 : Nat) ^ (32 - m) = 16 ^ (31 - m) * 16 := by
      rw [← pow_succ]
      congr 1
      omega
    have hindex : 32 - (m + 1) = 31 - m := by omega
    rw [List.range_succ, List.map_append, List.foldl_append, ih (by omega), hindex, hpow, ← Nat.div_div_eq_div_mul]
    simp only [map_cons, map_nil, foldl_cons, foldl_nil]
    rw [hexValue_hexDigit _ (mod_lt _ (by decide))]
    exact div_add_mod _ 16

theorem ofHexDigits_hexDigits (u : Uuid) : ofHexDigits u.hexDigits = some u := by
  have hall : u.hexDigits.all isAsciiHexdigit = true := by
    rw [List.all_eq_true]
    intro c hc
    obtain ⟨_, -, rfl⟩ := mem_map.mp hc
    exact isAsciiHexdigit_hexDigit _ (mod_lt _ (by decide))
  have hbound : u.bits.toNat < 16 ^ 32 := lt_of_lt_of_eq u.bits.isLt (by decide)
  have hvalue : u.hexDigits.foldl (fun n c => 16 * n + hexValue c) 0 = u.bits.toNat := by
    rw [hexDigits, foldl_hexDigits _ le_rfl hbound, Nat.sub_self, Nat.pow_zero, Nat.div_one]
  rw [ofHexDigits, if_pos ⟨by simp [hexDigits], hall⟩, hvalue, BitVec.ofNat_toNat, BitVec.setWidth_eq]

/-- Five groups with hyphens between them are read as their digits. -/
theorem ofHyphenated_groups {a b c d e : List Char} (ha : a.length = 8) (hb : b.length = 4)
    (hc : c.length = 4) (hd : d.length = 4) (he : e.length = 12) :
    ofHyphenated (a ++ '-' :: (b ++ '-' :: (c ++ '-' :: (d ++ '-' :: e)))) = ofHexDigits (a ++ b ++ c ++ d ++ e) := by
  rw [ofHyphenated, if_pos]
  · simp [drop_append, ha, hb, hc, hd, drop_eq_nil_of_le]
  · simp [ha, hb, hc, hd, he, List.getElem?_append]

/-- An identifier is read back from its text. -/
theorem fromStr_toString (u : Uuid) : fromStr u.toString = some u := by
  have hlength : u.hexDigits.length = 32 := by simp [hexDigits]
  have hstep (n : Nat) : (u.hexDigits.drop n).take 4 ++ u.hexDigits.drop (n + 4) = u.hexDigits.drop n := by
    rw [← drop_drop]
    exact take_append_drop 4 _
  have hgroups : u.hexDigits.take 8 ++ (u.hexDigits.drop 8).take 4 ++ (u.hexDigits.drop 12).take 4
      ++ (u.hexDigits.drop 16).take 4 ++ u.hexDigits.drop 20 = u.hexDigits := by
    simp only [append_assoc]
    rw [hstep 16, hstep 12, hstep 8, take_append_drop]
  have htext : u.toString.toList = u.hexDigits.take 8 ++ '-' :: ((u.hexDigits.drop 8).take 4
      ++ '-' :: ((u.hexDigits.drop 12).take 4 ++ '-' :: ((u.hexDigits.drop 16).take 4
      ++ '-' :: u.hexDigits.drop 20))) := by
    simp [toString]
  have hparts : ofHyphenated u.toString.toList = ofHexDigits u.hexDigits := by
    rw [htext, ofHyphenated_groups (by simp [hlength]) (by simp [hlength]) (by simp [hlength])
      (by simp [hlength]) (by simp [hlength]), hgroups]
  have h36 : u.toString.toList.length = 36 := u.length_toString
  rw [fromStr, h36]
  show ofHyphenated u.toString.toList = some u
  rw [hparts, ofHexDigits_hexDigits]

end Uuid

theorem splitOnce_cursor {front : String} (back : String) (h : ':' ∉ front.toList) :
    splitOnce (front ++ ":" ++ back) ':' = some (front, back) := by
  have hchars : (front ++ ":" ++ back).toList = front.toList ++ ':' :: back.toList := by simp
  have hall : ∀ c ∈ front.toList, decide (c ≠ ':') = true := fun c hc => decide_eq_true fun heq => h (heq ▸ hc)
  rw [splitOnce, hchars, dropWhile_append_of_pos hall, takeWhile_append_of_pos hall]
  simp

theorem formatCursor_eq (project : Project) :
    formatCursor project = toString project.createdAt.timestampMillis ++ ":" ++ project.id.asUuid.toString :=
  rfl

theorem colon_not_mem_int (n : Int) : ':' ∉ (toString n).toList := by
  have hdigits : ∀ m : Nat, ':' ∉ m.repr.toList := fun m hmem => absurd (repr_digits m _ hmem) (by decide)
  cases n with
  | ofNat n => exact hdigits n
  | negSucc n =>
    have htext : (toString (Int.negSucc n)).toList = '-' :: (n + 1).repr.toList := by
      show ("-" ++ (n + 1).repr).toList = _
      simp
    rw [htext, mem_cons, not_or]
    exact ⟨by decide, hdigits _⟩

/-- An instant whose milliseconds are an `i64`, as those of every `DateTime<Utc>` are. -/
def DateTime.IsInstant (t : DateTime) : Prop :=
  -(2 ^ 63) ≤ t.timestampMillis ∧ t.timestampMillis < 2 ^ 63

instance (t : DateTime) : Decidable t.IsInstant :=
  inferInstanceAs (Decidable (_ ∧ _))

theorem parseCursor_formatCursor {project : Project} (h : project.createdAt.IsInstant) :
    parseCursor (formatCursor project) = .ok (project.createdAt.timestampMillis, project.id.asUuid) := by
  have hsplit := splitOnce_cursor project.id.asUuid.toString (colon_not_mem_int project.createdAt.timestampMillis)
  simp only [parseCursor, formatCursor_eq, eq_ok_iff]
  exact ⟨_, hsplit, _, parseI64_toString h.1 h.2, _, Uuid.fromStr_toString _, rfl⟩

theorem formatCursor_ne_empty (project : Project) : formatCursor project ≠ "" := by
  intro hempty
  have hmem : ':' ∈ (formatCursor project).toList := by
    rw [formatCursor_eq]
    simp
  rw [hempty] at hmem
  cases hmem

/-! ### The order of a listing and the order of its cursors -/

namespace Project

variable {left right project : Project}

/-- What a cursor keeps of a project, in the order in which cursors are compared. -/
def cursorKey (project : Project) : ℤ ×ₗ ℕ :=
  toLex (project.createdAt.timestampMillis, project.id.asUuid.bits.toNat)

theorem behind_iff :
    project.behind (left.createdAt.timestampMillis, left.id.asUuid) = true ↔ left.cursorKey < project.cursorKey := by
  rw [cursorKey, cursorKey, Prod.Lex.toLex_lt_toLex, behind, decide_eq_true_eq]
  rfl

instance : Std.Total ListedBefore where
  total left right := by
    rcases lt_trichotomy left.createdAt right.createdAt with hlt | heq | hlt
    · exact .inl (.inl hlt)
    · rcases BitVec.le_total left.id.asUuid.bits right.id.asUuid.bits with hle | hle
      · exact .inl (.inr ⟨heq, hle⟩)
      · exact .inr (.inr ⟨heq.symm, hle⟩)
    · exact .inr (.inl hlt)

instance : IsTrans Project ListedBefore where
  trans first second third := by
    rintro (hlt | ⟨heq, hle⟩) (hlt' | ⟨heq', hle'⟩)
    · exact .inl (hlt.trans hlt')
    · exact .inl (heq' ▸ hlt)
    · exact .inl (heq ▸ hlt')
    · exact .inr ⟨heq.trans heq', BitVec.le_trans hle hle'⟩

/-- Milliseconds are rounded down, so they never go back along a listing. -/
theorem timestampMillis_le (h : left.ListedBefore right) :
    left.createdAt.timestampMillis ≤ right.createdAt.timestampMillis := by
  have hle : left.createdAt ≤ right.createdAt := by
    rcases h with hlt | ⟨heq, -⟩
    · exact hlt.le
    · exact heq.le
  unfold DateTime.timestampMillis
  rw [Int.fdiv_eq_ediv_of_nonneg _ (by decide), Int.fdiv_eq_ediv_of_nonneg _ (by decide)]
  exact Int.ediv_le_ediv (by decide) hle

end Project

namespace MemoryProjectRepository

variable {s : MemoryProjectRepository} {scope : TenantScope}

/-- Every project is stored under its identifier. -/
def Keyed (s : MemoryProjectRepository) : Prop :=
  ∀ id project, s.state.projects.lookup id = some project → project.id = id

/-- The projects a scope sees. -/
def Visible (scope : TenantScope) (s : MemoryProjectRepository) (project : Project) : Prop :=
  project ∈ values s.state.projects ∧ scope.seesProject project project.id = true

theorem mem_list {project : Project} : project ∈ s.list scope ↔ s.Visible scope project := by
  rw [list, (perm_insertionSort _ _).mem_iff, mem_filter]
  rfl

theorem pairwise_list : (s.list scope).Pairwise Project.ListedBefore :=
  pairwise_insertionSort _ _

theorem nodup_list (hkeyed : s.Keyed) : (s.list scope).Nodup := by
  have hkeys : ((values s.state.projects).map Project.id).Nodup := by
    rw [map_values_of_keyed hkeyed]
    exact AList.keys_nodup _
  rw [list, (perm_insertionSort _ _).nodup_iff]
  exact hkeys.of_map.filter _

/-- Stored projects with one identifier are one project. -/
theorem eq_of_id {left right : Project} (hkeyed : s.Keyed) (hleft : s.Visible scope left)
    (hright : s.Visible scope right) (hid : left.id = right.id) : left = right := by
  obtain ⟨id, hid_left⟩ := mem_values.mp hleft.1
  obtain ⟨id', hid_right⟩ := mem_values.mp hright.1
  have hsame : id = id' := by
    rw [← hkeyed id left hid_left, hid, hkeyed id' right hid_right]
  rw [← hsame, hid_left] at hid_right
  exact some.inj hid_right

/-- Every visible project once, in the order of a listing. -/
structure ReadsAll (scope : TenantScope) (s : MemoryProjectRepository) (items : List Project) : Prop where
  once : items.Nodup
  inOrder : items.Pairwise Project.ListedBefore
  mem_iff : ∀ project, project ∈ items ↔ s.Visible scope project

theorem readsAll_iff (hkeyed : s.Keyed) {items : List Project} : s.ReadsAll scope items ↔ items = s.list scope := by
  constructor
  · intro h
    have hperm : items.Perm (s.list scope) :=
      (perm_ext_iff_of_nodup h.once (nodup_list hkeyed)).mpr fun project => by
        rw [h.mem_iff, mem_list]
    refine hperm.eq_of_pairwise ?_ h.inOrder pairwise_list
    intro left right hleft hright hbefore hbehind
    -- two projects in both orders have one identifier
    have hid : left.id.asUuid.bits = right.id.asUuid.bits := by
      rcases hbefore with hlt | ⟨heq, hle⟩
      · rcases hbehind with hlt' | ⟨heq', -⟩
        · exact absurd (hlt.trans hlt') (lt_irrefl _)
        · exact absurd hlt (heq' ▸ lt_irrefl _)
      · rcases hbehind with hlt' | ⟨-, hle'⟩
        · exact absurd hlt' (heq ▸ lt_irrefl _)
        · exact BitVec.le_antisymm hle hle'
    refine eq_of_id hkeyed ((h.mem_iff left).mp hleft) (mem_list.mp hright) ?_
    show (⟨⟨left.id.asUuid.bits⟩⟩ : ProjectId) = ⟨⟨right.id.asUuid.bits⟩⟩
    rw [hid]
  · rintro rfl
    exact ⟨nodup_list hkeyed, pairwise_list, fun project => mem_list⟩

/-! ### One page -/

variable {limit : Nat} {cursor : Option String}

/-- The page behind a project: the first projects behind its cursor, and the cursor of the last of them
if more are left over. -/
def pageBehind (scope : TenantScope) (limit : Nat) (s : MemoryProjectRepository) (last : Option Project) :
    ProjectPage where
  items := Paging.page Project.cursorKey (last.map Project.cursorKey) limit (s.list scope)
  nextCursor :=
    if limit < (beyond Project.cursorKey (last.map Project.cursorKey) (s.list scope)).length then
      (Paging.page Project.cursorKey (last.map Project.cursorKey) limit (s.list scope)).getLast?.map formatCursor
    else none

theorem returns_listPage (hlow : 1 ≤ limit) (hhigh : limit ≤ 100) {last : Option Project}
    (hinstant : ∀ project ∈ last, project.createdAt.IsInstant) :
    (listPage scope limit (last.map formatCursor)).Returns s (pageBehind scope limit s last) s := by
  have hsorted : (s.list scope).insertionSort Project.ListedBefore = s.list scope := pairwise_list.insertionSort_eq
  have hnonempty : last.map formatCursor ≠ some "" := by
    intro h
    obtain ⟨project, -, hproject⟩ := map_eq_some_iff.mp h
    exact formatCursor_ne_empty project hproject
  -- the cursor is read back as it was written
  have hparsed : (last.map formatCursor).mapM parseCursor
      = .ok (last.map fun project => (project.createdAt.timestampMillis, project.id.asUuid)) := by
    cases last with
    | none => rfl
    | some project =>
      simp only [map_some, mapM_some]
      rw [parseCursor_formatCursor (hinstant project rfl)]
      rfl
  have hbehind : (s.list scope).filter (fun project =>
        (last.map fun project => (project.createdAt.timestampMillis, project.id.asUuid)).all
          fun cursor => project.behind cursor)
      = beyond Project.cursorKey (last.map Project.cursorKey) (s.list scope) := by
    refine filter_congr fun project _ => ?_
    cases last with
    | none => simp
    | some last =>
      rw [Bool.eq_iff_iff]
      simp [Project.behind_iff]
  unfold listPage
  simp only [returns_iff, hparsed]
  refine ⟨(), s, ⟨not_not.mpr ⟨hlow, hhigh⟩, rfl⟩, (), s, ⟨hnonempty, rfl⟩, _, s, ⟨rfl, rfl⟩,
    s.list scope, s, ⟨rfl, rfl⟩, ?_, rfl⟩
  rw [hsorted, hbehind]
  rfl

/-! ### All pages -/

/-- Page after page, each asked for with the cursor of the one before. -/
inductive ReadPages (scope : TenantScope) (limit : Nat) (s : MemoryProjectRepository) :
    Option String → List Project → Prop where
  | last {cursor : Option String} {page : ProjectPage}
      (hpage : (listPage scope limit cursor).Returns s page s) (hend : page.nextCursor = none) :
      ReadPages scope limit s cursor page.items
  | more {cursor : Option String} {page : ProjectPage} {next : String} {rest : List Project}
      (hpage : (listPage scope limit cursor).Returns s page s) (hnext : page.nextCursor = some next)
      (hrest : ReadPages scope limit s (some next) rest) :
      ReadPages scope limit s cursor (page.items ++ rest)

/-- The instants of the listed projects are ones a `DateTime<Utc>` can hold. -/
def Instants (scope : TenantScope) (s : MemoryProjectRepository) : Prop :=
  ∀ project, s.Visible scope project → project.createdAt.IsInstant

theorem readPages_of_walk (hlow : 1 ≤ limit) (hhigh : limit ≤ 100) (hinstants : s.Instants scope)
    {after : Option (ℤ ×ₗ ℕ)} {items : List Project}
    (h : Paging.Walk Project.cursorKey limit (s.list scope) after items) {last : Option Project}
    (hlast : ∀ project ∈ last, s.Visible scope project) (hafter : last.map Project.cursorKey = after) :
    ReadPages scope limit s (last.map formatCursor) items := by
  induction h generalizing last with
  | last after hshort =>
    subst hafter
    have hpage : (listPage scope limit (last.map formatCursor)).Returns s (pageBehind scope limit s last) s :=
      returns_listPage hlow hhigh fun project hproject => hinstants project (hlast project hproject)
    have hitems : Paging.page Project.cursorKey (last.map Project.cursorKey) limit (s.list scope)
        = beyond Project.cursorKey (last.map Project.cursorKey) (s.list scope) :=
      take_of_length_le hshort
    rw [← hitems]
    exact .last hpage (if_neg (not_lt.mpr hshort))
  | more _ project _ hmore hfinal _ ih =>
    subst hafter
    have hpage : (listPage scope limit (last.map formatCursor)).Returns s (pageBehind scope limit s last) s :=
      returns_listPage hlow hhigh fun project hproject => hinstants project (hlast project hproject)
    have hmem : project ∈ s.list scope := (mem_beyond.mp (mem_of_mem_take (mem_of_getLast? hfinal))).1
    have hvisible : ∀ other ∈ some project, s.Visible scope other :=
      fun other hother => some.inj hother ▸ mem_list.mp hmem
    have hnext := ih hvisible rfl
    refine .more hpage ?_ hnext
    show (if _ then _ else _) = _
    rw [if_pos hmore, Paging.page, hfinal]
    rfl

theorem ReadPages.unique {items items' : List Project} (h : ReadPages scope limit s cursor items)
    (h' : ReadPages scope limit s cursor items') : items = items' := by
  have hsame {page page' : ProjectPage} {cursor : Option String}
      (hpage : (listPage scope limit cursor).Returns s page s)
      (hpage' : (listPage scope limit cursor).Returns s page' s) : page = page' :=
    ok.inj (congrArg Prod.fst (hpage.symm.trans hpage'))
  induction h generalizing items' with
  | last hpage hend =>
    cases h' with
    | last hpage' _ => rw [hsame hpage hpage']
    | more hpage' hnext =>
      rw [hsame hpage hpage', hnext] at hend
      cases hend
  | more hpage hnext _ ih =>
    cases h' with
    | last hpage' hend =>
      rw [hsame hpage hpage', hend] at hnext
      cases hnext
    | more hpage' hnext' hrest' =>
      obtain rfl := hsame hpage hpage'
      obtain rfl := some.inj (hnext.symm.trans hnext')
      rw [ih hrest']

/-- Two parts of a listing, told apart by the identifier of the last project of the first part among
the projects that were created in the same millisecond as it. -/
def CutApart (front back : List Project) : Prop :=
  ∀ last, front.getLast? = some last →
    (∀ project ∈ front, project.createdAt.timestampMillis = last.createdAt.timestampMillis →
      project.id.asUuid ≤ last.id.asUuid)
    ∧ ∀ project ∈ back, project.createdAt.timestampMillis = last.createdAt.timestampMillis →
      last.id.asUuid < project.id.asUuid

instance (front back : List Project) : Decidable (CutApart front back) :=
  inferInstanceAs (Decidable (∀ last ∈ front.getLast?, _ ∧ _))

theorem cutApart_iff (n : Nat) :
    CutApart ((s.list scope).take n) ((s.list scope).drop n) ↔ Paging.CleanCut Project.cursorKey (s.list scope) n := by
  have hsorted := @pairwise_list s scope
  rw [← take_append_drop n (s.list scope), pairwise_append] at hsorted
  obtain ⟨hfront, -, hacross⟩ := hsorted
  -- along the listing the milliseconds already agree with the cut
  have hbefore : ∀ last, ((s.list scope).take n).getLast? = some last → ∀ project ∈ (s.list scope).take n,
      project.createdAt.timestampMillis ≤ last.createdAt.timestampMillis := by
    intro last hlast project hproject
    obtain ⟨_, hsplit⟩ := List.getLast?_eq_some_iff.mp hlast
    rw [hsplit, pairwise_append] at hfront
    rw [hsplit] at hproject
    rcases mem_append.mp hproject with hproject | hproject
    · exact Project.timestampMillis_le (hfront.2.2 project hproject last mem_cons_self)
    · rw [mem_singleton.mp hproject]
  have hbehind : ∀ last, ((s.list scope).take n).getLast? = some last → ∀ project ∈ (s.list scope).drop n,
      last.createdAt.timestampMillis ≤ project.createdAt.timestampMillis :=
    fun last hlast project hproject =>
      Project.timestampMillis_le (hacross last (mem_of_getLast? hlast) project hproject)
  refine forall_congr' fun last => forall_congr' fun hlast => and_congr ?_ ?_
  · refine forall_congr' fun project => forall_congr' fun hproject => ?_
    have hmillis := hbefore last hlast project hproject
    rw [Project.cursorKey, Project.cursorKey, Prod.Lex.toLex_le_toLex]
    constructor
    · intro h
      rcases hmillis.lt_or_eq with hlt | heq
      · exact .inl hlt
      · exact .inr ⟨heq, h heq⟩
    · rintro (hlt | ⟨-, hle⟩) heq
      · exact absurd hlt (heq ▸ lt_irrefl _)
      · exact hle
  · refine forall_congr' fun project => forall_congr' fun hproject => ?_
    have hmillis := hbehind last hlast project hproject
    rw [Project.cursorKey, Project.cursorKey, Prod.Lex.toLex_lt_toLex]
    constructor
    · intro h
      rcases hmillis.lt_or_eq with hlt | heq
      · exact .inl hlt
      · exact .inr ⟨heq, h heq.symm⟩
    · rintro (hlt | ⟨-, hlt⟩) heq
      · exact absurd hlt (heq ▸ lt_irrefl _)
      · exact hlt

/-- The cursors are read back, and reading page after page ends. It reads every visible project once and in
order exactly when each page boundary is seen in the identifiers of the projects of its millisecond. -/
theorem readPages_complete_iff (hkeyed : s.Keyed) (hinstants : s.Instants scope) (hlow : 1 ≤ limit)
    (hhigh : limit ≤ 100) :
    (∀ project, s.Visible scope project → parseCursor (formatCursor project)
      = .ok (project.createdAt.timestampMillis, project.id.asUuid))
    ∧ ∃ items, ReadPages scope limit s none items ∧ (∀ items', ReadPages scope limit s none items' → items' = items)
      ∧ (s.ReadsAll scope items
        ↔ ∀ n, (n + 1) * limit < (s.list scope).length →
          CutApart ((s.list scope).take ((n + 1) * limit)) ((s.list scope).drop ((n + 1) * limit))) := by
  obtain ⟨items, hwalk⟩ := @exists_walk _ _ _ Project.cursorKey _ hlow (s.list scope) none
  have hread : ReadPages scope limit s none items :=
    @readPages_of_walk _ _ _ hlow hhigh hinstants _ _ hwalk none (by simp) rfl
  refine ⟨fun project hproject => parseCursor_formatCursor (hinstants project hproject), items, hread,
    fun items' hread' => hread'.unique hread, ?_⟩
  rw [readsAll_iff hkeyed, walk_eq_iff hlow (nodup_list hkeyed) hwalk]
  exact forall_congr' fun n => imp_congr_right fun _ => (cutApart_iff _).symm

/-! ### Sample readings -/

namespace Sample

open GeoMaster.Sample

theorem keyed_of_entries (h : ∀ entry ∈ s.state.projects.entries, entry.2.id = entry.1) : s.Keyed :=
  fun id project hfound => h ⟨id, project⟩ (AList.mem_lookup_iff.mp hfound)

theorem instants_of_values (h : ∀ project ∈ values s.state.projects, project.createdAt.IsInstant) : s.Instants scope :=
  fun project hvisible => h project hvisible.1

section

attribute [local instance] secureHash threeClocks shanghai

/-- A project made at some instant. -/
def made (id : Nat) (slug : String) (now : DateTime) : ProjectCall :=
  .create tenant { slug := some slug, displayName := "Project", settings := startable } ⟨uuid id⟩ now

/-- Two projects made within a microsecond, the second one with the smaller identifier. -/
def together : MemoryProjectRepository :=
  Calls.after ProjectCall.run default [made 11 "first" 0, made 10 "second" 1000]

/-- Two projects made a second apart. -/
def apart : MemoryProjectRepository :=
  Calls.after ProjectCall.run default [made 11 "first" 0, made 10 "second" 1000000000]

theorem samples_sound : ∀ s ∈ [apart, together], (∀ entry ∈ s.state.projects.entries, entry.2.id = entry.1)
    ∧ ∀ project ∈ values s.state.projects, project.createdAt.IsInstant := by
  decide +kernel

theorem apart_keyed : apart.Keyed :=
  keyed_of_entries (samples_sound apart (by simp)).1

theorem apart_instants : apart.Instants tenant :=
  instants_of_values (samples_sound apart (by simp)).2

theorem together_keyed : together.Keyed :=
  keyed_of_entries (samples_sound together (by simp)).1

theorem together_instants : together.Instants tenant :=
  instants_of_values (samples_sound together (by simp)).2

/-- A second apart the cursor tells the two projects apart. -/
theorem readPages_complete_apart : ∃ items, ReadPages tenant 1 apart none items ∧ apart.ReadsAll tenant items := by
  obtain ⟨-, items, hread, -, hall⟩ := readPages_complete_iff apart_keyed apart_instants le_rfl (by decide : 1 ≤ 100)
  have hlength : (apart.list tenant).length = 2 := by decide +kernel
  have hcut : CutApart ((apart.list tenant).take 1) ((apart.list tenant).drop 1) := by decide +kernel
  refine ⟨items, hread, hall.mpr fun n hn => ?_⟩
  have hfirst : n = 0 := by omega
  subst hfirst
  exact hcut

/-- Within a microsecond the second project is behind the page and in front of the cursor. -/
theorem together_loses :
    together.Keyed ∧ together.Instants tenant
      ∧ ∃ items, ReadPages tenant 1 together none items ∧ ¬ together.ReadsAll tenant items := by
  let first := pageBehind tenant 1 together none
  let second := pageBehind tenant 1 together first.items.getLast?
  have hfirst : (listPage tenant 1 none).Returns together first together :=
    @returns_listPage together tenant 1 le_rfl (by decide) none (by simp)
  have hnext : first.nextCursor = first.items.getLast?.map formatCursor ∧ first.nextCursor.isSome := by
    decide +kernel
  have hend : second.nextCursor = none := by decide +kernel
  have hlength : (first.items ++ second.items).length = 1 ∧ (together.list tenant).length = 2 := by
    decide +kernel
  have hinstant : ∀ project ∈ first.items.getLast?, project.createdAt.IsInstant := by decide +kernel
  obtain ⟨cursor, hcursor⟩ := isSome_iff_exists.mp hnext.2
  have hsecond : (listPage tenant 1 (some cursor)).Returns together second together := by
    rw [← hcursor, hnext.1]
    exact returns_listPage le_rfl (by decide) hinstant
  refine ⟨together_keyed, together_instants, first.items ++ second.items,
    .more hfirst hcursor (.last hsecond hend), fun hall => ?_⟩
  rw [(readsAll_iff together_keyed).mp hall] at hlength
  omega

end

end Sample

end MemoryProjectRepository

end GeoMaster
