import GeoMaster.Domain.KnowledgeChunks
import Mathlib.Data.List.DropRight

/-!
# Locators of text chunks

The chunks of a text are its paragraphs, the longest runs of lines that are not blank, in their order and with their
lines. The offsets of a chunk count one character for the end of every line. They point at the paragraph when every
line ends with a line feed alone. Where lines end with a carriage return and a line feed the offsets fall behind, and a
last line without an end puts the offset past the end of the text.
-/

namespace GeoMaster

open List Nat

namespace Text

/-! ### Trimming -/

/-- Trimming a list of characters. -/
def trimmed (chars : List Char) : List Char :=
  (chars.dropWhile isWhitespace).rdropWhile isWhitespace

theorem toList_trim (s : String) : (trim s).toList = trimmed s.toList :=
  String.toList_ofList ..

theorem trimmed_append_blank {chars : List Char} {c : Char} (hc : isWhitespace c = true) :
    trimmed (chars ++ [c]) = trimmed chars := by
  unfold trimmed
  rw [dropWhile_append]
  split
  · next hempty =>
    rw [isEmpty_iff.mp hempty]
    simp [hc]
  · rw [rdropWhile_concat_pos _ _ _ hc]

theorem trim_eq_empty {s : String} : trim s = "" ↔ isBlank s = true := by
  rw [← String.toList_inj, toList_trim, trimmed, isBlank, List.all_eq_true, String.toList_empty, List.rdropWhile_eq_nil_iff]
  constructor
  · intro h c hc
    by_contra hne
    have hmem : (s.toList.dropWhile isWhitespace) ≠ [] := fun hnil => hne (dropWhile_eq_nil_iff.mp hnil c hc)
    have hhead := head_dropWhile_not isWhitespace hmem
    rw [h _ (head_mem hmem)] at hhead
    cases hhead
  · intro h c hc
    exact h c ((dropWhile_sublist _).subset hc)

/-- Lines, each followed by a line feed. -/
def ended (lines : List String) : List Char :=
  (lines.map fun line => line.toList ++ ['\n']).flatten

@[simp]
theorem ended_append (lines more : List String) : ended (lines ++ more) = ended lines ++ ended more := by
  simp [ended]

@[simp]
theorem ended_singleton (line : String) : ended [line] = line.toList ++ ['\n'] := by
  simp [ended]

theorem length_le_ended (lines : List String) : lines.length ≤ (ended lines).length := by
  induction lines with
  | nil => exact zero_le _
  | cons =>
    rw [← singleton_append, ended_append, ended_singleton]
    simp only [List.length_append, List.length_singleton]
    omega

/-! ### Lines of a text -/

/-- The parts of a text between its line feeds. -/
def parts (text : String) : List (List Char) :=
  text.toList.splitOn '\n'

/-- What follows the last line feed of a text. -/
def unended (text : String) : List Char :=
  (parts text).getLast?.getD []

/-- A line without the carriage return at its end. -/
def stripped (line : List Char) : List Char :=
  if line.getLast? = some '\r' then line.dropLast else line

/-- Parts, each followed by a line feed. -/
def endedParts (parts : List (List Char)) : List Char :=
  (parts.map (· ++ ['\n'])).flatten

theorem intercalate_ended {parts : List (List Char)} (h : parts ≠ []) :
    ['\n'].intercalate parts = endedParts parts.dropLast ++ parts.getLast h := by
  induction parts with
  | nil => exact absurd rfl h
  | cons _ parts ih =>
    cases parts with
    | nil => simp [endedParts]
    | cons next parts =>
      rw [List.intercalate_cons_cons, ih (List.cons_ne_nil _ _)]
      simp [endedParts]

theorem parts_ne_nil (text : String) : parts text ≠ [] :=
  splitOn_ne_nil _ _

theorem toList_eq_ended (text : String) : text.toList = endedParts (parts text).dropLast ++ unended text := by
  have hjoin : ['\n'].intercalate (parts text) = text.toList := intercalate_splitOn _
  rw [← hjoin, intercalate_ended (parts_ne_nil text), unended, List.getLast?_eq_getLast_of_ne_nil (parts_ne_nil text)]
  rfl

theorem ended_lines (text : String) :
    ended (lines text) = endedParts ((parts text).dropLast.map stripped) ++
      if unended text = [] then [] else unended text ++ ['\n'] := by
  show ended ((if unended text = [] then _ else _ ++ [unended text]).map String.ofList) = _
  by_cases hlast : unended text = []
  · rw [if_pos hlast, if_pos hlast]
    simp only [ended, endedParts, List.map_map, List.append_nil]
    congr 1
    exact List.map_congr_left fun line _ => by simp [stripped]
  · rw [if_neg hlast, if_neg hlast, map_append, ended_append]
    congr 1
    · simp only [ended, endedParts, List.map_map]
      congr 1
      exact List.map_congr_left fun line _ => by simp [stripped]
    · simp

theorem length_endedParts_stripped (parts : List (List Char)) :
    (endedParts (parts.map stripped)).length ≤ (endedParts parts).length := by
  induction parts with
  | nil => exact le_rfl
  | cons part _ ih =>
    have hpart : (stripped part).length ≤ part.length := by
      rw [stripped]
      split
      · exact (dropLast_sublist part).length_le
      · exact le_rfl
    simp only [endedParts, List.map_cons, List.flatten_cons, List.length_append] at ih ⊢
    omega

/-- The offsets of the lines go at most one past the end of the text. -/
theorem length_ended_lines (text : String) : (ended (lines text)).length ≤ text.length + 1 := by
  have hstripped := length_endedParts_stripped (parts text).dropLast
  rw [ended_lines, ← String.length_toList, toList_eq_ended, List.length_append, List.length_append]
  split
  · simp only [length_nil]
    omega
  · simp only [List.length_append, List.length_singleton]
    omega

/-- No line of the text ends with a carriage return and a line feed. -/
def FeedsOnly (text : String) : Prop :=
  ¬ ['\r', '\n'] <:+: text.toList

theorem FeedsOnly.ended {text : String} (h : FeedsOnly text) :
    Text.ended (lines text) = if unended text = [] then text.toList else text.toList ++ ['\n'] := by
  have hsame : (parts text).dropLast.map stripped = (parts text).dropLast := by
    refine (List.map_congr_left fun part hpart => ?_).trans (map_id _)
    refine if_neg fun hlast => h ?_
    obtain ⟨init, rfl⟩ := List.getLast?_eq_some_iff.mp hlast
    obtain ⟨before, after, hparts⟩ := append_of_mem hpart
    rw [toList_eq_ended, hparts]
    refine ⟨endedParts before ++ init, endedParts after ++ unended text, ?_⟩
    simp [endedParts]
  rw [ended_lines, hsame]
  conv_rhs => rw [toList_eq_ended]
  split
  · next hlast => rw [hlast]
  · rw [List.append_assoc]

theorem lines_unended {text : String} (h : unended text ≠ []) :
    ∃ init, lines text = init ++ [String.ofList (unended text)] := by
  refine ⟨((parts text).dropLast.map stripped).map String.ofList, ?_⟩
  show (if unended text = [] then _ else _ ++ [unended text]).map String.ofList = _
  rw [if_neg h, map_append]
  rfl

/-! ### Slices -/

/-- The characters with a line feed for every carriage return with a line feed. -/
def normalized : List Char → List Char
  | '\r' :: '\n' :: rest => '\n' :: normalized rest
  | c :: rest => c :: normalized rest
  | [] => []

theorem normalized_eq {chars : List Char} (h : ¬ ['\r', '\n'] <:+: chars) : normalized chars = chars := by
  fun_induction normalized chars with
  | case1 rest ih => exact absurd ⟨[], rest, rfl⟩ h
  | case2 c rest _ ih => rw [ih fun hin => h (hin.trans (suffix_cons c rest).isInfix)]
  | case3 => rfl

end Text

open Text

/-! ### Paragraphs -/

variable {lines : List String} {text : String} {n : Nat}

/-- The offset of a line, when every line before it is counted with one more character. -/
def lineOffset (lines : List String) (n : Nat) : Nat :=
  (ended (lines.take n)).length

/-- The lines of a paragraph, by the number of its first line and of its last one. -/
structure Paragraph (lines : List String) (first last : Nat) : Prop where
  ordered : 1 ≤ first ∧ first ≤ last ∧ last ≤ lines.length
  spoken : ∀ i, first ≤ i + 1 → i < last → ∀ line ∈ lines[i]?, isBlank line = false
  before : ∀ i, i + 2 = first → ∀ line ∈ lines[i]?, isBlank line = true
  after : ∀ line ∈ lines[last]?, isBlank line = true

/-- The lines from one to another. -/
def linesOf (lines : List String) (first last : Nat) : List String :=
  (lines.take last).drop (first - 1)

/-- A chunk is a paragraph with its lines and the offsets of its lines. -/
structure ChunkOf (lines : List String) (first last : Nat) (chunk : Chunk) : Prop where
  paragraph : Paragraph lines first last
  locator : chunk.locator = .text (.ofNat first) (.ofNat last) (.ofNat (lineOffset lines (first - 1)))
    (.ofNat (lineOffset lines last))
  text : chunk.text = trim (String.ofList (ended (linesOf lines first last)))

/-- The chunks of the lines up to one that is blank or the last one, in their order. -/
inductive ChunksTo (lines : List String) : Nat → List Chunk → Prop where
  | nil : ChunksTo lines 0 []
  | blank {n : Nat} {chunks : List Chunk} :
      ChunksTo lines n chunks → (∀ line ∈ lines[n]?, isBlank line = true) → ChunksTo lines (n + 1) chunks
  | paragraph {n last : Nat} {chunks : List Chunk} {chunk : Chunk} :
      ChunksTo lines n chunks → ChunkOf lines (n + 1) last chunk → chunk.ordinal = chunks.length →
        ChunksTo lines last (chunks ++ [chunk])

/-! ### The scan -/

theorem lineOffset_succ {line : String} (h : lines[n]? = some line) :
    lineOffset lines (n + 1) = lineOffset lines n + line.length + 1 := by
  rw [lineOffset, List.take_add_one, h, ended_append, List.length_append, ← lineOffset]
  simp [Nat.add_assoc, String.length_toList]

/-- The scan after some lines: the paragraphs before line `k` are chunks, and the lines from there on are open. -/
structure Scanned (lines : List String) (k i : Nat) (scan : ParagraphScan) : Prop where
  chunks : ChunksTo lines k scan.chunks
  range : k ≤ i ∧ i ≤ lines.length
  start : scan.paragraphStartLine = k + 1
  startChar : scan.paragraphStartChar = lineOffset lines k
  offset : scan.charOffset = lineOffset lines i
  spoken : ∀ j, k ≤ j → j < i → ∀ line ∈ lines[j]?, isBlank line = false
  before : ∀ j, j + 1 = k → ∀ line ∈ lines[j]?, isBlank line = true
  closed : k = i → scan.current = ""
  opened : k < i → scan.current ≠ ""
  current : k < i → scan.current.toList ++ ['\n'] = ended ((lines.take i).drop k)
  endLine : k < i → scan.currentEndLine = i

section Scan

variable [Sha256] {scope : TenantScope} {projectId : ProjectId} {sourceVersionId : Uuid} {chunkIds : Nat → Uuid}
  {scan : ParagraphScan} {k i endLine : Nat}

/-- Closing the open paragraph at a blank line, or at the end, makes a chunk of it. -/
theorem Scanned.flush (h : Scanned lines k i scan) (hblank : ∀ line ∈ lines[i]?, isBlank line = true)
    (hend : k < i → endLine = i) :
    ChunksTo lines i (scan.flush scope projectId sourceVersionId chunkIds endLine).chunks := by
  rcases h.range.1.eq_or_lt with rfl | hlt
  · rw [ParagraphScan.flush, h.closed rfl]
    simpa [trim_eq_empty, isBlank] using h.chunks
  · have hcurrent := h.current hlt
    have hklines : k < lines.length := hlt.trans_le h.range.2
    have hspoken : trim scan.current ≠ "" := by
      intro hempty
      have hline := h.spoken k le_rfl hlt _ (List.getElem?_eq_getElem hklines)
      rw [trim_eq_empty, isBlank, List.all_eq_true] at hempty
      rw [isBlank, ← Bool.not_eq_true, List.all_eq_true] at hline
      refine hline fun c hc => ?_
      have hmem : c ∈ scan.current.toList ++ ['\n'] := by
        rw [hcurrent, List.drop_eq_getElem_cons (by rw [List.length_take]; omega), List.getElem_take]
        exact List.mem_flatten.mpr ⟨_, List.mem_cons_self, List.mem_append_left _ hc⟩
      rcases List.mem_append.mp hmem with hmem | hmem
      · exact hempty c hmem
      · rw [List.mem_singleton.mp hmem]
        rfl
    rw [ParagraphScan.flush, if_neg hspoken]
    refine .paragraph h.chunks ⟨⟨⟨Nat.succ_pos k, hlt, h.range.2⟩, ?_, ?_, hblank⟩, ?_, ?_⟩ rfl
    · exact fun j hj hji => h.spoken j (by omega) hji
    · exact fun j hj => h.before j (by omega)
    · rw [h.start, hend hlt, h.startChar, h.offset]
      rfl
    · rw [← String.toList_inj, toList_trim, toList_trim, String.toList_ofList]
      show _ = trimmed (ended ((lines.take i).drop (k + 1 - 1)))
      rw [Nat.add_sub_cancel, ← hcurrent, trimmed_append_blank (by decide)]

/-- Closing a paragraph leaves the offset and opens nothing. -/
theorem flush_same (scope : TenantScope) (projectId : ProjectId) (sourceVersionId : Uuid) (chunkIds : Nat → Uuid)
    (scan : ParagraphScan) (endLine : Nat) :
    (scan.flush scope projectId sourceVersionId chunkIds endLine).charOffset = scan.charOffset ∧
      (scan.flush scope projectId sourceVersionId chunkIds endLine).current = "" := by
  by_cases hempty : trim scan.current = ""
  · rw [ParagraphScan.flush, if_pos hempty]
    exact ⟨rfl, rfl⟩
  · rw [ParagraphScan.flush, if_neg hempty]
    exact ⟨rfl, rfl⟩

omit [Sha256] in
theorem drop_take_succ {line : String} (hki : k ≤ i) (hline : lines[i]? = some line) :
    (lines.take (i + 1)).drop k = (lines.take i).drop k ++ [line] := by
  have hlt : i < lines.length := (List.getElem?_eq_some_iff.mp hline).1
  rw [List.take_add_one, hline, drop_append_of_le_length (by rw [length_take]; omega)]
  rfl

theorem Scanned.line {line : String} (h : Scanned lines k i scan) (hline : lines[i]? = some line) :
    ∃ k', Scanned lines k' (i + 1) (scan.line scope projectId sourceVersionId chunkIds i line) := by
  have hlt : i < lines.length := (List.getElem?_eq_some_iff.mp hline).1
  by_cases hblank : isBlank line = true
  · have hflush : ChunksTo lines i (scan.flush scope projectId sourceVersionId chunkIds _).chunks := h.flush (fun l hl => by rw [hline] at hl; exact Option.some.inj hl ▸ hblank) h.endLine
    refine ⟨i + 1, ?_⟩
    rw [ParagraphScan.line, if_pos hblank]
    have hsame : _ = scan.charOffset ∧ _ = "" := flush_same scope projectId sourceVersionId chunkIds scan
      scan.currentEndLine
    exact
      { chunks := hflush.blank fun l hl => by rw [hline] at hl; exact Option.some.inj hl ▸ hblank
        range := ⟨le_rfl, hlt⟩
        start := rfl
        startChar := by rw [lineOffset_succ hline, ← h.offset]; exact congrArg (· + line.length + 1) hsame.1
        offset := by rw [lineOffset_succ hline, ← h.offset]; exact congrArg (· + line.length + 1) hsame.1
        spoken := fun j hj hji => by omega
        before := fun j hj l hl => by
          obtain rfl : j = i := by omega
          rw [hline] at hl
          exact Option.some.inj hl ▸ hblank
        closed := fun _ => hsame.2
        opened := fun hlt => absurd hlt (lt_irrefl _)
        current := fun hlt => absurd hlt (lt_irrefl _)
        endLine := fun hlt => absurd hlt (lt_irrefl _) }
  · refine ⟨k, ?_⟩
    rw [ParagraphScan.line, if_neg hblank]
    exact
      { chunks := h.chunks
        range := ⟨h.range.1.trans (le_succ i), hlt⟩
        start := h.start
        startChar := h.startChar
        offset := by rw [lineOffset_succ hline, ← h.offset]
        spoken := fun j hj hji l hl => by
          rcases Nat.lt_succ_iff_lt_or_eq.mp hji with hji | rfl
          · exact h.spoken j hj hji l hl
          · rw [hline] at hl
            exact Option.some.inj hl ▸ Bool.eq_false_iff.mpr hblank
        before := h.before
        closed := fun heq => by have := h.range.1; omega
        opened := fun _ => by
          intro hempty
          rw [← String.toList_inj, String.toList_append] at hempty
          have hline := (append_eq_nil_iff.mp hempty).2
          exact hblank (by rw [isBlank, hline]; rfl)
        current := fun _ => by
          rw [drop_take_succ h.range.1 hline, ended_append, ended_singleton]
          rcases h.range.1.eq_or_lt with rfl | hlt'
          · simp [h.closed rfl, ended]
          · rw [if_neg (h.opened hlt'), ← h.current hlt']
            simp
        endLine := fun _ => rfl }

/-- The lines from one on keep the scan. -/
theorem Scanned.run : ∀ {rest : List String} {i k : Nat} {scan : ParagraphScan}, lines.drop i = rest →
    Scanned lines k i scan → ∃ k', Scanned lines k' lines.length ((rest.zipIdx i).foldl (fun scan (line, index) =>
      scan.line scope projectId sourceVersionId chunkIds index line) scan)
  | [], i, k, scan, hrest, h => by
    obtain rfl : i = lines.length := le_antisymm h.range.2 (drop_eq_nil_iff.mp hrest)
    exact ⟨k, h⟩
  | line :: rest, i, k, scan, hrest, h => by
    have hline : lines[i]? = some line := by rw [← List.head?_drop, hrest]; rfl
    obtain ⟨_, hnext⟩ : ∃ k', Scanned lines k' (i + 1) (scan.line scope _ _ _ i line) := h.line hline
    have hnextRest : lines.drop (i + 1) = rest := by rw [← tail_drop, hrest, tail_cons]
    obtain ⟨last, hrun⟩ := Scanned.run hnextRest hnext
    exact ⟨last, hrun⟩

theorem deterministicChunks_to :
    ChunksTo (Text.lines text) (Text.lines text).length
      (deterministicChunks scope projectId sourceVersionId text chunkIds) := by
  have hstart : Scanned (Text.lines text) 0 0
      { chunks := [], paragraphStartLine := 1, paragraphStartChar := 0, current := "", currentEndLine := 0
        charOffset := 0 } :=
    { chunks := .nil, range := ⟨le_rfl, zero_le _⟩, start := rfl, startChar := rfl, offset := rfl
      spoken := fun j _ hj => absurd hj (not_lt_zero j), before := fun j hj => absurd hj (succ_ne_zero j)
      closed := fun _ => rfl, opened := fun h => absurd h (lt_irrefl 0), current := fun h => absurd h (lt_irrefl 0)
      endLine := fun h => absurd h (lt_irrefl 0) }
  obtain ⟨_, hscan⟩ := Scanned.run drop_zero hstart
  refine hscan.flush (fun line hline => ?_) fun hlt => ?_
  · rw [List.getElem?_eq_none le_rfl] at hline
    cases hline
  · rw [hscan.endLine hlt, hscan.start]
    exact max_eq_left hlt

end Scan

/-! ### The locators -/

variable {chunks : List Chunk} {chunk : Chunk} {first last : Nat}

/-- The first and the last line of a text chunk. -/
def Chunk.lineRange (chunk : Chunk) : Nat × Nat :=
  match chunk.locator with
  | .text startLine endLine _ _ => (startLine.toNat, endLine.toNat)
  | _ => (0, 0)

/-- The characters of a text chunk, up to the end and without it. -/
def Chunk.charRange (chunk : Chunk) : Nat × Nat :=
  match chunk.locator with
  | .text _ _ startChar endChar => (startChar.toNat, endChar.toNat)
  | _ => (0, 0)

/-- The chunks are the paragraphs of the text, in their order. -/
structure ParagraphsOf (text : String) (chunks : List Chunk) : Prop where
  ordinals : chunks.map (·.ordinal) = List.range chunks.length
  ordered : chunks.Pairwise fun chunk next => chunk.lineRange.2 < next.lineRange.1
  covered : ∀ i line, (Text.lines text)[i]? = some line → isBlank line = false →
    ∃! chunk, chunk ∈ chunks ∧ chunk.lineRange.1 ≤ i + 1 ∧ i + 1 ≤ chunk.lineRange.2
  paragraph : ∀ chunk ∈ chunks, Paragraph (Text.lines text) chunk.lineRange.1 chunk.lineRange.2 ∧
    chunk.text = trim (String.ofList (ended (linesOf (Text.lines text) chunk.lineRange.1 chunk.lineRange.2)))

/-- The character range of a chunk lies in the text and reads the chunk. -/
def PointsAt (text : String) (chunk : Chunk) : Prop :=
  chunk.charRange.1 ≤ chunk.charRange.2 ∧ chunk.charRange.2 ≤ text.length ∧
    trimmed (normalized ((text.toList.take chunk.charRange.2).drop chunk.charRange.1)) = chunk.text.toList

instance {text : String} {chunk : Chunk} : Decidable (PointsAt text chunk) :=
  inferInstanceAs (Decidable (_ ∧ _ ∧ _))

theorem lineOffset_le (hmn : first ≤ last) : lineOffset lines first ≤ lineOffset lines last := by
  rw [lineOffset, lineOffset, ← List.take_append_drop first (lines.take last), List.take_take, min_eq_left hmn,
    ended_append, List.length_append]
  exact Nat.le_add_right ..

theorem lineOffset_le_ended : lineOffset lines n ≤ (ended lines).length := by
  conv_rhs => rw [← List.take_append_drop n lines, ended_append, List.length_append]
  exact Nat.le_add_right ..

section Ranges

variable (hsize : (ended lines).length < 2 ^ 32)

include hsize

theorem ChunkOf.lineRange (h : ChunkOf lines first last chunk) : chunk.lineRange = (first, last) := by
  have hlast := h.paragraph.ordered
  have hlength := length_le_ended lines
  rw [Chunk.lineRange, h.locator]
  simp only [Prod.mk.injEq]
  constructor <;> refine mod_eq_of_lt ?_ <;> omega

theorem ChunkOf.charRange (h : ChunkOf lines first last chunk) :
    chunk.charRange = (lineOffset lines (first - 1), lineOffset lines last) := by
  have hstart : lineOffset lines (first - 1) ≤ _ := lineOffset_le_ended
  have hend : lineOffset lines last ≤ _ := lineOffset_le_ended
  rw [Chunk.charRange, h.locator]
  simp only [Prod.mk.injEq]
  constructor <;> refine mod_eq_of_lt ?_ <;> omega

theorem ChunksTo.mem (h : ChunksTo lines n chunks) (hchunk : chunk ∈ chunks) :
    ChunkOf lines chunk.lineRange.1 chunk.lineRange.2 chunk ∧ chunk.lineRange.2 ≤ n := by
  induction h with
  | nil => cases hchunk
  | blank _ _ ih => exact ⟨(ih hchunk).1, (ih hchunk).2.trans (le_succ _)⟩
  | paragraph _ hof _ ih =>
    have hordered := hof.paragraph.ordered
    rcases mem_append.mp hchunk with hchunk | hchunk
    · have hle := (ih hchunk).2
      exact ⟨(ih hchunk).1, by omega⟩
    · obtain rfl := mem_singleton.mp hchunk
      rw [hof.lineRange hsize]
      exact ⟨hof, le_rfl⟩

theorem ChunksTo.ordered (h : ChunksTo lines n chunks) :
    chunks.Pairwise fun chunk next => chunk.lineRange.2 < next.lineRange.1 := by
  induction h with
  | nil => exact .nil
  | blank _ _ ih => exact ih
  | paragraph hbefore hof _ ih =>
    refine pairwise_append.mpr ⟨ih, pairwise_singleton .., fun chunk hchunk next hnext => ?_⟩
    rw [mem_singleton.mp hnext, hof.lineRange hsize]
    exact lt_succ_of_le (hbefore.mem hsize hchunk).2

omit hsize in
theorem ChunksTo.ordinals (h : ChunksTo lines n chunks) : chunks.map (·.ordinal) = List.range chunks.length := by
  induction h with
  | nil => rfl
  | blank _ _ ih => exact ih
  | paragraph _ _ hordinal ih =>
    rw [map_append, ih, List.length_append, List.length_singleton, range_succ, map_singleton, hordinal]

theorem ChunksTo.covered {i : Nat} {line : String} (h : ChunksTo lines n chunks) (hline : lines[i]? = some line)
    (hspoken : isBlank line = false) (hi : i < n) :
    ∃ chunk ∈ chunks, chunk.lineRange.1 ≤ i + 1 ∧ i + 1 ≤ chunk.lineRange.2 := by
  induction h with
  | nil => exact absurd hi (not_lt_zero i)
  | blank _ hblank ih =>
    rcases Nat.lt_succ_iff_lt_or_eq.mp hi with hi | rfl
    · exact ih hi
    · rw [hblank line hline] at hspoken
      cases hspoken
  | @paragraph n _ _ chunk _ hof _ ih =>
    rcases lt_or_ge i n with hlt | hge
    · obtain ⟨chunk, hchunk, hrange⟩ := ih hlt
      exact ⟨chunk, mem_append_left _ hchunk, hrange⟩
    · refine ⟨chunk, mem_append_right _ (mem_singleton_self _), ?_⟩
      rw [hof.lineRange hsize]
      exact ⟨succ_le_succ hge, hi⟩

end Ranges

theorem ChunksTo.paragraphs (h : ChunksTo (Text.lines text) (Text.lines text).length chunks)
    (hsize : text.length + 1 < 2 ^ 32) : ParagraphsOf text chunks := by
  have hended := (length_ended_lines text).trans_lt hsize
  refine ⟨h.ordinals, h.ordered hended, fun i line hline hspoken => ?_, fun chunk hchunk => ?_⟩
  · obtain ⟨chunk, hchunk, hrange⟩ := h.covered hended hline hspoken (List.getElem?_eq_some_iff.mp hline).1
    refine ⟨chunk, ⟨hchunk, hrange⟩, fun other ⟨hother, hotherRange⟩ => ?_⟩
    -- Of two chunks one comes first, and ends before the other starts.
    obtain ⟨j, hj, rfl⟩ := List.mem_iff_getElem.mp hchunk
    obtain ⟨k, hk, rfl⟩ := List.mem_iff_getElem.mp hother
    have hapart := List.pairwise_iff_getElem.mp (h.ordered hended)
    rcases lt_trichotomy j k with hlt | rfl | hlt
    · have := hapart j k hj hk hlt
      omega
    · rfl
    · have := hapart k j hk hj hlt
      omega
  · have hof := (h.mem hended hchunk).1
    exact ⟨hof.paragraph, hof.text⟩

theorem ChunkOf.slice (h : ChunkOf lines first last chunk) :
    ((ended lines).take (lineOffset lines last)).drop (lineOffset lines (first - 1)) =
      ended (linesOf lines first last) := by
  have hordered := h.paragraph.ordered
  have htake : (ended lines).take (lineOffset lines last) = ended (lines.take last) := by
    have hsplit : ended lines = ended (lines.take last) ++ ended (lines.drop last) := by
      rw [← ended_append, List.take_append_drop]
    rw [hsplit]
    exact List.take_left' rfl
  rw [htake, ← List.take_append_drop (first - 1) (lines.take last), List.take_take,
    min_eq_left (by omega), ended_append, lineOffset, List.drop_left' rfl]
  rfl

/-- Where every line ends with a line feed alone, a range within the text reads its chunk. -/
theorem ChunkOf.pointsAt (h : ChunkOf (Text.lines text) first last chunk) (hfeeds : FeedsOnly text)
    (hsize : text.length + 1 < 2 ^ 32) (hlast : lineOffset (Text.lines text) last ≤ text.length) :
    PointsAt text chunk := by
  have hended := hfeeds.ended
  have hordered := h.paragraph.ordered
  rw [PointsAt, h.charRange ((length_ended_lines text).trans_lt hsize)]
  refine ⟨lineOffset_le (by omega), hlast, ?_⟩
  have hread : text.toList.take (lineOffset (Text.lines text) last) =
      (Text.ended (Text.lines text)).take (lineOffset (Text.lines text) last) := by
    rw [hended]
    split
    · rfl
    · rw [List.take_append_of_le_length (by rwa [String.length_toList])]
  have hplain : ¬ ['\r', '\n'] <:+: (text.toList.take (lineOffset (Text.lines text) last)).drop
      (lineOffset (Text.lines text) (first - 1)) := fun hin =>
    hfeeds (hin.trans ((List.drop_suffix _ _).isInfix.trans (List.take_prefix _ _).isInfix))
  rw [normalized_eq hplain, hread, h.slice, h.text, toList_trim, String.toList_ofList]

theorem lineOffset_last (hfeeds : FeedsOnly text) (hunended : unended text ≠ []) :
    ∃ init, Text.lines text = init ++ [String.ofList (unended text)] ∧ lineOffset (Text.lines text) init.length
      ≤ text.length ∧ lineOffset (Text.lines text) (init.length + 1) = text.length + 1 := by
  obtain ⟨init, hlines⟩ := lines_unended hunended
  have hend : lineOffset (Text.lines text) (init.length + 1) = text.length + 1 := by
    have hall : (Text.lines text).take (init.length + 1) = Text.lines text :=
      take_of_length_le (by rw [hlines, List.length_append, List.length_singleton])
    rw [lineOffset, hall, hfeeds.ended, if_neg hunended, List.length_append, String.length_toList]
    rfl
  have hline : (Text.lines text)[init.length]? = some (String.ofList (unended text)) := by
    rw [hlines, List.getElem?_concat_length]
  have hsucc := lineOffset_succ hline
  exact ⟨init, hlines, by omega, hend⟩

section Exact

variable [Sha256]

end Exact

/-! ### Texts with both ends of lines -/

open Sample

attribute [local instance] secureHash

def sampleChunks (text : String) : List Chunk :=
  deterministicChunks scope ⟨uuid 3⟩ (uuid 4) text uuid

end GeoMaster
