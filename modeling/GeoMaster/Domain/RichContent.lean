import GeoMaster.Domain.Base
import GeoMaster.Lib.Op

/-!
# Rich content

A bounded, strictly typed subset of the editor's document shape: the nodes, their structural
validation, and their Markdown and HTML renderings without a media path map.
-/

namespace GeoMaster

open Except Text

/-! ### Nodes -/

structure HeadingAttrs where
  level : UInt8
  deriving DecidableEq

structure OrderedListAttrs where
  start : UInt32
  deriving DecidableEq

structure CodeBlockAttrs where
  language : Option String
  deriving DecidableEq

inductive CellAlignment where
  | left
  | center
  | right
  deriving DecidableEq

structure TableCellAttrs where
  (colspan rowspan : UInt16)
  colwidth : Option (List UInt16)
  alignment : Option CellAlignment
  deriving DecidableEq

structure MediaReference where
  objectId : Uuid
  objectVersion : Int
  (sha256 alt caption : String)
  deriving DecidableEq

structure LinkAttrs where
  href : String
  title : Option String
  deriving DecidableEq

inductive RichMark where
  | bold
  | italic
  | strike
  | underline
  | code
  | link (attrs : LinkAttrs)
  deriving DecidableEq

inductive RichNode where
  | paragraph (content : List RichNode)
  | heading (attrs : HeadingAttrs) (content : List RichNode)
  | text (text : String) (marks : List RichMark)
  | hardBreak
  | bulletList (content : List RichNode)
  | orderedList (attrs : OrderedListAttrs) (content : List RichNode)
  | listItem (content : List RichNode)
  | codeBlock (attrs : Option CodeBlockAttrs) (content : List RichNode)
  | table (content : List RichNode)
  | tableRow (content : List RichNode)
  | tableHeader (attrs : Option TableCellAttrs) (content : List RichNode)
  | tableCell (attrs : Option TableCellAttrs) (content : List RichNode)
  | media (attrs : MediaReference)

structure RichContent where
  version : UInt8
  node : RichNode

namespace RichNode

mutual

/-- Equality of two nodes, as a test. -/
def same : RichNode → RichNode → Bool
  | .paragraph xs, .paragraph ys => sameAll xs ys
  | .heading a xs, .heading b ys => decide (a = b) && sameAll xs ys
  | .text s m, .text t n => decide (s = t) && decide (m = n)
  | .hardBreak, .hardBreak => true
  | .bulletList xs, .bulletList ys => sameAll xs ys
  | .orderedList a xs, .orderedList b ys => decide (a = b) && sameAll xs ys
  | .listItem xs, .listItem ys => sameAll xs ys
  | .codeBlock a xs, .codeBlock b ys => decide (a = b) && sameAll xs ys
  | .table xs, .table ys => sameAll xs ys
  | .tableRow xs, .tableRow ys => sameAll xs ys
  | .tableHeader a xs, .tableHeader b ys => decide (a = b) && sameAll xs ys
  | .tableCell a xs, .tableCell b ys => decide (a = b) && sameAll xs ys
  | .media a, .media b => decide (a = b)
  | _, _ => false
termination_by structural x => x

/-- Equality of two lists of nodes, as a test. -/
def sameAll : List RichNode → List RichNode → Bool
  | [], [] => true
  | x :: xs, y :: ys => same x y && sameAll xs ys
  | _, _ => false
termination_by structural xs => xs

end

mutual

theorem same_iff : (a b : RichNode) → (same a b = true ↔ a = b)
  | .paragraph xs, b => by cases b <;> simp [same, sameAll_iff xs]
  | .heading _ xs, b => by cases b <;> simp [same, sameAll_iff xs]
  | .text _ _, b => by cases b <;> simp [same]
  | .hardBreak, b => by cases b <;> simp [same]
  | .bulletList xs, b => by cases b <;> simp [same, sameAll_iff xs]
  | .orderedList _ xs, b => by cases b <;> simp [same, sameAll_iff xs]
  | .listItem xs, b => by cases b <;> simp [same, sameAll_iff xs]
  | .codeBlock _ xs, b => by cases b <;> simp [same, sameAll_iff xs]
  | .table xs, b => by cases b <;> simp [same, sameAll_iff xs]
  | .tableRow xs, b => by cases b <;> simp [same, sameAll_iff xs]
  | .tableHeader _ xs, b => by cases b <;> simp [same, sameAll_iff xs]
  | .tableCell _ xs, b => by cases b <;> simp [same, sameAll_iff xs]
  | .media _, b => by cases b <;> simp [same]

theorem sameAll_iff : (xs ys : List RichNode) → (sameAll xs ys = true ↔ xs = ys)
  | [], ys => by cases ys <;> simp [sameAll]
  | x :: xs, ys => by cases ys <;> simp [sameAll, same_iff x, sameAll_iff xs]

end

instance : DecidableEq RichNode :=
  fun a b => decidable_of_iff _ (same_iff a b)

end RichNode

deriving instance DecidableEq for RichContent

/-! ### Links -/

/-- What the URL parser reports about an absolute address. -/
structure UrlParts where
  scheme : String
  host : Option String
  username : String
  password : Option String
  path : String

/-- The URL parser: absolute addresses, and addresses relative to a base. -/
class UrlParser where
  parse : String → Option UrlParts
  join : String → String → Option UrlParts

def safeLink [UrlParser] (href : String) : Bool :=
  if href.isEmpty || len href > 2048 || href.toList.contains '\\' then false
  else if href.toList.any (fun c => isControl c || isWhitespace c) then false
  else
    match UrlParser.parse href with
    | some url =>
      if url.scheme = "https" ∨ url.scheme = "http" then
        url.host.isSome && url.username.isEmpty && url.password.isNone
      else if url.scheme = "mailto" then !url.path.isEmpty
      else false
    | none =>
      !startsWith href "//"
        && (UrlParser.join "https://content.invalid/" href).any fun url =>
          url.scheme = "https" ∧ url.host = some "content.invalid"

/-! ### Validation -/

def maxNodes : Nat :=
  10000

def maxDepth : Nat :=
  24

def maxTextBytes : Nat :=
  1000000

def maxTableRows : Nat :=
  100

def maxTableColumns : Nat :=
  32

structure Limits where
  (nodes textBytes : Nat)

namespace Limits

/-- Count the bytes of a text, within the limit of the whole content. -/
def text (value : String) : Op Limits AppError Unit := do
  Op.modify fun l => { l with textBytes := l.textBytes + len value }
  let l ← Op.read id
  Op.failIf (l.textBytes > maxTextBytes) (.invalidRequest "rich text limit exceeded")

end Limits

namespace RichMark

/-- The kind of a mark: two links are of one kind whatever their targets. -/
def kind : RichMark → Nat
  | .bold => 0
  | .italic => 1
  | .strike => 2
  | .underline => 3
  | .code => 4
  | .link _ => 5

/-- The checks on the marks of a text, in order. -/
def validateAll [UrlParser] (seen : List Nat) : List RichMark → Op Limits AppError Unit
  | [] => pure ()
  | mark :: rest => do
    Op.failIf (mark.kind ∈ seen) (.invalidRequest "duplicate rich mark")
    match mark with
    | .link attrs => do
      Op.failIf (¬ safeLink attrs.href ∨ ∃ title ∈ attrs.title, len title > 1024 ∨ title.toList.any isControl)
        (.invalidRequest "unsafe rich link")
      match attrs.title with
      | some title => Limits.text title
      | none => pure ()
    | _ => pure ()
    validateAll (mark.kind :: seen) rest

end RichMark

namespace RichNode

def children : RichNode → List RichNode
  | .paragraph content | .heading _ content | .bulletList content | .orderedList _ content
  | .listItem content | .codeBlock _ content | .table content | .tableRow content
  | .tableHeader _ content | .tableCell _ content => content
  | .text _ _ | .hardBreak | .media _ => []

/-- Which children a node may have. -/
def childOk (parent child : RichNode) : Bool :=
  match parent, child with
  | .paragraph _, .text _ _ | .paragraph _, .hardBreak => true
  | .heading _ _, .text _ _ | .heading _ _, .hardBreak => true
  | .bulletList _, .listItem _ | .orderedList _ _, .listItem _ => true
  | .listItem _, .paragraph _ | .listItem _, .bulletList _ | .listItem _, .orderedList _ _ => true
  | .codeBlock _ _, .text _ marks => marks.isEmpty
  | .table _, .tableRow _ => true
  | .tableRow _, .tableHeader _ _ | .tableRow _, .tableCell _ _ => true
  | .tableHeader _ _, .paragraph _ | .tableCell _ _, .paragraph _ => true
  | _, _ => false

/-- The span attributes of a table cell. -/
def cellAttrs : RichNode → Option TableCellAttrs
  | .tableHeader attrs _ | .tableCell attrs _ => attrs
  | _ => none

/-- Place the cells of one row: skip the columns earlier rows still cover, then cover the cell's
own. -/
def placeCells (rowIndex rowCount : Nat) : List RichNode → Nat → List Nat → Except AppError (List Nat)
  | [], _, occupancy => pure occupancy
  | cell :: rest, column, occupancy => do
    let column := column + ((occupancy.drop column).takeWhile (· > rowIndex)).length
    let colspan := cell.cellAttrs.elim 1 (·.colspan.toNat)
    let rowspan := cell.cellAttrs.elim 1 (·.rowspan.toNat)
    failIf (column + colspan > maxTableColumns ∨ rowIndex + rowspan > rowCount)
      (.invalidRequest "table cell extends past table boundary")
    failIf (((occupancy.drop column).take colspan).any (· > rowIndex)) (.invalidRequest "overlapping table cell span")
    placeCells rowIndex rowCount rest (column + colspan)
      (occupancy.take column ++ List.replicate colspan (rowIndex + rowspan) ++ occupancy.drop (column + colspan))

/-- One past the last column a row covers. -/
def rowWidth (rowIndex : Nat) (occupancy : List Nat) : Nat :=
  (occupancy.reverse.dropWhile (· ≤ rowIndex)).length

/-- Every row has to tile the same number of columns without a gap. -/
def validateRows (rowCount : Nat) : List RichNode → Nat → Option Nat → List Nat → Except AppError Unit
  | [], _, _, _ => pure ()
  | row :: rest, rowIndex, width, occupancy => do
    let occupancy ← placeCells rowIndex rowCount row.children 0 occupancy
    let w := rowWidth rowIndex occupancy
    failIf (w = 0 ∨ ∃ previous ∈ width, previous ≠ w) (.invalidRequest "table rows must have equal column widths")
    failIf ((occupancy.take w).any (· ≤ rowIndex)) (.invalidRequest "table row has a missing cell")
    validateRows rowCount rest (rowIndex + 1) (some w) occupancy

def validateTable (rows : List RichNode) : Except AppError Unit := do
  failIf (rows.length > maxTableRows) (.invalidRequest "table row limit exceeded")
  validateRows rows.length rows 0 none (List.replicate maxTableColumns 0)

/-- The bounds on the attributes of a node. -/
def validateAttrs : RichNode → Except AppError Unit
  | .heading attrs _ => failIf (¬ (1 ≤ attrs.level ∧ attrs.level ≤ 6)) (.invalidRequest "invalid heading level")
  | .orderedList attrs _ => failIf (attrs.start = 0) (.invalidRequest "ordered list start must be positive")
  | .codeBlock attrs _ =>
    failIf
      (∃ language ∈ attrs.bind (·.language), len language > 64
        ∨ ¬ language.toList.all fun c =>
          isAsciiDigit c || ('a' ≤ c && c ≤ 'z') || ('A' ≤ c && c ≤ 'Z')
            || c = '-' || c = '_' || c = '+' || c = '#')
      (.invalidRequest "invalid code language")
  | .tableHeader attrs _ | .tableCell attrs _ =>
    failIf
      (∃ a ∈ attrs, a.colspan = 0 ∨ a.rowspan = 0 ∨ a.colspan.toNat > maxTableColumns ∨ a.rowspan.toNat > maxTableRows
        ∨ ∃ w ∈ a.colwidth, w.length ≠ a.colspan.toNat ∨ 0 ∈ w)
      (.invalidRequest "invalid table cell span or width")
  | _ => pure ()

/-- A paragraph and a code block may be empty, every other container may not, and a list item begins
with a paragraph. -/
def validateShape : RichNode → Except AppError Unit
  | .paragraph _ | .codeBlock _ _ => pure ()
  | .listItem content => do
    failIf (content = []) (.invalidRequest "rich container must not be empty")
    failIf (¬ ∃ first ∈ content.head?, first matches .paragraph _)
      (.invalidRequest "list item must begin with a paragraph")
  | node => failIf (node.children = []) (.invalidRequest "rich container must not be empty")

/-- The checks a node with children passes before its children are looked at. -/
def checkContainer (node : RichNode) : Except AppError Unit := do
  node.validateAttrs
  node.validateShape

mutual

def validate [UrlParser] (node : RichNode) (depth : Nat) : Op Limits AppError Unit := do
  Op.modify fun l => { l with nodes := l.nodes + 1 }
  let l ← Op.read id
  Op.failIf (depth > maxDepth ∨ l.nodes > maxNodes) (.invalidRequest "rich node depth or count limit exceeded")
  match node with
  | .text value marks => do
    Op.failIf value.isEmpty (.invalidRequest "empty rich text node")
    Limits.text value
    RichMark.validateAll [] marks
    Op.failIf (.code ∈ marks ∧ marks.length > 1) (.invalidRequest "inline code cannot combine with other marks")
  | .hardBreak => pure ()
  | .media attrs => do
    Op.failIf
      (attrs.objectId.isNil ∨ attrs.objectVersion < 1 ∨ len attrs.sha256 ≠ 64
        ∨ ¬ attrs.sha256.toList.all isAsciiHexdigit)
      (.invalidRequest "invalid media object identity or digest")
    Limits.text attrs.alt
    Limits.text attrs.caption
    Op.failIf (isBlank attrs.alt) (.invalidRequest "media alternative text required")
  | .table content => do
    Op.lift (checkContainer (.table content))
    validateChildren (.table content) content depth
    Op.lift (validateTable content)
  | .paragraph content => do
    Op.lift (checkContainer (.paragraph content))
    validateChildren (.paragraph content) content depth
  | .heading attrs content => do
    Op.lift (checkContainer (.heading attrs content))
    validateChildren (.heading attrs content) content depth
  | .bulletList content => do
    Op.lift (checkContainer (.bulletList content))
    validateChildren (.bulletList content) content depth
  | .orderedList attrs content => do
    Op.lift (checkContainer (.orderedList attrs content))
    validateChildren (.orderedList attrs content) content depth
  | .listItem content => do
    Op.lift (checkContainer (.listItem content))
    validateChildren (.listItem content) content depth
  | .codeBlock attrs content => do
    Op.lift (checkContainer (.codeBlock attrs content))
    validateChildren (.codeBlock attrs content) content depth
  | .tableRow content => do
    Op.lift (checkContainer (.tableRow content))
    validateChildren (.tableRow content) content depth
  | .tableHeader attrs content => do
    Op.lift (checkContainer (.tableHeader attrs content))
    validateChildren (.tableHeader attrs content) content depth
  | .tableCell attrs content => do
    Op.lift (checkContainer (.tableCell attrs content))
    validateChildren (.tableCell attrs content) content depth
termination_by structural node

/-- Every child must be allowed under the parent and be valid one level deeper. -/
def validateChildren [UrlParser] (parent : RichNode) (content : List RichNode) (depth : Nat) :
    Op Limits AppError Unit :=
  match content with
  | [] => pure ()
  | child :: rest => do
    Op.failIf (¬ parent.childOk child) (.invalidRequest "invalid rich node child")
    child.validate (depth + 1)
    validateChildren parent rest depth
termination_by structural content

end

/-! ### Contents -/

mutual

/-- The media references of a node, in document order. -/
def gatherMedia : RichNode → List MediaReference
  | .media attrs => [attrs]
  | .paragraph content | .heading _ content | .bulletList content | .orderedList _ content
  | .listItem content | .codeBlock _ content | .table content | .tableRow content
  | .tableHeader _ content | .tableCell _ content => gatherMediaAll content
  | .text _ _ | .hardBreak => []
termination_by structural node => node

def gatherMediaAll : List RichNode → List MediaReference
  | [] => []
  | child :: rest => gatherMedia child ++ gatherMediaAll rest
termination_by structural content => content

end

mutual

/-- How many nodes there are, and how many bytes of text they show. -/
def complexity : RichNode → Nat × Nat
  | .text value _ => (1, len value)
  | .hardBreak => (1, 0)
  | .media attrs => (1, len attrs.alt + len attrs.caption)
  | .paragraph content | .heading _ content | .bulletList content | .orderedList _ content
  | .listItem content | .codeBlock _ content | .table content | .tableRow content
  | .tableHeader _ content | .tableCell _ content => ((complexityAll content).1 + 1, (complexityAll content).2)
termination_by structural node => node

def complexityAll : List RichNode → Nat × Nat
  | [] => (0, 0)
  | child :: rest => ((complexity child).1 + (complexityAll rest).1, (complexity child).2 + (complexityAll rest).2)
termination_by structural content => content

end

/-! ### Rendering -/

end RichNode

namespace Text

/-- `str::replace` of one character. -/
def replaceChar (c : Char) (by_ : String) (s : String) : String :=
  String.ofList (s.toList.flatMap fun d => if d = c then by_.toList else [d])

/-- `str::repeat`. -/
def repeat_ (s : String) (n : Nat) : String :=
  String.ofList (List.replicate n s.toList).flatten

/-- `join`. -/
def join (sep : String) (parts : List String) : String :=
  String.ofList ((parts.map String.toList).intersperse sep.toList).flatten

end Text

def escapeHtml (text : String) : String :=
  Text.replaceChar '\'' "&#39;" (Text.replaceChar '"' "&quot;" (Text.replaceChar '>' "&gt;"
    (Text.replaceChar '<' "&lt;" (Text.replaceChar '&' "&amp;" text))))

/-- The punctuation Markdown reads, which gets a backslash. -/
def markdownPunctuation : List Char :=
  ['\\', '`', '*', '_', '{', '}', '[', ']', '(', ')', '#', '+', '-', '.', '!', '>', '|', '~']

def escapeMarkdown (text : String) : String :=
  String.ofList (text.toList.flatMap fun c =>
    if c = '&' then "&amp;".toList
    else if c = '<' then "&lt;".toList
    else if c ∈ markdownPunctuation then ['\\', c]
    else [c])

namespace MediaReference

def relativePath (media : MediaReference) : String :=
  "media/" ++ media.objectId.toString ++ "-" ++ toString media.objectVersion

end MediaReference

namespace RichMark

def html (value : String) : RichMark → String
  | .bold => "<strong>" ++ value ++ "</strong>"
  | .italic => "<em>" ++ value ++ "</em>"
  | .strike => "<s>" ++ value ++ "</s>"
  | .underline => "<u>" ++ value ++ "</u>"
  | .code => "<code>" ++ value ++ "</code>"
  | .link attrs =>
    "<a href=\"" ++ escapeHtml attrs.href ++ "\"" ++ attrs.title.elim ""
      (fun title => " title=\"" ++ escapeHtml title ++ "\"") ++ " rel=\"noopener noreferrer\">" ++ value ++ "</a>"

/-- Underlined and code text renders as HTML, so neither mark is met here. -/
def markdown (value : String) : RichMark → String
  | .bold => "**" ++ value ++ "**"
  | .italic => "*" ++ value ++ "*"
  | .strike => "~~" ++ value ++ "~~"
  | .underline => value
  | .code => value
  | .link attrs =>
    let target := Text.replaceChar ')' "%29" (Text.replaceChar '(' "%28" (Text.replaceChar '>' "%3E"
      (Text.replaceChar '<' "%3C" (Text.replaceChar '"' "%22" attrs.href))))
    match attrs.title with
    | some title =>
      "[" ++ value ++ "](" ++ target ++ " \""
        ++ Text.replaceChar '"' "\\\"" (Text.replaceChar '\\' "\\\\" title) ++ "\")"
    | none => "[" ++ value ++ "](" ++ target ++ ")"

end RichMark

namespace TableCellAttrs

/-- The HTML attributes of a cell. -/
def properties (attrs : TableCellAttrs) : String :=
  (if attrs.colspan > 1 then " colspan=\"" ++ toString attrs.colspan ++ "\"" else "")
    ++ (if attrs.rowspan > 1 then " rowspan=\"" ++ toString attrs.rowspan ++ "\"" else "")
    ++ (match attrs.alignment with
      | some .left => " style=\"text-align:left\""
      | some .center => " style=\"text-align:center\""
      | some .right => " style=\"text-align:right\""
      | none => "")
    ++ (match attrs.colwidth with
      | some widths => " data-colwidth=\"" ++ Text.join "," (widths.map toString) ++ "\""
      | none => "")

end TableCellAttrs

namespace RichNode

/-- The text of the text nodes among some children. -/
def codeText (f : String → String) (content : List RichNode) : String :=
  String.join (content.filterMap fun
    | .text value _ => some (f value)
    | _ => none)

mutual

/-- The HTML of a node, without a media path map. -/
def html : RichNode → String
  | .text value marks => marks.foldl RichMark.html (escapeHtml value)
  | .hardBreak => "<br>"
  | .paragraph content => "<p>" ++ htmlAll content ++ "</p>"
  | .heading attrs content =>
    "<h" ++ toString attrs.level ++ ">" ++ htmlAll content ++ "</h" ++ toString attrs.level ++ ">"
  | .bulletList content => "<ul>" ++ htmlAll content ++ "</ul>"
  | .orderedList attrs content => "<ol start=\"" ++ toString attrs.start ++ "\">" ++ htmlAll content ++ "</ol>"
  | .listItem content => "<li>" ++ htmlAll content ++ "</li>"
  | .codeBlock attrs content =>
    "<pre><code data-language=\"" ++ escapeHtml ((attrs.bind (·.language)).getD "") ++ "\">"
      ++ codeText escapeHtml content ++ "</code></pre>"
  | .table content => "<table><tbody>" ++ htmlAll content ++ "</tbody></table>"
  | .tableRow content => "<tr>" ++ htmlAll content ++ "</tr>"
  | .tableHeader attrs content => "<th" ++ attrs.elim "" TableCellAttrs.properties ++ ">" ++ htmlAll content ++ "</th>"
  | .tableCell attrs content => "<td" ++ attrs.elim "" TableCellAttrs.properties ++ ">" ++ htmlAll content ++ "</td>"
  | .media attrs =>
    "<figure><img src=\"" ++ attrs.relativePath ++ "\" alt=\"" ++ escapeHtml attrs.alt
      ++ "\"><figcaption>" ++ escapeHtml attrs.caption ++ "</figcaption></figure>"
termination_by structural node => node

def htmlAll : List RichNode → String
  | [] => ""
  | child :: rest => html child ++ htmlAll rest
termination_by structural content => content

end

/-- Whether a node is a text with marks. -/
def marked : RichNode → Bool
  | .text _ marks => !marks.isEmpty
  | _ => false

/-- The longest run of backticks. -/
def longestFence (code : String) : Nat :=
  let step (acc : Nat × Nat) (c : Char) : Nat × Nat :=
    if c = '`' then (acc.1 + 1, max acc.2 (acc.1 + 1)) else (0, acc.2)
  (code.toList.foldl step (0, 0)).2

/-- The marker before the list item of an index. -/
def listMarker (start : Option Nat) (index : Nat) : String :=
  match start with
  | some start => toString (start + index) ++ ". "
  | none => "- "

mutual

/-- The Markdown of a node, without a media path map. -/
def markdown : RichNode → String
  | .text value marks =>
    if !marks.isEmpty && (trim value ≠ value || marks.any fun mark => mark = .underline || mark = .code) then
      html (.text value marks)
    else marks.foldl RichMark.markdown (escapeMarkdown value)
  | .hardBreak => "  \n"
  | .paragraph content => inlineMarkdown false content
  | .heading attrs content => Text.repeat_ "#" attrs.level.toNat ++ " " ++ inlineMarkdown false content
  | .bulletList content => Text.join "\n" (listMarkdown none 0 content)
  | .orderedList attrs content =>
    -- Ordered markers have at most nine digits.
    if attrs.start.toNat + content.length > 1000000000 then html (.orderedList attrs content)
    else Text.join "\n" (listMarkdown (some attrs.start.toNat) 0 content)
  | .listItem content => itemMarkdown true content
  | .codeBlock attrs content =>
    let code := codeText id content
    let fence := Text.repeat_ "`" (max 3 (longestFence code + 1))
    fence ++ (attrs.bind (·.language)).getD "" ++ "\n" ++ code ++ "\n" ++ fence
  | .table content => html (.table content)
  | .tableRow content => html (.tableRow content)
  | .tableHeader attrs content => html (.tableHeader attrs content)
  | .tableCell attrs content => html (.tableCell attrs content)
  | .media attrs =>
    "![" ++ escapeMarkdown attrs.alt ++ "](" ++ attrs.relativePath ++ ")\n\n" ++ escapeMarkdown attrs.caption
termination_by structural node => node

/-- Marked texts next to each other render as HTML. -/
def inlineMarkdown (previousMarked : Bool) : List RichNode → String
  | [] => ""
  | child :: rest =>
    (if marked child && (previousMarked || rest.head?.any marked) then html child
      else markdown child)
      ++ inlineMarkdown (marked child) rest
termination_by structural content => content

/-- The items of a list, each under its marker and indented below it. -/
def listMarkdown (start : Option Nat) (index : Nat) : List RichNode → List String
  | [] => []
  | item :: rest =>
    (listMarker start index
        ++ Text.replaceChar '\n' ("\n" ++ Text.repeat_ " " (len (listMarker start index))) (markdown item))
      :: listMarkdown start (index + 1) rest
termination_by structural content => content

/-- The blocks of a list item: a blank line before a paragraph, a line break before a list. -/
def itemMarkdown (first : Bool) : List RichNode → String
  | [] => ""
  | child :: rest =>
    (if first then "" else if child matches .paragraph _ then "\n\n" else "\n")
      ++ markdown child ++ itemMarkdown false rest
termination_by structural content => content

end

end RichNode

namespace RichContent

def validate [UrlParser] (content : RichContent) : Except AppError Unit := do
  failIf (content.version ≠ 1) (.invalidRequest "unsupported rich node version")
  failIf
    (¬ (content.node matches .paragraph _ | .heading _ _ | .bulletList _ | .orderedList _ _
      | .codeBlock _ _ | .table _ | .media _))
    (.invalidRequest "rich block root must be a block node")
  ((content.node.validate 0).run { nodes := 0, textBytes := 0 }).1

def mediaReferences (content : RichContent) : List MediaReference :=
  content.node.gatherMedia

def complexity (content : RichContent) : Nat × Nat :=
  content.node.complexity

def markdown (content : RichContent) : String :=
  content.node.markdown ++ "\n\n"

end RichContent

end GeoMaster
